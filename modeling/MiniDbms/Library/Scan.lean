import MiniDbms.Library.Search

/-!
# Reading words and numbers from C strings

A position in a string is the text from there on.
-/

namespace MiniDbms

/-- `tolower` -/
def tolower (b : Byte) : Byte := if isupper b then b + 32 else b

/-- `strncasecmp`: the first difference within `n` bytes, letters being compared in lower case. -/
def strncasecmp : (n : Nat) → CString → CString → Int
  | 0, _, _               => 0
  | _ + 1, [], []         => 0
  | _ + 1, [], _ :: _     => -1
  | _ + 1, _ :: _, []     => 1
  | n + 1, a :: s, b :: t =>
    if tolower a < tolower b then -1
    else if tolower b < tolower a then 1
    else strncasecmp n s t

/-- `strtoull(text, NULL, 10)`: values beyond `ULLONG_MAX` are saturated, a sign negates the others
modulo `2 ^ 64`. -/
def strtoull (text : CString) : Nat :=
  let negated (n : Nat) := if 2 ^ 64 ≤ n then 2 ^ 64 - 1 else (2 ^ 64 - n) % 2 ^ 64
  match text.dropWhile isspace with
  | []      => 0
  | b :: bs =>
    if b = chr '-' then negated (digitsValue 0 bs)
    else if b = chr '+' then min (2 ^ 64 - 1) (digitsValue 0 bs)
    else min (2 ^ 64 - 1) (digitsValue 0 (b :: bs))

/-- `%Ns` of `scanf`: the word behind the white space, of `width` bytes at most, and the rest. -/
def scanWord (width : Nat) (text : CString) : Option (CBuf width × CString) :=
  match text.dropWhile isspace with
  | []      => none
  | b :: bs =>
    let word := ((b :: bs).takeWhile (fun b => !isspace b)).take width
    some (.truncate width word, (b :: bs).drop word.length)

/-! ### Numbers -/

/-- Digits end at the first byte that is none. -/
lemma digitsValue_append {s : CString} (h : ∃ b ∈ s, isdigit b = false) (acc : Nat) (t : CString) :
    digitsValue acc (s ++ t) = digitsValue acc s := by
  induction s generalizing acc with
  | nil => simp at h
  | cons b s ih =>
    obtain ⟨d, hd, hdigit⟩ := h
    rw [List.cons_append, digitsValue, digitsValue]
    rcases List.mem_cons.mp hd with rfl | hd
    · rw [if_neg (by rw [hdigit]; simp), if_neg (by rw [hdigit]; simp)]
    · rw [ih ⟨d, hd, hdigit⟩]

lemma isdigit_of_isspace {b : Byte} (h : isspace b = true) : isdigit b = false := by
  have hb := forall_byte (p := fun b => isspace b = true → isdigit b = false) (by decide +kernel) b
  exact hb h

lemma strtoull_blank {s : CString} (h : ∀ b ∈ s, isspace b = true) : strtoull s = 0 := by
  rw [strtoull, List.dropWhile_eq_nil_iff.mpr h]

/-- A text that ends with a space holds the whole number, unless it is blank: then the number is
looked for in what follows. -/
lemma strtoull_append {s : CString} {space : Byte} (hspace : isspace space = true)
    (t : CString) : strtoull (s ++ [space] ++ t) = strtoull (s ++ [space]) ∨
      strtoull (s ++ [space]) = 0 := by
  have hdigit := isdigit_of_isspace hspace
  induction s with
  | nil => exact Or.inr (strtoull_blank (by simpa using hspace))
  | cons b s ih =>
    cases hb : isspace b with
    | true =>
      have hskip : ∀ u : CString, strtoull (b :: u) = strtoull u := by
        intro u
        rw [strtoull, strtoull, List.dropWhile_cons_of_pos hb]
      simpa only [List.cons_append, hskip] using ih
    | false =>
      have hmem : space ∈ s ++ [space] := by simp
      have hfirst : ∀ u : CString, (b :: u).dropWhile isspace = b :: u :=
        fun u => List.dropWhile_cons_of_neg (by simpa using hb)
      have hvalue := digitsValue_append ⟨space, List.mem_cons_of_mem b hmem, hdigit⟩ 0 t
      left
      rw [List.cons_append, List.cons_append, strtoull, strtoull, hfirst, hfirst]
      rw [List.cons_append] at hvalue
      simp only [digitsValue_append ⟨space, hmem, hdigit⟩ 0 t, hvalue]

/-! ### Comparison -/

/-- What stands behind a byte that the key does not hold is not compared with it. -/
lemma strncasecmp_append {s key : CString} {stop : Byte} (t : CString)
    (hstop : ∀ b ∈ key, tolower b ≠ tolower stop) :
    strncasecmp key.length (s ++ stop :: t) key = strncasecmp key.length (s ++ [stop]) key := by
  induction key generalizing s with
  | nil => rfl
  | cons c key ih =>
    have hkey : ∀ b ∈ key, tolower b ≠ tolower stop :=
      fun b hb => hstop b (List.mem_cons_of_mem c hb)
    have hne := hstop c List.mem_cons_self
    cases s with
    | nil =>
      simp only [List.nil_append, List.length_cons, strncasecmp]
      split_ifs with hlt hgt
      · rfl
      · rfl
      · exact absurd (UInt8.le_antisymm (UInt8.not_lt.mp hlt) (UInt8.not_lt.mp hgt)) hne
    | cons b s =>
      simp only [List.cons_append, List.length_cons, strncasecmp, ih hkey]

lemma strncasecmp_eq_zero {s key : CString} (h : strncasecmp key.length s key = 0) :
    ∃ p rest, s = p ++ rest ∧ p.map tolower = key.map tolower := by
  induction key generalizing s with
  | nil => exact ⟨[], s, rfl, rfl⟩
  | cons c key ih =>
    cases s with
    | nil => exact absurd h (by simp [strncasecmp])
    | cons b s =>
      rw [List.length_cons, strncasecmp] at h
      split_ifs at h with hlt hgt
      · exact absurd h (by simp)
      · obtain ⟨p, rest, rfl, hp⟩ := ih h
        have hb := UInt8.le_antisymm (UInt8.not_lt.mp hgt) (UInt8.not_lt.mp hlt)
        exact ⟨b :: p, rest, rfl, by rw [List.map_cons, List.map_cons, hb, hp]⟩

/-! ### Words -/

/-- A word that fits is read up to the white space behind it. -/
lemma scanWord_append {width : Nat} {word : CBuf width} {blanks rest : CString}
    (hblanks : ∀ b ∈ blanks, isspace b = true) (hne : word.val ≠ [])
    (hword : ∀ b ∈ word.val, isspace b = false) (hrest : ∀ b ∈ rest.head?, isspace b = true) :
    scanWord width (blanks ++ (word.val ++ rest)) = some (word, rest) := by
  have hstop : rest.takeWhile (fun b => !isspace b) = [] := by
    cases rest with
    | nil => rfl
    | cons c rest => exact List.takeWhile_cons_of_neg (by simp [hrest c rfl])
  have hall : (word.val ++ rest).takeWhile (fun b => !isspace b) = word.val := by
    rw [List.takeWhile_append_of_pos (by simpa using hword), hstop, List.append_nil]
  obtain ⟨b, bs, hbs⟩ := List.exists_cons_of_ne_nil hne
  have hb := hword b (hbs ▸ List.mem_cons_self)
  have hskip : (blanks ++ (word.val ++ rest)).dropWhile isspace = b :: (bs ++ rest) := by
    rw [List.dropWhile_append_of_pos hblanks, hbs]
    exact List.dropWhile_cons_of_neg (by simp [hb])
  have hsplit : b :: (bs ++ rest) = word.val ++ rest := by rw [hbs, List.cons_append]
  rw [scanWord, hskip]
  dsimp only
  rw [hsplit, hall, List.take_of_length_le word.2.1, CBuf.truncate_val, List.drop_left]

end MiniDbms
