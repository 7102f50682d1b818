import MiniDbms.Library.CString

/-!
# Files and line input of `stdio.h`

A directory maps paths to the bytes of the files that exist. A stream open for reading is the
bytes not read yet.
-/

namespace MiniDbms

/-- The content of every existing file. -/
abbrev Files := CString → Option CString

/-- The bytes `fgets` stores when it has room for `room` of them, and the bytes it leaves. -/
def fgets : (room : Nat) → CString → CString × CString
  | 0, s             => ([], s)
  | _ + 1, []        => ([], [])
  | room + 1, b :: s =>
    if b = chr '\n' then ([b], s) else (b :: (fgets room s).1, (fgets room s).2)

/-- `feof` after `fgets` with that room has returned `line`: it came to the end of the file before
the room was used up or a newline was read. -/
def feofAfter (room : Nat) (line : CString) : Bool := line.length < room && !line.contains (chr '\n')

/-- The lines that repeated calls of `fgets` return. -/
def readLines (room : Nat) : (fuel : Nat) → CString → List CString
  | _, []            => []
  | 0, _ :: _        => []
  | fuel + 1, b :: s => (fgets room (b :: s)).1 :: readLines room fuel (fgets room (b :: s)).2

/-- A line that `fgets` returns whole: its only newline is its last byte. -/
def IsLine (room : Nat) (line : CString) : Prop :=
  ∃ body, line = body ++ [chr '\n'] ∧ chr '\n' ∉ body ∧ line.length ≤ room

variable {room : Nat}

lemma fgets_append (room : Nat) (s : CString) : (fgets room s).1 ++ (fgets room s).2 = s := by
  induction room generalizing s with
  | zero => rfl
  | succ room ih =>
    cases s with
    | nil => rfl
    | cons b s =>
      rw [fgets]
      split_ifs
      · rfl
      · simp [ih]

lemma fgets_rest (room : Nat) (s : CString) : (fgets room s).2 = s.drop (fgets room s).1.length := by
  conv_rhs =>
    enter [2]
    rw [← fgets_append room s]
  rw [List.drop_left]

/-- What is read before the end of a stream does not depend on what is appended to it. -/
lemma fgets_append_of_rest {s : CString} (h : (fgets room s).2 ≠ []) (t : CString) :
    fgets room (s ++ t) = ((fgets room s).1, (fgets room s).2 ++ t) := by
  induction room generalizing s with
  | zero => rfl
  | succ room ih =>
    cases s with
    | nil => exact absurd rfl h
    | cons b s =>
      rw [List.cons_append, fgets, fgets]
      rw [fgets] at h
      split_ifs at h ⊢
      · rfl
      · rw [ih h]

lemma fgets_rest_length {b : Byte} {s : CString} (hroom : 0 < room) :
    (fgets room (b :: s)).2.length ≤ s.length := by
  obtain ⟨room, rfl⟩ : ∃ n, room = n + 1 := ⟨room - 1, by omega⟩
  rw [fgets]
  split_ifs
  · exact le_rfl
  · have happend := congrArg List.length (fgets_append room s)
    rw [List.length_append] at happend
    dsimp only
    omega

/-- What `fgets` stores is a whole line as soon as there is a newline in it. -/
lemma fgets_isLine {s : CString} (h : chr '\n' ∈ (fgets room s).1) :
    IsLine room (fgets room s).1 := by
  induction room generalizing s with
  | zero => cases h
  | succ room ih =>
    cases s with
    | nil => cases h
    | cons b s =>
      rw [fgets] at h ⊢
      split_ifs at h ⊢ with hb
      · exact ⟨[], by simp [hb], List.not_mem_nil, by simp⟩
      · have hmem : chr '\n' ∈ (fgets room s).1 := (List.mem_cons.mp h).resolve_left (Ne.symm hb)
        obtain ⟨body, hline, hbody, hlen⟩ := ih hmem
        refine ⟨b :: body, by simp [hline], ?_, by simpa using hlen⟩
        rw [List.mem_cons, not_or]
        exact ⟨Ne.symm hb, hbody⟩

/-- Without a newline and with room left, `fgets` has stored the whole stream. -/
lemma fgets_all {s : CString} (h : chr '\n' ∉ (fgets room s).1)
    (hlen : (fgets room s).1.length < room) : (fgets room s).1 = s := by
  induction room generalizing s with
  | zero => cases hlen
  | succ room ih =>
    cases s with
    | nil => rfl
    | cons b s =>
      rw [fgets] at h hlen ⊢
      split_ifs at h hlen ⊢ with hb
      · exact absurd (by simp [hb]) h
      · rw [List.mem_cons, not_or] at h
        rw [ih h.2 (by simpa using hlen)]

/-- `fgets` does not read beyond a newline. -/
lemma fgets_prefix_newline (room : Nat) (body rest : CString) :
    (fgets room (body ++ chr '\n' :: rest)).1 <+: body ++ [chr '\n'] := by
  induction body generalizing room with
  | nil =>
    cases room with
    | zero => exact List.nil_prefix
    | succ room =>
      rw [List.nil_append, fgets, if_pos rfl]
      exact List.prefix_refl _
  | cons b body ih =>
    cases room with
    | zero => exact List.nil_prefix
    | succ room =>
      rw [List.cons_append, fgets]
      split_ifs
      · exact List.prefix_cons_inj b |>.mpr List.nil_prefix
      · exact List.prefix_cons_inj b |>.mpr (ih room)

/-- Fuel beyond the length of the stream changes nothing. -/
lemma readLines_fuel (hroom : 0 < room) {fuel : Nat} {s : CString} (h : s.length ≤ fuel) :
    readLines room fuel s = readLines room s.length s := by
  induction fuel using Nat.strong_induction_on generalizing s with
  | _ fuel ih =>
    cases s with
    | nil => simp [readLines]
    | cons b s =>
      obtain ⟨fuel, rfl⟩ : ∃ n, fuel = n + 1 := ⟨fuel - 1, by simp at h; omega⟩
      rw [List.length_cons, Nat.add_le_add_iff_right] at h
      have hlen := fgets_rest_length (b := b) (s := s) hroom
      rw [readLines, List.length_cons, readLines, ih fuel (Nat.lt_succ_self _) (hlen.trans h),
        ih s.length (by omega) hlen]

/-- The first line is what the first call of `fgets` returns. -/
lemma readLines_first (hroom : 0 < room) {s : CString} (hne : s ≠ []) :
    readLines room s.length s =
      (fgets room s).1 :: readLines room (fgets room s).2.length (fgets room s).2 := by
  cases s with
  | nil => exact absurd rfl hne
  | cons b s => rw [List.length_cons, readLines, readLines_fuel hroom (fgets_rest_length hroom)]

/-- What is appended to a stream is read with its last line. -/
lemma readLines_append (hroom : 0 < room) {s : CString} (hne : s ≠ []) :
    ∃ before last, readLines room s.length s = before ++ [last] ∧
      ∀ t, readLines room (s ++ t).length (s ++ t) =
        before ++ readLines room (last ++ t).length (last ++ t) := by
  induction hlen : s.length using Nat.strong_induction_on generalizing s with
  | _ n ih =>
    obtain ⟨b, s, rfl⟩ := List.exists_cons_of_ne_nil hne
    rw [← hlen, readLines_first hroom hne]
    by_cases hrest : (fgets room (b :: s)).2 = []
    · refine ⟨[], b :: s, ?_, fun t => rfl⟩
      have hall := fgets_append room (b :: s)
      rw [hrest, List.append_nil] at hall
      rw [hrest, hall]
      rfl
    · have hlt : (fgets room (b :: s)).2.length < n := by
        have hle := fgets_rest_length (b := b) (s := s) hroom
        rw [List.length_cons] at hlen
        omega
      obtain ⟨before, last, hlines, happend⟩ := ih _ hlt hrest rfl
      refine ⟨(fgets room (b :: s)).1 :: before, last, by rw [hlines]; rfl, fun t => ?_⟩
      rw [readLines_first hroom (by simp), fgets_append_of_rest hrest, happend]
      rfl

/-- A line has only bytes of the stream. -/
lemma readLines_subset {fuel : Nat} {s line : CString} (h : line ∈ readLines room fuel s) :
    line ⊆ s := by
  induction fuel generalizing s with
  | zero => cases s <;> cases h
  | succ fuel ih =>
    cases s with
    | nil => cases h
    | cons b s =>
      have happend := fgets_append room (b :: s)
      intro c hc
      rw [← happend]
      rcases List.mem_cons.mp h with rfl | h
      · exact List.mem_append_left _ hc
      · exact List.mem_append_right _ (ih h hc)

lemma fgets_length_le (room : Nat) (s : CString) : (fgets room s).1.length ≤ room := by
  induction room generalizing s with
  | zero => exact le_rfl
  | succ room ih =>
    cases s with
    | nil => exact Nat.zero_le _
    | cons b s =>
      have htail := ih s
      rw [fgets]
      split_ifs
      · exact Nat.succ_le_succ (Nat.zero_le _)
      · exact Nat.succ_le_succ htail

lemma length_le_of_mem_readLines {fuel : Nat} {s line : CString} (h : line ∈ readLines room fuel s) :
    line.length ≤ room := by
  induction fuel generalizing s with
  | zero => cases s <;> cases h
  | succ fuel ih =>
    cases s with
    | nil => cases h
    | cons b s =>
      rw [readLines] at h
      rcases List.mem_cons.mp h with rfl | h
      · exact fgets_length_le _ _
      · exact ih h

/-- The lines together are the stream. -/
lemma flatten_readLines (hroom : 0 < room) {fuel : Nat} {s : CString} (h : s.length ≤ fuel) :
    (readLines room fuel s).flatten = s := by
  induction fuel generalizing s with
  | zero =>
    obtain rfl : s = [] := List.length_eq_zero_iff.mp (Nat.le_zero.mp h)
    rfl
  | succ fuel ih =>
    cases s with
    | nil => rfl
    | cons b s =>
      rw [List.length_cons, Nat.add_le_add_iff_right] at h
      rw [readLines, List.flatten_cons, ih ((fgets_rest_length hroom).trans h), fgets_append]

lemma ne_nil_of_mem_readLines (hroom : 0 < room) {fuel : Nat} {s line : CString}
    (h : line ∈ readLines room fuel s) : line ≠ [] := by
  obtain ⟨room, rfl⟩ : ∃ n, room = n + 1 := ⟨room - 1, by omega⟩
  induction fuel generalizing s with
  | zero => cases s <;> cases h
  | succ fuel ih =>
    cases s with
    | nil => cases h
    | cons b s =>
      rcases List.mem_cons.mp h with rfl | h
      · rw [fgets]
        split_ifs <;> simp
      · exact ih h

/-- A line with a newline has no other, and nothing behind it. -/
lemma isLine_of_mem_readLines {fuel : Nat} {s line : CString} (h : line ∈ readLines room fuel s)
    (hmem : chr '\n' ∈ line) : IsLine room line := by
  induction fuel generalizing s with
  | zero => cases s <;> cases h
  | succ fuel ih =>
    cases s with
    | nil => cases h
    | cons b s =>
      rw [readLines] at h
      rcases List.mem_cons.mp h with rfl | h
      · exact fgets_isLine hmem
      · exact ih h

lemma fgets_line {line : CString} (hline : IsLine room line) (rest : CString) :
    fgets room (line ++ rest) = (line, rest) := by
  obtain ⟨body, rfl, hbody, hlen⟩ := hline
  induction body generalizing room with
  | nil =>
    obtain ⟨room, rfl⟩ : ∃ n, room = n + 1 := ⟨room - 1, by simp at hlen; omega⟩
    simp [fgets]
  | cons b body ih =>
    obtain ⟨room, rfl⟩ : ∃ n, room = n + 1 := ⟨room - 1, by simp at hlen; omega⟩
    have hb : b ≠ chr '\n' := fun h => hbody (by simp [h])
    have hrest := @ih room (fun h => hbody (by simp [h])) (by simpa using hlen)
    simp only [List.append_assoc, List.singleton_append] at hrest
    simp [fgets, hb, hrest]

/-- A line that has been ended is read by itself. -/
lemma fgets_append_ended {s : CString} (hended : s.getLast? = some (chr '\n')) (t : CString) :
    fgets room (s ++ t) = ((fgets room s).1, (fgets room s).2 ++ t) := by
  by_cases hrest : (fgets room s).2 = []
  · have hall := fgets_append room s
    rw [hrest, List.append_nil] at hall
    have hline : IsLine room s := by
      rw [← hall]
      exact fgets_isLine (by rw [hall]; exact List.mem_of_getLast? hended)
    rw [fgets_line hline, hrest, hall]
    rfl
  · exact fgets_append_of_rest hrest t

lemma fgets_rest_ended {s : CString} (hended : s.getLast? = some (chr '\n')) :
    (fgets room s).2 = [] ∨ (fgets room s).2.getLast? = some (chr '\n') := by
  by_cases hrest : (fgets room s).2 = []
  · exact .inl hrest
  · right
    rw [← fgets_append room s, List.getLast?_append_of_ne_nil _ hrest] at hended
    exact hended

/-- A whole line at the start of the stream is read first. -/
lemma readLines_line {line : CString} (hline : IsLine room line) (rest : CString) :
    readLines room (line ++ rest).length (line ++ rest) =
      line :: readLines room rest.length rest := by
  have hroom : 0 < room := by
    obtain ⟨body, rfl, -, hlen⟩ := hline
    simp at hlen
    omega
  have hfgets := fgets_line hline rest
  obtain ⟨b, s, hs⟩ : ∃ b s, line ++ rest = b :: s := by
    obtain ⟨body, rfl, -⟩ := hline
    exact List.exists_cons_of_ne_nil (by simp)
  have hlen : rest.length ≤ s.length := by
    have h := fgets_rest_length (b := b) (s := s) hroom
    rwa [← hs, hfgets] at h
  rw [hs] at hfgets ⊢
  rw [List.length_cons, readLines, hfgets, readLines_fuel hroom hlen]

/-- What is behind an ended line is read by itself. -/
lemma readLines_append_ended (hroom : 0 < room) {s : CString}
    (hended : s = [] ∨ s.getLast? = some (chr '\n')) (t : CString) :
    readLines room (s ++ t).length (s ++ t) =
      readLines room s.length s ++ readLines room t.length t := by
  rcases hended with rfl | hended
  · rfl
  have hne : s ≠ [] := by
    rintro rfl
    cases hended
  obtain ⟨before, last, hlines, happend⟩ := readLines_append hroom hne
  have hmem : last ∈ readLines room s.length s := by simp [hlines]
  have hlast : chr '\n' ∈ last := by
    have hflat := flatten_readLines hroom (le_refl s.length)
    have hnonempty := ne_nil_of_mem_readLines hroom hmem
    rw [hlines, List.flatten_append, List.flatten_singleton] at hflat
    rw [← hflat, List.getLast?_append_of_ne_nil _ hnonempty] at hended
    exact List.mem_of_getLast? hended
  rw [happend, hlines, readLines_line (isLine_of_mem_readLines hmem hlast), List.append_assoc,
    List.singleton_append]

lemma readLines_flatten {lines : List CString} (h : ∀ line ∈ lines, IsLine room line)
    (rest : CString) :
    readLines room (lines.flatten ++ rest).length (lines.flatten ++ rest) =
      lines ++ readLines room rest.length rest := by
  induction lines with
  | nil => rfl
  | cons line lines ih =>
    rw [List.flatten_cons, List.append_assoc, readLines_line (h line (by simp)),
      ih fun l hl => h l (by simp [hl]), List.cons_append]

end MiniDbms
