import MiniDbms.Api.RequestBody
import MiniDbms.Library.HeaderBlock

/-!
# The header of a message

What the functions that look for the end of the header and for the length of the content find in a
header that is written as lines.
-/

namespace MiniDbms

/-- The text behind which the length of the content stands. -/
def contentLengthKey : CString := bytes "Content-Length:"

/-- The line that `api_server_extract_content_length` stops at. -/
def IsContentLength (line : CString) : Prop :=
  strncasecmp contentLengthKey.length (line ++ [chr '\r']) contentLengthKey = 0

instance (line : CString) : Decidable (IsContentLength line) := inferInstanceAs (Decidable (_ = _))

variable {lines before after : List CString} {line : CString}

lemma headerLength_headerBlock (hne : lines ≠ []) (h : ∀ line ∈ lines, IsHeaderLine line)
    (body : CString) :
    headerLength (headerBlock lines ++ body) = some (headerBlock lines).length := by
  have hlength : 4 ≤ (headerBlock lines).length := by
    obtain ⟨line, lines, rfl⟩ := List.exists_cons_of_ne_nil hne
    have hline := List.length_pos_of_ne_nil (h line List.mem_cons_self).1
    have hrest := length_headerBlock_pos lines
    rw [headerBlock_cons, List.length_append, List.length_append,
      show (bytes "\r\n").length = 2 from rfl]
    omega
  rw [headerLength, show headerEnd = bytes "\r\n\r\n" from rfl, strstr_headerBlock hne h,
    Option.map_some, List.length_append, List.length_append,
    show (bytes "\r\n\r\n").length = 4 from rfl]
  congr 1
  omega

/-- A line that begins otherwise does not have the key. -/
lemma not_isContentLength_cons {b : Byte} (h : tolower b ≠ chr 'c') (line : CString) :
    ¬ IsContentLength (b :: line) := by
  intro hkey
  obtain ⟨p, rest, hline, hp⟩ := strncasecmp_eq_zero hkey
  obtain ⟨c, p, rfl⟩ := List.exists_cons_of_ne_nil (l := p) (by rintro rfl; cases hp)
  have hb : b = c := (List.cons.inj hline).1
  have hc : tolower c = chr 'c' := (List.cons.inj hp).1
  exact h (hb ▸ hc)

lemma strncasecmp_of_map_tolower {p key : CString} (h : p.map tolower = key.map tolower)
    (rest : CString) : strncasecmp key.length (p ++ rest) key = 0 := by
  induction key generalizing p with
  | nil => rfl
  | cons c key ih =>
    cases p with
    | nil => cases h
    | cons b p =>
      obtain ⟨hb, hp⟩ := List.cons.inj h
      rw [List.length_cons, List.cons_append, strncasecmp, hb, if_neg (UInt8.lt_irrefl _),
        if_neg (UInt8.lt_irrefl _), ih hp]

/-- The key may be written in any case. -/
lemma isContentLength_append {key : CString} (h : key.map tolower = contentLengthKey.map tolower)
    (rest : CString) : IsContentLength (key ++ rest) := by
  rw [IsContentLength, List.append_assoc]
  exact strncasecmp_of_map_tolower h _

/-! ### Line by line -/

lemma isContentLength_iff (line rest : CString) :
    strncasecmp 15 (line ++ bytes "\r\n" ++ rest) (bytes "Content-Length:") = 0 ↔
      IsContentLength line := by
  have hstop : ∀ b ∈ contentLengthKey, tolower b ≠ tolower (chr '\r') := forall_mem_of_all rfl
  have hcompare := @strncasecmp_append line contentLengthKey (chr '\r') (chr '\n' :: rest) hstop
  rw [IsContentLength, ← hcompare, List.append_assoc]
  rfl

/-- The loop passes over a line or stops at it. -/
lemma extractContentLengthLoop_line (h : IsHeaderLine line) (fuel : Nat) (rest : CString) :
    extractContentLengthLoop (fuel + 1) (line ++ bytes "\r\n" ++ rest) =
      if IsContentLength line then contentLengthValue (line ++ bytes "\r\n" ++ rest)
      else extractContentLengthLoop fuel rest := by
  have hfound : strstr (line ++ bytes "\r\n" ++ rest) crlf = some (bytes "\r\n" ++ rest) :=
    strstr_lineEnd h.2 rest
  have hfirst : ¬ bytes "\r\n" ++ rest = line ++ bytes "\r\n" ++ rest := by
    intro heq
    have hlength := congrArg List.length heq
    have hpos := List.length_pos_of_ne_nil h.1
    simp only [List.length_append] at hlength
    omega
  rw [extractContentLengthLoop, hfound]
  dsimp only
  rw [if_neg hfirst]
  simp only [isContentLength_iff]
  rfl

/-- The first line with the key counts. -/
lemma apiServerExtractContentLength_headerBlock
    (hbefore : ∀ l ∈ before, IsHeaderLine l ∧ ¬ IsContentLength l) (hline : IsHeaderLine line)
    (hkey : IsContentLength line) (rest : CString) :
    apiServerExtractContentLength (headerBlock (before ++ line :: after) ++ rest) =
      contentLengthValue (line ++ bytes "\r\n" ++ (headerBlock after ++ rest)) := by
  have hloop : ∀ fuel, before.length < fuel →
      extractContentLengthLoop fuel (headerBlock (before ++ line :: after) ++ rest) =
        contentLengthValue (line ++ bytes "\r\n" ++ (headerBlock after ++ rest)) := by
    induction before with
    | nil =>
      intro fuel hfuel
      obtain ⟨fuel, rfl⟩ := Nat.exists_eq_add_of_lt hfuel
      rw [List.nil_append, headerBlock_cons, List.append_assoc _ (headerBlock after),
        extractContentLengthLoop_line hline, if_pos hkey]
    | cons first before ih =>
      intro fuel hfuel
      rw [List.length_cons] at hfuel
      obtain ⟨fuel, rfl⟩ : ∃ f, fuel = f + 1 := ⟨fuel - 1, by omega⟩
      obtain ⟨hfirst, hother⟩ := hbefore first List.mem_cons_self
      rw [List.cons_append, headerBlock_cons, List.append_assoc _ (headerBlock _),
        extractContentLengthLoop_line hfirst, if_neg hother]
      exact ih (fun l hl => hbefore l (List.mem_cons_of_mem first hl)) fuel (by omega)
  apply hloop
  have hcount : ∀ ls : List CString, ls.length < (headerBlock ls).length := by
    intro ls
    induction ls with
    | nil => decide
    | cons l ls ih =>
      rw [headerBlock_cons, List.length_cons, List.length_append, List.length_append,
        show (bytes "\r\n").length = 2 from rfl]
      omega
  have hlines := hcount (before ++ line :: after)
  rw [List.length_append] at hlines ⊢
  omega

/-! ### The value -/

/-- Digits up to a byte that is none. -/
lemma strtoull_natDigits {n : Nat} (hn : n < 2 ^ 64) {stop : Byte} (hstop : isdigit stop = false)
    (rest : CString) : strtoull (natDigits n ++ stop :: rest) = n := by
  obtain ⟨b, bs, hbs⟩ := List.exists_cons_of_ne_nil (natDigits_ne_nil n)
  have hb := isdigit_facts (isdigit_of_mem_natDigits b (hbs ▸ List.mem_cons_self))
  have hall : ∀ s : CString, (∀ c ∈ s, isdigit c = true) → ∀ acc,
      digitsValue acc (s ++ stop :: rest) = digitsValue acc s := by
    intro s
    induction s with
    | nil => simp [digitsValue, hstop]
    | cons c s ih =>
      intro hs acc
      rw [List.cons_append, digitsValue, digitsValue, if_pos (hs c List.mem_cons_self),
        if_pos (hs c List.mem_cons_self)]
      exact ih (fun d hd => hs d (List.mem_cons_of_mem c hd)) _
  have hvalue := hall (natDigits n) isdigit_of_mem_natDigits 0
  rw [digitsValue_natDigits, hbs, List.cons_append] at hvalue
  rw [hbs, List.cons_append, strtoull, List.dropWhile_cons_of_neg (by simp [hb.1])]
  simp only [hb.2.1, hb.2.2.1, if_false, hvalue]
  omega

/-- The value of a line with the key, blanks and digits. -/
lemma contentLengthValue_natDigits {n : Nat} (hn : n < 2 ^ 64) {key blanks : CString}
    (hkey : key.length = 15) (hblanks : ∀ b ∈ blanks, b = chr ' ' ∨ b = chr '\t')
    (rest : CString) :
    contentLengthValue (key ++ blanks ++ natDigits n ++ bytes "\r\n" ++ rest) = n := by
  obtain ⟨b, bs, hbs⟩ := List.exists_cons_of_ne_nil (natDigits_ne_nil n)
  have hdigit := isdigit_facts (isdigit_of_mem_natDigits b (hbs ▸ List.mem_cons_self))
  have hblank : ¬ (b == chr ' ' || b == chr '\t') = true := by
    intro h
    rw [Bool.or_eq_true, beq_iff_eq, beq_iff_eq] at h
    rcases h with rfl | rfl
    · exact absurd hdigit.1 (by decide)
    · exact absurd hdigit.1 (by decide)
  have hskip : (blanks ++ (natDigits n ++ (bytes "\r\n" ++ rest))).dropWhile
      (fun b => b == chr ' ' || b == chr '\t') = natDigits n ++ (bytes "\r\n" ++ rest) := by
    rw [List.dropWhile_append_of_pos (by simpa using hblanks), hbs]
    exact List.dropWhile_cons_of_neg hblank
  simp only [contentLengthValue, List.append_assoc, List.drop_left' hkey, hskip]
  exact strtoull_natDigits hn rfl _

/-! ### Whole messages -/

/-- A whole message: the header is complete, and as many bytes as it states follow. -/
def IsWholeMessage (s : CString) : Prop :=
  ∃ n, headerLength s = some n ∧ n + contentLength s n ≤ s.length

section

variable {stream : CString} {n : Nat}

/-- No shorter beginning of a message of the stated length is a whole one. -/
lemma isWholeMessage_iff_of_prefix (hn : headerLength stream = some n)
    (hlength : stream.length = n + contentLength stream n) {p : CString} (hp : p <+: stream) :
    IsWholeMessage p ↔ p = stream := by
  constructor
  · rintro ⟨m, hm, hle⟩
    rw [headerLength_of_begins hn hp] at hm
    split_ifs at hm with hcomplete
    obtain rfl := Option.some.inj hm
    have htake : p.take n = stream.take n := by
      obtain ⟨t, rfl⟩ := hp
      rw [List.take_append_of_le_length hcomplete]
    rw [contentLength, htake, ← contentLength, ← hlength] at hle
    exact hp.eq_of_length_le hle
  · rintro rfl
    exact ⟨n, hn, hlength.ge⟩

/-- A message of the stated length is read to its end in every cutting. -/
lemma apiServerReadHttpRequest_exact {chunks : List CString} (hn : headerLength stream = some n)
    (hnul : 0 ∉ stream) (hcuts : Cuts stream chunks)
    (hlength : stream.length = n + contentLength stream n)
    (hmax : stream.length ≤ apiServerMaxRequestSize) :
    apiServerReadHttpRequest chunks = some stream := by
  obtain ⟨rawRequest, hread⟩ := apiServerReadLoop_isSome hn hnul (.initial hn) hmax hcuts.1
  obtain ⟨-, hbegins, -, -, hstop⟩ := apiServerReadHttpRequest_some hn hnul hcuts hread
  have hwhole : stopLength stream n = stream.length := by
    rw [stopLength, expectedLength, ← hlength, toSizeT]
    rw [apiServerMaxRequestSize] at hmax
    omega
  rw [apiServerReadHttpRequest, hread,
    hbegins.eq_of_length (le_antisymm hbegins.length_le (hwhole ▸ hstop))]

end

end MiniDbms
