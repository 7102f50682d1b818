import MiniDbms.Library.Scan

/-!
# The HTTP requests of `http_parser.c`

The raw request is the text the server has read. Memory does not run out.
-/

namespace MiniDbms

/-- `HttpRequest` -/
structure HttpRequest where
  method : CBuf 7
  path : CBuf 127
  protocol : CBuf 15
  body : CString
  bodyLength : Nat
  deriving DecidableEq, Repr

/-- The line end of HTTP. -/
def crlf : CString := bytes "\r\n"

/-- The end of the header: the first line end that an empty line follows. -/
def headerEnd : CString := bytes "\r\n\r\n"

/-- The method, path and protocol that `parse_http_request` reads from the request line. -/
def parseRequestLine (rawRequest : CString) : Option (CBuf 7 × CBuf 127 × CBuf 15) :=
  match strstr rawRequest crlf with
  | none         => none
  | some lineEnd =>
    let lineLength := rawRequest.length - lineEnd.length
    if lineLength = 0 ∨ 256 ≤ lineLength then none
    else
      match scanWord 7 (rawRequest.take lineLength) with
      | none                => none
      | some (method, rest) =>
        match scanWord 127 rest with
        | none              => none
        | some (path, rest) =>
          match scanWord 15 rest with
          | none               => none
          | some (protocol, _) => some (method, path, protocol)

/-- `parse_http_request`: `none` is `FAILURE`. -/
def parseHttpRequest (rawRequest : CString) : Option HttpRequest :=
  match parseRequestLine rawRequest with
  | none                          => none
  | some (method, path, protocol) =>
    match strstr rawRequest headerEnd with
    | none           => none
    | some bodyStart =>
      let body := bodyStart.drop 4
      some { method, path, protocol, body, bodyLength := body.length }

/-- The length of the header, the empty line included. -/
def headerLength (rawRequest : CString) : Option Nat :=
  (strstr rawRequest headerEnd).map fun found => rawRequest.length - found.length + 4

/-! ### The header of a text that begins with another -/

/-- What begins with a header has that header. -/
lemma headerLength_append {s : CString} {n : Nat} (h : headerLength s = some n) (t : CString) :
    headerLength (s ++ t) = some n := by
  rw [headerLength, Option.map_eq_some_iff] at h
  obtain ⟨found, hfound, hn⟩ := h
  rw [headerLength, strstr_append hfound t, Option.map_some, List.length_append,
    List.length_append, Nat.add_sub_add_right, hn]

/-- The header is complete as soon as its last byte is there. -/
lemma headerLength_of_append {s t : CString} {n : Nat} (h : headerLength (s ++ t) = some n) :
    headerLength s = if n ≤ s.length then some n else none := by
  rw [headerLength, Option.map_eq_some_iff] at h
  obtain ⟨found, hfound, hn⟩ := h
  have hsuffix := (strstr_eq_some hfound).2.length_le
  rw [List.length_append] at hn hsuffix
  split_ifs with hle
  · have hroom : t.length + headerEnd.length ≤ found.length := by
      rw [show headerEnd.length = 4 from rfl]
      omega
    obtain ⟨found', rfl, hfound'⟩ := strstr_of_append hfound hroom
    rw [headerLength, hfound', Option.map_some, ← hn, List.length_append, Nat.add_sub_add_right]
  · rw [headerLength, Option.map_eq_none_iff, Option.eq_none_iff_forall_ne_some]
    intro found' hfound'
    have hfound_eq := Option.some.inj (hfound.symm.trans (strstr_append hfound' t))
    have hneedle := (strstr_eq_some hfound').1.length_le
    rw [show headerEnd.length = 4 from rfl] at hneedle
    rw [hfound_eq, List.length_append] at hn hsuffix
    omega

lemma headerLength_le {s : CString} {n : Nat} (h : headerLength s = some n) :
    4 ≤ n ∧ n ≤ s.length := by
  rw [headerLength, Option.map_eq_some_iff] at h
  obtain ⟨found, hfound, hn⟩ := h
  obtain ⟨hneedle, hsuffix⟩ := strstr_eq_some hfound
  have hneedle := hneedle.length_le
  rw [show headerEnd.length = 4 from rfl] at hneedle
  have hsuffix := hsuffix.length_le
  omega

lemma strstr_crlf_of_headerLength {s : CString} {n : Nat} (h : headerLength s = some n) :
    ∃ lineEnd, strstr s crlf = some lineEnd := by
  rw [headerLength, Option.map_eq_some_iff] at h
  obtain ⟨found, hfound, -⟩ := h
  obtain ⟨hneedle, hsuffix⟩ := strstr_eq_some hfound
  have hcrlf : crlf <+: headerEnd := ⟨crlf, rfl⟩
  exact strstr_of_infix ((hcrlf.trans hneedle).isInfix.trans hsuffix.isInfix)

/-- The request line does not depend on what follows the header. -/
lemma parseRequestLine_append {s : CString} {n : Nat} (h : headerLength s = some n) (t : CString) :
    parseRequestLine (s ++ t) = parseRequestLine s := by
  obtain ⟨lineEnd, hlineEnd⟩ := strstr_crlf_of_headerLength h
  have hlength := (strstr_eq_some hlineEnd).2.length_le
  have htake : (s ++ t).take (s.length - lineEnd.length) = s.take (s.length - lineEnd.length) :=
    List.take_append_of_le_length (Nat.sub_le _ _)
  rw [parseRequestLine, parseRequestLine, hlineEnd, strstr_append hlineEnd t]
  simp only [List.length_append, Nat.add_sub_add_right, htake]

/-- The body is all that follows the header. -/
lemma parseHttpRequest_body {s : CString} {n : Nat} (h : headerLength s = some n) :
    (parseHttpRequest s).map HttpRequest.body =
      (parseRequestLine s).map fun _ => s.drop n := by
  rw [headerLength, Option.map_eq_some_iff] at h
  obtain ⟨found, hfound, hn⟩ := h
  obtain ⟨p, hp⟩ := (strstr_eq_some hfound).2
  have hdrop : found.drop 4 = s.drop n := by
    rw [← hn, ← hp, List.length_append, Nat.add_sub_cancel, ← List.drop_drop, List.drop_left]
  rw [parseHttpRequest, hfound]
  cases parseRequestLine s with
  | none => rfl
  | some line => rw [← hdrop]; rfl

end MiniDbms
