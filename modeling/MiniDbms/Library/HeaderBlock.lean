import MiniDbms.Library.Search

/-!
# Lines before a body

A header is written as lines, each of them ended by a line end, and an empty line. What follows it
may hold any bytes.
-/

namespace MiniDbms

/-- A line that does not end the header and holds no line end. -/
def IsHeaderLine (line : CString) : Prop := line ≠ [] ∧ chr '\r' ∉ line

instance (line : CString) : Decidable (IsHeaderLine line) := inferInstanceAs (Decidable (_ ∧ _))

/-- The lines and the empty line. -/
def headerBlock (lines : List CString) : CString :=
  lines.flatMap (· ++ bytes "\r\n") ++ bytes "\r\n"

@[simp]
lemma headerBlock_nil : headerBlock [] = bytes "\r\n" := rfl

@[simp]
lemma headerBlock_cons (line : CString) (lines : List CString) :
    headerBlock (line :: lines) = line ++ bytes "\r\n" ++ headerBlock lines := by
  simp [headerBlock]

lemma length_headerBlock_pos (lines : List CString) : 0 < (headerBlock lines).length := by
  rw [headerBlock, List.length_append, show (bytes "\r\n").length = 2 from rfl]
  omega

/-- The end of the first line is found behind it. -/
lemma strstr_lineEnd {line : CString} (h : chr '\r' ∉ line) (rest : CString) :
    strstr (line ++ bytes "\r\n" ++ rest) (bytes "\r\n") = some (bytes "\r\n" ++ rest) := by
  rw [List.append_assoc]
  have hskip := @strstr_skip line (bytes "\r\n" ++ rest) (bytes "\n") (chr '\r')
    fun b hb hcr => h (hcr ▸ hb)
  exact hskip.trans (strstr_of_begins (List.prefix_append _ _))

/-- No empty line begins with the line end before a line that is not empty. -/
lemma IsHeaderLine.strstr_skip_lineEnd {line : CString} (h : IsHeaderLine line) (rest : CString) :
    strstr (bytes "\r\n" ++ (line ++ rest)) (bytes "\r\n\r\n") =
      strstr (line ++ rest) (bytes "\r\n\r\n") := by
  have hfirst : ¬ bytes "\r\n\r\n" <+: bytes "\r\n" ++ (line ++ rest) := by
    rintro ⟨u, hu⟩
    obtain ⟨b, line, rfl⟩ := List.exists_cons_of_ne_nil h.1
    rw [show bytes "\r\n\r\n" = bytes "\r\n" ++ bytes "\r\n" from rfl, List.append_assoc] at hu
    have hhead := congrArg List.head? (List.append_cancel_left hu)
    have hb : chr '\r' = b := Option.some.inj hhead
    exact h.2 (hb ▸ List.mem_cons_self)
  have hcr : strstr (bytes "\r\n" ++ (line ++ rest)) (bytes "\r\n\r\n") =
      strstr ([chr '\n'] ++ (line ++ rest)) (bytes "\r\n\r\n") := if_neg hfirst
  rw [hcr]
  exact @strstr_skip [chr '\n'] (line ++ rest) (bytes "\n\r\n") (chr '\r')
    (forall_mem_of_all rfl)

/-- The empty line that is found first is the one that ends the header. -/
lemma strstr_headerBlock {lines : List CString} (hne : lines ≠ [])
    (h : ∀ line ∈ lines, IsHeaderLine line) (body : CString) :
    strstr (headerBlock lines ++ body) (bytes "\r\n\r\n") = some (bytes "\r\n\r\n" ++ body) := by
  induction lines with
  | nil => exact absurd rfl hne
  | cons line lines ih =>
    have hline := h line List.mem_cons_self
    have hskip := @strstr_skip line (bytes "\r\n" ++ (headerBlock lines ++ body)) (bytes "\n\r\n")
      (chr '\r') fun b hb hcr => hline.2 (hcr ▸ hb)
    rw [headerBlock_cons, List.append_assoc, List.append_assoc]
    refine hskip.trans ?_
    cases lines with
    | nil => exact strstr_of_begins (List.prefix_append _ _)
    | cons next lines =>
      have hnext := h next (by simp)
      have hrest := ih (by simp) fun l hl => h l (List.mem_cons_of_mem line hl)
      rw [headerBlock_cons, List.append_assoc, List.append_assoc] at hrest ⊢
      exact (hnext.strstr_skip_lineEnd _).trans hrest

end MiniDbms
