import MiniDbms.Library.CString

/-!
# Searching in C strings

A position in a string is the text from there on.
-/

namespace MiniDbms

/-- `strstr`: the text from the first occurrence of `needle` on. -/
def strstr : (haystack needle : CString) → Option CString
  | [], needle     => if needle = [] then some [] else none
  | b :: s, needle => if needle <+: b :: s then some (b :: s) else strstr s needle

lemma strstr_eq_some {s needle found : CString} (h : strstr s needle = some found) :
    needle <+: found ∧ found <:+ s := by
  induction s with
  | nil =>
    rw [strstr] at h
    split_ifs at h with hneedle
    cases h
    exact ⟨by rw [hneedle], List.suffix_refl _⟩
  | cons b s ih =>
    rw [strstr] at h
    split_ifs at h with hfound
    · cases h
      exact ⟨hfound, List.suffix_refl _⟩
    · obtain ⟨hneedle, hsuffix⟩ := ih h
      exact ⟨hneedle, hsuffix.trans (List.suffix_cons b s)⟩

lemma strstr_of_begins {s needle : CString} (h : needle <+: s) : strstr s needle = some s := by
  cases s with
  | nil => rw [strstr, if_pos (List.prefix_nil.mp h)]
  | cons b s => rw [strstr, if_pos h]

lemma strstr_of_infix {s needle : CString} (h : needle <:+: s) :
    ∃ found, strstr s needle = some found := by
  induction s with
  | nil => exact ⟨[], by rw [strstr, if_pos (List.infix_nil.mp h)]⟩
  | cons b s ih =>
    rw [strstr]
    split_ifs with hfound
    · exact ⟨_, rfl⟩
    · exact ih ((List.infix_cons_iff.mp h).resolve_left hfound)

/-- The occurrence that is found is the first one. -/
lemma strstr_first {s needle found t : CString} (h : strstr s needle = some found)
    (hneedle : needle <+: t) (ht : t <:+ s) : t.length ≤ found.length := by
  induction s with
  | nil =>
    rw [List.suffix_nil.mp ht]
    exact Nat.zero_le _
  | cons b s ih =>
    rw [strstr] at h
    split_ifs at h with hfound
    · cases h
      exact ht.length_le
    · rcases List.suffix_cons_iff.mp ht with rfl | ht
      · exact absurd hneedle hfound
      · exact ih h ht

/-- What is found in a text is found in each text that begins with it. -/
lemma strstr_append {s needle found : CString} (h : strstr s needle = some found) (t : CString) :
    strstr (s ++ t) needle = some (found ++ t) := by
  induction s with
  | nil =>
    rw [strstr] at h
    split_ifs at h with hneedle
    cases h
    exact strstr_of_begins (hneedle ▸ List.nil_prefix)
  | cons b s ih =>
    rw [strstr] at h
    rw [List.cons_append, strstr]
    split_ifs at h with hfound
    · cases h
      rw [if_pos (hfound.trans ⟨t, List.cons_append⟩), List.cons_append]
    · obtain ⟨hneedle, hsuffix⟩ := strstr_eq_some h
      have hlength := hneedle.length_le.trans hsuffix.length_le
      rw [if_neg, ih h]
      intro hlonger
      exact hfound (List.prefix_of_prefix_length_le hlonger (List.prefix_append (b :: s) t)
        (hlength.trans (Nat.le_succ _)))

/-- What is found in a text is found in the beginnings that hold it. -/
lemma strstr_of_append {s t needle found : CString} (h : strstr (s ++ t) needle = some found)
    (hle : t.length + needle.length ≤ found.length) :
    ∃ found', found = found' ++ t ∧ strstr s needle = some found' := by
  obtain ⟨⟨rest, rfl⟩, ⟨p, hp⟩⟩ := strstr_eq_some h
  have ht : t <:+ rest := by
    refine List.suffix_of_suffix_length_le (List.suffix_append s t) ?_ (by simp at hle; omega)
    exact ⟨p ++ needle, by rw [← hp, List.append_assoc]⟩
  obtain ⟨rest', rfl⟩ := ht
  have hs : s = p ++ needle ++ rest' := by
    apply @List.append_cancel_right _ _ t
    rw [← hp, List.append_assoc, List.append_assoc]
  obtain ⟨found', hfound⟩ := strstr_of_infix ⟨p, rest', hs.symm⟩
  refine ⟨found', ?_, hfound⟩
  exact Option.some.inj (h.symm.trans (strstr_append hfound t))

/-- Bytes that differ from the first byte of the needle are passed over. -/
lemma strstr_skip {p s needle : CString} {c : Byte} (h : ∀ b ∈ p, b ≠ c) :
    strstr (p ++ s) (c :: needle) = strstr s (c :: needle) := by
  induction p with
  | nil => rfl
  | cons b p ih =>
    have hne : ¬ c :: needle <+: b :: (p ++ s) := by
      rw [List.cons_prefix_cons]
      exact fun hb => h b List.mem_cons_self hb.1.symm
    rw [List.cons_append, strstr, if_neg hne, ih fun b' hb' => h b' (List.mem_cons_of_mem b hb')]

end MiniDbms
