import MiniDbms.Cli.Splitting

/-!
# Interactive mode against file mode

The interactive mode reads the text piece by piece. Behind a statement that ends in a piece it keeps
the rest of the piece trimmed at both ends, so that a statement that begins there and goes on in the
next piece loses the white space between the two.
-/

namespace MiniDbms

/-- The complete statements of a text, each with the white space before it. -/
def statements (text : CString) : List CString := (splitQuoted (chr '\'') (chr ';') false text).1

/-- The text behind the last complete statement. -/
def leftover (text : CString) : CString := (splitQuoted (chr '\'') (chr ';') false text).2

lemma cutStatement_leftover (text : CString) : cutStatement (leftover text) = none :=
  splitQuoted_left _ _ text

lemma statements_uncut {text : CString} (h : cutStatement text = none) :
    statements text = [] ∧ leftover text = text := by
  rw [statements, leftover, splitQuoted_none h]
  exact ⟨rfl, rfl⟩

lemma statements_cut {text p rest : CString} (h : cutStatement text = some (p, rest)) :
    statements text = p :: statements rest ∧ leftover text = leftover rest := by
  rw [statements, leftover, splitQuoted_some h]
  exact ⟨rfl, rfl⟩

lemma statements_append (a b : CString) :
    statements (a ++ b) = statements a ++ statements (leftover a ++ b) ∧
      leftover (a ++ b) = leftover (leftover a ++ b) := by
  have h := splitQuoted_append (chr '\'') (chr ';') a b
  have hpieces := congrArg Prod.fst h
  have hleft := congrArg Prod.snd h
  exact ⟨hpieces, hleft⟩

lemma statements_flatten (text : CString) : (statements text).flatten ++ leftover text = text :=
  splitQuoted_flatten _ _ text

/-! ### Trimming -/

lemma utilsTrim_split (text : CString) :
    ∃ lead trail, text = lead ++ (utilsTrim text ++ trail) ∧ Blank lead ∧ Blank trail := by
  refine ⟨(text.rdropWhile isspace).takeWhile isspace, text.rtakeWhile isspace, ?_,
    blank_takeWhile _, ?_⟩
  · rw [utilsTrim, ← List.append_assoc, List.takeWhile_append_dropWhile,
      List.rdropWhile_append_rtakeWhile]
  · intro b hb
    exact List.mem_rtakeWhile_imp hb

lemma utilsTrim_append_blank {text trail : CString} (htrail : Blank trail) :
    utilsTrim (text ++ trail) = utilsTrim text := by
  have hreverse : ∀ b ∈ trail.reverse, isspace b = true := fun b hb =>
    htrail b (List.mem_reverse.mp hb)
  rw [utilsTrim, utilsTrim, List.rdropWhile, List.rdropWhile, List.reverse_append,
    List.dropWhile_append_of_pos hreverse]

/-- White space changes neither the flag nor the cuts. -/
lemma Blank.uncut {gap : CString} (h : Blank gap) (inside : Bool) :
    cutQuoted (chr '\'') (chr ';') inside gap = none ∧ quoteFlag (chr '\'') inside gap = inside :=
  cutQuoted_plain (fun b hb => plain_facts (.inl (h b hb))) inside

lemma quoteFlag_trim (text : CString) :
    quoteFlag (chr '\'') false (utilsTrim text) = quoteFlag (chr '\'') false text := by
  obtain ⟨lead, trail, hsplit, hlead, htrail⟩ := utilsTrim_split text
  conv_rhs => rw [hsplit]
  rw [quoteFlag_append, quoteFlag_append, (hlead.uncut false).2, (htrail.uncut _).2]

lemma cutStatement_trim (text : CString) : ∃ lead trail,
    text = lead ++ (utilsTrim text ++ trail) ∧ Blank lead ∧ Blank trail ∧
      (cutStatement (utilsTrim text) = none → cutStatement text = none) ∧
      ∀ p rest, cutStatement (utilsTrim text) = some (p, rest) →
        cutStatement text = some (lead ++ p, rest ++ trail) := by
  obtain ⟨lead, trail, hsplit, hlead, htrail⟩ := utilsTrim_split text
  have hcut := hlead.closed.cutQuoted_append (utilsTrim text ++ trail)
  rw [← hsplit] at hcut
  refine ⟨lead, trail, hsplit, hlead, htrail, fun hnone => ?_, fun p rest hsome => ?_⟩
  · rw [cutStatement, hcut, cutQuoted_append_none hnone, (htrail.uncut _).1]
    rfl
  · rw [cutStatement, hcut, cutQuoted_append_some hsome]
    rfl

lemma statements_append_blank {text trail : CString} (htrail : Blank trail) :
    statements (text ++ trail) = statements text ∧
      leftover (text ++ trail) = leftover text ++ trail := by
  have hleft : cutStatement (leftover text ++ trail) = none := by
    rw [cutStatement, cutQuoted_append_none (cutStatement_leftover text), (htrail.uncut _).1]
    rfl
  obtain ⟨hstatements, hleftover⟩ := statements_append text trail
  rw [hstatements, hleftover, (statements_uncut hleft).1, (statements_uncut hleft).2,
    List.append_nil]
  exact ⟨rfl, rfl⟩

/-! ### Draining the buffer -/

/-- The statements that `mainDrainBuffer` runs, and the buffer it leaves. -/
def drained (buffer : CString) : List CString × CString :=
  (cutStatement buffer).elim ([], buffer) fun (p, rest) =>
    ((p :: statements rest).map (List.dropWhile isspace), utilsTrim (leftover rest))

lemma drained_trim (text : CString) : drained (utilsTrim text) =
    ((statements text).map (List.dropWhile isspace), utilsTrim (leftover text)) := by
  obtain ⟨lead, trail, -, hlead, htrail, hnone, hsome⟩ := cutStatement_trim text
  cases hcut : cutStatement (utilsTrim text) with
  | none =>
    rw [drained, hcut, (statements_uncut (hnone hcut)).1, (statements_uncut (hnone hcut)).2]
    rfl
  | some cut =>
    obtain ⟨p, rest⟩ := cut
    obtain ⟨hstatements, hleftover⟩ := @statements_append_blank rest trail htrail
    rw [drained, hcut, (statements_cut (hsome p rest hcut)).1,
      (statements_cut (hsome p rest hcut)).2, hstatements, hleftover,
      utilsTrim_append_blank htrail, List.map_cons, List.dropWhile_append_of_pos hlead]
    rfl

lemma drained_nil : drained [] = ([], []) := rfl

lemma completeLength_trim (text : CString) :
    completeLength (utilsTrim text) ≤ completeLength text := by
  obtain ⟨lead, trail, -, hlead, htrail, hnone, hsome⟩ := cutStatement_trim text
  cases hcut : cutStatement (utilsTrim text) with
  | none =>
    rw [completeLength, splitQuoted_none hcut]
    exact Nat.zero_le _
  | some cut =>
    obtain ⟨p, rest⟩ := cut
    have hsame : completeLength (rest ++ trail) = completeLength rest :=
      congrArg (fun pieces => pieces.flatten.length) (@statements_append_blank rest trail htrail).1
    rw [completeLength_some hcut, completeLength_some (hsome p rest hcut), hsame,
      List.length_append]
    omega

section

variable {σ : Type} (execute : σ → CString → σ)

lemma mainReplaceBufferWithRemainder_eq {buffer p rest : CString}
    (hcut : cutStatement buffer = some (p, rest)) (hfits : p.length ≤ 2 ^ 31) :
    mainReplaceBufferWithRemainder buffer (utilsFindStatementTerminator buffer 0) =
      utilsTrim rest := by
  obtain ⟨hsplit, -, body, hbody, -⟩ := cutQuoted_some hcut
  have hpos : 0 < p.length := by simp [hbody]
  have hcut' : cutStatement (buffer.drop 0) = some (p, rest) := hcut
  rw [mainReplaceBufferWithRemainder, utilsFindStatementTerminator_some hcut',
    toInt_eq (by omega)]
  have hindex : (((0 + (p.length - 1) : Nat) : Int) + 1).toNat = p.length := by omega
  rw [hindex, hsplit, List.drop_left]

lemma mainDrainBuffer_eq {fuel : Nat} {engine : σ} {buffer : CString}
    (hfuel : buffer.length ≤ fuel) (hfits : completeLength buffer ≤ 2 ^ 31) :
    mainDrainBuffer execute fuel engine buffer =
      ((drained buffer).1.foldl execute engine, (drained buffer).2, .success) := by
  induction fuel generalizing engine buffer with
  | zero =>
    obtain rfl : buffer = [] := List.length_eq_zero_iff.mp (Nat.le_zero.mp hfuel)
    rfl
  | succ fuel ih =>
    cases hcut : cutStatement buffer with
    | none =>
      have hnone : utilsFindStatementTerminator buffer 0 = -1 :=
        utilsFindStatementTerminator_none hcut
      rw [mainDrainBuffer, hnone, drained, hcut]
      rfl
    | some cut =>
      obtain ⟨p, rest⟩ := cut
      obtain ⟨hsplit, -, body, hbody, -⟩ := cutQuoted_some hcut
      have hpos : 0 < p.length := by simp [hbody]
      rw [completeLength_some hcut] at hfits
      have hcut' : cutStatement (buffer.drop 0) = some (p, rest) := hcut
      obtain ⟨hne, -, hsub⟩ := utilsSubstring_piece hcut' (by omega)
      rw [Int.natCast_zero, Int.sub_zero] at hsub
      have hlength := congrArg List.length hsplit
      rw [List.length_append] at hlength
      have htrim := completeLength_trim rest
      obtain ⟨lead, trail, hrest, -⟩ := utilsTrim_split rest
      have hshort := congrArg List.length hrest
      simp only [List.length_append] at hshort
      have hdrained : drained buffer =
          (p.dropWhile isspace :: (drained (utilsTrim rest)).1, (drained (utilsTrim rest)).2) := by
        rw [drained_trim, drained, hcut]
        rfl
      simp only [mainDrainBuffer]
      rw [if_neg hne, hsub, hdrained]
      dsimp only
      rw [mainReplaceBufferWithRemainder_eq hcut (by omega),
        mainProcessSqlStatement_eq execute engine hcut]
      by_cases hempty : (utilsTrim rest).isEmpty = true
      · rw [if_pos hempty, List.isEmpty_iff.mp hempty, drained_nil]
        rfl
      · rw [if_neg hempty, ih (by omega) (by omega)]
        rfl

end

/-! ### Piece by piece -/

def isControl (line : CString) : Bool :=
  mainTrimmedEquals line (bytes "exit") || mainTrimmedEquals line (bytes "quit")

/-- What one piece of the input does to the texts passed to the engine and to the buffer; `none`
stands for the end of the session. -/
def replPiece : List CString × Option CString → CString → List CString × Option CString
  | (calls, none), _           => (calls, none)
  | (calls, some buffer), line =>
    if buffer.isEmpty && isControl line then (calls, none)
    else (calls ++ (drained (buffer ++ line)).1, some (drained (buffer ++ line)).2)

def replRun (pieces : List CString) : List CString × Option CString :=
  pieces.foldl replPiece ([], some [])

/-- `CutStatement pieces a c`: the statement `a ++ c` begins in a piece behind the end of another
one, and ends in a later piece; `a` is the part of it in the first of these pieces. -/
def CutStatement (pieces : List CString) (a c : CString) : Prop :=
  ∃ d l m rest, pieces = d ++ (l ++ a) :: m ∧ l ≠ [] ∧ leftover (d.flatten ++ l) = [] ∧
    m.flatten = c ++ rest ∧ cutStatement a = none ∧ cutStatement (a ++ c) = some (a ++ c, [])

/-- A text of the file and the text that the interactive mode passes in its place. -/
def Agrees (pieces : List CString) (statement call : CString) : Prop :=
  call = statement.dropWhile isspace ∨
    ∃ a c, CutStatement pieces a c ∧ statement = a ++ c ∧
      call = (utilsTrim a ++ c).dropWhile isspace

/-- The buffer after the pieces `done`: all of them, or what begins behind the last statement, with
the piece in which it begins trimmed. -/
structure BufferAfter (done : List CString) (buffer : CString) : Prop where
  uncut : cutStatement buffer = none
  flag : quoteFlag (chr '\'') false buffer = quoteFlag (chr '\'') false (leftover done.flatten)
  length : buffer.length ≤ (leftover done.flatten).length
  whole : statements done.flatten = [] → buffer = done.flatten
  cut : ∀ d l a m, done = d ++ (l ++ a) :: m → l ≠ [] → leftover (d.flatten ++ l) = [] →
    cutStatement (a ++ m.flatten) = none → buffer = utilsTrim a ++ m.flatten

lemma cutStatement_append {f : CString} (hf : cutStatement f = none) (line : CString) :
    cutStatement (f ++ line) =
      (cutQuoted (chr '\'') (chr ';') (quoteFlag (chr '\'') false f) line).map
        fun (p, rest) => (f ++ p, rest) :=
  cutQuoted_append_none hf line

lemma cutStatement_of_append {a b : CString} (h : cutStatement (a ++ b) = none) :
    cutStatement a = none := by
  cases hcut : cutStatement a with
  | none => rfl
  | some cut =>
    obtain ⟨p, rest⟩ := cut
    rw [cutStatement, cutQuoted_append_some hcut] at h
    cases h

lemma cutStatement_trim_none {text : CString} (h : cutStatement text = none) :
    cutStatement (utilsTrim text) = none := by
  obtain ⟨lead, trail, -, -, -, -, hsome⟩ := cutStatement_trim text
  cases hcut : cutStatement (utilsTrim text) with
  | none => rfl
  | some cut =>
    obtain ⟨p, rest⟩ := cut
    rw [hsome p rest hcut] at h
    cases h

lemma length_utilsTrim_le (text : CString) : (utilsTrim text).length ≤ text.length := by
  obtain ⟨lead, trail, hsplit, -⟩ := utilsTrim_split text
  have hlength := congrArg List.length hsplit
  simp only [List.length_append] at hlength
  omega

/-- Where the pieces hold a statement, the last of them ends in one of the pieces. -/
lemma exists_cut (done : List CString) : statements done.flatten = [] ∨
    ∃ d l a m, done = d ++ (l ++ a) :: m ∧ l ≠ [] ∧ leftover (d.flatten ++ l) = [] ∧
      leftover done.flatten = a ++ m.flatten := by
  induction done using List.reverseRecOn with
  | nil => exact .inl rfl
  | append_singleton done line ih =>
    have hflatten : (done ++ [line]).flatten = done.flatten ++ line := by simp
    obtain ⟨hstatements, hleftover⟩ := statements_append done.flatten line
    rw [hflatten, hstatements, hleftover]
    have hcut := cutStatement_append (cutStatement_leftover done.flatten) line
    cases hline : cutQuoted (chr '\'') (chr ';')
        (quoteFlag (chr '\'') false (leftover done.flatten)) line with
    | none =>
      rw [hline, Option.map_none] at hcut
      rw [(statements_uncut hcut).1, (statements_uncut hcut).2, List.append_nil]
      rcases ih with hnone | ⟨d, l, a, m, rfl, hl, hcomplete, hleft⟩
      · exact .inl hnone
      · refine .inr ⟨d, l, a, m ++ [line], by simp, hl, hcomplete, ?_⟩
        rw [hleft]
        simp
    | some cut =>
      obtain ⟨x, r⟩ := cut
      rw [hline, Option.map_some] at hcut
      obtain ⟨hsplit, -, body, hbody, -⟩ := cutQuoted_some hline
      right
      refine ⟨done, x ++ (statements r).flatten, leftover r, [], ?_, by simp [hbody], ?_, ?_⟩
      · rw [List.append_assoc, statements_flatten, hsplit]
      · have hpiece := cutQuoted_append_some (cutQuoted_piece hcut) (statements r).flatten
        rw [List.append_assoc, List.nil_append] at hpiece
        rw [(statements_append _ _).2, (statements_cut hpiece).2]
        exact congrArg Prod.snd (splitQuoted_pieces (chr '\'') (chr ';') r)
      · rw [(statements_cut hcut).2]
        simp

/-- The same piece cuts the buffer where it cuts what the file holds since the last statement. -/
lemma BufferAfter.cases {done : List CString} {buffer : CString} (h : BufferAfter done buffer)
    (line : CString) :
    (cutStatement (leftover done.flatten ++ line) = none ∧ cutStatement (buffer ++ line) = none) ∨
      ∃ x r, line = x ++ r ∧ x ≠ [] ∧
        cutStatement (leftover done.flatten ++ line) = some (leftover done.flatten ++ x, r) ∧
        cutStatement (buffer ++ line) = some (buffer ++ x, r) := by
  have hfile := cutStatement_append (cutStatement_leftover done.flatten) line
  have hbuffer := cutStatement_append h.uncut line
  rw [h.flag] at hbuffer
  cases hline : cutQuoted (chr '\'') (chr ';')
      (quoteFlag (chr '\'') false (leftover done.flatten)) line with
  | none =>
    rw [hline] at hfile hbuffer
    exact .inl ⟨hfile, hbuffer⟩
  | some cut =>
    obtain ⟨x, r⟩ := cut
    rw [hline] at hfile hbuffer
    obtain ⟨hsplit, -, body, hbody, -⟩ := cutQuoted_some hline
    exact .inr ⟨x, r, hsplit, by simp [hbody], hfile, hbuffer⟩

lemma bufferAfter_nil : BufferAfter [] [] where
  uncut := rfl
  flag := rfl
  length := le_rfl
  whole := fun _ => rfl
  cut := by
    intro d l a m hdone
    simp at hdone

lemma append_singleton_cases {α : Type} {done d m : List α} {line x : α}
    (h : done ++ [line] = d ++ x :: m) :
    (m = [] ∧ done = d ∧ line = x) ∨ ∃ m', m = m' ++ [line] ∧ done = d ++ x :: m' := by
  rcases List.eq_nil_or_concat m with rfl | ⟨m, y, rfl⟩
  · obtain ⟨hdone, hline⟩ := List.append_inj' h rfl
    exact .inl ⟨rfl, hdone, List.singleton_inj.mp hline⟩
  · have hconcat : done ++ [line] = (d ++ x :: m) ++ [y] := by simpa using h
    obtain ⟨hdone, hline⟩ := List.append_inj' hconcat rfl
    obtain rfl := List.singleton_inj.mp hline
    exact .inr ⟨m, by simp, hdone⟩

/-- Behind complete statements and a beginning without a cut, the beginning is what is left. -/
lemma leftover_complete {before beginning : CString} (hcomplete : leftover before = [])
    (huncut : cutStatement beginning = none) : leftover (before ++ beginning) = beginning := by
  rw [(statements_append before beginning).2, hcomplete, List.nil_append,
    (statements_uncut huncut).2]

/-- The buffer behind the last statement, after one more piece. -/
lemma BufferAfter.step_cut {done : List CString} {buffer line : CString}
    (h : BufferAfter done buffer) {d : List CString} {l a : CString} {m : List CString}
    (hdone : done ++ [line] = d ++ (l ++ a) :: m) (hl : l ≠ [])
    (hcomplete : leftover (d.flatten ++ l) = []) (huncut : cutStatement (a ++ m.flatten) = none) :
    (drained (buffer ++ line)).2 = utilsTrim a ++ m.flatten := by
  rcases append_singleton_cases hdone with ⟨rfl, rfl, rfl⟩ | ⟨m, rfl, rfl⟩
  · -- the last statement ends in this piece
    rw [List.flatten_nil, List.append_nil] at huncut ⊢
    rcases h.cases l with ⟨hfile, -⟩ | ⟨x, r, rfl, -, hfile, hbuffer⟩
    · rw [(statements_append _ _).2, (statements_uncut hfile).2] at hcomplete
      exact absurd (List.append_eq_nil_iff.mp hcomplete).2 hl
    · rw [(statements_append _ _).2, (statements_cut hfile).2] at hcomplete
      have hcut := cutQuoted_append_some hbuffer a
      rw [List.append_assoc] at hcut
      rw [drained, cutStatement, hcut]
      show utilsTrim (leftover (r ++ a)) = utilsTrim a
      rw [leftover_complete hcomplete huncut]
  · have hflatten : (m ++ [line]).flatten = m.flatten ++ line := by simp
    rw [hflatten, ← List.append_assoc] at huncut
    have hbegin := cutStatement_of_append huncut
    have hleft : leftover (d ++ (l ++ a) :: m).flatten = a ++ m.flatten := by
      have hsplit : (d ++ (l ++ a) :: m).flatten = (d.flatten ++ l) ++ (a ++ m.flatten) := by simp
      rw [hsplit, leftover_complete hcomplete hbegin]
    rcases h.cases line with ⟨-, hbuffer⟩ | ⟨x, r, -, -, hfile, -⟩
    · rw [drained, hbuffer, h.cut d l a m rfl hl hcomplete hbegin, hflatten]
      simp
    · rw [hleft, huncut] at hfile
      cases hfile

lemma BufferAfter.step {done : List CString} {buffer : CString} (h : BufferAfter done buffer)
    (line : CString) : BufferAfter (done ++ [line]) (drained (buffer ++ line)).2 := by
  have hflatten : (done ++ [line]).flatten = done.flatten ++ line := by simp
  obtain ⟨hstatements, hleftover⟩ := statements_append done.flatten line
  rw [← hflatten] at hstatements hleftover
  rcases h.cases line with ⟨hfile, hbuffer⟩ | ⟨x, r, hline, hx, hfile, hbuffer⟩
  · have hdrained : (drained (buffer ++ line)).2 = buffer ++ line := by
      rw [drained, hbuffer]
      rfl
    rw [(statements_uncut hfile).2] at hleftover
    rw [(statements_uncut hfile).1, List.append_nil] at hstatements
    refine ⟨?_, ?_, ?_, fun hnone => ?_, fun d l a m => h.step_cut⟩
    · rw [hdrained, hbuffer]
    · rw [hdrained, hleftover, quoteFlag_append, quoteFlag_append, h.flag]
    · rw [hdrained, hleftover, List.length_append, List.length_append]
      exact Nat.add_le_add_right h.length _
    · rw [hdrained, hflatten, h.whole (hstatements ▸ hnone)]
  · have hdrained : (drained (buffer ++ line)).2 = utilsTrim (leftover r) := by
      rw [drained, hbuffer]
      rfl
    rw [(statements_cut hfile).2] at hleftover
    rw [(statements_cut hfile).1] at hstatements
    refine ⟨?_, ?_, ?_, fun hnone => ?_, fun d l a m => h.step_cut⟩
    · rw [hdrained]
      exact cutStatement_trim_none (cutStatement_leftover r)
    · rw [hdrained, hleftover, quoteFlag_trim]
    · rw [hdrained, hleftover]
      exact length_utilsTrim_le _
    · rw [hstatements] at hnone
      simp at hnone

/-! ### The texts passed to the engine -/

lemma CutStatement.append {pieces : List CString} {a c : CString} (h : CutStatement pieces a c)
    (more : List CString) : CutStatement (pieces ++ more) a c := by
  obtain ⟨d, l, m, rest, rfl, hl, hcomplete, hm, ha, hcut⟩ := h
  exact ⟨d, l, m ++ more, rest ++ more.flatten, by simp, hl, hcomplete, by simp [hm], ha, hcut⟩

/-- The texts of the file and those of the interactive mode, one by one. -/
def CallsAgree (done : List CString) (calls : List CString) : Prop :=
  List.Forall₂ (Agrees done) (statements done.flatten) calls

lemma CallsAgree.append {done calls : List CString} (h : CallsAgree done calls)
    (more : List CString) :
    List.Forall₂ (Agrees (done ++ more)) (statements done.flatten) calls := by
  refine h.imp ?_
  rintro statement call (hcall | ⟨a, c, hcut, hstatement, hcall⟩)
  · exact .inl hcall
  · exact .inr ⟨a, c, hcut.append more, hstatement, hcall⟩

lemma CallsAgree.step {done calls : List CString} {buffer : CString}
    (h : CallsAgree done calls) (hbuffer : BufferAfter done buffer) (line : CString) :
    CallsAgree (done ++ [line]) (calls ++ (drained (buffer ++ line)).1) := by
  have hflatten : (done ++ [line]).flatten = done.flatten ++ line := by simp
  have hstatements := (statements_append done.flatten line).1
  rw [CallsAgree, hflatten, hstatements]
  apply List.rel_append (h.append [line])
  rcases hbuffer.cases line with ⟨hfile, hline⟩ | ⟨x, r, rfl, hx, hfile, hline⟩
  · rw [(statements_uncut hfile).1, drained, hline]
    exact .nil
  · rw [(statements_cut hfile).1, drained, hline]
    refine .cons ?_ (List.forall₂_map_right_iff.mpr (List.forall₂_same.mpr fun p _ => .inl rfl))
    rcases exists_cut done with hnone | ⟨d, l, a, m, hdone, hl, hcomplete, hleft⟩
    · left
      rw [hbuffer.whole hnone]
      have hall := statements_flatten done.flatten
      rw [hnone, List.flatten_nil, List.nil_append] at hall
      rw [hall]
    · right
      have huncut : cutStatement (a ++ m.flatten) = none := hleft ▸ cutStatement_leftover _
      have hpiece : cutStatement _ = _ := cutQuoted_piece hfile
      rw [hleft, List.append_assoc] at hpiece
      refine ⟨a, m.flatten ++ x, ⟨d, l, m ++ [x ++ r], r, ?_, hl, hcomplete, ?_, ?_, ?_⟩, ?_, ?_⟩
      · rw [hdone]
        simp
      · simp
      · exact cutStatement_of_append huncut
      · exact hpiece
      · rw [hleft, List.append_assoc]
      · rw [hbuffer.cut d l a m hdone hl hcomplete huncut, List.append_assoc]

/-- The state of a session after the pieces `done`: it goes on, or it has ended at an earlier piece
with an empty buffer. -/
inductive RunState (done : List CString) : List CString × Option CString → Prop
  | live {calls : List CString} {buffer : CString} (hcalls : CallsAgree done calls)
      (hbuffer : BufferAfter done buffer) : RunState done (calls, some buffer)
  | ended {calls d m : List CString} {line : CString} (hdone : done = d ++ line :: m)
      (hline : isControl line = true) (hcalls : CallsAgree d calls)
      (hbuffer : BufferAfter d []) : RunState done (calls, none)

lemma replRun_append_singleton (done : List CString) (line : CString) :
    replRun (done ++ [line]) = replPiece (replRun done) line := by
  rw [replRun, List.foldl_append]
  rfl

lemma runState (done : List CString) : RunState done (replRun done) := by
  induction done using List.reverseRecOn with
  | nil => exact .live .nil bufferAfter_nil
  | append_singleton done line ih =>
    rw [replRun_append_singleton]
    generalize replRun done = state at ih
    cases ih with
    | @live calls buffer hcalls hbuffer =>
      rw [replPiece]
      by_cases hend : (buffer.isEmpty && isControl line) = true
      · rw [if_pos hend]
        rw [Bool.and_eq_true, List.isEmpty_iff] at hend
        obtain ⟨rfl, hline⟩ := hend
        exact .ended rfl hline hcalls hbuffer
      · rw [if_neg hend]
        exact .live (hcalls.step hbuffer line) (hbuffer.step line)
    | @ended calls d m line' hdone hline hcalls hbuffer =>
      have hdone' : done ++ [line] = d ++ line' :: (m ++ [line]) := by simp [hdone]
      exact .ended hdone' hline hcalls hbuffer

/-- Further pieces only add calls. -/
lemma replRun_append (done more : List CString) :
    ∃ added, (replRun (done ++ more)).1 = (replRun done).1 ++ added := by
  induction more using List.reverseRecOn with
  | nil => exact ⟨[], by simp⟩
  | append_singleton more line ih =>
    obtain ⟨added, hadded⟩ := ih
    rw [← List.append_assoc, replRun_append_singleton]
    generalize replRun (done ++ more) = state at hadded
    obtain ⟨calls, buffer⟩ := state
    obtain rfl : calls = _ := hadded
    cases buffer with
    | none => exact ⟨added, rfl⟩
    | some buffer =>
      rw [replPiece]
      split_ifs
      · exact ⟨added, rfl⟩
      · exact ⟨added ++ (drained (buffer ++ line)).1, by rw [List.append_assoc]⟩

/-! ### The session -/

lemma completeLength_append (a b : CString) : completeLength a ≤ completeLength (a ++ b) ∧
    completeLength (leftover a ++ b) ≤ completeLength (a ++ b) := by
  have h := congrArg (fun pieces => pieces.flatten.length) (statements_append a b).1
  simp only [List.flatten_append, List.length_append] at h
  rw [completeLength, completeLength, completeLength]
  show (statements a).flatten.length ≤ (statements (a ++ b)).flatten.length ∧
    (statements (leftover a ++ b)).flatten.length ≤ (statements (a ++ b)).flatten.length
  omega

/-- The statements of the buffer end no later than those of the text. -/
lemma BufferAfter.completeLength_le {done : List CString} {buffer : CString}
    (h : BufferAfter done buffer) (line : CString) :
    completeLength (buffer ++ line) ≤ completeLength (done.flatten ++ line) := by
  refine le_trans ?_ (completeLength_append done.flatten line).2
  rcases h.cases line with ⟨-, hbuffer⟩ | ⟨x, r, -, -, hfile, hbuffer⟩
  · rw [completeLength, splitQuoted_none hbuffer]
    exact Nat.zero_le _
  · have hlength := h.length
    rw [completeLength_some hfile, completeLength_some hbuffer, List.length_append,
      List.length_append]
    omega

lemma replPiece_calls (lines calls : List CString) (buffer : Option CString) :
    (lines.foldl replPiece (calls, buffer)).1 =
      calls ++ (lines.foldl replPiece ([], buffer)).1 := by
  induction lines generalizing calls buffer with
  | nil => simp
  | cons line lines ih =>
    cases buffer with
    | none =>
      rw [List.foldl_cons, List.foldl_cons]
      exact ih calls none
    | some buffer =>
      rw [List.foldl_cons, List.foldl_cons, replPiece, replPiece]
      split_ifs
      · exact ih calls none
      · rw [ih, ih (([] : List CString) ++ _), List.nil_append, List.append_assoc]

lemma replPiece_ended (lines calls : List CString) :
    lines.foldl replPiece (calls, none) = (calls, none) := by
  induction lines with
  | nil => rfl
  | cons line lines ih => exact ih

lemma mainReplLoop_eq {σ : Type} (execute : σ → CString → σ) {fuel : Nat} {engine : σ}
    {done : List CString} {buffer stdin : CString} (h : BufferAfter done buffer)
    (hfuel : stdin.length ≤ fuel) (hnul : 0 ∉ stdin)
    (hfits : completeLength (done.flatten ++ stdin) ≤ 2 ^ 31) :
    mainReplLoop execute fuel engine buffer stdin =
      (((readLines (maxSqlLength - 1) fuel stdin).foldl replPiece ([], some buffer)).1.foldl
        execute engine, .success) := by
  induction fuel generalizing engine done buffer stdin with
  | zero =>
    obtain rfl : stdin = [] := List.length_eq_zero_iff.mp (Nat.le_zero.mp hfuel)
    rfl
  | succ fuel ih =>
    cases stdin with
    | nil => rfl
    | cons b s =>
      rw [List.length_cons, Nat.add_le_add_iff_right] at hfuel
      have happend := fgets_append (maxSqlLength - 1) (b :: s)
      have hrest := fgets_rest_length (b := b) (s := s) (show 0 < maxSqlLength - 1 by decide)
      rw [mainReplLoop, readLines, List.foldl_cons, replPiece]
      generalize fgets (maxSqlLength - 1) (b :: s) = read at happend hrest
      obtain ⟨line, rest⟩ := read
      dsimp only at happend hrest ⊢
      rw [← happend] at hnul hfits
      have hline : cView line = line := cView_eq_self fun hmem => hnul (by simp [hmem])
      rw [hline]
      show (if (buffer.isEmpty && isControl line) = true then _ else _) = _
      by_cases hend : (buffer.isEmpty && isControl line) = true
      · rw [if_pos hend, if_pos hend, replPiece_ended]
        rfl
      · rw [if_neg hend, if_neg hend, utilsAppendBuffer]
        rw [← List.append_assoc] at hfits
        have hdrain : completeLength (buffer ++ line) ≤ 2 ^ 31 :=
          ((h.completeLength_le line).trans (completeLength_append _ rest).1).trans hfits
        rw [mainDrainBuffer_eq execute le_rfl hdrain]
        dsimp only
        have hflatten : (done ++ [line]).flatten = done.flatten ++ line := by simp
        rw [ih (h.step line) (hrest.trans hfuel) (fun hmem => hnul (by simp [hmem]))
          (by rw [hflatten]; exact hfits)]
        rw [replPiece_calls _ ([] ++ _), List.nil_append, List.foldl_append]

/-! ### The two modes compared -/

/-- The pieces in which `fgets` delivers a text. -/
def replPieces (text : CString) : List CString := readLines (maxSqlLength - 1) text.length text

/-- Nothing is in the buffer after the pieces `d`: there are none, or nothing but white space
follows the last statement in the last piece. -/
def EmptyAfter (d : List CString) : Prop :=
  d = [] ∨ ∃ d' l a, d = d' ++ [l ++ a] ∧ l ≠ [] ∧ leftover (d'.flatten ++ l) = [] ∧ Blank a

/-- A piece reads `exit` or `quit` where the buffer is empty, and statements follow. -/
def LosesStatements (pieces : List CString) : Prop :=
  ∃ d l m, pieces = d ++ l :: m ∧ EmptyAfter d ∧ isControl l = true ∧
    cutStatement (l ++ m.flatten) ≠ none

lemma foldl_recordCall (calls more : List CString) :
    more.foldl recordCall calls = calls ++ more := by
  induction more generalizing calls with
  | nil => simp
  | cons call more ih =>
    rw [List.foldl_cons, ih, recordCall, List.append_assoc, List.singleton_append]

lemma mainRunFileMode_calls {text : CString} (hnul : 0 ∉ text)
    (hfits : completeLength text ≤ 2 ^ 31) :
    (mainRunFileMode recordCall [] text).1 = (statements text).map (List.dropWhile isspace) := by
  obtain ⟨pieces, left, -, rfl, hrun⟩ :=
    @mainFileLoop_splitInto text.length text 0 hnul le_rfl (by simpa using hfits)
  rw [mainRunFileMode, cView_eq_self hnul, hrun, foldl_recordCall, List.nil_append]
  rfl

lemma mainRunReplMode_calls {text : CString} (hnul : 0 ∉ text)
    (hfits : completeLength text ≤ 2 ^ 31) :
    (mainRunReplMode recordCall [] text).1 = (replRun (replPieces text)).1 := by
  rw [mainRunReplMode, mainReplLoop_eq recordCall bufferAfter_nil le_rfl hnul hfits,
    foldl_recordCall, List.nil_append]
  rfl

/-- White space before a statement is no token. -/
lemma tokenizerTokenizeSql_dropWhile (text : CString) :
    tokenizerTokenizeSql (text.dropWhile isspace) = tokenizerTokenizeSql text := by
  have hloop := tokenizerLoop_blank (blank_takeWhile text) (text.dropWhile isspace)
  rw [List.takeWhile_append_dropWhile] at hloop
  rw [tokenizerTokenizeSql, tokenizerTokenizeSql, hloop]

lemma utilsTrim_blank {text : CString} : utilsTrim text = [] ↔ Blank text := by
  constructor
  · intro h
    obtain ⟨lead, trail, hsplit, hlead, htrail⟩ := utilsTrim_split text
    rw [hsplit, h]
    intro b hb
    rcases List.mem_append.mp hb with hb | hb
    · exact hlead b hb
    · exact htrail b hb
  · intro h
    have hnil := @utilsTrim_append_blank [] text h
    rw [List.nil_append] at hnil
    rw [hnil]
    rfl

lemma EmptyAfter.blank {d : List CString} (h : EmptyAfter d) : Blank (leftover d.flatten) := by
  rcases h with rfl | ⟨d', l, a, rfl, -, hcomplete, ha⟩
  · intro b hb
    cases hb
  · have hflatten : (d' ++ [l ++ a]).flatten = (d'.flatten ++ l) ++ a := by simp
    rw [hflatten, leftover_complete hcomplete ha.closed.uncut]
    exact ha

lemma BufferAfter.emptyAfter {d : List CString} (h : BufferAfter d []) (hne : ∀ l ∈ d, l ≠ []) :
    EmptyAfter d := by
  have hempty : ∀ m : List CString, (∀ l ∈ m, l ≠ []) → m.flatten = [] → m = [] := by
    intro m hm hflat
    cases m with
    | nil => rfl
    | cons l m =>
      rw [List.flatten_cons, List.append_eq_nil_iff] at hflat
      exact absurd hflat.1 (hm l List.mem_cons_self)
  rcases exists_cut d with hnone | ⟨d', l, a, m, hd, hl, hcomplete, hleft⟩
  · exact .inl (hempty d hne (h.whole hnone).symm)
  · have huncut : cutStatement (a ++ m.flatten) = none := hleft ▸ cutStatement_leftover _
    have hnil := h.cut d' l a m hd hl hcomplete huncut
    obtain ⟨htrim, hm⟩ := List.append_eq_nil_iff.mp hnil.symm
    obtain rfl := hempty m (fun l hl => hne l (by simp [hd, hl])) hm
    exact .inr ⟨d', l, a, hd, hl, hcomplete, utilsTrim_blank.mp htrim⟩

lemma EmptyAfter.bufferAfter {d : List CString} {buffer : CString} (h : EmptyAfter d)
    (hbuffer : BufferAfter d buffer) : buffer = [] := by
  rcases h with rfl | ⟨d', l, a, hd, hl, hcomplete, ha⟩
  · exact hbuffer.whole rfl
  · have huncut : cutStatement (a ++ ([] : List CString).flatten) = none := by
      rw [List.flatten_nil, List.append_nil]
      exact ha.closed.uncut
    rw [hbuffer.cut d' l a [] hd hl hcomplete huncut, utilsTrim_blank.mpr ha]
    rfl

/-- Statements behind the pieces `done` are statements of the text. -/
lemma length_statements_lt {done more : List CString}
    (h : cutStatement (leftover done.flatten ++ more.flatten) ≠ none) :
    (statements done.flatten).length < (statements (done ++ more).flatten).length := by
  obtain ⟨⟨p, rest⟩, hcut⟩ := Option.ne_none_iff_exists'.mp h
  rw [List.flatten_append, (statements_append _ _).1, (statements_cut hcut).1,
    List.length_append, List.length_cons]
  omega

lemma length_calls_le (done : List CString) :
    (replRun done).1.length ≤ (statements done.flatten).length := by
  have hrun := runState done
  generalize replRun done = state at hrun
  cases hrun with
  | live hcalls hbuffer => exact hcalls.length_eq.ge
  | @ended calls d m line hdone hline hcalls hbuffer =>
    rw [hdone, List.flatten_append, (statements_append _ _).1, List.length_append]
    have hlength := hcalls.length_eq
    dsimp only
    omega

/-- A session that has ended passes nothing more to the engine. -/
lemma replRun_ended {done : List CString} (h : (replRun done).2 = none) (more : List CString) :
    (replRun (done ++ more)).1 = (replRun done).1 := by
  rw [replRun, List.foldl_append]
  show (more.foldl replPiece (replRun done)).1 = _
  generalize replRun done = state at h
  obtain ⟨calls, buffer⟩ := state
  obtain rfl : buffer = none := h
  rw [replPiece_ended]

/-- The white space that a trimmed piece loses separates no tokens. -/
def TrimsNoToken (pieces : List CString) : Prop :=
  ∀ a c, CutStatement pieces a c →
    tokenizerTokenizeSql (utilsTrim a ++ c) = tokenizerTokenizeSql (a ++ c)

lemma map_eq_of_forall₂ {α β γ : Type} {f : α → γ} {g : β → γ} {as : List α} {bs : List β}
    (h : List.Forall₂ (fun a b => g b = f a) as bs) : bs.map g = as.map f := by
  induction h with
  | nil => rfl
  | cons hab _ ih => rw [List.map_cons, List.map_cons, hab, ih]

lemma CallsAgree.tokens {done calls : List CString} (h : CallsAgree done calls)
    (htrim : TrimsNoToken done) :
    calls.map tokenizerTokenizeSql = (statements done.flatten).map tokenizerTokenizeSql := by
  apply map_eq_of_forall₂
  refine List.Forall₂.imp ?_ h
  rintro statement call (rfl | ⟨a, c, hcut, rfl, rfl⟩)
  · exact tokenizerTokenizeSql_dropWhile statement
  · rw [tokenizerTokenizeSql_dropWhile, htrim a c hcut]

/-- Where no token is touched and no statement is lost, the same tokens are passed. -/
lemma replRun_tokens {pieces : List CString} (hne : ∀ l ∈ pieces, l ≠ [])
    (htrim : TrimsNoToken pieces) (hlost : ¬ LosesStatements pieces) :
    (replRun pieces).1.map tokenizerTokenizeSql =
      (statements pieces.flatten).map tokenizerTokenizeSql := by
  have hrun := runState pieces
  generalize replRun pieces = state at hrun
  cases hrun with
  | live hcalls hbuffer => exact hcalls.tokens htrim
  | @ended calls d m line hdone hline hcalls hbuffer =>
    have hempty := hbuffer.emptyAfter fun l hl => hne l (by simp [hdone, hl])
    have hnone : cutStatement (line ++ m.flatten) = none := by
      by_contra hsome
      exact hlost ⟨d, line, m, hdone, hempty, hline, hsome⟩
    have hrest : statements (leftover d.flatten ++ (line :: m).flatten) = [] := by
      apply (statements_uncut _).1
      rw [List.flatten_cons, cutStatement, hempty.blank.closed.cutQuoted_append]
      exact Option.map_eq_none_iff.mpr hnone
    have hsame : statements pieces.flatten = statements d.flatten := by
      rw [hdone, List.flatten_append, (statements_append _ _).1, hrest, List.append_nil]
    rw [hsame]
    exact hcalls.tokens fun a c hcut => htrim a c (hdone ▸ hcut.append (line :: m))

/-- A lost statement is missing from the texts passed to the engine. -/
lemma length_calls_lt {pieces : List CString} (h : LosesStatements pieces) :
    (replRun pieces).1.length < (statements pieces.flatten).length := by
  obtain ⟨d, l, m, rfl, hempty, hline, hcut⟩ := h
  have hmore : cutStatement (leftover d.flatten ++ (l :: m).flatten) ≠ none := by
    rw [List.flatten_cons, cutStatement, hempty.blank.closed.cutQuoted_append]
    exact fun hnone => hcut (Option.map_eq_none_iff.mp hnone)
  have hlt := length_statements_lt hmore
  have hle := length_calls_le d
  -- the session has ended at `l` at the latest
  have hend : (replRun (d ++ [l])).2 = none ∧ (replRun (d ++ [l])).1 = (replRun d).1 := by
    rw [replRun_append_singleton]
    have hrun := runState d
    generalize replRun d = state at hrun
    cases hrun with
    | @live calls buffer hcalls hbuffer =>
      obtain rfl := hempty.bufferAfter hbuffer
      rw [replPiece, if_pos (by simp [hline])]
      exact ⟨rfl, rfl⟩
    | ended => exact ⟨rfl, rfl⟩
  have hsame := replRun_ended hend.1 m
  rw [List.append_assoc, List.singleton_append, hend.2] at hsame
  rw [hsame]
  omega

/-- The pieces that a beginning of the text ends in. -/
lemma flatten_eq_append {m : List CString} {c rest : CString} (h : m.flatten = c ++ rest)
    (hc : c ≠ []) : ∃ m₁ x y m₂, m = m₁ ++ (x ++ y) :: m₂ ∧ c = m₁.flatten ++ x ∧ x ≠ [] := by
  induction m generalizing c with
  | nil =>
    obtain ⟨rfl, -⟩ := List.append_eq_nil_iff.mp h.symm
    exact absurd rfl hc
  | cons l m ih =>
    rw [List.flatten_cons, List.append_eq_append_iff] at h
    rcases h with ⟨c', rfl, hm⟩ | ⟨y, rfl, -⟩
    · by_cases hc' : c' = []
      · subst hc'
        rw [List.append_nil] at hc
        exact ⟨[], l, [], m, by simp, by simp, hc⟩
      · obtain ⟨m₁, x, y, m₂, rfl, rfl, hx⟩ := ih hm hc'
        exact ⟨l :: m₁, x, y, m₂, by simp, by simp, hx⟩
    · exact ⟨[], c, y, m, by simp, by simp, hc⟩

/-- A statement that ends in the piece `x ++ y` is passed from the buffer, if none is missing. -/
lemma replRun_piece {done m : List CString} {f b x y : CString}
    (hleft : leftover done.flatten = f) (hb : ∀ buffer, BufferAfter done buffer → buffer = b)
    (hfile : cutStatement (f ++ (x ++ y)) = some (f ++ x, y))
    (hlength : (replRun (done ++ (x ++ y) :: m)).1.length =
      (statements (done ++ (x ++ y) :: m).flatten).length) :
    ∃ before calls more rest,
      statements (done ++ (x ++ y) :: m).flatten = before ++ (f ++ x) :: more ∧
      (replRun (done ++ (x ++ y) :: m)).1 = calls ++ (b ++ x).dropWhile isspace :: rest ∧
      before.length = calls.length := by
  have hmore : cutStatement (leftover done.flatten ++ ((x ++ y) :: m).flatten) =
      some (f ++ x, y ++ m.flatten) := by
    have happend := cutQuoted_append_some hfile m.flatten
    rw [hleft, List.flatten_cons, ← List.append_assoc]
    exact happend
  have hlt := @length_statements_lt done ((x ++ y) :: m) (by rw [hmore]; simp)
  have hstatements : statements (done ++ (x ++ y) :: m).flatten =
      statements done.flatten ++ (f ++ x) :: statements (y ++ m.flatten) := by
    rw [List.flatten_append, (statements_append _ _).1, (statements_cut hmore).1]
  have hsnoc : done ++ (x ++ y) :: m = (done ++ [x ++ y]) ++ m := by simp
  have hle := length_calls_le done
  have hrun := runState done
  have hpiece := replRun_append_singleton done (x ++ y)
  have hended := @replRun_ended (done ++ [x ++ y])
  rw [hpiece] at hended
  generalize replRun done = state at hrun hpiece hended hle
  cases hrun with
  | ended =>
    rw [hsnoc, hended rfl m, ← hsnoc] at hlength
    dsimp only [replPiece] at hle hlength
    omega
  | @live calls buffer hcalls hbuffer =>
    obtain rfl := hb buffer hbuffer
    rw [replPiece] at hpiece hended
    by_cases hend : (buffer.isEmpty && isControl (x ++ y)) = true
    · rw [if_pos hend] at hended
      rw [hsnoc, hended rfl m, ← hsnoc] at hlength
      dsimp only at hle hlength
      omega
    · rw [if_neg hend] at hpiece
      have hdrained : (drained (buffer ++ (x ++ y))).1 =
          (buffer ++ x).dropWhile isspace :: (statements y).map (List.dropWhile isspace) := by
        rcases hbuffer.cases (x ++ y) with ⟨hnone, -⟩ | ⟨x', r, hsplit, -, hsome, hline⟩
        · rw [hleft, hfile] at hnone
          cases hnone
        · rw [hleft, hfile] at hsome
          simp only [Option.some.injEq, Prod.mk.injEq, List.append_cancel_left_eq] at hsome
          obtain ⟨rfl, rfl⟩ := hsome
          rw [drained, hline]
          rfl
      obtain ⟨added, hadded⟩ := replRun_append (done ++ [x ++ y]) m
      rw [← hsnoc, hpiece] at hadded
      dsimp only at hadded
      rw [hdrained] at hadded
      refine ⟨_, calls, _, (statements y).map (List.dropWhile isspace) ++ added, hstatements, ?_,
        hcalls.length_eq⟩
      rw [hadded]
      simp

/-- Where every statement is passed, the one that a piece cuts is passed trimmed. -/
lemma CutStatement.passed {pieces : List CString} {a c : CString} (h : CutStatement pieces a c)
    (hlength : (replRun pieces).1.length = (statements pieces.flatten).length) :
    ∃ before calls more rest, statements pieces.flatten = before ++ (a ++ c) :: more ∧
      (replRun pieces).1 = calls ++ (utilsTrim a ++ c).dropWhile isspace :: rest ∧
      before.length = calls.length := by
  obtain ⟨d, l, m, rest, rfl, hl, hcomplete, hm, ha, hcut⟩ := h
  have hc : c ≠ [] := by
    rintro rfl
    rw [List.append_nil, ha] at hcut
    cases hcut
  obtain ⟨m₁, x, y, m₂, rfl, rfl, hx⟩ := flatten_eq_append hm hc
  have hbegin : cutStatement (a ++ m₁.flatten) = none := by
    by_contra hsome
    obtain ⟨⟨p, r⟩, hp⟩ := Option.ne_none_iff_exists'.mp hsome
    have happend := cutQuoted_append_some hp x
    rw [List.append_assoc] at happend
    rw [cutStatement, happend] at hcut
    simp only [Option.some.injEq, Prod.mk.injEq, List.append_eq_nil_iff] at hcut
    exact hx hcut.2.2
  have hpieces : d ++ (l ++ a) :: (m₁ ++ (x ++ y) :: m₂) =
      (d ++ (l ++ a) :: m₁) ++ (x ++ y) :: m₂ := by simp
  have hleft : leftover (d ++ (l ++ a) :: m₁).flatten = a ++ m₁.flatten := by
    have hsplit : (d ++ (l ++ a) :: m₁).flatten = (d.flatten ++ l) ++ (a ++ m₁.flatten) := by simp
    rw [hsplit, leftover_complete hcomplete hbegin]
  have hfile : cutStatement (a ++ m₁.flatten ++ (x ++ y)) = some (a ++ m₁.flatten ++ x, y) := by
    have happend := cutQuoted_append_some hcut y
    simpa only [cutStatement, List.append_assoc, List.nil_append] using happend
  rw [hpieces] at hlength ⊢
  rw [← List.append_assoc a, ← List.append_assoc (utilsTrim a)]
  exact replRun_piece hleft (fun buffer hbuffer => hbuffer.cut d l a m₁ rfl hl hcomplete hbegin)
    hfile hlength

/-- The interactive mode passes the tokens that file mode passes if and only if the white space
that it trims separates no tokens and no piece ends the session too early. -/
theorem replMode_eq_fileMode (text : CString) (hnul : 0 ∉ text)
    (hfits : completeLength text ≤ 2 ^ 31) :
    (mainRunReplMode recordCall [] text).1.map tokenizerTokenizeSql =
        (mainRunFileMode recordCall [] text).1.map tokenizerTokenizeSql ↔
      TrimsNoToken (replPieces text) ∧ ¬ LosesStatements (replPieces text) := by
  have hflatten : (replPieces text).flatten = text := flatten_readLines (by decide) le_rfl
  have hne : ∀ l ∈ replPieces text, l ≠ [] := fun l => ne_nil_of_mem_readLines (by decide)
  have hfile : (mainRunFileMode recordCall [] text).1.map tokenizerTokenizeSql =
      (statements (replPieces text).flatten).map tokenizerTokenizeSql := by
    rw [mainRunFileMode_calls hnul hfits, hflatten, List.map_map]
    exact List.map_congr_left fun p _ => tokenizerTokenizeSql_dropWhile p
  rw [hfile, mainRunReplMode_calls hnul hfits]
  constructor
  · intro h
    have hlength := congrArg List.length h
    rw [List.length_map, List.length_map] at hlength
    refine ⟨fun a c hcut => ?_, fun hlost => (length_calls_lt hlost).ne hlength⟩
    obtain ⟨before, calls, more, rest, hstatements, hcalls, hsame⟩ := hcut.passed hlength
    rw [hstatements, hcalls, List.map_append, List.map_append, List.map_cons, List.map_cons] at h
    have htail := (List.append_inj h (by simp [hsame])).2
    rw [List.cons.injEq, tokenizerTokenizeSql_dropWhile] at htail
    exact htail.1
  · rintro ⟨htrim, hlost⟩
    exact replRun_tokens hne htrim hlost

/-- A piece ends in the beginning of a statement, from `n` on, which the next piece completes. -/
lemma trimsNoToken_pair {p q : CString} {n : Nat}
    (hbegin : ∀ i < p.length + 1, i ≠ 0 → leftover (p.take i) = [] → i = n)
    (hend : ∀ j < q.length + 1,
      cutStatement (p.drop n ++ q.take j) = some (p.drop n ++ q.take j, []) →
      tokenizerTokenizeSql (utilsTrim (p.drop n) ++ q.take j) =
        tokenizerTokenizeSql (p.drop n ++ q.take j)) : TrimsNoToken [p, q] := by
  rintro a c ⟨d, l, m, rest, hpieces, hl, hcomplete, hm, ha, hcut⟩
  match d, hpieces with
  | [], hpieces =>
    obtain ⟨rfl, rfl⟩ := List.cons.inj hpieces
    have hq : q = c ++ rest := by simpa using hm
    have hn := hbegin l.length (by simp) (by simpa using hl) (by simpa using hcomplete)
    have htokens := hend c.length (by simp [hq])
    rw [← hn, List.drop_left, hq, List.take_left] at htokens
    exact htokens hcut
  | [_], hpieces =>
    obtain ⟨rfl, hrest⟩ := List.cons.inj hpieces
    obtain ⟨-, rfl⟩ := List.cons.inj hrest
    obtain ⟨rfl, -⟩ := List.append_eq_nil_iff.mp hm.symm
    rw [List.append_nil, ha] at hcut
    cases hcut
  | _ :: _ :: d, hpieces =>
    have hlength := congrArg List.length hpieces
    simp at hlength

/-- The second statement goes on in an indented line. -/
theorem replMode_eq_fileMode_indented :
    (mainRunReplMode recordCall [] (bytes "SELECT a FROM t; SELECT b\n FROM t;\n")).1.map
        tokenizerTokenizeSql =
      (mainRunFileMode recordCall [] (bytes "SELECT a FROM t; SELECT b\n FROM t;\n")).1.map
        tokenizerTokenizeSql := by
  have hpieces : replPieces (bytes "SELECT a FROM t; SELECT b\n FROM t;\n") =
      [bytes "SELECT a FROM t; SELECT b\n", bytes " FROM t;\n"] := by decide +kernel
  refine (replMode_eq_fileMode _ (by decide) (by decide)).mpr ⟨?_, ?_⟩
  · rw [hpieces]
    exact trimsNoToken_pair (n := 16) (by decide +kernel) (by decide +kernel)
  · rintro ⟨d, l, m, heq, -, hcontrol, -⟩
    have hnone : ∀ piece ∈ replPieces (bytes "SELECT a FROM t; SELECT b\n FROM t;\n"),
        isControl piece = false := by
      decide +kernel
    rw [hnone l (by simp [heq])] at hcontrol
    cases hcontrol

/-- The end of the first line is lost between `b` and `FROM`. -/
theorem replMode_joins_words :
    (replPieces (bytes "SELECT a FROM t; SELECT b\nFROM t;\n")).all (fun l => !isControl l) = true ∧
    (mainRunFileMode recordCall [] (bytes "SELECT a FROM t; SELECT b\nFROM t;\n")).1 =
      [bytes "SELECT a FROM t;", bytes "SELECT b\nFROM t;"] ∧
    (mainRunReplMode recordCall [] (bytes "SELECT a FROM t; SELECT b\nFROM t;\n")).1 =
      [bytes "SELECT a FROM t;", bytes "SELECT bFROM t;"] ∧
    tokenizerTokenizeSql (bytes "SELECT b\nFROM t;") ≠
      tokenizerTokenizeSql (bytes "SELECT bFROM t;") := by
  refine ⟨by decide, rfl, rfl, by decide⟩

end MiniDbms
