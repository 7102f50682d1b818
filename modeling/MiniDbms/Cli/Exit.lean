import MiniDbms.Cli.Repl

/-!
# Leaving the interactive mode

A line that says `exit` or `quit` ends the session while the buffer is empty. What is left behind a
statement is trimmed, but a blank line goes to the buffer as it is, and the buffer is not empty any
more.
-/

namespace MiniDbms

/-! ### The session, line by line -/

/-- `main_run_repl_mode` between two calls of `fgets`, or behind its end. `since` is the input
behind the last statement that was run. -/
inductive ReplState (σ : Type) where
  | reading (engine : σ) (buffer since : CString)
  | left (engine : σ)
  | failed (engine : σ)
  deriving DecidableEq

/-- A session: where it is, the lines it has read, and the input it has not. -/
structure ReplSession (σ : Type) where
  state : ReplState σ
  lines : List CString
  unread : CString

/-- What `main_run_repl_mode` returns when there is no further input. -/
def ReplState.outcome {σ : Type} : ReplState σ → σ × Status
  | reading engine _ _ => (engine, .success)
  | left engine        => (engine, .success)
  | failed engine      => (engine, .failure)

/-- The input behind the last statement that `mainDrainBuffer` runs, `since` if it runs none.
`trail` is the white space that the buffer has lost at its end. -/
def drainSince : (fuel : Nat) → (buffer trail since : CString) → CString
  | 0, _, _, since                 => since
  | fuel + 1, buffer, trail, since =>
    let terminatorIndex := utilsFindStatementTerminator buffer 0
    if terminatorIndex < 0 then since
    else
      let rest := buffer.drop (terminatorIndex + 1).toNat ++ trail
      drainSince fuel (mainReplaceBufferWithRemainder buffer terminatorIndex)
        (rest.rtakeWhile isspace) rest

/-- The next line of the input, without its newline. -/
def nextLine (unread : CString) : CString := cView (unread.takeWhile (· ≠ chr '\n'))

/-- What `fgets` makes of the next line: as much of it as there is room for. -/
def nextPiece (unread : CString) : CString := cView (fgets (maxSqlLength - 1) unread).1

section

variable {σ : Type} (execute : σ → CString → σ)

/-- One round of the outer loop of `main_run_repl_mode`. -/
def mainReplLine (engine : σ) (buffer since line : CString) : ReplState σ :=
  if buffer.isEmpty && isControl line then .left engine
  else
    let buffer := utilsAppendBuffer buffer line
    match mainDrainBuffer execute buffer.length engine buffer with
    | (engine, _, .failure)    => .failed engine
    | (engine, left, .success) =>
      .reading engine left (drainSince buffer.length buffer [] (since ++ line))

def ReplSession.readLine (s : ReplSession σ) : ReplSession σ :=
  match s.state, s.unread with
  | .reading engine buffer since, b :: unread =>
    ⟨mainReplLine execute engine buffer since (nextPiece (b :: unread)),
      s.lines ++ [nextPiece (b :: unread)], (fgets (maxSqlLength - 1) (b :: unread)).2⟩
  | _, _ => s

/-- The session after `n` calls of `fgets`, with these bytes on the standard input. -/
def replAfter (engine : σ) (stdin : CString) (n : Nat) : ReplSession σ :=
  (ReplSession.readLine execute)^[n] ⟨.reading engine [] [], [], stdin⟩

/-! ### The loop of the program -/

lemma readLine_stopped {s : ReplSession σ} (h : ∀ e b i, s.state ≠ .reading e b i) :
    s.readLine execute = s := by
  unfold ReplSession.readLine
  cases hstate : s.state with
  | reading engine buffer since => exact absurd hstate (h engine buffer since)
  | left engine => rfl
  | failed engine => rfl

lemma readLine_end {s : ReplSession σ} (h : s.unread = []) : s.readLine execute = s := by
  obtain ⟨state, lines, unread⟩ := s
  cases h
  cases state <;> rfl

lemma mainReplLoop_iterate (fuel : Nat) (engine : σ) (buffer since : CString) (lines : List CString)
    (stdin : CString) :
    mainReplLoop execute fuel engine buffer stdin =
      ((ReplSession.readLine execute)^[fuel]
        ⟨.reading engine buffer since, lines, stdin⟩).state.outcome := by
  induction fuel generalizing engine buffer since lines stdin with
  | zero => rfl
  | succ fuel ih =>
    cases stdin with
    | nil =>
      rw [Function.iterate_fixed rfl]
      rfl
    | cons b stdin =>
      have hstop : ∀ s : ReplSession σ, (∀ e b i, s.state ≠ .reading e b i) →
          (ReplSession.readLine execute)^[fuel] s = s := fun s h =>
        Function.iterate_fixed (readLine_stopped execute h) fuel
      have hread : mainReplLoop execute (fuel + 1) engine buffer (b :: stdin) =
          if buffer.isEmpty && isControl (nextPiece (b :: stdin)) then (engine, .success)
          else
            match mainDrainBuffer execute (buffer ++ nextPiece (b :: stdin)).length engine
              (buffer ++ nextPiece (b :: stdin)) with
            | (engine, _, .failure)      => (engine, .failure)
            | (engine, buffer, .success) =>
              mainReplLoop execute fuel engine buffer (fgets (maxSqlLength - 1) (b :: stdin)).2 :=
        rfl
      rw [hread, Function.iterate_succ_apply, ReplSession.readLine]
      dsimp only
      rw [mainReplLine]
      split_ifs with hcontrol
      · rw [hstop _ (by simp)]
        rfl
      · dsimp only [utilsAppendBuffer]
        cases hdrain : mainDrainBuffer execute (buffer ++ nextPiece (b :: stdin)).length engine
            (buffer ++ nextPiece (b :: stdin)) with
        | mk engine' result =>
          obtain ⟨buffer', status⟩ := result
          cases status with
          | failure =>
            rw [hstop _ (by simp)]
            rfl
          | success => exact ih _ _ _ _ _

/-- The session is the run of the program. -/
lemma mainRunReplMode_eq (engine : σ) (stdin : CString) :
    mainRunReplMode execute engine stdin =
      (replAfter execute engine stdin stdin.length).state.outcome :=
  mainReplLoop_iterate execute _ _ _ _ _ _

lemma replAfter_succ (engine : σ) (stdin : CString) (n : Nat) :
    replAfter execute engine stdin (n + 1) = (replAfter execute engine stdin n).readLine execute :=
  Function.iterate_succ_apply' _ _ _

/-- Every call of `fgets` takes a byte off the input, unless the session is over. -/
lemma replAfter_unread (engine : σ) (stdin : CString) (n : Nat) :
    (replAfter execute engine stdin n).readLine execute = replAfter execute engine stdin n ∨
      (replAfter execute engine stdin n).unread.length + n ≤ stdin.length := by
  induction n with
  | zero => exact .inr le_rfl
  | succ n ih =>
    rw [replAfter_succ]
    rcases ih with hfixed | hlen
    · rw [hfixed]
      exact .inl hfixed
    · generalize replAfter execute engine stdin n = s at hlen ⊢
      obtain ⟨state, lines, unread⟩ := s
      cases state with
      | left engine => exact .inl rfl
      | failed engine => exact .inl rfl
      | reading engine buffer since =>
        cases unread with
        | nil => exact .inl rfl
        | cons b unread =>
          have hrest := @fgets_rest_length (maxSqlLength - 1) b unread (by decide)
          right
          rw [ReplSession.readLine]
          dsimp only at hlen ⊢
          rw [List.length_cons] at hlen
          omega

/-- A session that was left has ended the run. -/
lemma mainRunReplMode_of_left {engine e : σ} {stdin : CString} {n : Nat}
    (h : (replAfter execute engine stdin n).state = .left e) :
    mainRunReplMode execute engine stdin = (e, .success) := by
  have hadd : ∀ m k, replAfter execute engine stdin (m + k) =
      (ReplSession.readLine execute)^[m] (replAfter execute engine stdin k) := fun m k =>
    Function.iterate_add_apply _ m k _
  have hend : (replAfter execute engine stdin stdin.length).state = .left e := by
    rcases Nat.le_total n stdin.length with hle | hle
    · have hstop := readLine_stopped execute (s := replAfter execute engine stdin n) (by simp [h])
      rw [← Nat.sub_add_cancel hle, hadd, Function.iterate_fixed hstop, h]
    · have hstop : (replAfter execute engine stdin stdin.length).readLine execute =
          replAfter execute engine stdin stdin.length := by
        rcases replAfter_unread execute engine stdin stdin.length with hfixed | hlen
        · exact hfixed
        · have hnil : (replAfter execute engine stdin stdin.length).unread = [] :=
            List.length_eq_zero_iff.mp (by omega)
          exact readLine_end execute hnil
      rw [← Nat.sub_add_cancel hle, hadd, Function.iterate_fixed hstop] at h
      exact h
  rw [mainRunReplMode_eq, hend]
  rfl

/-! ### Draining the buffer -/

lemma blank_nil : Blank [] := forall_mem_of_all rfl

lemma blank_append {a b : CString} : Blank (a ++ b) ↔ Blank a ∧ Blank b := List.forall_mem_append

lemma find_append_blank {gap : CString} (hgap : Blank gap) (text : CString) :
    utilsFindStatementTerminator (text ++ gap) 0 = utilsFindStatementTerminator text 0 := by
  cases hcut : cutStatement text with
  | none =>
    have happend : cutStatement (text ++ gap) = none := by
      rw [cutStatement, cutQuoted_append_none hcut, (hgap.uncut _).1]
      rfl
    rw [@utilsFindStatementTerminator_none (text ++ gap) 0 happend,
      @utilsFindStatementTerminator_none text 0 hcut]
  | some cut =>
    obtain ⟨p, rest⟩ := cut
    rw [@utilsFindStatementTerminator_some (text ++ gap) _ _ 0 (cutQuoted_append_some hcut gap),
      @utilsFindStatementTerminator_some text _ _ 0 hcut]

lemma find_blank {text : CString} (h : Blank text) : utilsFindStatementTerminator text 0 = -1 :=
  find_append_blank h []

lemma mainDrainBuffer_nil (fuel : Nat) (engine : σ) :
    mainDrainBuffer execute fuel engine [] = (engine, [], .success) := by
  cases fuel <;> rfl

/-- A round that does not fail: no statement is left, or one is run and cut off. -/
lemma mainDrainBuffer_round {fuel : Nat} {engine engine' : σ} {buffer buffer' : CString}
    (h : mainDrainBuffer execute (fuel + 1) engine buffer = (engine', buffer', .success)) :
    (utilsFindStatementTerminator buffer 0 = -1 ∧ buffer' = buffer) ∨
      (utilsFindStatementTerminator buffer 0 ≠ -1 ∧ ∃ engine₁,
        mainDrainBuffer execute fuel engine₁ (mainReplaceBufferWithRemainder buffer
          (utilsFindStatementTerminator buffer 0)) = (engine', buffer', .success)) := by
  rw [mainDrainBuffer] at h
  dsimp only at h
  by_cases hnone : utilsFindStatementTerminator buffer 0 = -1
  · rw [if_pos hnone] at h
    cases h
    exact .inl ⟨hnone, rfl⟩
  · rw [if_neg hnone] at h
    refine .inr ⟨hnone, ?_⟩
    cases hsub : utilsSubstring buffer 0
        (toSizeT (utilsFindStatementTerminator buffer 0 + 1)) with
    | none => simp [hsub] at h
    | some statement =>
      simp only [hsub] at h
      refine ⟨mainProcessSqlStatement execute engine statement, ?_⟩
      split_ifs at h with hempty
      · cases h
        rw [List.isEmpty_iff.mp hempty, mainDrainBuffer_nil]
      · exact h

lemma length_utilsTrim_lt {text : CString} (h : utilsTrim text ≠ text) :
    (utilsTrim text).length < text.length := by
  obtain ⟨lead, trail, hsplit, -⟩ := utilsTrim_split text
  have hlength := congrArg List.length hsplit
  simp only [List.length_append] at hlength
  by_contra hge
  have hlead : lead = [] := List.length_eq_zero_iff.mp (by omega)
  have htrail : trail = [] := List.length_eq_zero_iff.mp (by omega)
  rw [hlead, htrail, List.nil_append, List.append_nil] at hsplit
  exact h hsplit.symm

/-- A drained buffer holds no statement whose end has an index that an `int` can be. -/
lemma mainDrainBuffer_find {fuel : Nat} {engine engine' : σ} {buffer buffer' : CString}
    (hfuel : buffer.length ≤ fuel ∨
      (utilsFindStatementTerminator buffer 0 < 0 ∧ utilsTrim buffer = buffer))
    (h : mainDrainBuffer execute fuel engine buffer = (engine', buffer', .success)) :
    utilsFindStatementTerminator buffer' 0 < 0 := by
  induction fuel generalizing engine buffer with
  | zero =>
    cases h
    rcases hfuel with hlen | ⟨hfind, -⟩
    · obtain rfl : buffer' = [] := List.length_eq_zero_iff.mp (Nat.le_zero.mp hlen)
      decide
    · exact hfind
  | succ fuel ih =>
    rcases mainDrainBuffer_round execute h with ⟨hnone, rfl⟩ | ⟨hsome, engine₁, hrest⟩
    · omega
    · refine ih ?_ hrest
      by_cases hneg : utilsFindStatementTerminator buffer 0 < 0
      · -- nothing is cut off, and only the trimming makes the buffer shorter
        have hrem : mainReplaceBufferWithRemainder buffer
            (utilsFindStatementTerminator buffer 0) = utilsTrim buffer := by
          have hzero : (utilsFindStatementTerminator buffer 0 + 1).toNat = 0 := by omega
          rw [mainReplaceBufferWithRemainder, hzero, List.drop_zero]
        rw [hrem]
        by_cases hsame : utilsTrim buffer = buffer
        · exact .inr ⟨by rwa [hsame], by rw [hsame, hsame]⟩
        · have hlt := length_utilsTrim_lt hsame
          left
          rcases hfuel with hfuel | ⟨-, htrim⟩
          · omega
          · exact absurd htrim hsame
      · left
        have hne : buffer ≠ [] := by
          rintro rfl
          exact hsome rfl
        have hlen := length_utilsTrim_le
          (buffer.drop (utilsFindStatementTerminator buffer 0 + 1).toNat)
        rw [List.length_drop] at hlen
        have := List.length_pos_of_ne_nil hne
        rw [mainReplaceBufferWithRemainder]
        rcases hfuel with hfuel | ⟨hfind, -⟩
        · omega
        · exact absurd hfind hneg

lemma drainSince_none {fuel : Nat} {buffer trail since : CString}
    (h : utilsFindStatementTerminator buffer 0 < 0) :
    drainSince fuel buffer trail since = since := by
  cases fuel with
  | zero => rfl
  | succ fuel => rw [drainSince, if_pos h]

/-- If there was more than white space behind the last statement, but there is no more than that
now, then a statement was run and nothing is left in the buffer. -/
lemma drainSince_blank {fuel : Nat} {engine engine' : σ} {buffer buffer' trail since : CString}
    (hsince : ¬ Blank since) (hblank : Blank (drainSince fuel buffer trail since))
    (h : mainDrainBuffer execute fuel engine buffer = (engine', buffer', .success)) :
    buffer' = [] := by
  induction fuel generalizing engine buffer trail since with
  | zero => exact absurd hblank hsince
  | succ fuel ih =>
    rw [drainSince] at hblank
    split_ifs at hblank with hneg
    · exact absurd hblank hsince
    · rcases mainDrainBuffer_round execute h with ⟨hnone, -⟩ | ⟨-, engine₁, hrest⟩
      · omega
      · by_cases hempty : mainReplaceBufferWithRemainder buffer
            (utilsFindStatementTerminator buffer 0) = []
        · rw [hempty, mainDrainBuffer_nil] at hrest
          cases hrest
          rfl
        · refine ih ?_ hblank hrest
          intro hall
          apply hempty
          rw [mainReplaceBufferWithRemainder, utilsTrim_blank]
          exact (blank_append.mp hall).1

/-- A buffer without a statement is left as it is. -/
lemma mainDrainBuffer_none {fuel : Nat} {engine : σ} {buffer : CString}
    (h : utilsFindStatementTerminator buffer 0 = -1) :
    mainDrainBuffer execute fuel engine buffer = (engine, buffer, .success) := by
  cases fuel with
  | zero => rfl
  | succ fuel => rw [mainDrainBuffer, h, if_pos rfl]

/-! ### The buffer between two statements -/

/-- The last line that was not empty as a C string was blank. -/
def LastBlank (lines : List CString) : Prop :=
  ∃ line ∈ (lines.filter (· ≠ [])).getLast?, Blank line

instance (text : CString) : Decidable (Blank text) :=
  inferInstanceAs (Decidable (∀ b ∈ text, isspace b = true))

instance (lines : List CString) : Decidable (LastBlank lines) := by
  unfold LastBlank
  infer_instance

lemma lastBlank_append (lines : List CString) (line : CString) :
    LastBlank (lines ++ [line]) ↔ (line = [] ∧ LastBlank lines) ∨ (line ≠ [] ∧ Blank line) := by
  by_cases hline : line = []
  · simp [LastBlank, hline]
  · simp [LastBlank, hline]

/-- What holds of the buffer between two calls of `fgets`. -/
structure BufferInv (buffer since : CString) (lines : List CString) : Prop where
  drained : utilsFindStatementTerminator buffer 0 < 0
  blank : Blank since → Blank buffer ∧ (buffer ≠ [] ↔ LastBlank lines)

lemma BufferInv.line {buffer since line : CString} {lines : List CString}
    (h : BufferInv buffer since lines) {engine engine' : σ} {buffer' since' : CString}
    (hline : mainReplLine execute engine buffer since line = .reading engine' buffer' since') :
    BufferInv buffer' since' (lines ++ [line]) := by
  rw [mainReplLine] at hline
  split_ifs at hline
  dsimp only [utilsAppendBuffer] at hline
  cases hdrain : mainDrainBuffer execute (buffer ++ line).length engine (buffer ++ line) with
  | mk engine₁ result =>
    obtain ⟨buffer₁, status⟩ := result
    rw [hdrain] at hline
    cases status with
    | failure => cases hline
    | success =>
      cases hline
      refine ⟨mainDrainBuffer_find execute (.inl le_rfl) hdrain, fun hblank => ?_⟩
      by_cases hgap : Blank line
      · -- white space completes no statement
        have hfind : utilsFindStatementTerminator (buffer ++ line) 0 < 0 := by
          rw [find_append_blank hgap]
          exact h.drained
        rw [drainSince_none hfind] at hblank
        obtain ⟨hbuffer, hlast⟩ := h.blank (blank_append.mp hblank).1
        have hwhole : Blank (buffer ++ line) := blank_append.mpr ⟨hbuffer, hgap⟩
        rw [mainDrainBuffer_none execute (find_blank hwhole)] at hdrain
        cases hdrain
        refine ⟨hwhole, ?_⟩
        rw [lastBlank_append]
        by_cases hempty : line = []
        · simpa [hempty] using hlast
        · simp [hempty, hgap]
      · have hsince : ¬ Blank (since ++ line) := fun hall =>
          hgap (blank_append.mp hall).2
        obtain rfl := drainSince_blank execute hsince hblank hdrain
        refine ⟨blank_nil, ?_⟩
        have hne : line ≠ [] := by
          rintro rfl
          exact hgap blank_nil
        simp [lastBlank_append, hgap, hne]

/-- The buffer between two calls of `fgets` keeps its invariant through the session. -/
lemma replAfter_inv {engine : σ} {stdin : CString} {n : Nat} {e : σ} {buffer since : CString}
    (h : (replAfter execute engine stdin n).state = .reading e buffer since) :
    BufferInv buffer since (replAfter execute engine stdin n).lines := by
  induction n generalizing e buffer since with
  | zero =>
    cases h
    have hlines : ¬ LastBlank [] := by simp [LastBlank]
    exact ⟨by decide, fun _ => ⟨blank_nil, iff_of_false (fun hne => hne rfl) hlines⟩⟩
  | succ n ih =>
    rw [replAfter_succ] at h ⊢
    generalize replAfter execute engine stdin n = s at h ih ⊢
    obtain ⟨state, lines, unread⟩ := s
    cases state with
    | left engine => cases h
    | failed engine => cases h
    | reading engine₁ buffer₁ since₁ =>
      cases unread with
      | nil => exact ih h
      | cons b unread => exact (ih rfl).line execute h

/-! ### Leaving -/

lemma fgets_short {room : Nat} {s : CString} (h : (s.takeWhile (· ≠ chr '\n')).length < room) :
    ∃ gap, Blank gap ∧ (fgets room s).1 = s.takeWhile (· ≠ chr '\n') ++ gap := by
  induction room generalizing s with
  | zero => cases h
  | succ room ih =>
    cases s with
    | nil => exact ⟨[], blank_nil, rfl⟩
    | cons b s =>
      by_cases hb : b = chr '\n'
      · exact ⟨[b], forall_mem_of_all (by rw [hb]; rfl), by simp [fgets, hb]⟩
      · simp only [List.takeWhile_cons, hb, ne_eq, not_false_eq_true, decide_true, if_true,
          List.length_cons, Nat.add_lt_add_iff_right] at h
        obtain ⟨gap, hgap, hline⟩ := ih h
        exact ⟨gap, hgap, by simp [fgets, hb, hline]⟩

/-- A line of up to 8190 bytes is read in one piece. -/
lemma isControl_nextPiece {unread : CString}
    (h : (unread.takeWhile (· ≠ chr '\n')).length < maxSqlLength - 1) :
    isControl (nextPiece unread) = isControl (nextLine unread) := by
  obtain ⟨gap, hgap, hline⟩ := fgets_short h
  have htrim : utilsTrim (nextPiece unread) = utilsTrim (nextLine unread) := by
    rw [nextPiece, nextLine, hline]
    generalize unread.takeWhile (· ≠ chr '\n') = line
    rw [cView, cView, List.takeWhile_append]
    split_ifs with hwhole
    · have hsame : line.takeWhile (· != 0) = line :=
        (List.takeWhile_prefix _).eq_of_length hwhole
      rw [hsame]
      exact utilsTrim_append_blank fun b hb => hgap b (List.takeWhile_subset _ hb)
    · rfl
  rw [isControl, isControl, mainTrimmedEquals, mainTrimmedEquals, mainTrimmedEquals,
    mainTrimmedEquals, htrim]

lemma mainReplLine_left {engine e : σ} {buffer since line : CString} :
    mainReplLine execute engine buffer since line = .left e ↔
      e = engine ∧ buffer = [] ∧ isControl line = true := by
  rw [mainReplLine]
  split_ifs with hcontrol
  · rw [Bool.and_eq_true, List.isEmpty_iff] at hcontrol
    simp [hcontrol, eq_comm]
  · have hnot : ¬ (buffer = [] ∧ isControl line = true) := by
      rwa [Bool.and_eq_true, List.isEmpty_iff] at hcontrol
    dsimp only
    generalize mainDrainBuffer execute (utilsAppendBuffer buffer line).length engine
      (utilsAppendBuffer buffer line) = drained
    obtain ⟨engine', buffer', status⟩ := drained
    cases status with
    | failure => simp [hnot]
    | success => simp [hnot]

/-- Between two statements, a line that says `exit` or `quit` ends the session if and only if the
line before it was not blank and `fgets` has room for the line up to the word. -/
theorem mainRunReplMode_leaves_iff (engine : σ) (stdin : CString) (n : Nat) {e : σ}
    {buffer since : CString}
    (hreading : (replAfter execute engine stdin n).state = .reading e buffer since)
    (hblank : Blank since)
    (hcontrol : isControl (nextLine (replAfter execute engine stdin n).unread) = true) :
    ((replAfter execute engine stdin (n + 1)).state = .left e ↔
      ¬ LastBlank (replAfter execute engine stdin n).lines ∧
        isControl (nextPiece (replAfter execute engine stdin n).unread) = true) ∧
    ((replAfter execute engine stdin (n + 1)).state = .left e →
      mainRunReplMode execute engine stdin = (e, .success)) := by
  refine ⟨?_, mainRunReplMode_of_left execute⟩
  have hempty := ((replAfter_inv execute hreading).blank hblank).2
  rw [← hempty, not_not]
  rw [replAfter_succ]
  generalize replAfter execute engine stdin n = s at hreading hcontrol ⊢
  obtain ⟨state, lines, unread⟩ := s
  cases hreading
  cases unread with
  | nil => cases hcontrol
  | cons b unread =>
    have hleft := @mainReplLine_left _ execute e e buffer since (nextPiece (b :: unread))
    rw [ReplSession.readLine]
    dsimp only
    rw [hleft]
    exact and_iff_right rfl

end

/-- A statement and a line that says `exit`. -/
theorem mainRunReplMode_leaves_select :
    mainRunReplMode recordCall [] (bytes "SELECT * FROM t;\n Exit\n") =
      ([bytes "SELECT * FROM t;"], .success) := by
  have hstate : (replAfter recordCall [] (bytes "SELECT * FROM t;\n Exit\n") 1).state =
      .reading [bytes "SELECT * FROM t;"] [] (bytes "\n") := by decide +kernel
  have hleaves := mainRunReplMode_leaves_iff recordCall [] (bytes "SELECT * FROM t;\n Exit\n") 1
    hstate (forall_mem_of_all rfl) (by decide +kernel)
  exact hleaves.2 (hleaves.1.mpr (by decide +kernel))

/-- A blank line before the word: it is taken for a part of a statement. -/
theorem mainRunReplMode_stays_blank :
    ¬ ∀ (σ : Type) (execute : σ → CString → σ) (engine : σ) (stdin : CString) (n : Nat) (e : σ)
      (buffer since : CString),
      (replAfter execute engine stdin n).state = .reading e buffer since → Blank since →
        isControl (nextLine (replAfter execute engine stdin n).unread) = true →
          (replAfter execute engine stdin (n + 1)).state = .left e := by
  intro h
  have hleft := h _ recordCall [] (bytes "\nexit\n") 1 [] (bytes "\n") (bytes "\n")
    (by decide +kernel) (forall_mem_of_all rfl) (by decide +kernel)
  revert hleft
  decide +kernel

end MiniDbms
