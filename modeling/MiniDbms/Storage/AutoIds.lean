import MiniDbms.Storage.Processes
import MiniDbms.Runtime.Persist

/-!
# Concurrent insertions without an id

Without deletions the inode at the path stays the same, so that every lock is taken on it and the
insertions take effect one after the other. Each of them reads all the rows before it, so that the
ids count up from 1.
-/

namespace MiniDbms

variable {ι : Type} {call : ι → StorageCall}

/-! ### The next id -/

lemma storageNextId_ne_none {n idIndex : Nat} {next : Int} {lines : List CString}
    (h : storageNextId n idIndex next lines ≠ none) :
    ∀ raw ∈ lines, storageParseRow n raw ≠ none := by
  induction lines generalizing next with
  | nil => simp
  | cons raw lines ih =>
    rw [storageNextId] at h
    cases hparse : storageParseRow n raw with
    | none =>
      rw [hparse] at h
      exact absurd rfl h
    | some parsed =>
      rw [hparse] at h
      refine List.forall_mem_cons.mpr ⟨by simp [hparse], ?_⟩
      cases parsed with
      | none => exact ih h
      | some fields =>
        dsimp only at h
        split_ifs at h
        · exact ih h
        · exact ih h
        · exact absurd rfl h

/-- Rows with the ids from `m + 1` on. -/
def NumberedFrom (m : Nat) (rows : List (List CString)) : Prop :=
  rows.map List.head? =
    (List.range rows.length).map fun k => some (printInt (((m + k : Nat) : Int) + 1))

lemma numberedFrom_cons {m : Nat} {row : List CString} {rows : List (List CString)} :
    NumberedFrom m (row :: rows) ↔
      row.head? = some (printInt ((m : Int) + 1)) ∧ NumberedFrom (m + 1) rows := by
  have hshift : (fun k => some (printInt (((m + k : Nat) : Int) + 1))) ∘ Nat.succ =
      fun k => some (printInt (((m + 1 + k : Nat) : Int) + 1)) := by
    funext k
    rw [Function.comp_apply, Nat.succ_eq_add_one, Nat.add_right_comm, Nat.add_assoc]
  rw [NumberedFrom, NumberedFrom, List.length_cons, List.range_succ_eq_map, List.map_cons,
    List.map_cons, List.map_map, hshift, List.cons_eq_cons]
  rfl

lemma NumberedFrom.append {m : Nat} {rows : List (List CString)} (h : NumberedFrom m rows)
    {row : List CString} (hrow : row.head? = some (printInt (((m + rows.length : Nat) : Int) + 1))) :
    NumberedFrom m (rows ++ [row]) := by
  unfold NumberedFrom at *
  rw [List.map_append, h, List.length_append, List.length_singleton, List.range_succ,
    List.map_append]
  simp [hrow]

/-- After rows numbered from 1 on comes the next number. -/
lemma storageNextId_numbered {n m : Nat} {rows : List (List CString)}
    (hparse : ∀ row ∈ rows, storageParseRow n (storageWriteCsvRow row) = some (some row))
    (hnumbered : NumberedFrom m rows) (hsize : m + rows.length + 1 < 2 ^ 63) :
    storageNextId n 0 ((m : Int) + 1) (rows.map storageWriteCsvRow) =
      some (((m + rows.length : Nat) : Int) + 1) := by
  induction rows generalizing m with
  | nil => rfl
  | cons row rows ih =>
    obtain ⟨hhead, htail⟩ := numberedFrom_cons.mp hnumbered
    rw [List.length_cons] at hsize
    have hid : row.getD 0 [] = printInt ((m : Int) + 1) := by
      rw [List.getD_eq_getElem?_getD, ← List.head?_eq_getElem?, hhead]
      rfl
    have hvalue : utilsParseInteger (printInt ((m : Int) + 1)) = m + 1 :=
      strtoll_printInt (by omega) (by omega)
    have hwrap : wrapLongLong ((m : Int) + 1 + 1) = ((m + 1 : Nat) : Int) + 1 := by
      rw [wrapLongLong, Int.bmod_def]
      split_ifs <;> omega
    have hrest := ih (fun r hr => hparse r (by simp [hr])) htail (by omega)
    rw [List.map_cons, storageNextId, hparse row List.mem_cons_self]
    dsimp only
    rw [hid, if_pos (utilsIsInteger_printInt (by omega)), hvalue, if_pos (le_refl _), hwrap, hrest,
      List.length_cons, Nat.add_right_comm m 1, Nat.add_assoc m]

/-! ### Insertions one after the other -/

/-- The row of an event, if it has one. -/
def TableEvent.row : TableEvent ι → List CString
  | inserted _ row => row
  | deleted _ _    => []

/-- The names that insertions with these columns give the table. -/
def autoNames (columns : List Identifier) : List CString := bytes "id" :: columns.map CBuf.val

lemma isRow_autoNames (columns : List Identifier) : IsRow (autoNames columns) where
  ne_nil := List.cons_ne_nil _ _
  no_nul := by
    refine List.forall_mem_cons.mpr ⟨by decide, ?_⟩
    intro v hv
    obtain ⟨c, -, rfl⟩ := List.mem_map.mp hv
    exact c.property.2

/-- Every row takes a byte at least. -/
lemma length_lt_tableText (names : List CString) (rows : List (List CString)) :
    rows.length < (tableText names rows).length := by
  have hrows : rows.length ≤ ((rows.map storageWriteCsvRow).flatten).length := by
    induction rows with
    | nil => exact le_refl _
    | cons row rows ih =>
      simp only [List.map_cons, List.flatten_cons, List.length_append, List.length_cons,
        storageWriteCsvRow] at ih ⊢
      omega
  rw [tableText, List.length_append]
  simp only [storageWriteCsvRow, List.length_append, List.length_singleton] at hrows ⊢
  omega

/-- The next row of a table whose rows are numbered. -/
lemma storageInsertValues_numbered {columns : List Identifier} {rows : List (List CString)}
    {stmt : InsertStatement} {text : CString}
    (hno : storageFindColumnIndex stmt.columns (bytes "id") = none)
    (hrows : ∀ row ∈ rows, IsRow row ∧ row ≠ [[]]) (hnumbered : NumberedFrom 0 rows)
    (hsize : (tableText (autoNames columns) rows).length ≤ maxFileSize)
    (h : storageInsertText (tableText (autoNames columns) rows) stmt = some text) :
    (storageInsertValues (tableText (autoNames columns) rows) stmt).head? =
      some (printInt ((rows.length : Int) + 1)) := by
  obtain ⟨existing, hnames, h, hvalues⟩ := storageInsertText_header (isRow_autoNames columns) h
  obtain ⟨c, cs, rfl⟩ : ∃ c cs, existing = c :: cs := by
    apply List.exists_cons_of_ne_nil
    rintro rfl
    cases hnames
  have hfind : storageFindColumnIndex (c :: cs) (bytes "id") = some 0 := by
    have hc : c.val = bytes "id" := (List.cons_eq_cons.mp hnames).1
    rw [storageFindColumnIndex, List.findIdx?_cons, hc]
    rfl
  have hauto : storageAutoIndex (c :: cs) stmt = some 0 := by
    rw [storageAutoIndex, if_pos hno, hfind]
  obtain ⟨-, hnext, -, -⟩ := storageInsertExisting_some h
  obtain ⟨autoId, hautoId⟩ := Option.isSome_iff_exists.mp (hnext (by simp [hauto]))
  -- the scan for the next id has read every row
  obtain ⟨i, n, hi, hscan, rfl⟩ := storageGetNextAutoId_some hautoId
  obtain rfl : 0 = i := Option.some.inj (hfind.symm.trans hi)
  have hparse := storageNextId_ne_none (by rw [hscan]; simp)
  obtain ⟨hlines, hvalid⟩ := storageLines_written (fun row hr => (hrows row hr).1) hparse
  rw [hlines] at hparse hscan
  have hread : ∀ row ∈ rows, storageParseRow (c :: cs).length (storageWriteCsvRow row) =
      some (some row) := by
    intro row hr
    exact storageParseRow_some_of_ne_none (hrows row hr).1 (hrows row hr).2 (hvalid row hr)
      (hparse _ (List.mem_map_of_mem hr))
  have hlength := length_lt_tableText (autoNames columns) rows
  have hcount := storageNextId_numbered hread hnumbered (by unfold maxFileSize at hsize; omega)
  rw [Nat.cast_zero, zero_add, hscan, Nat.zero_add] at hcount
  rw [hvalues, storageExistingValues, List.zipIdx_cons, List.map_cons, List.head?_cons,
    if_pos hauto, hautoId, Option.getD_some, Option.some.inj hcount]

/-- The file after insertions with the same columns and without an id: empty, or the header and the
rows with the ids from 1 on. -/
structure AutoTable (columns : List Identifier) (log : List (TableEvent ι)) (content : CString) :
    Prop where
  rows : ∀ row ∈ log.map TableEvent.row, IsRow row ∧ row ≠ [[]]
  numbered : NumberedFrom 0 (log.map TableEvent.row)
  size : content.length ≤ maxFileSize
  file : (log = [] ∧ content = []) ∨
    content = tableText (autoNames columns) (log.map TableEvent.row)

/-- A row that starts with a number is not written as an empty line. -/
lemma ne_blank_of_head {row : List CString} {n : Int} (h : row.head? = some (printInt n))
    (hn : 0 ≤ n) : row ≠ [[]] := by
  rintro rfl
  have hint := utilsIsInteger_printInt hn
  rw [← Option.some.inj h] at hint
  cases hint

lemma AutoTable.insert {columns : List Identifier} {log : List (TableEvent ι)} {content : CString}
    (h : AutoTable columns log content) {stmt : InsertStatement} (hcolumns : stmt.columns = columns)
    (hno : storageFindColumnIndex columns (bytes "id") = none) {text : CString}
    (htext : storageInsertText content stmt = some text)
    (hsize : (content ++ text).length ≤ maxFileSize) (p : ι) :
    AutoTable columns (log ++ [.inserted p (storageInsertValues content stmt)])
      (content ++ text) := by
  subst hcolumns
  rcases h.file with ⟨rfl, rfl⟩ | rfl
  · obtain ⟨rfl, -, -, hvalues, hblank⟩ := storageInsertText_nil htext
    have hrow : storageInsertValues [] stmt = bytes "1" :: stmt.values.map CBuf.val := if_pos hno
    refine ⟨by simpa [TableEvent.row] using ⟨hvalues, hblank⟩, ?_, hsize, .inr ?_⟩
    · rw [hrow]
      exact numberedFrom_cons.mpr ⟨rfl, rfl⟩
    · rw [List.nil_append, storageNewNames, if_pos hno]
      rfl
  · obtain ⟨existing, hnames, hinsert, hexisting⟩ :=
      storageInsertText_header (isRow_autoNames _) htext
    have hne : existing ≠ [] := by
      rintro rfl
      cases hnames
    obtain ⟨rfl, hvalues, -, -⟩ := storageInsertExisting_row hne hinsert
    rw [← hexisting] at hvalues hsize ⊢
    have hhead := storageInsertValues_numbered hno h.rows h.numbered h.size htext
    have hmap : ∀ row, (log ++ [TableEvent.inserted p row]).map TableEvent.row =
        log.map TableEvent.row ++ [row] := by simp [TableEvent.row]
    refine ⟨?_, ?_, hsize, .inr ?_⟩
    · rw [hmap]
      intro row hrow
      rcases List.mem_append.mp hrow with hrow | hrow
      · exact h.rows row hrow
      · rw [List.mem_singleton.mp hrow]
        exact ⟨hvalues, ne_blank_of_head hhead (by omega)⟩
    · rw [hmap]
      exact h.numbered.append (by rw [Nat.zero_add]; exact hhead)
    · rw [hmap, tableText_append]

lemma Sequential.autoTable {columns : List Identifier}
    (hno : storageFindColumnIndex columns (bytes "id") = none)
    (hinsert : ∀ p stmt, call p = .insert stmt → stmt.columns = columns)
    (hdelete : ∀ p stmt, call p ≠ .delete stmt) {log : List (TableEvent ι)} {content : CString}
    (h : Sequential [] call log content) : AutoTable columns log content := by
  induction h with
  | nil => exact ⟨by simp, rfl, Nat.zero_le _, .inl ⟨rfl, rfl⟩⟩
  | @insert log content text p stmt _ hcall htext hsize ih =>
    exact ih.insert (hinsert p stmt hcall) hno htext hsize p
  | @delete log content p stmt table text deletedCount _ hcall _ _ _ =>
    exact absurd hcall (hdelete p stmt)

/-! ### Runs -/

namespace StorageRun

variable [DecidableEq ι] {s s' : StorageRun ι}

/-- Everything that was opened is still at the path. -/
def OpensCurrent (s : StorageRun ι) : Prop :=
  ∀ p, (s.phase p).opens = none ∨ (s.phase p).opens = s.files.path

lemma OpensCurrent.setPhase (h : s.OpensCurrent) {p : ι} {phase : CallPhase}
    (hphase : phase.opens = none ∨ phase.opens = s.files.path) :
    (s.setPhase p phase).OpensCurrent := by
  intro q
  by_cases hq : q = p
  · rw [hq]
    simpa [StorageRun.setPhase] using hphase
  · simpa [StorageRun.setPhase, hq] using h q

/-- Without deletions the path keeps its inode. -/
lemma OpensCurrent.step (hdelete : ∀ p stmt, call p ≠ .delete stmt) (hinv : s.Inv [] call)
    (h : s.OpensCurrent) (hstep : Step call s s') : s'.OpensCurrent := by
  cases hstep with
  | @openAppend p stmt files i hp hcall hopen =>
    unfold TableFiles.openAppend at hopen
    cases hpath : s.files.path with
    | some j =>
      rw [hpath] at hopen
      obtain ⟨rfl, rfl⟩ := Prod.mk.inj hopen
      exact h.setPhase (.inr hpath.symm)
    | none =>
      rw [hpath] at hopen
      obtain ⟨rfl, rfl⟩ := Prod.mk.inj hopen
      intro q
      by_cases hq : q = p
      · rw [hq]
        exact .inr (by simp [StorageRun.setPhase, CallPhase.opens])
      · rcases h q with hnone | hnone
        · exact .inl (by simpa [StorageRun.setPhase, hq] using hnone)
        · rw [hpath] at hnone
          exact .inl (by simpa [StorageRun.setPhase, hq] using hnone)
  | @openRead p i hp hcall hopen => exact h.setPhase (.inr hopen.symm)
  | @openTemp p i table files temp hp hopen =>
    have hknows := hinv.knows p
    rw [hp] at hknows
    obtain ⟨-, ⟨stmt, hcall⟩, -⟩ := hknows
    exact absurd hcall (hdelete p stmt)
  | @copy p i stmt table temp text deletedCount status hp hcall htext =>
    exact absurd hcall (hdelete p stmt)
  | @rename p i temp table hp htemp =>
    have hknows := hinv.knows p
    rw [hp] at hknows
    obtain ⟨-, stmt, temp', deletedCount, hcall, -⟩ := hknows
    exact absurd hcall (hdelete p stmt)
  | @abandon p i table hp =>
    have hknows := hinv.knows p
    rw [hp] at hknows
    obtain ⟨-, stmt, temp', deletedCount, hcall, -⟩ := hknows
    exact absurd hcall (hdelete p stmt)
  | @flush p i row text hp hsize => exact h.setPhase (.inl rfl)
  | @readTable p i status hp hcall hstatus => exact h.setPhase (.inl rfl)
  | openMissing => exact h.setPhase (.inl rfl)
  | lock => exact h.setPhase (.inl rfl)
  | compute => exact h.setPhase (.inl rfl)
  | refuse => exact h.setPhase (.inl rfl)
  | buffer => exact h.setPhase (.inl rfl)
  | load => exact h.setPhase (.inl rfl)
  | loadFails => exact h.setPhase (.inl rfl)
  | renameFails => exact h.setPhase (.inl rfl)
  | unlock => exact h.setPhase (.inl rfl)
  | close => exact h.setPhase (.inl rfl)

/-- Without deletions every lock is taken on the inode at the path. -/
lemma Reachable.current (hdelete : ∀ p stmt, call p ≠ .delete stmt) (h : s.Reachable call) :
    s.ReachableCurrent none call := by
  have hboth : s.ReachableCurrent none call ∧ s.OpensCurrent := by
    induction h with
    | refl => exact ⟨.refl, fun p => .inl rfl⟩
    | tail _ hstep ih =>
      obtain ⟨hrun, hopens⟩ := ih
      exact ⟨hrun.tail ⟨hstep, locksCurrent_of_opens hopens⟩,
        hopens.step hdelete hrun.inv hstep⟩
  exact hboth.1

/-- In every interleaving of insertions with the same columns and without an id, and of loads: the
file is empty or has the header and one row for each insertion that has succeeded, the ids count
from 1 on in the order of the rows, and every load has seen an empty file or the header and a
prefix of the rows. -/
theorem storageInsert_numbers_rows {columns : List Identifier}
    (hno : storageFindColumnIndex columns (bytes "id") = none)
    (hcall : ∀ p, call p = .load ∨ ∃ stmt, call p = .insert stmt ∧ stmt.columns = columns)
    (h : s.Reachable call) :
    ∃ rows : List (List CString),
      ((s.files.file = [] ∧ rows = []) ∨
        s.files.file = tableText (bytes "id" :: columns.map CBuf.val) rows) ∧
      (rows = s.log.map TableEvent.row ∧ (s.log.map TableEvent.process).Nodup ∧
        ∀ p, p ∈ s.log.map TableEvent.process ↔
          call p ≠ .load ∧ (s.phase p).status = some .success) ∧
      rows.map List.head? =
        (List.range rows.length).map (fun k : Nat => some (printInt ((k : Int) + 1))) ∧
      ∀ r ∈ s.seen, r.2 = [] ∨
        ∃ k, r.2 = tableText (bytes "id" :: columns.map CBuf.val) (rows.take k) := by
  have hinsert : ∀ p stmt, call p = .insert stmt → stmt.columns = columns := by
    intro p stmt hp
    rcases hcall p with hload | ⟨stmt', hp', hcolumns⟩
    · rw [hp] at hload
      cases hload
    · rw [hp] at hp'
      rw [StorageCall.insert.inj hp', hcolumns]
  have hdelete : ∀ p stmt, call p ≠ .delete stmt := by
    intro p stmt hp
    rcases hcall p with hload | ⟨stmt', hp', -⟩
    · rw [hp] at hload
      cases hload
    · rw [hp] at hp'
      cases hp'
  have hinv := (h.current hdelete).inv
  have htable := hinv.sequential.autoTable hno hinsert hdelete
  refine ⟨s.log.map TableEvent.row, ?_, ⟨rfl, hinv.nodup, ?_⟩, ?_, ?_⟩
  · rcases htable.file with ⟨hlog, hfile⟩ | hfile
    · exact .inl ⟨hfile, by rw [hlog]; rfl⟩
    · exact .inr hfile
  · intro p
    rw [hinv.logged]
    exact And.comm
  · have hnumbered := htable.numbered
    simpa only [NumberedFrom, Nat.zero_add] using hnumbered
  · intro r hr
    obtain ⟨log, ⟨later, hlog⟩, hseq⟩ := hinv.seen r hr
    rcases (hseq.autoTable hno hinsert hdelete).file with ⟨-, hempty⟩ | hfile
    · exact .inl hempty
    · refine .inr ⟨(log.map TableEvent.row).length, ?_⟩
      rw [← hlog, List.map_append, List.take_left']
      · exact hfile
      · rfl

/-- Two insertions that have both opened the file before either has the lock, and a load. -/
def racingCalls : Fin 3 → StorageCall
  | 0 => .insert (insertX "a")
  | 1 => .insert (insertX "b")
  | 2 => .load

theorem storageInsert_numbers_rows_race :
    ∃ s : StorageRun (Fin 3), s.Reachable racingCalls ∧
      s.files.file = bytes "id,x\n1,b\n2,a\n" ∧
      s.seen = [(2, bytes "id,x\n1,b\n")] ∧
      ∃ rows : List (List CString),
        rows.map List.head? =
          (List.range rows.length).map (fun k : Nat => some (printInt ((k : Int) + 1))) ∧
        rows.length = 2 := by
  have hrun : Reachable racingCalls start := .refl
  have hrun := hrun.tail (.openAppend (p := 0) rfl rfl rfl)
  have hrun := hrun.tail (.openAppend (p := 1) rfl rfl rfl)
  have hrun := hrun.tail (.openRead (p := 2) rfl (by rintro stmt ⟨⟩) rfl)
  have hrun := hrun.tail (.lock (p := 1) rfl (canLock_of_free (by decide)))
  have hrun := hrun.tail (.compute (p := 1) rfl rfl rfl)
  have hrun := hrun.tail (.buffer (p := 1) rfl)
  have hrun := hrun.tail (.flush (p := 1) rfl (by decide))
  have hrun := hrun.tail (.unlock (p := 1) rfl)
  have hrun := hrun.tail (.lock (p := 2) rfl (canLock_of_free (by decide)))
  have hrun := hrun.tail (@Step.readTable _ _ _ _ 2 _ .success rfl rfl (by decide))
  have hrun := hrun.tail (.unlock (p := 2) rfl)
  have hrun := hrun.tail (.lock (p := 0) rfl (canLock_of_free (by decide)))
  have hrun := hrun.tail (.compute (p := 0) rfl rfl rfl)
  have hrun := hrun.tail (.buffer (p := 0) rfl)
  have hrun := hrun.tail (.flush (p := 0) rfl (by decide))
  have hcall : ∀ p, racingCalls p = .load ∨
      ∃ stmt, racingCalls p = .insert stmt ∧ stmt.columns = [identifier "x"] := by
    intro p
    fin_cases p
    · exact .inr ⟨_, rfl, rfl⟩
    · exact .inr ⟨_, rfl, rfl⟩
    · exact .inl rfl
  obtain ⟨rows, -, ⟨hrows, -⟩, hids, -⟩ := storageInsert_numbers_rows (by decide) hcall hrun
  exact ⟨_, hrun, by decide, by decide, rows, hids, by rw [hrows]; rfl⟩

end StorageRun

end MiniDbms
