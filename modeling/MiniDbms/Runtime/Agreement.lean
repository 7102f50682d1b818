import MiniDbms.Runtime.Reachable

/-!
# The row in memory and the row in the file

`table_build_row` takes the values of a statement by position, `storage_insert` looks them up by
name. The two rows agree unless a name is given twice with different values.
-/

namespace MiniDbms

/-- Columns that have the same name get the same value. -/
def InsertStatement.SameNameSameValue (stmt : InsertStatement) : Prop :=
  ∀ (i j : Nat) n m, stmt.columns[i]? = some n → stmt.columns[j]? = some m →
    utilsEqualsIgnoreCase n.val m.val = true → stmt.values[i]? = stmt.values[j]?

lemma storedRow_eq {t : TableRuntime} {stmt : InsertStatement}
    (hval : tableValidateInsertSchema t stmt = .success) (hsame : stmt.SameNameSameValue) :
    storedRow t stmt = tableBuildRow stmt t.nextId := by
  obtain ⟨-, hlen, hmatch⟩ := tableValidateInsertSchema_success hval
  unfold storedRow tableBuildRow
  congr 1
  apply List.ext_getElem?
  intro i
  rw [List.getElem?_map, List.getElem?_map, List.getElem?_drop, Nat.add_comm]
  cases hc : t.columns[i + 1]? with
  | none =>
    have hge := List.getElem?_eq_none_iff.mp hc
    have hvalues := stmt.values_length
    rw [List.getElem?_eq_none (by omega)]
    rfl
  | some c =>
    have hlt := (List.getElem?_eq_some_iff.mp hc).1
    have hlt' : i < stmt.columns.length := by omega
    have hn := List.getElem?_eq_getElem hlt'
    obtain ⟨j, m, hfind, hm, hname⟩ := find_column_of_validate hval hc
    have hvalue := hsame j i m _ hm hn
      (utilsEqualsIgnoreCase_trans hname (hmatch i c _ hc hn))
    have hj : j < stmt.values.length := by
      rw [stmt.values_length]
      exact (List.getElem?_eq_some_iff.mp hm).1
    rw [← hvalue, List.getElem?_eq_getElem hj]
    simp [InsertStatement.valueFor, hfind, hj]

/-- The value of a column depends on its name only up to case. -/
lemma InsertStatement.valueFor_congr (stmt : InsertStatement) {c c' : Identifier}
    (h : utilsEqualsIgnoreCase c.val c'.val = true) : stmt.valueFor c = stmt.valueFor c' := by
  rw [valueFor, valueFor, storageFindColumnIndex_congr h]

/-- Equal rows give equal values to columns of the same name. -/
lemma sameNameSameValue_of_storedRow {t : TableRuntime} {stmt : InsertStatement}
    (hval : tableValidateInsertSchema t stmt = .success)
    (h : storedRow t stmt = tableBuildRow stmt t.nextId) : stmt.SameNameSameValue := by
  obtain ⟨-, hlen, hmatch⟩ := tableValidateInsertSchema_success hval
  have hcells : (t.columns.drop 1).map stmt.valueFor = stmt.values.map CBuf.val :=
    (List.cons_eq_cons.mp h).2
  -- the value at a position is the value found for the name there
  have hvalue : ∀ (i : Nat) n, stmt.columns[i]? = some n →
      (stmt.values[i]?).map CBuf.val = some (stmt.valueFor n) := by
    intro i n hn
    have hlt := (List.getElem?_eq_some_iff.mp hn).1
    have hc : t.columns[i + 1]? = some t.columns[i + 1] := List.getElem?_eq_getElem (by omega)
    have hcell := congrArg (·[i]?) hcells
    simp only [List.getElem?_map, List.getElem?_drop, Nat.add_comm 1 i, hc, Option.map_some]
      at hcell
    rw [← hcell, stmt.valueFor_congr (hmatch i _ n hc hn)]
  intro i j n m hn hm hname
  have heq := (hvalue i n hn).trans (by rw [stmt.valueFor_congr hname])
  rw [← hvalue j m hm] at heq
  exact Option.map_injective (fun v w hvw => CBuf.ext hvw) heq

section Agreement

variable {files : Files} {t : TableRuntime} {stmt : InsertStatement} {content : CString}

/-- Storing a row that fits the loaded table appends the row that is in memory, exactly when the
statement names the id column, and so is refused, or gives equal values to columns of the same
name. The id is the same in any case. -/
theorem storageInsert_agrees_iff (h : t.Consistent)
    (hcontent : files (tablePath t.tableName) = some content)
    (hholds : HoldsTable content t.columns t.rows)
    (hval : tableValidateInsertSchema t stmt = .success) :
    ((storageInsert files t.tableName.val stmt).2 = .success →
        (storageInsert files t.tableName.val stmt).1 (tablePath t.tableName) =
          some (content ++ storageWriteCsvRow (tableBuildRow stmt t.nextId)) ↔
      stmt.NamesId ∨ stmt.SameNameSameValue) ∧
    ∀ rest, storageReadHeader content = some (t.columns, rest) →
      storageGetNextAutoId rest t.columns = some (printInt t.nextId) := by
  constructor
  · by_cases hnames : stmt.NamesId
    · obtain ⟨rest, -, -, hread, -⟩ := hholds
      have hheader : HeaderMatches files t :=
        ⟨_, content, rest, storageBuildPath_val t.tableName, hcontent, hread⟩
      rw [storageInsert_refuses hheader hnames hval]
      refine ⟨fun _ => .inl hnames, fun _ => ?_⟩
      rintro ⟨⟩
    · rw [storageInsert_accepts h hcontent hholds hval hnames]
      dsimp only
      rw [Function.update_self]
      constructor
      · intro happended
        have hbytes := List.append_cancel_left (Option.some.inj (happended rfl))
        have hrow := storageWriteCsvRow_inj (List.cons_ne_nil _ _) (List.cons_ne_nil _ _) hbytes
        exact .inr (sameNameSameValue_of_storedRow hval hrow)
      · rintro (hnames' | hsame) -
        · exact absurd hnames' hnames
        · rw [storedRow_eq hval hsame]
  · intro rest hread
    obtain ⟨rest', offset, offsets, hread', hload⟩ := hholds
    rw [hread] at hread'
    cases hread'
    exact storageGetNextAutoId_eq h hload

end Agreement

/-- A table in which two columns differ only in case. -/
def letterFiles : Files := singleFile (bytes "data/t.csv") (bytes "id,a,A\n1,x,y\n")

/-- That table in memory. -/
def letterTable : TableRuntime := (tableFromStorage letterFiles (identifier "t")).getD tableInit

/-- `INSERT INTO t (a, A) VALUES (v, w)` -/
def insertLetters (v w : String) : InsertStatement :=
  ⟨identifier "t", [identifier "a", identifier "A"],
    [.truncate 255 (bytes v), .truncate 255 (bytes w)], by decide, rfl⟩

lemma letterTable_loads : letterTable.Consistent ∧
    HoldsTable (bytes "id,a,A\n1,x,y\n") letterTable.columns letterTable.rows := by
  have htable : tableFromStorage letterFiles (identifier "t") = some letterTable := by decide
  obtain ⟨content, hcontent, hholds⟩ := tableFromStorage_holds htable
  cases hcontent
  exact ⟨(tableFromStorage_some htable).1, hholds⟩

/-- Equal values for both columns. -/
theorem storageInsert_agrees_equalLetters :
    (storageInsert letterFiles (bytes "t") (insertLetters "p" "p")).1 (bytes "data/t.csv") =
      some (bytes "id,a,A\n1,x,y\n" ++
        storageWriteCsvRow (tableBuildRow (insertLetters "p" "p") letterTable.nextId)) := by
  have hsame : (insertLetters "p" "p").SameNameSameValue := by
    intro i j n m hn hm _
    have hi : i < 2 := (List.getElem?_eq_some_iff.mp hn).1
    have hj : j < 2 := (List.getElem?_eq_some_iff.mp hm).1
    interval_cases i <;> interval_cases j <;> rfl
  have hiff := @storageInsert_agrees_iff letterFiles letterTable (insertLetters "p" "p") _
    letterTable_loads.1 rfl letterTable_loads.2 (by decide)
  exact hiff.1.mpr (.inr hsame) (by decide)

/-- Different values: the file gets the first one twice. -/
theorem storageInsert_disagrees_letters :
    ¬ ∀ (files : Files) (t : TableRuntime) (stmt : InsertStatement) (content : CString),
      t.Consistent → files (tablePath t.tableName) = some content →
      HoldsTable content t.columns t.rows → tableValidateInsertSchema t stmt = .success →
      (storageInsert files t.tableName.val stmt).2 = .success →
        (storageInsert files t.tableName.val stmt).1 (tablePath t.tableName) =
          some (content ++ storageWriteCsvRow (tableBuildRow stmt t.nextId)) := by
  intro h
  have hrow := h letterFiles letterTable (insertLetters "p" "q") _ letterTable_loads.1 rfl
    letterTable_loads.2 (by decide) (by decide)
  revert hrow
  decide

end MiniDbms
