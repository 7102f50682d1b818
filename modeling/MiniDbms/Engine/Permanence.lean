import MiniDbms.Engine.Refinement

/-!
# Rows stay

Nothing takes a row out of the catalog. Through the refinement, a row that a client was told to be
inserted is what every later query for its id returns, whatever was executed in between and however
often the process was started again.
-/

namespace MiniDbms

/-! ### The catalog grows -/

/-- The same columns, and perhaps more rows. -/
structure LogicalTable.Extends (t' t : LogicalTable) : Prop where
  attributes : t'.attributes = t.attributes
  tuples : t.tuples <+: t'.tuples

lemma LogicalTable.Extends.refl (t : LogicalTable) : t.Extends t := ⟨rfl, List.prefix_refl _⟩

lemma LogicalTable.Extends.trans {t t' t'' : LogicalTable} (h : t'.Extends t)
    (h' : t''.Extends t') : t''.Extends t :=
  ⟨h'.attributes.trans h.attributes, h.tuples.trans h'.tuples⟩

namespace Catalog

variable {c : Catalog} {name : Identifier} {t : LogicalTable}

lemma insert_extends (h : c name = some t) (stmt : InsertStatement) :
    ∃ t', (c.insert stmt).1 name = some t' ∧ t'.Extends t := by
  unfold insert
  by_cases hname : name = stmt.tableName
  · subst hname
    simp only [h]
    split_ifs
    · exact ⟨_, Function.update_self _ _ _, rfl, List.prefix_append _ _⟩
    · exact ⟨t, h, .refl t⟩
  · cases c stmt.tableName with
    | none =>
      dsimp only
      split_ifs
      · exact ⟨t, (Function.update_of_ne hname _ _).trans h, .refl t⟩
      · exact ⟨t, h, .refl t⟩
    | some t₁ =>
      dsimp only
      split_ifs
      · exact ⟨t, (Function.update_of_ne hname _ _).trans h, .refl t⟩
      · exact ⟨t, h, .refl t⟩

/-- No event takes a row away. -/
lemma step_extends (h : c name = some t) (event : Event) :
    ∃ t', c.step event name = some t' ∧ t'.Extends t := by
  cases event with
  | restart => exact ⟨t, h, .refl t⟩
  | query sql =>
    simp only [step, query]
    cases statementOf sql with
    | error message => exact ⟨t, h, .refl t⟩
    | ok statement =>
      cases statement with
      | insert stmt => exact insert_extends h stmt
      | select stmt => exact ⟨t, h, .refl t⟩
      | delete stmt => exact ⟨t, h, .refl t⟩

lemma run_extends {before : List Event} (h : catalogRun before name = some t)
    (after : List Event) : ∃ t', catalogRun (before ++ after) name = some t' ∧ t'.Extends t := by
  induction after using List.reverseRecOn with
  | nil => exact ⟨t, by rwa [List.append_nil], .refl t⟩
  | append_singleton after event ih =>
    obtain ⟨t₁, h₁, hext⟩ := ih
    obtain ⟨t₂, h₂, hext'⟩ := step_extends h₁ event
    refine ⟨t₂, ?_, hext.trans hext'⟩
    rw [← List.append_assoc, catalogRun_append]
    exact h₂

/-- A row that was inserted is the last one of its table. -/
lemma insert_result {stmt : InsertStatement} (h : (c.insert stmt).2.result.2 = .success) :
    ∃ t tuples, (c.insert stmt).1 stmt.tableName = some t ∧ t.tuples = tuples ++ [stmt.cells] := by
  unfold insert at h ⊢
  cases hc : c stmt.tableName with
  | none =>
    simp only [hc] at h
    dsimp only
    split_ifs at h ⊢
    · exact ⟨_, [], Function.update_self _ _ _, rfl⟩
    · cases h
  | some t =>
    simp only [hc] at h
    dsimp only
    split_ifs at h ⊢
    · exact ⟨_, t.tuples, Function.update_self _ _ _, rfl⟩
    · cases h

end Catalog

/-! ### Queries for an id -/

/-- The query for an id that is there finds its row. -/
lemma Holds.select_id {table : TableRuntime} {t : LogicalTable} (h : Holds table t) {i : Nat}
    {values : List CString} (hi : t.tuples[i]? = some values) (name : Identifier) {value : Value}
    (hint : utilsIsInteger value.val = true)
    (hvalue : utilsParseInteger value.val = (i : Int) + 1) :
    t.select (selectById name value) =
      .selected t.columns [printInt ((i : Int) + 1) :: values] true := by
  have hlt : i < t.tuples.length := (List.getElem?_eq_some_iff.mp hi).1
  have hle := h.tuples_le
  have hcolumn : storageFindColumnIndex t.columns (identifier "id").val = some 0 := by
    have hid := h.storable.consistent.id_column
    rwa [h.columns, h.storable.id_first] at hid
  let w : WhereClause := ⟨identifier "id", .truncate 3 (bytes "="), value⟩
  have hasks : t.asksForId w = true := by
    have hne : t.tuples ≠ [] := List.ne_nil_of_length_pos (by omega)
    have hop : w.op.val = bytes "=" := rfl
    have hcol : utilsEqualsIgnoreCase (bytes "id") w.column.val = true := rfl
    have hmax : (i : Int) + 1 ≤ intMax := by
      unfold intMax
      omega
    simp only [LogicalTable.asksForId, hop, hcol]
    simp only [w, hint, hvalue, hmax]
    simp [hne]
    omega
  obtain ⟨key, huse⟩ : ∃ key, executorCanUseIdIndex table w = some key := by
    rw [← Option.isSome_iff_exists, h.canUseIdIndex_isSome, hasks]
  have hkey : key = (i : Int) + 1 := by
    rw [← (executorCanUseIdIndex_some huse).2.2.2]
    exact hvalue
  have hrow : printInt ((i : Int) + 1) :: values ∈ table.rows := by
    rw [h.rows]
    exact List.mem_map.mpr ⟨(values, i), List.mem_zipIdx_iff_getElem?.mpr hi, rfl⟩
  have hid : utilsParseInteger (table.idText (printInt ((i : Int) + 1) :: values)) = key := by
    have hprint : utilsParseInteger (printInt ((i : Int) + 1)) = (i : Int) + 1 :=
      strtoll_printInt (by omega) (by omega)
    rw [TableRuntime.idText, h.storable.id_first, hkey]
    exact hprint
  have hfilter : t.rows.filter (w.holds t.columns) = [printInt ((i : Int) + 1) :: values] := by
    rw [← filter_key_eq_singleton h.storable.consistent.ids_nodup hrow, hid, ← h.rows, ← h.columns]
    refine List.filter_congr fun row hmem => ?_
    rw [Bool.eq_iff_iff, decide_eq_true_iff]
    exact WhereClause.holds_iff_id h.storable.consistent huse hmem
  have hnames : t.Names w.column := by
    rw [LogicalTable.Names, hcolumn]
    exact Option.some_ne_none 0
  unfold LogicalTable.select selectById
  simp only [List.not_mem_nil, false_imp_iff, implies_true, if_true, Option.mem_def,
    Option.some.injEq, forall_eq', Option.all_some, Option.any_some]
  rw [if_pos (Or.inr hnames), hfilter, hasks]
  rfl

/-! ### Rows that were acknowledged -/

/-- After an insertion that was answered with success there is an id for which every later query
returns the inserted row and nothing else. -/
theorem databaseRun_keeps (names : Set Identifier) (hone : OneSpelling names)
    (before : List Event) (hbefore : ∀ e ∈ before, e.Plain names) (sql : CString)
    (hsql : (Event.query sql).Plain names) (stmt : InsertStatement)
    (hstmt : statementOf sql = .ok (.insert stmt))
    (hok : (dbExecuteSql dbEngineInit (databaseRun before) sql).2.2 = .success) :
    ∃ (id : Nat) (columns : List Identifier), ∀ (after : List Event),
      (∀ e ∈ after, e.Plain names) → ∀ (q : CString) (value : Value),
      statementOf q = .ok (.select (selectById stmt.tableName value)) →
      utilsIsInteger value.val = true → utilsParseInteger value.val = id →
        (dbExecuteSql dbEngineInit (databaseRun (before ++ .query sql :: after)) q).2 =
          (Answer.selected columns [printInt id :: stmt.cells] true).result := by
  rw [databaseRun_refines names hone before hbefore sql hsql] at hok
  have hquery : (catalogRun before).query sql = (catalogRun before).insert stmt := by
    rw [Catalog.query, hstmt]
    rfl
  rw [hquery] at hok
  obtain ⟨t, tuples, ht, htuples⟩ := Catalog.insert_result hok
  have hrun : catalogRun (before ++ [.query sql]) stmt.tableName = some t := by
    rw [catalogRun_append, Catalog.step, hquery]
    exact ht
  refine ⟨tuples.length + 1, t.columns, fun after hafter q value hq hint hvalue => ?_⟩
  obtain ⟨t', ht', hext⟩ := Catalog.run_extends hrun after
  rw [List.append_assoc, List.singleton_append] at ht'
  have hplain : ∀ e ∈ before ++ .query sql :: after, e.Plain names := by
    intro e he
    rcases List.mem_append.mp he with he | he
    · exact hbefore e he
    · rcases List.mem_cons.mp he with rfl | he
      · exact hsql
      · exact hafter e he
  have hname : stmt.tableName ∈ names := hsql.named sql _ rfl hstmt
  have hqplain : (Event.query q).Plain names := .select hq hname
  obtain ⟨-, hcoupled⟩ := databaseRun_coupled hone hplain
  obtain ⟨table, hholds, -⟩ := hcoupled.stored _ _ ht'
  have hrow : t'.tuples[tuples.length]? = some stmt.cells := by
    obtain ⟨rest, hrest⟩ := hext.tuples
    rw [← hrest, htuples]
    simp
  have hcolumns : t'.columns = t.columns := by
    rw [LogicalTable.columns, hext.attributes]
    rfl
  rw [databaseRun_refines names hone _ hplain q hqplain, Catalog.query, hq]
  have hselect := hholds.select_id hrow stmt.tableName hint (by rw [hvalue]; push_cast; rfl)
  simp only [Catalog.execute, Catalog.select, selectById] at hselect ⊢
  rw [ht']
  dsimp only
  rw [hselect, hcolumns]
  push_cast
  rfl

/-- A row, and the query for its id after anything that names the table the same way. -/
theorem databaseRun_keeps_first :
    ∃ (id : Nat) (columns : List Identifier), ∀ (after : List Event),
      (∀ e ∈ after, e.Plain {identifier "t"}) → ∀ (q : CString) (value : Value),
      statementOf q = .ok (.select (selectById (identifier "t") value)) →
      utilsIsInteger value.val = true → utilsParseInteger value.val = id →
        (dbExecuteSql dbEngineInit
            (databaseRun (.query (bytes "INSERT INTO t (a) VALUES ('x')") :: after)) q).2 =
          (Answer.selected columns [[printInt id, bytes "x"]] true).result := by
  have hinsert : statementOf (bytes "INSERT INTO t (a) VALUES ('x')") =
      .ok (.insert ⟨identifier "t", [identifier "a"], [.truncate 255 (bytes "x")], by decide,
        by decide⟩) := by rfl
  have hone := oneSpelling_singleton (identifier "t")
  have hplain : (Event.query (bytes "INSERT INTO t (a) VALUES ('x')")).Plain {identifier "t"} :=
    .insert hinsert rfl (.single rfl (by decide))
  have hok : (dbExecuteSql dbEngineInit (databaseRun [])
      (bytes "INSERT INTO t (a) VALUES ('x')")).2.2 = .success := by decide +kernel
  exact databaseRun_keeps _ hone [] (by simp) _ hplain _ hinsert hok

end MiniDbms
