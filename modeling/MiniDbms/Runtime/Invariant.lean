import MiniDbms.Runtime.Basic
import MiniDbms.Storage.Properties
import MiniDbms.BPTree.Properties

/-!
# The invariant of the runtime table

A loaded table is determined by its name, its columns and its rows: `next_id` and the id index are
functions of the ids in slot order. Every operation keeps it that way. The one step that does not
(an insertion while the id column is not the first one) is taken back, because `storage_insert`
refuses the statement.
-/

namespace MiniDbms

/-! ### Ids, the next id and the index -/

/-- The pairs fed to the index: every id with its slot. -/
def indexPairs (ids : List Int) : List (Int × Int) :=
  ids.zipIdx.map fun p => (p.1, (p.2 : Int))

/-- `next_id` after the ids were seen in turn. -/
def nextIdAfter (ids : List Int) : Int := ids.foldl (fun n k => if k ≥ n then k + 1 else n) 1

lemma indexPairs_append (ids : List Int) (k : Int) :
    indexPairs (ids ++ [k]) = indexPairs ids ++ [(k, (ids.length : Int))] := by
  simp [indexPairs, List.zipIdx_append]

lemma indexPairs_map_fst (ids : List Int) : (indexPairs ids).map Prod.fst = ids := by
  rw [indexPairs, List.map_map]
  exact List.zipIdx_map_fst 0 ids

lemma mem_indexPairs {ids : List Int} {k v : Int} :
    (k, v) ∈ indexPairs ids ↔ ∃ i : Nat, ids[i]? = some k ∧ v = i := by
  simp only [indexPairs, List.mem_map, Prod.mk.injEq, Prod.exists, List.mem_zipIdx_iff_getElem?]
  constructor
  · rintro ⟨k', i, hget, rfl, rfl⟩
    exact ⟨i, hget, rfl⟩
  · rintro ⟨i, hget, rfl⟩
    exact ⟨k, i, hget, rfl, rfl⟩

lemma nextIdAfter_append (ids : List Int) (k : Int) :
    nextIdAfter (ids ++ [k]) = if k ≥ nextIdAfter ids then k + 1 else nextIdAfter ids := by
  simp [nextIdAfter]

lemma lt_nextIdAfter (ids : List Int) : 1 ≤ nextIdAfter ids ∧ ∀ k ∈ ids, k < nextIdAfter ids := by
  induction ids using List.reverseRecOn with
  | nil => simp [nextIdAfter]
  | append_singleton ids k ih =>
    rw [nextIdAfter_append]
    constructor
    · split_ifs <;> omega
    · intro k' hk'
      rcases List.mem_append.mp hk' with hk' | hk'
      · have := ih.2 k' hk'
        split_ifs <;> omega
      · obtain rfl : k' = k := by simpa using hk'
        split_ifs <;> omega

/-- The index finds exactly the slot of every id. -/
lemma search_indexPairs {ids : List Int} (hnodup : ids.Nodup) (k v : Int) :
    bptreeSearch (bptreeRun (indexPairs ids)) k = some v ↔ ∃ i : Nat, ids[i]? = some k ∧ v = i := by
  rw [(bptreeRun_inv _).search_eq_lookup, ← mem_indexPairs]
  apply lookup_eq_some_iff_mem
  rwa [indexPairs_map_fst]

/-! ### Capacity -/

/-- The capacities that doubling reaches without overflow. -/
def ValidCapacity (c : Int) : Prop := c = 0 ∨ ∃ k ≤ 26, c = 16 * 2 ^ k

lemma tableReserveIfNeeded_fst (t : TableRuntime) :
    (tableReserveIfNeeded t).1 = { t with capacity := (tableReserveIfNeeded t).1.capacity } := by
  unfold tableReserveIfNeeded
  dsimp only
  split_ifs <;> rfl

lemma grownCapacity_spec {c : Int} (h : ValidCapacity c) :
    (c < 2 ^ 30 → ValidCapacity (grownCapacity c) ∧ c < grownCapacity c ∧
      pointerArraySize (grownCapacity c) ≤ maxObjectSize) ∧
    (2 ^ 30 ≤ c → pointerArraySize (grownCapacity c) > maxObjectSize) := by
  have hdouble : ∀ k < 26, grownCapacity (16 * 2 ^ k) = 16 * 2 ^ (k + 1) ∧
      (16 * 2 ^ k : Int) < 16 * 2 ^ (k + 1) ∧ (16 * 2 ^ k : Int) < 2 ^ 30 ∧
      pointerArraySize (16 * 2 ^ (k + 1)) ≤ maxObjectSize := by decide
  rcases h with rfl | ⟨k, hk, rfl⟩
  · exact ⟨fun _ => ⟨.inr ⟨0, by decide, rfl⟩, by decide, by decide⟩, fun h => by omega⟩
  · rcases Nat.lt_or_eq_of_le hk with hlt | rfl
    · obtain ⟨hgrown, hlarger, hsmall, hsize⟩ := hdouble k hlt
      rw [hgrown]
      exact ⟨fun _ => ⟨.inr ⟨k + 1, hlt, rfl⟩, hlarger, hsize⟩, fun h => by omega⟩
    · exact ⟨fun h => by omega, fun _ => by decide⟩

/-- Up to 2^30 rows the array grows in time; beyond, the size asked for is no size at all. -/
lemma tableReserveIfNeeded_spec {t : TableRuntime} (hc : ValidCapacity t.capacity)
    (hrows : (t.rows.length : Int) ≤ t.capacity) :
    ValidCapacity (tableReserveIfNeeded t).1.capacity ∧
      (t.rows.length : Int) ≤ (tableReserveIfNeeded t).1.capacity ∧
      ((tableReserveIfNeeded t).2 = .success →
        (t.rows.length : Int) < (tableReserveIfNeeded t).1.capacity) ∧
      (t.rows.length < 2 ^ 30 → (tableReserveIfNeeded t).2 = .success) := by
  obtain ⟨hgrow, hfull⟩ := grownCapacity_spec hc
  unfold tableReserveIfNeeded
  split_ifs with hroom
  · exact ⟨hc, hrows, fun _ => hroom, fun _ => rfl⟩
  · have heq : (t.rows.length : Int) = t.capacity := by omega
    dsimp only
    split_ifs with hsize
    · refine ⟨hc, hrows, by simp, fun h => ?_⟩
      have := (hgrow (by omega)).2.2
      omega
    · have hlt : t.capacity < 2 ^ 30 := by
        by_contra hge
        have := hfull (by omega)
        omega
      obtain ⟨hvalid, hlarger, -⟩ := hgrow hlt
      exact ⟨hvalid, by dsimp only; omega, fun _ => by dsimp only; omega, fun _ => rfl⟩

/-! ### Consistent tables -/

/-- The ids of a table, in slot order. -/
def TableRuntime.ids (t : TableRuntime) : List Int :=
  t.rows.map fun row => utilsParseInteger (t.idText row)

/-- What holds of every loaded table. -/
structure TableRuntime.Consistent (t : TableRuntime) : Prop where
  columns_le : t.columns.length ≤ maxColumns
  id_column : storageFindColumnIndex t.columns (bytes "id") = some t.idColumnIndex
  row_length : ∀ row ∈ t.rows, row.length = t.columns.length
  id_integer : ∀ row ∈ t.rows, utilsIsInteger (t.idText row) = true
  id_range : ∀ k ∈ t.ids, 0 ≤ k ∧ k ≤ intMax
  ids_nodup : t.ids.Nodup
  next_id : t.nextId = nextIdAfter t.ids
  index : t.idIndex = bptreeRun (indexPairs t.ids)
  valid_capacity : ValidCapacity t.capacity
  rows_le : (t.rows.length : Int) ≤ t.capacity

/-- What holds of every table that is not loaded. -/
structure TableRuntime.Unloaded (t : TableRuntime) : Prop where
  rows : t.rows = []
  capacity : t.capacity = 0
  idColumnIndex : t.idColumnIndex = 0
  nextId : t.nextId = 1
  idIndex : t.idIndex = .null
  loaded : t.loaded = false

/-- The parts of a table that adding rows leaves alone. -/
def TableRuntime.SameSchema (t t' : TableRuntime) : Prop :=
  t'.tableName = t.tableName ∧ t'.columns = t.columns ∧ t'.idColumnIndex = t.idColumnIndex ∧
    t'.loaded = t.loaded

/-- The table with one more row, as `bptree_insert` and the caller leave it. -/
def TableRuntime.addRow (t : TableRuntime) (capacity : Int) (row : List CString) (k : Int) :
    TableRuntime :=
  { t with
    capacity := capacity
    rows := t.rows ++ [row]
    idIndex := (bptreeInsert t.idIndex k t.rows.length).1
    nextId := if k ≥ t.nextId then k + 1 else t.nextId }

lemma TableRuntime.ids_addRow (t : TableRuntime) (c : Int) (row : List CString) (k : Int) :
    (t.addRow c row k).ids = t.ids ++ [utilsParseInteger (t.idText row)] := by
  simp [TableRuntime.ids, TableRuntime.addRow, TableRuntime.idText]

namespace TableRuntime.Consistent

variable {t : TableRuntime} {row : List CString} {k c : Int}

/-- The index takes a key exactly when no row has it. -/
lemma insert_status (h : t.Consistent) (k : Int) :
    (bptreeInsert t.idIndex k t.rows.length).2 = .success ↔ k ∉ t.ids := by
  rw [h.index, ((bptreeRun_inv _).step k _).2, indexPairs_map_fst]

lemma addRow (h : t.Consistent) (hc : ValidCapacity c) (hroom : (t.rows.length : Int) < c)
    (hlen : row.length = t.columns.length) (hint : utilsIsInteger (t.idText row) = true)
    (hk : utilsParseInteger (t.idText row) = k) (hrange : 0 ≤ k ∧ k ≤ intMax) (hnew : k ∉ t.ids) :
    (t.addRow c row k).Consistent := by
  have hids : (t.addRow c row k).ids = t.ids ++ [k] := by rw [t.ids_addRow, hk]
  have hmem : ∀ {P : List CString → Prop}, (∀ r ∈ t.rows, P r) → P row →
      ∀ r ∈ (t.addRow c row k).rows, P r := by
    intro P hold hrow r hr
    rcases List.mem_append.mp hr with hr | hr
    · exact hold r hr
    · obtain rfl : r = row := by simpa using hr
      exact hrow
  constructor
  · exact h.columns_le
  · exact h.id_column
  · exact hmem h.row_length hlen
  · exact hmem h.id_integer hint
  · rw [hids]
    intro k' hk'
    rcases List.mem_append.mp hk' with hk' | hk'
    · exact h.id_range k' hk'
    · obtain rfl : k' = k := by simpa using hk'
      exact hrange
  · rw [hids]
    exact List.nodup_append.mpr ⟨h.ids_nodup, by simp, by
      intro a ha b hb
      obtain rfl : b = k := by simpa using hb
      exact fun hab => hnew (hab ▸ ha)⟩
  · rw [hids, nextIdAfter_append, ← h.next_id]
    rfl
  · have hlength : t.ids.length = t.rows.length := by simp [TableRuntime.ids]
    rw [hids, indexPairs_append, bptreeRun_append, ← h.index, hlength]
    rfl
  · exact hc
  · simp only [TableRuntime.addRow, List.length_append, List.length_singleton]
    omega

end TableRuntime.Consistent

/-! ### Loading rows -/

/-- The rows a table can still take: well-formed ids that are not used yet. -/
structure LoadableRow (t : TableRuntime) (row : List CString) : Prop where
  id_integer : utilsIsInteger (t.idText row) = true
  id_range : 0 ≤ utilsParseInteger (t.idText row) ∧ utilsParseInteger (t.idText row) ≤ intMax
  id_new : utilsParseInteger (t.idText row) ∉ t.ids

/-- `table_load_from_storage_if_needed` adds a row exactly when it can be loaded. -/
lemma tableLoadRow_eq (t : TableRuntime) (row : List CString) :
    tableLoadRow t row =
      if (tableReserveIfNeeded t).2 = .success ∧ utilsIsInteger (t.idText row) = true ∧
          (0 ≤ utilsParseInteger (t.idText row) ∧ utilsParseInteger (t.idText row) ≤ intMax) ∧
          (bptreeInsert t.idIndex (utilsParseInteger (t.idText row)) t.rows.length).2 = .success
      then some (t.addRow (tableReserveIfNeeded t).1.capacity row (utilsParseInteger (t.idText row)))
      else none := by
  have hfst := tableReserveIfNeeded_fst t
  unfold tableLoadRow
  generalize tableReserveIfNeeded t = res at hfst ⊢
  obtain ⟨t₁, st⟩ := res
  dsimp only at hfst ⊢
  generalize t₁.capacity = c at hfst ⊢
  subst hfst
  cases st with
  | failure => simp
  | success =>
    have htext : ({ t with capacity := c } : TableRuntime).idText row = t.idText row := rfl
    simp only [htext, true_and]
    generalize utilsParseInteger (t.idText row) = k
    have hadd : t.addRow c row k = { t with
        rows := t.rows ++ [row], capacity := c
        idIndex := (bptreeInsert t.idIndex k t.rows.length).1
        nextId := if k ≥ t.nextId then k + 1 else t.nextId } := rfl
    rw [hadd]
    generalize bptreeInsert t.idIndex k t.rows.length = inserted
    obtain ⟨idIndex, st⟩ := inserted
    by_cases hint : utilsIsInteger (t.idText row) = true
    · by_cases hrange : k < 0 ∨ k > intMax
      · have hnot : ¬ (0 ≤ k ∧ k ≤ intMax) := by omega
        simp [hint, hrange, hnot]
      · have hok : 0 ≤ k ∧ k ≤ intMax := by omega
        cases st <;> simp [hint, hrange, hok]
    · simp [hint]

/-- A row that is loaded is added as it is. -/
lemma tableLoadRow_some {t t' : TableRuntime} {row : List CString} (h : t.Consistent)
    (hlen : row.length = t.columns.length) (hload : tableLoadRow t row = some t') :
    t'.Consistent ∧ t.SameSchema t' ∧ t'.rows = t.rows ++ [row] := by
  obtain ⟨hc, -, hroom, -⟩ := tableReserveIfNeeded_spec h.valid_capacity h.rows_le
  rw [tableLoadRow_eq] at hload
  split_ifs at hload with hok
  cases hload
  obtain ⟨hres, hint, hrange, hins⟩ := hok
  exact ⟨h.addRow hc (hroom hres) hlen hint rfl hrange ((h.insert_status _).mp hins),
    ⟨rfl, rfl, rfl, rfl⟩, rfl⟩

lemma tableLoadRow_loadable {t : TableRuntime} {row : List CString} (h : t.Consistent)
    (hrow : LoadableRow t row) (hcount : t.rows.length < 2 ^ 30) :
    (tableLoadRow t row).isSome = true := by
  obtain ⟨-, -, -, hres⟩ := tableReserveIfNeeded_spec h.valid_capacity h.rows_le
  rw [tableLoadRow_eq, if_pos]
  · rfl
  · exact ⟨hres hcount, hrow.id_integer, hrow.id_range, (h.insert_status _).mpr hrow.id_new⟩

lemma TableRuntime.SameSchema.trans {t t' t'' : TableRuntime} (h : t.SameSchema t')
    (h' : t'.SameSchema t'') : t.SameSchema t'' :=
  ⟨h'.1.trans h.1, h'.2.1.trans h.2.1, h'.2.2.1.trans h.2.2.1, h'.2.2.2.trans h.2.2.2⟩

/-- The loop over the rows adds all of them, in order. -/
lemma tableLoadRows_some {t t' : TableRuntime} {rows : List (List CString)} (h : t.Consistent)
    (hlen : ∀ row ∈ rows, row.length = t.columns.length)
    (hload : tableLoadRows t rows = some t') :
    t'.Consistent ∧ t.SameSchema t' ∧ t'.rows = t.rows ++ rows := by
  induction rows generalizing t with
  | nil =>
    cases hload
    exact ⟨h, ⟨rfl, rfl, rfl, rfl⟩, by simp⟩
  | cons row rows ih =>
    obtain ⟨t₁, hrow, hrest⟩ := Option.bind_eq_some_iff.mp hload
    obtain ⟨h₁, hschema, hrows⟩ := tableLoadRow_some h (hlen row (by simp)) hrow
    have hlen' : ∀ r ∈ rows, r.length = t₁.columns.length := by
      intro r hr
      rw [hschema.2.1]
      exact hlen r (by simp [hr])
    obtain ⟨h', hschema', hrows'⟩ := ih h₁ hlen' hrest
    exact ⟨h', hschema.trans hschema', by rw [hrows', hrows, List.append_assoc]; rfl⟩

end MiniDbms
