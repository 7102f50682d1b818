import MiniDbms.Index.Equality

/-!
# Range queries

The binary searches find the end of the cells below a value when the sorted entries have these cells
in front. This takes a comparison that orders the cells of the column, and that puts the cells below
the value before the others.
-/

namespace MiniDbms

/-- The operators of `index_query_range`. -/
def rangeOps : List CompareOp := [.ne, .gt, .ge, .lt, .le]

/-- The test of the binary search for an operator. -/
def CompareOp.below (value : CString) (op : CompareOp) (e : RangeEntry) : Bool :=
  match op with
  | gt => utilsCompareValues e.key.val value ≤ 0
  | le => utilsCompareValues e.key.val value ≤ 0
  | _  => utilsCompareValues e.key.val value < 0

/-- The entries that pass a test are in front of the others however they are sorted: all give the
same answer, or the comparison orders them and puts those that pass before the others. -/
def SortsInFront (below : RangeEntry → Bool) (entries : List RangeEntry) : Prop :=
  (∀ x ∈ entries, ∀ y ∈ entries, below x = below y) ∨
    IsConsistent indexCompareRangeEntries {e | e ∈ entries} ∧
      ∀ x ∈ entries, ∀ y ∈ entries, below x = false → below y = true →
        indexCompareRangeEntries y x < 0

/-- A range query finds the offsets of the rows that a scan finds, whatever `qsort` does. -/
def RangeQueryAgrees (table : TableData) (columnIndex : Nat) (op : CompareOp) (value : CString) :
    Prop :=
  ∀ qsort : (RangeEntry → RangeEntry → Int) → List RangeEntry → List RangeEntry, IsQsort qsort →
    ∃ index offsets, indexBuild qsort table columnIndex = some index ∧
      indexQueryRange index op.text value = some offsets ∧
      offsets.Perm (table.offsetsWhere columnIndex fun cell =>
        op.holds (utilsCompareValues cell value))

/-! ### The binary searches -/

section

variable {entries : List RangeEntry} {value : CString}

lemma entries_getD {i : Nat} (h : i < entries.length) : entries.getD i default = entries[i] :=
  List.getD_eq_getElem _ _ h

/-- The lower bound separates the entries below the value. -/
lemma indexLowerBound_separates
    (h : entries.Pairwise fun a b => CompareOp.lt.below value b = true →
      CompareOp.lt.below value a = true) :
    entries.take (indexLowerBound entries value) = entries.filter (CompareOp.lt.below value) ∧
      entries.drop (indexLowerBound entries value) =
        entries.filter fun e => !CompareOp.lt.below value e :=
  bisect_separates (fun i hi => by rw [entries_getD hi]; rfl) h

/-- The upper bound separates the entries not above the value. -/
lemma indexUpperBound_separates
    (h : entries.Pairwise fun a b => CompareOp.le.below value b = true →
      CompareOp.le.below value a = true) :
    entries.take (indexUpperBound entries value) = entries.filter (CompareOp.le.below value) ∧
      entries.drop (indexUpperBound entries value) =
        entries.filter fun e => !CompareOp.le.below value e :=
  bisect_separates (fun i hi => by rw [entries_getD hi]; rfl) h

end

/-- What a query answers: the entries before, or from, some position on. -/
lemma indexQueryRange_some (index : TableIndex) (op : CompareOp) (value : CString)
    (hop : op ∈ rangeOps) (hne : op ≠ .ne) :
    ∃ n, indexQueryRange index op.text value =
        some ((if op = .lt ∨ op = .le then index.range.take n else index.range.drop n).map
          RangeEntry.offset) ∧
      (index.range.Pairwise (fun a b => op.below value b = true → op.below value a = true) →
        index.range.take n = index.range.filter (op.below value) ∧
          index.range.drop n = index.range.filter fun e => !op.below value e) := by
  cases op with
  | eq => simp [rangeOps] at hop
  | ne => exact absurd rfl hne
  | gt => exact ⟨indexUpperBound index.range value, rfl, indexUpperBound_separates⟩
  | ge => exact ⟨indexLowerBound index.range value, rfl, indexLowerBound_separates⟩
  | lt => exact ⟨indexLowerBound index.range value, rfl, indexLowerBound_separates⟩
  | le => exact ⟨indexUpperBound index.range value, rfl, indexUpperBound_separates⟩

/-! ### Sorted entries -/

lemma SortsInFront.pairwise {below : RangeEntry → Bool} {entries : List RangeEntry}
    (h : SortsInFront below entries)
    {qsort : (RangeEntry → RangeEntry → Int) → List RangeEntry → List RangeEntry}
    (hqsort : IsQsort qsort) :
    (qsort indexCompareRangeEntries entries).Pairwise fun a b =>
      below b = true → below a = true := by
  have hmem : ∀ {e}, e ∈ qsort indexCompareRangeEntries entries → e ∈ entries := by
    intro e he
    exact (hqsort.perm _ _).mem_iff.mp he
  rcases h with hsame | ⟨hconsistent, hfront⟩
  · exact List.pairwise_of_forall_mem_list fun a ha b hb hbelow =>
      (hsame a (hmem ha) b (hmem hb)).trans hbelow
  · refine (hqsort.sorted _ _ hconsistent).imp_of_mem fun {a b} ha hb hle hbelow => ?_
    by_contra hnot
    have hlt := hfront a (hmem ha) b (hmem hb) (Bool.eq_false_iff.mpr hnot) hbelow
    exact absurd ((hconsistent.neg_iff (hmem hb) (hmem ha)).mp hlt) (not_lt.mpr hle)

lemma indexCompareRangeEntries_eq_zero {x y : RangeEntry} (h : indexCompareRangeEntries x y = 0) :
    x.offset = y.offset := by
  unfold indexCompareRangeEntries at h
  dsimp only at h
  split_ifs at h <;> omega

/-- A test that does not sort in front fails for some result of `qsort`. -/
lemma exists_not_pairwise {below : RangeEntry → Bool} {entries : List RangeEntry}
    (hnodup : (entries.map RangeEntry.offset).Nodup) (h : ¬ SortsInFront below entries) :
    ∃ qsort, IsQsort qsort ∧ ¬ (qsort indexCompareRangeEntries entries).Pairwise fun a b =>
      below b = true → below a = true := by
  obtain ⟨hdiffer, hfront⟩ := not_or.mp h
  by_cases hconsistent : IsConsistent indexCompareRangeEntries {e | e ∈ entries}
  · -- an entry that passes comes behind one that does not
    obtain ⟨x, hx, y, hy, hbx, hby, hle⟩ : ∃ x ∈ entries, ∃ y ∈ entries, below x = false ∧
        below y = true ∧ 0 ≤ indexCompareRangeEntries y x := by
      simpa [hconsistent] using hfront
    refine ⟨insertionSortBy, insertionSortBy_isQsort, fun hpairwise => ?_⟩
    have hboth := hpairwise.and (insertionSortBy_isQsort.sorted _ _ hconsistent)
    have hne : x ≠ y := by
      rintro rfl
      rw [hbx] at hby
      cases hby
    have hperm := insertionSortBy_perm indexCompareRangeEntries entries
    obtain ⟨i, hi, rfl⟩ := List.getElem_of_mem (hperm.mem_iff.mpr hx)
    obtain ⟨j, hj, rfl⟩ := List.getElem_of_mem (hperm.mem_iff.mpr hy)
    have hget := List.pairwise_iff_getElem.mp hboth
    rcases lt_trichotomy i j with hij | rfl | hji
    · exact absurd ((hget i j hi hj hij).1 hby) (by simp [hbx])
    · exact hne rfl
    · have hzero := le_antisymm (hget j i hj hi hji).2 hle
      exact hne (List.inj_on_of_nodup_map hnodup hx hy (indexCompareRangeEntries_eq_zero hzero).symm)
  · -- any permutation will do
    obtain ⟨x, hx, y, hy, hbx, hby⟩ : ∃ x ∈ entries, ∃ y ∈ entries, below x = false ∧
        below y = true := by
      push Not at hdiffer
      obtain ⟨x, hx, y, hy, hne⟩ := hdiffer
      cases hbx : below x with
      | false => exact ⟨x, hx, y, hy, hbx, by simpa [hbx] using hne.symm⟩
      | true => exact ⟨y, hy, x, hx, by simpa [hbx] using hne.symm, hbx⟩
    have hperm : (entries.filter (fun e => !below e) ++ entries.filter below).Perm entries := by
      refine List.perm_append_comm.trans ?_
      exact List.filter_append_perm below entries
    obtain ⟨qsort, hqsort, heq⟩ := exists_isQsort hperm hconsistent
    refine ⟨qsort, hqsort, fun hpairwise => ?_⟩
    rw [heq] at hpairwise
    have hback := (List.pairwise_append.mp hpairwise).2.2 x (List.mem_filter.mpr ⟨hx, by simp [hbx]⟩)
      y (List.mem_filter.mpr ⟨hy, hby⟩) hby
    rw [hbx] at hback
    cases hback

/-! ### Answers -/

/-- Entries with different offsets are told apart by them. -/
lemma mem_iff_of_offsets {l a b : List RangeEntry} (hnodup : (l.map RangeEntry.offset).Nodup)
    (ha : a ⊆ l) (hb : b ⊆ l)
    (h : (a.map RangeEntry.offset).Perm (b.map RangeEntry.offset)) (x : RangeEntry) :
    x ∈ a ↔ x ∈ b := by
  have hsub : ∀ {u v : List RangeEntry}, u ⊆ l → v ⊆ l →
      (u.map RangeEntry.offset).Perm (v.map RangeEntry.offset) → x ∈ u → x ∈ v := by
    intro u v hu hv huv hx
    obtain ⟨y, hy, heq⟩ := List.mem_map.mp (huv.subset (List.mem_map_of_mem hx))
    rwa [← List.inj_on_of_nodup_map hnodup (hv hy) (hu hx) heq]
  exact ⟨hsub ha hb h, hsub hb ha h.symm⟩

/-- A part of the list that has the right offsets has the entries that pass in front. -/
lemma pairwise_of_offsets {q : RangeEntry → Bool} {l : List RangeEntry}
    (hnodup : (l.map RangeEntry.offset).Nodup) (n : Nat)
    (h : ((l.take n).map RangeEntry.offset).Perm ((l.filter q).map RangeEntry.offset) ∨
      ((l.drop n).map RangeEntry.offset).Perm ((l.filter fun e => !q e).map RangeEntry.offset)) :
    l.Pairwise fun a b => q b = true → q a = true := by
  have hdisjoint : ∀ {x}, x ∈ l.take n → x ∉ l.drop n := by
    intro x hx hx'
    have hwhole := hnodup.of_map
    rw [← List.take_append_drop n l] at hwhole
    exact (List.nodup_append.mp hwhole).2.2 x hx x hx' rfl
  have hseparated : (∀ x ∈ l.take n, q x = true) ∧ ∀ x ∈ l.drop n, q x = false := by
    rcases h with h | h
    · have hmem := mem_iff_of_offsets hnodup (List.take_subset n l) (List.filter_subset_self l) h
      refine ⟨fun x hx => (List.mem_filter.mp ((hmem x).mp hx)).2, fun x hx => ?_⟩
      by_contra hq
      refine hdisjoint ((hmem x).mpr (List.mem_filter.mpr ⟨List.mem_of_mem_drop hx, ?_⟩)) hx
      simpa using hq
    · have hmem := mem_iff_of_offsets hnodup (List.drop_subset n l) (List.filter_subset_self l) h
      refine ⟨fun x hx => ?_, fun x hx => by simpa using (List.mem_filter.mp ((hmem x).mp hx)).2⟩
      by_contra hq
      refine hdisjoint hx ((hmem x).mpr (List.mem_filter.mpr ⟨List.mem_of_mem_take hx, ?_⟩))
      simpa using hq
  rw [← List.take_append_drop n l]
  refine List.pairwise_append.mpr ⟨?_, ?_, fun a ha b _ _ => hseparated.1 a ha⟩
  · exact List.pairwise_of_forall_mem_list fun a ha b _ _ => hseparated.1 a ha
  · refine List.pairwise_of_forall_mem_list fun a _ b hb hqb => ?_
    rw [hseparated.2 b hb] at hqb
    cases hqb

/-- What a scan finds, in terms of the entries. -/
lemma TableData.offsetsWhere_eq {table : TableData} {columnIndex : Nat}
    (h : table.ColumnFits columnIndex) (p : CString → Bool) :
    table.offsetsWhere columnIndex p =
      ((table.entries columnIndex).filter fun e => p e.key.val).map RangeEntry.offset := by
  rw [TableData.offsetsWhere, TableData.entries, List.filter_map, List.map_map]
  have hfilter : ((table.rows.zip table.offsets).filter fun r => p (r.1.getD columnIndex [])) =
      (table.rows.zip table.offsets).filter
        ((fun e => p e.key.val) ∘ fun r : List CString × Nat =>
          ({ key := .truncate 255 (r.1.getD columnIndex []), offset := r.2 } : RangeEntry)) := by
    refine List.filter_congr fun r hr => ?_
    obtain ⟨hlen, hnul⟩ := h.cells r.1 (List.of_mem_zip hr).1
    rw [Function.comp_apply, CBuf.truncate_eq hlen hnul]
  rw [hfilter]
  rfl

/-- Where the operator holds, in terms of the test of its search. -/
lemma CompareOp.holds_eq_below {op : CompareOp} (hop : op ∈ rangeOps) (hne : op ≠ .ne)
    (value : CString) (e : RangeEntry) :
    op.holds (utilsCompareValues e.key.val value) =
      if op = .lt ∨ op = .le then op.below value e else !op.below value e := by
  rw [Bool.eq_iff_iff]
  cases op with
  | eq => simp [rangeOps] at hop
  | ne => exact absurd rfl hne
  | gt => simp [CompareOp.holds, CompareOp.below]
  | ge => simp [CompareOp.holds, CompareOp.below]
  | lt => simp [CompareOp.holds, CompareOp.below]
  | le => simp [CompareOp.holds, CompareOp.below]

/-- The answer for one result of `qsort` is right when the entries that pass are in front, and with
different offsets only then. -/
lemma indexQueryRange_perm {table : TableData} {columnIndex : Nat} (h : table.ColumnFits columnIndex)
    {op : CompareOp} (hop : op ∈ rangeOps) (hne : op ≠ .ne) (value : CString)
    {qsort : (RangeEntry → RangeEntry → Int) → List RangeEntry → List RangeEntry}
    (hqsort : IsQsort qsort) :
    ∃ index offsets, indexBuild qsort table columnIndex = some index ∧
      indexQueryRange index op.text value = some offsets ∧
      ((qsort indexCompareRangeEntries (table.entries columnIndex)).Pairwise (fun a b =>
          op.below value b = true → op.below value a = true) →
        offsets.Perm (table.offsetsWhere columnIndex fun cell =>
          op.holds (utilsCompareValues cell value))) ∧
      (((table.entries columnIndex).map RangeEntry.offset).Nodup →
        offsets.Perm (table.offsetsWhere columnIndex fun cell =>
          op.holds (utilsCompareValues cell value)) →
        (qsort indexCompareRangeEntries (table.entries columnIndex)).Pairwise fun a b =>
          op.below value b = true → op.below value a = true) := by
  set entries := table.entries columnIndex with hentries
  set sorted := qsort indexCompareRangeEntries entries with hsorted
  have hperm : sorted.Perm entries := hqsort.perm _ _
  obtain ⟨n, hanswer, hseparates⟩ := indexQueryRange_some
    ⟨columnIndex, (table.rows.zip table.offsets).foldl
      (fun e r => indexAddHashEntry e (r.1.getD columnIndex []) r.2) .zero, sorted⟩ op value hop hne
  have hscan : (table.offsetsWhere columnIndex fun cell =>
      op.holds (utilsCompareValues cell value)).Perm ((sorted.filter fun e =>
        if op = .lt ∨ op = .le then op.below value e else !op.below value e).map
          RangeEntry.offset) := by
    rw [TableData.offsetsWhere_eq h]
    simp only [CompareOp.holds_eq_below hop hne]
    exact ((hperm.filter _).map _).symm
  refine ⟨_, _, indexBuild_some h, hanswer, fun hpairwise => ?_, fun hnodup hagrees => ?_⟩
  · refine List.Perm.trans (List.Perm.of_eq ?_) hscan.symm
    obtain ⟨htake, hdrop⟩ := hseparates hpairwise
    by_cases hfront : op = .lt ∨ op = .le
    · simp only [if_pos hfront, htake]
    · simp only [if_neg hfront, hdrop]
  · refine pairwise_of_offsets ((hperm.map _).nodup_iff.mpr hnodup) n ?_
    have hboth := hagrees.trans hscan
    by_cases hfront : op = .lt ∨ op = .le
    · simp only [if_pos hfront] at hboth
      exact .inl hboth
    · simp only [if_neg hfront] at hboth
      exact .inr hboth

/-- A query for `!=` looks at every entry. -/
lemma indexQueryRange_ne {table : TableData} {columnIndex : Nat} (h : table.ColumnFits columnIndex)
    (value : CString) : RangeQueryAgrees table columnIndex .ne value := by
  intro qsort hqsort
  refine ⟨_, _, indexBuild_some h, rfl, ?_⟩
  rw [TableData.offsetsWhere_eq h]
  exact ((hqsort.perm _ _).filter _).map _

lemma TableData.map_offset_entries {table : TableData} {columnIndex : Nat}
    (h : table.ColumnFits columnIndex) :
    (table.entries columnIndex).map RangeEntry.offset = table.offsets := by
  rw [TableData.entries, List.map_map]
  exact List.map_snd_zip h.offsets.le

/-- A range query agrees with a scan for `!=`, and whenever the entries that pass the test of its
search sort in front of the others. If the rows have different offsets, it agrees only then. -/
theorem indexQueryRange_agrees_iff {table : TableData} {columnIndex : Nat}
    (h : table.ColumnFits columnIndex) {op : CompareOp} (hop : op ∈ rangeOps) (value : CString) :
    ((op = .ne ∨ SortsInFront (op.below value) (table.entries columnIndex)) →
        RangeQueryAgrees table columnIndex op value) ∧
      (table.offsets.Nodup → RangeQueryAgrees table columnIndex op value →
          op = .ne ∨ SortsInFront (op.below value) (table.entries columnIndex)) := by
  by_cases hne : op = .ne
  · subst hne
    exact ⟨fun _ => indexQueryRange_ne h value, fun _ _ => .inl rfl⟩
  · refine ⟨fun hcond qsort hqsort => ?_, fun hnodup hagrees => .inr ?_⟩
    · obtain ⟨index, offsets, hbuild, hquery, hright, -⟩ :=
        indexQueryRange_perm h hop hne value hqsort
      exact ⟨index, offsets, hbuild, hquery,
        hright ((hcond.resolve_left hne).pairwise hqsort)⟩
    · by_contra hnot
      rw [← TableData.map_offset_entries h] at hnodup
      obtain ⟨qsort, hqsort, hpairwise⟩ := exists_not_pairwise hnodup hnot
      obtain ⟨index, offsets, hbuild, hquery, -, hright⟩ :=
        indexQueryRange_perm h hop hne value hqsort
      obtain ⟨index', offsets', hbuild', hquery', hperm⟩ := hagrees qsort hqsort
      obtain rfl := Option.some.inj (hbuild.symm.trans hbuild')
      obtain rfl := Option.some.inj (hquery.symm.trans hquery')
      exact hpairwise (hright hnodup hperm)

instance (below : RangeEntry → Bool) (entries : List RangeEntry) :
    Decidable (SortsInFront below entries) := by
  unfold SortsInFront
  infer_instance

/-- The cells 1, 01 and x are in order, and the first two are below 3. -/
theorem indexQueryRange_agrees_mixed : RangeQueryAgrees respelledTable 0 .lt (bytes "3") :=
  (indexQueryRange_agrees_iff respelledTable_columnFits (by decide) (bytes "3")).1
    (.inr (by decide +kernel))

/-- Two numbers. -/
def numberTable : TableData where
  columns := [identifier "a"]
  rows := [[bytes "9"], [bytes "10"]]
  offsets := [2, 4]

/-- The numbers 9 and 10 are sorted, but the text `1a` is between them the other way round. -/
theorem indexQueryRange_agrees_text :
    ¬ ∀ (table : TableData) (columnIndex : Nat) (op : CompareOp) (value : CString),
      table.ColumnFits columnIndex → op ∈ rangeOps →
        RangeQueryAgrees table columnIndex op value := by
  intro h
  obtain ⟨index, offsets, hbuild, hquery, hperm⟩ := h numberTable 0 .gt (bytes "1a")
    ⟨rfl, by decide, by decide⟩ (by decide) insertionSortBy insertionSortBy_isQsort
  have hfound : (indexBuild insertionSortBy numberTable 0).bind
      (indexQueryRange · (bytes ">") (bytes "1a")) = some [] := by
    decide +kernel
  rw [hbuild, Option.bind_some] at hfound
  obtain rfl := Option.some.inj (hquery.symm.trans hfound)
  exact absurd hperm.length_eq (by decide +kernel)

end MiniDbms
