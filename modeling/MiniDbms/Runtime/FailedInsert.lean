import MiniDbms.Storage.Effects
import MiniDbms.Runtime.Load

/-!
# What a failed `storage_insert` leaves

The file is opened in a mode that creates it, before anything is checked. An insertion that is
refused leaves the files alone except where there was none: an empty file stays behind, and no table
can be loaded from it.
-/

namespace MiniDbms

/-- An empty file takes the statement: it has an id, or there is room for one. -/
def StartsTable (stmt : InsertStatement) : Prop :=
  match storageFindColumnIndex stmt.columns (bytes "id") with
  | none         => stmt.columns.length + 1 ≤ maxColumns
  | some idIndex => (stmt.values.map CBuf.val).getD idIndex [] ≠ []

/-- In an empty file no id is taken. -/
lemma storageValidatePrimaryKey_nil {columns : List Identifier} {values : List CString} {i : Nat}
    (hi : storageFindColumnIndex columns (bytes "id") = some i) :
    storageValidatePrimaryKey [] columns values = .success ↔ values.getD i [] ≠ [] := by
  refine ⟨fun h => storageValidatePrimaryKey_success h hi, fun h => ?_⟩
  rw [storageValidatePrimaryKey, hi]
  dsimp only
  rw [if_neg (by simpa using h)]
  rfl

lemma storageInsertText_nil_iff (stmt : InsertStatement) :
    storageInsertText [] stmt ≠ none ↔ StartsTable stmt := by
  have hempty : storageInsertText [] stmt = storageInsertNew [] stmt := rfl
  rw [hempty, StartsTable, storageInsertNew]
  dsimp only
  cases hfind : storageFindColumnIndex stmt.columns (bytes "id") with
  | none =>
    rw [if_pos rfl, if_pos rfl]
    dsimp only
    have hid : storageFindColumnIndex (CBuf.truncate 63 (bytes "id") :: stmt.columns)
        (bytes "id") = some 0 := by
      rw [storageFindColumnIndex, List.findIdx?_cons, if_pos (by decide)]
    have hone : (bytes "1" :: stmt.values.map CBuf.val).getD 0 [] ≠ [] := List.cons_ne_nil _ _
    rw [if_pos ((storageValidatePrimaryKey_nil hid).mpr hone)]
    by_cases hcount : stmt.columns.length + 1 > maxColumns
    · rw [if_pos ⟨rfl, hcount⟩]
      simpa using hcount
    · rw [if_neg fun h => hcount h.2]
      simpa using hcount
  | some i =>
    have hne : some i ≠ none := Option.some_ne_none i
    rw [if_neg fun h => hne h.1, if_neg hne, if_neg hne]
    dsimp only
    rw [← @storageValidatePrimaryKey_nil _ (stmt.values.map CBuf.val) _ hfind]
    by_cases hvalid :
        storageValidatePrimaryKey [] stmt.columns (stmt.values.map CBuf.val) = .success
    · simp [hvalid]
    · simp [hvalid]

/-- A refused insertion leaves all files alone, so that every table exists and loads as before, if
and only if there was a file or an empty file takes the statement. -/
theorem storageInsert_failure_iff (files : Files) (tableName : CString) (stmt : InsertStatement) :
    ((storageInsert files tableName stmt).2 = .failure →
      (storageInsert files tableName stmt).1 = files ∧
      ∀ name, storageTableExists (storageInsert files tableName stmt).1 name =
          storageTableExists files name ∧
        ∀ t, tableLoadFromStorageIfNeeded (storageInsert files tableName stmt).1 t name =
          tableLoadFromStorageIfNeeded files t name) ↔
    ∀ path, storageBuildPath tableName = some path → files path = none → StartsTable stmt := by
  cases hpath : storageBuildPath tableName with
  | none => simp [storageInsert, hpath]
  | some path =>
    rw [storageInsert_eq hpath]
    cases hfile : files path with
    | some content =>
      -- a file that is opened and not written is as it was
      have hsame : Function.update files path (some content) = files := by
        rw [← hfile]
        exact Function.update_eq_self path files
      rw [Option.getD_some]
      cases storageInsertText content stmt with
      | none => simp [hsame, hfile]
      | some text => simp [hfile]
    | none =>
      rw [Option.getD_none]
      constructor
      · rintro h _ ⟨⟩ -
        rw [← storageInsertText_nil_iff]
        intro htext
        rw [htext] at h
        have hcreated := congrFun (h rfl).1 path
        dsimp only at hcreated
        rw [Function.update_self, hfile] at hcreated
        cases hcreated
      · intro h
        have htext := (storageInsertText_nil_iff stmt).mpr (h path rfl hfile)
        obtain ⟨text, htext⟩ := Option.ne_none_iff_exists'.mp htext
        rw [htext]
        rintro ⟨⟩

/-- A row with an id. -/
def insertKey (id : String) : InsertStatement :=
  ⟨identifier "t", [identifier "id", identifier "name"],
    [.truncate 255 (bytes id), .truncate 255 (bytes "a")], by decide, rfl⟩

/-- An empty id is refused, and from then on the table does not load. -/
theorem storageInsert_failure_created :
    ¬ ∀ (files : Files) (tableName : CString) (stmt : InsertStatement),
      (storageInsert files tableName stmt).2 = .failure →
      (storageInsert files tableName stmt).1 = files ∧
      ∀ name, storageTableExists (storageInsert files tableName stmt).1 name =
          storageTableExists files name ∧
        ∀ t, tableLoadFromStorageIfNeeded (storageInsert files tableName stmt).1 t name =
          tableLoadFromStorageIfNeeded files t name := by
  intro h
  obtain ⟨-, hsame⟩ := h (fun _ => none) (bytes "t") (insertKey "") (by decide +kernel)
  have hload := congrArg Prod.snd ((hsame (bytes "t")).2 tableInit)
  exact absurd hload (by decide +kernel)

end MiniDbms
