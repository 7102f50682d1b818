import MiniDbms.Engine.Select
import MiniDbms.Engine.Facade

/-!
# What the database is for

A catalog maps names to tables, and a table is a list of rows of which the `n`-th has the id `n`.
There is no cache, no file, no index and no active table: this is the database as its users should
find it. The messages are those of the program.
-/

namespace MiniDbms

/-! ### Tables -/

/-- A table: the columns behind the id, and the values of each row in them. -/
structure LogicalTable where
  attributes : List Identifier
  tuples : List (List CString)
  deriving DecidableEq, Repr

/-- What the users are told. -/
inductive Answer where
  | inserted (tableName : CString)
  | selected (columns : List Identifier) (rows : List (List CString)) (byId : Bool)
  | failed (message : CString)
  deriving DecidableEq, Repr

/-- The result in which the program tells it. -/
def Answer.result : Answer → DbResult × Status
  | inserted tableName =>
    (⟨.insert, true, [], [], 1, false,
      .truncate 511 (bytes "1 row inserted into " ++ tableName ++ bytes ".")⟩, .success)
  | selected columns rows byId =>
    (⟨.select, true, columns, rows, rows.length, byId,
      .truncate 511 (selectMessage rows.length)⟩, .success)
  | failed message => (⟨.error, false, [], [], 0, false, .truncate 511 message⟩, .failure)

namespace LogicalTable

def columns (t : LogicalTable) : List Identifier := identifier "id" :: t.attributes

/-- The rows with their ids. -/
def rows (t : LogicalTable) : List (List CString) :=
  t.tuples.zipIdx.map fun (values, i) => printInt ((i : Int) + 1) :: values

/-- The columns can be those of a table. -/
def Creatable (names : List Identifier) : Prop :=
  names ≠ [] ∧ names.length + 1 ≤ maxColumns ∧
    ∀ n ∈ names, utilsEqualsIgnoreCase n.val (bytes "id") = false

instance (names : List Identifier) : Decidable (Creatable names) :=
  inferInstanceAs (Decidable (_ ∧ _ ∧ _))

/-- A row whose values are given for these columns fits the table, and there is room for it. -/
def Accepts (t : LogicalTable) (names : List Identifier) : Prop :=
  names ≠ [] ∧ names.length = t.attributes.length ∧
    (∀ p ∈ t.attributes.zip names, utilsEqualsIgnoreCase p.1.val p.2.val = true) ∧
    t.tuples.length < 2 ^ 30

instance (t : LogicalTable) (names : List Identifier) : Decidable (t.Accepts names) :=
  inferInstanceAs (Decidable (_ ∧ _ ∧ _ ∧ _))

def insert (t : LogicalTable) (values : List CString) : LogicalTable :=
  { t with tuples := t.tuples ++ [values] }

/-- The table has a column of that name. -/
def Names (t : LogicalTable) (name : Identifier) : Prop :=
  storageFindColumnIndex t.columns name.val ≠ none

instance (t : LogicalTable) (name : Identifier) : Decidable (t.Names name) :=
  inferInstanceAs (Decidable (_ ≠ _))

/-- The column as the table spells it. -/
def header (t : LogicalTable) (name : Identifier) : Identifier :=
  t.columns.getD ((storageFindColumnIndex t.columns name.val).getD 0) .empty

/-- The condition asks for one id, and the table has any. -/
def asksForId (t : LogicalTable) (w : WhereClause) : Bool :=
  t.tuples ≠ [] ∧ w.op.val = bytes "=" ∧ utilsIsInteger w.value.val ∧
    utilsEqualsIgnoreCase (bytes "id") w.column.val ∧ 0 ≤ utilsParseInteger w.value.val ∧
    utilsParseInteger w.value.val ≤ intMax

/-- The rows that satisfy the condition, projected to the selected columns. -/
def select (t : LogicalTable) (stmt : SelectStatement) : Answer :=
  if ∀ c ∈ stmt.columns, t.Names c then
    if t.tuples = [] ∨ ∀ w ∈ stmt.whereClause, t.Names w.column then
      .selected (if stmt.columns = [] then t.columns else stmt.columns.map t.header)
        ((t.rows.filter fun row => stmt.whereClause.all fun w => w.holds t.columns row).map
          (projectRow t.columns stmt.columns))
        (stmt.whereClause.any t.asksForId)
    else .failed (bytes "Failed to collect SELECT rows.")
  else .failed (bytes "Failed to prepare SELECT projection.")

lemma length_rows (t : LogicalTable) : t.rows.length = t.tuples.length := by simp [rows]

/-- A new row goes behind the others, with the next id. -/
lemma rows_insert (t : LogicalTable) (values : List CString) :
    (t.insert values).rows = t.rows ++ [printInt ((t.tuples.length : Int) + 1) :: values] := by
  simp [rows, insert, List.zipIdx_append]

end LogicalTable

/-! ### Catalogs -/

/-- The tables of a database, each under the name it was created with. -/
abbrev Catalog := Identifier → Option LogicalTable

namespace Catalog

def empty : Catalog := fun _ => none

def insert (c : Catalog) (stmt : InsertStatement) : Catalog × Answer :=
  let values := stmt.values.map CBuf.val
  let failed := Answer.failed (bytes "Failed to insert row into " ++ stmt.tableName.val ++ bytes ".")
  match c stmt.tableName with
  | none =>
    if LogicalTable.Creatable stmt.columns then
      (Function.update c stmt.tableName (some ⟨stmt.columns, [values]⟩),
        .inserted stmt.tableName.val)
    else (c, failed)
  | some t =>
    if t.Accepts stmt.columns then
      (Function.update c stmt.tableName (some (t.insert values)), .inserted stmt.tableName.val)
    else (c, failed)

def select (c : Catalog) (stmt : SelectStatement) : Answer :=
  match c stmt.tableName with
  | none   => .failed (bytes "Table '" ++ stmt.tableName.val ++ bytes "' not found in runtime.")
  | some t => t.select stmt

def execute (c : Catalog) : SqlStatement → Catalog × Answer
  | .insert stmt => c.insert stmt
  | .select stmt => (c, c.select stmt)
  | .delete _    => (c, .failed (bytes "DELETE is not supported in memory runtime mode."))

/-- The execution of a text. -/
def query (c : Catalog) (sql : CString) : Catalog × Answer :=
  match statementOf sql with
  | .error message  => (c, .failed message)
  | .ok statement => c.execute statement

end Catalog

/-! ### Histories -/

/-- A text is executed, or the process ends and another one starts in the same directory. -/
inductive Event where
  | query (sql : CString)
  | restart

/-- A restart is nothing to the catalog. -/
def Catalog.step (c : Catalog) : Event → Catalog
  | .query sql => (c.query sql).1
  | .restart   => c

/-- A restart leaves the files. -/
def Database.step (db : Database) : Event → Database
  | .query sql => (dbExecuteSql dbEngineInit db sql).1
  | .restart   => .fresh db.files

/-- The catalog after the events. -/
def catalogRun (events : List Event) : Catalog := events.foldl Catalog.step .empty

/-- The database after the events, the first process starting in an empty directory. -/
def databaseRun (events : List Event) : Database :=
  events.foldl Database.step (.fresh emptyDirectory)

lemma catalogRun_append (events : List Event) (event : Event) :
    catalogRun (events ++ [event]) = (catalogRun events).step event := by
  simp [catalogRun]

lemma databaseRun_append (events : List Event) (event : Event) :
    databaseRun (events ++ [event]) = (databaseRun events).step event := by
  simp [databaseRun]

end MiniDbms
