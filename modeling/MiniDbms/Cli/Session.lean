import MiniDbms.Cli.Render
import MiniDbms.Cli.Repl
import MiniDbms.Engine.Messages
import MiniDbms.Engine.Refinement

/-!
# What a session shows

The statements of a session run one after the other against the database, and
`executor_render_result_for_cli` prints each result. What it prints are the answers of the catalog,
and every answer with rows as a table that is drawn as it should be. The diagnostics that the
functions below it write to `stderr` on the way are not modelled.
-/

namespace MiniDbms

/-! ### Sessions -/

namespace Printed

def empty : Printed := ⟨[], []⟩

def append (p q : Printed) : Printed := ⟨p.stdout ++ q.stdout, p.stderr ++ q.stderr⟩

/-- What has been printed in several calls. -/
def join (ps : List Printed) : Printed := ⟨ps.flatMap stdout, ps.flatMap stderr⟩

lemma append_join (p : Printed) (ps : List Printed) : join (p :: ps) = p.append (join ps) := rfl

lemma append_assoc (p q r : Printed) : (p.append q).append r = p.append (q.append r) := by
  simp [append]

end Printed

/-- The database with what `executor_render_result_for_cli` has printed; `none` once an array was
left. -/
structure Session where
  database : Database
  printed : Option Printed

/-- What `main_process_sql_statement` does with a text that is not empty: it is executed, and the
result is rendered. -/
def Session.execute (s : Session) (sql : CString) : Session :=
  let (database, result, _) := dbExecuteSql dbEngineInit s.database sql
  ⟨database, do
    let printed ← s.printed
    let more ← executorRenderResultForCli result
    some (printed.append more)⟩

/-- The answers to the texts. -/
def Catalog.answers : (c : Catalog) → (sqls : List CString) → List Answer
  | _, []          => []
  | c, sql :: sqls => (c.query sql).2 :: Catalog.answers (c.query sql).1 sqls

/-! ### Answers on the terminal -/

def Answer.message (answer : Answer) : CString := answer.result.1.message.val

/-- The answer as `executor_render_result_for_cli` should print it. -/
inductive Shown : Answer → Printed → Prop
  | inserted (tableName : CString) :
      Shown (.inserted tableName) ⟨(Answer.inserted tableName).message ++ bytes "\n", []⟩
  | selected {columns : List Identifier} {rows : List (List CString)} (byId : Bool)
      {table : CString} (hdrawn : Drawn columns rows table) :
      Shown (.selected columns rows byId)
        ⟨table ++ ((Answer.selected columns rows byId).message ++ bytes "\n"), []⟩
  | failed (message : CString) :
      Shown (.failed message) ⟨[], bytes "Error: " ++ (Answer.failed message).message ++ bytes "\n"⟩

lemma truncate_cons_ne_nil {b : Byte} {s : CString} (hb : b ≠ 0) :
    (CBuf.truncate 511 (b :: s)).val ≠ [] := by
  simp [CBuf.truncate, cView, hb]

lemma forall_getD {α : Type} {p : α → Prop} {l : List α} {d : α} (h : ∀ a ∈ l, p a) (hd : p d)
    (i : Nat) : p (l.getD i d) := by
  rw [List.getD_eq_getElem?_getD]
  cases hi : l[i]? with
  | none => exact hd
  | some a => exact h a (List.mem_of_getElem? hi)

lemma storableCell_cellOf {row : List CString} (h : ∀ v ∈ row, StorableCell v)
    (columns : List Identifier) (name : Identifier) : StorableCell (cellOf columns row name) := by
  have hempty : StorableCell [] := ⟨by decide, by simp, by simp⟩
  unfold cellOf
  cases storageFindColumnIndex columns name.val with
  | none => exact hempty
  | some i => exact forall_getD h hempty i

/-- The rows that are selected from a table can be printed. -/
lemma Holds.printable {t : TableRuntime} {r : LogicalTable} (h : Holds t r)
    {stmt : SelectStatement} {columns : List Identifier} {rows : List (List CString)} {byId : Bool}
    (hselect : r.select stmt = .selected columns rows byId) : Printable columns rows := by
  have hnames : ∀ c ∈ r.columns, NoLineBreak c.val := h.columns ▸ h.storable.names
  have hrows : ∀ row ∈ r.rows, row.length = r.columns.length ∧ ∀ v ∈ row, StorableCell v := by
    rw [← h.rows, ← h.columns]
    exact fun row hrow => ⟨h.storable.consistent.row_length row hrow, h.storable.cells row hrow⟩
  unfold LogicalTable.select at hselect
  split_ifs at hselect with hprojection hwhere hall
  · obtain ⟨rfl, rfl, -⟩ := Answer.selected.inj hselect
    refine ⟨h.columns ▸ h.storable.consistent.columns_le, hnames, fun row hrow => ?_⟩
    obtain ⟨source, hsource, rfl⟩ := List.mem_map.mp hrow
    rw [projectRow, if_pos hall]
    exact hrows source (List.mem_of_mem_filter hsource)
  · obtain ⟨rfl, rfl, -⟩ := Answer.selected.inj hselect
    refine ⟨by simpa using stmt.columns_le, ?_, fun row hrow => ?_⟩
    · exact List.forall_mem_map.mpr fun name _ => forall_getD hnames (by decide) _
    · obtain ⟨source, hsource, rfl⟩ := List.mem_map.mp hrow
      have hcells := (hrows source (List.mem_of_mem_filter hsource)).2
      rw [projectRow, if_neg hall, List.length_map, List.length_map]
      exact ⟨rfl, List.forall_mem_map.mpr fun name _ => storableCell_cellOf hcells _ name⟩

/-- The rows of an answer can be printed. -/
lemma Coupled.printable {names : Set Identifier} {store : Store} {c : Catalog}
    (h : Coupled names store c) {sql : CString} {columns : List Identifier}
    {rows : List (List CString)} {byId : Bool}
    (hanswer : (c.query sql).2 = .selected columns rows byId) : Printable columns rows := by
  unfold Catalog.query at hanswer
  cases hstmt : statementOf sql with
  | error message => simp [hstmt] at hanswer
  | ok statement =>
    rw [hstmt] at hanswer
    cases statement with
    | insert stmt =>
      simp only [Catalog.execute, Catalog.insert] at hanswer
      split at hanswer <;> split_ifs at hanswer
    | delete stmt => cases hanswer
    | select stmt =>
      simp only [Catalog.execute, Catalog.select] at hanswer
      cases hc : c stmt.tableName with
      | none => simp [hc] at hanswer
      | some r =>
        rw [hc] at hanswer
        obtain ⟨t, hholds, -⟩ := h.stored _ r hc
        exact hholds.printable hanswer

lemma putsMessage_eq {message : CString} (h : message ≠ []) :
    putsMessage message = message ++ bytes "\n" := if_neg h

/-- Any answer of the catalog is shown, unless it is a failure without a message. -/
lemma Coupled.shown {names : Set Identifier} {store : Store} {c : Catalog}
    (h : Coupled names store c) (sql : CString)
    (hfailed : ∀ message, (c.query sql).2 = .failed message →
      (Answer.failed message).message ≠ []) :
    ∃ printed, executorRenderResultForCli (c.query sql).2.result.1 = some printed ∧
      Shown (c.query sql).2 printed := by
  cases hanswer : (c.query sql).2 with
  | failed message =>
    refine ⟨_, ?_, .failed message⟩
    have hne := hfailed message hanswer
    show some (Printed.mk [] (if (Answer.failed message).message = [] then [] else _)) = _
    rw [if_neg hne]
    rfl
  | inserted tableName =>
    have hne : (Answer.inserted tableName).message ≠ [] := truncate_cons_ne_nil (by decide)
    refine ⟨_, ?_, .inserted tableName⟩
    rw [← putsMessage_eq hne]
    rfl
  | selected columns rows byId =>
    obtain ⟨table, htable, hdrawn⟩ := (h.printable hanswer).drawn
    have hne : (Answer.selected columns rows byId).message ≠ [] :=
      (visible_truncate (visible_selectMessage _)).2 (by simp [selectMessage, bytes])
    refine ⟨_, ?_, .selected byId hdrawn⟩
    rw [← putsMessage_eq hne]
    show (executorPrintTable columns rows).bind _ = _
    rw [htable]
    rfl

/-! ### Runs -/

section Run

variable {names : Set Identifier} {before : List Event}

/-- One statement of a session. -/
lemma session_step (hone : OneSpelling names) (hbefore : ∀ e ∈ before, e.Plain names)
    {sql : CString} (hsql : (Event.query sql).Plain names) (p : Printed) :
    ∃ printed, Shown ((catalogRun before).query sql).2 printed ∧
      Session.execute ⟨databaseRun before, some p⟩ sql =
        ⟨databaseRun (before ++ [.query sql]), some (p.append printed)⟩ := by
  obtain ⟨hsound, hcoupled⟩ := databaseRun_coupled hone hbefore
  have hresult := (hcoupled.dbExecuteSql hsound hone hsql).2
  have hconcluded := concluded_text (databaseRun before).store sql
  rw [(hcoupled.query hone (fun stmt => hsql.named sql stmt rfl)
    (fun stmt => hsql.survives sql stmt rfl)).2] at hconcluded
  obtain ⟨printed, hrender, hshown⟩ := hcoupled.shown sql fun message hanswer => by
    rw [hanswer] at hconcluded
    exact (hconcluded.failure rfl).2.2
  refine ⟨printed, hshown, ?_⟩
  rw [← hresult] at hrender
  rw [databaseRun_append]
  show Session.mk _ ((executorRenderResultForCli
    (dbExecuteSql dbEngineInit (databaseRun before) sql).2.1).bind _) = _
  rw [hrender]
  rfl

lemma session_run (hone : OneSpelling names) (hbefore : ∀ e ∈ before, e.Plain names)
    {sqls : List CString} (hsqls : ∀ sql ∈ sqls, (Event.query sql).Plain names) (p : Printed) :
    ∃ prints, List.Forall₂ Shown ((catalogRun before).answers sqls) prints ∧
      sqls.foldl Session.execute ⟨databaseRun before, some p⟩ =
        ⟨databaseRun (before ++ sqls.map .query), some (p.append (.join prints))⟩ := by
  induction sqls generalizing before p with
  | nil => exact ⟨[], .nil, by simp [Printed.join, Printed.append]⟩
  | cons sql sqls ih =>
    obtain ⟨hsql, hsqls⟩ := List.forall_mem_cons.mp hsqls
    obtain ⟨printed, hshown, hstep⟩ := session_step hone hbefore hsql p
    have hbefore' : ∀ e ∈ before ++ [.query sql], e.Plain names :=
      List.forall_mem_append.mpr ⟨hbefore, List.forall_mem_singleton.mpr hsql⟩
    obtain ⟨prints, hprints, hrun⟩ := ih hbefore' hsqls (p.append printed)
    refine ⟨printed :: prints, .cons hshown ?_, ?_⟩
    · rw [catalogRun_append] at hprints
      exact hprints
    · rw [List.foldl_cons, hstep, hrun, Printed.append_join, Printed.append_assoc, List.map_cons,
        List.append_assoc, List.singleton_append]

end Run

/-- The statements of a session show the answers of the catalog, and the database is what it is
after them. -/
def Shows (before : List Event) (sqls : List CString) (s : Session) : Prop :=
  ∃ prints, List.Forall₂ Shown ((catalogRun before).answers sqls) prints ∧
    s = ⟨databaseRun (before ++ sqls.map .query), some (.join prints)⟩

/-- Whatever was executed before, file mode and the interactive mode show the answers of the catalog
to the statements that they run, and no access leaves an array when a table is printed. -/
theorem mainSession_shows (names : Set Identifier) (hone : OneSpelling names)
    (before : List Event) (hbefore : ∀ e ∈ before, e.Plain names) (text : CString)
    (hnul : 0 ∉ text) (hfits : completeLength text ≤ 2 ^ 31)
    (hfile : ∀ sql ∈ (mainRunFileMode recordCall [] text).1, (Event.query sql).Plain names)
    (hrepl : ∀ sql ∈ (mainRunReplMode recordCall [] text).1, (Event.query sql).Plain names) :
    Shows before (mainRunFileMode recordCall [] text).1
        (mainRunFileMode Session.execute ⟨databaseRun before, some .empty⟩ text).1 ∧
      Shows before (mainRunReplMode recordCall [] text).1
        (mainRunReplMode Session.execute ⟨databaseRun before, some .empty⟩ text).1 := by
  rw [mainRunFileMode_calls hnul hfits] at hfile ⊢
  rw [mainRunReplMode_calls hnul hfits] at hrepl ⊢
  constructor
  · obtain ⟨prints, hprints, hrun⟩ := session_run hone hbefore hfile .empty
    refine ⟨prints, hprints, ?_⟩
    obtain ⟨pieces, left, -, hpieces, hloop⟩ :=
      @mainFileLoop_splitInto text.length text 0 hnul le_rfl (by simpa using hfits)
    rw [mainRunFileMode, cView_eq_self hnul, hloop, hpieces]
    exact hrun
  · obtain ⟨prints, hprints, hrun⟩ := session_run hone hbefore hrepl .empty
    refine ⟨prints, hprints, ?_⟩
    rw [mainRunReplMode, mainReplLoop_eq Session.execute bufferAfter_nil le_rfl hnul hfits]
    exact hrun

/-- A row and a query for it, in both modes. -/
theorem mainSession_shows_row :
    let text := bytes "INSERT INTO t (a) VALUES ('x');\nSELECT a FROM t;\n"
    let sqls := [bytes "INSERT INTO t (a) VALUES ('x');", bytes "SELECT a FROM t;"]
    Shows [] sqls (mainRunFileMode Session.execute ⟨databaseRun [], some .empty⟩ text).1 ∧
      Shows [] sqls (mainRunReplMode Session.execute ⟨databaseRun [], some .empty⟩ text).1 := by
  intro text sqls
  have hinsert : statementOf (bytes "INSERT INTO t (a) VALUES ('x');") =
      .ok (.insert ⟨identifier "t", [identifier "a"], [.truncate 255 (bytes "x")], by decide,
        by decide⟩) := by rfl
  have hselect : statementOf (bytes "SELECT a FROM t;") =
      .ok (.select ⟨identifier "t", [identifier "a"], none, by decide⟩) := by rfl
  have hone := oneSpelling_singleton (identifier "t")
  have hplain : ∀ sql ∈ sqls, (Event.query sql).Plain {identifier "t"} := by
    intro sql hsql
    rcases List.mem_pair.mp hsql with rfl | rfl
    · exact .insert hinsert rfl (.single rfl (by decide))
    · exact .select hselect rfl
  have hfile : (mainRunFileMode recordCall [] text).1 = sqls := by decide +kernel
  have hrepl : (mainRunReplMode recordCall [] text).1 = sqls := by decide +kernel
  have hshows := mainSession_shows _ hone [] (by simp) text (by decide +kernel) (by decide +kernel)
    (hfile ▸ hplain) (hrepl ▸ hplain)
  rwa [hfile, hrepl] at hshows

end MiniDbms
