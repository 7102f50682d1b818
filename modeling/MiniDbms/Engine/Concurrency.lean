import MiniDbms.Engine.Facade
import MiniDbms.Library.ReadersWriter

/-!
# Concurrent queries

`execute_query_with_lock` of any number of clients, in any interleaving of its steps: parsing for
the lock mode, locking, the check whether the table is loaded, giving back the read lock and taking
the write lock, execution, and unlocking. The token cache is shared by all of them and changes
outside the lock, but does not show.
-/

namespace MiniDbms

open ReadersWriter (LockMode QuerySystem Phase System)

/-! ### The clients -/

/-- `db_engine_choose_initial_lock_mode`; `none` when the text was not parsed. -/
def dbEngineChooseInitialLockMode : Option SqlStatement → LockMode
  | some (.select _) => .read
  | _                => .write

/-- The test whether a client with the read lock may keep it. -/
def keepsReadLock (statement : Option SqlStatement) (active : Option TableRuntime) : Bool :=
  match statement with
  | some (.select stmt) => tableRuntimeIsLoadedFor active stmt.tableName.val
  | _                   => true

/-- Where a client is in `execute_query_with_lock`. -/
inductive ClientPhase where
  | start
  | parsed (statement : Option SqlStatement)
  | readLocked (statement : Option SqlStatement)
  | mustUpgrade
  | unlocked
  | locked (mode : LockMode)
  | executed (mode : LockMode) (result : DbResult × Status)
  | finished (mode : LockMode) (result : DbResult × Status)

namespace ClientPhase

/-- The lock that the client holds. -/
def lock : ClientPhase → Option LockMode
  | readLocked _    => some .read
  | mustUpgrade     => some .read
  | locked mode     => some mode
  | executed mode _ => some mode
  | _               => none

/-- What `execute_query_with_lock` returns. -/
def result : ClientPhase → Option (DbResult × Status)
  | executed _ r => some r
  | finished _ r => some r
  | _            => none

end ClientPhase

/-- The process and its clients. `order` lists the clients that took a lock, by the time at which
they took it last. -/
structure Server (ι : Type) where
  db : Database
  client : ι → ClientPhase
  order : List ι

namespace Server

variable {ι : Type}

/-- A process that has just started. -/
def fresh (files : Files) : Server ι := ⟨.fresh files, fun _ => .start, []⟩

/-- `pthread_rwlock_rdlock` returns: nobody holds the write lock. -/
def CanRead (s : Server ι) : Prop := ∀ d, (s.client d).lock ≠ some .write

/-- `pthread_rwlock_wrlock` returns: nobody holds a lock. -/
def CanWrite (s : Server ι) : Prop := ∀ d, (s.client d).lock = none

/-- The clients that have executed their query, in the order of their final locks. -/
def finalOrder (s : Server ι) : List ι := s.order.filter fun c => (s.client c).result.isSome

variable [DecidableEq ι]

def setClient (s : Server ι) (c : ι) (p : ClientPhase) : Server ι :=
  { s with client := Function.update s.client c p }

/-- The client has got a lock. -/
def lock (s : Server ι) (c : ι) (p : ClientPhase) : Server ι :=
  { s.setClient c p with order := s.order.filter (· ≠ c) ++ [c] }

end Server

section Steps

variable {ι : Type} [DecidableEq ι] (sql : ι → CString)

/-- One step of one client in `execute_query_with_lock`. -/
inductive ClientStep (c : ι) (s : Server ι) : Server ι → Prop
  | parse (h : s.client c = .start) :
      ClientStep c s { s.setClient c (.parsed (dbEngineParseStatement s.db.cache (sql c)).2) with
        db := { s.db with cache := (dbEngineParseStatement s.db.cache (sql c)).1 } }
  | lockRead (statement : Option SqlStatement) (h : s.client c = .parsed statement)
      (hmode : dbEngineChooseInitialLockMode statement = .read) (hcan : s.CanRead) :
      ClientStep c s (s.lock c (.readLocked statement))
  | lockWrite (statement : Option SqlStatement) (h : s.client c = .parsed statement)
      (hmode : dbEngineChooseInitialLockMode statement = .write) (hcan : s.CanWrite) :
      ClientStep c s (s.lock c (.locked .write))
  | check (statement : Option SqlStatement) (h : s.client c = .readLocked statement) :
      ClientStep c s (s.setClient c
        (if keepsReadLock statement s.db.active then .locked .read else .mustUpgrade))
  | unlockForUpgrade (h : s.client c = .mustUpgrade) : ClientStep c s (s.setClient c .unlocked)
  | lockAgain (h : s.client c = .unlocked) (hcan : s.CanWrite) :
      ClientStep c s (s.lock c (.locked .write))
  | execute (mode : LockMode) (h : s.client c = .locked mode) :
      ClientStep c s
        { s.setClient c (.executed mode (dbExecuteSql dbEngineInit s.db (sql c)).2) with
          db := (dbExecuteSql dbEngineInit s.db (sql c)).1 }
  | unlock (mode : LockMode) (r : DbResult × Status) (h : s.client c = .executed mode r) :
      ClientStep c s (s.setClient c (.finished mode r))

/-- The states that some interleaving reaches from a fresh process. -/
inductive ServerReachable (files : Files) : Server ι → Prop
  | fresh : ServerReachable files (.fresh files)
  | step {s s' : Server ι} {c : ι} (h : ServerReachable files s) (hstep : ClientStep sql c s s') :
      ServerReachable files s'

end Steps

/-! ### The queries -/

/-- A query about a loaded table leaves everything as it is. -/
lemma executeText_of_loaded {store : Store} {sql : CString}
    (hmode : dbEngineChooseInitialLockMode (statementOf sql).toOption = .read)
    (hloaded : keepsReadLock (statementOf sql).toOption store.2 = true) :
    (executeText store sql).1 = store := by
  unfold executeText
  cases hstmt : statementOf sql with
  | error message => rfl
  | ok statement =>
    rw [hstmt] at hmode hloaded
    cases statement with
    | insert stmt => cases hmode
    | delete stmt => cases hmode
    | select stmt =>
      obtain ⟨files, active⟩ := store
      cases active with
      | none => cases hloaded
      | some t =>
        simp only [keepsReadLock, Except.toOption, tableRuntimeIsLoadedFor, Bool.and_eq_true,
          Bool.not_eq_true'] at hloaded
        obtain ⟨⟨hl, hne⟩, hname⟩ := hloaded
        have htable : statementTable files (some t) stmt.tableName = t := by
          simp [statementTable, tableGetOrLoad, hne, hname, tableLoadFromStorageIfNeeded, hl]
        rw [executeStatement_select]
        dsimp only
        rw [htable]

/-- The queries on the store. -/
def sqlQueries : QuerySystem Store CString (DbResult × Status) where
  mode sql := dbEngineChooseInitialLockMode (statementOf sql).toOption
  check sql store := keepsReadLock (statementOf sql).toOption store.2
  exec sql store := executeText store sql
  read_only _ _ hmode hloaded := executeText_of_loaded hmode hloaded

/-! ### The server runs the protocol -/

/-- The phase of the lock protocol that the client is in. -/
def ClientPhase.toPhase : ClientPhase → Phase (DbResult × Status)
  | start            => .idle
  | parsed statement => .waiting (dbEngineChooseInitialLockMode statement)
  | readLocked _     => .checking
  | mustUpgrade      => .upgrading
  | unlocked         => .waiting .write
  | locked mode      => .ready mode
  | executed mode r  => .executed mode r
  | finished mode r  => .done mode r

lemma ClientPhase.toPhase_lock (p : ClientPhase) : p.toPhase.lock = p.lock := by
  cases p <;> rfl

lemma ClientPhase.toPhase_outcome (p : ClientPhase) :
    p.toPhase.outcome.map Prod.snd = p.result := by
  cases p <;> rfl

/-- The server without the token cache. -/
def Server.toSystem {ι : Type} (s : Server ι) : System ι Store (DbResult × Status) :=
  ⟨s.db.store, fun c => (s.client c).toPhase, s.order⟩

section Simulation

variable {ι : Type} {sql : ι → CString} {s s' : Server ι} {c : ι}

/-- The cache is sound, and the statements that the clients keep are those of their texts. -/
structure Server.Sound (sql : ι → CString) (s : Server ι) : Prop where
  cache : s.db.cache.Sound
  statement : ∀ c st, s.client c = .parsed st ∨ s.client c = .readLocked st →
    st = (statementOf (sql c)).toOption

lemma Server.CanRead.free (h : s.CanRead) : s.toSystem.Free .read := by
  intro d
  have hd := h d
  rw [← ClientPhase.toPhase_lock] at hd
  change (s.toSystem.phase d).lock ≠ some .write at hd
  cases hlock : (s.toSystem.phase d).lock with
  | none => exact .inl rfl
  | some m =>
    cases m with
    | read => exact .inr ⟨rfl, rfl⟩
    | write => exact absurd hlock hd

lemma Server.CanWrite.free (h : s.CanWrite) : s.toSystem.Free .write := by
  intro d
  refine .inl ?_
  rw [← h d, ← ClientPhase.toPhase_lock]
  rfl

/-- The phase of the client is the one that the protocol sees. -/
lemma Server.toSystem_phase {p : ClientPhase} (h : s.client c = p) :
    s.toSystem.phase c = p.toPhase := by
  rw [← h]
  rfl

variable [DecidableEq ι]

/-- One client moves on, and the database is replaced. -/
lemma Server.toSystem_setClient_db (s : Server ι) (c : ι) (p : ClientPhase) (db : Database) :
    ({ s.setClient c p with db := db } : Server ι).toSystem =
      { s.toSystem.setPhase c p.toPhase with shared := db.store } := by
  simp only [Server.toSystem, Server.setClient, System.setPhase, System.mk.injEq, and_true, true_and]
  exact Function.comp_update ClientPhase.toPhase s.client c p

lemma Server.toSystem_setClient (s : Server ι) (c : ι) (p : ClientPhase) :
    (s.setClient c p).toSystem = s.toSystem.setPhase c p.toPhase :=
  s.toSystem_setClient_db c p s.db

lemma Server.toSystem_lock (s : Server ι) (c : ι) (p : ClientPhase) :
    (s.lock c p).toSystem = s.toSystem.acquire c p.toPhase := by
  have hphase := congrArg System.phase (s.toSystem_setClient c p)
  simp only [System.acquire, ← hphase]
  rfl

/-- A client that has parsed its text keeps its statement until it has checked the table. -/
lemma Server.Sound.setClient (h : s.Sound sql) {p : ClientPhase}
    (hp : ∀ st, p = .parsed st ∨ p = .readLocked st → st = (statementOf (sql c)).toOption) :
    ∀ d st, (s.setClient c p).client d = .parsed st ∨ (s.setClient c p).client d = .readLocked st →
      st = (statementOf (sql d)).toOption := by
  intro d st hd
  simp only [Server.setClient, Function.update_apply] at hd
  split_ifs at hd with hdc
  · rw [hdc]
    exact hp st hd
  · exact h.statement d st hd

/-- Every step of a client keeps the server sound. -/
lemma ClientStep.sound (hs : s.Sound sql) (h : ClientStep sql c s s') : s'.Sound sql := by
  cases h with
  | parse hc =>
    obtain ⟨hcache, hstatement⟩ := dbEngineParseStatement_eq hs.cache (sql c)
    refine ⟨hcache, hs.setClient ?_⟩
    rintro st (⟨⟨⟩⟩ | ⟨⟨⟩⟩)
    exact hstatement
  | lockRead statement hc hmode hcan =>
    refine ⟨hs.cache, hs.setClient ?_⟩
    rintro st (⟨⟨⟩⟩ | ⟨⟨⟩⟩)
    exact hs.statement c _ (.inl hc)
  | check statement hc =>
    refine ⟨hs.cache, hs.setClient ?_⟩
    intro st hst
    split_ifs at hst <;> rcases hst with hst | hst <;> cases hst
  | execute mode hc =>
    refine ⟨(dbExecuteSql_eq hs.cache (sql c)).1, hs.setClient ?_⟩
    rintro st (⟨⟨⟩⟩ | ⟨⟨⟩⟩)
  | lockWrite _ _ _ _ | unlockForUpgrade _ | lockAgain _ _ | unlock _ _ _ =>
    refine ⟨hs.cache, hs.setClient ?_⟩
    rintro st (⟨⟨⟩⟩ | ⟨⟨⟩⟩)

/-- Every step of a client is a step of the protocol. -/
lemma ClientStep.toStep (hs : s.Sound sql) (h : ClientStep sql c s s') :
    ReadersWriter.Step sqlQueries sql c s.toSystem s'.toSystem := by
  cases h with
  | parse hc =>
    rw [Server.toSystem_setClient_db, (dbEngineParseStatement_eq hs.cache (sql c)).2]
    exact .choose (s.toSystem_phase hc)
  | lockRead statement hc hmode hcan =>
    have hwaiting := s.toSystem_phase hc
    rw [ClientPhase.toPhase, hmode] at hwaiting
    rw [Server.toSystem_lock]
    exact .acquireRead hwaiting hcan.free
  | lockWrite statement hc hmode hcan =>
    have hwaiting := s.toSystem_phase hc
    rw [ClientPhase.toPhase, hmode] at hwaiting
    rw [Server.toSystem_lock]
    exact .acquireWrite hwaiting hcan.free
  | check statement hc =>
    obtain rfl := hs.statement c _ (.inr hc)
    rw [Server.toSystem_setClient]
    split_ifs with hkeeps
    · exact .checkPassed (s.toSystem_phase hc) hkeeps
    · exact .checkFailed (s.toSystem_phase hc) (Bool.eq_false_of_not_eq_true hkeeps)
  | unlockForUpgrade hc =>
    rw [Server.toSystem_setClient]
    exact .unlock (s.toSystem_phase hc)
  | lockAgain hc hcan =>
    rw [Server.toSystem_lock]
    exact .acquireWrite (s.toSystem_phase hc) hcan.free
  | execute mode hc =>
    have hstep := ReadersWriter.Step.exec (S := sqlQueries) (q := sql) mode (s.toSystem_phase hc)
    have heq : (_, _) = sqlQueries.exec (sql c) s.toSystem.shared :=
      (dbExecuteSql_eq hs.cache (sql c)).2
    rw [← heq] at hstep
    rw [Server.toSystem_setClient_db]
    exact hstep
  | unlock mode r hc =>
    rw [Server.toSystem_setClient]
    exact .release mode r (s.toSystem_phase hc)

lemma ServerReachable.sound {files : Files} (h : ServerReachable sql files s) : s.Sound sql := by
  induction h with
  | fresh =>
    refine ⟨TokenizerCache.sound_empty, ?_⟩
    rintro c st (⟨⟨⟩⟩ | ⟨⟨⟩⟩)
  | step _ hstep ih => exact hstep.sound ih

/-- Every interleaving of the clients is one of the protocol. -/
lemma ServerReachable.toReachable {files : Files} (h : ServerReachable sql files s) :
    ReadersWriter.Reachable sqlQueries sql (files, none) s.toSystem := by
  induction h with
  | fresh => exact .init
  | step hs hstep ih => exact ih.step (hstep.toStep hs.sound)

end Simulation

/-! ### Serializability -/

section Serializability

variable {ι : Type} {sql : ι → CString} {s : Server ι}

/-- The serial execution of the protocol is a run of `db_execute_sql`. -/
lemma serialState_sqlQueries (files : Files) (l : List ι) :
    ReadersWriter.serialState sqlQueries sql (files, none) l = (dbRun files (l.map sql)).store := by
  induction l using List.reverseRecOn with
  | nil => rfl
  | append_singleton l c ih =>
    rw [ReadersWriter.serialState_append, ih, List.map_append, List.map_singleton, dbRun_append]
    exact congrArg Prod.fst (dbExecuteSql_eq (dbRun_sound files (l.map sql)) (sql c)).2.symm

lemma Server.toSystem_executedOrder (s : Server ι) : s.toSystem.executedOrder = s.finalOrder := by
  apply List.filter_congr
  intro c _
  rw [← ClientPhase.toPhase_outcome, Option.isSome_map]
  rfl

variable [DecidableEq ι]

/-- In every interleaving, no step under the read lock changes the table or a file, every change is
made by a client that alone holds a lock, the write lock, and all results and the store are those of
the queries run one after another in the order of the final locks. -/
theorem executeQueryWithLock_serializable {files : Files} (h : ServerReachable sql files s) :
    (∀ c s', ClientStep sql c s s' →
      ((s.client c).lock = some .read → s'.db.store = s.db.store) ∧
      (s'.db.store ≠ s.db.store →
        (s.client c).lock = some .write ∧ ∀ d, d ≠ c → (s.client d).lock = none)) ∧
    (∀ c r, (s.client c).result = some r → ∃ before after, s.finalOrder = before ++ c :: after ∧
      r = (dbExecuteSql dbEngineInit (dbRun files (before.map sql)) (sql c)).2) ∧
    s.db.store = (dbRun files (s.finalOrder.map sql)).store := by
  have hreach := h.toReachable
  have hwriter : ∀ c s', ClientStep sql c s s' → s'.db.store ≠ s.db.store →
      (s.client c).lock = some .write ∧ ∀ d, d ≠ c → (s.client d).lock = none := by
    intro c s' hstep hchange
    obtain ⟨hlock, hothers⟩ := hreach.change (hstep.toStep h.sound) hchange
    simp only [← ClientPhase.toPhase_lock]
    exact ⟨hlock, hothers⟩
  refine ⟨?_, ?_, ?_⟩
  · intro c s' hstep
    refine ⟨?_, hwriter c s' hstep⟩
    intro hread
    by_contra hchange
    have hwrite := (hwriter c s' hstep hchange).1
    rw [hread] at hwrite
    cases hwrite
  · intro c r hr
    rw [← ClientPhase.toPhase_outcome, Option.map_eq_some_iff] at hr
    obtain ⟨⟨m, r⟩, hm, rfl⟩ := hr
    obtain ⟨before, after, horder, hr⟩ := hreach.outcome (c := c) hm
    refine ⟨before, after, by rw [← s.toSystem_executedOrder, horder], ?_⟩
    rw [serialState_sqlQueries] at hr
    have heq := (dbExecuteSql_eq (dbRun_sound files (before.map sql)) (sql c)).2
    exact hr.trans (congrArg Prod.snd heq).symm
  · have hshared := hreach.inv.shared_eq
    rw [serialState_sqlQueries, s.toSystem_executedOrder] at hshared
    exact hshared

end Serializability

/-- A query and an insertion into the same table. -/
def selectAndInsert : Bool → CString
  | false => bytes "SELECT * FROM t"
  | true  => bytes "INSERT INTO t (a) VALUES (1)"

/-- The insertion comes in while the query has no lock: the query returns the new row. -/
lemma exists_upgrade :
    ∃ s, ServerReachable selectAndInsert emptyDirectory s ∧ s.finalOrder = [true, false] ∧
      (s.client false).result.map (·.1.rows) = some [[bytes "1", bytes "1"]] := by
  have h₀ : ServerReachable selectAndInsert emptyDirectory (.fresh emptyDirectory) := .fresh
  have h₁ := h₀.step (.parse (c := false) rfl)
  have h₂ := h₁.step (.lockRead (c := false) _ rfl (by decide) (by rintro (_ | _) <;> decide))
  have h₃ := h₂.step (.check (c := false) _ rfl)
  rw [if_neg (by decide)] at h₃
  have h₄ := h₃.step (.unlockForUpgrade (c := false) rfl)
  have h₅ := h₄.step (.parse (c := true) rfl)
  have h₆ := h₅.step (.lockWrite (c := true) _ rfl (by decide) (by rintro (_ | _) <;> rfl))
  have h₇ := h₆.step (.execute (c := true) _ rfl)
  have h₈ := h₇.step (.unlock (c := true) _ _ rfl)
  have h₉ := h₈.step (.lockAgain (c := false) rfl (by rintro (_ | _) <;> rfl))
  have h₁₀ := h₉.step (.execute (c := false) _ rfl)
  exact ⟨_, h₁₀, by decide, by decide⟩

theorem executeQueryWithLock_serializable_upgrade :
    ∃ s, ServerReachable selectAndInsert emptyDirectory s ∧ s.finalOrder = [true, false] ∧
      (s.client false).result.map (·.1.rows) = some [[bytes "1", bytes "1"]] ∧
      s.db.store = (dbRun emptyDirectory [selectAndInsert true, selectAndInsert false]).store := by
  obtain ⟨s, h, horder, hrows⟩ := exists_upgrade
  refine ⟨s, h, horder, hrows, ?_⟩
  have hstore := (executeQueryWithLock_serializable h).2.2
  rwa [horder] at hstore

end MiniDbms
