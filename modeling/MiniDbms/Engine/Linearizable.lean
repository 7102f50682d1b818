import MiniDbms.Engine.Concurrency
import MiniDbms.Engine.Refinement

/-!
# Clients at the same time see one catalog

The process may be one of many that have worked in the directory. Whatever its clients do at the same
time, each of them gets the answer of the catalog at a moment between its first step and its result.
-/

namespace MiniDbms

open ReadersWriter (Steps)

/-! ### A process in a directory that is left to it -/

lemma databaseRun_process (before : List Event) (sqls : List CString) :
    databaseRun (before ++ .restart :: sqls.map .query) = dbRun (databaseRun before).files sqls := by
  simp only [databaseRun, dbRun, List.foldl_append, List.foldl_cons, List.foldl_map]
  rfl

lemma catalogRun_process (before : List Event) (sqls : List CString) :
    catalogRun (before ++ .restart :: sqls.map .query) =
      catalogRun (before ++ sqls.map .query) := by
  simp only [catalogRun, List.foldl_append, List.foldl_cons]
  rfl

section

variable {names : Set Identifier} {before : List Event}

/-- The process holds the catalog, with the texts that it has executed. -/
lemma dbRun_coupled (hone : OneSpelling names) (hbefore : ∀ e ∈ before, e.Plain names)
    {sqls : List CString} (hsqls : ∀ sql ∈ sqls, (Event.query sql).Plain names) :
    Coupled names (dbRun (databaseRun before).files sqls).store
      (catalogRun (before ++ sqls.map .query)) := by
  rw [← databaseRun_process, ← catalogRun_process]
  refine (databaseRun_coupled hone ?_).2
  refine List.forall_mem_append.mpr ⟨hbefore, List.forall_mem_cons.mpr ⟨.restart, ?_⟩⟩
  exact List.forall_mem_map.mpr hsqls

/-- Executing a text on a store that holds the catalog. -/
lemma Coupled.executeText {store : Store} {c : Catalog} (h : Coupled names store c)
    (hone : OneSpelling names) {sql : CString} (hsql : (Event.query sql).Plain names) :
    (executeText store sql).2 = (c.query sql).2.result :=
  (h.query hone (fun stmt => hsql.named sql stmt rfl)
    (fun stmt => hsql.survives sql stmt rfl)).2

end

/-! ### Interleavings -/

section Interleavings

variable {ι : Type} [DecidableEq ι] {sql : ι → CString} {files : Files} {s s' s'' : Server ι}

/-- Any number of steps of any clients. -/
def ServerSteps (sql : ι → CString) : Server ι → Server ι → Prop :=
  Relation.ReflTransGen fun s s' => ∃ c, ClientStep sql c s s'

lemma ServerReachable.noSteps (_ : ServerReachable sql files s) : ServerSteps sql s s := .refl

lemma ServerSteps.step {c : ι} (h : ServerSteps sql s s') (hstep : ClientStep sql c s' s'') :
    ServerSteps sql s s'' := Relation.ReflTransGen.tail h ⟨c, hstep⟩

lemma ServerSteps.reachable (h : ServerReachable sql files s) (hsteps : ServerSteps sql s s') :
    ServerReachable sql files s' ∧ Steps sqlQueries sql s.toSystem s'.toSystem := by
  induction hsteps with
  | refl => exact ⟨h, .refl⟩
  | tail _ hstep ih =>
    obtain ⟨c, hstep⟩ := hstep
    exact ⟨ih.1.step hstep, ih.2.tail ⟨c, hstep.toStep ih.1.sound⟩⟩

omit [DecidableEq ι] in
lemma Server.outcome_ne_none {c : ι} (h : (s.client c).result ≠ none) :
    (s.toSystem.phase c).outcome ≠ none := by
  intro hnone
  rw [← ClientPhase.toPhase_outcome] at h
  exact h (congrArg (Option.map Prod.snd) hnone)

/-- `execute_query_with_lock` is linearizable: in every interleaving there is one order in which the
catalog gives all the answers that the clients have got, a client that had its answer before another
one began comes before it, and whoever comes next finds the catalog as it is at the end. -/
theorem executeQueryWithLock_linearizable (names : Set Identifier) (hone : OneSpelling names)
    (before : List Event) (hbefore : ∀ e ∈ before, e.Plain names)
    (hsql : ∀ c, (Event.query (sql c)).Plain names)
    (h : ServerReachable sql (databaseRun before).files s) (hsteps : ServerSteps sql s s') :
    let catalog := fun clients : List ι => catalogRun (before ++ clients.map fun c => .query (sql c))
    (∀ c result, (s'.client c).result = some result → ∃ earlier later,
      s'.finalOrder = earlier ++ c :: later ∧
        result = ((catalog earlier).query (sql c)).2.result) ∧
    (∀ c d, (s.client d).result ≠ none → s.client c = .start → (s'.client c).result ≠ none →
      [d, c].Sublist s'.finalOrder) ∧
    ∀ text, (Event.query text).Plain names →
      (dbExecuteSql dbEngineInit s'.db text).2 =
        ((catalog s'.finalOrder).query text).2.result := by
  intro catalog
  obtain ⟨h', hsteps'⟩ := hsteps.reachable h
  have hreach := h'.toReachable
  have hcoupled : ∀ clients : List ι,
      Coupled names (dbRun (databaseRun before).files (clients.map sql)).store
        (catalog clients) := by
    intro clients
    have hplain : ∀ text ∈ clients.map sql, (Event.query text).Plain names :=
      List.forall_mem_map.mpr fun c _ => hsql c
    have hstores := dbRun_coupled hone hbefore hplain
    rwa [List.map_map] at hstores
  refine ⟨fun c result hresult => ?_, fun c d hd hc hc' => ?_, fun text htext => ?_⟩
  · rw [← ClientPhase.toPhase_outcome, Option.map_eq_some_iff] at hresult
    obtain ⟨⟨mode, result⟩, hphase, rfl⟩ := hresult
    obtain ⟨earlier, later, horder, hserial⟩ := hreach.outcome (c := c) hphase
    refine ⟨earlier, later, by rw [← s'.toSystem_executedOrder, horder], ?_⟩
    rw [serialState_sqlQueries] at hserial
    exact hserial.trans ((hcoupled earlier).executeText hone (hsql c))
  · have hidle : s.toSystem.phase c = .idle := s.toSystem_phase hc
    have hdone := Server.outcome_ne_none hc'
    rw [← s'.toSystem_executedOrder]
    exact h.toReachable.realTime hsteps' (Server.outcome_ne_none hd) hidle hdone
      (hreach.inv.mem_order c (.inr hdone))
  · have hstore := hreach.inv.shared_eq
    rw [serialState_sqlQueries, s'.toSystem_executedOrder] at hstore
    have hexec := congrArg Prod.snd (dbExecuteSql_eq h'.sound.cache text).2
    dsimp only at hexec
    rw [hexec]
    change s'.db.store = _ at hstore
    rw [hstore]
    exact (hcoupled s'.finalOrder).executeText hone htext

end Interleavings

/-- The query begins after the insertion has returned. -/
theorem executeQueryWithLock_linearizable_later :
    ∃ s, ServerReachable selectAndInsert emptyDirectory s ∧
      [true, false].Sublist s.finalOrder ∧
      (dbExecuteSql dbEngineInit s.db (bytes "SELECT a FROM t")).2 =
        (Answer.selected [identifier "a"] [[bytes "1"]] false).result := by
  have h₀ : ServerReachable selectAndInsert emptyDirectory (.fresh emptyDirectory) := .fresh
  have h₁ := h₀.step (.parse (c := true) rfl)
  have h₂ := h₁.step (.lockWrite (c := true) _ rfl (by decide) (by rintro (_ | _) <;> rfl))
  have h₃ := h₂.step (.execute (c := true) _ rfl)
  have h₄ := h₃.step (.unlock (c := true) _ _ rfl)
  -- the query finds the table loaded and keeps its read lock
  have g₁ := h₄.noSteps.step (.parse (c := false) rfl)
  have g₂ := g₁.step (.lockRead (c := false) _ rfl (by decide) (by rintro (_ | _) <;> decide))
  have g₃ := g₂.step (.check (c := false) _ rfl)
  rw [if_pos (by decide)] at g₃
  have g₄ := g₃.step (.execute (c := false) _ rfl)
  have hinsert : statementOf (bytes "INSERT INTO t (a) VALUES (1)") =
      .ok (.insert ⟨identifier "t", [identifier "a"], [.truncate 255 (bytes "1")], by decide,
        by decide⟩) := by rfl
  have hall : statementOf (bytes "SELECT * FROM t") =
      .ok (.select ⟨identifier "t", [], none, by decide⟩) := by rfl
  have hselect : statementOf (bytes "SELECT a FROM t") =
      .ok (.select ⟨identifier "t", [identifier "a"], none, by decide⟩) := by rfl
  have hone := oneSpelling_singleton (identifier "t")
  have hsql : ∀ c, (Event.query (selectAndInsert c)).Plain {identifier "t"} := by
    rintro (_ | _)
    · exact .select hall rfl
    · exact .insert hinsert rfl (.single rfl (by decide))
  obtain ⟨-, hreal, hnext⟩ :=
    executeQueryWithLock_linearizable _ hone [] (by simp) hsql h₄ g₄
  refine ⟨_, (g₄.reachable h₄).1, hreal false true (by decide) rfl (by decide), ?_⟩
  rw [hnext _ (.select hselect rfl)]
  exact congrArg Answer.result (by decide +kernel)

end MiniDbms
