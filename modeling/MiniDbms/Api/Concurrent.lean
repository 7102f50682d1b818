import MiniDbms.Api.Requests
import MiniDbms.Engine.Concurrency

/-!
# Queries over HTTP at the same time

The workers of the pool serve connections at once, and each enters `execute_query_with_lock` with the
text that its client has posted. What the clients get is compared with connections that are served
one after another.
-/

namespace MiniDbms

variable {ι : Type} {sql : ι → CString} {s : Server ι} {files : Files}

/-- The database after connections that have all executed a text. -/
lemma clientsRun_store_map {connection : ι → ThreadPoolStats × List CString}
    (h : ∀ c, requestSql (connection c).2 = some (sql c)) (order : List ι) :
    (clientsRun files (order.map connection)).store = (dbRun files (order.map sql)).store := by
  have htexts : (order.map connection).filterMap (fun served => requestSql served.2) =
      order.map sql := by
    rw [List.filterMap_map, ← List.filterMap_eq_map]
    exact List.filterMap_congr fun c _ => h c
  rw [clientsRun_store, htexts]

/-- Clients that are served at the same time, in any interleaving of the steps of
`execute_query_with_lock`, get what they would get one after another in the order of their final
locks, response for response and byte for byte, and they leave the same files and the same table in
memory. -/
theorem clientsRun_serializable [DecidableEq ι] {connection : ι → ThreadPoolStats × List CString}
    (hsql : ∀ c, requestSql (connection c).2 = some (sql c)) (h : ServerReachable sql files s) :
    (∀ c outcome, (s.client c).result = some outcome →
      ∃ before after, s.finalOrder = before ++ c :: after ∧
        queryResponse outcome = (apiServerHandleClient ⟨dbEngineInit, (connection c).1⟩
          (clientsRun files (before.map connection)) (connection c).2).2) ∧
    s.db.store = (clientsRun files (s.finalOrder.map connection)).store := by
  have hreach := h.toReachable
  constructor
  · intro c outcome houtcome
    rw [← ClientPhase.toPhase_outcome, Option.map_eq_some_iff] at houtcome
    obtain ⟨⟨mode, outcome⟩, hphase, rfl⟩ := houtcome
    obtain ⟨before, after, horder, hserial⟩ := hreach.outcome (c := c) hphase
    refine ⟨before, after, by rw [← s.toSystem_executedOrder, horder], ?_⟩
    obtain ⟨-, hsome, -⟩ := @apiServerHandleClient_database
      (clientsRun files (before.map connection)) (connection c).1 (connection c).2
      (clientsRun_ready files _)
    rw [(hsome (sql c) (hsql c)).2, clientsRun_store_map hsql, ← serialState_sqlQueries]
    exact congrArg queryResponse hserial
  · have hshared := hreach.inv.shared_eq
    rw [serialState_sqlQueries, s.toSystem_executedOrder, ← clientsRun_store_map hsql] at hshared
    exact hshared

/-- A connection that posts the text. -/
def posting (sql : CString) : ThreadPoolStats × List CString :=
  (⟨4, 0, 4, 0, 16, 16⟩, (RequestHead.posted.message (queryBody sql)).map fun b => [b])

/-- An insertion is served while the query of another client has no lock. -/
theorem clientsRun_serializable_upgrade :
    let connection := fun c => posting (selectAndInsert c)
    ∃ s outcome, ServerReachable selectAndInsert emptyDirectory s ∧
      (s.client false).result = some outcome ∧
      outcome.1.rows = [[bytes "1", bytes "1"]] ∧
      queryResponse outcome = (apiServerHandleClient ⟨dbEngineInit, (connection false).1⟩
        (clientsRun emptyDirectory [connection true]) (connection false).2).2 ∧
      s.db.store = (clientsRun emptyDirectory [connection true, connection false]).store := by
  intro connection
  have hbefore : ∀ before after, [true, false] = before ++ false :: after → before = [true] := by
    rintro (_ | ⟨b, _ | ⟨c, before⟩⟩) after hsplit
    · cases hsplit
    · cases hsplit
      rfl
    · simp at hsplit
  have hsql : ∀ c, requestSql (connection c).2 = some (selectAndInsert c) := by
    rintro (_ | _) <;>
      exact requestSql_message (by decide) (by decide) (by decide) (by decide) (by decide +kernel)
        (cuts_bytes _)
  obtain ⟨s, h, horder, hrows⟩ := exists_upgrade
  obtain ⟨outcome, houtcome, hrow⟩ := Option.map_eq_some_iff.mp hrows
  obtain ⟨hresponses, hstore⟩ := @clientsRun_serializable Bool _ _ _ _ connection hsql h
  obtain ⟨before, after, hsplit, hresponse⟩ := hresponses false outcome houtcome
  rw [horder] at hsplit hstore
  obtain rfl := hbefore before after hsplit
  exact ⟨s, outcome, h, houtcome, hrow, hresponse, hstore⟩

end MiniDbms
