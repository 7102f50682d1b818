import MiniDbms.Api.HttpResponse
import MiniDbms.Api.RequestRouter
import MiniDbms.Engine.Messages

/-!
# The routes of `request_router.c`

A request is answered with a status code and a body. Only a query reaches the engine. The pool is
what `thread_pool_get_stats` reads of it. Memory does not run out, so that no route fails.
-/

namespace MiniDbms

/-- `RequestRouterContext` -/
structure RequestRouterContext where
  engine : DbEngine
  stats : ThreadPoolStats
  deriving DecidableEq, Repr

/-- `execute_query_with_lock` without other clients. The lock manager is initialized together with
the engine, and the locks are free. -/
def executeQueryWithLock (engine : DbEngine) (db : Database) (sql : CString) :
    Database × DbResult × Status :=
  let db := { db with cache := (dbEngineParseStatement db.cache sql).1 }
  if !engine.initialized then
    (db, dbEngineFail dbResultInit (bytes "Failed to acquire DB lock."))
  else dbExecuteSql engine db sql

/-- `handle_health_request` -/
def handleHealthRequest (context : RequestRouterContext) : Int × CString :=
  (200, buildHealthJsonResponse context.stats)

/-- The answer of `handle_query_request` to an outcome. -/
def queryAnswer (outcome : DbResult × Status) : Int × CString :=
  let (result, status) := outcome
  if status ≠ .success then
    (400, buildJsonErrorResponse 400
      (if result.message.val ≠ [] then result.message.val else bytes "SQL execution failed."))
  else buildQueryJsonResponse result

/-- `handle_query_request`. A `NULL` text makes `execute_query_with_lock` fail at once. -/
def handleQueryRequest (context : RequestRouterContext) (db : Database) (request : HttpRequest) :
    Database × Int × CString :=
  match extractSqlFromJson request.body with
  | none            =>
    (db, 400, buildJsonErrorResponse 400
      (bytes "Request body must contain a JSON string field named sql."))
  | some none       => (db, queryAnswer (dbResultInit, .failure))
  | some (some sql) =>
    let (db, outcome) := executeQueryWithLock context.engine db sql
    (db, queryAnswer outcome)

/-- `route_request` -/
def routeRequest (context : RequestRouterContext) (db : Database) (request : HttpRequest) :
    Database × Int × CString :=
  if utilsEqualsIgnoreCase request.path.val (bytes "/health") then
    if !utilsEqualsIgnoreCase request.method.val (bytes "GET") then
      (db, 405, buildJsonErrorResponse 405 (bytes "Only GET is allowed for /health."))
    else (db, handleHealthRequest context)
  else if utilsEqualsIgnoreCase request.path.val (bytes "/query") then
    if !utilsEqualsIgnoreCase request.method.val (bytes "POST") then
      (db, 405, buildJsonErrorResponse 405 (bytes "Only POST is allowed for /query."))
    else handleQueryRequest context db request
  else (db, 404, buildJsonErrorResponse 404 (bytes "Route not found."))

/-! ### What reaches the engine -/

/-- The text that a request has executed: that of a query with a string that is not empty. -/
def HttpRequest.sql (request : HttpRequest) : Option CString :=
  if utilsEqualsIgnoreCase request.path.val (bytes "/query") &&
      utilsEqualsIgnoreCase request.method.val (bytes "POST") then
    (extractSqlFromJson request.body).join
  else none

/-- Without other clients a text is executed on the store. -/
lemma executeQueryWithLock_eq {db : Database} (h : db.cache.Sound) (sql : CString) :
    (executeQueryWithLock dbEngineInit db sql).1.cache.Sound ∧
      ((executeQueryWithLock dbEngineInit db sql).1.store,
        (executeQueryWithLock dbEngineInit db sql).2) = executeText db.store sql := by
  have hparsed := (dbEngineParseStatement_eq h sql).1
  exact @dbExecuteSql_eq { db with cache := (dbEngineParseStatement db.cache sql).1 } hparsed sql

section

variable {context : RequestRouterContext} {db : Database} {request : HttpRequest}

/-- No path is both. -/
lemma health_ne_query {path : CString} (h : utilsEqualsIgnoreCase path (bytes "/query") = true) :
    utilsEqualsIgnoreCase path (bytes "/health") = false := by
  by_contra hboth
  rw [Bool.not_eq_false, utilsEqualsIgnoreCase_comm] at hboth
  exact absurd (utilsEqualsIgnoreCase_trans hboth h) (by decide)

lemma routeRequest_query {sql : CString} (h : request.sql = some sql) :
    routeRequest context db request = ((executeQueryWithLock context.engine db sql).1,
      queryAnswer (executeQueryWithLock context.engine db sql).2) := by
  unfold HttpRequest.sql at h
  split_ifs at h with hroute
  rw [Bool.and_eq_true] at hroute
  obtain ⟨hpath, hmethod⟩ := hroute
  have hsql : extractSqlFromJson request.body = some (some sql) := Option.join_eq_some_iff.mp h
  rw [routeRequest, if_neg (by rw [health_ne_query hpath]; exact Bool.false_ne_true), if_pos hpath,
    if_neg (by rw [hmethod]; decide), handleQueryRequest, hsql]

/-- The answer to a request that executes nothing: the report on the pool, or an error. -/
inductive Refused (context : RequestRouterContext) : Int × CString → Prop
  | health : Refused context (handleHealthRequest context)
  | error {statusCode : Int} {message : CString}
      (hcode : statusCode = 400 ∨ statusCode = 404 ∨ statusCode = 405)
      (hvisible : message.all isVisible = true) :
      Refused context (statusCode, buildJsonErrorResponse statusCode message)

lemma routeRequest_none (h : request.sql = none) :
    (routeRequest context db request).1 = db ∧
      Refused context (routeRequest context db request).2 := by
  unfold routeRequest
  split_ifs with hhealth hget hquery hpost
  · exact ⟨rfl, .error (.inr (.inr rfl)) rfl⟩
  · exact ⟨rfl, .health⟩
  · exact ⟨rfl, .error (.inr (.inr rfl)) rfl⟩
  · -- a query without a text that could be executed
    rw [Bool.not_eq_true', Bool.not_eq_false] at hpost
    rw [HttpRequest.sql, hquery, hpost, Bool.and_self, if_pos rfl] at h
    unfold handleQueryRequest
    cases hbody : extractSqlFromJson request.body with
    | none => exact ⟨rfl, .error (.inl rfl) rfl⟩
    | some found =>
      cases found with
      | none =>
        refine ⟨rfl, ?_⟩
        exact @Refused.error context 400 (bytes "SQL execution failed.") (.inl rfl) rfl
      | some sql =>
        rw [hbody] at h
        cases h
  · exact ⟨rfl, .error (.inr (.inl rfl)) rfl⟩

end

/-! ### The bodies -/

lemma presentable_of_visible {s : CString} (h : ∀ b ∈ s, isVisible b = true) : Presentable s := by
  have hbyte : ∀ b : Byte, isVisible b = true → b < 128 ∧ isPrintable b = true := by
    apply forall_byte
    decide +kernel
  refine ⟨Json.isUtf8_of_ascii fun b hb => (hbyte b (h b hb)).1, ?_⟩
  rw [List.all_eq_true]
  exact fun b hb => (hbyte b (h b hb)).2

lemma nul_notMem_jsonString {s : CString} (h : 0 ∉ s) : 0 ∉ jsonString s := by
  have hescape : ∀ b : Byte, b ≠ 0 → 0 ∉ responseBuilderEscape b := by
    apply forall_byte
    decide +kernel
  intro hmem
  simp only [jsonString, List.mem_append, List.mem_cons, List.mem_flatMap, List.not_mem_nil,
    or_false] at hmem
  rcases hmem with (hmem | ⟨b, hb, hmem⟩) | hmem
  · exact absurd hmem (by decide)
  · exact hescape b (fun h0 => h (h0 ▸ hb)) hmem
  · exact absurd hmem (by decide)

lemma nul_notMem_separated {items : List CString} (h : ∀ item ∈ items, 0 ∉ item) :
    0 ∉ separated items := by
  cases items with
  | nil => decide
  | cons item items =>
    rw [separated_cons, List.mem_append, not_or]
    refine ⟨h item List.mem_cons_self, ?_⟩
    rw [List.mem_flatMap]
    rintro ⟨next, hnext, hmem⟩
    rcases List.mem_cons.mp hmem with hcomma | hmem
    · exact absurd hcomma (by decide)
    · exact h next (List.mem_cons_of_mem item hnext) hmem

lemma nul_notMem_jsonRow {cells : List CString} (h : ∀ v ∈ cells, 0 ∉ v) : 0 ∉ jsonRow cells := by
  have hcells : 0 ∉ separated (cells.map jsonString) := by
    apply nul_notMem_separated
    intro item hitem
    obtain ⟨v, hv, rfl⟩ := List.mem_map.mp hitem
    exact nul_notMem_jsonString (h v hv)
  simp only [jsonRow, List.cons_append, List.mem_cons, List.mem_append, List.not_mem_nil, or_false,
    not_or]
  exact ⟨by decide, hcells, by decide⟩

lemma nul_notMem_error (statusCode : Int) {message : CString} (h : 0 ∉ message) :
    0 ∉ buildJsonErrorResponse statusCode message := by
  rw [buildJsonErrorResponse_eq]
  simp only [List.mem_append, List.mem_cons, List.not_mem_nil, or_false, not_or]
  exact ⟨⟨by decide, ⟨⟨by decide, nul_notMem_printInt _⟩, by decide⟩, nul_notMem_jsonString h⟩,
    by decide⟩

lemma nul_notMem_health (stats : ThreadPoolStats) : 0 ∉ buildHealthJsonResponse stats :=
  (CBuf.truncate 255 _).2.2

lemma nul_notMem_queryHead (result : DbResult) : 0 ∉ queryHead result := by
  have hkind : 0 ∉ responseBuilderResultTypeName result.type := by
    cases result.type <;> decide
  simp only [queryHead, List.mem_append, not_or]
  exact ⟨⟨⟨by decide, nul_notMem_jsonString hkind⟩, by decide⟩,
    nul_notMem_jsonString result.message.2.2⟩

/-- The body of a response to a statement is a C string if the cells are. -/
lemma nul_notMem_query {result : DbResult} (h : result.Texts)
    (htype : result.type = .insert ∨ result.type = .select) :
    0 ∉ (buildQueryJsonResponse result).2 := by
  have hhead := nul_notMem_queryHead result
  rcases htype with hinsert | hselect
  · rw [buildQueryJsonResponse_insert hinsert]
    simp only [List.mem_append, List.mem_cons, List.not_mem_nil, or_false, not_or]
    exact ⟨⟨by decide, ⟨hhead, by decide⟩, nul_notMem_printInt _⟩, by decide⟩
  · have hcolumns : 0 ∉ jsonRow (result.columns.map CBuf.val) := by
      apply nul_notMem_jsonRow
      intro v hv
      obtain ⟨column, -, rfl⟩ := List.mem_map.mp hv
      exact column.2.2
    have hrows : 0 ∉ separated (responseRows result) := by
      apply nul_notMem_separated
      intro item hitem
      obtain ⟨row, hrow, rfl⟩ := List.mem_map.mp hitem
      exact nul_notMem_jsonRow fun v hv => h row hrow v (List.mem_of_mem_take hv)
    have hflag : 0 ∉ bytes (if result.usedIdIndex then "true" else "false") := by
      cases result.usedIdIndex <;> decide
    rw [buildQueryJsonResponse_select hselect, responseHead]
    simp only [List.mem_append, List.mem_cons, List.not_mem_nil, or_false, not_or]
    exact ⟨⟨⟨by decide, ⟨⟨⟨⟨⟨⟨hhead, by decide⟩, hflag⟩, by decide⟩, nul_notMem_printInt _⟩,
      by decide⟩, hcolumns⟩, by decide⟩, by decide, hrows⟩, by decide⟩

/-! ### Answers -/

/-- What every answer is like: one of four codes, and a body that is a C string. The body of an error
is a JSON text with the code. -/
structure IsAnswer (answer : Int × CString) : Prop where
  code : answer.1 = 200 ∨ answer.1 = 400 ∨ answer.1 = 404 ∨ answer.1 = 405
  text : 0 ∉ answer.2
  error : answer.1 ≠ 200 → ∃ v, Json.IsText answer.2 v ∧
    v.member (memberName "ok") = some (.bool false) ∧
    v.member (memberName "status") = some (.number (printInt answer.1))

lemma isAnswer_error {statusCode : Int} {message : CString}
    (hcode : statusCode = 400 ∨ statusCode = 404 ∨ statusCode = 405)
    (h : ∀ b ∈ message, isVisible b = true) :
    IsAnswer (statusCode, buildJsonErrorResponse statusCode message) where
  code := .inr hcode
  text := nul_notMem_error statusCode fun h0 => absurd (h 0 h0) (by decide)
  error _ := by
    obtain ⟨v, hv, hok, hstatus, -⟩ := isText_error statusCode (presentable_of_visible h)
    have hint : toInt statusCode = statusCode := by
      rcases hcode with rfl | rfl | rfl <;> rfl
    rw [hint] at hstatus
    exact ⟨v, hv, hok, hstatus⟩

lemma Refused.isAnswer {context : RequestRouterContext} {answer : Int × CString}
    (h : Refused context answer) : IsAnswer answer := by
  cases h with
  | health =>
    exact ⟨.inl rfl, nul_notMem_health context.stats, fun hne => absurd rfl hne⟩
  | error hcode hvisible => exact isAnswer_error hcode (List.all_eq_true.mp hvisible)

/-- The answer to an outcome: an error, or the response to the statement. -/
lemma queryAnswer_eq {outcome : DbResult × Status} (h : Concluded outcome) :
    (outcome.1.type = .error ∧
      queryAnswer outcome = (400, buildJsonErrorResponse 400 outcome.1.message.val)) ∨
    ((outcome.1.type = .insert ∨ outcome.1.type = .select) ∧
      queryAnswer outcome = (200, (buildQueryJsonResponse outcome.1).2)) := by
  obtain ⟨result, status⟩ := outcome
  cases status with
  | failure =>
    obtain ⟨-, htype, hne⟩ := h.failure rfl
    exact .inl ⟨htype, by simp [queryAnswer, hne]⟩
  | success =>
    obtain ⟨-, htype⟩ := h.success rfl
    have hcode : (buildQueryJsonResponse result).1 = 200 := by
      rw [buildQueryJsonResponse]
      cases result.type <;> rfl
    refine .inr ⟨htype, ?_⟩
    rw [← hcode]
    simp [queryAnswer]

lemma isAnswer_query {outcome : DbResult × Status} (h : Concluded outcome)
    (htexts : outcome.1.Texts) : IsAnswer (queryAnswer outcome) := by
  rcases queryAnswer_eq h with ⟨-, hanswer⟩ | ⟨htype, hanswer⟩
  · rw [hanswer]
    exact isAnswer_error (.inl rfl) h.visible
  · rw [hanswer]
    exact ⟨.inl rfl, nul_notMem_query htexts htype, fun hne => absurd rfl hne⟩

/-- The answers that are not JSON are those to queries. -/
lemma queryAnswer_isText_iff {outcome : DbResult × Status} (h : Concluded outcome) :
    (∃ v, Json.IsText (queryAnswer outcome).2 v) ↔ outcome.1.type ≠ .select := by
  have hmessage := presentable_of_visible h.visible
  rcases queryAnswer_eq h with ⟨htype, hanswer⟩ | ⟨hinsert | hselect, hanswer⟩
  · obtain ⟨v, hv, -⟩ := isText_error 400 hmessage
    rw [hanswer, htype]
    exact iff_of_true ⟨v, hv⟩ (by decide)
  · rw [hanswer, hinsert]
    exact iff_of_true (isText_insert hinsert hmessage) (by decide)
  · rw [hanswer]
    exact iff_of_false (fun ⟨v, hv⟩ => not_isText_select hselect v hv) (not_not.mpr hselect)

lemma Refused.isText {context : RequestRouterContext} {answer : Int × CString}
    (h : Refused context answer) : ∃ v, Json.IsText answer.2 v := by
  cases h with
  | health =>
    obtain ⟨v, hv, -⟩ := isText_health context.stats
    exact ⟨v, hv⟩
  | @error statusCode message _ hvisible =>
    obtain ⟨v, hv, -⟩ := isText_error statusCode
      (presentable_of_visible (List.all_eq_true.mp hvisible))
    exact ⟨v, hv⟩

end MiniDbms
