import MiniDbms.Api.Routes
import MiniDbms.Library.ShortWrites

/-!
# One connection of `api_server.c`

The bytes of the client arrive in chunks, and the response leaves in pieces. Connections that are
served one after another are compared with the texts that they have executed.
-/

namespace MiniDbms

/-- `api_server_send_all`: what has been sent, and the status. -/
def apiServerSendAll (socket : Device) (response : CString) : CString × Status :=
  let (sent, complete) := socket.write response
  (sent, if complete then .success else .failure)

/-- The response of `api_server_send_json_error`; `none` if nothing is sent. -/
def apiServerSendJsonError (statusCode : Int) (message : CString) : Option CString :=
  buildHttpResponse statusCode (buildJsonErrorResponse statusCode message)

/-- `api_server_handle_client`: the database afterwards, and the response that is sent. -/
def apiServerHandleClient (context : RequestRouterContext) (db : Database)
    (chunks : List CString) : Database × Option CString :=
  match apiServerReadHttpRequest chunks with
  | none            => (db, apiServerSendJsonError 400 (bytes "Failed to read HTTP request."))
  | some rawRequest =>
    match parseHttpRequest (cView rawRequest) with
    | none         => (db, apiServerSendJsonError 400 (bytes "Malformed HTTP request."))
    | some request =>
      let (db, statusCode, body) := routeRequest context db request
      match buildHttpResponse statusCode body with
      | none          =>
        (db, apiServerSendJsonError 500 (bytes "Failed to serialize HTTP response."))
      | some response => (db, some response)

/-! ### The response -/

lemma length_error_le (statusCode : Int) {message : CString} (h : message.length ≤ 600) :
    (buildJsonErrorResponse statusCode message).length ≤ 1300 := by
  have hescape : ∀ b : Byte, (responseBuilderEscape b).length ≤ 2 := by
    apply forall_byte
    decide +kernel
  have hescaped : (message.flatMap responseBuilderEscape).length ≤ 2 * message.length := by
    clear h
    induction message with
    | nil => simp
    | cons b message ih =>
      have hb := hescape b
      rw [List.flatMap_cons, List.length_append, List.length_cons]
      omega
  have hnumber := (printInt_toInt statusCode).1
  rw [buildJsonErrorResponse_eq, jsonString]
  simp only [List.length_append, List.length_cons, List.length_nil]
  rw [show (bytes "\"ok\":false,\"status\":").length = 20 from rfl,
    show (bytes ",\"error\":").length = 9 from rfl]
  omega

/-- A response that is sent, with its code and its body. The body of an error is a JSON text with the
code. -/
structure IsResponse (statusCode : Int) (body response : CString) : Prop where
  built : buildHttpResponse statusCode body = some response
  code : statusCode = 200 ∨ statusCode = 400 ∨ statusCode = 404 ∨ statusCode = 405 ∨
    statusCode = 500
  text : 0 ∉ body
  error : statusCode ≠ 200 → ∃ v, Json.IsText body v ∧
    v.member (memberName "ok") = some (.bool false) ∧
    v.member (memberName "status") = some (.number (printInt statusCode))

/-- The errors of the server itself are always sent. -/
lemma isResponse_error {statusCode : Int} {message : CString}
    (hcode : statusCode = 400 ∨ statusCode = 500) (h : message.all isVisible = true)
    (hlength : message.length ≤ 600) :
    ∃ response, apiServerSendJsonError statusCode message = some response ∧
      IsResponse statusCode (buildJsonErrorResponse statusCode message) response := by
  have hall := List.all_eq_true.mp h
  have hshort := length_error_le statusCode hlength
  obtain ⟨response, hresponse⟩ := @buildHttpResponse_isSome statusCode
    (buildJsonErrorResponse statusCode message) (by omega)
  have hint : toInt statusCode = statusCode := by
    rcases hcode with rfl | rfl <;> rfl
  refine ⟨response, hresponse, hresponse, by omega,
    nul_notMem_error statusCode fun h0 => absurd (hall 0 h0) (by decide), fun _ => ?_⟩
  obtain ⟨v, hv, hok, hstatus, -⟩ := isText_error statusCode (presentable_of_visible hall)
  exact ⟨v, hv, hok, hint ▸ hstatus⟩

/-! ### Connections one after another -/

/-- The text that a connection has executed. -/
def requestSql (chunks : List CString) : Option CString :=
  (apiServerReceiveRequest chunks).bind HttpRequest.sql

/-- What is sent for the outcome of a text. -/
def queryResponse (outcome : DbResult × Status) : Option CString :=
  (buildHttpResponse (queryAnswer outcome).1 (queryAnswer outcome).2).or
    (apiServerSendJsonError 500 (bytes "Failed to serialize HTTP response."))

/-- The database after connections that are served one after another by a process that has just
started; each comes with the state of the pool that it sees. -/
def clientsRun (files : Files) (served : List (ThreadPoolStats × List CString)) : Database :=
  served.foldl (fun db connection =>
    (apiServerHandleClient ⟨dbEngineInit, connection.1⟩ db connection.2).1) (.fresh files)

/-- What holds of the database between connections. -/
structure Database.Ready (db : Database) : Prop where
  cache : db.cache.Sound
  texts : ∀ t ∈ db.active, t.Texts

lemma ready_fresh (files : Files) : (Database.fresh files).Ready where
  cache := TokenizerCache.sound_empty
  texts t ht := by cases ht

section

variable {db : Database} {stats : ThreadPoolStats} {chunks : List CString}

/-- The request that is received decides. -/
lemma apiServerHandleClient_none (h : apiServerReceiveRequest chunks = none) :
    (apiServerHandleClient ⟨dbEngineInit, stats⟩ db chunks).1 = db ∧
      ∃ message : CString, message.all isVisible = true ∧ message.length ≤ 600 ∧
        (apiServerHandleClient ⟨dbEngineInit, stats⟩ db chunks).2 =
          apiServerSendJsonError 400 message := by
  unfold apiServerHandleClient
  rw [apiServerReceiveRequest, Option.bind_eq_none_iff] at h
  cases hread : apiServerReadHttpRequest chunks with
  | none =>
    have hlength : (bytes "Failed to read HTTP request.").length = 28 := rfl
    dsimp only
    exact ⟨rfl, bytes "Failed to read HTTP request.", rfl, hlength.trans_le (by omega), rfl⟩
  | some rawRequest =>
    have hlength : (bytes "Malformed HTTP request.").length = 23 := rfl
    dsimp only
    rw [h rawRequest hread]
    dsimp only
    exact ⟨rfl, bytes "Malformed HTTP request.", rfl, hlength.trans_le (by omega), rfl⟩

lemma apiServerHandleClient_some {request : HttpRequest}
    (h : apiServerReceiveRequest chunks = some request) :
    apiServerHandleClient ⟨dbEngineInit, stats⟩ db chunks =
      ((routeRequest ⟨dbEngineInit, stats⟩ db request).1,
        (buildHttpResponse (routeRequest ⟨dbEngineInit, stats⟩ db request).2.1
          (routeRequest ⟨dbEngineInit, stats⟩ db request).2.2).or
            (apiServerSendJsonError 500 (bytes "Failed to serialize HTTP response."))) := by
  obtain ⟨rawRequest, hread, hparse⟩ := Option.bind_eq_some_iff.mp h
  unfold apiServerHandleClient
  rw [hread]
  dsimp only
  rw [hparse]
  dsimp only
  generalize apiServerSendJsonError 500 (bytes "Failed to serialize HTTP response.") = refusal
  cases buildHttpResponse (routeRequest ⟨dbEngineInit, stats⟩ db request).2.1
    (routeRequest ⟨dbEngineInit, stats⟩ db request).2.2 with
  | none => rfl
  | some response => rfl

/-- The text of a request is executed, and nothing else happens to the database. -/
lemma apiServerHandleClient_database (h : db.Ready) :
    (requestSql chunks = none →
      (apiServerHandleClient ⟨dbEngineInit, stats⟩ db chunks).1 = db) ∧
    (∀ sql, requestSql chunks = some sql →
      (apiServerHandleClient ⟨dbEngineInit, stats⟩ db chunks).1.store =
        (executeText db.store sql).1 ∧
      (apiServerHandleClient ⟨dbEngineInit, stats⟩ db chunks).2 =
        queryResponse (executeText db.store sql).2) ∧
    (apiServerHandleClient ⟨dbEngineInit, stats⟩ db chunks).1.Ready := by
  rw [requestSql]
  cases hrequest : apiServerReceiveRequest chunks with
  | none =>
    have hdb := (@apiServerHandleClient_none db stats chunks hrequest).1
    rw [hdb]
    refine ⟨fun _ => rfl, ?_, h⟩
    rintro sql ⟨⟩
  | some request =>
    rw [Option.bind_some, apiServerHandleClient_some hrequest]
    dsimp only
    cases hsql : request.sql with
    | none =>
      rw [(routeRequest_none hsql).1]
      refine ⟨fun _ => rfl, ?_, h⟩
      rintro sql ⟨⟩
    | some sql =>
      obtain ⟨hcache, hexec⟩ := executeQueryWithLock_eq h.cache sql
      have hstore := congrArg Prod.fst hexec
      have houtcome := congrArg Prod.snd hexec
      dsimp only at houtcome
      rw [routeRequest_query hsql]
      refine ⟨?_, ?_, hcache, ?_⟩
      · rintro ⟨⟩
      · rintro sql' ⟨⟩
        refine ⟨hstore, ?_⟩
        dsimp only
        rw [houtcome, queryResponse]
      · have htexts := (@executeText_texts db.store h.texts sql).1
        rw [← hstore] at htexts
        exact htexts

/-- Every connection is answered. The body is a JSON text unless it holds the rows of a query. -/
lemma apiServerHandleClient_response (h : db.Ready) :
    ∃ statusCode body response,
      (apiServerHandleClient ⟨dbEngineInit, stats⟩ db chunks).2 = some response ∧
      IsResponse statusCode body response ∧
      ((∃ v, Json.IsText body v) ↔ ¬ (statusCode = 200 ∧ ∃ sql, requestSql chunks = some sql ∧
        (executeText db.store sql).2.1.type = .select)) := by
  -- an error of the server is a JSON text
  have hserver : ∀ (statusCode : Int) (message : CString), statusCode = 400 ∨ statusCode = 500 →
      message.all isVisible = true → message.length ≤ 600 → ∃ body response,
        apiServerSendJsonError statusCode message = some response ∧
        IsResponse statusCode body response ∧
        ((∃ v, Json.IsText body v) ↔ ¬ (statusCode = 200 ∧ ∃ sql, requestSql chunks = some sql ∧
          (executeText db.store sql).2.1.type = .select)) := by
    intro statusCode message hcode hvisible hlength
    obtain ⟨response, hsent, hresponse⟩ := isResponse_error hcode hvisible hlength
    obtain ⟨v, hv, -⟩ := hresponse.error (by omega)
    exact ⟨_, response, hsent, hresponse, iff_of_true ⟨v, hv⟩ (by omega)⟩
  cases hrequest : apiServerReceiveRequest chunks with
  | none =>
    obtain ⟨-, message, hvisible, hlength, hsent⟩ :=
      @apiServerHandleClient_none db stats chunks hrequest
    rw [hsent]
    exact ⟨400, hserver 400 message (.inl rfl) hvisible hlength⟩
  | some request =>
    have hsql : requestSql chunks = request.sql := by rw [requestSql, hrequest, Option.bind_some]
    rw [apiServerHandleClient_some hrequest]
    have hanswer : IsAnswer (routeRequest ⟨dbEngineInit, stats⟩ db request).2 ∧
        ((∃ v, Json.IsText (routeRequest ⟨dbEngineInit, stats⟩ db request).2.2 v) ↔
          ¬ ((routeRequest ⟨dbEngineInit, stats⟩ db request).2.1 = 200 ∧
            ∃ sql, requestSql chunks = some sql ∧
              (executeText db.store sql).2.1.type = .select)) := by
      rw [hsql]
      cases hquery : request.sql with
      | none =>
        have hrefused := (@routeRequest_none ⟨dbEngineInit, stats⟩ db request hquery).2
        refine ⟨hrefused.isAnswer, iff_of_true hrefused.isText ?_⟩
        rintro ⟨-, sql, ⟨⟩, -⟩
      | some sql =>
        have hexecuted := congrArg Prod.snd (executeQueryWithLock_eq h.cache sql).2
        have hconcluded := concluded_text db.store sql
        rw [routeRequest_query hquery]
        dsimp only at hexecuted ⊢
        rw [hexecuted]
        refine ⟨isAnswer_query hconcluded (@executeText_texts db.store h.texts sql).2, ?_⟩
        rw [queryAnswer_isText_iff hconcluded]
        rcases queryAnswer_eq hconcluded with ⟨htype, hcode⟩ | ⟨-, hcode⟩
        · rw [hcode, htype]
          refine iff_of_true (by decide) ?_
          rintro ⟨hok, -⟩
          cases hok
        · rw [hcode]
          refine not_congr ⟨fun hselect => ⟨rfl, sql, rfl, hselect⟩, ?_⟩
          rintro ⟨-, sql', hsql', hselect⟩
          obtain rfl := Option.some.inj hsql'
          exact hselect
    obtain ⟨hanswer, htext⟩ := hanswer
    cases hbuilt : buildHttpResponse (routeRequest ⟨dbEngineInit, stats⟩ db request).2.1
        (routeRequest ⟨dbEngineInit, stats⟩ db request).2.2 with
    | none =>
      have hlength : (bytes "Failed to serialize HTTP response.").length = 34 := rfl
      dsimp only
      rw [Option.none_or]
      exact ⟨500, hserver 500 (bytes "Failed to serialize HTTP response.") (.inr rfl) rfl
        (hlength.trans_le (by omega))⟩
    | some response =>
      refine ⟨_, _, response, rfl, ⟨hbuilt, ?_, hanswer.text, hanswer.error⟩, htext⟩
      have hcode := hanswer.code
      omega

end

/-! ### Histories -/

lemma clientsRun_append (files : Files) (served : List (ThreadPoolStats × List CString))
    (connection : ThreadPoolStats × List CString) :
    clientsRun files (served ++ [connection]) =
      (apiServerHandleClient ⟨dbEngineInit, connection.1⟩ (clientsRun files served)
        connection.2).1 := by
  rw [clientsRun, clientsRun, List.foldl_append, List.foldl_cons, List.foldl_nil]

lemma clientsRun_ready (files : Files) (served : List (ThreadPoolStats × List CString)) :
    (clientsRun files served).Ready := by
  induction served using List.reverseRecOn with
  | nil => exact ready_fresh files
  | append_singleton served connection ih =>
    rw [clientsRun_append]
    exact (apiServerHandleClient_database ih).2.2

/-- The files and the table in memory are those of the texts. -/
lemma clientsRun_store (files : Files) (served : List (ThreadPoolStats × List CString)) :
    (clientsRun files served).store =
      (dbRun files (served.filterMap fun connection => requestSql connection.2)).store := by
  induction served using List.reverseRecOn with
  | nil => rfl
  | append_singleton served connection ih =>
    obtain ⟨hnone, hsome, -⟩ := @apiServerHandleClient_database (clientsRun files served)
      connection.1 connection.2 (clientsRun_ready files served)
    have hlast : [connection].filterMap (fun connection => requestSql connection.2) =
        (requestSql connection.2).toList := by
      rw [List.filterMap_cons]
      cases requestSql connection.2 <;> rfl
    rw [clientsRun_append, List.filterMap_append, hlast]
    cases hsql : requestSql connection.2 with
    | none => rw [hnone hsql, ih, Option.toList_none, List.append_nil]
    | some sql =>
      have hexec := (dbExecuteSql_eq (dbRun_sound files (served.filterMap fun connection =>
        requestSql connection.2)) sql).2
      rw [(hsome sql hsql).1, ih, Option.toList_some, dbRun_append, ← hexec]

/-- Connections that are served one after another are a run of the engine on the texts that they
have posted. After them the files and the table in memory are those of the run; the next connection
leaves the database as it is unless it posts a text, and then it gets what the engine returns for
that text at the end of the run. Connections that cannot be read, other routes and bodies without a
text are not seen. -/
theorem clientsRun_refines (files : Files) (served : List (ThreadPoolStats × List CString))
    (stats : ThreadPoolStats) (chunks : List CString) :
    let texts := served.filterMap fun connection => requestSql connection.2
    let client := apiServerHandleClient ⟨dbEngineInit, stats⟩ (clientsRun files served) chunks
    (clientsRun files served).store = (dbRun files texts).store ∧
    (requestSql chunks = none → client.1 = clientsRun files served) ∧
    ∀ sql, requestSql chunks = some sql →
      client.1.store = (dbRun files (texts ++ [sql])).store ∧
      client.2 = queryResponse (dbExecuteSql dbEngineInit (dbRun files texts) sql).2 := by
  intro texts client
  have hstore : (clientsRun files served).store = (dbRun files texts).store :=
    clientsRun_store files served
  obtain ⟨hnone, hsome, -⟩ := @apiServerHandleClient_database (clientsRun files served) stats chunks
    (clientsRun_ready files served)
  refine ⟨hstore, hnone, fun sql hsql => ?_⟩
  obtain ⟨hdb, hsent⟩ := hsome sql hsql
  have hexec := (dbExecuteSql_eq (dbRun_sound files texts) sql).2
  rw [hstore, ← hexec] at hdb hsent
  exact ⟨hdb.trans (by rw [dbRun_append]), hsent⟩

/-- After any history, whatever bytes the next client sends and however they are cut, it gets one
response. Its code is 200, 400, 404, 405 or 500; an error is a JSON text that repeats the code, and
the only bodies that are not JSON are those of the queries that succeed. -/
theorem clientsRun_response (files : Files) (served : List (ThreadPoolStats × List CString))
    (stats : ThreadPoolStats) (chunks : List CString) :
    ∃ statusCode body response,
      (apiServerHandleClient ⟨dbEngineInit, stats⟩ (clientsRun files served) chunks).2 =
        some response ∧
      IsResponse statusCode body response ∧
      ((∃ v, Json.IsText body v) ↔ ¬ (statusCode = 200 ∧ ∃ sql, requestSql chunks = some sql ∧
        (dbExecuteSql dbEngineInit (clientsRun files served) sql).2.1.type = .select)) := by
  have hready := clientsRun_ready files served
  have hexec : ∀ sql, (dbExecuteSql dbEngineInit (clientsRun files served) sql).2 =
      (executeText (clientsRun files served).store sql).2 := fun sql =>
    congrArg Prod.snd (dbExecuteSql_eq hready.cache sql).2
  simp only [hexec]
  exact apiServerHandleClient_response hready

/-- Sending to a client. Whatever the socket takes of each piece, what the client gets is a beginning
of the response; `SUCCESS` is returned if it is all of it, and the client can tell by reading it, for
no shorter beginning is a whole message. Pieces that are taken in part do no harm. -/
theorem apiServerSendAll_response {statusCode : Int} {body response : CString}
    (h : buildHttpResponse statusCode body = some response) (socket : Device) :
    (apiServerSendAll socket response).1 <+: response ∧
    ((apiServerSendAll socket response).2 = .success ↔
      (apiServerSendAll socket response).1 = response) ∧
    (IsWholeMessage (apiServerSendAll socket response).1 ↔
      (apiServerSendAll socket response).2 = .success) ∧
    ((∀ k n, 0 < n → 0 < socket.take k n) → (apiServerSendAll socket response).2 = .success) := by
  obtain ⟨hbegins, hcomplete⟩ := socket.write_spec response
  have hstatus : (apiServerSendAll socket response).2 = .success ↔
      (socket.write response).2 = true := by
    show (if (socket.write response).2 then Status.success else .failure) = .success ↔ _
    cases (socket.write response).2 <;> simp
  have hsent : (apiServerSendAll socket response).1 = (socket.write response).1 := rfl
  obtain ⟨hresponse, hheader, hcontent⟩ := buildHttpResponse_some h
  have hlength : response.length = (headerBlock (responseLines statusCode body)).length +
      contentLength response (headerBlock (responseLines statusCode body)).length := by
    rw [hcontent, ← List.length_append, ← hresponse]
  rw [hstatus, hsent, hcomplete]
  exact ⟨hbegins, Iff.rfl, isWholeMessage_iff_of_prefix hheader hlength hbegins,
    fun hpieces => hcomplete.mp (socket.write_complete hpieces response)⟩

/-- A socket that takes three bytes at a time. -/
theorem apiServerSendAll_response_pieces :
    let response := bytes ("HTTP/1.1 200 OK\r\nContent-Type: application/json\r\n" ++
      "Content-Length: 2\r\nConnection: close\r\n\r\n\x7b\x7d")
    (apiServerSendAll ⟨fun _ n => min 3 n, by simp⟩ response).2 = .success := by
  have hbuilt : buildHttpResponse 200 (bytes "\x7b\x7d") =
      some (bytes ("HTTP/1.1 200 OK\r\nContent-Type: application/json\r\n" ++
        "Content-Length: 2\r\nConnection: close\r\n\r\n\x7b\x7d")) := by decide +kernel
  exact (apiServerSendAll_response hbuilt ⟨fun _ n => min 3 n, by simp⟩).2.2.2
    fun k n hn => by dsimp only; omega

end MiniDbms
