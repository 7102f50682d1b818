import MiniDbms.Api.Client

/-!
# The fast path of `api_server_run`

The thread that accepts connections looks at the first bytes of each without taking them. It serves
the connection itself if they ask for the state of the pool.
-/

namespace MiniDbms

/-- `api_server_is_health_fast_path_request`: `peeked` is what `recv` has left in the buffer of 256
bytes. -/
def apiServerIsHealthFastPathRequest (peeked : CString) : Bool :=
  match strstr (cView peeked) crlf with
  | none         => false
  | some lineEnd =>
    let line := (cView peeked).take ((cView peeked).length - lineEnd.length)
    match scanWord 7 line with
    | none                => false
    | some (method, rest) =>
      match scanWord 127 rest with
      | none              => false
      | some (path, rest) =>
        match scanWord 15 rest with
        | none   => false
        | some _ => utilsEqualsIgnoreCase method.val (bytes "GET") &&
            strcmp path.val (bytes "/health") = 0

/-! ### Texts that begin alike -/

lemma cView_of_begins {u s : CString} (h : u <+: s) : cView u <+: cView s := by
  rw [cView, cView]
  generalize (fun b : Byte => b != 0) = p
  induction u generalizing s with
  | nil => exact List.nil_prefix
  | cons b u ih =>
    obtain ⟨t, rfl⟩ := h
    rw [List.cons_append]
    by_cases hb : p b = true
    · rw [List.takeWhile_cons_of_pos hb, List.takeWhile_cons_of_pos hb, List.cons_prefix_cons]
      exact ⟨rfl, ih (List.prefix_append u t)⟩
    · rw [List.takeWhile_cons_of_neg hb]
      exact List.nil_prefix

/-- A first line that is complete is that of every text that begins so. -/
lemma firstLine_of_begins {u s lineEnd : CString} (hu : u <+: s)
    (h : strstr u crlf = some lineEnd) :
    ∃ lineEnd', strstr s crlf = some lineEnd' ∧
      s.take (s.length - lineEnd'.length) = u.take (u.length - lineEnd.length) := by
  obtain ⟨t, rfl⟩ := hu
  refine ⟨lineEnd ++ t, strstr_append h t, ?_⟩
  rw [List.length_append, List.length_append, Nat.add_sub_add_right,
    List.take_append_of_le_length (Nat.sub_le _ _)]

/-- What is read is a beginning of what the client has sent, with a complete header. -/
lemma apiServerReadHttpRequest_begins {chunks : List CString} {rawRequest : CString}
    (h : apiServerReadHttpRequest chunks = some rawRequest) :
    rawRequest <+: chunks.flatten ∧ ∃ n, headerLength (cView rawRequest) = some n := by
  have hloop : ∀ (chunks : List CString) (state : ReadState),
      (state.headerComplete = true → ∃ n, headerLength (cView state.buffer) = some n) →
      apiServerReadLoop state chunks = some rawRequest →
        rawRequest <+: state.buffer ++ chunks.flatten ∧
          ∃ n, headerLength (cView rawRequest) = some n := by
    clear h chunks
    intro chunks
    induction chunks with
    | nil =>
      intro state hcomplete h
      rw [apiServerReadLoop] at h
      split_ifs at h with hheader
      obtain rfl := Option.some.inj h
      exact ⟨List.prefix_append _ _, hcomplete hheader⟩
    | cons chunk chunks ih =>
      intro state hcomplete h
      have hreceive : (state.receive chunk).headerComplete = true →
          ∃ n, headerLength (cView (state.receive chunk).buffer) = some n := by
        rw [receive_buffer]
        unfold ReadState.receive
        by_cases hheader : state.headerComplete = true
        · intro _
          obtain ⟨n, hn⟩ := hcomplete hheader
          obtain ⟨t, ht⟩ := cView_of_begins (List.prefix_append state.buffer chunk)
          exact ⟨n, ht ▸ headerLength_append hn t⟩
        · dsimp only
          rw [if_neg hheader]
          cases hn : headerLength (cView (state.buffer ++ chunk)) with
          | none => exact fun hheader' => absurd hheader' hheader
          | some n => exact fun _ => ⟨n, rfl⟩
      rw [apiServerReadLoop_cons] at h
      split_ifs at h with hlarge hdone
      · obtain rfl := Option.some.inj h
        refine ⟨?_, hreceive hdone.1⟩
        rw [receive_buffer, List.flatten_cons, ← List.append_assoc]
        exact List.prefix_append _ _
      · have hrest := ih _ hreceive h
        rwa [receive_buffer, List.append_assoc, ← List.flatten_cons] at hrest
  have hread := hloop chunks ⟨[], 0, false⟩ (by rintro ⟨⟩) h
  rwa [List.nil_append] at hread

/-! ### Connections that take the fast path -/

/-- The words of the line that was peeked at. -/
lemma apiServerIsHealthFastPathRequest_words {peeked : CString}
    (h : apiServerIsHealthFastPathRequest peeked = true) :
    ∃ lineEnd, strstr (cView peeked) crlf = some lineEnd ∧
      ∃ method rest path rest' protocol rest'',
        scanWord 7 ((cView peeked).take ((cView peeked).length - lineEnd.length)) =
          some (method, rest) ∧
        scanWord 127 rest = some (path, rest') ∧ scanWord 15 rest' = some (protocol, rest'') ∧
        utilsEqualsIgnoreCase method.val (bytes "GET") = true ∧ path.val = bytes "/health" := by
  unfold apiServerIsHealthFastPathRequest at h
  cases hend : strstr (cView peeked) crlf with
  | none => simp [hend] at h
  | some lineEnd =>
    rw [hend] at h
    dsimp only at h
    cases hmethod : scanWord 7 ((cView peeked).take ((cView peeked).length - lineEnd.length)) with
    | none => simp [hmethod] at h
    | some first =>
      obtain ⟨method, rest⟩ := first
      rw [hmethod] at h
      dsimp only at h
      cases hpath : scanWord 127 rest with
      | none => simp [hpath] at h
      | some second =>
        obtain ⟨path, rest'⟩ := second
        rw [hpath] at h
        dsimp only at h
        cases hprotocol : scanWord 15 rest' with
        | none => simp [hprotocol] at h
        | some third =>
          obtain ⟨protocol, rest''⟩ := third
          rw [hprotocol, Bool.and_eq_true, decide_eq_true_eq, strcmp_eq_zero_iff] at h
          exact ⟨lineEnd, rfl, method, rest, path, rest', protocol, rest'', hmethod, hpath,
            hprotocol, h.1, h.2⟩

section

variable {peeked : CString} {chunks : List CString}

/-- What is read then asks for the state of the pool as well. -/
lemma parseHttpRequest_of_peeked {rawRequest : CString}
    (hpeeked : peeked <+: chunks.flatten) (hshort : peeked.length ≤ 255)
    (hfast : apiServerIsHealthFastPathRequest peeked = true)
    (hread : apiServerReadHttpRequest chunks = some rawRequest) :
    ∃ request, parseHttpRequest (cView rawRequest) = some request ∧
      utilsEqualsIgnoreCase request.method.val (bytes "GET") = true ∧
      request.path.val = bytes "/health" := by
  obtain ⟨hbegins, n, hn⟩ := apiServerReadHttpRequest_begins hread
  obtain ⟨lineEnd, hend, method, rest, path, rest', protocol, rest'', hmethod, hpath, hprotocol,
    hget, hhealth⟩ := apiServerIsHealthFastPathRequest_words hfast
  -- both lines are the first line of the stream
  obtain ⟨rawEnd, hrawEnd⟩ := strstr_crlf_of_headerLength hn
  obtain ⟨streamEnd, hstream, hrawLine⟩ := firstLine_of_begins (cView_of_begins hbegins) hrawEnd
  obtain ⟨streamEnd', hstream', hline⟩ := firstLine_of_begins (cView_of_begins hpeeked) hend
  obtain rfl := Option.some.inj (hstream.symm.trans hstream')
  have hsame := hrawLine.symm.trans hline
  have hlength := congrArg List.length hsame
  rw [List.length_take_of_le (Nat.sub_le _ _), List.length_take_of_le (Nat.sub_le _ _)] at hlength
  have hview : (cView peeked).length ≤ peeked.length := (List.takeWhile_prefix _).length_le
  have hne : (cView peeked).length - lineEnd.length ≠ 0 := by
    intro hzero
    rw [hzero, List.take_zero] at hmethod
    cases hmethod
  have hrequest : parseRequestLine (cView rawRequest) = some (method, path, protocol) := by
    rw [parseRequestLine, hrawEnd]
    dsimp only
    rw [if_neg (by omega), hsame, hmethod]
    dsimp only
    rw [hpath]
    dsimp only
    rw [hprotocol]
  rw [headerLength, Option.map_eq_some_iff] at hn
  obtain ⟨bodyStart, hbody, -⟩ := hn
  rw [parseHttpRequest, hrequest, hbody]
  exact ⟨_, rfl, hget, hhealth⟩

/-- A connection that takes the fast path never reaches the database, and it is not a query: it gets
the report on the pool, or the error of a request that cannot be read. So the thread that accepts
connections neither takes a lock of the engine nor changes a file. -/
theorem apiServerIsHealthFastPathRequest_answer (hpeeked : peeked <+: chunks.flatten)
    (hshort : peeked.length ≤ 255) (hfast : apiServerIsHealthFastPathRequest peeked = true)
    (context : RequestRouterContext) (db : Database) :
    requestSql chunks = none ∧
      (apiServerHandleClient context db chunks).1 = db ∧
      ∃ response, (apiServerHandleClient context db chunks).2 = some response ∧
        (IsResponse 200 (buildHealthJsonResponse context.stats) response ∨
          apiServerReadHttpRequest chunks = none ∧ IsResponse 400
            (buildJsonErrorResponse 400 (bytes "Failed to read HTTP request.")) response) := by
  unfold apiServerHandleClient
  rw [requestSql, apiServerReceiveRequest]
  cases hread : apiServerReadHttpRequest chunks with
  | none =>
    have hlength : (bytes "Failed to read HTTP request.").length = 28 := rfl
    obtain ⟨response, hsent, hresponse⟩ := @isResponse_error 400
      (bytes "Failed to read HTTP request.") (.inl rfl) rfl (hlength.trans_le (by omega))
    refine ⟨rfl, ?_⟩
    dsimp only
    exact ⟨rfl, response, hsent, .inr ⟨rfl, hresponse⟩⟩
  | some rawRequest =>
    obtain ⟨request, hrequest, hget, hpath⟩ :=
      parseHttpRequest_of_peeked hpeeked hshort hfast hread
    have hhealth : utilsEqualsIgnoreCase request.path.val (bytes "/health") = true := by
      rw [hpath]
      decide
    have hquery : utilsEqualsIgnoreCase request.path.val (bytes "/query") = false := by
      rw [hpath]
      decide
    have hroute : routeRequest context db request =
        (db, 200, buildHealthJsonResponse context.stats) := by
      rw [routeRequest, if_pos hhealth, if_neg (by rw [hget]; decide), handleHealthRequest]
    have hreport : (buildHealthJsonResponse context.stats).length ≤ 255 :=
      (CBuf.truncate 255 _).2.1
    obtain ⟨response, hbuilt⟩ := @buildHttpResponse_isSome 200
      (buildHealthJsonResponse context.stats) (by omega)
    refine ⟨?_, ?_⟩
    · rw [Option.bind_some, hrequest, Option.bind_some, HttpRequest.sql, hquery, Bool.false_and,
        if_neg Bool.false_ne_true]
    · dsimp only
      rw [hrequest]
      dsimp only
      rw [hroute]
      dsimp only
      rw [hbuilt]
      refine ⟨rfl, response, rfl, .inl ⟨hbuilt, .inl rfl, nul_notMem_health context.stats, ?_⟩⟩
      exact fun hne => absurd rfl hne

theorem apiServerIsHealthFastPathRequest_answer_split :
    (apiServerHandleClient ⟨dbEngineInit, ⟨4, 0, 4, 0, 16, 16⟩⟩ (.fresh emptyDirectory)
      [bytes "GET /health HTTP/1.1\r\nHo", bytes "st: localhost\r\n\r\n"]).1 =
        .fresh emptyDirectory :=
  (@apiServerIsHealthFastPathRequest_answer (bytes "GET /health HTTP/1.1\r\nHo")
    [bytes "GET /health HTTP/1.1\r\nHo", bytes "st: localhost\r\n\r\n"]
    ⟨bytes "st: localhost\r\n\r\n", by decide⟩ (by decide) (by decide +kernel)
    ⟨dbEngineInit, ⟨4, 0, 4, 0, 16, 16⟩⟩ (.fresh emptyDirectory)).2.1

end

end MiniDbms
