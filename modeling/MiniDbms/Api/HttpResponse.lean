import MiniDbms.Api.Header
import MiniDbms.Api.ResponseBuilder
import MiniDbms.Concurrency.ThreadPool

/-!
# The HTTP responses of `response_builder.c`

A response states the length of its body. Reading it as the server reads requests gives the body
back, and no beginning of a response passes for a whole one. Memory does not run out.
-/

namespace MiniDbms

/-- `response_builder_status_text` -/
def responseBuilderStatusText (statusCode : Int) : CString :=
  if statusCode = 200 then bytes "OK"
  else if statusCode = 400 then bytes "Bad Request"
  else if statusCode = 404 then bytes "Not Found"
  else if statusCode = 405 then bytes "Method Not Allowed"
  else bytes "Internal Server Error"

/-- `build_json_error_response`: the body. -/
def buildJsonErrorResponse (statusCode : Int) (message : CString) : CString :=
  let numberBuffer := CBuf.truncate 63
    (bytes "\x7b\"ok\":false,\"status\":" ++ printInt (toInt statusCode) ++ bytes ",\"error\":")
  let buffer := utilsAppendBuffer [] numberBuffer.val
  let buffer := responseBuilderAppendJsonString buffer message
  responseBuilderAppendChar buffer (chr '\x7d')

/-- `build_health_json_response`: the body. -/
def buildHealthJsonResponse (stats : ThreadPoolStats) : CString :=
  let buffer := CBuf.truncate 255
    (bytes "\x7b\"status\":\"ok\",\"worker_count\":" ++ printInt (toInt stats.workerCount) ++
      bytes ",\"busy_workers\":" ++ printInt (toInt stats.busyWorkerCount) ++
      bytes ",\"idle_workers\":" ++ printInt (toInt stats.idleWorkerCount) ++
      bytes ",\"queue_length\":" ++ printInt (toInt stats.queueLength) ++
      bytes ",\"queue_capacity\":" ++ printInt (toInt stats.queueCapacity) ++
      bytes ",\"available_queue_slots\":" ++ printInt (toInt stats.availableQueueSlots) ++
      bytes "\x7d")
  buffer.val

/-- `build_http_response`: `none` is `FAILURE`. `snprintf` returns a negative number if the length
is not an `int`. -/
def buildHttpResponse (statusCode : Int) (body : CString) : Option CString :=
  let responseSize := toSizeT (body.length + 256 : Nat)
  let response := bytes "HTTP/1.1 " ++ printInt (toInt statusCode) ++ bytes " " ++
    responseBuilderStatusText statusCode ++ bytes "\r\n" ++
    bytes "Content-Type: application/json\r\n" ++
    bytes "Content-Length: " ++ natDigits body.length ++ bytes "\r\n" ++
    bytes "Connection: close\r\n" ++
    bytes "\r\n" ++
    body
  if 2 ^ 31 ≤ response.length ∨ responseSize ≤ response.length then none else some response

/-! ### The bodies -/

lemma mem_printInt {n : Int} {b : Byte} (h : b ∈ printInt n) : isdigit b = true ∨ b = chr '-' := by
  rw [printInt] at h
  split_ifs at h
  · rcases List.mem_cons.mp h with rfl | h
    · exact Or.inr rfl
    · exact Or.inl (isdigit_of_mem_natDigits b h)
  · exact Or.inl (isdigit_of_mem_natDigits b h)

/-- The header is made of bytes other than NUL and the line end. -/
def isHeaderByte (b : Byte) : Bool := b != 0 && b != chr '\r'

lemma isHeaderByte_of_isdigit {b : Byte} : isdigit b = true → isHeaderByte b = true := by
  revert b
  apply forall_byte
  decide +kernel

lemma isHeaderByte_printInt (n : Int) : (printInt n).all isHeaderByte = true := by
  rw [List.all_eq_true]
  intro b hb
  rcases mem_printInt hb with hdigit | rfl
  · exact isHeaderByte_of_isdigit hdigit
  · rfl

lemma nul_notMem_of_all {s : CString} (h : s.all isHeaderByte = true) : 0 ∉ s := by
  intro hnul
  exact absurd (List.all_eq_true.mp h 0 hnul) (by decide)

lemma isHeaderByte_natDigits (n : Nat) : (natDigits n).all isHeaderByte = true := by
  rw [List.all_eq_true]
  exact fun b hb => isHeaderByte_of_isdigit (isdigit_of_mem_natDigits b hb)

lemma buildJsonErrorResponse_eq (statusCode : Int) (message : CString) :
    buildJsonErrorResponse statusCode message =
      chr '\x7b' :: (bytes "\"ok\":false,\"status\":" ++ printInt (toInt statusCode) ++
        bytes ",\"error\":" ++ jsonString message) ++ [chr '\x7d'] := by
  have hbuffer := @numberBuffer_val statusCode (bytes "\x7b\"ok\":false,\"status\":")
    (bytes ",\"error\":") (by decide) (by decide) (by decide)
  rw [buildJsonErrorResponse, hbuffer]
  simp only [responseBuilderAppendJsonString_eq, responseBuilderAppendChar, utilsAppendBuffer]
  simp
  rfl

/-- The body of an error is a JSON text that holds the code and the message, unless the message
cannot stand in one. -/
lemma isText_error (statusCode : Int) {message : CString} (h : Presentable message) :
    ∃ v, Json.IsText (buildJsonErrorResponse statusCode message) v ∧
      v.member (memberName "ok") = some (.bool false) ∧
      v.member (memberName "status") = some (.number (printInt (toInt statusCode))) ∧
      ∃ e, v.member (memberName "error") = some e ∧ e.Denotes message := by
  obtain ⟨e, he, hdenotes⟩ := h.denotes
  have hall := (((@isString_jsonString "ok".toList rfl).derives_member .false).moreMembers
    (((@isString_jsonString "status".toList rfl).derives_member
      (.number (Json.isNumber_printInt (toInt statusCode)))).moreMembers
        ((@isString_jsonString "error".toList rfl).derives_member he))).object.element_tight
  have h₁ : bytes "\"ok\":false,\"status\":" = jsonString (Json.utf8 "ok".toList) ++ chr ':' ::
    bytes "false" ++ chr ',' :: jsonString (Json.utf8 "status".toList) ++ [chr ':'] := rfl
  have h₂ : bytes ",\"error\":" =
    chr ',' :: jsonString (Json.utf8 "error".toList) ++ [chr ':'] := rfl
  rw [buildJsonErrorResponse_eq, h₁, h₂]
  simp only [List.append_assoc, List.cons_append, List.nil_append] at hall ⊢
  refine ⟨_, hall, Json.Value.member_cons_self, ?_, e, ?_, hdenotes⟩
  · rw [Json.Value.member_cons_of_ne (by decide)]
    exact Json.Value.member_cons_self
  · iterate 2 rw [Json.Value.member_cons_of_ne (by decide)]
    exact Json.Value.member_cons_self

/-- The members of the body that reports on the pool. -/
def healthMembers (stats : ThreadPoolStats) : List (String × Int) :=
  [("worker_count", stats.workerCount), ("busy_workers", stats.busyWorkerCount),
    ("idle_workers", stats.idleWorkerCount), ("queue_length", stats.queueLength),
    ("queue_capacity", stats.queueCapacity),
    ("available_queue_slots", stats.availableQueueSlots)]

/-- The text of a member whose value is a number. -/
def numberMember (member : String × Int) : CString :=
  jsonString (Json.utf8 member.1.toList) ++ chr ':' :: printInt (toInt member.2)

lemma derives_numberMembers (member : String × Int) (members : List (String × Int))
    (h : ∀ m ∈ member :: members, (Json.utf8 m.1.toList).all isPrintable = true) :
    Json.Derives (.members ((member :: members).map fun m =>
      (memberName m.1, .number (printInt (toInt m.2)))))
      (separated ((member :: members).map numberMember)) := by
  have hmember : ∀ m ∈ member :: members, Json.Derives (.members
      [(memberName m.1, .number (printInt (toInt m.2)))]) (numberMember m) := fun m hm =>
    (isString_jsonString (h m hm)).derives_member (.number (Json.isNumber_printInt (toInt m.2)))
  induction members generalizing member with
  | nil => simpa [separated] using hmember member List.mem_cons_self
  | cons next members ih =>
    have hrest := ih next (fun m hm => h m (List.mem_cons_of_mem member hm))
      fun m hm => hmember m (List.mem_cons_of_mem member hm)
    have hall := (hmember member List.mem_cons_self).moreMembers hrest
    have hnested : ∀ (items : List CString) (item next : CString),
        separated (item :: next :: items) = item ++ chr ',' :: separated (next :: items) := by
      intro items item next
      rw [separated_cons, List.flatMap_cons, separated_cons, List.cons_append]
    have htext := hnested (members.map numberMember) (numberMember member) (numberMember next)
    exact htext ▸ hall

lemma buildHealthJsonResponse_eq (stats : ThreadPoolStats) :
    buildHealthJsonResponse stats = chr '\x7b' :: (jsonString (Json.utf8 "status".toList) ++
      chr ':' :: jsonString (Json.utf8 "ok".toList) ++ chr ',' ::
        separated ((healthMembers stats).map numberMember)) ++ [chr '\x7d'] := by
  have h₁ := (printInt_toInt stats.workerCount).1
  have h₂ := (printInt_toInt stats.busyWorkerCount).1
  have h₃ := (printInt_toInt stats.idleWorkerCount).1
  have h₄ := (printInt_toInt stats.queueLength).1
  have h₅ := (printInt_toInt stats.queueCapacity).1
  have h₆ := (printInt_toInt stats.availableQueueSlots).1
  rw [buildHealthJsonResponse, CBuf.truncate_eq]
  · have t₁ : bytes "\x7b\"status\":\"ok\",\"worker_count\":" =
      chr '\x7b' :: (jsonString (Json.utf8 "status".toList) ++ chr ':' ::
        jsonString (Json.utf8 "ok".toList)) ++
          chr ',' :: jsonString (Json.utf8 "worker_count".toList) ++ [chr ':'] := rfl
    have t₂ : bytes ",\"busy_workers\":" =
      chr ',' :: jsonString (Json.utf8 "busy_workers".toList) ++ [chr ':'] := rfl
    have t₃ : bytes ",\"idle_workers\":" =
      chr ',' :: jsonString (Json.utf8 "idle_workers".toList) ++ [chr ':'] := rfl
    have t₄ : bytes ",\"queue_length\":" =
      chr ',' :: jsonString (Json.utf8 "queue_length".toList) ++ [chr ':'] := rfl
    have t₅ : bytes ",\"queue_capacity\":" =
      chr ',' :: jsonString (Json.utf8 "queue_capacity".toList) ++ [chr ':'] := rfl
    have t₆ : bytes ",\"available_queue_slots\":" =
      chr ',' :: jsonString (Json.utf8 "available_queue_slots".toList) ++ [chr ':'] := rfl
    dsimp only
    rw [t₁, t₂, t₃, t₄, t₅, t₆]
    simp only [healthMembers, numberMember, List.map_cons, List.map_nil, separated_cons,
      List.flatMap_cons, List.flatMap_nil, List.append_assoc, List.cons_append, List.nil_append,
      List.append_nil]
    rfl
  · simp [bytes]
    omega
  · apply nul_notMem_of_all
    simp only [List.all_append, isHeaderByte_printInt, Bool.and_true]
    rfl

/-- Names that differ are found. -/
lemma member_of_nodup {ms : List (List Nat × Json.Value)} (h : (ms.map Prod.fst).Nodup)
    {m : List Nat × Json.Value} (hm : m ∈ ms) : (Json.Value.object ms).member m.1 = some m.2 := by
  induction ms with
  | nil => cases hm
  | cons first ms ih =>
    rw [List.map_cons, List.nodup_cons] at h
    rcases List.mem_cons.mp hm with rfl | hm
    · exact Json.Value.member_cons_self
    · have hne : first.1 ≠ m.1 := fun heq => h.1 (heq ▸ List.mem_map_of_mem hm)
      rw [← ih h.2 hm]
      exact Json.Value.member_cons_of_ne hne

/-- The report on the pool always is a JSON text, with the numbers that were counted. -/
lemma isText_health (stats : ThreadPoolStats) :
    ∃ v, Json.IsText (buildHealthJsonResponse stats) v ∧
      v.member (memberName "status") = some (.string (Json.utf16 "ok".toList)) ∧
      ∀ m ∈ healthMembers stats,
        v.member (memberName m.1) = some (.number (printInt (toInt m.2))) := by
  have hnumbers := derives_numberMembers ("worker_count", stats.workerCount)
    ((healthMembers stats).tail) (by
      intro m hm
      simp only [healthMembers, List.tail_cons, List.mem_cons, List.not_mem_nil, or_false] at hm
      rcases hm with rfl | rfl | rfl | rfl | rfl | rfl <;> dsimp only <;> rfl)
  have hall := (((@isString_jsonString "status".toList rfl).derives_member
    (.string (@isString_jsonString "ok".toList rfl))).moreMembers hnumbers).object.element_tight
  rw [buildHealthJsonResponse_eq]
  refine ⟨_, hall, Json.Value.member_cons_self, ?_⟩
  intro m hm
  refine @member_of_nodup _ ?_ (memberName m.1, .number (printInt (toInt m.2))) ?_
  · have hnames : ([memberName "status", memberName "worker_count", memberName "busy_workers",
        memberName "idle_workers", memberName "queue_length", memberName "queue_capacity",
        memberName "available_queue_slots"]).Nodup := by decide
    simp only [healthMembers, List.tail_cons, List.map_cons, List.map_nil]
    exact hnames
  · exact List.mem_cons_of_mem _ (List.mem_map_of_mem hm)

/-! ### The header of a response -/

/-- The first line of a response. -/
def statusLine (statusCode : Int) : CString :=
  bytes "HTTP/1.1 " ++ printInt (toInt statusCode) ++ bytes " " ++
    responseBuilderStatusText statusCode

/-- The line that states the length of the body. -/
def contentLengthLine (n : Nat) : CString := bytes "Content-Length: " ++ natDigits n

/-- The lines of the header. -/
def responseLines (statusCode : Int) (body : CString) : List CString :=
  [statusLine statusCode, bytes "Content-Type: application/json", contentLengthLine body.length,
    bytes "Connection: close"]

lemma length_statusLine (statusCode : Int) : (statusLine statusCode).length ≤ 42 := by
  have hnumber := (printInt_toInt statusCode).1
  have htext : (responseBuilderStatusText statusCode).length ≤ 21 := by
    rw [responseBuilderStatusText]
    split_ifs <;> decide
  rw [statusLine, List.length_append, List.length_append, List.length_append,
    show (bytes "HTTP/1.1 ").length = 9 from rfl, show (bytes " ").length = 1 from rfl]
  omega

/-- The header fits in the 256 bytes that are left for it. -/
lemma length_header_lt (statusCode : Int) {body : CString} (h : body.length < 10 ^ 10) :
    (headerBlock (responseLines statusCode body)).length < 200 := by
  have hdigits : (natDigits body.length).length ≤ 10 := length_natDigits_le (by decide) h
  have hstatus := length_statusLine statusCode
  simp only [responseLines, contentLengthLine, headerBlock_cons, headerBlock_nil,
    List.length_append]
  rw [show (bytes "\r\n").length = 2 from rfl,
    show (bytes "Content-Type: application/json").length = 30 from rfl,
    show (bytes "Content-Length: ").length = 16 from rfl,
    show (bytes "Connection: close").length = 17 from rfl]
  omega

/-- The header and the body are written unless they are longer than an `int` can tell. -/
lemma buildHttpResponse_eq (statusCode : Int) (body : CString) :
    buildHttpResponse statusCode body =
      if (headerBlock (responseLines statusCode body) ++ body).length < 2 ^ 31 then
        some (headerBlock (responseLines statusCode body) ++ body) else none := by
  have htext : bytes "HTTP/1.1 " ++ printInt (toInt statusCode) ++ bytes " " ++
      responseBuilderStatusText statusCode ++ bytes "\r\n" ++
      bytes "Content-Type: application/json\r\n" ++
      bytes "Content-Length: " ++ natDigits body.length ++ bytes "\r\n" ++
      bytes "Connection: close\r\n" ++ bytes "\r\n" ++ body =
        headerBlock (responseLines statusCode body) ++ body := by
    rw [show bytes "Content-Type: application/json\r\n" =
      bytes "Content-Type: application/json" ++ bytes "\r\n" from rfl,
      show bytes "Connection: close\r\n" = bytes "Connection: close" ++ bytes "\r\n" from rfl]
    simp only [responseLines, statusLine, contentLengthLine, headerBlock_cons, headerBlock_nil,
      List.append_assoc]
  rw [buildHttpResponse, htext]
  by_cases hlarge : 2 ^ 31 ≤ (headerBlock (responseLines statusCode body) ++ body).length
  · rw [if_pos (Or.inl hlarge), if_neg (not_lt.mpr hlarge)]
  · rw [if_pos (not_le.mp hlarge), if_neg]
    rintro (h | hsize)
    · exact hlarge h
    · rw [List.length_append] at hsize hlarge
      have hheader := @length_header_lt statusCode body (by omega)
      rw [toSizeT] at hsize
      omega

/-- A body that leaves room for the header in the length of the response is sent. -/
lemma buildHttpResponse_isSome (statusCode : Int) {body : CString}
    (h : body.length + 200 ≤ 2 ^ 31) :
    ∃ response, buildHttpResponse statusCode body = some response := by
  have hheader := @length_header_lt statusCode body (by omega)
  rw [buildHttpResponse_eq, if_pos (by rw [List.length_append]; omega)]
  exact ⟨_, rfl⟩

lemma isHeaderByte_responseLines (statusCode : Int) (body : CString) :
    ∀ line ∈ responseLines statusCode body, line ≠ [] ∧ line.all isHeaderByte = true := by
  have htext : (responseBuilderStatusText statusCode).all isHeaderByte = true := by
    rw [responseBuilderStatusText]
    split_ifs <;> rfl
  intro line hline
  simp only [responseLines, List.mem_cons, List.not_mem_nil, or_false] at hline
  rcases hline with rfl | rfl | rfl | rfl
  · refine ⟨by simp [statusLine, bytes], ?_⟩
    simp only [statusLine, List.all_append, isHeaderByte_printInt, htext, Bool.and_true]
    rfl
  · exact ⟨by decide, by decide⟩
  · refine ⟨by simp [contentLengthLine, bytes], ?_⟩
    simp only [contentLengthLine, List.all_append, isHeaderByte_natDigits, Bool.and_true]
    rfl
  · exact ⟨by decide, by decide⟩

lemma isHeaderLine_of_all {line : CString} (h : line ≠ [] ∧ line.all isHeaderByte = true) :
    IsHeaderLine line := by
  refine ⟨h.1, fun hcr => ?_⟩
  exact absurd (List.all_eq_true.mp h.2 _ hcr) (by decide)

/-- The length that the header of a response states is that of its body. -/
lemma contentLength_responseLines {statusCode : Int} {body : CString}
    (hlength : body.length < 2 ^ 64) (rest : CString) :
    apiServerExtractContentLength (headerBlock (responseLines statusCode body) ++ rest) =
      body.length := by
  have hlines := fun line hline =>
    isHeaderLine_of_all (isHeaderByte_responseLines statusCode body line hline)
  have hstatus : ¬ IsContentLength (statusLine statusCode) :=
    @not_isContentLength_cons (chr 'H') (by decide) _
  have hvalue := @contentLengthValue_natDigits body.length hlength contentLengthKey (bytes " ") rfl
    (forall_mem_of_all rfl) (headerBlock [bytes "Connection: close"] ++ rest)
  rw [show responseLines statusCode body = [statusLine statusCode,
    bytes "Content-Type: application/json"] ++ contentLengthLine body.length ::
      [bytes "Connection: close"] from rfl] at hlines ⊢
  rw [apiServerExtractContentLength_headerBlock _ (hlines _ (by simp))]
  · exact hvalue
  · exact @isContentLength_append contentLengthKey rfl (bytes " " ++ natDigits body.length)
  · intro line hline
    refine ⟨hlines line (List.mem_append_left _ hline), ?_⟩
    rcases List.mem_cons.mp hline with rfl | hline
    · exact hstatus
    · rw [List.mem_singleton] at hline
      subst hline
      decide

/-- The header of a response that is written, and its body. -/
lemma buildHttpResponse_some {statusCode : Int} {body response : CString}
    (h : buildHttpResponse statusCode body = some response) :
    response = headerBlock (responseLines statusCode body) ++ body ∧
      headerLength response = some (headerBlock (responseLines statusCode body)).length ∧
      contentLength response (headerBlock (responseLines statusCode body)).length =
        body.length := by
  rw [buildHttpResponse_eq] at h
  split_ifs at h with hshort
  obtain rfl := Option.some.inj h
  refine ⟨rfl, headerLength_headerBlock (by simp [responseLines]) (fun line hline =>
    isHeaderLine_of_all (isHeaderByte_responseLines statusCode body line hline)) body, ?_⟩
  have hlength : body.length < 2 ^ 64 := by
    rw [List.length_append] at hshort
    omega
  have hvalue := @contentLength_responseLines statusCode body hlength []
  rw [List.append_nil] at hvalue
  rw [contentLength, List.take_left, hvalue]

lemma nul_notMem_headerBlock (statusCode : Int) (body : CString) :
    0 ∉ headerBlock (responseLines statusCode body) := by
  have hline : ∀ line ∈ responseLines statusCode body, 0 ∉ line := fun line hline =>
    nul_notMem_of_all (isHeaderByte_responseLines statusCode body line hline).2
  intro hnul
  rw [headerBlock, List.mem_append, List.mem_flatMap] at hnul
  rcases hnul with ⟨line, hmem, hnul⟩ | hnul
  · rcases List.mem_append.mp hnul with hnul | hnul
    · exact hline line hmem hnul
    · exact absurd hnul (by decide)
  · exact absurd hnul (by decide)

/-- A response that is written states the length of its body. The server's own reader gives it back
however it is cut, and no shorter beginning of it is a whole message. -/
theorem buildHttpResponse_read {statusCode : Int} {body response : CString} (hnul : 0 ∉ body)
    (h : buildHttpResponse statusCode body = some response) :
    statusLine statusCode ++ crlf <+: response ∧
    (∃ n, headerLength response = some n ∧ response.drop n = body ∧
      contentLength response n = body.length) ∧
    (∀ p, p <+: response → (IsWholeMessage p ↔ p = response)) ∧
    ∀ chunks, Cuts response chunks → response.length ≤ apiServerMaxRequestSize →
      apiServerReadHttpRequest chunks = some response := by
  obtain ⟨rfl, hheader, hcontent⟩ := buildHttpResponse_some h
  have hlength : (headerBlock (responseLines statusCode body) ++ body).length =
      (headerBlock (responseLines statusCode body)).length +
        contentLength (headerBlock (responseLines statusCode body) ++ body)
          (headerBlock (responseLines statusCode body)).length := by
    rw [List.length_append, hcontent]
  refine ⟨?_, ⟨_, hheader, List.drop_left, hcontent⟩, fun p hp => ?_, fun chunks hcuts hmax => ?_⟩
  · rw [responseLines, headerBlock_cons, List.append_assoc]
    exact List.prefix_append _ _
  · exact isWholeMessage_iff_of_prefix hheader hlength hp
  · refine apiServerReadHttpRequest_exact hheader ?_ hcuts hlength hmax
    rw [List.mem_append, not_or]
    exact ⟨nul_notMem_headerBlock statusCode body, hnul⟩

theorem buildHttpResponse_read_object :
    let response := bytes ("HTTP/1.1 200 OK\r\nContent-Type: application/json\r\n" ++
      "Content-Length: 2\r\nConnection: close\r\n\r\n\x7b\x7d")
    buildHttpResponse 200 (bytes "\x7b\x7d") = some response ∧
      apiServerReadHttpRequest (response.map fun b => [b]) = some response := by
  have hbuilt : buildHttpResponse 200 (bytes "\x7b\x7d") =
      some (bytes ("HTTP/1.1 200 OK\r\nContent-Type: application/json\r\n" ++
        "Content-Length: 2\r\nConnection: close\r\n\r\n\x7b\x7d")) := by decide +kernel
  exact ⟨hbuilt, (buildHttpResponse_read (by decide) hbuilt).2.2.2 _ (cuts_bytes _)
    (by decide +kernel)⟩

end MiniDbms
