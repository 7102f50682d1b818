import MiniDbms.Api.Client

/-!
# Requests as clients write them

A request that is written as lines and a body is received as it was meant, however it is cut. A text
that is posted is executed.
-/

namespace MiniDbms

/-- The words of the first line of a request, and the lines around the one that states the length of
the body. -/
structure RequestHead where
  method : CBuf 7
  path : CBuf 127
  protocol : CBuf 15
  before : List CString
  key : CString
  blanks : CString
  after : List CString
  words : ∀ w ∈ [method.val, path.val, protocol.val], w ≠ [] ∧ ∀ b ∈ w, isspace b = false
  fields : ∀ line ∈ before ++ after, IsHeaderLine line ∧ 0 ∉ line
  unstated : ∀ line ∈ before, ¬ IsContentLength line
  stated : key.map tolower = contentLengthKey.map tolower
  blank : ∀ b ∈ blanks, b = chr ' ' ∨ b = chr '\t'

namespace RequestHead

variable (head : RequestHead)

def requestLine : CString :=
  head.method.val ++ chr ' ' :: (head.path.val ++ chr ' ' :: head.protocol.val)

/-- The line that states the length of the body. -/
def lengthLine (n : Nat) : CString := head.key ++ head.blanks ++ natDigits n

def lines (n : Nat) : List CString :=
  (head.requestLine :: head.before) ++ head.lengthLine n :: head.after

/-- The request with this body. -/
def message (body : CString) : CString := headerBlock (head.lines body.length) ++ body

/-! ### The first line -/

lemma parseRequestLine_requestLine (rest : CString) :
    parseRequestLine (head.requestLine ++ bytes "\r\n" ++ rest) =
      some (head.method, head.path, head.protocol) := by
  obtain ⟨hmethod, hmethodWord⟩ := head.words head.method.val (by simp)
  obtain ⟨hpath, hpathWord⟩ := head.words head.path.val (by simp)
  obtain ⟨hprotocol, hprotocolWord⟩ := head.words head.protocol.val (by simp)
  have hcr : chr '\r' ∉ head.requestLine := by
    have hspace : isspace (chr '\r') = true := rfl
    simp only [requestLine, List.mem_append, List.mem_cons, not_or]
    refine ⟨fun h => ?_, by decide, fun h => ?_, by decide, fun h => ?_⟩
    · exact absurd (hmethodWord _ h) (by rw [hspace]; simp)
    · exact absurd (hpathWord _ h) (by rw [hspace]; simp)
    · exact absurd (hprotocolWord _ h) (by rw [hspace]; simp)
  have hlength : head.requestLine.length ≤ 151 := by
    have h₁ := head.method.2.1
    have h₂ := head.path.2.1
    have h₃ := head.protocol.2.1
    simp only [requestLine, List.length_append, List.length_cons]
    omega
  have hpos : 0 < head.requestLine.length := by
    simp only [requestLine, List.length_append, List.length_cons]
    omega
  have hline : (head.requestLine ++ bytes "\r\n" ++ rest).length - (bytes "\r\n" ++ rest).length =
      head.requestLine.length := by
    rw [List.append_assoc, List.length_append, Nat.add_sub_cancel]
  have htake : (head.requestLine ++ bytes "\r\n" ++ rest).take head.requestLine.length =
      head.requestLine := by
    rw [List.append_assoc, List.take_left]
  -- the words one after the other
  have hfirst : scanWord 7 head.requestLine =
      some (head.method, chr ' ' :: (head.path.val ++ chr ' ' :: head.protocol.val)) :=
    @scanWord_append 7 head.method [] _ (by simp) hmethod hmethodWord (by rintro b ⟨⟩; rfl)
  have hsecond : scanWord 127 (chr ' ' :: (head.path.val ++ chr ' ' :: head.protocol.val)) =
      some (head.path, chr ' ' :: head.protocol.val) :=
    @scanWord_append 127 head.path [chr ' '] _ (by rintro b (_ | ⟨_, ⟨⟩⟩); rfl) hpath hpathWord
      (by rintro b ⟨⟩; rfl)
  have hthird : scanWord 15 (chr ' ' :: head.protocol.val) = some (head.protocol, []) := by
    have hscan := @scanWord_append 15 head.protocol [chr ' '] []
      (by rintro b (_ | ⟨_, ⟨⟩⟩); rfl) hprotocol hprotocolWord (by rintro b ⟨⟩)
    rwa [List.append_nil] at hscan
  rw [parseRequestLine, show crlf = bytes "\r\n" from rfl, strstr_lineEnd hcr]
  dsimp only
  rw [hline, if_neg (by omega), htake, hfirst]
  dsimp only
  rw [hsecond]
  dsimp only
  rw [hthird]

/-- The method ends before a line could have the key. -/
lemma not_isContentLength_requestLine : ¬ IsContentLength head.requestLine := by
  intro hkey
  obtain ⟨p, rest, hline, hp⟩ := strncasecmp_eq_zero hkey
  have hlength : p.length = 15 := by
    rw [← List.length_map tolower, hp]
    rfl
  have hbegins : head.method.val ++ [chr ' '] <+: p := by
    refine @List.prefix_of_prefix_length_le _ _ _ (p ++ rest) ?_ (List.prefix_append p rest) ?_
    · exact ⟨head.path.val ++ chr ' ' :: head.protocol.val ++ [chr '\r'], by
        rw [← hline, requestLine]
        simp⟩
    · have hmethod := head.method.2.1
      rw [List.length_append, List.length_singleton]
      omega
  have hspace : chr ' ' ∈ p := hbegins.subset (by simp)
  have hmem : tolower (chr ' ') ∈ contentLengthKey.map tolower := by
    rw [← hp]
    exact List.mem_map_of_mem hspace
  exact absurd hmem (by decide)

/-! ### The header -/

lemma isHeaderByte_requestLine : head.requestLine.all isHeaderByte = true := by
  have hbyte : ∀ b : Byte, isspace b = false → b ≠ 0 → isHeaderByte b = true := by
    apply forall_byte
    decide +kernel
  have hword : ∀ w ∈ [head.method.val, head.path.val, head.protocol.val], 0 ∉ w →
      w.all isHeaderByte = true := by
    intro w hw hnul
    rw [List.all_eq_true]
    exact fun b hb => hbyte b ((head.words w hw).2 b hb) fun h0 => hnul (h0 ▸ hb)
  have hmethod := hword head.method.val (by simp) head.method.2.2
  have hpath := hword head.path.val (by simp) head.path.2.2
  have hprotocol := hword head.protocol.val (by simp) head.protocol.2.2
  simp only [requestLine, List.all_append, List.all_cons, hmethod, hpath, hprotocol]
  rfl

lemma isHeaderByte_lengthLine (n : Nat) : (head.lengthLine n).all isHeaderByte = true := by
  have hbyte : ∀ b : Byte, tolower b ∈ contentLengthKey.map tolower → isHeaderByte b = true := by
    apply forall_byte
    decide +kernel
  have hkey : head.key.all isHeaderByte = true := by
    rw [List.all_eq_true]
    intro b hb
    apply hbyte
    rw [← head.stated]
    exact List.mem_map_of_mem hb
  have hblanks : head.blanks.all isHeaderByte = true := by
    rw [List.all_eq_true]
    intro b hb
    rcases head.blank b hb with rfl | rfl <;> rfl
  simp only [lengthLine, List.all_append, hkey, hblanks, isHeaderByte_natDigits, Bool.and_self]

lemma isHeaderLine_lines (n : Nat) : ∀ line ∈ head.lines n, IsHeaderLine line ∧ 0 ∉ line := by
  have hall : ∀ line : CString, line ≠ [] → line.all isHeaderByte = true →
      IsHeaderLine line ∧ 0 ∉ line := fun line hne h =>
    ⟨isHeaderLine_of_all ⟨hne, h⟩, nul_notMem_of_all h⟩
  intro line hline
  simp only [lines, List.cons_append, List.mem_cons, List.mem_append] at hline
  rcases hline with rfl | hline | rfl | hline
  · exact hall _ (by simp [requestLine]) head.isHeaderByte_requestLine
  · exact head.fields line (List.mem_append_left _ hline)
  · refine hall _ ?_ (head.isHeaderByte_lengthLine n)
    simp [lengthLine, natDigits_ne_nil]
  · exact head.fields line (List.mem_append_right _ hline)

lemma headerLength_message (body : CString) :
    headerLength (head.message body) = some (headerBlock (head.lines body.length)).length :=
  headerLength_headerBlock (by simp [lines])
    (fun line hline => (head.isHeaderLine_lines body.length line hline).1) body

/-- The length that is stated is found, and no other. -/
lemma contentLength_message {body : CString} (hlength : body.length < 2 ^ 64) :
    contentLength (head.message body) (headerBlock (head.lines body.length)).length =
      body.length := by
  have hlines := head.isHeaderLine_lines body.length
  have hkey : head.key.length = 15 := by
    rw [← List.length_map tolower, head.stated]
    rfl
  have hbefore : ∀ line ∈ head.requestLine :: head.before,
      IsHeaderLine line ∧ ¬ IsContentLength line := by
    intro line hline
    refine ⟨(hlines line (List.mem_append_left _ hline)).1, ?_⟩
    rcases List.mem_cons.mp hline with rfl | hline
    · exact head.not_isContentLength_requestLine
    · exact head.unstated line hline
  have hstated : IsContentLength (head.lengthLine body.length) := by
    rw [lengthLine, List.append_assoc]
    exact isContentLength_append head.stated _
  have hmem : head.lengthLine body.length ∈ head.lines body.length :=
    List.mem_append_right _ List.mem_cons_self
  have hfound := @apiServerExtractContentLength_headerBlock (head.requestLine :: head.before)
    head.after (head.lengthLine body.length) hbefore (hlines _ hmem).1 hstated []
  rw [contentLength, message, List.take_left, lines]
  rw [List.append_nil] at hfound
  rw [hfound]
  exact contentLengthValue_natDigits hlength hkey head.blank _

/-! ### The request -/

lemma parseHttpRequest_message (body : CString) :
    parseHttpRequest (head.message body) =
      some ⟨head.method, head.path, head.protocol, body, body.length⟩ := by
  have hline : parseRequestLine (head.message body) =
      some (head.method, head.path, head.protocol) := by
    have hfirst := head.parseRequestLine_requestLine
      (headerBlock (head.before ++ head.lengthLine body.length :: head.after) ++ body)
    rw [message, lines, List.cons_append, headerBlock_cons, List.append_assoc]
    exact hfirst
  have hend : strstr (head.message body) headerEnd = some (bytes "\r\n\r\n" ++ body) :=
    strstr_headerBlock (by simp [lines])
      (fun line hline => (head.isHeaderLine_lines body.length line hline).1) body
  have hbody : (bytes "\r\n\r\n" ++ body).drop 4 = body := rfl
  rw [parseHttpRequest, hline, hend]
  dsimp only
  rw [hbody]

lemma nul_notMem_message {body : CString} (h : 0 ∉ body) : 0 ∉ head.message body := by
  have hlines := head.isHeaderLine_lines body.length
  simp only [message, headerBlock, List.mem_append, List.mem_flatMap, not_or, not_exists, not_and]
  exact ⟨⟨fun line hline => ⟨(hlines line hline).2, by decide⟩, by decide⟩, h⟩

lemma apiServerReceiveRequest_received {body : CString} {chunks : List CString} (hnul : 0 ∉ body)
    (hmax : (head.message body).length ≤ apiServerMaxRequestSize)
    (hcuts : Cuts (head.message body) chunks) :
    apiServerReceiveRequest chunks =
      some ⟨head.method, head.path, head.protocol, body, body.length⟩ := by
  have hlength : body.length < 2 ^ 64 := by
    rw [message, List.length_append, apiServerMaxRequestSize] at hmax
    omega
  have hwhole : (head.message body).length = (headerBlock (head.lines body.length)).length +
      contentLength (head.message body) (headerBlock (head.lines body.length)).length := by
    rw [head.contentLength_message hlength, message, List.length_append]
  have hread := apiServerReadHttpRequest_exact (head.headerLength_message body)
    (head.nul_notMem_message hnul) hcuts hwhole hmax
  rw [apiServerReceiveRequest, hread, Option.bind_some,
    cView_eq_self (head.nul_notMem_message hnul), parseHttpRequest_message]

/-- A request whose body is a C string is received as it was written or not at all: whatever other
lines stand around the length of the body, in whatever case its key is spelled, and however `recv`
cuts the bytes, only their number decides. -/
theorem apiServerReceiveRequest_message {body : CString} {chunks : List CString} (hnul : 0 ∉ body)
    (hlength : (head.message body).length < 2 ^ 64) (hcuts : Cuts (head.message body) chunks) :
    apiServerReceiveRequest chunks =
      if (head.message body).length ≤ apiServerMaxRequestSize then
        some ⟨head.method, head.path, head.protocol, body, body.length⟩
      else none := by
  split_ifs with hmax
  · exact head.apiServerReceiveRequest_received hnul hmax hcuts
  · -- reading stops neither before the stated length nor within the limit
    rw [apiServerReceiveRequest, Option.bind_eq_none_iff]
    intro rawRequest hread
    obtain ⟨-, -, -, hsize, hstop⟩ := apiServerReadHttpRequest_some (head.headerLength_message body)
      (head.nul_notMem_message hnul) hcuts hread
    have htotal : (head.message body).length =
        (headerBlock (head.lines body.length)).length + body.length := by
      rw [message, List.length_append]
    have hcontent := @contentLength_message head body (by omega)
    rw [stopLength, expectedLength, hcontent, toSizeT] at hstop
    omega

/-- The head of a request as `curl` writes it. -/
def posted : RequestHead where
  method := ⟨bytes "POST", by decide⟩
  path := ⟨bytes "/query", by decide⟩
  protocol := ⟨bytes "HTTP/1.1", by decide⟩
  before := [bytes "Host: localhost:8080"]
  key := bytes "content-length:"
  blanks := bytes " "
  after := [bytes "Accept: */*"]
  words := by decide +kernel
  fields := by decide +kernel
  unstated := by decide +kernel
  stated := by decide +kernel
  blank := by decide +kernel

theorem apiServerReceiveRequest_message_posted :
    apiServerReceiveRequest ((posted.message (bytes "\x7b\x7d")).map fun b => [b]) =
      some ⟨posted.method, posted.path, posted.protocol, bytes "\x7b\x7d", 2⟩ :=
  (posted.apiServerReceiveRequest_message (by decide) (by decide +kernel) (cuts_bytes _)).trans
    (if_pos (by decide +kernel))

end RequestHead

/-! ### Queries -/

/-- The body that has a text executed. -/
def queryBody (sql : CString) : CString := bytes "\x7b\"sql\":" ++ jsonString sql ++ bytes "\x7d"

lemma extractSqlFromJson_queryBody {sql : CString} (hne : sql ≠ []) :
    extractSqlFromJson (queryBody sql) = some (some sql) := by
  have hbody : queryBody sql = bytes "\x7b" ++ (bytes "\"sql\"" ++ ([] ++ chr ':' :: ([] ++
      chr '"' :: (sql.flatMap responseBuilderEscape ++ chr '"' :: bytes "\x7d")))) := by
    simp [queryBody, jsonString, bytes]
  rw [hbody, extractSqlFromJson_key (forall_mem_of_all rfl) (by simp) (by simp),
    extractSqlLoop_jsonString, foldl_requestRouterAppendJsonChar none hne]
  rfl

section

variable {head : RequestHead} {sql : CString} {chunks : List CString}

lemma requestSql_message (hpath : utilsEqualsIgnoreCase head.path.val (bytes "/query") = true)
    (hmethod : utilsEqualsIgnoreCase head.method.val (bytes "POST") = true)
    (hne : sql ≠ []) (hnul : 0 ∉ sql)
    (hmax : (head.message (queryBody sql)).length ≤ apiServerMaxRequestSize)
    (hcuts : Cuts (head.message (queryBody sql)) chunks) : requestSql chunks = some sql := by
  have hbody : 0 ∉ queryBody sql := by
    simp only [queryBody, List.mem_append, not_or]
    exact ⟨⟨by decide, nul_notMem_jsonString hnul⟩, by decide⟩
  rw [requestSql, head.apiServerReceiveRequest_received hbody hmax hcuts, Option.bind_some,
    HttpRequest.sql, hpath, hmethod, Bool.and_self, if_pos rfl, extractSqlFromJson_queryBody hne,
    Option.join_some]

/-- A text that is posted reaches the engine byte for byte, and the client gets what the engine makes
of it: after any connections, the answer is that to the outcome of executing the text where they have
left the database, and the files and the table in memory are those after it. -/
theorem apiServerHandleClient_message
    (hpath : utilsEqualsIgnoreCase head.path.val (bytes "/query") = true)
    (hmethod : utilsEqualsIgnoreCase head.method.val (bytes "POST") = true)
    (hne : sql ≠ []) (hnul : 0 ∉ sql)
    (hmax : (head.message (queryBody sql)).length ≤ apiServerMaxRequestSize)
    (hcuts : Cuts (head.message (queryBody sql)) chunks) (files : Files)
    (served : List (ThreadPoolStats × List CString)) (stats : ThreadPoolStats) :
    let db := clientsRun files served
    let client := apiServerHandleClient ⟨dbEngineInit, stats⟩ db chunks
    let executed := dbExecuteSql dbEngineInit db sql
    client.1.store = executed.1.store ∧ client.2 = queryResponse executed.2 := by
  intro db client executed
  have hsql := requestSql_message hpath hmethod hne hnul hmax hcuts
  have hready := clientsRun_ready files served
  obtain ⟨-, hsome, -⟩ := @apiServerHandleClient_database db stats chunks hready
  obtain ⟨hstore, hsent⟩ := hsome sql hsql
  have hexec := (dbExecuteSql_eq hready.cache sql).2
  have hexecuted := congrArg Prod.fst hexec
  have houtcome := congrArg Prod.snd hexec
  exact ⟨hstore.trans hexecuted.symm, hsent.trans (congrArg queryResponse houtcome.symm)⟩

end

theorem apiServerHandleClient_message_posted :
    let sql := bytes "SELECT * FROM t"
    let client := apiServerHandleClient ⟨dbEngineInit, ⟨4, 0, 4, 0, 16, 16⟩⟩ (.fresh emptyDirectory)
      ((RequestHead.posted.message (queryBody sql)).map fun b => [b])
    client.1.store = (dbExecuteSql dbEngineInit (.fresh emptyDirectory) sql).1.store :=
  (@apiServerHandleClient_message RequestHead.posted (bytes "SELECT * FROM t") _ (by decide)
    (by decide) (by decide) (by decide) (by decide +kernel) (cuts_bytes _) emptyDirectory []
    ⟨4, 0, 4, 0, 16, 16⟩).1

end MiniDbms
