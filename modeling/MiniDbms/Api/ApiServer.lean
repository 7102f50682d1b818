import MiniDbms.Api.HttpParser
import MiniDbms.Common.Buffer

/-!
# How `api_server.c` reads a request

The client's bytes arrive in chunks, one for each call of `recv`; when there are no more, the client
has closed the connection. Neither `recv` nor the allocations fail.
-/

namespace MiniDbms

/-- `API_SERVER_READ_CHUNK` -/
def apiServerReadChunk : Nat := 4096

/-- `API_SERVER_MAX_REQUEST_SIZE` -/
def apiServerMaxRequestSize : Nat := 65536

/-- The value behind `Content-Length:`, blanks being skipped. -/
def contentLengthValue (cursor : CString) : Nat :=
  strtoull ((cursor.drop 15).dropWhile fun b => b == chr ' ' || b == chr '\t')

/-- The loop of `api_server_extract_content_length`. -/
def extractContentLengthLoop : (fuel : Nat) → CString → Nat
  | 0, _             => 0
  | fuel + 1, cursor =>
    match strstr cursor crlf with
    | none         => 0
    | some lineEnd =>
      if lineEnd = cursor then 0
      else if strncasecmp 15 cursor (bytes "Content-Length:") = 0 then contentLengthValue cursor
      else extractContentLengthLoop fuel (lineEnd.drop 2)

/-- `api_server_extract_content_length`: each turn passes a line end, so there are fewer turns than
bytes. -/
def apiServerExtractContentLength (headers : CString) : Nat :=
  extractContentLengthLoop headers.length headers

/-- The variables of `api_server_read_http_request`. -/
structure ReadState where
  buffer : CString
  expectedTotal : Nat
  headerComplete : Bool
  deriving DecidableEq, Repr

/-- What is done with a chunk that fits: it is appended and, as long as the header is not complete,
the end of the header is looked for. -/
def ReadState.receive (state : ReadState) (chunk : CString) : ReadState :=
  let buffer := state.buffer ++ chunk
  if state.headerComplete then { state with buffer }
  else
    match headerLength (cView buffer) with
    | none           => { state with buffer }
    | some headerLen =>
      { buffer
        expectedTotal := toSizeT (headerLen + apiServerExtractContentLength (cView buffer) : Nat)
        headerComplete := true }

/-- The loop of `api_server_read_http_request`. -/
def apiServerReadLoop (state : ReadState) : List CString → Option CString
  | []              => if state.headerComplete then some state.buffer else none
  | chunk :: chunks =>
    if state.buffer.length + chunk.length > apiServerMaxRequestSize then none
    else
      let state := state.receive chunk
      if state.headerComplete ∧ state.expectedTotal ≤ state.buffer.length then some state.buffer
      else apiServerReadLoop state chunks

/-- `api_server_read_http_request`: `none` is `FAILURE`. -/
def apiServerReadHttpRequest (chunks : List CString) : Option CString :=
  apiServerReadLoop { buffer := [], expectedTotal := 0, headerComplete := false } chunks

/-- The request that `api_server_handle_client` hands to the router, `none` standing for the two
answers `400`. -/
def apiServerReceiveRequest (chunks : List CString) : Option HttpRequest :=
  (apiServerReadHttpRequest chunks).bind fun rawRequest => parseHttpRequest (cView rawRequest)

/-! ### The memory of `api_server_append_bytes` -/

/-- `api_server_append_bytes`, `none` being the `NULL` buffer; fresh memory holds what `fresh`
says. -/
def apiServerAppendBytes (fresh : Nat → Byte) (buffer : Option (GrowBuffer Byte))
    (chunk : CString) : GrowBuffer Byte :=
  match buffer with
  | none       =>
    GrowBuffer.write 0 ⟨(List.range (max 1024 (chunk.length + 1))).map fresh, 0⟩ chunk
  | some block => block.append 0 fresh chunk

lemma apiServerAppendBytes_text {buffer : Option (GrowBuffer Byte)}
    (h : ∀ block ∈ buffer, block.Terminated 0) (fresh : Nat → Byte) (chunk : CString) :
    (apiServerAppendBytes fresh buffer chunk).Terminated 0 ∧
      (apiServerAppendBytes fresh buffer chunk).contents = bufferText buffer ++ chunk := by
  cases buffer with
  | none =>
    obtain ⟨hterminated, hcontents, -⟩ := @GrowBuffer.write_spec _ 0
      ⟨(List.range (max 1024 (chunk.length + 1))).map fresh, 0⟩ chunk (by simp)
    exact ⟨hterminated, hcontents⟩
  | some block => exact GrowBuffer.append_spec (h block rfl) fresh chunk

/-- What is read from a block that ends with the terminator is its content. -/
lemma cView_cells {block : GrowBuffer Byte} (h : block.Terminated 0) :
    cView block.cells = cView block.contents := by
  have hsplit : block.cells = block.contents ++ 0 :: block.cells.drop (block.length + 1) := by
    obtain ⟨hlt, hzero⟩ := List.getElem?_eq_some_iff.mp h.terminator
    rw [GrowBuffer.contents, ← hzero, List.cons_getElem_drop_succ, List.take_append_drop]
  rw [hsplit, ← List.singleton_append, ← List.append_assoc, cView_append_of_mem (by simp)]
  by_cases hnul : 0 ∈ block.contents
  · exact cView_append_of_mem hnul [0]
  · rw [cView_eq_self hnul, cView, List.takeWhile_append_of_pos, List.takeWhile_cons_of_neg]
    · simp
    · simp
    · intro b hb
      simpa using fun hzero : b = 0 => hnul (hzero ▸ hb)

/-- The variables of `api_server_read_http_request` with the block behind `buffer`. -/
structure ReadBlock where
  buffer : Option (GrowBuffer Byte)
  expectedTotal : Nat
  headerComplete : Bool

namespace ReadBlock

/-- As `ReadState.receive`, on the block. -/
def receive (fresh : Nat → Byte) (s : ReadBlock) (chunk : CString) : ReadBlock :=
  let block := apiServerAppendBytes fresh s.buffer chunk
  if s.headerComplete then { s with buffer := some block }
  else
    match headerLength (cView block.cells) with
    | none           => { s with buffer := some block }
    | some headerLen =>
      { buffer := some block
        expectedTotal :=
          toSizeT (headerLen + apiServerExtractContentLength (cView block.cells) : Nat)
        headerComplete := true }

/-- As `apiServerReadLoop`, on the block. -/
def readLoop (fresh : Nat → Byte) (s : ReadBlock) : List CString → Option (GrowBuffer Byte)
  | []              => if s.headerComplete then s.buffer else none
  | chunk :: chunks =>
    if (bufferText s.buffer).length + chunk.length > apiServerMaxRequestSize then none
    else
      let s := s.receive fresh chunk
      if s.headerComplete ∧ s.expectedTotal ≤ (bufferText s.buffer).length then s.buffer
      else readLoop fresh s chunks

/-- The text in the block and the other variables. -/
def state (s : ReadBlock) : ReadState := ⟨bufferText s.buffer, s.expectedTotal, s.headerComplete⟩

lemma receive_buffer (fresh : Nat → Byte) (s : ReadBlock) (chunk : CString) :
    (s.receive fresh chunk).buffer = some (apiServerAppendBytes fresh s.buffer chunk) := by
  rw [receive]
  split_ifs
  · rfl
  · cases headerLength (cView (apiServerAppendBytes fresh s.buffer chunk).cells) <;> rfl

lemma receive_terminated {s : ReadBlock} (h : ∀ block ∈ s.buffer, block.Terminated 0)
    (fresh : Nat → Byte) (chunk : CString) :
    ∀ block ∈ (s.receive fresh chunk).buffer, block.Terminated 0 := by
  rw [receive_buffer]
  rintro block ⟨⟩
  exact (apiServerAppendBytes_text h fresh chunk).1

lemma receive_state {s : ReadBlock} (h : ∀ block ∈ s.buffer, block.Terminated 0)
    (fresh : Nat → Byte) (chunk : CString) :
    (s.receive fresh chunk).state = s.state.receive chunk := by
  obtain ⟨hterminated, htext⟩ := apiServerAppendBytes_text h fresh chunk
  obtain ⟨buffer, expectedTotal, headerComplete⟩ := s
  have hblock : bufferText (some (apiServerAppendBytes fresh buffer chunk)) =
      bufferText buffer ++ chunk := htext
  cases headerComplete with
  | true => simp [receive, ReadState.receive, state, hblock]
  | false =>
    simp only [receive, ReadState.receive, state, cView_cells hterminated, htext]
    cases headerLength (cView (bufferText buffer ++ chunk)) <;> simp [hblock]

/-- The block holds what the loop reads, with the terminator behind it. -/
lemma readLoop_spec (fresh : Nat → Byte) {s : ReadBlock}
    (h : ∀ block ∈ s.buffer, block.Terminated 0)
    (hcomplete : s.headerComplete = true → s.buffer.isSome) (chunks : List CString) :
    (s.readLoop fresh chunks).map GrowBuffer.contents = apiServerReadLoop s.state chunks ∧
      ∀ block ∈ s.readLoop fresh chunks, block.Terminated 0 := by
  have hbuffer : ∀ {s : ReadBlock}, s.buffer.isSome →
      s.buffer.map GrowBuffer.contents = some (bufferText s.buffer) := by
    intro s hsome
    obtain ⟨block, hblock⟩ := Option.isSome_iff_exists.mp hsome
    simp [hblock, bufferText]
  induction chunks generalizing s with
  | nil =>
    rw [readLoop, apiServerReadLoop]
    by_cases hheader : s.state.headerComplete = true
    · rw [if_pos hheader, if_pos (show s.headerComplete = true from hheader)]
      exact ⟨hbuffer (hcomplete hheader), h⟩
    · rw [if_neg hheader, if_neg (show ¬ s.headerComplete = true from hheader)]
      exact ⟨rfl, by simp⟩
  | cons chunk chunks ih =>
    have hterminated := receive_terminated h fresh chunk
    have hsome : (s.receive fresh chunk).buffer.isSome := by simp [receive_buffer]
    rw [readLoop, apiServerReadLoop, ← receive_state h fresh chunk]
    by_cases hlarge : s.state.buffer.length + chunk.length > apiServerMaxRequestSize
    · rw [if_pos hlarge, if_pos (show (bufferText s.buffer).length + _ > _ from hlarge)]
      exact ⟨rfl, by simp⟩
    rw [if_neg hlarge, if_neg (show ¬ (bufferText s.buffer).length + _ > _ from hlarge)]
    set received := s.receive fresh chunk
    by_cases hends : received.state.headerComplete = true ∧
        received.state.expectedTotal ≤ received.state.buffer.length
    · rw [if_pos hends, if_pos (show received.headerComplete = true ∧
        received.expectedTotal ≤ (bufferText received.buffer).length from hends)]
      exact ⟨hbuffer hsome, hterminated⟩
    · rw [if_neg hends, if_neg (show ¬ (received.headerComplete = true ∧
        received.expectedTotal ≤ (bufferText received.buffer).length) from hends)]
      exact ih hterminated fun _ => hsome

/-- The request is parsed out of the block, whatever fresh memory holds. -/
lemma apiServerReceiveRequest_eq (fresh : Nat → Byte) (chunks : List CString) :
    apiServerReceiveRequest chunks = (readLoop fresh ⟨none, 0, false⟩ chunks).bind
      fun block => parseHttpRequest (cView block.cells) := by
  obtain ⟨hread, hterminated⟩ := @readLoop_spec fresh ⟨none, 0, false⟩ (by simp) (by simp) chunks
  rw [apiServerReceiveRequest, apiServerReadHttpRequest]
  change (apiServerReadLoop (state ⟨none, 0, false⟩) chunks).bind _ = _
  rw [← hread]
  cases hblock : readLoop fresh ⟨none, 0, false⟩ chunks with
  | none => rfl
  | some block =>
    rw [Option.map_some, Option.bind_some, Option.bind_some, cView_cells (hterminated block hblock)]

end ReadBlock

/-! ### The length of the content -/

/-- The rest of a header in front of one of its lines. -/
def HeaderRest (s : CString) : Prop := s = crlf ∨ headerEnd <:+ s

lemma HeaderRest.ends {s : CString} (h : HeaderRest s) : ∃ t, s = t ++ [chr '\n'] := by
  rcases h with rfl | ⟨t, rfl⟩
  · exact ⟨[chr '\r'], rfl⟩
  · exact ⟨t ++ bytes "\r\n\r", by rw [List.append_assoc]; rfl⟩

lemma HeaderRest.crlf_infix {s : CString} (h : HeaderRest s) : crlf <:+: s := by
  rcases h with rfl | h
  · exact List.infix_refl _
  · exact (show crlf <:+: headerEnd from ⟨[], crlf, rfl⟩).trans h.isInfix

/-- Behind a line that is not empty there are more lines. -/
lemma HeaderRest.next {s line : CString} (h : HeaderRest s)
    (hline : strstr s crlf = some (crlf ++ line)) (hne : crlf ++ line ≠ s) : HeaderRest line := by
  rcases h with rfl | h
  · rw [strstr_of_begins (List.prefix_refl _)] at hline
    exact absurd (Option.some.inj hline).symm hne
  · have hle := strstr_first hline (show crlf <+: headerEnd from ⟨crlf, rfl⟩) h
    have hsuffix := List.suffix_of_suffix_length_le h (strstr_eq_some hline).2 hle
    -- the blank line does not begin with the second byte of a line end
    rcases List.suffix_cons_iff.mp hsuffix with hlast | hsuffix
    · exact Or.inl (@List.append_cancel_left _ crlf _ _ hlast.symm)
    · rcases List.suffix_cons_iff.mp hsuffix with hshift | hsuffix
      · exact absurd (List.cons.inj hshift).1 (by decide)
      · exact Or.inr hsuffix

lemma contentLengthValue_append {s : CString} (hs : HeaderRest s)
    (hkey : strncasecmp 15 s (bytes "Content-Length:") = 0) (t : CString) :
    contentLengthValue (s ++ t) = contentLengthValue s ∨ contentLengthValue s = 0 := by
  obtain ⟨p, rest, rfl, hp⟩ := @strncasecmp_eq_zero _ (bytes "Content-Length:") hkey
  have hlength : p.length = 15 := by
    rw [← List.length_map tolower, hp]
    rfl
  obtain ⟨u, hu⟩ := hs.ends
  -- the key holds no line end, so that of the line is behind it
  obtain ⟨v, rfl⟩ : ∃ v, rest = v ++ [chr '\n'] := by
    rcases List.eq_nil_or_concat rest with rfl | ⟨v, b, rfl⟩
    · have hmem : tolower (chr '\n') ∈ (bytes "Content-Length:").map tolower := by
        rw [← hp, ← List.append_nil p, hu]
        simp
      exact absurd hmem (by decide)
    · rw [List.concat_eq_append, ← List.append_assoc] at hu
      rw [List.concat_eq_append]
      exact ⟨v, by rw [(List.append_inj' hu rfl).2]⟩
  have hblank : (chr '\n' == chr ' ' || chr '\n' == chr '\t') = false := rfl
  have hskip : ∀ w : CString, ((v ++ [chr '\n']) ++ w).dropWhile
      (fun b => b == chr ' ' || b == chr '\t') =
        v.dropWhile (fun b => b == chr ' ' || b == chr '\t') ++ [chr '\n'] ++ w := by
    intro w
    rw [List.append_assoc, List.dropWhile_append]
    split_ifs with hempty
    · rw [List.isEmpty_iff.mp hempty]
      exact List.dropWhile_cons_of_neg (by rw [hblank]; simp)
    · rw [List.append_assoc]
  rw [contentLengthValue, contentLengthValue, List.append_assoc, List.drop_left' hlength,
    List.drop_left' hlength, hskip t, ← List.append_nil (v ++ [chr '\n']), hskip [],
    List.append_nil]
  exact strtoull_append rfl t

/-- What follows the header is read as a part of the value at most when the value is blank, which
counts as `0` without it. -/
lemma extractContentLengthLoop_append {s : CString} (hs : HeaderRest s) (t : CString)
    {fuel fuel' : Nat} (hfuel : s.length ≤ fuel) (hfuel' : s.length ≤ fuel') :
    extractContentLengthLoop fuel' (s ++ t) = extractContentLengthLoop fuel s ∨
      extractContentLengthLoop fuel s = 0 := by
  induction fuel generalizing s fuel' with
  | zero => exact Or.inr rfl
  | succ fuel ih =>
    cases fuel' with
    | zero =>
      obtain ⟨u, rfl⟩ := hs.ends
      exact absurd hfuel' (by simp)
    | succ fuel' =>
      obtain ⟨lineEnd, hlineEnd⟩ := strstr_of_infix hs.crlf_infix
      obtain ⟨⟨line, rfl⟩, ⟨p, rfl⟩⟩ := strstr_eq_some hlineEnd
      have hlength : line.length < (p ++ (crlf ++ line)).length := by
        rw [List.length_append, List.length_append, show crlf.length = 2 from rfl]
        omega
      have hcompare : strncasecmp 15 (p ++ (crlf ++ line) ++ t) (bytes "Content-Length:") =
          strncasecmp 15 (p ++ (crlf ++ line)) (bytes "Content-Length:") := by
        have hkey : ∀ b ∈ bytes "Content-Length:", tolower b ≠ tolower (chr '\r') :=
          forall_mem_of_all rfl
        rw [List.append_assoc]
        exact (@strncasecmp_append p _ _ (chr '\n' :: (line ++ t)) hkey).trans
          (@strncasecmp_append p _ _ (chr '\n' :: line) hkey).symm
      rw [extractContentLengthLoop, extractContentLengthLoop, hlineEnd,
        strstr_append hlineEnd t]
      simp only [List.append_left_inj, hcompare]
      split_ifs with hempty hkey
      · exact Or.inr rfl
      · -- the value ends before the header does, and so does what is skipped before it
        exact contentLengthValue_append hs hkey t
      · exact ih (hs.next hlineEnd hempty) (by omega) (by omega)

/-- The length that is read behind a header, compared with the one the header itself holds. -/
lemma apiServerExtractContentLength_append {s : CString} {n : Nat} (h : headerLength s = some n)
    (hlength : s.length = n) (t : CString) :
    apiServerExtractContentLength (s ++ t) = apiServerExtractContentLength s ∨
      apiServerExtractContentLength s = 0 := by
  have hs : HeaderRest s := by
    rw [headerLength, Option.map_eq_some_iff] at h
    obtain ⟨found, hfound, hn⟩ := h
    obtain ⟨hneedle, hsuffix⟩ := strstr_eq_some hfound
    have hfour : found.length = headerEnd.length := by
      have hle := hsuffix.length_le
      rw [show headerEnd.length = 4 from rfl]
      omega
    exact Or.inr ((hneedle.eq_of_length hfour.symm) ▸ hsuffix)
  exact extractContentLengthLoop_append hs t le_rfl (by simp)

end MiniDbms
