import MiniDbms.Api.ApiServer

/-!
# The body of a request

The request that reaches the router is compared with the stream of bytes the client has sent, over
all the ways in which `recv` cuts it.
-/

namespace MiniDbms

/-- The chunks into which `recv` may cut the bytes that a client sends before it closes. -/
def Cuts (stream : CString) (chunks : List CString) : Prop :=
  chunks.flatten = stream ∧ ∀ chunk ∈ chunks, chunk ≠ [] ∧ chunk.length ≤ apiServerReadChunk

/-- The length of the content that the header of `n` bytes states. -/
def contentLength (stream : CString) (n : Nat) : Nat :=
  apiServerExtractContentLength (stream.take n)

/-- `expected_total` when the header alone is searched for the length of the content. -/
def expectedLength (stream : CString) (n : Nat) : Nat :=
  toSizeT (n + contentLength stream n : Nat)

/-- Bytes of the stream up to where reading may stop at the earliest. -/
def stopLength (stream : CString) (n : Nat) : Nat :=
  min (max n (expectedLength stream n)) stream.length

/-! ### One chunk -/

/-- The variables after the bytes in the buffer, `n` being the length of the header. -/
structure ReadState.Of (stream : CString) (n : Nat) (state : ReadState) : Prop where
  begins : state.buffer <+: stream
  complete : state.headerComplete = decide (n ≤ state.buffer.length)
  expected : n ≤ state.buffer.length → ∃ v, v <+: stream ∧ n ≤ v.length ∧
    v.length ≤ state.buffer.length ∧
    state.expectedTotal = toSizeT (n + apiServerExtractContentLength v : Nat)

section

variable {stream : CString} {n : Nat} {state : ReadState}

lemma nul_notMem_of_begins {u : CString} (hnul : 0 ∉ stream) (hu : u <+: stream) : 0 ∉ u :=
  fun h => hnul (hu.subset h)

lemma headerLength_of_begins {u : CString} (hn : headerLength stream = some n)
    (hu : u <+: stream) : headerLength u = if n ≤ u.length then some n else none := by
  obtain ⟨t, rfl⟩ := hu
  exact headerLength_of_append hn

lemma apiServerReadLoop_cons (state : ReadState) (chunk : CString) (chunks : List CString) :
    apiServerReadLoop state (chunk :: chunks) =
      if state.buffer.length + chunk.length > apiServerMaxRequestSize then none
      else if (state.receive chunk).headerComplete ∧
          (state.receive chunk).expectedTotal ≤ (state.receive chunk).buffer.length then
        some (state.receive chunk).buffer
      else apiServerReadLoop (state.receive chunk) chunks := rfl

lemma receive_buffer (state : ReadState) (chunk : CString) :
    (state.receive chunk).buffer = state.buffer ++ chunk := by
  rw [ReadState.receive]
  split_ifs
  · rfl
  · cases headerLength (cView (state.buffer ++ chunk)) <;> rfl

/-- The header is searched as long as it is not complete. -/
lemma ReadState.Of.receive (h : state.Of stream n) (hn : headerLength stream = some n)
    (hnul : 0 ∉ stream) {chunk : CString} (hchunk : state.buffer ++ chunk <+: stream) :
    (state.receive chunk).Of stream n ∧
      (n ≤ state.buffer.length → (state.receive chunk).expectedTotal = state.expectedTotal) ∧
      (state.buffer.length < n → n ≤ (state.buffer ++ chunk).length →
        (state.receive chunk).expectedTotal =
          toSizeT (n + apiServerExtractContentLength (state.buffer ++ chunk) : Nat)) := by
  have hle : state.buffer.length ≤ (state.buffer ++ chunk).length := by simp
  have hheader := headerLength_of_begins hn hchunk
  have hbegins : (state.receive chunk).buffer <+: stream := receive_buffer state chunk ▸ hchunk
  rcases le_or_gt n state.buffer.length with hcomplete | hincomplete
  · have hflag : state.headerComplete = true := by rw [h.complete, decide_eq_true hcomplete]
    have hreceive : state.receive chunk = { state with buffer := state.buffer ++ chunk } := by
      rw [ReadState.receive, if_pos hflag]
    obtain ⟨v, hv, hvn, hvle, hvexpected⟩ := h.expected hcomplete
    refine ⟨⟨hbegins, ?_, fun _ => ⟨v, hv, hvn, ?_, ?_⟩⟩, fun _ => ?_, fun hlt => ?_⟩
    · rw [receive_buffer, decide_eq_true (hcomplete.trans hle), hreceive, ← hflag]
    · rw [receive_buffer]
      exact hvle.trans hle
    · rw [hreceive, ← hvexpected]
    · rw [hreceive]
    · omega
  · have hflag : ¬ state.headerComplete = true := by
      rw [h.complete, decide_eq_true_eq]
      omega
    rcases le_or_gt n (state.buffer ++ chunk).length with hnow | hlater
    · have hreceive : state.receive chunk = ⟨state.buffer ++ chunk,
          toSizeT (n + apiServerExtractContentLength (state.buffer ++ chunk) : Nat), true⟩ := by
        rw [ReadState.receive, if_neg hflag]
        simp only [cView_eq_self (nul_notMem_of_begins hnul hchunk), hheader, if_pos hnow]
      refine ⟨⟨hbegins, ?_, fun _ => ⟨_, hchunk, hnow, ?_, ?_⟩⟩, fun hge => ?_, fun _ _ => ?_⟩
      · rw [receive_buffer, decide_eq_true hnow, hreceive]
      · rw [receive_buffer]
      · rw [hreceive]
      · omega
      · rw [hreceive]
    · have hreceive : state.receive chunk = { state with buffer := state.buffer ++ chunk } := by
        rw [ReadState.receive, if_neg hflag]
        simp only [cView_eq_self (nul_notMem_of_begins hnul hchunk), hheader,
          if_neg (not_le.mpr hlater)]
      refine ⟨⟨hbegins, ?_, fun hge => ?_⟩, fun _ => ?_, fun _ hge => ?_⟩
      · rw [receive_buffer, decide_eq_false (not_le.mpr hlater), hreceive, ← Bool.not_eq_true]
        exact hflag
      · rw [receive_buffer] at hge
        omega
      · rw [hreceive]
      · omega

/-- Where reading stops: at the end of the stream or past the expected length. -/
lemma ReadState.Of.stops (h : state.Of stream n) (hn : headerLength stream = some n)
    (hcomplete : n ≤ state.buffer.length) (hmax : state.buffer.length ≤ apiServerMaxRequestSize)
    (hstop : state.expectedTotal ≤ state.buffer.length) :
    expectedLength stream n ≤ state.buffer.length := by
  obtain ⟨v, ⟨t, ht⟩, hvn, -, hvexpected⟩ := h.expected hcomplete
  have hlength : (stream.take n).length = n := by
    rw [List.length_take, min_eq_left (headerLength_le hn).2]
  have hheader : headerLength (stream.take n) = some n := by
    rw [headerLength_of_begins hn (List.take_prefix n stream), if_pos hlength.ge]
  have hv : v = stream.take n ++ v.drop n := by
    rw [← ht, List.take_append_of_le_length hvn, List.take_append_drop]
  rw [expectedLength, contentLength]
  rcases apiServerExtractContentLength_append hheader hlength (v.drop n) with heq | hzero
  · rw [← hv] at heq
    rwa [← heq, ← hvexpected]
  · rw [hzero, toSizeT]
    rw [apiServerMaxRequestSize] at hmax
    omega

/-! ### Every cutting -/

/-- What is read consists of whole chunks, and reading does not stop too early. -/
lemma apiServerReadLoop_some {rawRequest : CString} {chunks : List CString}
    (hn : headerLength stream = some n) (hnul : 0 ∉ stream) (h : state.Of stream n)
    (hmax : state.buffer.length ≤ apiServerMaxRequestSize)
    (hchunks : state.buffer ++ chunks.flatten = stream)
    (hread : apiServerReadLoop state chunks = some rawRequest) :
    (∃ k, rawRequest = state.buffer ++ (chunks.take k).flatten) ∧
      rawRequest.length ≤ apiServerMaxRequestSize ∧ n ≤ rawRequest.length ∧
      (rawRequest = stream ∨ expectedLength stream n ≤ rawRequest.length) := by
  induction chunks generalizing state with
  | nil =>
    rw [apiServerReadLoop] at hread
    split_ifs at hread with hcomplete
    cases hread
    rw [h.complete, decide_eq_true_eq] at hcomplete
    rw [List.flatten_nil, List.append_nil] at hchunks
    exact ⟨⟨0, by simp⟩, hmax, hcomplete, Or.inl hchunks⟩
  | cons chunk chunks ih =>
    rw [List.flatten_cons, ← List.append_assoc] at hchunks
    obtain ⟨hof, -⟩ := h.receive hn hnul (hchunks ▸ List.prefix_append _ chunks.flatten)
    rw [apiServerReadLoop_cons] at hread
    split_ifs at hread with hlarge hstop
    · cases hread
      have hfits : (state.receive chunk).buffer.length ≤ apiServerMaxRequestSize := by
        rw [receive_buffer, List.length_append]
        exact not_lt.mp hlarge
      rw [hof.complete, decide_eq_true_eq] at hstop
      exact ⟨⟨1, by simp [receive_buffer]⟩, hfits, hstop.1,
        Or.inr (hof.stops hn hstop.1 hfits hstop.2)⟩
    · rw [← receive_buffer] at hchunks
      obtain ⟨⟨k, hk⟩, hrest⟩ := ih hof (by
        rw [receive_buffer, List.length_append]
        exact not_lt.mp hlarge) hchunks hread
      refine ⟨⟨k + 1, ?_⟩, hrest⟩
      rw [hk, receive_buffer, List.take_succ_cons, List.flatten_cons, List.append_assoc]

/-- A stream that is not too long and has a header is read in every cutting. -/
lemma apiServerReadLoop_isSome {chunks : List CString}
    (hn : headerLength stream = some n) (hnul : 0 ∉ stream) (h : state.Of stream n)
    (hmax : stream.length ≤ apiServerMaxRequestSize)
    (hchunks : state.buffer ++ chunks.flatten = stream) :
    ∃ rawRequest, apiServerReadLoop state chunks = some rawRequest := by
  induction chunks generalizing state with
  | nil =>
    rw [List.flatten_nil, List.append_nil] at hchunks
    rw [apiServerReadLoop, h.complete, hchunks, if_pos (decide_eq_true (headerLength_le hn).2)]
    exact ⟨_, rfl⟩
  | cons chunk chunks ih =>
    rw [List.flatten_cons, ← List.append_assoc] at hchunks
    obtain ⟨hof, -⟩ := h.receive hn hnul (hchunks ▸ List.prefix_append _ chunks.flatten)
    have hfits : ¬ state.buffer.length + chunk.length > apiServerMaxRequestSize := by
      rw [← hchunks, List.length_append, List.length_append] at hmax
      omega
    rw [apiServerReadLoop_cons, if_neg hfits]
    by_cases hstop : (state.receive chunk).headerComplete ∧
        (state.receive chunk).expectedTotal ≤ (state.receive chunk).buffer.length
    · exact ⟨_, if_pos hstop⟩
    · rw [← receive_buffer] at hchunks
      obtain ⟨rawRequest, hread⟩ := ih hof hchunks
      exact ⟨rawRequest, (if_neg hstop).trans hread⟩

/-- Without a header nothing is read. -/
lemma apiServerReadLoop_none {chunks : List CString} (hn : headerLength stream = none)
    (hnul : 0 ∉ stream) (hstate : state.headerComplete = false)
    (hchunks : state.buffer ++ chunks.flatten = stream) :
    apiServerReadLoop state chunks = none := by
  induction chunks generalizing state with
  | nil => rw [apiServerReadLoop, hstate]; rfl
  | cons chunk chunks ih =>
    rw [List.flatten_cons, ← List.append_assoc] at hchunks
    have hnone : headerLength (state.buffer ++ chunk) = none := by
      rw [Option.eq_none_iff_forall_ne_some]
      intro m hm
      have hlonger := headerLength_append hm chunks.flatten
      rw [hchunks, hn] at hlonger
      cases hlonger
    have hreceive : state.receive chunk = { state with buffer := state.buffer ++ chunk } := by
      have hbegins : 0 ∉ state.buffer ++ chunk :=
        nul_notMem_of_begins hnul (hchunks ▸ List.prefix_append _ chunks.flatten)
      rw [ReadState.receive, if_neg (by rw [hstate]; simp)]
      simp only [cView_eq_self hbegins, hnone]
    rw [apiServerReadLoop_cons]
    split_ifs with hlarge hstop
    · rfl
    · rw [hreceive, hstate] at hstop
      exact absurd hstop.1 Bool.false_ne_true
    · rw [hreceive]
      exact ih hstate hchunks

/-! ### Byte by byte -/

/-- Reading byte by byte stops at the earliest possible byte. -/
lemma apiServerReadLoop_bytes {rest : CString} (hn : headerLength stream = some n)
    (hnul : 0 ∉ stream) (h : state.Of stream n)
    (hexact : n ≤ state.buffer.length → state.expectedTotal = expectedLength stream n)
    (hbefore : state.buffer.length < max n (expectedLength stream n))
    (hmax : stopLength stream n ≤ apiServerMaxRequestSize) (hrest : state.buffer ++ rest = stream) :
    apiServerReadLoop state (rest.map fun b => [b]) = some (stream.take (stopLength stream n)) := by
  induction rest generalizing state with
  | nil =>
    rw [List.append_nil] at hrest
    have hall : stopLength stream n = stream.length := by
      rw [stopLength, min_eq_right]
      rw [← hrest]
      exact hrest ▸ hbefore.le
    rw [List.map_nil, apiServerReadLoop, h.complete, hrest,
      if_pos (decide_eq_true (headerLength_le hn).2), hall, List.take_length]
  | cons b rest ih =>
    have hlength : (state.buffer ++ [b]).length = state.buffer.length + 1 := by simp
    have hsplit : state.buffer ++ [b] ++ rest = stream := by
      rw [← hrest, List.append_assoc, List.singleton_append]
    have hbegins : state.buffer ++ [b] <+: stream := ⟨rest, hsplit⟩
    have hroom : state.buffer.length + 1 ≤ stopLength stream n := by
      have hle := hbegins.length_le
      rw [stopLength]
      omega
    obtain ⟨hof, hkept, hfound⟩ := h.receive hn hnul hbegins
    -- the header is complete with its last byte, and nothing behind it is searched
    have hexact' : n ≤ (state.receive [b]).buffer.length →
        (state.receive [b]).expectedTotal = expectedLength stream n := by
      intro hge
      rw [receive_buffer, hlength] at hge
      rcases Nat.lt_or_ge state.buffer.length n with hlt | hge'
      · have htake : state.buffer ++ [b] = stream.take n := by
          rw [List.prefix_iff_eq_take.mp hbegins, hlength]
          congr 1
          omega
        rw [hfound hlt (by omega), htake, expectedLength, contentLength]
      · rw [hkept hge', hexact hge']
    rw [List.map_cons, apiServerReadLoop_cons, if_neg (by rw [List.length_singleton]; omega)]
    by_cases hstop : (state.receive [b]).headerComplete ∧
        (state.receive [b]).expectedTotal ≤ (state.receive [b]).buffer.length
    · have hcomplete := hstop.1
      rw [hof.complete, decide_eq_true_eq] at hcomplete
      have hexpected := hstop.2
      rw [hexact' hcomplete, receive_buffer, hlength] at hexpected
      rw [receive_buffer, hlength] at hcomplete
      have hstops : stopLength stream n = (state.buffer ++ [b]).length := by
        have hle := hbegins.length_le
        rw [stopLength] at hroom ⊢
        omega
      refine (if_pos hstop).trans ?_
      rw [receive_buffer, hstops, ← List.prefix_iff_eq_take.mp hbegins]
    · refine (if_neg hstop).trans (ih hof hexact' ?_ ?_)
      · rw [hof.complete, decide_eq_true_eq, receive_buffer, hlength] at hstop
        rw [receive_buffer, hlength]
        by_contra hlarge
        have hge : n ≤ state.buffer.length + 1 := by omega
        rw [hexact' (by rw [receive_buffer, hlength]; exact hge)] at hstop
        exact hstop ⟨hge, by omega⟩
      · rw [receive_buffer, hsplit]

end

/-! ### The body -/

/-- In every cutting the body, if the request reaches the router, is as many bytes behind the header
as it states, and the outcome is that of all other cuttings. -/
def BodyIsContent (stream : CString) : Prop :=
  (∀ chunks, Cuts stream chunks → ∀ request, apiServerReceiveRequest chunks = some request →
    ∃ n, headerLength stream = some n ∧ request.body <+: stream.drop n ∧
      request.body.length = contentLength stream n) ∧
  ∀ chunks chunks', Cuts stream chunks → Cuts stream chunks' →
    apiServerReceiveRequest chunks = apiServerReceiveRequest chunks'

section

variable {stream : CString} {n : Nat}

lemma ReadState.Of.initial (hn : headerLength stream = some n) :
    ReadState.Of stream n ⟨[], 0, false⟩ where
  begins := List.nil_prefix
  complete := (decide_eq_false (by have := (headerLength_le hn).1; simp; omega)).symm
  expected h := absurd h (by have := (headerLength_le hn).1; simp; omega)

lemma parseHttpRequest_of_begins {rawRequest : CString} (hn : headerLength stream = some n)
    (hnul : 0 ∉ stream) (hbegins : rawRequest <+: stream) (hle : n ≤ rawRequest.length) :
    (parseHttpRequest (cView rawRequest)).map HttpRequest.body =
      (parseRequestLine stream).map fun _ => rawRequest.drop n := by
  have hheader := headerLength_of_begins hn hbegins
  rw [if_pos hle] at hheader
  rw [cView_eq_self (nul_notMem_of_begins hnul hbegins), parseHttpRequest_body hheader]
  obtain ⟨t, rfl⟩ := hbegins
  rw [parseRequestLine_append hheader]

/-- What is read in some cutting. -/
lemma apiServerReadHttpRequest_some {chunks : List CString} {rawRequest : CString}
    (hn : headerLength stream = some n) (hnul : 0 ∉ stream) (hcuts : Cuts stream chunks)
    (hread : apiServerReadHttpRequest chunks = some rawRequest) :
    (∃ k, rawRequest = (chunks.take k).flatten) ∧ rawRequest <+: stream ∧ n ≤ rawRequest.length ∧
      rawRequest.length ≤ apiServerMaxRequestSize ∧ stopLength stream n ≤ rawRequest.length := by
  obtain ⟨⟨k, hk⟩, hmax, hle, hstop⟩ := apiServerReadLoop_some hn hnul (.initial hn)
    (Nat.zero_le _) hcuts.1 hread
  have hbegins : rawRequest <+: stream := by
    rw [hk, ← hcuts.1, List.nil_append]
    nth_rewrite 2 [← List.take_append_drop k chunks]
    rw [List.flatten_append]
    exact List.prefix_append _ _
  refine ⟨⟨k, hk⟩, hbegins, hle, hmax, ?_⟩
  rw [stopLength]
  rcases hstop with rfl | hexpected
  · exact min_le_right _ _
  · exact (min_le_left _ _).trans (max_le hle hexpected)

/-- What reaches the router is what follows the header in what has been read. -/
lemma apiServerReceiveRequest_some {chunks : List CString} {request : HttpRequest}
    (hn : headerLength stream = some n) (hnul : 0 ∉ stream) (hcuts : Cuts stream chunks)
    (hrequest : apiServerReceiveRequest chunks = some request) :
    (parseRequestLine stream).isSome ∧ ∃ rawRequest,
      apiServerReadHttpRequest chunks = some rawRequest ∧ request.body = rawRequest.drop n := by
  rw [apiServerReceiveRequest, Option.bind_eq_some_iff] at hrequest
  obtain ⟨rawRequest, hread, hparse⟩ := hrequest
  obtain ⟨-, hbegins, hle, -⟩ := apiServerReadHttpRequest_some hn hnul hcuts hread
  have hbody := parseHttpRequest_of_begins hn hnul hbegins hle
  rw [hparse, Option.map_some] at hbody
  obtain ⟨line, hline, hdrop⟩ := Option.map_eq_some_iff.mp hbody.symm
  exact ⟨by rw [hline]; rfl, rawRequest, hread, hdrop.symm⟩

/-- Without a header no request reaches the router. -/
lemma apiServerReceiveRequest_none {chunks : List CString} (hn : headerLength stream = none)
    (hnul : 0 ∉ stream) (hcuts : Cuts stream chunks) :
    apiServerReceiveRequest chunks = none := by
  rw [apiServerReceiveRequest, apiServerReadHttpRequest,
    apiServerReadLoop_none hn hnul rfl (by rw [← hcuts.1]; rfl)]
  rfl

/-- A stream of exactly the stated length is read to its end in every cutting. -/
lemma apiServerReceiveRequest_exact {chunks : List CString} (hn : headerLength stream = some n)
    (hnul : 0 ∉ stream) (hcuts : Cuts stream chunks)
    (hlength : stream.length = n + contentLength stream n)
    (hmax : stream.length ≤ apiServerMaxRequestSize) :
    apiServerReceiveRequest chunks = parseHttpRequest stream := by
  obtain ⟨rawRequest, hread⟩ := apiServerReadLoop_isSome hn hnul (.initial hn) hmax hcuts.1
  obtain ⟨-, hbegins, -, -, hstop⟩ := apiServerReadHttpRequest_some hn hnul hcuts hread
  have hwhole : stopLength stream n = stream.length := by
    rw [stopLength, expectedLength, ← hlength, toSizeT]
    rw [apiServerMaxRequestSize] at hmax
    omega
  have hall : rawRequest = stream :=
    hbegins.eq_of_length (le_antisymm hbegins.length_le (hwhole ▸ hstop))
  rw [apiServerReceiveRequest, apiServerReadHttpRequest, hread, hall]
  exact congrArg parseHttpRequest (cView_eq_self hnul)

/-- Byte by byte, a request that is allowed to reach the router does so as soon as possible. -/
lemma apiServerReceiveRequest_bytes (hn : headerLength stream = some n) (hnul : 0 ∉ stream)
    (hline : (parseRequestLine stream).isSome)
    (hmax : stopLength stream n ≤ apiServerMaxRequestSize) :
    ∃ request, apiServerReceiveRequest (stream.map fun b => [b]) = some request ∧
      request.body = (stream.take (stopLength stream n)).drop n := by
  have hread : apiServerReadHttpRequest (stream.map fun b => [b]) =
      some (stream.take (stopLength stream n)) := by
    refine apiServerReadLoop_bytes hn hnul (.initial hn) (fun h => ?_) ?_ hmax rfl
    · exact absurd ((headerLength_le hn).1.trans h) (by simp)
    · exact lt_max_of_lt_left (lt_of_lt_of_le (by simp) (headerLength_le hn).1)
  have hle : n ≤ (stream.take (stopLength stream n)).length := by
    have hwhole := (headerLength_le hn).2
    rw [List.length_take, stopLength]
    omega
  have hbody := parseHttpRequest_of_begins hn hnul (List.take_prefix _ stream) hle
  obtain ⟨line, hline⟩ := Option.isSome_iff_exists.mp hline
  rw [hline, Option.map_some, Option.map_eq_some_iff] at hbody
  obtain ⟨request, hparse, hrequest⟩ := hbody
  refine ⟨request, ?_, hrequest⟩
  rw [apiServerReceiveRequest, hread]
  exact hparse

lemma cuts_bytes (stream : CString) : Cuts stream (stream.map fun b => [b]) := by
  refine ⟨?_, fun chunk hchunk => ?_⟩
  · rw [← List.flatMap_def, List.flatMap_singleton']
  · obtain ⟨b, -, rfl⟩ := List.mem_map.mp hchunk
    exact ⟨List.cons_ne_nil _ _, by rw [apiServerReadChunk, List.length_singleton]; omega⟩

/-- Two neighbouring bytes may arrive in one chunk. -/
lemma exists_cuts_across {m : Nat} (hpos : 0 < m) (hm : m < stream.length) :
    ∃ chunks, Cuts stream chunks ∧ ∀ k, (chunks.take k).flatten.length ≠ m := by
  have hpair : ((stream.drop (m - 1)).take 2).length = 2 := by
    rw [List.length_take, List.length_drop]
    omega
  have hbefore := cuts_bytes (stream.take (m - 1))
  have hafter := cuts_bytes (stream.drop (m + 1))
  refine ⟨(stream.take (m - 1)).map (fun b => [b]) ++ (stream.drop (m - 1)).take 2 ::
    (stream.drop (m + 1)).map (fun b => [b]), ⟨?_, fun chunk hchunk => ?_⟩, fun k => ?_⟩
  · have hsplit : stream.drop (m + 1) = (stream.drop (m - 1)).drop 2 := by
      rw [List.drop_drop]
      congr 1
      omega
    rw [List.flatten_append, List.flatten_cons, hbefore.1, hafter.1, hsplit,
      List.take_append_drop, List.take_append_drop]
  · rcases List.mem_append.mp hchunk with hchunk | hchunk
    · exact hbefore.2 chunk hchunk
    · rcases List.mem_cons.mp hchunk with rfl | hchunk
      · exact ⟨List.ne_nil_of_length_pos (by rw [hpair]; omega),
          by rw [hpair, apiServerReadChunk]; omega⟩
      · exact hafter.2 chunk hchunk
  · have hlength : ((stream.take (m - 1)).map fun b => [b]).length = m - 1 := by
      rw [List.length_map, List.length_take]
      omega
    rcases Nat.lt_or_ge (m - 1) k with hlarge | hsmall
    · obtain ⟨j, rfl⟩ : ∃ j, k = m - 1 + (j + 1) := ⟨k - m, by omega⟩
      rw [List.take_append, hlength, List.take_of_length_le (by omega), Nat.add_sub_cancel_left,
        List.flatten_append, hbefore.1, List.take_succ_cons, List.flatten_cons,
        List.length_append, List.length_append, hpair, List.length_take]
      omega
    · rw [List.take_append_of_le_length (by rw [hlength]; exact hsmall), ← List.map_take,
        (cuts_bytes _).1, List.length_take, List.length_take]
      omega

/-- The body is what the header states, in every cutting, exactly when the stream ends where the
header says, unless the request is refused in every cutting anyway. -/
theorem bodyIsContent_iff (hnul : 0 ∉ stream) :
    BodyIsContent stream ↔ ∀ n, headerLength stream = some n →
      (parseRequestLine stream).isSome → stopLength stream n ≤ apiServerMaxRequestSize →
        stream.length = n + contentLength stream n ∧ stream.length ≤ apiServerMaxRequestSize := by
  constructor
  · rintro ⟨hbody, hsame⟩ n hn hline hmax
    obtain ⟨request, hrequest, hdrop⟩ := apiServerReceiveRequest_bytes hn hnul hline hmax
    obtain ⟨n', hn', -, hlength⟩ := hbody _ (cuts_bytes stream) request hrequest
    cases hn.symm.trans hn'
    have hwhole := (headerLength_le hn).2
    rw [hdrop, List.length_drop, List.length_take] at hlength
    have hstop : stopLength stream n = stream.length := by
      by_contra hne
      have hlt : stopLength stream n < stream.length :=
        lt_of_le_of_ne (min_le_right _ _) hne
      have hge : n ≤ stopLength stream n := le_min (le_max_left _ _) hwhole
      have hpos := (headerLength_le hn).1
      obtain ⟨chunks, hcuts, hacross⟩ := exists_cuts_across (by omega) hlt
      rw [hsame _ chunks (cuts_bytes stream) hcuts] at hrequest
      obtain ⟨-, rawRequest, hread, hdrop'⟩ := apiServerReceiveRequest_some hn hnul hcuts hrequest
      obtain ⟨⟨k, hk⟩, -, hle, -⟩ := apiServerReadHttpRequest_some hn hnul hcuts hread
      refine hacross k ?_
      have hlengths := congrArg List.length (hdrop.symm.trans hdrop')
      rw [List.length_drop, List.length_drop, List.length_take] at hlengths
      rw [← hk]
      omega
    rw [hstop] at hmax hlength
    exact ⟨by omega, hmax⟩
  · intro hcondition
    have hreached : ∀ chunks, Cuts stream chunks → ∀ request,
        apiServerReceiveRequest chunks = some request → ∃ n, headerLength stream = some n ∧
          stream.length = n + contentLength stream n ∧
          stream.length ≤ apiServerMaxRequestSize := by
      intro chunks hcuts request hrequest
      cases hn : headerLength stream with
      | none =>
        rw [apiServerReceiveRequest_none hn hnul hcuts] at hrequest
        cases hrequest
      | some n =>
        obtain ⟨hline, rawRequest, hread, -⟩ := apiServerReceiveRequest_some hn hnul hcuts hrequest
        obtain ⟨-, -, -, hmax, hstop⟩ := apiServerReadHttpRequest_some hn hnul hcuts hread
        exact ⟨n, rfl, hcondition n hn hline (hstop.trans hmax)⟩
    refine ⟨fun chunks hcuts request hrequest => ?_, fun chunks chunks' hcuts hcuts' => ?_⟩
    · obtain ⟨n, hn, hlength, hmax⟩ := hreached chunks hcuts request hrequest
      rw [apiServerReceiveRequest_exact hn hnul hcuts hlength hmax] at hrequest
      have hbody := parseHttpRequest_body hn
      rw [hrequest, Option.map_some] at hbody
      obtain ⟨line, -, hdrop⟩ := Option.map_eq_some_iff.mp hbody.symm
      refine ⟨n, hn, hdrop ▸ List.prefix_refl _, ?_⟩
      rw [← hdrop, List.length_drop, hlength, Nat.add_sub_cancel_left]
    · -- if one cutting reaches the router, the stream is exact and all cuttings do
      have hagree : ∀ chunks chunks', Cuts stream chunks → Cuts stream chunks' → ∀ request,
          apiServerReceiveRequest chunks = some request →
            apiServerReceiveRequest chunks' = some request := by
        intro chunks chunks' hcuts hcuts' request hrequest
        obtain ⟨n, hn, hlength, hmax⟩ := hreached chunks hcuts request hrequest
        rw [apiServerReceiveRequest_exact hn hnul hcuts hlength hmax] at hrequest
        rw [apiServerReceiveRequest_exact hn hnul hcuts' hlength hmax, hrequest]
      exact Option.ext fun request => ⟨hagree chunks chunks' hcuts hcuts' request,
        hagree chunks' chunks hcuts' hcuts request⟩

/-- A request of the stated length, in whichever chunks it arrives. -/
theorem bodyIsContent_query :
    BodyIsContent (bytes "POST /query HTTP/1.1\r\nContent-Length: 2\r\n\r\nab") := by
  refine (bodyIsContent_iff fun h => ?_).mpr fun n hn _ _ => ?_
  · exact absurd rfl (forall_mem_of_all (p := fun b => b ≠ 0) rfl 0 h)
  · have hheader : headerLength (bytes "POST /query HTTP/1.1\r\nContent-Length: 2\r\n\r\nab") =
        some 43 := by decide +kernel
    cases hheader.symm.trans hn
    decide +kernel

/-- A byte that follows the stated ones in the same chunk becomes a part of the body. -/
theorem bodyIsContent_surplus :
    ¬ BodyIsContent (bytes "POST /query HTTP/1.1\r\nContent-Length: 2\r\n\r\nabc") := by
  rintro ⟨hbody, -⟩
  have hcuts : Cuts (bytes "POST /query HTTP/1.1\r\nContent-Length: 2\r\n\r\nabc")
      [bytes "POST /query HTTP/1.1\r\nContent-Length: 2\r\n\r\nabc"] :=
    ⟨List.append_nil _, by decide⟩
  have hheader : headerLength (bytes "POST /query HTTP/1.1\r\nContent-Length: 2\r\n\r\nabc") =
      some 43 := by decide +kernel
  have hrequest : apiServerReceiveRequest
      [bytes "POST /query HTTP/1.1\r\nContent-Length: 2\r\n\r\nabc"] =
        some ⟨.truncate 7 (bytes "POST"), .truncate 127 (bytes "/query"),
          .truncate 15 (bytes "HTTP/1.1"), bytes "abc", 3⟩ := by decide +kernel
  obtain ⟨n, hn, -, hlength⟩ := hbody _ hcuts _ hrequest
  cases hheader.symm.trans hn
  exact absurd hlength (by decide +kernel)

end

end MiniDbms
