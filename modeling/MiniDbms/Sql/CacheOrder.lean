import MiniDbms.Library.Recency
import MiniDbms.Sql.TokenizerCache

/-!
# The order of the token cache

Calls one after the other keep the last 64 texts that tokenize, the last used first. Two threads
that miss the same text one after the other and store it both leave it twice.
-/

namespace MiniDbms

/-- The texts in the cache, from the head on. -/
def TokenizerCache.texts (cache : TokenizerCache) : List CString :=
  cache.entries.map SoftParserCacheEntry.sql

/-- The texts of a history that tokenize, trimmed. -/
def tokenizedTexts (history : List CString) : List CString :=
  (history.map utilsTrim).filter fun text => (tokenizerTokenizeSql text).isSome

/-- The texts that tokenize and were used last, the last one first, cut to the limit. -/
def recentTexts (history : List CString) : List CString :=
  (recency (tokenizedTexts history)).take softParserCacheLimit

/-- The number of calls whose trimmed text was among the recent ones when they were made. -/
def recentHits (history : List CString) : Nat :=
  (List.range history.length).countP fun i =>
    utilsTrim (history.getD i []) ∈ recentTexts (history.take i)

/-! ### One call -/

section

variable {cache : TokenizerCache} {sql : CString}

lemma tokenizerTokenizeSql_ne_nil {tokens : List Token}
    (h : tokenizerTokenizeSql sql = some tokens) : tokens ≠ [] := by
  exact (tokenizerTokenizeSql_eq_some.mp h).2.1

lemma TokenizerCache.length_texts (cache : TokenizerCache) :
    cache.texts.length = cache.entries.length := List.length_map _

/-- A text that is in the cache is found and moves to the front. -/
lemma tokenizerLookupCache_hit (hsound : cache.Sound) (hmem : sql ∈ cache.texts) :
    ∃ tokens, (tokenizerLookupCache cache sql).2 = some tokens ∧
      (tokenizerLookupCache cache sql).1.texts = sql :: cache.texts.erase sql ∧
      (tokenizerLookupCache cache sql).1.hitCount = wrapInt (cache.hitCount + 1) := by
  obtain ⟨e, he⟩ : ∃ e, cache.entries.find? (fun e => strcmp e.sql sql == 0) = some e := by
    rw [← Option.isSome_iff_exists, List.find?_isSome]
    obtain ⟨e, hentry, heq⟩ := List.mem_map.mp hmem
    exact ⟨e, hentry, by simp [heq]⟩
  have hsql : e.sql = sql := by simpa using List.find?_some he
  have htokens := tokenizerTokenizeSql_ne_nil (hsound e (List.mem_of_find?_eq_some he))
  have herase : (cache.entries.eraseP fun e => strcmp e.sql sql == 0).map
      SoftParserCacheEntry.sql = cache.texts.erase sql := by
    have hp : (fun e : SoftParserCacheEntry => strcmp e.sql sql == 0) =
        (fun text => text == sql) ∘ SoftParserCacheEntry.sql := by
      funext e
      rw [Bool.eq_iff_iff]
      simp
    rw [hp, ← List.eraseP_map, TokenizerCache.texts, List.erase_eq_eraseP']
  obtain ⟨t, ts, hcons⟩ := List.exists_cons_of_ne_nil htokens
  rw [tokenizerLookupCache, he]
  dsimp only
  rw [hcons]
  refine ⟨_, rfl, ?_, rfl⟩
  rw [TokenizerCache.texts, List.map_cons, hsql, herase]

lemma tokenizerLookupCache_miss (hmem : sql ∉ cache.texts) :
    tokenizerLookupCache cache sql = (cache, none) := by
  have hnone : cache.entries.find? (fun e => strcmp e.sql sql == 0) = none := by
    rw [List.find?_eq_none]
    intro e he heq
    exact hmem (List.mem_map.mpr ⟨e, he, by simpa using heq⟩)
  rw [tokenizerLookupCache, hnone]

/-- A stored text comes to the front, and the last one goes when there is one too many. -/
lemma texts_tokenizerStoreCache (hcounted : cache.Counted) {tokens : List Token}
    (htokens : tokens ≠ []) :
    (tokenizerStoreCache cache sql tokens).1.texts =
        (sql :: cache.texts).take softParserCacheLimit ∧
      (tokenizerStoreCache cache sql tokens).1.hitCount = cache.hitCount := by
  obtain ⟨t, ts, rfl⟩ := List.exists_cons_of_ne_nil htokens
  have hlength := cache.length_texts
  have hcount := hcounted.entryCount_eq
  have hle := hcounted.entryCount_le
  rw [tokenizerStoreCache]
  dsimp only
  by_cases hlimit : cache.entryCount + 1 > softParserCacheLimit
  · rw [if_pos hlimit]
    refine ⟨?_, rfl⟩
    rw [tokenizerEvictOldestCacheEntry, TokenizerCache.texts]
    dsimp only
    rw [List.map_dropLast, List.map_cons, List.dropLast_eq_take, List.length_cons, List.length_map]
    have hfull : cache.entries.length + 1 - 1 = softParserCacheLimit := by omega
    rw [hfull, TokenizerCache.texts]
  · rw [if_neg hlimit]
    refine ⟨?_, rfl⟩
    rw [List.take_of_length_le (by rw [List.length_cons]; omega)]
    rfl

/-- One call uses its text if the text tokenizes, and leaves no trace otherwise. -/
lemma tokenizerTokenize_uses (hsound : cache.Sound) (hcounted : cache.Counted) (sql : CString) :
    (tokenizerTokenize cache sql).1.texts =
        (if (tokenizerTokenizeSql (utilsTrim sql)).isSome then
          lruUse softParserCacheLimit cache.texts (utilsTrim sql) else cache.texts) ∧
      (tokenizerTokenize cache sql).1.hitCount =
        if utilsTrim sql ∈ cache.texts then wrapInt (cache.hitCount + 1) else cache.hitCount := by
  have htexts : ∀ text ∈ cache.texts, (tokenizerTokenizeSql text).isSome = true := by
    intro text htext
    obtain ⟨e, he, rfl⟩ := List.mem_map.mp htext
    rw [hsound e he]
    rfl
  have hlength : cache.texts.length ≤ softParserCacheLimit := by
    rw [TokenizerCache.length_texts, ← hcounted.entryCount_eq]
    exact hcounted.entryCount_le
  by_cases hmem : utilsTrim sql ∈ cache.texts
  · -- a hit
    have hsome := htexts _ hmem
    have hne : (utilsTrim sql).isEmpty = false := by
      rw [List.isEmpty_eq_false_iff]
      intro hnil
      rw [hnil] at hsome
      cases hsome
    obtain ⟨tokens, hfound, hmoved, hhit⟩ := tokenizerLookupCache_hit hsound hmem
    have hcall : (tokenizerTokenize cache sql).1 =
        (tokenizerLookupCache cache (utilsTrim sql)).1 := by
      rw [tokenizerTokenize, if_neg (by simp [hne])]
      rcases hlookup : tokenizerLookupCache cache (utilsTrim sql) with ⟨c, found⟩
      rw [hlookup] at hfound
      obtain rfl : found = some tokens := hfound
      rfl
    rw [hcall, hmoved, hhit, if_pos hsome, if_pos hmem, lruUse, List.take_of_length_le]
    · exact ⟨rfl, rfl⟩
    · rw [List.length_cons, List.length_erase_of_mem hmem]
      have := List.length_pos_of_mem hmem
      omega
  · rw [if_neg hmem, lruUse, List.erase_of_not_mem hmem]
    cases hempty : (utilsTrim sql).isEmpty with
    | true =>
      have hnil := List.isEmpty_iff.mp hempty
      rw [tokenizerTokenize, if_pos hempty, hnil]
      exact ⟨rfl, rfl⟩
    | false =>
      rw [tokenizerTokenize, if_neg (by simp [hempty]), tokenizerLookupCache_miss hmem]
      cases htokens : tokenizerTokenizeSql (utilsTrim sql) with
      | none => exact ⟨rfl, rfl⟩
      | some tokens => exact texts_tokenizerStoreCache hcounted (tokenizerTokenizeSql_ne_nil htokens)

end

/-! ### Calls one after the other -/

lemma tokenizerRun_append (history : List CString) (sql : CString) :
    tokenizerRun (history ++ [sql]) = (tokenizerTokenize (tokenizerRun history) sql).1 := by
  simp [tokenizerRun]

lemma TokenizerCache.Counted.tokenize {cache : TokenizerCache} (h : cache.Counted)
    (sql : CString) : (tokenizerTokenize cache sql).1.Counted := by
  have hlookup := h.lookup (utilsTrim sql)
  rw [tokenizerTokenize]
  split_ifs
  · exact h
  · rcases hfound : tokenizerLookupCache cache (utilsTrim sql) with ⟨cache', _ | tokens⟩
    all_goals rw [hfound] at hlookup
    · cases htokens : tokenizerTokenizeSql (utilsTrim sql) with
      | none => exact hlookup
      | some tokens => exact hlookup.store (utilsTrim sql) tokens
    · exact hlookup

lemma tokenizerRun_counted (history : List CString) : (tokenizerRun history).Counted := by
  induction history using List.reverseRecOn with
  | nil => exact TokenizerCache.counted_empty
  | append_singleton history sql ih =>
    rw [tokenizerRun_append]
    exact ih.tokenize sql

lemma recentTexts_append (history : List CString) (sql : CString) :
    recentTexts (history ++ [sql]) =
      if (tokenizerTokenizeSql (utilsTrim sql)).isSome then
        lruUse softParserCacheLimit (recentTexts history) (utilsTrim sql)
      else recentTexts history := by
  rw [recentTexts, tokenizedTexts, List.map_append, List.filter_append, List.map_singleton,
    List.filter_singleton]
  by_cases hsome : (tokenizerTokenizeSql (utilsTrim sql)).isSome = true
  · rw [if_pos hsome, hsome, cond_true, recentTexts, lruUse_recency]
    rfl
  · rw [if_neg hsome, Bool.eq_false_iff.mpr hsome, cond_false, List.append_nil]
    rfl

lemma recentHits_append (history : List CString) (sql : CString) :
    recentHits (history ++ [sql]) =
      recentHits history + if utilsTrim sql ∈ recentTexts history then 1 else 0 := by
  have hold : (List.range history.length).countP (fun i =>
      utilsTrim ((history ++ [sql]).getD i []) ∈ recentTexts ((history ++ [sql]).take i)) =
        recentHits history := by
    refine List.countP_congr fun i hi => ?_
    have hlt := List.mem_range.mp hi
    rw [List.getD_append _ _ _ _ hlt, List.take_append_of_le_length hlt.le]
  rw [recentHits, List.length_append, List.length_singleton, List.range_succ, List.countP_append,
    hold, List.countP_singleton]
  simp

/-- The texts are the recent ones, and the hit count is the number of hits, as an `int`. -/
lemma tokenizerRun_recent (history : List CString) :
    (tokenizerRun history).texts = recentTexts history ∧
      (tokenizerRun history).hitCount = wrapInt (recentHits history) := by
  induction history using List.reverseRecOn with
  | nil => exact ⟨rfl, rfl⟩
  | append_singleton history sql ih =>
    obtain ⟨htexts, hhits⟩ := tokenizerTokenize_uses (tokenizerRun_sound history)
      (tokenizerRun_counted history) sql
    rw [tokenizerRun_append, htexts, hhits, recentTexts_append, recentHits_append, ih.1, ih.2]
    refine ⟨rfl, ?_⟩
    split_ifs
    · rw [wrapInt, wrapInt, wrapInt, Int.bmod_add_bmod]
      rfl
    · rfl

/-- The token cache is an exact least-recently-used cache after a history: its texts are the ones
that tokenize and were used last, the last one first and cut to the limit, none of them twice, and
the hit count is the number of calls whose text was there. -/
structure ExactLru (history : List CString) : Prop where
  texts : (tokenizerRun history).texts = recentTexts history
  nodup : (tokenizerRun history).texts.Nodup
  hits : (tokenizerRun history).hitCount = recentHits history

/-- The cache is exact as long as the number of hits is the value of an `int`; its texts always
are. -/
theorem tokenizerRun_lru_iff (history : List CString) :
    ((tokenizerRun history).texts = recentTexts history ∧ (tokenizerRun history).texts.Nodup) ∧
      (ExactLru history ↔ (recentHits history : Int) ≤ intMax) := by
  obtain ⟨htexts, hhits⟩ := tokenizerRun_recent history
  have hnodup : (tokenizerRun history).texts.Nodup := by
    rw [htexts]
    exact (nodup_recency _).sublist (List.take_sublist _ _)
  refine ⟨⟨htexts, hnodup⟩, fun h => ?_, fun hfits => ⟨htexts, hnodup, ?_⟩⟩
  · have hcount := h.hits
    rw [hhits, wrapInt, Int.bmod_def] at hcount
    rw [intMax]
    omega
  · rw [hhits, wrapInt]
    rw [intMax] at hfits
    exact Int.bmod_eq_of_le (by omega) (by omega)

lemma recentHits_replicate {sql : CString} (h : (tokenizerTokenizeSql (utilsTrim sql)).isSome)
    (n : Nat) : recentHits (List.replicate (n + 1) sql) = n := by
  have hmem : ∀ n, utilsTrim sql ∈ recentTexts (List.replicate (n + 1) sql) := by
    intro n
    rw [List.replicate_succ', recentTexts_append, if_pos h, lruUse]
    exact List.mem_cons_self
  induction n with
  | zero =>
    rw [List.replicate_succ', recentHits_append, if_neg (by simp [recentTexts, tokenizedTexts,
      recency])]
    rfl
  | succ n ih => rw [List.replicate_succ', recentHits_append, ih, if_pos (hmem n)]

/-- One text is tokenized 2147483649 times: all calls but the first one are hits, and the count of
them has overflowed. -/
theorem tokenizerRun_lru_overflow :
    ¬ ExactLru (List.replicate 2147483649 (bytes "SELECT * FROM t")) ∧
      (tokenizerRun (List.replicate 2147483649 (bytes "SELECT * FROM t"))).hitCount =
        -2147483648 := by
  have hhits := @recentHits_replicate (bytes "SELECT * FROM t") (by decide +kernel) 2147483648
  have hcount := (tokenizerRun_recent (List.replicate (2147483648 + 1)
    (bytes "SELECT * FROM t"))).2
  rw [hhits] at hcount
  have hwrapped : (tokenizerRun (List.replicate 2147483649 (bytes "SELECT * FROM t"))).hitCount =
      -2147483648 := hcount.trans (by decide)
  refine ⟨fun h => ?_, hwrapped⟩
  have hexact := h.hits
  rw [hwrapped] at hexact
  omega

/-! ### Concurrent calls -/

namespace TokenizerThreads

variable {τ : Type}

/-- A store, the step of a call that has missed its text and has tokens for it, finds the text not
among the entries that stay. -/
def StoresNew (s s' : TokenizerThreads τ) : Prop :=
  ∀ t sql, s.phase t = .missed sql → s'.phase t = .idle →
    (tokenizerTokenizeSql (utilsTrim sql)).isSome = true →
      utilsTrim sql ∉ s.cache.texts.take (softParserCacheLimit - 1)

/-- In an empty cache every text is new. -/
lemma storesNew_of_nil {s s' : TokenizerThreads τ} (h : s.cache.texts = []) : StoresNew s s' := by
  intro t sql _ _ _
  simp [h]

variable [DecidableEq τ]

/-- The states that runs lead to in which every store finds its text new. -/
def ReachableNew (s : TokenizerThreads τ) : Prop :=
  Relation.ReflTransGen (fun s s' => Step s s' ∧ StoresNew s s') start s

lemma ReachableNew.reachable {s : TokenizerThreads τ} (h : s.ReachableNew) : s.Reachable :=
  Relation.ReflTransGen.mono (fun _ _ hstep => hstep.1) _ _ h

/-- A store keeps the texts distinct exactly if it finds its text new. -/
lemma nodup_store_iff {cache : TokenizerCache} (hcounted : cache.Counted) {sql : CString}
    {tokens : List Token} (htokens : tokens ≠ []) (hnodup : cache.texts.Nodup) :
    (tokenizerStoreCache cache sql tokens).1.texts.Nodup ↔
      sql ∉ cache.texts.take (softParserCacheLimit - 1) := by
  have hlimit : softParserCacheLimit = softParserCacheLimit - 1 + 1 := rfl
  rw [(texts_tokenizerStoreCache hcounted htokens).1, hlimit, List.take_succ_cons, List.nodup_cons]
  exact and_iff_left (hnodup.sublist (List.take_sublist _ _))

lemma nodup_step {s s' : TokenizerThreads τ} (h : s.Inv) (hnodup : s.cache.texts.Nodup)
    (hstep : Step s s') (hnew : StoresNew s s') : s'.cache.texts.Nodup := by
  cases hstep with
  | call => exact hnodup
  | blank => exact hnodup
  | @hit t sql cache tokens _ _ hlookup =>
    by_cases hmem : utilsTrim sql ∈ s.cache.texts
    · obtain ⟨_, -, hmoved, -⟩ := tokenizerLookupCache_hit h.sound hmem
      rw [hlookup] at hmoved
      change cache.texts.Nodup
      rw [hmoved, List.nodup_cons]
      exact ⟨hnodup.not_mem_erase, hnodup.erase _⟩
    · rw [tokenizerLookupCache_miss hmem] at hlookup
      cases hlookup
  | @miss t sql cache _ _ hlookup =>
    by_cases hmem : utilsTrim sql ∈ s.cache.texts
    · obtain ⟨tokens, hfound, -⟩ := tokenizerLookupCache_hit h.sound hmem
      rw [hlookup] at hfound
      cases hfound
    · rw [tokenizerLookupCache_miss hmem] at hlookup
      cases hlookup
      exact hnodup
  | refuse => exact hnodup
  | @store t sql tokens hphase htokens =>
    refine (nodup_store_iff h.counted (tokenizerTokenizeSql_ne_nil htokens) hnodup).mpr ?_
    exact hnew t sql hphase (setPhase_self ..) (by simp [htokens])
  | cleanup => exact List.nodup_nil

/-- No two entries have the same text in a run in which every store finds its text new: no other
thread has stored the text since the call looked for it. -/
theorem nodup_texts {s : TokenizerThreads τ} (h : s.ReachableNew) : s.cache.texts.Nodup := by
  induction h with
  | refl => exact List.nodup_nil
  | tail hrun hstep ih => exact nodup_step (ReachableNew.reachable hrun).inv ih hstep.1 hstep.2

/-- Two threads that have both missed store different texts. -/
theorem nodup_texts_two : ∃ s : TokenizerThreads Bool, s.cache.texts = [bytes "b", bytes "a"] ∧
    s.cache.texts.Nodup := by
  have h₁ : ReachableNew _ := .single ⟨.call (t := false) (bytes "a") rfl, storesNew_of_nil rfl⟩
  have h₂ := h₁.tail ⟨.call (t := true) (bytes "b") rfl, storesNew_of_nil rfl⟩
  have h₃ := h₂.tail ⟨.miss (t := false) rfl rfl rfl, storesNew_of_nil rfl⟩
  have h₄ := h₃.tail ⟨.miss (t := true) rfl rfl rfl, storesNew_of_nil rfl⟩
  have h₅ := h₄.tail ⟨.store (t := false) rfl rfl, storesNew_of_nil rfl⟩
  have h₆ := h₅.tail ⟨.store (t := true) rfl rfl, by
    intro t sql hmissed _ _
    cases t with
    | false => cases hmissed
    | true =>
      cases hmissed
      decide⟩
  exact ⟨_, by decide, nodup_texts h₆⟩

/-- Two threads that have missed the same text both store it. -/
theorem nodup_texts_twice :
    ¬ ∀ s : TokenizerThreads Bool, s.Reachable → s.cache.texts.Nodup := by
  intro h
  have h₁ : Reachable _ := .single (.call (t := false) (bytes "a") rfl)
  have h₂ := h₁.tail (.call (t := true) (bytes "a") rfl)
  have h₃ := h₂.tail (.miss (t := false) rfl rfl rfl)
  have h₄ := h₃.tail (.miss (t := true) rfl rfl rfl)
  have h₅ := h₄.tail (.store (t := false) rfl rfl)
  have h₆ := h₅.tail (.store (t := true) rfl rfl)
  exact absurd (h _ h₆) (by decide)

end TokenizerThreads

end MiniDbms
