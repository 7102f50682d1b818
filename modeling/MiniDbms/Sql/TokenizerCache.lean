import MiniDbms.Sql.Tokenizer

/-!
# The token cache does not show

Every entry holds what `tokenizer_tokenize_sql` returns for its text, so that a call of
`tokenizer_tokenize` returns the same tokens whatever was tokenized before it, and whatever other
threads tokenize meanwhile.
-/

namespace MiniDbms

/-- Every entry of the cache holds the tokens of its text. -/
def TokenizerCache.Sound (cache : TokenizerCache) : Prop :=
  ∀ e ∈ cache.entries, tokenizerTokenizeSql e.sql = some e.tokens

/-- The tokens of a text, without a cache. -/
def tokensOf (sql : CString) : Option (List Token) :=
  if (utilsTrim sql).isEmpty then none else tokenizerTokenizeSql (utilsTrim sql)

lemma TokenizerCache.sound_empty : TokenizerCache.empty.Sound := by
  intro e he
  cases he

namespace TokenizerCache.Sound

variable {cache : TokenizerCache}

lemma lookup (h : cache.Sound) (sql : CString) :
    (tokenizerLookupCache cache sql).1.Sound ∧
      ∀ tokens, (tokenizerLookupCache cache sql).2 = some tokens →
        tokenizerTokenizeSql sql = some tokens := by
  unfold tokenizerLookupCache
  split
  case h_1 => exact ⟨h, by simp⟩
  case h_2 e he =>
    have hmem : e ∈ cache.entries := List.mem_of_find?_eq_some he
    have hsql : e.sql = sql := by simpa using List.find?_some he
    have hmoved : ∀ e' ∈ e :: cache.entries.eraseP (fun e => strcmp e.sql sql == 0),
        tokenizerTokenizeSql e'.sql = some e'.tokens := by
      intro e' he'
      rcases List.mem_cons.mp he' with rfl | he'
      · exact h e' hmem
      · exact h e' (List.mem_of_mem_eraseP he')
    split
    · exact ⟨hmoved, by simp⟩
    · refine ⟨hmoved, ?_⟩
      rintro tokens ⟨⟩
      rw [← hsql]
      exact h e hmem

lemma store (h : cache.Sound) {sql : CString} {tokens : List Token}
    (hsql : tokenizerTokenizeSql sql = some tokens) :
    (tokenizerStoreCache cache sql tokens).1.Sound := by
  have hstored : ∀ e ∈ (⟨sql, tokens⟩ : SoftParserCacheEntry) :: cache.entries,
      tokenizerTokenizeSql e.sql = some e.tokens := by
    intro e he
    rcases List.mem_cons.mp he with rfl | he
    · exact hsql
    · exact h e he
  unfold tokenizerStoreCache
  split
  · exact h
  · dsimp only
    split_ifs
    · intro e he
      exact hstored e (List.dropLast_subset _ he)
    · exact hstored

/-- One call keeps the cache sound and returns the tokens of the text. -/
lemma tokenize (h : cache.Sound) (sql : CString) :
    (tokenizerTokenize cache sql).1.Sound ∧ (tokenizerTokenize cache sql).2 = tokensOf sql := by
  obtain ⟨hsound, hhit⟩ := h.lookup (utilsTrim sql)
  unfold tokenizerTokenize tokensOf
  dsimp only
  split_ifs with hempty
  · exact ⟨h, rfl⟩
  · split
    case h_1 c tokens heq =>
      rw [heq] at hsound hhit
      exact ⟨hsound, (hhit tokens rfl).symm⟩
    case h_2 c heq =>
      rw [heq] at hsound
      cases htok : tokenizerTokenizeSql (utilsTrim sql) with
      | none => exact ⟨hsound, rfl⟩
      | some tokens => exact ⟨hsound.store htok, rfl⟩

end TokenizerCache.Sound

/-- The cache after a sequence of calls of `tokenizer_tokenize`. -/
def tokenizerRun (history : List CString) : TokenizerCache :=
  history.foldl (fun cache sql => (tokenizerTokenize cache sql).1) .empty

lemma tokenizerRun_sound (history : List CString) : (tokenizerRun history).Sound := by
  unfold tokenizerRun
  suffices h : ∀ cache : TokenizerCache, cache.Sound →
      (history.foldl (fun cache sql => (tokenizerTokenize cache sql).1) cache).Sound from
    h _ TokenizerCache.sound_empty
  induction history with
  | nil => exact fun _ h => h
  | cons sql history ih => exact fun cache h => ih _ (h.tokenize sql).1

/-! ### The size of the cache -/

/-- The counter is the length of the list, which the limit bounds. -/
structure TokenizerCache.Counted (cache : TokenizerCache) : Prop where
  entryCount_eq : cache.entryCount = cache.entries.length
  entryCount_le : cache.entryCount ≤ softParserCacheLimit

lemma TokenizerCache.counted_empty : TokenizerCache.empty.Counted := ⟨rfl, by decide⟩

namespace TokenizerCache.Counted

variable {cache : TokenizerCache}

lemma lookup (h : cache.Counted) (sql : CString) : (tokenizerLookupCache cache sql).1.Counted := by
  unfold tokenizerLookupCache
  split
  case h_1 => exact h
  case h_2 e he =>
    have hlength : (e :: cache.entries.eraseP fun e => strcmp e.sql sql == 0).length =
        cache.entries.length := by
      have hmem := List.mem_of_find?_eq_some he
      rw [List.length_cons, List.length_eraseP_of_mem hmem (List.find?_some he)]
      exact Nat.succ_pred_eq_of_pos (List.length_pos_of_mem hmem)
    split
    all_goals exact ⟨h.entryCount_eq.trans hlength.symm, h.entryCount_le⟩

lemma store (h : cache.Counted) (sql : CString) (tokens : List Token) :
    (tokenizerStoreCache cache sql tokens).1.Counted := by
  unfold tokenizerStoreCache
  cases tokens with
  | nil => exact h
  | cons t ts =>
    dsimp only
    split_ifs with hlimit
    · -- the entry that was one too many goes again
      constructor
      · simp [tokenizerEvictOldestCacheEntry, h.entryCount_eq]
      · exact h.entryCount_le
    · constructor
      · simp [h.entryCount_eq]
      · exact Nat.not_lt.mp hlimit

end TokenizerCache.Counted

/-! ### Concurrent calls -/

/-- Where a thread is in `tokenizer_tokenize`, with the text it was called for. -/
inductive TokenizerPhase where
  | idle
  | called (sql : CString)
  | missed (sql : CString)
  deriving DecidableEq, Repr

/-- The cache, the threads that use it, and the calls that have returned. -/
structure TokenizerThreads (τ : Type) where
  cache : TokenizerCache
  phase : τ → TokenizerPhase
  returned : List (CString × Option (List Token))

namespace TokenizerThreads

variable {τ : Type}

/-- No call has been made. -/
def start : TokenizerThreads τ := ⟨.empty, fun _ => .idle, []⟩

/-- What holds between any two steps. -/
structure Inv (s : TokenizerThreads τ) : Prop where
  sound : s.cache.Sound
  counted : s.cache.Counted
  missed : ∀ t sql, s.phase t = .missed sql → (utilsTrim sql).isEmpty = false
  returned : ∀ r ∈ s.returned, r.2 = tokensOf r.1

lemma inv_start : (start : TokenizerThreads τ).Inv where
  sound := TokenizerCache.sound_empty
  counted := TokenizerCache.counted_empty
  missed := by rintro t sql ⟨⟩
  returned := by rintro r ⟨⟩

/-- A step may leave another cache behind. -/
lemma Inv.setCache {s : TokenizerThreads τ} (h : s.Inv) {cache : TokenizerCache}
    (hsound : cache.Sound) (hcounted : cache.Counted) : { s with cache := cache }.Inv where
  sound := hsound
  counted := hcounted
  missed := h.missed
  returned := h.returned

lemma Inv.lookup {s : TokenizerThreads τ} (h : s.Inv) {sql : CString} {cache : TokenizerCache}
    {found : Option (List Token)} (hlookup : tokenizerLookupCache s.cache sql = (cache, found)) :
    { s with cache := cache }.Inv := by
  have hsound := (h.sound.lookup sql).1
  have hcounted := h.counted.lookup sql
  rw [hlookup] at hsound hcounted
  exact h.setCache hsound hcounted

variable [DecidableEq τ]

/-- The thread goes on to a phase. -/
def setPhase (s : TokenizerThreads τ) (t : τ) (p : TokenizerPhase) : TokenizerThreads τ :=
  { s with phase := Function.update s.phase t p }

/-- The call of the thread returns. -/
def finish (s : TokenizerThreads τ) (t : τ) (sql : CString) (result : Option (List Token)) :
    TokenizerThreads τ :=
  { s.setPhase t .idle with returned := s.returned ++ [(sql, result)] }

/-- One step of a thread: a call, the lookup or the store that the mutex makes atomic, or a
cleanup. -/
inductive Step : TokenizerThreads τ → TokenizerThreads τ → Prop
  | call {s : TokenizerThreads τ} {t : τ} (sql : CString) :
      s.phase t = .idle → Step s (s.setPhase t (.called sql))
  | blank {s : TokenizerThreads τ} {t : τ} {sql : CString} :
      s.phase t = .called sql → (utilsTrim sql).isEmpty = true → Step s (s.finish t sql none)
  | hit {s : TokenizerThreads τ} {t : τ} {sql : CString} {cache : TokenizerCache}
      {tokens : List Token} :
      s.phase t = .called sql → (utilsTrim sql).isEmpty = false →
      tokenizerLookupCache s.cache (utilsTrim sql) = (cache, some tokens) →
        Step s ({ s with cache := cache }.finish t sql (some tokens))
  | miss {s : TokenizerThreads τ} {t : τ} {sql : CString} {cache : TokenizerCache} :
      s.phase t = .called sql → (utilsTrim sql).isEmpty = false →
      tokenizerLookupCache s.cache (utilsTrim sql) = (cache, none) →
        Step s ({ s with cache := cache }.setPhase t (.missed sql))
  | refuse {s : TokenizerThreads τ} {t : τ} {sql : CString} :
      s.phase t = .missed sql → tokenizerTokenizeSql (utilsTrim sql) = none →
        Step s (s.finish t sql none)
  | store {s : TokenizerThreads τ} {t : τ} {sql : CString} {tokens : List Token} :
      s.phase t = .missed sql → tokenizerTokenizeSql (utilsTrim sql) = some tokens →
        Step s ({ s with cache := (tokenizerStoreCache s.cache (utilsTrim sql) tokens).1 }.finish t
          sql (some tokens))
  | cleanup {s : TokenizerThreads τ} : Step s { s with cache := tokenizerCleanupCache s.cache }

lemma setPhase_self (s : TokenizerThreads τ) (t : τ) (p : TokenizerPhase) :
    (s.setPhase t p).phase t = p := Function.update_self ..

lemma setPhase_other (s : TokenizerThreads τ) {t t' : τ} (p : TokenizerPhase) (h : t' ≠ t) :
    (s.setPhase t p).phase t' = s.phase t' := Function.update_of_ne h ..

lemma Inv.setPhase {s : TokenizerThreads τ} (h : s.Inv) (t : τ) {p : TokenizerPhase}
    (hp : ∀ sql, p = .missed sql → (utilsTrim sql).isEmpty = false) : (s.setPhase t p).Inv where
  sound := h.sound
  counted := h.counted
  missed := by
    intro t' sql hphase
    by_cases ht : t' = t
    · subst ht
      rw [setPhase_self] at hphase
      exact hp sql hphase
    · rw [setPhase_other s p ht] at hphase
      exact h.missed t' sql hphase
  returned := h.returned

/-- A call may return what its text is tokenized to. -/
lemma Inv.finish {s : TokenizerThreads τ} (h : s.Inv) (t : τ) {sql : CString}
    {result : Option (List Token)} (hresult : result = tokensOf sql) :
    (s.finish t sql result).Inv where
  sound := h.sound
  counted := h.counted
  missed := (h.setPhase t (p := .idle) (by rintro sql ⟨⟩)).missed
  returned := by
    intro r hr
    rcases List.mem_append.mp hr with hr | hr
    · exact h.returned r hr
    · obtain rfl := List.mem_singleton.mp hr
      exact hresult

lemma tokensOf_blank {sql : CString} (h : (utilsTrim sql).isEmpty = true) : tokensOf sql = none :=
  if_pos h

lemma tokensOf_eq {sql : CString} (h : (utilsTrim sql).isEmpty = false) :
    tokensOf sql = tokenizerTokenizeSql (utilsTrim sql) :=
  if_neg (by simp [h])

lemma Inv.step {s s' : TokenizerThreads τ} (h : s.Inv) (hstep : Step s s') : s'.Inv := by
  cases hstep with
  | @call t sql => exact h.setPhase t (by rintro sql ⟨⟩)
  | @blank t sql _ hblank => exact h.finish t (tokensOf_blank hblank).symm
  | @hit t sql cache tokens _ htext hlookup =>
    have hhit : tokenizerTokenizeSql (utilsTrim sql) = some tokens :=
      (h.sound.lookup (utilsTrim sql)).2 tokens (by rw [hlookup])
    exact (h.lookup hlookup).finish t ((tokensOf_eq htext).trans hhit).symm
  | @miss t sql cache _ htext hlookup =>
    refine (h.lookup hlookup).setPhase t ?_
    rintro sql ⟨⟩
    exact htext
  | @refuse t sql hphase htokens =>
    exact h.finish t ((tokensOf_eq (h.missed t sql hphase)).trans htokens).symm
  | @store t sql tokens hphase htokens =>
    have hcache := h.setCache (h.sound.store htokens) (h.counted.store (utilsTrim sql) tokens)
    exact hcache.finish t ((tokensOf_eq (h.missed t sql hphase)).trans htokens).symm
  | cleanup => exact h.setCache TokenizerCache.sound_empty TokenizerCache.counted_empty

/-- The states that an interleaving of calls and cleanups can lead to. -/
def Reachable (s : TokenizerThreads τ) : Prop := Relation.ReflTransGen Step start s

lemma Reachable.inv {s : TokenizerThreads τ} (h : s.Reachable) : s.Inv := by
  induction h with
  | refl => exact inv_start
  | tail _ hstep ih => exact ih.step hstep

/-- A call that has missed returns at its next step. -/
lemma Inv.missed_returns {s : TokenizerThreads τ} (h : s.Inv) {t : τ} {sql : CString}
    (hphase : s.phase t = .missed sql) :
    ∃ s', Step s s' ∧ s'.phase t = .idle ∧ s'.returned = s.returned ++ [(sql, tokensOf sql)] := by
  have htokens := tokensOf_eq (h.missed t sql hphase)
  cases hsql : tokenizerTokenizeSql (utilsTrim sql) with
  | none =>
    rw [htokens, hsql]
    exact ⟨_, .refuse hphase hsql, setPhase_self .., rfl⟩
  | some tokens =>
    rw [htokens, hsql]
    exact ⟨_, .store hphase hsql, setPhase_self .., rfl⟩

/-- A call returns after at most two steps of its thread. -/
lemma Inv.called_returns {s : TokenizerThreads τ} (h : s.Inv) {t : τ} {sql : CString}
    (hphase : s.phase t = .called sql) :
    ∃ s', Relation.ReflTransGen Step s s' ∧ s'.phase t = .idle ∧
      s'.returned = s.returned ++ [(sql, tokensOf sql)] := by
  cases htext : (utilsTrim sql).isEmpty with
  | true =>
    rw [tokensOf_blank htext]
    exact ⟨_, .single (.blank hphase htext), setPhase_self .., rfl⟩
  | false =>
    rcases hlookup : tokenizerLookupCache s.cache (utilsTrim sql) with ⟨cache, _ | tokens⟩
    · have hmiss := Step.miss hphase htext hlookup
      obtain ⟨s', hstep, hidle, hreturned⟩ := (h.step hmiss).missed_returns (setPhase_self ..)
      exact ⟨s', .tail (.single hmiss) hstep, hidle, hreturned⟩
    · have hhit : tokenizerTokenizeSql (utilsTrim sql) = some tokens :=
        (h.sound.lookup (utilsTrim sql)).2 tokens (by rw [hlookup])
      rw [tokensOf_eq htext, hhit]
      exact ⟨_, .single (.hit hphase htext hlookup), setPhase_self .., rfl⟩

/-- In every interleaving of calls and cleanups, each call returns, and returns what
`tokenizer_tokenize_sql` returns for the trimmed text, and the counter is the length of the list
and stays within the limit. -/
theorem tokenizerTokenize_transparent {s : TokenizerThreads τ} (h : s.Reachable) :
    (∀ r ∈ s.returned, r.2 = tokensOf r.1) ∧
    (∀ t sql, s.phase t = .called sql ∨ s.phase t = .missed sql →
      ∃ s', Relation.ReflTransGen Step s s' ∧ s'.phase t = .idle ∧
        s'.returned = s.returned ++ [(sql, tokensOf sql)]) ∧
    s.cache.entryCount = s.cache.entries.length ∧
    s.cache.entryCount ≤ softParserCacheLimit := by
  refine ⟨h.inv.returned, ?_, h.inv.counted.entryCount_eq, h.inv.counted.entryCount_le⟩
  rintro t sql (hphase | hphase)
  · exact h.inv.called_returns hphase
  · obtain ⟨s', hstep, hidle, hreturned⟩ := h.inv.missed_returns hphase
    exact ⟨s', .single hstep, hidle, hreturned⟩

/-- Both of two threads miss the same text before either has stored it: it is stored twice. -/
theorem tokenizerTokenize_transparent_storedTwice :
    ∃ s : TokenizerThreads Bool, s.Reachable ∧ s.cache.entries.length = 2 ∧
      s.returned.length = 2 ∧ ∀ r ∈ s.returned, r.2 = tokensOf r.1 := by
  have h₀ : (start : TokenizerThreads Bool).Reachable := .refl
  have h₁ := h₀.tail (.call (t := false) (bytes "a") rfl)
  have h₂ := h₁.tail (.call (t := true) (bytes "a") rfl)
  have h₃ := h₂.tail (.miss (t := false) rfl rfl rfl)
  have h₄ := h₃.tail (.miss (t := true) rfl rfl rfl)
  have h₅ := h₄.tail (.store (t := false) rfl rfl)
  have h₆ := h₅.tail (.store (t := true) rfl rfl)
  exact ⟨_, h₆, by decide, by decide, (tokenizerTokenize_transparent h₆).1⟩

/-- A call that no other thread interrupts is `tokenizer_tokenize`. -/
theorem tokenizerTokenize_alone (s : TokenizerThreads τ) {t : τ} (sql : CString)
    (hphase : s.phase t = .idle) :
    ∃ s', Relation.ReflTransGen Step s s' ∧ s'.cache = (tokenizerTokenize s.cache sql).1 ∧
      s'.returned = s.returned ++ [(sql, (tokenizerTokenize s.cache sql).2)] := by
  have hcall := Relation.ReflTransGen.single (Step.call sql hphase)
  have hcalled := setPhase_self s t (.called sql)
  cases htext : (utilsTrim sql).isEmpty with
  | true =>
    have hresult : tokenizerTokenize s.cache sql = (s.cache, none) := if_pos htext
    rw [hresult]
    exact ⟨_, hcall.tail (.blank hcalled htext), rfl, rfl⟩
  | false =>
    rw [tokenizerTokenize, if_neg (by simp [htext])]
    rcases hlookup : tokenizerLookupCache s.cache (utilsTrim sql) with ⟨cache, _ | tokens⟩
    · have hmiss := hcall.tail (.miss hcalled htext hlookup)
      cases htokens : tokenizerTokenizeSql (utilsTrim sql) with
      | none => exact ⟨_, hmiss.tail (.refuse (setPhase_self ..) htokens), rfl, rfl⟩
      | some tokens => exact ⟨_, hmiss.tail (.store (setPhase_self ..) htokens), rfl, rfl⟩
    · exact ⟨_, hcall.tail (.hit hcalled htext hlookup), rfl, rfl⟩

end TokenizerThreads

end MiniDbms
