import Isomux.Foundations.Trace
import Isomux.Transport.Idempotency

set_option autoImplicit false

/-!
# The idempotency cache runs a request once

While a handler is in flight under a key, the store has its entry there, and the call that started
it is the one that takes the entry away. So no second handler runs under the key, and what is
replayed is the response of a handler that ran for the same request.

The hash is injective, and the parts of a key other than the last hold no separator.

## Main results

* `Isomux.cacheKey_inj` — a key of the store determines its parts.
* `Isomux.IdempotencyCache.sound_step` — an event keeps the invariant.
* `Isomux.IdempotencyCache.runs_once` — the cache keeps its promises in every run.
-/

namespace Isomux

/-! ## Keys -/

def Identity.scope : Identity → JsString
  | .user _ => js "user"
  | .agent _ => js "agent"
  | .cronRun _ _ => js "cron-run"
  | .app _ => js "app"
  | .api _ => js "api"

/-- The ids of an identity that its subject is made of. -/
def Identity.ids : Identity → List JsString
  | .user userId => [userId.getD []]
  | .agent agentId => [agentId.getD []]
  | .cronRun cronjobId runId => [cronjobId.getD [], runId.getD []]
  | .app appName => [appName.getD []]
  | .api apiTokenId => [apiTokenId.getD []]

/-- The identifiers of a call hold no separator: no NUL where a part of the key follows, and no
colon in the id of a cronjob, which the id of a run follows. -/
structure RunArgs.Plain (args : RunArgs) : Prop where
  ids : ∀ id ∈ args.identity.ids, (0 : CodeUnit) ∉ id
  method : (0 : CodeUnit) ∉ args.method
  opId : (0 : CodeUnit) ∉ args.opId
  cronjob : ∀ cronjobId runId, args.identity = .cronRun cronjobId runId →
    (58 : CodeUnit) ∉ cronjobId.getD []

/-- Two protected calls under one composite key: the subject, the method, the operation and the
idempotency key. -/
structure SameKey (a b : RunArgs) : Prop where
  keyed : a.key ≠ none
  scope : a.identity.scope = b.identity.scope
  ids : a.identity.ids = b.identity.ids
  method : a.method = b.method
  opId : a.opId = b.opId
  key : a.key = b.key

lemma split_at_separator {c : CodeUnit} {a b rest rest' : JsString} (ha : c ∉ a) (hb : c ∉ b)
    (h : a ++ c :: rest = b ++ c :: rest') : a = b ∧ rest = rest' := by
  induction a generalizing b with
  | nil =>
    cases b with
    | nil => exact ⟨rfl, (List.cons.inj h).2⟩
    | cons d b => exact absurd (List.mem_cons.2 (Or.inl (List.cons.inj h).1)) hb
  | cons d a ih =>
    cases b with
    | nil => exact absurd (List.mem_cons.2 (Or.inl (List.cons.inj h).1.symm)) ha
    | cons d' b =>
      obtain ⟨rfl, htail⟩ := List.cons.inj h
      obtain ⟨rfl, hrest⟩ := ih (fun hc => ha (List.mem_cons_of_mem _ hc))
        (fun hc => hb (List.mem_cons_of_mem _ hc)) htail
      exact ⟨rfl, hrest⟩

/-- The ids of a subject, joined by a colon. -/
def joinIds : List JsString → JsString
  | [] => []
  | [id] => id
  | id :: id' :: rest => id ++ 58 :: joinIds (id' :: rest)

lemma identitySubjectKey_eq (a : Identity) :
    identitySubjectKey a = a.scope ++ 58 :: joinIds a.ids := by
  cases a with
  | user userId => rfl
  | agent agentId => rfl
  | cronRun cronjobId runId =>
    show js "cron-run:" ++ cronjobId.getD [] ++ js ":" ++ runId.getD [] = _
    rw [List.append_assoc, List.append_assoc]
    rfl
  | app appName => rfl
  | api apiTokenId => rfl

lemma colon_not_mem_scope (a : Identity) : (58 : CodeUnit) ∉ a.scope := by
  cases a <;> simp only [Identity.scope] <;> decide

lemma ids_eq_of_joinIds {a b : Identity}
    (ha : ∀ cronjobId runId, a = .cronRun cronjobId runId → (58 : CodeUnit) ∉ cronjobId.getD [])
    (hb : ∀ cronjobId runId, b = .cronRun cronjobId runId → (58 : CodeUnit) ∉ cronjobId.getD [])
    (hscope : a.scope = b.scope) (h : joinIds a.ids = joinIds b.ids) : a.ids = b.ids := by
  cases a <;> cases b <;> simp only [Identity.scope] at hscope
  case cronRun.cronRun cronjobId runId cronjobId' runId' =>
    obtain ⟨hcronjob, hrun⟩ := split_at_separator (ha _ _ rfl) (hb _ _ rfl) h
    simp only [Identity.ids, hcronjob]
    exact congrArg _ (congrArg (fun id => [id]) hrun)
  all_goals first
    | exact congrArg (fun id => [id]) h
    | exact absurd hscope (by decide)

lemma identitySubjectKey_inj {a b : Identity}
    (ha : ∀ cronjobId runId, a = .cronRun cronjobId runId → (58 : CodeUnit) ∉ cronjobId.getD [])
    (hb : ∀ cronjobId runId, b = .cronRun cronjobId runId → (58 : CodeUnit) ∉ cronjobId.getD [])
    (h : identitySubjectKey a = identitySubjectKey b) : a.scope = b.scope ∧ a.ids = b.ids := by
  rw [identitySubjectKey_eq, identitySubjectKey_eq] at h
  obtain ⟨hscope, hids⟩ :=
    split_at_separator (colon_not_mem_scope a) (colon_not_mem_scope b) h
  exact ⟨hscope, ids_eq_of_joinIds ha hb hscope hids⟩

lemma nul_not_mem_subject {a : Identity} (h : ∀ id ∈ a.ids, (0 : CodeUnit) ∉ id) :
    (0 : CodeUnit) ∉ identitySubjectKey a := by
  have hscope : (0 : CodeUnit) ∉ a.scope := by
    cases a <;> simp only [Identity.scope] <;> decide
  have hids : (0 : CodeUnit) ∉ joinIds a.ids := by
    cases a <;> simp_all [Identity.ids, joinIds]
  rw [identitySubjectKey_eq]
  simp [hscope, hids]

lemma SameKey.cacheKey_eq {a b : RunArgs} (h : SameKey a b) : a.cacheKey = b.cacheKey := by
  have hsubject : identitySubjectKey a.identity = identitySubjectKey b.identity := by
    rw [identitySubjectKey_eq, identitySubjectKey_eq, h.scope, h.ids]
  rw [RunArgs.cacheKey, RunArgs.cacheKey, hsubject, h.method, h.opId, h.key]

lemma SameKey.exists_cacheKey {a b : RunArgs} (h : SameKey a b) : ∃ k, a.cacheKey = some k := by
  cases hkey : a.key with
  | none => exact absurd hkey h.keyed
  | some key => exact ⟨_, by rw [RunArgs.cacheKey, hkey]; rfl⟩

/-- **A key of the store determines its parts**, where no identifier holds a separator. -/
theorem cacheKey_inj {a b : RunArgs} {k : JsString} (ha : a.Plain) (hb : b.Plain)
    (hak : a.cacheKey = some k) (hbk : b.cacheKey = some k) : SameKey a b := by
  obtain ⟨keyA, hkeyA, rfl⟩ := Option.map_eq_some_iff.1 hak
  obtain ⟨keyB, hkeyB, h⟩ := Option.map_eq_some_iff.1 hbk
  obtain ⟨hsubject, hrest⟩ :=
    split_at_separator (nul_not_mem_subject hb.ids) (nul_not_mem_subject ha.ids) h
  obtain ⟨hmethod, hrest⟩ := split_at_separator hb.method ha.method hrest
  obtain ⟨hopId, hkey⟩ := split_at_separator hb.opId ha.opId hrest
  obtain ⟨hscope, hids⟩ := identitySubjectKey_inj hb.cronjob ha.cronjob hsubject
  exact
    { keyed := by simp [hkeyA]
      scope := hscope.symm
      ids := hids.symm
      method := hmethod.symm
      opId := hopId.symm
      key := by rw [hkeyA, hkeyB, hkey] }

/-! ## The invariant -/

namespace IdempotencyCache

variable {R E : Type} {sha256 : JsString → JsString} {ttlMs : ℤ} {s : IdempotencyCache R E}

/-- An execution is one of the protected request of a call: it is under the same key, and its body
has the same hash. -/
def Serves (sha256 : JsString → JsString) (x c : RunArgs) : Prop :=
  (∃ k, x.cacheKey = some k ∧ c.cacheKey = some k) ∧
    sha256 x.bodyFingerprint = sha256 c.bodyFingerprint

/-- The store, the executions and the calls fit together. -/
structure Sound (sha256 : JsString → JsString) (s : IdempotencyCache R E) : Prop where
  nodup : (s.store.map Prod.fst).Nodup
  pending : ∀ k h i, JsMap.get s.store k = some (.pending h i) →
    ∃ x : Execution R E, s.executions[i]? = some x ∧ x.args.cacheKey = some k ∧
      sha256 x.args.bodyFingerprint = h
  done : ∀ k h r t, JsMap.get s.store k = some (.done h r t) →
    ∃ (i : ℕ) (x : Execution R E), s.executions[i]? = some x ∧ x.args.cacheKey = some k ∧
      sha256 x.args.bodyFingerprint = h ∧ x.result = some (.ok r)
  inFlight : ∀ (i : ℕ) (x : Execution R E) k, s.executions[i]? = some x → x.result = none →
    x.args.cacheKey = some k →
      JsMap.get s.store k = some (.pending (sha256 x.args.bodyFingerprint) i)
  running : ∀ (n : ℕ) (c : IdempotentCall R E) i, s.calls[n]? = some c → c.state = .running i →
    (∃ x : Execution R E, s.executions[i]? = some x ∧ x.args = c.args) ∧
      ∀ k, c.args.cacheKey = some k →
        JsMap.get s.store k = some (.pending (sha256 c.args.bodyFingerprint) i)
  owner : ∀ (m n : ℕ) (c d : IdempotentCall R E) i, s.calls[m]? = some c →
    s.calls[n]? = some d → c.state = .running i → d.state = .running i → m = n
  waiting : ∀ (n : ℕ) (c : IdempotentCall R E) i, s.calls[n]? = some c → c.state = .waiting i →
    ∃ x : Execution R E, s.executions[i]? = some x ∧ Serves sha256 x.args c.args
  replayed : ∀ (n : ℕ) (c : IdempotentCall R E) r, s.calls[n]? = some c →
    c.state = .answered (.replayed r) → ∃ (i : ℕ) (x : Execution R E),
      s.executions[i]? = some x ∧ Serves sha256 x.args c.args ∧ x.result = some (.ok r)

lemma sound_empty : Sound sha256 (empty : IdempotencyCache R E) where
  nodup := List.nodup_nil
  pending := by simp [empty, JsMap.get]
  done := by simp [empty, JsMap.get]
  inFlight := by simp [empty]
  running := by simp [empty]
  owner := by simp [empty]
  waiting := by simp [empty]
  replayed := by simp [empty]

variable {store : JsMap JsString (IdempotencyEntry R)} {args : RunArgs} {now : ℤ}
  {e : IdempotencyEntry R} {k : JsString}

lemma get_pruneExpired
    (h : (store.map Prod.fst).Nodup) (now : ℤ) (k : JsString) :
    JsMap.get (pruneExpired store now) k = (JsMap.get store k).filter (·.live now) :=
  JsMap.get_filter h (fun e => e.2.live now) k

lemma of_get_pruneExpired
    (h : (store.map Prod.fst).Nodup)
    (hget : JsMap.get (pruneExpired store now) k = some e) :
    JsMap.get store k = some e ∧ e.live now = true := by
  rw [get_pruneExpired h, Option.filter_eq_some_iff] at hget
  exact hget

lemma get_pruneExpired_pending
    (h : (store.map Prod.fst).Nodup) (now : ℤ) {k b : JsString} {i : ℕ}
    (hget : JsMap.get store k = some (.pending b i)) :
    JsMap.get (pruneExpired store now) k = some (.pending b i) := by
  rw [get_pruneExpired h, hget]
  rfl

lemma Sound.prune (h : Sound sha256 s) (now : ℤ) :
    Sound sha256 { s with store := pruneExpired s.store now } where
  __ := h
  nodup := h.nodup.sublist (List.filter_sublist.map _)
  pending := fun k b i hget => h.pending k b i (of_get_pruneExpired h.nodup hget).1
  done := fun k b r t hget => h.done k b r t (of_get_pruneExpired h.nodup hget).1
  inFlight := fun i x k hx hr hk => get_pruneExpired_pending h.nodup now (h.inFlight i x k hx hr hk)
  running := fun n c i hc hstate => ⟨(h.running n c i hc hstate).1, fun k hk =>
    get_pruneExpired_pending h.nodup now ((h.running n c i hc hstate).2 k hk)⟩

/-- A call that is answered or waits keeps the invariant. -/
lemma Sound.answer (h : Sound sha256 s) {state : CallState R E}
    (hrunning : ∀ i, state ≠ .running i)
    (hwaiting : ∀ i, state = .waiting i → ∃ x : Execution R E, s.executions[i]? = some x ∧
      Serves sha256 x.args args)
    (hreplayed : ∀ r, state = .answered (.replayed r) → ∃ (i : ℕ) (x : Execution R E),
      s.executions[i]? = some x ∧ Serves sha256 x.args args ∧ x.result = some (.ok r)) :
    Sound sha256 (s.answer args state) where
  __ := h
  running := by
    intro n c i hc hstate
    rcases Trace.getElem?_concat hc with hc | ⟨-, rfl⟩
    · exact h.running n c i hc hstate
    · exact absurd hstate (hrunning i)
  owner := by
    intro m n c d i hc hd hcstate hdstate
    rcases Trace.getElem?_concat hc with hc | ⟨-, rfl⟩
    · rcases Trace.getElem?_concat hd with hd | ⟨-, rfl⟩
      · exact h.owner m n c d i hc hd hcstate hdstate
      · exact absurd hdstate (hrunning i)
    · exact absurd hcstate (hrunning i)
  waiting := by
    intro n c i hc hstate
    rcases Trace.getElem?_concat hc with hc | ⟨-, rfl⟩
    · exact h.waiting n c i hc hstate
    · exact hwaiting i hstate
  replayed := by
    intro n c r hc hstate
    rcases Trace.getElem?_concat hc with hc | ⟨-, rfl⟩
    · exact h.replayed n c r hc hstate
    · exact hreplayed r hstate

/-- A handler that is called keeps the invariant: its entry joins the store when it is protected and
does not throw at once. -/
lemma Sound.start (h : Sound sha256 s) {thrown : Option E}
    (hnodup : (store.map Prod.fst).Nodup)
    (hkeep : ∀ k e, JsMap.get s.store k = some e → JsMap.get store k = some e)
    (hnew : ∀ k e, JsMap.get store k = some e → JsMap.get s.store k = some e ∨
      args.cacheKey = some k ∧ e = .pending (sha256 args.bodyFingerprint) s.executions.length)
    (hentry : thrown = none → ∀ k, args.cacheKey = some k →
      JsMap.get store k = some (.pending (sha256 args.bodyFingerprint) s.executions.length)) :
    Sound sha256 { s.start args thrown with store := store } := by
  -- the new execution and the new call, whether the handler throws or not
  obtain ⟨x, c, hstart, hxargs, hcargs, hx, hc⟩ : ∃ (x : Execution R E) (c : IdempotentCall R E),
      s.start args thrown = { s with
        executions := s.executions ++ [x]
        calls := s.calls ++ [c] } ∧ x.args = args ∧ c.args = args ∧
        (x.result = none → thrown = none) ∧
        (c.state = .running s.executions.length ∧ thrown = none ∨ ∃ e, c.state = .failed e) := by
    cases thrown with
    | none => exact ⟨_, _, rfl, rfl, rfl, fun _ => rfl, Or.inl ⟨rfl, rfl⟩⟩
    | some e => exact ⟨_, _, rfl, rfl, rfl, nofun, Or.inr ⟨e, rfl⟩⟩
  rw [hstart]
  have hlast : (s.executions ++ [x])[s.executions.length]? = some x := List.getElem?_concat_length
  have hold : ∀ {i : ℕ} {y : Execution R E}, s.executions[i]? = some y →
      (s.executions ++ [x])[i]? = some y := fun hy => Trace.getElem?_append_of_some hy [x]
  -- the calls before run executions before
  have hbefore : ∀ (n : ℕ) (d : IdempotentCall R E) i, s.calls[n]? = some d →
      d.state = .running i → i < s.executions.length := by
    intro n d i hd hstate
    obtain ⟨⟨y, hy, -⟩, -⟩ := h.running n d i hd hstate
    exact (List.getElem?_eq_some_iff.1 hy).1
  have hrunning : ∀ i, c.state = .running i → i = s.executions.length ∧ thrown = none := by
    intro i hstate
    rcases hc with ⟨hrun, hnone⟩ | ⟨e, hfail⟩
    · rw [hrun] at hstate
      cases hstate
      exact ⟨rfl, hnone⟩
    · rw [hfail] at hstate
      cases hstate
  refine
    { nodup := hnodup
      pending := ?_
      done := ?_
      inFlight := ?_
      running := ?_
      owner := ?_
      waiting := ?_
      replayed := ?_ }
  · intro k b i hget
    rcases hnew k _ hget with hget | ⟨hk, heq⟩
    · obtain ⟨y, hy, hrest⟩ := h.pending k b i hget
      exact ⟨y, hold hy, hrest⟩
    · cases heq
      exact ⟨x, hlast, by rw [hxargs]; exact hk, by rw [hxargs]⟩
  · intro k b r t hget
    rcases hnew k _ hget with hget | ⟨-, heq⟩
    · obtain ⟨i, y, hy, hrest⟩ := h.done k b r t hget
      exact ⟨i, y, hold hy, hrest⟩
    · cases heq
  · intro i y k hy hresult hk
    rcases Trace.getElem?_concat hy with hy | ⟨rfl, rfl⟩
    · exact hkeep k _ (h.inFlight i y k hy hresult hk)
    · rw [hxargs] at hk ⊢
      exact hentry (hx hresult) k hk
  · intro n d i hd hstate
    rcases Trace.getElem?_concat hd with hd | ⟨-, rfl⟩
    · obtain ⟨⟨y, hy, hargs⟩, hget⟩ := h.running n d i hd hstate
      exact ⟨⟨y, hold hy, hargs⟩, fun k hk => hkeep k _ (hget k hk)⟩
    · obtain ⟨rfl, hnone⟩ := hrunning i hstate
      refine ⟨⟨x, hlast, hxargs.trans hcargs.symm⟩, fun k hk => ?_⟩
      rw [hcargs] at hk ⊢
      exact hentry hnone k hk
  · intro m n d d' i hd hd' hstate hstate'
    rcases Trace.getElem?_concat hd with hfirst | ⟨rfl, rfl⟩ <;>
      rcases Trace.getElem?_concat hd' with hsecond | ⟨rfl, rfl⟩
    · exact h.owner m n d d' i hfirst hsecond hstate hstate'
    · have hlt := hbefore m d i hfirst hstate
      have heq := (hrunning i hstate').1
      omega
    · have hlt := hbefore n d' i hsecond hstate'
      have heq := (hrunning i hstate).1
      omega
    · rfl
  · intro n d i hd hstate
    rcases Trace.getElem?_concat hd with hd | ⟨-, rfl⟩
    · obtain ⟨y, hy, hserves⟩ := h.waiting n d i hd hstate
      exact ⟨y, hold hy, hserves⟩
    · rcases hc with ⟨hrun, -⟩ | ⟨e, hfail⟩ <;> simp_all
  · intro n d r hd hstate
    rcases Trace.getElem?_concat hd with hd | ⟨-, rfl⟩
    · obtain ⟨i, y, hy, hserves⟩ := h.replayed n d r hd hstate
      exact ⟨i, y, hold hy, hserves⟩
    · rcases hc with ⟨hrun, -⟩ | ⟨e, hfail⟩ <;> simp_all

lemma start_eq (s : IdempotencyCache R E) (args : RunArgs) (thrown : Option E) :
    s.start args thrown = { s.start args thrown with store := s.store } := by
  cases thrown <;> rfl

/-- What a call does: it is answered or waits, or its handler is called. -/
lemma run_cases (s : IdempotencyCache R E) (args : RunArgs) (now : ℤ) (thrown : Option E) :
    ∃ store, (∃ state, s.run sha256 args now thrown = { s with store := store }.answer args state) ∨
      s.run sha256 args now thrown = { s.start args thrown with store := store } := by
  unfold IdempotencyCache.run
  split
  · exact ⟨_, Or.inr (start_eq s args thrown)⟩
  · dsimp only
    split
    · refine ⟨pruneExpired s.store now, Or.inl ?_⟩
      split_ifs
      · exact ⟨_, rfl⟩
      · split <;> exact ⟨_, rfl⟩
    · split
      · exact ⟨pruneExpired s.store now, Or.inr rfl⟩
      · exact ⟨_, Or.inr rfl⟩

lemma settle_cases (s : IdempotencyCache R E) (execution : ℕ) (result : Except E R) :
    s.settle execution result = s ∨ ∃ x, s.executions[execution]? = some x ∧ x.result = none ∧
      s.settle execution result = { s with
        executions := s.executions.set execution { x with result := some result } } := by
  unfold IdempotencyCache.settle
  split
  · exact Or.inl rfl
  · next x hx =>
    split
    · exact Or.inl rfl
    · next hnone => exact Or.inr ⟨x, hx, hnone, rfl⟩

lemma resume_cases (s : IdempotencyCache R E) (call : ℕ) (now : ℤ) :
    s.resume sha256 ttlMs call now = s ∨ ∃ c store state, s.calls[call]? = some c ∧
      s.resume sha256 ttlMs call now = { s with
        store := store
        calls := s.calls.set call ⟨c.args, state⟩ } := by
  unfold IdempotencyCache.resume
  split
  · exact Or.inl rfl
  · next c hc =>
    split
    · split
      · exact Or.inl rfl
      · exact Or.inr ⟨c, _, _, hc, rfl⟩
    · split
      · exact Or.inl rfl
      · exact Or.inr ⟨c, _, _, hc, rfl⟩
    · exact Or.inl rfl
    · exact Or.inl rfl

/-- **A call keeps the invariant**, up to the point where it waits. -/
lemma Sound.run (h : Sound sha256 s) (args : RunArgs) (now : ℤ) (thrown : Option E) :
    Sound sha256 (s.run sha256 args now thrown) := by
  unfold IdempotencyCache.run
  split
  · next hkey =>
    rw [start_eq]
    refine h.start h.nodup (fun _ _ hget => hget) (fun _ _ hget => Or.inl hget) ?_
    intro _ k hk
    rw [hkey] at hk
    cases hk
  · next cacheKey hkey =>
    have hpruned := h.prune now
    dsimp only
    split
    · next existing hget =>
      split_ifs with hbody
      · exact hpruned.answer (by simp) (by simp) (by simp)
      · rw [not_not] at hbody
        split
        · next b i =>
          obtain ⟨x, hx, hxkey, hxbody⟩ := hpruned.pending _ _ _ hget
          refine hpruned.answer (by simp) (fun j hj => ?_) (by simp)
          cases hj
          exact ⟨x, hx, ⟨cacheKey, hxkey, hkey⟩, hxbody.trans hbody⟩
        · next b r t =>
          obtain ⟨i, x, hx, hxkey, hxbody, hxresult⟩ := hpruned.done _ _ _ _ hget
          refine hpruned.answer (by simp) (by simp) (fun r' hr => ?_)
          cases hr
          exact ⟨i, x, hx, ⟨⟨cacheKey, hxkey, hkey⟩, hxbody.trans hbody⟩, hxresult⟩
    · next hget =>
      split
      · next e =>
        rw [start_eq]
        refine hpruned.start hpruned.nodup (fun _ _ hget => hget) (fun _ _ hget => Or.inl hget) ?_
        intro hnone
        cases hnone
      · refine hpruned.start (JsMap.nodup_keys_set hpruned.nodup) ?_ ?_ ?_
        · intro k e hk
          rw [JsMap.get_set]
          split_ifs with heq
          · rw [heq, hget] at hk
            cases hk
          · exact hk
        · intro k e hk
          rw [JsMap.get_set] at hk
          split_ifs at hk with heq
          · exact Or.inr ⟨heq ▸ hkey, (Option.some.inj hk).symm⟩
          · exact Or.inl hk
        · intro _ k hk
          rw [hkey] at hk
          rw [JsMap.get_set, if_pos (Option.some.inj hk).symm]

/-- A promise that settles keeps the invariant. -/
lemma Sound.settle (h : Sound sha256 s) (execution : ℕ) (result : Except E R) :
    Sound sha256 (s.settle execution result) := by
  obtain hsame | ⟨x, hx, hnone, hsettle⟩ := s.settle_cases execution result
  · rwa [hsame]
  rw [hsettle]
  obtain ⟨hlt, -⟩ := List.getElem?_eq_some_iff.1 hx
  have hget : ∀ j, (s.executions.set execution { x with result := some result })[j]? =
      if execution = j then some { x with result := some result } else s.executions[j]? := by
    intro j
    rw [List.getElem?_set]
    simp [hlt]
  -- the executions keep their arguments, and their results if they have one
  have hgrow : ∀ (j : ℕ) (y : Execution R E), s.executions[j]? = some y →
      ∃ y' : Execution R E,
        (s.executions.set execution { x with result := some result })[j]? = some y' ∧
          y'.args = y.args ∧ ∀ r, y.result = some r → y'.result = some r := by
    intro j y hy
    rw [hget]
    by_cases hj : execution = j
    · subst hj
      obtain rfl : x = y := Option.some.inj (hx.symm.trans hy)
      refine ⟨_, if_pos rfl, rfl, fun r hr => ?_⟩
      rw [hnone] at hr
      cases hr
    · exact ⟨y, (if_neg hj).trans hy, rfl, fun r hr => hr⟩
  refine
    { h with
      pending := ?_
      done := ?_
      inFlight := ?_
      running := ?_
      waiting := ?_
      replayed := ?_ }
  · intro k b i hk
    obtain ⟨y, hy, hkey, hbody⟩ := h.pending k b i hk
    obtain ⟨y', hy', hargs, -⟩ := hgrow i y hy
    exact ⟨y', hy', by rw [hargs]; exact hkey, by rw [hargs]; exact hbody⟩
  · intro k b r t hk
    obtain ⟨i, y, hy, hkey, hbody, hr⟩ := h.done k b r t hk
    obtain ⟨y', hy', hargs, hresult⟩ := hgrow i y hy
    exact ⟨i, y', hy', by rw [hargs]; exact hkey, by rw [hargs]; exact hbody, hresult _ hr⟩
  · intro i y k hy hyresult hk
    change (s.executions.set execution { x with result := some result })[i]? = some y at hy
    rw [hget] at hy
    split_ifs at hy with hi
    · obtain rfl := Option.some.inj hy
      cases hyresult
    · exact h.inFlight i y k hy hyresult hk
  · intro n c i hc hstate
    obtain ⟨⟨y, hy, hyargs⟩, hk⟩ := h.running n c i hc hstate
    obtain ⟨y', hy', hargs, -⟩ := hgrow i y hy
    exact ⟨⟨y', hy', hargs.trans hyargs⟩, hk⟩
  · intro n c i hc hstate
    obtain ⟨y, hy, hserves⟩ := h.waiting n c i hc hstate
    obtain ⟨y', hy', hargs, -⟩ := hgrow i y hy
    exact ⟨y', hy', by rw [hargs]; exact hserves⟩
  · intro n c r hc hstate
    obtain ⟨i, y, hy, hserves, hr⟩ := h.replayed n c r hc hstate
    obtain ⟨y', hy', hargs, hresult⟩ := hgrow i y hy
    exact ⟨i, y', hy', by rw [hargs]; exact hserves, hresult _ hr⟩

/-- A call that goes on keeps the invariant: the call that started the handler puts the response
into the store or takes its entry out of it, and any other one leaves the store as it is. -/
lemma Sound.finish (h : Sound sha256 s) {n : ℕ} {c : IdempotentCall R E} {state : CallState R E}
    (hc : s.calls[n]? = some c)
    (hrunning : ∀ i, state ≠ .running i) (hwaiting : ∀ i, state ≠ .waiting i)
    (hreplayed : ∀ r, state = .answered (.replayed r) → ∃ (i : ℕ) (x : Execution R E),
      s.executions[i]? = some x ∧ Serves sha256 x.args c.args ∧ x.result = some (.ok r))
    (hnodup : (store.map Prod.fst).Nodup)
    (hstore : store = s.store ∨ ∃ i x, c.state = .running i ∧ s.executions[i]? = some x ∧
      x.result ≠ none ∧ ∃ k, c.args.cacheKey = some k ∧
        (∀ k', k' ≠ k → JsMap.get store k' = JsMap.get s.store k') ∧
        (JsMap.get store k = none ∨ ∃ r t, x.result = some (.ok r) ∧
          JsMap.get store k = some (.done (sha256 c.args.bodyFingerprint) r t))) :
    Sound sha256 { s with
      store := store
      calls := s.calls.set n ⟨c.args, state⟩ } := by
  obtain ⟨hlt, -⟩ := List.getElem?_eq_some_iff.1 hc
  -- the other calls stay as they are
  have hcalls : ∀ {m : ℕ} {d : IdempotentCall R E},
      (s.calls.set n ⟨c.args, state⟩)[m]? = some d →
        n = m ∧ d = ⟨c.args, state⟩ ∨ n ≠ m ∧ s.calls[m]? = some d := by
    intro m d hd
    rw [List.getElem?_set] at hd
    by_cases hm : n = m
    · subst hm
      simp only [if_true, hlt] at hd
      exact Or.inl ⟨rfl, (Option.some.inj hd).symm⟩
    · rw [if_neg hm] at hd
      exact Or.inr ⟨hm, hd⟩
  -- an entry in flight that is not the one of the call stays
  have hkeep : ∀ k b j, JsMap.get s.store k = some (.pending b j) → c.state ≠ .running j →
      JsMap.get store k = some (.pending b j) := by
    intro k b j hget hnot
    rcases hstore with rfl | ⟨i, x, hstate, hx, -, k', hk', hother, -⟩
    · exact hget
    · by_cases hk : k = k'
      · subst hk
        have hown := (h.running n c i hc hstate).2 k hk'
        rw [hown] at hget
        cases hget
        exact absurd hstate hnot
      · rw [hother k hk]
        exact hget
  refine
    { nodup := hnodup
      pending := ?_
      done := ?_
      inFlight := ?_
      running := ?_
      owner := ?_
      waiting := ?_
      replayed := ?_ }
  · intro k b j hget
    rcases hstore with rfl | ⟨i, x, hstate, hx, -, k', hk', hother, hown⟩
    · exact h.pending k b j hget
    · change JsMap.get store k = some (.pending b j) at hget
      by_cases hk : k = k'
      · subst hk
        rcases hown with hnone | ⟨r, t, -, hdone⟩
        · rw [hnone] at hget
          cases hget
        · rw [hdone] at hget
          cases hget
      · rw [hother k hk] at hget
        exact h.pending k b j hget
  · intro k b r t hget
    rcases hstore with rfl | ⟨i, x, hstate, hx, -, k', hk', hother, hown⟩
    · exact h.done k b r t hget
    · change JsMap.get store k = some (.done b r t) at hget
      by_cases hk : k = k'
      · subst hk
        rcases hown with hnone | ⟨r', t', hresult, hdone⟩
        · rw [hnone] at hget
          cases hget
        · rw [hdone] at hget
          cases hget
          obtain ⟨⟨y, hy, hargs⟩, -⟩ := h.running n c i hc hstate
          obtain rfl : x = y := Option.some.inj (hx.symm.trans hy)
          exact ⟨i, x, hx, by rw [hargs]; exact hk', by rw [hargs], hresult⟩
      · rw [hother k hk] at hget
        exact h.done k b r t hget
  · intro j y k hy hresult hk
    have hget := h.inFlight j y k hy hresult hk
    rcases hstore with rfl | ⟨i, x, hstate', hx, hsettled, -⟩
    · exact hget
    · refine hkeep k _ j hget fun hstate => ?_
      rw [hstate] at hstate'
      cases hstate'
      obtain rfl : x = y := Option.some.inj (hx.symm.trans hy)
      exact hsettled hresult
  · intro m d j hd hstate
    rcases hcalls hd with ⟨-, rfl⟩ | ⟨hne, hd⟩
    · exact absurd hstate (hrunning j)
    · obtain ⟨hexec, hget⟩ := h.running m d j hd hstate
      refine ⟨hexec, fun k hk => hkeep k _ j (hget k hk) fun hcstate => hne ?_⟩
      exact h.owner n m c d j hc hd hcstate hstate
  · intro m m' d d' j hd hd' hstate hstate'
    rcases hcalls hd with ⟨-, rfl⟩ | ⟨-, hd⟩
    · exact absurd hstate (hrunning j)
    · rcases hcalls hd' with ⟨-, rfl⟩ | ⟨-, hd'⟩
      · exact absurd hstate' (hrunning j)
      · exact h.owner m m' d d' j hd hd' hstate hstate'
  · intro m d j hd hstate
    rcases hcalls hd with ⟨-, rfl⟩ | ⟨-, hd⟩
    · exact absurd hstate (hwaiting j)
    · exact h.waiting m d j hd hstate
  · intro m d r hd hstate
    rcases hcalls hd with ⟨-, rfl⟩ | ⟨-, hd⟩
    · exact hreplayed r hstate
    · exact h.replayed m d r hd hstate

lemma nodup_complete
    {result : Except E R} (h : (store.map Prod.fst).Nodup) :
    ((complete sha256 ttlMs store args now result).map Prod.fst).Nodup := by
  unfold complete
  split
  · exact h
  · split
    · exact JsMap.nodup_keys_set h
    · split
      · exact JsMap.nodup_keys_delete h
      · exact h

lemma get_complete_of_ne
    {result : Except E R} {k k' : JsString} (hk : args.cacheKey = some k) (hne : k' ≠ k) :
    JsMap.get (complete sha256 ttlMs store args now result) k' = JsMap.get store k' := by
  unfold complete
  rw [hk]
  cases result with
  | ok r =>
    show JsMap.get (JsMap.set store k _) k' = _
    rw [JsMap.get_set, if_neg hne]
  | error e =>
    dsimp only
    split
    · rw [JsMap.get_delete, if_neg hne]
    · rfl

lemma get_complete_ok
    {r : R} (hk : args.cacheKey = some k) :
    JsMap.get (complete sha256 ttlMs store args now (.ok r : Except E R)) k =
      some (.done (sha256 args.bodyFingerprint) r (now + ttlMs)) := by
  unfold complete
  rw [hk]
  show JsMap.get (JsMap.set store k _) k = _
  rw [JsMap.get_set, if_pos rfl]

lemma get_complete_error
    {k b : JsString} {i : ℕ} {e : E} (hk : args.cacheKey = some k)
    (hget : JsMap.get store k = some (.pending b i)) :
    JsMap.get (complete sha256 ttlMs store args now (.error e : Except E R)) k = none := by
  unfold complete
  rw [hk]
  dsimp only
  rw [hget]
  show JsMap.get (JsMap.delete store k) k = none
  rw [JsMap.get_delete, if_pos rfl]

/-- **A call that goes on keeps the invariant.** -/
lemma Sound.resume (h : Sound sha256 s) (ttlMs : ℤ) (call : ℕ) (now : ℤ) :
    Sound sha256 (s.resume sha256 ttlMs call now) := by
  unfold IdempotencyCache.resume
  split
  · exact h
  · next c hc =>
    split
    · next i hstate =>
      split
      · exact h
      · next result hresult =>
        obtain ⟨x, hx, hxresult⟩ := Option.bind_eq_some_iff.1 hresult
        refine h.finish hc ?_ ?_ ?_ ?_ ?_
        · intro j
          cases result <;> nofun
        · intro j
          cases result <;> nofun
        · intro r
          cases result <;> nofun
        · exact nodup_complete h.nodup
        · cases hkey : c.args.cacheKey with
          | none => exact Or.inl (by rw [complete, hkey])
          | some k =>
            have hown := (h.running call c i hc hstate).2 k hkey
            refine Or.inr ⟨i, x, hstate, hx, by rw [hxresult]; nofun, k, rfl, ?_, ?_⟩
            · intro k' hk'
              exact get_complete_of_ne hkey hk'
            · cases result with
              | ok r => exact Or.inr ⟨r, now + ttlMs, hxresult, by
                  rw [get_complete_ok hkey]⟩
              | error e => exact Or.inl (get_complete_error hkey hown)
    · next i hstate =>
      split
      · exact h
      · next result hresult =>
        obtain ⟨x, hx, hxresult⟩ := Option.bind_eq_some_iff.1 hresult
        refine h.finish hc ?_ ?_ ?_ h.nodup (Or.inl rfl)
        · intro j
          cases result <;> nofun
        · intro j
          cases result <;> nofun
        · intro r hr
          cases result with
          | error e => cases hr
          | ok r' =>
            cases hr
            obtain ⟨y, hy, hserves⟩ := h.waiting call c i hc hstate
            obtain rfl : x = y := Option.some.inj (hx.symm.trans hy)
            exact ⟨i, x, hx, hserves, hxresult⟩
    · exact h
    · exact h

/-- **An event keeps the invariant.** -/
theorem sound_step (h : Sound sha256 s) (event : IdempotencyEvent R E) :
    Sound sha256 (step sha256 ttlMs s event) := by
  cases event with
  | call args now thrown => exact h.run args now thrown
  | settle execution result => exact h.settle execution result
  | resume call now => exact h.resume ttlMs call now

/-! ## What the cache promises -/

/-- The identifiers of the calls so far hold no separator. -/
structure AllPlain (s : IdempotencyCache R E) : Prop where
  executions : ∀ x ∈ s.executions, x.args.Plain
  calls : ∀ c ∈ s.calls, c.args.Plain

/-- The identifiers of a call that happens hold no separator. -/
def PlainEvent : IdempotencyEvent R E → Prop
  | .call args _ _ => args.Plain
  | .settle _ _ => True
  | .resume _ _ => True

/-- A good event keeps the identifiers plain. -/
lemma AllPlain.step (event : IdempotencyEvent R E) (hevent : PlainEvent event)
    (h : AllPlain s) : AllPlain (step sha256 ttlMs s event) := by
  cases event with
  | call args now thrown =>
    have hargs : args.Plain := hevent
    have hcalls (state : CallState R E) : ∀ c ∈ s.calls ++ [⟨args, state⟩], c.args.Plain := by
      intro c hc
      rcases List.mem_append.1 hc with hc | hc
      · exact h.calls c hc
      · exact List.mem_singleton.1 hc ▸ hargs
    have hexecutions (result : Option (Except E R)) :
        ∀ x ∈ s.executions ++ [⟨args, result⟩], x.args.Plain := by
      intro x hx
      rcases List.mem_append.1 hx with hx | hx
      · exact h.executions x hx
      · exact List.mem_singleton.1 hx ▸ hargs
    show AllPlain (s.run sha256 args now thrown)
    obtain ⟨store, ⟨state, hrun⟩ | hrun⟩ := @run_cases R E sha256 s args now thrown
    · exact hrun ▸ ⟨h.executions, hcalls state⟩
    · rw [hrun]
      cases thrown with
      | none => exact ⟨hexecutions _, hcalls _⟩
      | some e => exact ⟨hexecutions _, hcalls _⟩
  | settle execution result =>
    show AllPlain (s.settle execution result)
    obtain hsame | ⟨x, hx, -, hsettle⟩ := s.settle_cases execution result
    · rwa [hsame]
    · rw [hsettle]
      refine ⟨fun y hy => ?_, h.calls⟩
      rcases List.mem_or_eq_of_mem_set hy with hy | rfl
      · exact h.executions y hy
      · exact h.executions x (List.mem_of_getElem? hx)
  | resume call now =>
    show AllPlain (s.resume sha256 ttlMs call now)
    obtain hsame | ⟨c, store, state, hc, hresume⟩ := @resume_cases R E sha256 ttlMs s call now
    · rwa [hsame]
    · rw [hresume]
      refine ⟨h.executions, fun d hd => ?_⟩
      rcases List.mem_or_eq_of_mem_set hd with hd | rfl
      · exact h.calls d hd
      · exact h.calls c (List.mem_of_getElem? hc)

/-- What the cache promises, whatever interleaving led to its state. -/
structure RunsOnce (sha256 : JsString → JsString) (ttlMs : ℤ) (s : IdempotencyCache R E) :
    Prop where
  noOverlap : ∀ (i j : ℕ) (x y : Execution R E), s.executions[i]? = some x →
    s.executions[j]? = some y → SameKey x.args y.args → x.result = none → y.result = none → i = j
  /-- An execution under a key starts in a call of it, when none under the key is in flight and no
  entry of the key counts. -/
  starts : ∀ event (x : Execution R E),
    (step sha256 ttlMs s event).executions[s.executions.length]? = some x → x.args.key ≠ none →
      (∀ y ∈ s.executions, SameKey y.args x.args → y.result ≠ none) ∧
      ∃ now thrown, event = .call x.args now thrown ∧ ∀ k e, x.args.cacheKey = some k →
        JsMap.get s.store k = some e → e.live now = false
  entry : ∀ k e, JsMap.get s.store k = some e → ∃ x ∈ s.executions, x.args.cacheKey = some k ∧
    e.bodyHash = sha256 x.args.bodyFingerprint ∧
      ∀ h r t, e = .done h r t → x.result = some (.ok r)
  replayed : ∀ c ∈ s.calls, ∀ r, c.state = .answered (.replayed r) →
    ∃ x ∈ s.executions, SameKey x.args c.args ∧
      x.args.bodyFingerprint = c.args.bodyFingerprint ∧ x.result = some (.ok r)
  /-- A call with another body than the execution that is in flight under its key, or whose entry
  counts, is a conflict, and executes nothing. -/
  conflict : ∀ x ∈ s.executions, ∀ args now thrown, SameKey x.args args →
    x.args.bodyFingerprint ≠ args.bodyFingerprint →
    (x.result = none ∨ ∃ k e, x.args.cacheKey = some k ∧ JsMap.get s.store k = some e ∧
      e.bodyHash = sha256 x.args.bodyFingerprint ∧ e.live now = true) →
    (s.run sha256 args now thrown).executions = s.executions ∧
      (s.run sha256 args now thrown).calls = s.calls ++ [⟨args, .answered .conflict⟩]
  freed : ∀ (n : ℕ) (c : IdempotentCall R E) i e k now, s.calls[n]? = some c →
    c.state = .running i → s.executions[i]?.bind (·.result) = some (.error e) →
    c.args.cacheKey = some k → JsMap.get (s.resume sha256 ttlMs n now).store k = none

lemma Sound.noOverlap (h : Sound sha256 s) {i j : ℕ} {x y : Execution R E}
    (hx : s.executions[i]? = some x) (hy : s.executions[j]? = some y)
    (hsame : SameKey x.args y.args) (hxresult : x.result = none) (hyresult : y.result = none) :
    i = j := by
  obtain ⟨k, hk⟩ := hsame.exists_cacheKey
  have hxentry := h.inFlight i x k hx hxresult hk
  have hyentry := h.inFlight j y k hy hyresult (hsame.cacheKey_eq ▸ hk)
  exact (IdempotencyEntry.pending.inj (Option.some.inj (hxentry.symm.trans hyentry))).2

lemma run_conflict
    (thrown : Option E) (hk : args.cacheKey = some k)
    (hget : JsMap.get (pruneExpired s.store now) k = some e)
    (hbody : e.bodyHash ≠ sha256 args.bodyFingerprint) :
    s.run sha256 args now thrown =
      { s with store := pruneExpired s.store now }.answer args (.answered .conflict) := by
  unfold IdempotencyCache.run
  rw [hk]
  dsimp only
  rw [hget]
  dsimp only
  rw [if_pos hbody]

lemma run_executions_of_entry
    (thrown : Option E) (hk : args.cacheKey = some k)
    (hget : JsMap.get (pruneExpired s.store now) k = some e) :
    (s.run sha256 args now thrown).executions = s.executions := by
  unfold IdempotencyCache.run
  rw [hk]
  dsimp only
  rw [hget]
  dsimp only
  split_ifs
  · rfl
  · cases e <;> rfl

lemma run_executions (s : IdempotencyCache R E) (args : RunArgs) (now : ℤ) (thrown : Option E) :
    (s.run sha256 args now thrown).executions = s.executions ∨
      ∃ result, (s.run sha256 args now thrown).executions = s.executions ++ [⟨args, result⟩] := by
  obtain ⟨store, ⟨state, hrun⟩ | hrun⟩ := @run_cases R E sha256 s args now thrown
  · exact Or.inl (by rw [hrun]; rfl)
  · rw [hrun]
    cases thrown with
    | none => exact Or.inr ⟨none, rfl⟩
    | some e => exact Or.inr ⟨some (.error e), rfl⟩

lemma settle_length (s : IdempotencyCache R E) (execution : ℕ) (result : Except E R) :
    (s.settle execution result).executions.length = s.executions.length := by
  obtain hsame | ⟨x, -, -, hsettle⟩ := s.settle_cases execution result
  · rw [hsame]
  · rw [hsettle, List.length_set]

lemma resume_executions (s : IdempotencyCache R E) (call : ℕ) (now : ℤ) :
    (s.resume sha256 ttlMs call now).executions = s.executions := by
  obtain hsame | ⟨c, store, state, -, hresume⟩ := @resume_cases R E sha256 ttlMs s call now
  · rw [hsame]
  · rw [hresume]

/-- An execution that starts is the one of a call, and the store held nothing that counts. -/
lemma Sound.starts (h : Sound sha256 s) {event : IdempotencyEvent R E} {x : Execution R E}
    (hx : (step sha256 ttlMs s event).executions[s.executions.length]? = some x)
    (hkeyed : x.args.key ≠ none) :
    (∀ y ∈ s.executions, SameKey y.args x.args → y.result ≠ none) ∧
      ∃ now thrown, event = .call x.args now thrown ∧ ∀ k e, x.args.cacheKey = some k →
        JsMap.get s.store k = some e → e.live now = false := by
  obtain ⟨hlt, -⟩ := List.getElem?_eq_some_iff.1 hx
  cases event with
  | settle execution result =>
    change _ < (s.settle execution result).executions.length at hlt
    rw [settle_length] at hlt
    exact absurd hlt (lt_irrefl _)
  | resume call now =>
    change _ < (s.resume sha256 ttlMs call now).executions.length at hlt
    rw [resume_executions] at hlt
    exact absurd hlt (lt_irrefl _)
  | call args now thrown =>
    change (s.run sha256 args now thrown).executions[s.executions.length]? = some x at hx
    change _ < (s.run sha256 args now thrown).executions.length at hlt
    rcases @run_executions R E sha256 s args now thrown with hsame | ⟨result, hnew⟩
    · rw [hsame] at hlt
      exact absurd hlt (lt_irrefl _)
    · obtain rfl : (⟨args, result⟩ : Execution R E) = x := by
        rw [hnew, List.getElem?_concat_length] at hx
        exact Option.some.inj hx
      -- an entry that counts would have stopped the call
      have hnone : ∀ k e, args.cacheKey = some k → JsMap.get s.store k = some e →
          e.live now = false := by
        intro k e hk hget
        by_contra hlive
        rw [Bool.not_eq_false] at hlive
        have hpruned : JsMap.get (pruneExpired s.store now) k = some e := by
          rw [get_pruneExpired h.nodup, hget, Option.filter_some, if_pos hlive]
        rw [run_executions_of_entry thrown hk hpruned] at hlt
        exact lt_irrefl _ hlt
      refine ⟨fun y hy hsame hresult => ?_, now, thrown, rfl, hnone⟩
      obtain ⟨k, hk⟩ := hsame.exists_cacheKey
      obtain ⟨j, hj⟩ := List.mem_iff_getElem?.1 hy
      have hentry := h.inFlight j y k hj hresult hk
      have hdead := hnone k _ (hsame.cacheKey_eq ▸ hk) hentry
      cases hdead

lemma Sound.conflict (h : Sound sha256 s) (hsha : Function.Injective sha256) {x : Execution R E}
    (hx : x ∈ s.executions) {thrown : Option E}
    (hsame : SameKey x.args args) (hbody : x.args.bodyFingerprint ≠ args.bodyFingerprint)
    (hholds : x.result = none ∨ ∃ k e, x.args.cacheKey = some k ∧ JsMap.get s.store k = some e ∧
      e.bodyHash = sha256 x.args.bodyFingerprint ∧ e.live now = true) :
    (s.run sha256 args now thrown).executions = s.executions ∧
      (s.run sha256 args now thrown).calls = s.calls ++ [⟨args, .answered .conflict⟩] := by
  obtain ⟨k, e, hk, hget, hhash, hlive⟩ : ∃ k e, x.args.cacheKey = some k ∧
      JsMap.get s.store k = some e ∧ e.bodyHash = sha256 x.args.bodyFingerprint ∧
        e.live now = true := by
    rcases hholds with hresult | hentry
    · obtain ⟨k, hk⟩ := hsame.exists_cacheKey
      obtain ⟨j, hj⟩ := List.mem_iff_getElem?.1 hx
      exact ⟨k, _, hk, h.inFlight j x k hj hresult hk, rfl, rfl⟩
    · exact hentry
  have hpruned : JsMap.get (pruneExpired s.store now) k = some e := by
    rw [get_pruneExpired h.nodup, hget, Option.filter_some, if_pos hlive]
  have hne : e.bodyHash ≠ sha256 args.bodyFingerprint := by
    rw [hhash]
    exact fun heq => hbody (hsha heq)
  rw [run_conflict thrown (hsame.cacheKey_eq ▸ hk) hpruned hne]
  exact ⟨rfl, rfl⟩

lemma Sound.freed (h : Sound sha256 s) {n i : ℕ} {c : IdempotentCall R E} {e : E}
    (hc : s.calls[n]? = some c) (hstate : c.state = .running i)
    (hfailed : s.executions[i]?.bind (·.result) = some (.error e))
    (hk : c.args.cacheKey = some k) :
    JsMap.get (s.resume sha256 ttlMs n now).store k = none := by
  have hown := (h.running n c i hc hstate).2 k hk
  unfold IdempotencyCache.resume
  rw [hc]
  dsimp only
  rw [hstate]
  dsimp only
  rw [hfailed]
  show JsMap.get (complete sha256 ttlMs s.store c.args now (.error e)) k = none
  exact get_complete_error hk hown

lemma Sound.runsOnce (h : Sound sha256 s) (hplain : AllPlain s)
    (hsha : Function.Injective sha256) : RunsOnce sha256 ttlMs s where
  noOverlap := fun i j x y hx hy hsame hxresult hyresult =>
    h.noOverlap hx hy hsame hxresult hyresult
  starts := fun event x hx hkeyed => h.starts hx hkeyed
  entry := by
    intro k e hget
    cases e with
    | pending b i =>
      obtain ⟨x, hx, hk, hb⟩ := h.pending k b i hget
      exact ⟨x, List.mem_of_getElem? hx, hk, hb.symm, nofun⟩
    | done b r t =>
      obtain ⟨i, x, hx, hk, hb, hresult⟩ := h.done k b r t hget
      refine ⟨x, List.mem_of_getElem? hx, hk, hb.symm, fun b' r' t' heq => ?_⟩
      cases heq
      exact hresult
  replayed := by
    intro c hc r hstate
    obtain ⟨n, hn⟩ := List.mem_iff_getElem?.1 hc
    obtain ⟨i, x, hx, ⟨⟨k, hxk, hck⟩, hbody⟩, hresult⟩ := h.replayed n c r hn hstate
    have hmem := List.mem_of_getElem? hx
    exact ⟨x, hmem, cacheKey_inj (hplain.executions x hmem) (hplain.calls c hc) hxk hck,
      hsha hbody, hresult⟩
  conflict := fun x hx args now thrown hsame hbody hholds =>
    h.conflict hsha hx hsame hbody hholds
  freed := fun n c i e k now hc hstate hfailed hk => h.freed hc hstate hfailed hk

/-- **The cache keeps its promises in every run**: whatever the order in which calls come, promises
settle and calls go on. -/
theorem runs_once (sha256 : JsString → JsString) (hsha : Function.Injective sha256) (ttlMs : ℤ)
    (events : List (IdempotencyEvent R E)) (hplain : ∀ event ∈ events, PlainEvent event) :
    RunsOnce sha256 ttlMs (Machine.run (step sha256 ttlMs) empty events) := by
  have hsound : Sound sha256
      (Machine.run (step sha256 ttlMs) (empty : IdempotencyCache R E) events) :=
    Machine.run_invariant (fun _ event hs => sound_step hs event) sound_empty
  have hall : AllPlain (Machine.run (step sha256 ttlMs) (empty : IdempotencyCache R E) events) :=
    Machine.run_invariant_of_mem (fun _ event hevent hs => hs.step event hevent)
      ⟨nofun, nofun⟩ hplain
  exact hsound.runsOnce hall hsha

def retried : RunArgs :=
  ⟨.agent (some (js "a1")), js "POST", js "/v1/messages", some (js "k"), js "\x7b\x7d"⟩

/-- A request is retried while it is in flight: its handler runs once, and its response is
replayed. -/
theorem runs_once_retried :
    RunsOnce id 300000 (Machine.run (step id 300000) (empty : IdempotencyCache ℕ ℕ)
      [.call retried 0 none, .call retried 1 none, .settle 0 (.ok 7), .resume 1 2, .resume 0 3]) ∧
    (Machine.run (step id 300000) (empty : IdempotencyCache ℕ ℕ)
      [.call retried 0 none, .call retried 1 none, .settle 0 (.ok 7), .resume 1 2,
        .resume 0 3]).calls =
      [⟨retried, .answered (.ran 7)⟩, ⟨retried, .answered (.replayed 7)⟩] := by
  have hretried : retried.Plain :=
    { ids := by decide
      method := by decide
      opId := by decide
      cronjob := nofun }
  refine ⟨runs_once id Function.injective_id 300000 _ ?_, rfl⟩
  intro event hevent
  simp only [List.mem_cons, List.not_mem_nil, or_false] at hevent
  rcases hevent with rfl | rfl | rfl | rfl | rfl
  · exact hretried
  · exact hretried
  · trivial
  · trivial
  · trivial

end IdempotencyCache

end Isomux
