import Isomux.ControlPlane.Webhook

set_option autoImplicit false

/-!
# An event of Stripe is applied once

Whatever comes between the steps of the deliveries, an event has one row in the ledger, which was
committed together with all that was written on its behalf; what was not answered with success left
nothing behind; and of two deliveries under one key the later one wrote what was fetched behind the
commit of the earlier one. Under two keys it need not: a session that does not name its subscription
can overtake an event of the subscription with an older fetch.

## Main results

* `Isomux.StripeWebhook.step_effect` — the effect of a step.
* `Isomux.StripeWebhook.Sound.step` — a step keeps the invariant.
* `Isomux.StripeWebhook.webhooks_applied_once` — the database behind every run.
* `Isomux.StripeWebhook.webhooks_overtaken` — two keys of one subscription.
-/

namespace Isomux.StripeWebhook

open World

/-! ## What a step does -/

/-- When the subscription was requested and answered. -/
def Stage.times : Stage → Option (ℕ × ℕ)
  | .readingSubscription _ _ _ requestedAt => some (requestedAt, requestedAt)
  | .readingCached _ _ _ requestedAt answeredAt => some (requestedAt, answeredAt)
  | .fetched f => some (f.requestedAt, f.answeredAt)
  | .unseen f => some (f.requestedAt, f.answeredAt)
  | .ready f _ => some (f.requestedAt, f.answeredAt)
  | _ => none

/-- A subscription is requested now, or it was requested before and is answered now or was before. -/
def Stage.Follows (now : ℕ) (stage stage' : Stage) : Prop :=
  ∀ r a, stage'.times = some (r, a) →
    r = now ∧ a = now ∨ ∃ a', stage.times = some (r, a') ∧ (a = a' ∨ a = now)

def Answer.success : Answer → Bool
  | .outcome o => o.status = 200
  | .thrown => false

inductive Effect (w w' : World) : Prop
  | quiet (hchains : w'.chains = w.chains) (hledger : w'.store.ledger = w.store.ledger)
    (hwritten : w'.store.written = w.store.written) (hcommits : w'.store.commits = w.store.commits)
  | added (delivery : Delivery) (note : JsString)
    (hchains : w'.chains = w.chains.add delivery (.running (.ignoring note)))
    (hstore : w'.store = w.store)
  | serialised (key : JsString) (delivery : Delivery)
    (hchains : w'.chains = w.chains.serialise key delivery) (hstore : w'.store = w.store)
  | started (i : ℕ) (hchains : w'.chains = w.chains.start i (beginStage w.now))
    (hstore : w'.store = w.store)
  | advanced (i : ℕ) (task : Task) (stage stage' : Stage) (hi : w.chains.tasks[i]? = some task)
    (hrun : task.state = .running stage) (hchains : w'.chains = w.chains.advance i task stage')
    (hstore : w'.store = w.store) (hfollows : stage.Follows w.now stage')
  | answered (i : ℕ) (task : Task) (stage : Stage) (answer : Answer)
    (hi : w.chains.tasks[i]? = some task) (hrun : task.state = .running stage)
    (hchains : w'.chains = w.chains.settle i task answer) (hstore : w'.store = w.store)
  /-- A transaction is committed, and its delivery is answered with success. -/
  | committed (i : ℕ) (task : Task) (stage : Stage) (answer : Answer) (commit : Commit)
    (ledger : KeyedTable EventRow.id) (hi : w.chains.tasks[i]? = some task)
    (hrun : task.state = .running stage) (hchains : w'.chains = w.chains.settle i task answer)
    (hledger : w.store.ledger.insert commit.event = some ledger)
    (hstore : w'.store = w.store.commit ledger commit) (hdelivery : commit.delivery = i)
    (hkey : commit.key = task.key) (hsuccess : answer.success = true)
    (htimes : ∀ f, commit.fetched = some f → stage.times = some (f.requestedAt, f.answeredAt))
  | crashed (hchains : w'.chains = w.chains.crash) (hstore : w'.store = w.store)

section Effects

variable {w : World} {i : ℕ} {task : Task} {stage : Stage}

lemma Effect.refl : Effect w w := .quiet rfl rfl rfl rfl

lemma throws_effect (hi : w.chains.tasks[i]? = some task) (hrun : task.state = .running stage)
    (message : JsString) : Effect w (w.throws i task message) :=
  .answered i task stage _ hi hrun rfl rfl

lemma goOn_effect {next : Next} (hi : w.chains.tasks[i]? = some task)
    (hrun : task.state = .running stage)
    (hnext : ∀ stage', next = .goOn stage' → stage.Follows w.now stage') :
    Effect w (w.goOn i task next) := by
  cases next with
  | goOn stage' => exact .advanced i task stage stage' hi hrun rfl rfl (hnext stage' rfl)
  | answer answer => exact .answered i task stage answer hi hrun rfl rfl

lemma follows_next {α : Type} {now : ℕ} {read : ReadResult α} {absent : Stage} {ok : α → Stage}
    (habsent : stage.Follows now absent) (hok : ∀ object, stage.Follows now (ok object))
    (stage' : Stage) (h : read.next absent ok = .goOn stage') : stage.Follows now stage' := by
  cases read with
  | ok object => exact Next.goOn.inj h ▸ hok object
  | absent => exact Next.goOn.inj h ▸ habsent
  | unavailable reason => cases h
  | otherMode => cases h
  | malformed message => cases h
  | failed message => cases h

lemma follows_ignoring {now : ℕ} {note : JsString} : stage.Follows now (.ignoring note) := nofun

lemma follows_requested {now : ℕ} {id : JsString} {session : Option SessionSnapshot}
    {invoice : Option InvoiceSnapshot} :
    stage.Follows now (.readingSubscription id session invoice now) := by
  rintro r a ⟨⟩
  exact .inl ⟨rfl, rfl⟩

lemma commit_effect {fetched : Fetched} {read : Option CachedSubscription} {facts : Facts} {now : ℤ}
    {thrown : JsString} (hi : w.chains.tasks[i]? = some task)
    (hrun : task.state = .running (.ready fetched read)) :
    Effect w (w.commit i task fetched read facts now thrown) := by
  unfold World.commit
  split
  · exact throws_effect hi hrun _
  · split_ifs
    · exact throws_effect hi hrun _
    · dsimp only
      split
      · exact throws_effect hi hrun _
      · rename_i ledger hledger
        exact .committed i task _ _ _ ledger hi hrun rfl hledger rfl rfl rfl rfl
          fun f hf => Option.some.inj hf ▸ rfl

lemma recordIgnored_effect {note thrown : JsString} (hi : w.chains.tasks[i]? = some task)
    (hrun : task.state = .running stage) : Effect w (w.recordIgnored i task note thrown) := by
  unfold World.recordIgnored
  split
  · exact throws_effect hi hrun _
  · dsimp only
    split
    · exact .answered i task stage _ hi hrun rfl rfl
    · rename_i ledger hledger
      refine .committed i task stage _ _ ledger hi hrun rfl hledger rfl rfl rfl rfl fun f hf => ?_
      cases hf

/-- A step of a delivery at its stage. -/
lemma stageStep_effect {event : Event} (hi : w.chains.tasks[i]? = some task)
    (hrun : task.state = .running stage) : Effect w (w.stageStep i task stage event) := by
  unfold stageStep
  split
  · split
    · refine goOn_effect hi hrun (follows_next follows_ignoring fun session => ?_)
      split
      · exact follows_requested
      · exact follows_ignoring
    · exact .refl
  · split
    · refine goOn_effect hi hrun (follows_next follows_ignoring fun invoice => ?_)
      split
      · exact follows_requested
      · exact follows_ignoring
    · exact .refl
  · split
    · refine goOn_effect hi hrun (follows_next ?_ fun subscription => ?_)
      · rintro r a ⟨⟩
        exact .inr ⟨_, rfl, .inr rfl⟩
      · rintro r a ⟨⟩
        exact .inr ⟨_, rfl, .inr rfl⟩
    · exact .refl
  · split
    · refine .advanced i task _ _ hi hrun rfl rfl ?_
      split
      · exact follows_ignoring
      · rintro r a ⟨⟩
        exact .inr ⟨_, rfl, .inl rfl⟩
    · exact .refl
  · split
    · unfold World.eventSeen
      split
      · exact .answered i task _ _ hi hrun rfl rfl
      · refine .advanced i task _ _ hi hrun rfl rfl ?_
        rintro r a ⟨⟩
        exact .inr ⟨_, rfl, .inl rfl⟩
    · exact .refl
  · split
    · refine .advanced i task _ _ hi hrun rfl rfl ?_
      rintro r a ⟨⟩
      exact .inr ⟨_, rfl, .inl rfl⟩
    · exact .refl
  · split
    · exact commit_effect hi hrun
    · exact .refl
  · split
    · exact recordIgnored_effect hi hrun
    · exact .refl
  · exact throws_effect hi hrun _
  · exact .refl

lemma onTask_effect {event : Event} : Effect w (w.onTask i event) := by
  unfold onTask
  split
  · exact .refl
  · rename_i task hi
    split
    · rename_i stage hrun
      exact stageStep_effect hi hrun
    · exact .refl

/-- **Effects.** The effect of a step. -/
theorem step_effect (event : Event) : Effect w (w.step event) := by
  cases event with
  | handle failure body =>
    dsimp only [World.step, World.handle]
    split
    · exact .refl
    · exact .added _ _ rfl rfl
    · exact .serialised _ _ rfl rfl
  | start i => exact .started i rfl rfl
  | session i read => exact onTask_effect
  | invoice i read => exact onTask_effect
  | subscription i read => exact onTask_effect
  | cached i => exact onTask_effect
  | eventSeen i => exact onTask_effect
  | ensureRow i => exact onTask_effect
  | commit i facts now thrown => exact onTask_effect
  | recordIgnored i thrown => exact onTask_effect
  | fail i message => exact onTask_effect
  | crash => exact .crashed rfl rfl
  | otherWrite row => exact .quiet rfl rfl rfl rfl

end Effects

/-! ## The invariant -/

/-- A delivery that has requested its subscription did so behind every commit under its key. -/
def InTurn (w : World) (task : Task) (stage : Stage) : Prop :=
  ∀ r a, stage.times = some (r, a) → r ≤ a ∧ a ≤ w.now ∧
    ∀ (n : ℕ) c k, w.store.commits[n]? = some c → c.key = some k → task.key = some k → n < r

structure Sound (w : World) : Prop where
  chains : w.chains.Sound
  ledger : w.store.ledger.rows = w.store.commits.map (·.event)
  written : w.store.written =
    w.store.commits.flatMap fun c => c.writes.map fun write => (c.event.id, write)
  delivered : ∀ c ∈ w.store.commits, ∃ task answer, w.chains.tasks[c.delivery]? = some task ∧
    task.state = .settled answer ∧ answer.success = true
  running : ∀ (i : ℕ) task stage, w.chains.tasks[i]? = some task → task.state = .running stage →
    InTurn w task stage
  ordered : ∀ (n m : ℕ) c c' k f, n < m → w.store.commits[n]? = some c →
    w.store.commits[m]? = some c' → c.key = some k → c'.key = some k → c'.fetched = some f →
    n < f.requestedAt ∧ f.requestedAt ≤ f.answeredAt

lemma start_sound (mode : StripeMode) (subscriptions : KeyedTable CachedSubscription.id) :
    Sound (start mode subscriptions) where
  chains := PromiseChains.sound_empty
  ledger := rfl
  written := rfl
  delivered _ h := absurd h List.not_mem_nil
  running _ _ _ h := nomatch h
  ordered _ _ _ _ _ _ _ h := nomatch h

section Step

variable {w w' : World}

lemma Effect.chains (h : Effect w w') (hs : Sound w) : w'.chains.Sound := by
  cases h with
  | quiet hchains => exact hchains ▸ hs.chains
  | added delivery note hchains => exact hchains ▸ hs.chains.add _ _
  | serialised key delivery hchains => exact hchains ▸ hs.chains.serialise _ _
  | started i hchains => exact hchains ▸ hs.chains.start _
  | advanced i task stage stage' hi hrun hchains => exact hchains ▸ hs.chains.advance hi hrun
  | answered i task stage answer hi hrun hchains => exact hchains ▸ hs.chains.settle hi hrun
  | committed i task stage answer commit ledger hi hrun hchains =>
    exact hchains ▸ hs.chains.settle hi hrun
  | crashed hchains => exact hchains ▸ hs.chains.crash

lemma Effect.over (h : Effect w w') {j : ℕ} {task : Task} (hj : w.chains.tasks[j]? = some task)
    (hover : task.state.isOver = true) : w'.chains.tasks[j]? = some task := by
  cases h with
  | quiet hchains => exact hchains ▸ hj
  | added delivery note hchains | serialised key delivery hchains =>
    exact hchains ▸ Trace.getElem?_append_of_some hj _
  | started i hchains => exact hchains ▸ PromiseChains.getElem?_start_of_isOver hj hover
  | advanced i other stage stage' hi hrun hchains =>
    exact hchains ▸ PromiseChains.getElem?_setState_of_isOver hi hrun hj hover
  | answered i other stage answer hi hrun hchains
  | committed i other stage answer commit ledger hi hrun hchains =>
    rw [hchains, PromiseChains.tasks_settle]
    exact PromiseChains.getElem?_setState_of_isOver hi hrun hj hover
  | crashed hchains => exact hchains ▸ PromiseChains.getElem?_crash_of_isOver hj hover

lemma Effect.commits (h : Effect w w') :
    (w'.store.commits = w.store.commits ∧ w'.store.ledger = w.store.ledger ∧
      w'.store.written = w.store.written) ∨
    ∃ i task stage answer commit ledger, w.chains.tasks[i]? = some task ∧
      task.state = .running stage ∧ w'.chains = w.chains.settle i task answer ∧
      w.store.ledger.insert commit.event = some ledger ∧
      w'.store = w.store.commit ledger commit ∧ commit.delivery = i ∧ commit.key = task.key ∧
      answer.success = true ∧
      ∀ f, commit.fetched = some f → stage.times = some (f.requestedAt, f.answeredAt) := by
  have hsame : w'.store = w.store → w'.store.commits = w.store.commits ∧
      w'.store.ledger = w.store.ledger ∧ w'.store.written = w.store.written := by
    intro hstore
    rw [hstore]
    exact ⟨rfl, rfl, rfl⟩
  cases h with
  | quiet hchains hledger hwritten hcommits => exact .inl ⟨hcommits, hledger, hwritten⟩
  | added delivery note hchains hstore | serialised key delivery hchains hstore
  | started i hchains hstore | advanced i task stage stage' hi hrun hchains hstore
  | answered i task stage answer hi hrun hchains hstore | crashed hchains hstore =>
    exact .inl (hsame hstore)
  | committed i task stage answer commit ledger hi hrun hchains hledger hstore hdelivery hkey
      hsuccess htimes =>
    exact .inr ⟨i, task, stage, answer, commit, ledger, hi, hrun, hchains, hledger, hstore,
      hdelivery, hkey, hsuccess, htimes⟩

/-- What runs behind a step ran before under its key, or it begins. -/
lemma Effect.runs (h : Effect w w') {j : ℕ} {task : Task} {stage : Stage}
    (hj : w'.chains.tasks[j]? = some task) (hrun : task.state = .running stage) :
    (∃ old stage₀, w.chains.tasks[j]? = some old ∧ old.state = .running stage₀ ∧
      old.key = task.key ∧ stage₀.Follows w.now stage) ∨
    ∀ r a, stage.times = some (r, a) → r = w.now ∧ a = w.now := by
  have hfollows : stage.Follows w.now stage := fun r a h => .inr ⟨a, h, .inl rfl⟩
  cases h with
  | quiet hchains => exact .inl ⟨task, stage, hchains ▸ hj, hrun, rfl, hfollows⟩
  | added delivery note hchains =>
    rw [hchains] at hj
    rcases Trace.getElem?_concat hj with hold | ⟨-, rfl⟩
    · exact .inl ⟨task, stage, hold, hrun, rfl, hfollows⟩
    · cases hrun
      exact .inr nofun
  | serialised key delivery hchains =>
    rw [hchains] at hj
    rcases Trace.getElem?_concat hj with hold | ⟨-, rfl⟩
    · exact .inl ⟨task, stage, hold, hrun, rfl, hfollows⟩
    · cases hrun
  | started i hchains =>
    rw [hchains] at hj
    rcases PromiseChains.getElem?_start hj with hold | ⟨old, -, -, rfl⟩
    · exact .inl ⟨task, stage, hold, hrun, rfl, hfollows⟩
    · cases hrun
      refine .inr fun r a htimes => ?_
      unfold beginStage at htimes
      dsimp only at htimes
      split_ifs at htimes <;> first | cases htimes | skip
      split at htimes
      · cases htimes
      · cases htimes
        exact ⟨rfl, rfl⟩
  | advanced i other stage₀ stage' hi hrun₀ hchains hstore hfollows' =>
    rw [hchains] at hj
    rcases PromiseChains.getElem?_setState hj with ⟨-, hold⟩ | ⟨rfl, rfl⟩
    · exact .inl ⟨task, stage, hold, hrun, rfl, hfollows⟩
    · cases hrun
      exact .inl ⟨other, stage₀, hi, hrun₀, rfl, hfollows'⟩
  | answered i other stage₀ answer hi hrun₀ hchains
  | committed i other stage₀ answer commit ledger hi hrun₀ hchains =>
    rw [hchains, PromiseChains.tasks_settle] at hj
    rcases PromiseChains.getElem?_setState hj with ⟨-, hold⟩ | ⟨rfl, rfl⟩
    · exact .inl ⟨task, stage, hold, hrun, rfl, hfollows⟩
    · cases hrun
  | crashed hchains =>
    have hover := PromiseChains.isOver_crash (hchains ▸ hj)
    rw [hrun] at hover
    cases hover

/-- What runs requested its subscription in its turn.

**Proof sketch.** A commit is one more under the key of a delivery that runs. If another one of the
key ran, the two would be one, and the one that committed is settled. -/
lemma Effect.inTurn (h : Effect w w') (hs : Sound w) {j : ℕ} {task : Task} {stage : Stage}
    (hj : w'.chains.tasks[j]? = some task) (hrun : task.state = .running stage) :
    InTurn w' task stage := by
  have hnow : w.now ≤ w'.now := by
    rcases h.commits with ⟨hcommits, -⟩ | ⟨i, other, stage₀, answer, commit, ledger, -, -, -, -,
      hstore, -⟩
    · rw [World.now, World.now, hcommits]
    · rw [World.now, World.now, hstore, Store.commit, List.length_append]
      exact Nat.le_add_right _ _
  -- a commit under the key of the delivery was there before the step
  have hold : ∀ (n : ℕ) c k, w'.store.commits[n]? = some c → c.key = some k →
      task.key = some k → w.store.commits[n]? = some c := by
    intro n c k hn hc hk
    rcases h.commits with ⟨hcommits, -⟩ | ⟨i, other, stage₀, answer, commit, ledger, hi, hrun₀,
      hchains, -, hstore, -, hkey, -, -⟩
    · exact hcommits ▸ hn
    · rw [hstore] at hn
      rcases Trace.getElem?_concat hn with hn | ⟨-, rfl⟩
      · exact hn
      · -- the commit is that of a running delivery of the key, which is settled by it
        rw [hchains, PromiseChains.tasks_settle] at hj
        rcases PromiseChains.getElem?_setState hj with ⟨hne, hj⟩ | ⟨rfl, rfl⟩
        · exact absurd (hs.chains.eq_of_running hj hi hk (hkey ▸ hc) hrun hrun₀) hne
        · cases hrun
  intro r a htimes
  rcases h.runs hj hrun with ⟨old, stage₀, hold', hrun₀, hkey, hfollows⟩ | hbegins
  · rcases hfollows r a htimes with ⟨rfl, rfl⟩ | ⟨a', htimes₀, ha⟩
    · refine ⟨le_rfl, hnow, fun n c k hn hc hk => ?_⟩
      exact (List.getElem?_eq_some_iff.1 (hold n c k hn hc hk)).1
    · obtain ⟨hra, ha', hkeys⟩ := hs.running j old stage₀ hold' hrun₀ r a' htimes₀
      refine ⟨?_, ?_, fun n c k hn hc hk => hkeys n c k (hold n c k hn hc hk) hc (hkey.trans hk)⟩
      · rcases ha with rfl | rfl
        · exact hra
        · exact hra.trans ha'
      · rcases ha with rfl | rfl
        · exact ha'.trans hnow
        · exact hnow
  · obtain ⟨rfl, rfl⟩ := hbegins r a htimes
    refine ⟨le_rfl, hnow, fun n c k hn hc hk => ?_⟩
    exact (List.getElem?_eq_some_iff.1 (hold n c k hn hc hk)).1

/-- **Invariant.** A step keeps it. -/
theorem Sound.step (hs : Sound w) (h : Effect w w') : Sound w' := by
  refine ⟨h.chains hs, ?_, ?_, ?_, fun j task stage => h.inTurn hs, ?_⟩
  · rcases h.commits with ⟨hcommits, hledger, -⟩ | ⟨i, task, stage, answer, commit, ledger, -, -, -,
      hinsert, hstore, -⟩
    · rw [hcommits, hledger, hs.ledger]
    · obtain ⟨-, hrows⟩ := KeyedTable.insert_eq_some hinsert
      rw [hstore, Store.commit]
      dsimp only
      rw [hrows, hs.ledger, List.map_append, List.map_singleton]
  · rcases h.commits with ⟨hcommits, -, hwritten⟩ | ⟨i, task, stage, answer, commit, ledger, -, -,
      -, -, hstore, -⟩
    · rw [hcommits, hwritten, hs.written]
    · rw [hstore, Store.commit]
      dsimp only
      rw [hs.written, List.flatMap_append, List.flatMap_singleton]
  · intro c hc
    rcases h.commits with ⟨hcommits, -⟩ | ⟨i, task, stage, answer, commit, ledger, hi, hrun, hchains,
      -, hstore, hdelivery, -, hsuccess, -⟩
    · obtain ⟨task, answer, htask, hstate, hsuccess⟩ := hs.delivered c (hcommits ▸ hc)
      exact ⟨task, answer, h.over htask (by rw [hstate]; rfl), hstate, hsuccess⟩
    · rw [hstore] at hc
      rcases List.mem_append.1 hc with hc | hc
      · obtain ⟨task, answer, htask, hstate, hsuccess⟩ := hs.delivered c hc
        exact ⟨task, answer, h.over htask (by rw [hstate]; rfl), hstate, hsuccess⟩
      · obtain rfl := List.mem_singleton.1 hc
        refine ⟨{ task with state := .settled answer }, answer, ?_, rfl, hsuccess⟩
        rw [hchains, PromiseChains.tasks_settle, hdelivery]
        exact PromiseChains.getElem?_setState_self hi
  · intro n m c c' k f hnm hn hm hc hc' hf
    rcases h.commits with ⟨hcommits, -⟩ | ⟨i, task, stage, answer, commit, ledger, hi, hrun, -, -,
      hstore, -, hkey, -, htimes⟩
    · exact hs.ordered n m c c' k f hnm (hcommits ▸ hn) (hcommits ▸ hm) hc hc' hf
    · rw [hstore] at hn hm
      rcases Trace.getElem?_concat hm with hm | ⟨rfl, rfl⟩
      · rcases Trace.getElem?_concat hn with hn | ⟨rfl, -⟩
        · exact hs.ordered n m c c' k f hnm hn hm hc hc' hf
        · exact absurd (hnm.trans (List.getElem?_eq_some_iff.1 hm).1) (lt_irrefl _)
      · rcases Trace.getElem?_concat hn with hn | ⟨rfl, -⟩
        · obtain ⟨hra, -, hkeys⟩ := hs.running i task stage hi hrun _ _ (htimes f hf)
          exact ⟨hkeys n c k hn hc (hkey ▸ hc'), hra⟩
        · exact absurd hnm (lt_irrefl _)

theorem Sound.run (hs : Sound w) (events : List Event) : Sound (w.run events) :=
  Machine.run_invariant (fun _ event h => h.step (step_effect event)) hs

end Step

/-! ## The database behind a run -/

structure Accounted (w : World) : Prop where
  once : (w.store.commits.map (·.event.id)).Nodup
  ledger : w.store.ledger.rows = w.store.commits.map (·.event)
  together : w.store.written =
    w.store.commits.flatMap fun c => c.writes.map fun write => (c.event.id, write)
  unsuccessful : ∀ (i : ℕ) task answer, w.chains.tasks[i]? = some task →
    task.state = .settled answer → answer.success = false →
    ∀ c ∈ w.store.commits, c.delivery ≠ i
  atOnce : ∀ failure body answer, classify w.mode failure body = .answered answer →
    (w.step (.handle failure body)).store = w.store
  ordered : ∀ (n m : ℕ) c c' k f, n < m → w.store.commits[n]? = some c →
    w.store.commits[m]? = some c' → c.key = some k → c'.key = some k → c'.fetched = some f →
    n < f.requestedAt ∧ f.requestedAt ≤ f.answeredAt

lemma Sound.accounted {w : World} (hs : Sound w) : Accounted w where
  __ := hs
  once := by
    have hnodup := w.store.ledger.nodup
    rw [hs.ledger, List.map_map] at hnodup
    exact hnodup
  together := hs.written
  unsuccessful i task answer hi hstate hfailed c hc := by
    rintro rfl
    obtain ⟨task', answer', htask, hstate', hsuccess⟩ := hs.delivered c hc
    rw [hi] at htask
    obtain rfl := Option.some.inj htask
    rw [hstate] at hstate'
    obtain rfl := TaskState.settled.inj hstate'
    rw [hfailed] at hsuccess
    cases hsuccess
  atOnce failure body answer h := by
    dsimp only [World.step, World.handle]
    rw [h]

/-- **Webhooks.** Whatever the order of the steps, an event is committed once and with its row in
the ledger, a delivery that is not answered with success commits nothing, and the deliveries of one
key are applied in the order in which their subscriptions were fetched. -/
theorem webhooks_applied_once (mode : StripeMode)
    (subscriptions : KeyedTable CachedSubscription.id) (events : List Event) :
    Accounted ((start mode subscriptions).run events) :=
  ((start_sound mode subscriptions).run events).accounted

/-! ## Two keys of one subscription -/

/-- Of two events of one subscription, the one that was applied later was fetched behind the commit
of the earlier one. -/
def BySubscription (w : World) : Prop :=
  ∀ (n m : ℕ) c c' f f', n < m → w.store.commits[n]? = some c → w.store.commits[m]? = some c' →
    c.fetched = some f → c'.fetched = some f' → f'.subscription.id = f.subscription.id →
    n < f'.answeredAt

def eventBody (id type objectId : JsString) : JsValue :=
  .object [("id", .string id), ("type", .string type), ("created", .number 1),
    ("livemode", .bool false), ("data", .object [("object", .object [("id", .string objectId)])])]

def snapshotOf (status : JsString) : SubscriptionSnapshot where
  id := js "sub_1"
  customerId := js "cus_1"
  facts := ⟨status, none, false, none, none, none, none, none, none⟩

/-- A subscription that pays for no office. -/
def noOffice : Facts :=
  ⟨js "acct", .launch, none, none, none, none, false, none, none, none⟩

/-- The session of a subscription is fetched, and an event of the subscription is fetched and applied
in between. -/
def overtakingEvents : List Event :=
  [.handle none (some (eventBody (js "evt_1") (js "checkout.session.completed") (js "cs_1"))),
    .handle none (some (eventBody (js "evt_2") (js "customer.subscription.updated") (js "sub_1"))),
    .start 0, .session 0 (.ok ⟨some (js "sub_1"), some (js "complete"), some (js "paid")⟩),
    .subscription 0 (.ok (snapshotOf (js "active"))), .start 1,
    .subscription 1 (.ok (snapshotOf (js "past_due"))), .eventSeen 1, .ensureRow 1,
    .commit 1 noOffice 5 [], .eventSeen 0, .ensureRow 0, .commit 0 noOffice 6 []]

/-- A session that does not name its subscription has a key of its own, and the older of two fetches
is written last. -/
theorem webhooks_overtaken :
    ¬ ∀ mode subscriptions events, BySubscription ((start mode subscriptions).run events) := by
  intro h
  have hcommits : ((start .test KeyedTable.empty).run overtakingEvents).store.commits.map
      (fun c => c.fetched.map fun f => (f.subscription.id, f.answeredAt)) =
        [some (js "sub_1", 0), some (js "sub_1", 0)] := by decide +kernel
  have hordered := h .test KeyedTable.empty overtakingEvents
  match hlist : ((start .test KeyedTable.empty).run overtakingEvents).store.commits with
  | [c, c'] =>
    rw [hlist] at hcommits
    simp only [List.map_cons, List.map_nil, List.cons.injEq, Option.map_eq_some_iff, and_true]
      at hcommits
    obtain ⟨⟨f, hf, hfirst⟩, f', hf', hsecond⟩ := hcommits
    have hlater := hordered 0 1 c c' f f' Nat.zero_lt_one (by rw [hlist]; rfl)
      (by rw [hlist]; rfl) hf hf' (congrArg Prod.fst (hsecond.trans hfirst.symm))
    rw [show f'.answeredAt = 0 from congrArg Prod.snd hsecond] at hlater
    cases hlater
  | [] => simp [hlist] at hcommits
  | [c] => simp [hlist] at hcommits
  | c :: c' :: c'' :: rest => simp [hlist] at hcommits

end Isomux.StripeWebhook
