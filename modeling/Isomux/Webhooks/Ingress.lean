import Isomux.Foundations.Machine
import Isomux.Foundations.TokenBucket
import Isomux.Runtime.Maps
import Isomux.Runtime.Text
import Mathlib.Data.Rat.Floor

set_option autoImplicit false

/-!
# The ingress limit of a webhook (`src/server/webhooks/ingress.ts`)

Every request to a hook takes a token of the hook's bucket before its body is read. A request that
finds none is refused, and told how many seconds to wait. The bucket of a hook is made full with its
first request, and is dropped with the hook. Times and tokens are exact rational numbers here.

## Main results

* `Isomux.WebhookIngress.sound_step` — the buckets of all hooks keep their accounts.
* `Isomux.WebhookIngress.ingress_limited` — no window admits more of a hook's requests than its
  burst and the refill, and a request behind the advertised wait is admitted.
-/

namespace Isomux

def WEBHOOK_INGRESS_PER_MINUTE : ℚ := 300

def WEBHOOK_INGRESS_BURST : ℚ := 60

def refillPerMs : ℚ := WEBHOOK_INGRESS_PER_MINUTE / 60000

structure WebhookIngress where
  clock : ℚ
  buckets : JsMap JsString (TokenBucket ℚ)
  log : List (JsString × ℚ)

inductive WebhookIngressEvent where
  | elapse (ms : ℚ≥0)
  | request (hookId : JsString)
  | forget (hookId : JsString)
  deriving DecidableEq

namespace WebhookIngress

def start (clock : ℚ) : WebhookIngress := ⟨clock, [], []⟩

/-- `Math.max(1, Math.ceil((1 - bucket.tokens) / refillPerMs / 1000))`. -/
def waitSecs (tokens : ℚ) : ℤ := max 1 ⌈(1 - tokens) / refillPerMs / 1000⌉

variable (s : WebhookIngress)

/-- The bucket that a request meets, refilled. -/
def refilled (hookId : JsString) : TokenBucket ℚ :=
  ((JsMap.get s.buckets hookId).getD ⟨WEBHOOK_INGRESS_BURST, s.clock⟩).refill WEBHOOK_INGRESS_BURST
    refillPerMs s.clock

/-- `admit(hookId)`: the wait, when the bucket is empty, in whole seconds. -/
def admitRequest (hookId : JsString) : WebhookIngress × Option ℤ :=
  let bucket := s.refilled hookId
  if 1 ≤ bucket.tokens then
    ({ s with
        buckets := JsMap.set s.buckets hookId bucket.take
        log := s.log ++ [(hookId, s.clock)] }, none)
  else ({ s with buckets := JsMap.set s.buckets hookId bucket }, some (waitSecs bucket.tokens))

/-- `forget(hookId)`. -/
def forget (hookId : JsString) : WebhookIngress :=
  { s with
    buckets := JsMap.delete s.buckets hookId
    log := s.log.filter fun entry => entry.1 ≠ hookId }

def step : WebhookIngressEvent → WebhookIngress
  | .elapse ms => { s with clock := s.clock + ms }
  | .request hookId => (s.admitRequest hookId).1
  | .forget hookId => s.forget hookId

/-- When the requests of a hook were admitted. -/
def admittedAt (hookId : JsString) : List ℚ :=
  (s.log.filter fun entry => entry.1 = hookId).map Prod.snd

/-! ## The accounts -/

/-- The bucket of a hook keeps its accounts; a hook without a bucket has admitted nothing. -/
def SoundAt (hookId : JsString) : Prop :=
  match JsMap.get s.buckets hookId with
  | none => s.admittedAt hookId = []
  | some b =>
    TokenBucket.Accounts WEBHOOK_INGRESS_BURST refillPerMs (s.admittedAt hookId) b ∧
      b.time ≤ s.clock

def Sound : Prop := ∀ hookId, s.SoundAt hookId

lemma refillPerMs_pos : 0 < refillPerMs := by decide +kernel

variable {s : WebhookIngress} {hookId : JsString}

lemma SoundAt.refilled (h : s.SoundAt hookId) :
    TokenBucket.Accounts WEBHOOK_INGRESS_BURST refillPerMs (s.admittedAt hookId)
      (s.refilled hookId) := by
  unfold SoundAt at h
  unfold WebhookIngress.refilled
  cases hget : JsMap.get s.buckets hookId with
  | none =>
    rw [hget] at h
    rw [h]
    have hfull : TokenBucket.Accounts WEBHOOK_INGRESS_BURST refillPerMs [] _ :=
      .full (by decide) refillPerMs_pos.le s.clock
    exact hfull.refill refillPerMs_pos.le le_rfl
  | some b =>
    rw [hget] at h
    exact h.1.refill refillPerMs_pos.le h.2

lemma SoundAt.congr {s' : WebhookIngress} (h : s.SoundAt hookId)
    (hget : JsMap.get s'.buckets hookId = JsMap.get s.buckets hookId)
    (hlog : s'.admittedAt hookId = s.admittedAt hookId) (hclock : s.clock ≤ s'.clock) :
    s'.SoundAt hookId := by
  unfold SoundAt at h ⊢
  rw [hget, hlog]
  cases hb : JsMap.get s.buckets hookId with
  | none =>
    rw [hb] at h
    exact h
  | some b =>
    rw [hb] at h
    exact ⟨h.1, h.2.trans hclock⟩

lemma admittedAt_concat (log : List (JsString × ℚ)) (t : ℚ) (other : JsString)
    (hlog : s.log = log ++ [(hookId, t)]) :
    s.admittedAt other = ((log.filter fun entry => entry.1 = other).map Prod.snd) ++
      if hookId = other then [t] else [] := by
  rw [admittedAt, hlog, List.filter_append, List.map_append]
  by_cases h : hookId = other <;> simp [h]

lemma Sound.admitRequest (h : s.Sound) (hookId : JsString) :
    (s.admitRequest hookId).1.Sound := by
  intro other
  have hrefilled := (h hookId).refilled
  unfold WebhookIngress.admitRequest
  dsimp only
  by_cases hother : other = hookId
  · subst hother
    split_ifs with hpaid
    · have htake := hrefilled.take refillPerMs_pos.le hpaid
      unfold SoundAt
      rw [JsMap.get_set, if_pos rfl, admittedAt_concat s.log s.clock other rfl, if_pos rfl]
      exact ⟨htake, le_rfl⟩
    · unfold SoundAt
      rw [JsMap.get_set, if_pos rfl]
      exact ⟨hrefilled, le_rfl⟩
  · split_ifs with hpaid
    · refine (h other).congr ?_ ?_ le_rfl
      · rw [JsMap.get_set, if_neg hother]
      · rw [admittedAt_concat s.log s.clock other rfl, if_neg fun heq => hother heq.symm,
          List.append_nil]
        rfl
    · refine (h other).congr ?_ rfl le_rfl
      rw [JsMap.get_set, if_neg hother]

lemma Sound.forget (h : s.Sound) (hookId : JsString) : (s.forget hookId).Sound := by
  intro other
  by_cases hother : other = hookId
  · subst hother
    unfold SoundAt WebhookIngress.forget
    rw [JsMap.get_delete, if_pos rfl]
    simp [admittedAt, List.filter_filter]
  · refine (h other).congr ?_ ?_ le_rfl
    · rw [WebhookIngress.forget, JsMap.get_delete, if_neg hother]
    · rw [admittedAt, admittedAt, WebhookIngress.forget, List.filter_filter]
      congr 1
      refine List.filter_congr fun entry _ => ?_
      by_cases hentry : entry.1 = other <;> simp [hentry, hother]

/-- **The buckets of all hooks keep their accounts.** -/
theorem sound_step (h : s.Sound) (event : WebhookIngressEvent) : (s.step event).Sound := by
  cases event with
  | elapse ms =>
    exact fun other => (h other).congr rfl rfl (le_add_of_nonneg_right ms.coe_nonneg)
  | request hookId => exact h.admitRequest hookId
  | forget hookId => exact h.forget hookId

lemma sound_start (clock : ℚ) : (start clock).Sound := fun _ => rfl

/-! ## Behind a refusal -/

/-- The bucket of a hook is what a refusal left, or the hook is new. -/
def LeftBy (b : TokenBucket ℚ) (hookId : JsString) (s : WebhookIngress) : Prop :=
  JsMap.get s.buckets hookId = some b ∨ JsMap.get s.buckets hookId = none

lemma leftBy_step {b : TokenBucket ℚ} {event : WebhookIngressEvent}
    (hevent : event ≠ .request hookId) (h : LeftBy b hookId s) :
    LeftBy b hookId (s.step event) := by
  unfold LeftBy at h ⊢
  cases event with
  | elapse ms => exact h
  | request other =>
    have hne : hookId ≠ other := fun heq => hevent (heq ▸ rfl)
    have hsame : JsMap.get (s.admitRequest other).1.buckets hookId =
        JsMap.get s.buckets hookId := by
      unfold WebhookIngress.admitRequest
      dsimp only
      split_ifs <;> exact JsMap.get_set.trans (if_neg hne)
    rw [step, hsame]
    exact h
  | forget other =>
    rw [step, WebhookIngress.forget, JsMap.get_delete]
    split_ifs
    · exact .inr rfl
    · exact h

lemma missing_le_wait {tokens elapsed : ℚ} (h : 1000 * (waitSecs tokens : ℚ) ≤ elapsed) :
    1 - tokens ≤ elapsed * refillPerMs := by
  have hpos := refillPerMs_pos
  have hceil : (1 - tokens) / refillPerMs / 1000 ≤ (waitSecs tokens : ℚ) :=
    (Int.le_ceil _).trans (Int.cast_le.2 (le_max_right _ _))
  have hms : (1 - tokens) / refillPerMs ≤ elapsed := by linarith
  exact (div_le_iff₀ hpos).1 hms

lemma admitRequest_refused {w : ℤ} (h : (s.admitRequest hookId).2 = some w) :
    LeftBy (s.refilled hookId) hookId (s.admitRequest hookId).1 ∧
      (s.refilled hookId).time = s.clock ∧ w = waitSecs (s.refilled hookId).tokens := by
  unfold WebhookIngress.admitRequest at h ⊢
  dsimp only at h ⊢
  split_ifs at h ⊢ with hpaid
  exact ⟨.inl (JsMap.get_set.trans (if_pos rfl)), rfl, (Option.some.inj h).symm⟩

lemma admit_of_leftBy {b : TokenBucket ℚ} (h : LeftBy b hookId s)
    (hwait : b.time + 1000 * (waitSecs b.tokens : ℚ) ≤ s.clock) :
    (s.admitRequest hookId).2 = none := by
  have hburst : 1 ≤ WEBHOOK_INGRESS_BURST := by decide
  have hpaid : 1 ≤ (s.refilled hookId).tokens := by
    unfold WebhookIngress.refilled
    refine TokenBucket.one_le_refill hburst ?_
    rcases h with hget | hget
    · rw [hget]
      exact missing_le_wait (by rw [Option.getD_some]; linarith)
    · rw [hget, Option.getD_none, sub_self, zero_mul]
      exact sub_nonpos.2 hburst
  unfold WebhookIngress.admitRequest
  dsimp only
  rw [if_pos hpaid]

/-! ## Runs -/

/-- **A hook's requests are limited** in every run. In no window, wherever it lies, are more of them
admitted than the burst and the refill of its length; and behind a refusal, a request is admitted
when the advertised wait is over and no other request to the hook came in between. -/
theorem ingress_limited (clock : ℚ) (events : List WebhookIngressEvent) (hookId : JsString) :
    (∀ first length : ℚ, 0 ≤ length →
      (TokenBucket.admitted ((Machine.run step (start clock) events).admittedAt hookId) first
        (first + length) : ℚ) ≤ WEBHOOK_INGRESS_BURST + refillPerMs * length) ∧
    ∀ before between w, events = before ++ .request hookId :: between →
      ((Machine.run step (start clock) before).admitRequest hookId).2 = some w →
      .request hookId ∉ between →
      (Machine.run step (start clock) before).clock + 1000 * (w : ℚ) ≤
        (Machine.run step (start clock) events).clock →
      ((Machine.run step (start clock) events).admitRequest hookId).2 = none := by
  refine ⟨fun first length hlength => ?_, ?_⟩
  · have hsound : (Machine.run step (start clock) events).Sound :=
      Machine.run_invariant (fun s event h => sound_step h event) (sound_start clock)
    have hwindow := (hsound hookId).refilled.windows first (first + length)
      (le_add_of_nonneg_right hlength)
    rwa [add_sub_cancel_left] at hwindow
  · rintro before between w rfl hrefused hnone hwait
    rw [Machine.run_append, Machine.run_cons] at hwait ⊢
    obtain ⟨hleft, htime, rfl⟩ := admitRequest_refused hrefused
    have hbetween : ∀ event ∈ between, event ≠ .request hookId := by
      rintro event hmem rfl
      exact hnone hmem
    refine admit_of_leftBy (Machine.run_invariant_of_mem
      (fun s event hevent h => leftBy_step hevent h) hleft hbetween) ?_
    rw [htime]
    exact hwait

/-- A burst of requests, one more, and a second. -/
def spentBurst : List WebhookIngressEvent :=
  List.replicate 60 (.request (js "h")) ++ [.request (js "h"), .elapse 1000]

/-- The burst of a hook is admitted at once and no more, and the request that is refused then may be
made again a second later. -/
theorem ingress_limited_spent :
    (TokenBucket.admitted ((Machine.run step (start 0) spentBurst).admittedAt (js "h")) 0 (0 + 0) :
      ℚ) ≤ WEBHOOK_INGRESS_BURST + refillPerMs * 0 ∧
    ((Machine.run step (start 0) spentBurst).admitRequest (js "h")).2 = none := by
  obtain ⟨hwindow, hretry⟩ := ingress_limited 0 spentBurst (js "h")
  exact ⟨hwindow 0 0 le_rfl, hretry (List.replicate 60 (.request (js "h"))) [.elapse 1000] 1 rfl
    (by decide +kernel) (by decide) (by decide +kernel)⟩

end WebhookIngress

end Isomux
