import Isomux.Apps.MessageLimits

set_option autoImplicit false

/-!
# The budget of an app holds

What is delivered in the window of the day and what is held stay within the cap together, for a slot
is held in the turn in which the cap was looked at. So no window of a day has more commits than the
cap, wherever it lies, and no window of a minute more takes than the limit of the burst.

## Main results

* `Isomux.counted_step` — an event keeps the counters right.
* `Isomux.takeBurst_retry` — a call that waited as long as it was told is admitted.
* `Isomux.message_budget` — the limiter keeps its promises in every run.
-/

namespace Isomux

open SlidingWindow (within Keeps)

/-! ## The counters of a name -/

variable (counters : JsMap JsString AppCounters)

lemma countersFor_set (appName other : JsString)
    (c : AppCounters) : countersFor (JsMap.set counters appName c) other =
      if other = appName then c else countersFor counters other := by
  rw [countersFor, JsMap.get_set]
  split_ifs <;> rfl

lemma countersFor_releaseDaily
    (appName other : JsString) : countersFor (releaseDaily counters appName) other =
      if other = appName then
        { countersFor counters other with held := (countersFor counters other).held - 1 }
      else countersFor counters other := by
  unfold releaseDaily
  cases hget : JsMap.get counters appName with
  | none =>
    split_ifs with hname
    · rw [hname, countersFor, hget]
      rfl
    · rfl
  | some c =>
    dsimp only
    rw [countersFor_set]
    split_ifs with hname
    · rw [hname, countersFor, hget]
      rfl
    · rfl

/-- **What a take does**: the counters are pruned, and the take is refused when one of the limits
blocks, or counted otherwise. -/
lemma takeBurst_cases (t : ℤ) (appName : JsString) :
    let c := (countersFor counters appName).pruned t
    (∃ kind wait, (c.burstBlocked || c.dailyBlocked) = true ∧
      takeBurst counters t appName = (JsMap.set counters appName c, .refused kind wait) ∧
      wait = max (c.burstWait t) (c.dailyWait t)) ∨
    (c.burstBlocked = false ∧ c.dailyBlocked = false ∧ takeBurst counters t appName =
      (JsMap.set counters appName { c with burst := c.burst ++ [t] }, .ok)) := by
  intro c
  by_cases hblocked : (c.burstBlocked || c.dailyBlocked) = true
  · left
    by_cases hwait : c.burstWait t < c.dailyWait t
    · refine ⟨.daily, c.dailyWait t, hblocked, ?_, (max_eq_right hwait.le).symm⟩
      unfold takeBurst
      dsimp only
      rw [if_pos hblocked, if_pos hwait]
    · refine ⟨.burst, c.burstWait t, hblocked, ?_, (max_eq_left (not_lt.1 hwait)).symm⟩
      unfold takeBurst
      dsimp only
      rw [if_pos hblocked, if_neg hwait]
  · right
    rw [Bool.or_eq_true, not_or, Bool.not_eq_true, Bool.not_eq_true] at hblocked
    refine ⟨hblocked.1, hblocked.2, ?_⟩
    unfold takeBurst
    dsimp only
    rw [if_neg]
    rw [Bool.or_eq_true, not_or, Bool.not_eq_true, Bool.not_eq_true]
    exact hblocked

/-! ## The counters of an app -/

/-- The counters of an app are those of its record, and within the limits. -/
structure Counted (s : LimiterRun) (appName : JsString) : Prop where
  burst : Keeps APP_MESSAGE_BURST_WINDOW_MS (s.takesOf appName)
    (countersFor s.counters appName).burst s.clock
  daily : Keeps APP_MESSAGE_DAILY_WINDOW_MS (s.commitsOf appName)
    (countersFor s.counters appName).daily s.clock
  held : (countersFor s.counters appName).held = s.holdsOf appName
  burstWindow : ∀ start, within (s.takesOf appName) start (start + APP_MESSAGE_BURST_WINDOW_MS) ≤
    APP_MESSAGE_BURST_LIMIT
  dailyWindow : ∀ start,
    within (s.commitsOf appName) start (start + APP_MESSAGE_DAILY_WINDOW_MS) ≤
      APP_MESSAGE_DAILY_CAP
  room : within (s.commitsOf appName) (s.clock - APP_MESSAGE_DAILY_WINDOW_MS) s.clock +
    s.holdsOf appName ≤ APP_MESSAGE_DAILY_CAP

lemma counted_start (clock : ℤ) (appName : JsString) : Counted (.start clock) appName where
  burst := Keeps.nil
  daily := Keeps.nil
  held := rfl
  burstWindow := fun _ => Nat.zero_le _
  dailyWindow := fun _ => Nat.zero_le _
  room := Nat.zero_le _

variable {appName : JsString} {s : LimiterRun}

lemma Counted.elapse (h : Counted s appName) (ms : ℕ) :
    Counted { s with clock := s.clock + ms } appName := by
  have hlater : s.clock ≤ s.clock + ms := by omega
  exact
    { h with
      burst := h.burst.later hlater
      daily := h.daily.later hlater
      room := by
        have hless := @SlidingWindow.within_later _ _ _ APP_MESSAGE_DAILY_WINDOW_MS _ _ _
          h.daily.past _ hlater
        exact (Nat.add_le_add_right hless _).trans h.room }

lemma Counted.of_same {s s' : LimiterRun} (h : Counted s appName)
    (hclock : s'.clock = s.clock)
    (hcounters : countersFor s'.counters appName = countersFor s.counters appName)
    (htakes : s'.takesOf appName = s.takesOf appName)
    (hcommits : s'.commitsOf appName = s.commitsOf appName)
    (hholds : s'.holdsOf appName = s.holdsOf appName) : Counted s' appName where
  burst := by
    rw [hclock, hcounters, htakes]
    exact h.burst
  daily := by
    rw [hclock, hcounters, hcommits]
    exact h.daily
  held := by
    rw [hcounters, hholds]
    exact h.held
  burstWindow := by
    rw [htakes]
    exact h.burstWindow
  dailyWindow := by
    rw [hcommits]
    exact h.dailyWindow
  room := by
    rw [hclock, hcommits, hholds]
    exact h.room

lemma filter_map_concat (log : List (JsString × ℤ)) (appName other : JsString) (t : ℤ) :
    ((log ++ [(appName, t)]).filter fun e => e.1 = other).map Prod.snd =
      (log.filter fun e => e.1 = other).map Prod.snd ++ if appName = other then [t] else [] := by
  by_cases h : appName = other <;> simp [List.filter_append, h]

lemma Counted.refuse {appName other : JsString} (h : Counted s other) :
    Counted { s with
      counters := JsMap.set s.counters appName
        ((countersFor s.counters appName).pruned s.clock) } other := by
  by_cases hname : other = appName
  · subst hname
    have hcounters : countersFor (JsMap.set s.counters other
        ((countersFor s.counters other).pruned s.clock)) other =
          (countersFor s.counters other).pruned s.clock := by
      rw [countersFor_set, if_pos rfl]
    exact
      { h with
        burst := by
          rw [hcounters]
          exact h.burst.prune
        daily := by
          rw [hcounters]
          exact h.daily.prune
        held := by
          rw [hcounters]
          exact h.held }
  · exact h.of_same rfl (by rw [countersFor_set, if_neg hname]) rfl rfl rfl

/-- **A take that is admitted has room in every window of a minute**, and leaves room for a hold. -/
lemma Counted.admission (h : Counted s appName)
    (hburst : ((countersFor s.counters appName).pruned s.clock).burstBlocked = false)
    (hdaily : ((countersFor s.counters appName).pruned s.clock).dailyBlocked = false)
    {s' : LimiterRun} (hclock : s'.clock = s.clock)
    (hburst' : (countersFor s'.counters appName).burst =
      ((countersFor s.counters appName).pruned s.clock).burst ++ [s.clock])
    (hdaily' : (countersFor s'.counters appName).daily =
      ((countersFor s.counters appName).pruned s.clock).daily)
    (hheld' : (countersFor s'.counters appName).held = s'.holdsOf appName)
    (htakes : s'.takesOf appName = s.takesOf appName ++ [s.clock])
    (hcommits : s'.commitsOf appName = s.commitsOf appName)
    (hholds : s'.holdsOf appName ≤ s.holdsOf appName + 1) : Counted s' appName := by
  have hbefore : within (s.takesOf appName) (s.clock - APP_MESSAGE_BURST_WINDOW_MS) s.clock + 1 ≤
      APP_MESSAGE_BURST_LIMIT := by
    rw [← h.burst.length_prune]
    exact not_le.1 (of_decide_eq_false hburst)
  have hroom : within (s.commitsOf appName) (s.clock - APP_MESSAGE_DAILY_WINDOW_MS) s.clock +
      s.holdsOf appName + 1 ≤ APP_MESSAGE_DAILY_CAP := by
    rw [← h.daily.length_prune, ← h.held]
    exact not_le.1 (of_decide_eq_false hdaily)
  exact
    { burst := by
        rw [hclock, hburst', htakes]
        exact h.burst.prune.push
      daily := by
        rw [hclock, hdaily', hcommits]
        exact h.daily.prune
      held := hheld'
      burstWindow := by
        rw [htakes]
        exact SlidingWindow.within_concat_le h.burst.past h.burstWindow hbefore
      dailyWindow := by
        rw [hcommits]
        exact h.dailyWindow
      room := by
        rw [hclock, hcommits]
        omega }

lemma countP_concat_delivery (deliveries : List HeldDelivery) (appName other : JsString) :
    (deliveries ++ [HeldDelivery.mk appName true]).countP
        (fun delivery => delivery.appName = other ∧ delivery.inFlight) =
      deliveries.countP (fun delivery => delivery.appName = other ∧ delivery.inFlight) +
        if appName = other then 1 else 0 := by
  rw [List.countP_append, List.countP_singleton]
  simp

/-- **A send keeps the counters right.** -/
lemma Counted.send {other : JsString} (h : Counted s other) (appName : JsString)
    (holds : Bool) : Counted (s.send appName holds) other := by
  unfold LimiterRun.send
  rcases takeBurst_cases s.counters s.clock appName with
    ⟨kind, wait, -, htake, -⟩ | ⟨hburst, hdaily, htake⟩
  · rw [htake]
    exact h.refuse
  · rw [htake]
    dsimp only
    by_cases hname : other = appName
    · subst hname
      have htakes : ((s.takes ++ [(other, s.clock)]).filter fun e => e.1 = other).map Prod.snd =
          s.takesOf other ++ [s.clock] := by
        rw [filter_map_concat, if_pos rfl]
        rfl
      split_ifs with hholds
      · have hmore : (s.deliveries ++ [HeldDelivery.mk other true]).countP
            (fun delivery => delivery.appName = other ∧ delivery.inFlight) =
              s.holdsOf other + 1 := by
          rw [countP_concat_delivery, if_pos rfl]
          rfl
        refine h.admission hburst hdaily rfl ?_ ?_ ?_ htakes rfl hmore.le
        · simp only [holdDaily, countersFor_set, if_true]
        · simp only [holdDaily, countersFor_set, if_true]
        · simp only [holdDaily, countersFor_set, if_true]
          refine Eq.trans ?_ hmore.symm
          exact congrArg (· + 1) h.held
      · refine h.admission hburst hdaily rfl ?_ ?_ ?_ htakes rfl (Nat.le_succ _)
        · simp only [countersFor_set, if_true]
        · simp only [countersFor_set, if_true]
        · simp only [countersFor_set, if_true]
          exact h.held
    · have hne : ¬appName = other := fun heq => hname heq.symm
      have htakes : ((s.takes ++ [(appName, s.clock)]).filter fun e => e.1 = other).map Prod.snd =
          s.takesOf other := by
        rw [filter_map_concat, if_neg hne, List.append_nil]
        rfl
      split_ifs with hholds
      · refine h.of_same rfl ?_ htakes rfl ?_
        · show countersFor (holdDaily _ _) other = _
          unfold holdDaily
          simp only [countersFor_set, if_neg hname]
        · show (s.deliveries ++ [HeldDelivery.mk appName true]).countP _ = _
          rw [countP_concat_delivery, if_neg hne]
          rfl
      · exact h.of_same rfl (by
          show countersFor (JsMap.set _ _ _) other = _
          rw [countersFor_set, if_neg hname]) htakes rfl rfl

lemma countP_settle {deliveries : List HeldDelivery} {delivery : ℕ}
    (h : deliveries[delivery]? = some ⟨appName, true⟩) (other : JsString) :
    deliveries.countP (fun d => d.appName = other ∧ d.inFlight) =
      (deliveries.set delivery ⟨appName, false⟩).countP
        (fun d => d.appName = other ∧ d.inFlight) + if appName = other then 1 else 0 := by
  obtain ⟨hlt, hget⟩ := List.getElem?_eq_some_iff.1 h
  rw [List.countP_set hlt, hget]
  by_cases hname : appName = other
  · have hpos : 0 < deliveries.countP (fun d => d.appName = other ∧ d.inFlight) := by
      rw [List.countP_pos_iff]
      exact ⟨⟨appName, true⟩, List.mem_of_getElem? h, by simp [hname]⟩
    simp only [hname, decide_true, and_self, if_true, Bool.false_eq_true, and_false, decide_false,
      if_false, Nat.add_zero]
    omega
  · simp [hname]

/-- **A commit has room in every window of a day**: it takes the place of its hold. -/
lemma Counted.commit {s s' : LimiterRun} (h : Counted s appName)
    (hclock : s'.clock = s.clock)
    (hburst : (countersFor s'.counters appName).burst = (countersFor s.counters appName).burst)
    (hdaily : (countersFor s'.counters appName).daily =
      prune (countersFor s.counters appName).daily s.clock APP_MESSAGE_DAILY_WINDOW_MS ++
        [s.clock])
    (hheld : (countersFor s'.counters appName).held = s'.holdsOf appName)
    (htakes : s'.takesOf appName = s.takesOf appName)
    (hcommits : s'.commitsOf appName = s.commitsOf appName ++ [s.clock])
    (hholds : s.holdsOf appName = s'.holdsOf appName + 1) : Counted s' appName := by
  have hroom := h.room
  have hmore := SlidingWindow.within_concat (s.commitsOf appName) s.clock
    (s.clock - APP_MESSAGE_DAILY_WINDOW_MS) s.clock
  have hnow : s.clock - APP_MESSAGE_DAILY_WINDOW_MS < s.clock ∧ s.clock ≤ s.clock := by
    simp only [APP_MESSAGE_DAILY_WINDOW_MS]
    omega
  rw [if_pos hnow] at hmore
  exact
    { burst := by
        rw [hclock, hburst, htakes]
        exact h.burst
      daily := by
        rw [hclock, hdaily, hcommits]
        exact h.daily.prune.push
      held := hheld
      burstWindow := by
        rw [htakes]
        exact h.burstWindow
      dailyWindow := by
        rw [hcommits]
        exact SlidingWindow.within_concat_le h.daily.past h.dailyWindow (by omega)
      room := by
        rw [hclock, hcommits, hmore]
        omega }

/-- **A delivery that settles keeps the counters right.** -/
lemma Counted.settle {other : JsString} (h : Counted s other) (delivery : ℕ)
    (accepted : Bool) : Counted (s.settle delivery accepted) other := by
  unfold LimiterRun.settle
  split
  · next appName hdelivery =>
    have hholds := countP_settle hdelivery other
    dsimp only
    by_cases hname : other = appName
    · subst hname
      rw [if_pos rfl] at hholds
      have hcount : s.holdsOf other = _ + 1 := hholds
      split_ifs with haccepted
      · have hcommits : ((s.commits ++ [(other, s.clock)]).filter fun e => e.1 = other).map
            Prod.snd = s.commitsOf other ++ [s.clock] := by
          rw [filter_map_concat, if_pos rfl]
          rfl
        refine h.commit rfl ?_ ?_ ?_ rfl hcommits hcount
        · simp only [commitDaily, countersFor_set, if_true]
        · simp only [commitDaily, countersFor_set, if_true]
        · simp only [commitDaily, countersFor_set, if_true]
          rw [h.held, hcount]
          rfl
      · exact
          { h with
            burst := by
              simp only [countersFor_releaseDaily, if_true]
              exact h.burst
            daily := by
              simp only [countersFor_releaseDaily, if_true]
              exact h.daily
            held := by
              simp only [countersFor_releaseDaily, if_true]
              rw [h.held, hcount]
              rfl
            room := by
              have hroom := h.room
              rw [hcount] at hroom
              simp only [LimiterRun.holdsOf]
              exact (Nat.le_succ _).trans hroom }
    · have hne : ¬appName = other := fun heq => hname heq.symm
      rw [if_neg hne] at hholds
      split_ifs with haccepted
      · refine h.of_same rfl ?_ rfl ?_ hholds.symm
        · simp only [commitDaily, countersFor_set, if_neg hname]
        · show ((s.commits ++ [(appName, s.clock)]).filter fun e => e.1 = other).map Prod.snd = _
          rw [filter_map_concat, if_neg hne, List.append_nil]
          rfl
      · refine h.of_same rfl ?_ rfl rfl hholds.symm
        simp only [countersFor_releaseDaily, if_neg hname]
  · exact h

/-- **An event keeps the counters right.** -/
theorem counted_step (appName : JsString) (s : LimiterRun) (event : LimiterEvent)
    (h : Counted s appName) : Counted (s.step event) appName := by
  cases event with
  | elapse ms => exact h.elapse ms
  | send name holds => exact h.send name holds
  | commit delivery => exact h.settle delivery true
  | release delivery => exact h.settle delivery false

/-! ## Waiting -/

lemma waitSecs_spec {oldest now windowMs wait : ℤ} (h : waitSecs oldest now windowMs ≤ wait) :
    oldest ≤ now + wait * 1000 - windowMs := by
  unfold waitSecs at h
  omega

lemma length_prune_lt {times : List ℤ} {now windowMs : ℤ} {limit : ℕ} (hlimit : 0 < limit)
    (hlength : times.length ≤ limit)
    (hfirst : times.length = limit → times.headD 0 ≤ now - windowMs) :
    (prune times now windowMs).length < limit := by
  cases times with
  | nil => exact hlimit
  | cons t times =>
    have hless : (prune times now windowMs).length ≤ times.length :=
      (List.dropWhile_sublist _).length_le
    rcases Nat.lt_or_eq_of_le hlength with hlt | heq
    · exact lt_of_le_of_lt (List.dropWhile_sublist _).length_le hlt
    · have hgone : t ≤ now - windowMs := hfirst heq
      have hdrop : prune (t :: times) now windowMs = prune times now windowMs := by
        unfold prune SlidingWindow.prune
        rw [List.dropWhile_cons_of_pos (by simpa using hgone)]
      rw [hdrop]
      rw [List.length_cons] at heq
      omega

/-- **A call that waited as long as it was told is admitted**, when the counters are within the
limits and nothing is held. -/
lemma takeBurst_retry {counters : JsMap JsString AppCounters} {t ms : ℤ}
    {kind : LimitKind} {wait : ℤ}
    (hburst : ((countersFor counters appName).pruned t).burst.length ≤ APP_MESSAGE_BURST_LIMIT)
    (hdaily : ((countersFor counters appName).pruned t).daily.length ≤ APP_MESSAGE_DAILY_CAP)
    (hheld : (countersFor counters appName).held = 0)
    (hrefused : (takeBurst counters t appName).2 = .refused kind wait) (hms : wait * 1000 ≤ ms) :
    (takeBurst (takeBurst counters t appName).1 (t + ms) appName).2 = .ok := by
  rcases takeBurst_cases counters t appName with
    ⟨kind', wait', -, htake, hwait⟩ | ⟨-, -, htake⟩
  · rw [htake] at hrefused
    obtain ⟨rfl, rfl⟩ := AppMessageLimitOutcome.refused.inj hrefused
    obtain ⟨c, hc⟩ : ∃ c, c = (countersFor counters appName).pruned t := ⟨_, rfl⟩
    rw [← hc] at hburst hdaily hwait htake
    have hcheld : c.held = 0 := by rw [hc]; exact hheld
    have hroomBurst : (prune c.burst (t + ms) APP_MESSAGE_BURST_WINDOW_MS).length <
        APP_MESSAGE_BURST_LIMIT := by
      refine length_prune_lt (by decide) hburst fun hfull => ?_
      have hblocked : c.burstBlocked = true := decide_eq_true hfull.ge
      have hle := le_max_left (c.burstWait t) (c.dailyWait t)
      rw [← hwait, AppCounters.burstWait, if_pos hblocked] at hle
      have hleft := waitSecs_spec hle
      omega
    have hroomDaily : (prune c.daily (t + ms) APP_MESSAGE_DAILY_WINDOW_MS).length <
        APP_MESSAGE_DAILY_CAP := by
      refine length_prune_lt (by decide) hdaily fun hfull => ?_
      have hblocked : c.dailyBlocked = true :=
        decide_eq_true (hfull.ge.trans (Nat.le_add_right _ _))
      have hle := le_max_right (c.burstWait t) (c.dailyWait t)
      rw [← hwait, AppCounters.dailyWait, if_pos hblocked, if_pos hfull.ge] at hle
      have hleft := waitSecs_spec hle
      omega
    rcases takeBurst_cases (takeBurst counters t appName).1 (t + ms) appName with
      ⟨kind'', wait'', hblocked, -, -⟩ | ⟨-, -, hok⟩
    · rw [htake] at hblocked
      simp only [countersFor_set, if_true, Bool.or_eq_true] at hblocked
      rcases hblocked with hblocked | hblocked
      · exact absurd (of_decide_eq_true hblocked) (not_le.2 hroomBurst)
      · have hfull : APP_MESSAGE_DAILY_CAP ≤
            (prune c.daily (t + ms) APP_MESSAGE_DAILY_WINDOW_MS).length + c.held :=
          of_decide_eq_true hblocked
        rw [hcheld] at hfull
        exact absurd hfull (not_le.2 hroomDaily)
    · rw [hok]
  · rw [htake] at hrefused
    cases hrefused

/-! ## The budget -/

structure WithinBudget (s : LimiterRun) : Prop where
  daily : ∀ appName start,
    within (s.commitsOf appName) start (start + APP_MESSAGE_DAILY_WINDOW_MS) ≤
      APP_MESSAGE_DAILY_CAP
  burst : ∀ appName start,
    within (s.takesOf appName) start (start + APP_MESSAGE_BURST_WINDOW_MS) ≤
      APP_MESSAGE_BURST_LIMIT
  held : ∀ appName, (countersFor s.counters appName).held = s.holdsOf appName
  counted : ∀ appName, APP_MESSAGE_DAILY_CAP ≤
      within (s.commitsOf appName) (s.clock - APP_MESSAGE_DAILY_WINDOW_MS) s.clock +
        s.holdsOf appName →
    (takeBurst s.counters s.clock appName).2 ≠ .ok
  /-- A call that is refused with nothing held is admitted when it comes again as late as it was
  told, or later. -/
  retry : ∀ appName kind wait, s.holdsOf appName = 0 →
    (takeBurst s.counters s.clock appName).2 = .refused kind wait → ∀ ms, wait * 1000 ≤ ms →
      (takeBurst (takeBurst s.counters s.clock appName).1 (s.clock + ms) appName).2 = .ok

lemma withinBudget_of_counted (h : ∀ appName, Counted s appName) :
    WithinBudget s where
  daily := fun appName => (h appName).dailyWindow
  burst := fun appName => (h appName).burstWindow
  held := fun appName => (h appName).held
  counted := by
    intro appName hfull hok
    rcases takeBurst_cases s.counters s.clock appName with
      ⟨kind, wait, -, htake, -⟩ | ⟨-, hdaily, -⟩
    · rw [htake] at hok
      cases hok
    · rw [← (h appName).daily.length_prune, ← (h appName).held] at hfull
      exact absurd hfull (of_decide_eq_false hdaily)
  retry := by
    intro appName kind wait hnone hrefused ms hms
    refine takeBurst_retry ?_ ?_ ((h appName).held.trans hnone) hrefused hms
    · show (SlidingWindow.prune _ _ _).length ≤ _
      rw [(h appName).burst.length_prune]
      have hwindow := (h appName).burstWindow (s.clock - APP_MESSAGE_BURST_WINDOW_MS)
      rwa [sub_add_cancel] at hwindow
    · show (SlidingWindow.prune _ _ _).length ≤ _
      rw [(h appName).daily.length_prune]
      have hwindow := (h appName).dailyWindow (s.clock - APP_MESSAGE_DAILY_WINDOW_MS)
      rwa [sub_add_cancel] at hwindow

/-- **The limiter keeps its promises in every run**: whenever the callers send, and in whatever
order their deliveries settle. -/
theorem message_budget (clock : ℤ) (events : List LimiterEvent) :
    WithinBudget (Machine.run LimiterRun.step (.start clock) events) :=
  withinBudget_of_counted fun appName =>
    Machine.run_invariant (counted_step appName) (counted_start clock appName)

end Isomux
