import Isomux.Foundations.Trace
import Isomux.Usage.SessionUsage
import Mathlib.Algebra.Group.MinimalAxioms
import Mathlib.Tactic.Abel
import Mathlib.Tactic.Ring

set_option autoImplicit false

/-!
# What the lifetime of an agent counts

The turns that the backends report are kept in a ledger, by the process run that reported them. The
report on the lifetime of the agent shows the sum of the ledger, less the fork bases of the sessions
that have reported a turn. A fork reports its own turns only, so its base has never been counted in
it.

## Main results

* `Isomux.AgentSessions.lifetime_eq` — the report is the ledger less the fork bases.
* `Isomux.AgentSessions.countsOnce_iff` — the runs in which every turn is counted once.
-/

namespace Isomux

/-! ## The ledger -/

structure ReportedTurn where
  tokens : TurnTokens
  cost : ℚ
  accounting : TurnAccounting

/-- A run of a backend's process for a session, with its turns, the last one first. -/
structure ProcessRun where
  sessionId : String
  turns : List ReportedTurn

/-- What a process run has cost: its last cumulative cost, and the turns with their own cost behind
it. -/
def runCost : List ReportedTurn → ℚ
  | [] => 0
  | turn :: earlier =>
    if turn.accounting.turnCost then runCost earlier + turn.cost else turn.cost

def owedUsage (runs : List ProcessRun) : UsageBucket :=
  let turns := runs.flatMap (·.turns)
  { totalIn := ((turns.map fun turn => turn.tokens.inputTokens + turn.tokens.cacheReadInputTokens +
      turn.tokens.cacheCreationInputTokens).sum : ℕ)
    cacheRead := ((turns.map (·.tokens.cacheReadInputTokens)).sum : ℕ)
    cacheCreation := ((turns.map (·.tokens.cacheCreationInputTokens)).sum : ℕ)
    totalOut := ((turns.map (·.tokens.outputTokens)).sum : ℕ)
    costUSD := (runs.map fun processRun => runCost processRun.turns).sum }

/-- The turns of a session, the last one first. -/
def sessionTurns (runs : List ProcessRun) (sessionId : String) : List ReportedTurn :=
  (runs.filter (·.sessionId = sessionId)).flatMap (·.turns)

/-- The turns of the current process run of a session. -/
def currentTurns (runs : List ProcessRun) (sessionId : String) : List ReportedTurn :=
  (runs.find? (·.sessionId = sessionId)).elim [] (·.turns)

def lastUsageId (runs : List ProcessRun) (sessionId : String) : Option String :=
  (sessionTurns runs sessionId).findSome? (·.accounting.turnUsageId)

/-- A turn is the immediate repeat of the last one with a usage id. -/
def IsRepeat (runs : List ProcessRun) (sessionId : String) (accounting : TurnAccounting) : Prop :=
  accounting.turnUsageId.isSome ∧ lastUsageId runs sessionId = accounting.turnUsageId

instance (runs : List ProcessRun) (sessionId : String) (accounting : TurnAccounting) :
    Decidable (IsRepeat runs sessionId accounting) :=
  inferInstanceAs (Decidable (_ ∧ _))

/-- One more turn of the current process run of a session. -/
def addTurn (sessionId : String) (turn : ReportedTurn) : List ProcessRun → List ProcessRun
  | [] => [⟨sessionId, [turn]⟩]
  | processRun :: rest =>
    if processRun.sessionId = sessionId then ⟨sessionId, turn :: processRun.turns⟩ :: rest
    else processRun :: addTurn sessionId turn rest

namespace AgentSessions

/-- How an event writes the ledger: a resume begins a process run, and a report adds a turn. -/
def observe (agent : AgentSessions) (runs : List ProcessRun) : UsageEvent → List ProcessRun
  | .resume sessionId => ⟨sessionId, []⟩ :: runs
  | .report tokens cost accounting =>
    match agent.sessionId with
    | none => runs
    | some sessionId =>
      if IsRepeat runs sessionId accounting then runs
      else addTurn sessionId ⟨tokens, cost, accounting⟩ runs
  | _ => runs

/-- The agent behind some events, and its ledger. -/
def observed (events : List UsageEvent) : AgentSessions × List ProcessRun :=
  events.foldl (fun state event => (state.1.step event, state.1.observe state.2 event)) (empty, [])

/-- **The lifetime usage is that of all turns.** -/
def CountsOnce (events : List UsageEvent) : Prop :=
  ∀ currentSessionId, (readAgentUsage (run events).map currentSessionId).2 =
    owedUsage (observed events).2

/-- A turn is reported in a fork whose base is not zero. -/
def SubtractsBase (agent : AgentSessions) : UsageEvent → Prop
  | .report _ _ _ => ∃ sessionId entry base, agent.sessionId = some sessionId ∧
      agent.map.get sessionId = some entry ∧ entry.forkBaseUsage = some base ∧ base ≠ 0
  | _ => False

end AgentSessions

/-! ## Buckets -/

namespace UsageBucket

instance : Zero UsageBucket := ⟨emptyBucket⟩

instance : Add UsageBucket where
  add a b := ⟨a.totalIn + b.totalIn, a.cacheRead + b.cacheRead, a.cacheCreation + b.cacheCreation,
    a.totalOut + b.totalOut, a.costUSD + b.costUSD⟩

instance : Neg UsageBucket where
  neg a := ⟨-a.totalIn, -a.cacheRead, -a.cacheCreation, -a.totalOut, -a.costUSD⟩

variable (a b : UsageBucket)

@[simp] lemma totalIn_add : (a + b).totalIn = a.totalIn + b.totalIn := rfl
@[simp] lemma cacheRead_add : (a + b).cacheRead = a.cacheRead + b.cacheRead := rfl
@[simp] lemma cacheCreation_add : (a + b).cacheCreation = a.cacheCreation + b.cacheCreation := rfl
@[simp] lemma totalOut_add : (a + b).totalOut = a.totalOut + b.totalOut := rfl
@[simp] lemma costUSD_add : (a + b).costUSD = a.costUSD + b.costUSD := rfl

@[simp] lemma totalIn_zero : (0 : UsageBucket).totalIn = 0 := rfl
@[simp] lemma cacheRead_zero : (0 : UsageBucket).cacheRead = 0 := rfl
@[simp] lemma cacheCreation_zero : (0 : UsageBucket).cacheCreation = 0 := rfl
@[simp] lemma totalOut_zero : (0 : UsageBucket).totalOut = 0 := rfl
@[simp] lemma costUSD_zero : (0 : UsageBucket).costUSD = 0 := rfl

instance : AddCommGroup UsageBucket :=
  { AddGroup.ofLeftAxioms (fun a b c => by ext <;> simp [add_assoc]) (fun a => by ext <;> simp)
      (fun a => by
        ext
        · exact neg_add_cancel a.totalIn
        · exact neg_add_cancel a.cacheRead
        · exact neg_add_cancel a.cacheCreation
        · exact neg_add_cancel a.totalOut
        · exact neg_add_cancel a.costUSD) with
    add_comm := fun a b => by ext <;> simp [add_comm] }

@[simp] lemma totalIn_sub : (a - b).totalIn = a.totalIn - b.totalIn := rfl
@[simp] lemma cacheRead_sub : (a - b).cacheRead = a.cacheRead - b.cacheRead := rfl
@[simp] lemma cacheCreation_sub : (a - b).cacheCreation = a.cacheCreation - b.cacheCreation := rfl
@[simp] lemma totalOut_sub : (a - b).totalOut = a.totalOut - b.totalOut := rfl
@[simp] lemma costUSD_sub : (a - b).costUSD = a.costUSD - b.costUSD :=
  (sub_eq_add_neg a.costUSD b.costUSD).symm

end UsageBucket

def PersistedUsage.bucket (u : PersistedUsage) : UsageBucket :=
  { totalIn := (u.inputTokens + u.cacheReadInputTokens + u.cacheCreationInputTokens : ℕ)
    cacheRead := u.cacheReadInputTokens
    cacheCreation := u.cacheCreationInputTokens
    totalOut := u.outputTokens
    costUSD := u.costUSD }

namespace PersistedUsage

@[simp]
lemma bucket_zero : (0 : PersistedUsage).bucket = 0 := rfl

lemma bucket_add (u v : PersistedUsage) : (u + v).bucket = u.bucket + v.bucket := by
  ext
  · change ((u.inputTokens + v.inputTokens + (u.cacheReadInputTokens + v.cacheReadInputTokens) +
      (u.cacheCreationInputTokens + v.cacheCreationInputTokens) : ℕ) : ℤ) = (_ : ℕ) + (_ : ℕ)
    push_cast
    ring
  · exact Nat.cast_add _ _
  · exact Nat.cast_add _ _
  · exact Nat.cast_add _ _
  · rfl

lemma bucket_eq_zero_iff {u : PersistedUsage} : u.bucket = 0 ↔ u = 0 := by
  refine ⟨fun h => ?_, fun h => h ▸ bucket_zero⟩
  have hin : ((u.inputTokens + u.cacheReadInputTokens + u.cacheCreationInputTokens : ℕ) : ℤ) = 0 :=
    congrArg UsageBucket.totalIn h
  have hout : (u.outputTokens : ℤ) = 0 := congrArg UsageBucket.totalOut h
  have hcost : u.costUSD = 0 := congrArg UsageBucket.costUSD h
  obtain ⟨⟨inputTokens, outputTokens, cacheRead, cacheCreation⟩, cost⟩ := u
  dsimp only at hin hout hcost
  obtain ⟨rfl, rfl, rfl, rfl⟩ :
      inputTokens = 0 ∧ outputTokens = 0 ∧ cacheRead = 0 ∧ cacheCreation = 0 := by omega
  rw [hcost]
  rfl

end PersistedUsage

/-! ## Sessions -/

namespace UsageSession

def Counted (entry : UsageSession) : Prop := entry.usage.isSome ∨ entry.priorRunsUsage.isSome

instance (entry : UsageSession) : Decidable entry.Counted := inferInstanceAs (Decidable (_ ∨ _))

/-- The usage of a session, over all of its runs. -/
def spent (entry : UsageSession) : UsageBucket :=
  (entry.usage.getD 0).bucket + (entry.priorRunsUsage.getD 0).bucket

/-- What the report subtracts for a session. -/
def subtracted (entry : UsageSession) : UsageBucket :=
  if entry.Counted then (entry.forkBaseUsage.getD 0).bucket else 0

end UsageSession

lemma UsageSession.not_counted_iff {entry : UsageSession} :
    ¬entry.Counted ↔ entry.usage = none ∧ entry.priorRunsUsage = none := by
  simp [UsageSession.Counted]

lemma addSession_eq (lifetime : UsageBucket) (entry : UsageSession) :
    addSession lifetime entry = lifetime + (entry.spent - entry.subtracted) := by
  unfold addSession UsageSession.subtracted
  by_cases hcounted : entry.Counted
  · have hshown : ¬(entry.usage.isNone ∧ entry.priorRunsUsage.isNone) := by
      rintro ⟨husage, hprior⟩
      exact UsageSession.not_counted_iff.2
        ⟨Option.isNone_iff_eq_none.1 husage, Option.isNone_iff_eq_none.1 hprior⟩ hcounted
    rw [if_neg hshown, if_pos hcounted]
    unfold UsageSession.spent PersistedUsage.bucket
    ext
    · dsimp only [UsageBucket.totalIn_add, UsageBucket.totalIn_sub]
      push_cast
      ring
    · simp
    · simp
    · simp
    · simp
  · obtain ⟨husage, hprior⟩ := UsageSession.not_counted_iff.1 hcounted
    rw [if_pos (by simp [husage, hprior]), if_neg hcounted]
    simp [UsageSession.spent, husage, hprior]

/-! ## Sums over the sessions -/

def sessionSum (shown : UsageSession → UsageBucket) (map : UsageSessions) : UsageBucket :=
  (map.map fun e => shown e.2).sum

/-- **The report is what the sessions have spent less what it subtracts.** -/
lemma readAgentUsage_lifetime (map : UsageSessions) (currentSessionId : Option String) :
    (readAgentUsage map currentSessionId).2 =
      sessionSum UsageSession.spent map - sessionSum UsageSession.subtracted map := by
  have hfold : ∀ (entries : UsageSessions) (lifetime : UsageBucket),
      (entries.map Prod.snd).foldl addSession lifetime = lifetime +
        (sessionSum UsageSession.spent entries - sessionSum UsageSession.subtracted entries) := by
    intro entries
    induction entries with
    | nil =>
      intro lifetime
      simp [sessionSum]
    | cons e rest ih =>
      intro lifetime
      rw [List.map_cons, List.foldl_cons, ih, addSession_eq]
      simp only [sessionSum, List.map_cons, List.sum_cons]
      abel
  have hempty : emptyBucket = 0 := rfl
  rw [readAgentUsage, hfold, hempty, zero_add]

/-- The entry of a session, or that of a new one. -/
def sessionEntry (map : UsageSessions) (sessionId : String) : UsageSession :=
  (map.get sessionId).getD .new

lemma sessionEntry_set (map : UsageSessions) (sessionId : String) (entry : UsageSession)
    (s : String) : sessionEntry (map.set sessionId entry) s =
      if s = sessionId then entry else sessionEntry map s := by
  unfold sessionEntry
  rw [JsMap.get_set]
  split_ifs <;> rfl

lemma sessionSum_set {shown : UsageSession → UsageBucket} (hnew : shown .new = 0)
    {map : UsageSessions} (hkeys : (map.map Prod.fst).Nodup) (sessionId : String)
    (entry : UsageSession) : sessionSum shown (map.set sessionId entry) =
      sessionSum shown map - shown (sessionEntry map sessionId) + shown entry := by
  induction map with
  | nil => simp [sessionSum, sessionEntry, JsMap.set, JsMap.has, JsMap.get, hnew]
  | cons e rest ih =>
    obtain ⟨hnotin, hrest⟩ := List.nodup_cons.1 hkeys
    have ih := ih hrest
    unfold sessionSum sessionEntry at ih ⊢
    rw [JsMap.get_cons, List.map_cons, List.sum_cons]
    by_cases he : e.1 = sessionId
    · obtain ⟨key, old⟩ := e
      obtain rfl : key = sessionId := he
      rw [JsMap.set_cons_self hnotin, if_pos rfl, List.map_cons, List.sum_cons, Option.getD_some]
      abel
    · rw [JsMap.set_cons_of_ne he, if_neg he, List.map_cons, List.sum_cons, ih]
      abel

@[simp]
lemma UsageSession.spent_new : UsageSession.new.spent = 0 := by
  simp [UsageSession.spent, UsageSession.new]

@[simp]
lemma UsageSession.subtracted_new : UsageSession.new.subtracted = 0 := rfl

/-! ## The ledger -/

/-- What the turns of a process run add up to. -/
def turnsBucket (turns : List ReportedTurn) : UsageBucket :=
  { totalIn := ((turns.map fun turn => turn.tokens.inputTokens + turn.tokens.cacheReadInputTokens +
      turn.tokens.cacheCreationInputTokens).sum : ℕ)
    cacheRead := ((turns.map (·.tokens.cacheReadInputTokens)).sum : ℕ)
    cacheCreation := ((turns.map (·.tokens.cacheCreationInputTokens)).sum : ℕ)
    totalOut := ((turns.map (·.tokens.outputTokens)).sum : ℕ)
    costUSD := runCost turns }

lemma owedUsage_cons (processRun : ProcessRun) (runs : List ProcessRun) :
    owedUsage (processRun :: runs) = turnsBucket processRun.turns + owedUsage runs := by
  unfold owedUsage turnsBucket
  ext <;> simp

lemma owedUsage_addTurn (sessionId : String) (turn : ReportedTurn) (runs : List ProcessRun) :
    owedUsage (addTurn sessionId turn runs) =
      owedUsage runs - turnsBucket (currentTurns runs sessionId) +
        turnsBucket (turn :: currentTurns runs sessionId) := by
  induction runs with
  | nil =>
    have hnone : owedUsage [] = 0 := rfl
    have hempty : turnsBucket [] = 0 := rfl
    rw [addTurn, owedUsage_cons, hnone, currentTurns, List.find?_nil, Option.elim, hempty]
    abel
  | cons processRun rest ih =>
    unfold addTurn
    by_cases h : processRun.sessionId = sessionId
    · have hcurrent : currentTurns (processRun :: rest) sessionId = processRun.turns := by
        simp [currentTurns, h]
      rw [if_pos h, owedUsage_cons, owedUsage_cons, hcurrent]
      abel
    · have hcurrent : currentTurns (processRun :: rest) sessionId = currentTurns rest sessionId := by
        simp [currentTurns, h]
      rw [if_neg h, owedUsage_cons, owedUsage_cons, hcurrent, ih]
      abel

lemma currentTurns_addTurn (sessionId : String) (turn : ReportedTurn) (runs : List ProcessRun)
    (s : String) : currentTurns (addTurn sessionId turn runs) s =
      if s = sessionId then turn :: currentTurns runs s else currentTurns runs s := by
  induction runs with
  | nil => by_cases hs : sessionId = s <;> simp [addTurn, currentTurns, hs, eq_comm]
  | cons processRun rest ih =>
    rw [addTurn]
    unfold currentTurns at *
    by_cases h : processRun.sessionId = sessionId
    · rw [if_pos h, List.find?_cons, List.find?_cons]
      by_cases hs : sessionId = s
      · simp [h, hs]
      · have hne : ¬s = sessionId := fun heq => hs heq.symm
        simp [h, hs, hne]
    · rw [if_neg h, List.find?_cons, List.find?_cons]
      by_cases hs : processRun.sessionId = s
      · have hne : ¬s = sessionId := fun heq => h (hs.trans heq)
        simp [hs, hne]
      · simpa [hs] using ih

lemma sessionTurns_addTurn (sessionId : String) (turn : ReportedTurn) (runs : List ProcessRun)
    (s : String) : sessionTurns (addTurn sessionId turn runs) s =
      if s = sessionId then turn :: sessionTurns runs s else sessionTurns runs s := by
  induction runs with
  | nil => by_cases hs : sessionId = s <;> simp [addTurn, sessionTurns, hs, eq_comm]
  | cons processRun rest ih =>
    rw [addTurn]
    unfold sessionTurns at *
    by_cases h : processRun.sessionId = sessionId
    · rw [if_pos h, List.filter_cons, List.filter_cons]
      by_cases hs : sessionId = s
      · simp [h, hs]
      · have hne : ¬s = sessionId := fun heq => hs heq.symm
        simp [h, hs, hne]
    · rw [if_neg h, List.filter_cons, List.filter_cons]
      by_cases hs : processRun.sessionId = s
      · have hne : ¬s = sessionId := fun heq => h (hs.trans heq)
        simpa [hs, hne] using ih
      · simpa [hs] using ih

lemma lastUsageId_addTurn (sessionId : String) (turn : ReportedTurn) (runs : List ProcessRun)
    (s : String) : lastUsageId (addTurn sessionId turn runs) s =
      if s = sessionId then turn.accounting.turnUsageId <|> lastUsageId runs s
      else lastUsageId runs s := by
  unfold lastUsageId
  rw [sessionTurns_addTurn]
  split_ifs
  · rw [List.findSome?_cons]
    cases turn.accounting.turnUsageId <;> rfl
  · rfl

lemma currentTurns_resume (sessionId : String) (runs : List ProcessRun) (s : String) :
    currentTurns (⟨sessionId, []⟩ :: runs) s = if s = sessionId then [] else currentTurns runs s := by
  unfold currentTurns
  rw [List.find?_cons]
  by_cases hs : sessionId = s
  · simp [hs]
  · have hne : ¬s = sessionId := fun heq => hs heq.symm
    simp [hs, hne]

lemma lastUsageId_resume (sessionId : String) (runs : List ProcessRun) (s : String) :
    lastUsageId (⟨sessionId, []⟩ :: runs) s = lastUsageId runs s := by
  unfold lastUsageId sessionTurns
  rw [List.filter_cons]
  split_ifs <;> rfl

/-! ## The accounts and the ledger -/

/-- The entry of a session with one more turn. -/
def UsageSession.withTurn (entry : UsageSession) (tokens : TurnTokens) (cost : ℚ)
    (accounting : TurnAccounting) : UsageSession :=
  { entry with
    usage := some
      { inputTokens := (entry.usage.getD 0).inputTokens + tokens.inputTokens
        outputTokens := (entry.usage.getD 0).outputTokens + tokens.outputTokens
        cacheReadInputTokens :=
          (entry.usage.getD 0).cacheReadInputTokens + tokens.cacheReadInputTokens
        cacheCreationInputTokens :=
          (entry.usage.getD 0).cacheCreationInputTokens + tokens.cacheCreationInputTokens
        costUSD :=
          if accounting.turnCost then (entry.usage.getD 0).costUSD + cost else cost }
    lastAccountedUsageId := accounting.turnUsageId <|> entry.lastAccountedUsageId }

lemma accumulateSessionUsage_fst (map : UsageSessions) (sessionId : String) (tokens : TurnTokens)
    (cost : ℚ) (accounting : TurnAccounting) :
    (accumulateSessionUsage map sessionId tokens cost accounting).1 =
      if accounting.turnUsageId.isSome ∧
        (sessionEntry map sessionId).lastAccountedUsageId = accounting.turnUsageId then map
      else map.set sessionId ((sessionEntry map sessionId).withTurn tokens cost accounting) := by
  unfold accumulateSessionUsage
  exact apply_ite Prod.fst _ _ _

structure AccountsFor (map : UsageSessions) (runs : List ProcessRun) : Prop where
  keys : (map.map Prod.fst).Nodup
  spent : sessionSum UsageSession.spent map = owedUsage runs
  cost : ∀ s, ((sessionEntry map s).usage.getD 0).costUSD = runCost (currentTurns runs s)
  last : ∀ s, (sessionEntry map s).lastAccountedUsageId = lastUsageId runs s
  counted : ∀ s, (sessionEntry map s).lastAccountedUsageId.isSome → (sessionEntry map s).Counted

namespace AccountsFor

variable {map : UsageSessions} {runs : List ProcessRun}

lemma set_same (h : AccountsFor map runs) {sessionId : String} {entry : UsageSession}
    (husage : entry.usage = (sessionEntry map sessionId).usage)
    (hprior : entry.priorRunsUsage = (sessionEntry map sessionId).priorRunsUsage)
    (hlast : entry.lastAccountedUsageId = (sessionEntry map sessionId).lastAccountedUsageId) :
    AccountsFor (map.set sessionId entry) runs where
  keys := JsMap.nodup_keys_set h.keys
  spent := by
    have hsame : entry.spent = (sessionEntry map sessionId).spent := by
      rw [UsageSession.spent, UsageSession.spent, husage, hprior]
    rw [sessionSum_set UsageSession.spent_new h.keys, hsame, sub_add_cancel, h.spent]
  cost s := by
    rw [sessionEntry_set, ← h.cost s]
    split_ifs with hs
    · rw [hs, husage]
    · rfl
  last s := by
    rw [sessionEntry_set, ← h.last s]
    split_ifs with hs
    · rw [hs, hlast]
    · rfl
  counted s := by
    rw [sessionEntry_set]
    split_ifs with hs
    · rw [hlast]
      intro hsome
      have hcounted := h.counted sessionId hsome
      unfold UsageSession.Counted at hcounted ⊢
      rwa [husage, hprior]
    · exact h.counted s

lemma snapshot (h : AccountsFor map runs) (sessionId entryId : String) (usage : PersistedUsage) :
    AccountsFor (appendSessionUsageSnapshot map sessionId entryId usage) runs :=
  h.set_same rfl rfl rfl

lemma fork (h : AccountsFor map runs) (sessionId forkedFrom forkMessageId : String)
    (base : Option PersistedUsage) :
    AccountsFor (persistSessionFork map sessionId forkedFrom forkMessageId base) runs :=
  h.set_same rfl rfl rfl

/-- A turn that is reported is in the accounts, and in the ledger. -/
lemma report (h : AccountsFor map runs) (sessionId : String) (tokens : TurnTokens) (cost : ℚ)
    (accounting : TurnAccounting) :
    AccountsFor (accumulateSessionUsage map sessionId tokens cost accounting).1
      (if IsRepeat runs sessionId accounting then runs
        else addTurn sessionId ⟨tokens, cost, accounting⟩ runs) := by
  rw [accumulateSessionUsage_fst, h.last]
  by_cases hrepeat : IsRepeat runs sessionId accounting
  · have hsame : accounting.turnUsageId.isSome ∧
        lastUsageId runs sessionId = accounting.turnUsageId := hrepeat
    rw [if_pos hrepeat, if_pos hsame]
    exact h
  have hother : ¬(accounting.turnUsageId.isSome ∧
      lastUsageId runs sessionId = accounting.turnUsageId) := hrepeat
  rw [if_neg hrepeat, if_neg hother]
  set entry := sessionEntry map sessionId with hentry
  have hcost := h.cost sessionId
  have hlast := h.last sessionId
  rw [← hentry] at hcost hlast
  refine ⟨JsMap.nodup_keys_set h.keys, ?_, fun s => ?_, fun s => ?_, fun s => ?_⟩
  · -- the turn adds the same to the session as to the ledger
    have hadds : (entry.withTurn tokens cost accounting).spent - entry.spent =
        turnsBucket (⟨tokens, cost, accounting⟩ :: currentTurns runs sessionId) -
          turnsBucket (currentTurns runs sessionId) := by
      unfold UsageSession.spent PersistedUsage.bucket UsageSession.withTurn turnsBucket
      ext
      · simp
        ring
      · simp
      · simp
      · simp
      · simp [runCost, hcost]
    rw [sessionSum_set UsageSession.spent_new h.keys, owedUsage_addTurn, h.spent, ← hentry]
    calc
      owedUsage runs - entry.spent + (entry.withTurn tokens cost accounting).spent
          = owedUsage runs +
              ((entry.withTurn tokens cost accounting).spent - entry.spent) := by abel
      _ = owedUsage runs + (turnsBucket (⟨tokens, cost, accounting⟩ ::
            currentTurns runs sessionId) - turnsBucket (currentTurns runs sessionId)) := by
          rw [hadds]
      _ = _ := by abel
  · rw [sessionEntry_set, currentTurns_addTurn]
    split_ifs with hs
    · rw [hs]
      simp [UsageSession.withTurn, runCost, hcost]
    · exact h.cost s
  · rw [sessionEntry_set, lastUsageId_addTurn]
    split_ifs with hs
    · rw [hs, ← hlast]
      rfl
    · exact h.last s
  · rw [sessionEntry_set]
    split_ifs with hs
    · exact fun _ => .inl rfl
    · exact h.counted s

/-- A resume moves the usage of a session, and begins a process run. -/
lemma resume (h : AccountsFor map runs) (sessionId : String) :
    AccountsFor (rollSessionUsageOnResume map sessionId) (⟨sessionId, []⟩ :: runs) := by
  have hruns : owedUsage (⟨sessionId, []⟩ :: runs) = owedUsage runs := by
    rw [owedUsage_cons]
    exact zero_add _
  have hstays : ((sessionEntry map sessionId).usage.getD 0).costUSD = 0 →
      AccountsFor map (⟨sessionId, []⟩ :: runs) := by
    intro hzero
    refine ⟨h.keys, h.spent.trans hruns.symm, fun s => ?_, fun s => ?_, h.counted⟩
    · rw [currentTurns_resume]
      split_ifs with hs
      · rw [hs, hzero, runCost]
      · exact h.cost s
    · rw [lastUsageId_resume, h.last]
  unfold rollSessionUsageOnResume
  cases hget : map.get sessionId with
  | none => exact hstays (by rw [sessionEntry, hget]; rfl)
  | some existing =>
    have hentry : sessionEntry map sessionId = existing := by rw [sessionEntry, hget]; rfl
    dsimp only
    cases husage : existing.usage with
    | none => exact hstays (by rw [hentry, husage]; rfl)
    | some u =>
      dsimp only
      split_ifs with hzero
      · exact hstays (by rw [hentry, husage, hzero]; rfl)
      refine ⟨JsMap.nodup_keys_set h.keys, ?_, fun s => ?_, fun s => ?_, fun s => ?_⟩
      · rw [sessionSum_set UsageSession.spent_new h.keys, hentry, hruns, ← h.spent]
        simp [UsageSession.spent, husage, PersistedUsage.bucket_add, add_comm]
      · rw [sessionEntry_set, currentTurns_resume]
        split_ifs with hs
        · rfl
        · exact h.cost s
      · rw [sessionEntry_set, lastUsageId_resume, ← h.last s]
        split_ifs with hs
        · rw [hs, hentry]
        · rfl
      · rw [sessionEntry_set]
        split_ifs with hs
        · exact fun _ => .inr rfl
        · exact h.counted s

end AccountsFor

/-! ## What the report subtracts -/

/-- The report subtracts nothing for any session. -/
def NoneSubtracted (map : UsageSessions) : Prop := ∀ s, (sessionEntry map s).subtracted = 0

namespace NoneSubtracted

variable {map : UsageSessions}

lemma sum_eq_zero (h : NoneSubtracted map) (hkeys : (map.map Prod.fst).Nodup) :
    sessionSum UsageSession.subtracted map = 0 := by
  refine List.sum_eq_zero fun bucket hbucket => ?_
  obtain ⟨e, he, rfl⟩ := List.mem_map.1 hbucket
  have hget : map.get e.1 = some e.2 := (JsMap.mem_iff_get hkeys).1 he
  have hentry := h e.1
  rwa [sessionEntry, hget] at hentry

lemma set (h : NoneSubtracted map) {sessionId : String} {entry : UsageSession}
    (hentry : entry.subtracted = 0) : NoneSubtracted (map.set sessionId entry) := by
  intro s
  rw [sessionEntry_set]
  split_ifs
  · exact hentry
  · exact h s

lemma sum_set (h : NoneSubtracted map) (hkeys : (map.map Prod.fst).Nodup) (sessionId : String)
    (entry : UsageSession) :
    sessionSum UsageSession.subtracted (map.set sessionId entry) = entry.subtracted := by
  rw [sessionSum_set UsageSession.subtracted_new hkeys, h.sum_eq_zero hkeys, h sessionId, sub_zero,
    zero_add]

lemma resume (h : NoneSubtracted map) (sessionId : String) :
    NoneSubtracted (rollSessionUsageOnResume map sessionId) := by
  have hentry := h sessionId
  unfold rollSessionUsageOnResume
  unfold sessionEntry at hentry
  cases hget : map.get sessionId with
  | none => exact h
  | some existing =>
    rw [hget, Option.getD_some] at hentry
    dsimp only
    cases husage : existing.usage with
    | none => exact h
    | some u =>
      dsimp only
      split_ifs with hzero
      · exact h
      · refine h.set ?_
        have hcounted : existing.Counted := .inl (by rw [husage]; rfl)
        rw [UsageSession.subtracted, if_pos hcounted] at hentry
        rw [UsageSession.subtracted, if_pos (.inr rfl)]
        exact hentry

lemma fork (h : NoneSubtracted map) {sessionId : String} (hnew : map.has sessionId = false)
    (forkedFrom forkMessageId : String) (base : Option PersistedUsage) :
    NoneSubtracted (persistSessionFork map sessionId forkedFrom forkMessageId base) := by
  have hget : map.get sessionId = none := by simpa [JsMap.has_eq_isSome] using hnew
  refine h.set ?_
  rw [hget]
  rfl

end NoneSubtracted

lemma sum_subtracted_snapshot {map : UsageSessions} (hkeys : (map.map Prod.fst).Nodup)
    (sessionId entryId : String) (usage : PersistedUsage) :
    sessionSum UsageSession.subtracted (appendSessionUsageSnapshot map sessionId entryId usage) =
      sessionSum UsageSession.subtracted map := by
  unfold appendSessionUsageSnapshot
  rw [sessionSum_set UsageSession.subtracted_new hkeys]
  exact sub_add_cancel _ _

namespace AgentSessions

variable {agent : AgentSessions} {runs : List ProcessRun}

lemma subtractsBase_report {sessionId : String} (hsession : agent.sessionId = some sessionId)
    (tokens : TurnTokens) (cost : ℚ) (accounting : TurnAccounting) :
    agent.SubtractsBase (.report tokens cost accounting) ↔
      (sessionEntry agent.map sessionId).forkBaseUsage.getD 0 ≠ 0 := by
  unfold SubtractsBase sessionEntry
  constructor
  · rintro ⟨s, entry, base, hs, hget, hbase, hne⟩
    obtain rfl : sessionId = s := Option.some.inj (hsession.symm.trans hs)
    rwa [hget, Option.getD_some, hbase]
  · intro hne
    cases hget : agent.map.get sessionId with
    | none => exact absurd rfl (by rwa [hget] at hne)
    | some entry =>
      rw [hget, Option.getD_some] at hne
      cases hbase : entry.forkBaseUsage with
      | none => exact absurd rfl (by rwa [hbase] at hne)
      | some base => exact ⟨sessionId, entry, base, hsession, hget, hbase, by rwa [hbase] at hne⟩

lemma editMessage_map {newSessionId : String} (hnew : agent.map.has newSessionId = false)
    (messageId forkedFrom : String) (firstUserMessage : Bool) :
    ∃ forkFrom base, (agent.editMessage messageId forkedFrom newSessionId firstUserMessage).map =
      persistSessionFork agent.map newSessionId forkFrom messageId base := by
  have hget : agent.map.get newSessionId = none := by simpa [JsMap.has_eq_isSome] using hnew
  refine ⟨agent.forkFromSession messageId forkedFrom, if firstUserMessage then none
    else findUsageAtFork agent.map agent.log (agent.forkFromSession messageId forkedFrom) messageId,
    ?_⟩
  unfold editMessage createSession rollSessionUsageOnResume persistSessionFork
  simp only [hget, Option.getD_none, JsMap.get_set, if_true]
  rfl

/-- An event keeps the accounts and the ledger together. -/
lemma accountsFor_step (h : AccountsFor agent.map runs) (event : UsageEvent) :
    AccountsFor (agent.step event).map (agent.observe runs event) := by
  cases event with
  | start sessionId =>
    unfold step observe
    dsimp only
    split_ifs with hhas
    · exact h
    · have hget : agent.map.get sessionId = none := by simpa [JsMap.has_eq_isSome] using hhas
      have hentry : sessionEntry agent.map sessionId = .new := by rw [sessionEntry, hget]; rfl
      exact h.set_same (by rw [hentry]) (by rw [hentry]) (by rw [hentry])
  | resume sessionId => exact h.resume sessionId
  | entry entryId =>
    unfold step observe
    dsimp only
    cases agent.sessionId <;> exact h
  | report tokens cost accounting =>
    unfold step observe turnCompleted
    dsimp only
    cases hsession : agent.sessionId with
    | none => exact h
    | some sessionId =>
      have hreport := h.report sessionId tokens cost accounting
      dsimp only
      cases agent.lastWrittenEntryId with
      | none => exact hreport
      | some entryId => exact hreport.snapshot sessionId entryId _
  | edit messageId forkedFrom newSessionId firstUserMessage =>
    unfold step observe
    dsimp only
    split_ifs with hnone
    · exact h
    · have hnew : agent.map.has newSessionId = false := by simpa using fun h => hnone (.inl h)
      obtain ⟨forkFrom, base, hmap⟩ :=
        editMessage_map hnew messageId forkedFrom firstUserMessage
      rw [hmap]
      exact h.fork newSessionId forkFrom messageId base
  | restart => exact h

lemma accumulate_subtracts {map : UsageSessions} (h : AccountsFor map runs)
    (hzero : NoneSubtracted map) (sessionId : String) (tokens : TurnTokens) (cost : ℚ)
    (accounting : TurnAccounting) :
    ((sessionEntry map sessionId).forkBaseUsage.getD 0 = 0 ∧
      NoneSubtracted (accumulateSessionUsage map sessionId tokens cost accounting).1) ∨
    ((sessionEntry map sessionId).forkBaseUsage.getD 0 ≠ 0 ∧
      sessionSum UsageSession.subtracted
        (accumulateSessionUsage map sessionId tokens cost accounting).1 ≠ 0) := by
  rw [accumulateSessionUsage_fst]
  by_cases hrepeat : accounting.turnUsageId.isSome ∧
      (sessionEntry map sessionId).lastAccountedUsageId = accounting.turnUsageId
  · -- a session with a usage id has reported a turn before
    rw [if_pos hrepeat]
    have hcounted := h.counted sessionId (by rw [hrepeat.2]; exact hrepeat.1)
    have hbase := hzero sessionId
    rw [UsageSession.subtracted, if_pos hcounted, PersistedUsage.bucket_eq_zero_iff] at hbase
    exact .inl ⟨hbase, hzero⟩
  · rw [if_neg hrepeat]
    have hsubtracted : ((sessionEntry map sessionId).withTurn tokens cost accounting).subtracted =
        ((sessionEntry map sessionId).forkBaseUsage.getD 0).bucket := by
      rw [UsageSession.subtracted, if_pos (.inl rfl)]
      rfl
    by_cases hbase : (sessionEntry map sessionId).forkBaseUsage.getD 0 = 0
    · refine .inl ⟨hbase, hzero.set ?_⟩
      rw [hsubtracted, hbase, PersistedUsage.bucket_zero]
    · refine .inr ⟨hbase, ?_⟩
      rw [hzero.sum_set h.keys, hsubtracted]
      exact mt PersistedUsage.bucket_eq_zero_iff.1 hbase

/-- **A report subtracts the base of its session, and nothing else does.** -/
lemma step_subtracts (h : AccountsFor agent.map runs) (hzero : NoneSubtracted agent.map)
    (event : UsageEvent) :
    (¬agent.SubtractsBase event ∧ NoneSubtracted (agent.step event).map) ∨
      (agent.SubtractsBase event ∧
        sessionSum UsageSession.subtracted (agent.step event).map ≠ 0) := by
  cases event with
  | start sessionId =>
    refine .inl ⟨id, ?_⟩
    unfold step
    dsimp only
    split_ifs
    · exact hzero
    · exact hzero.set UsageSession.subtracted_new
  | resume sessionId => exact .inl ⟨id, hzero.resume sessionId⟩
  | entry entryId =>
    refine .inl ⟨id, ?_⟩
    unfold step
    dsimp only
    cases agent.sessionId <;> exact hzero
  | report tokens cost accounting =>
    cases hsession : agent.sessionId with
    | none =>
      refine .inl ⟨?_, ?_⟩
      · rintro ⟨s, entry, base, hs, -⟩
        rw [hsession] at hs
        cases hs
      · unfold step turnCompleted
        rw [hsession]
        exact hzero
    | some sessionId =>
      rw [subtractsBase_report hsession]
      have hkeys := (h.report sessionId tokens cost accounting).keys
      have haccumulated := accumulate_subtracts h hzero sessionId tokens cost accounting
      unfold step turnCompleted
      rw [hsession]
      dsimp only
      rcases haccumulated with ⟨hbase, hnone⟩ | ⟨hbase, hsum⟩
      · refine .inl ⟨not_not.2 hbase, ?_⟩
        cases agent.lastWrittenEntryId with
        | none => exact hnone
        | some entryId => exact hnone.set (hnone sessionId)
      · refine .inr ⟨hbase, ?_⟩
        cases agent.lastWrittenEntryId with
        | none => exact hsum
        | some entryId =>
          rw [sum_subtracted_snapshot hkeys]
          exact hsum
  | edit messageId forkedFrom newSessionId firstUserMessage =>
    refine .inl ⟨id, ?_⟩
    unfold step
    dsimp only
    split_ifs with hnone
    · exact hzero
    · have hnew : agent.map.has newSessionId = false := by simpa using fun h => hnone (.inl h)
      obtain ⟨forkFrom, base, hmap⟩ :=
        editMessage_map hnew messageId forkedFrom firstUserMessage
      rw [hmap]
      exact hzero.fork hnew forkFrom messageId base
  | restart => exact .inl ⟨id, hzero⟩

/-! ## Runs -/

lemma observed_fst (events : List UsageEvent) : (observed events).1 = run events := by
  induction events using List.reverseRecOn with
  | nil => rfl
  | append_singleton events event ih =>
    unfold observed run at ih ⊢
    rw [List.foldl_append, List.foldl_append, List.foldl_cons, List.foldl_cons, List.foldl_nil,
      List.foldl_nil, ih]

lemma accountsFor_run (events : List UsageEvent) :
    AccountsFor (run events).map (observed events).2 := by
  induction events using List.reverseRecOn with
  | nil => exact ⟨List.nodup_nil, rfl, fun _ => rfl, fun _ => rfl, fun _ h => by cases h⟩
  | append_singleton events event ih =>
    have hstep := accountsFor_step ih event
    rw [← observed_fst] at hstep ⊢
    unfold observed at hstep ⊢
    rw [List.foldl_append]
    exact hstep

/-- **The report on the lifetime of an agent is its ledger less the fork bases** of the sessions that
have reported a turn. -/
theorem lifetime_eq (events : List UsageEvent) (currentSessionId : Option String) :
    (readAgentUsage (run events).map currentSessionId).2 = owedUsage (observed events).2 -
      sessionSum UsageSession.subtracted (run events).map := by
  rw [readAgentUsage_lifetime, (accountsFor_run events).spent]

lemma countsOnce_iff_sum (events : List UsageEvent) : CountsOnce events ↔
    sessionSum UsageSession.subtracted (run events).map = 0 := by
  unfold CountsOnce
  simp only [lifetime_eq, sub_eq_self, forall_const]

lemma run_concat (events : List UsageEvent) (event : UsageEvent) :
    run (events ++ [event]) = (run events).step event := by
  unfold run
  rw [List.foldl_append]
  rfl

lemma noneSubtracted_run {events : List UsageEvent}
    (h : Trace.Each (fun before event => ¬(run before).SubtractsBase event) events) :
    NoneSubtracted (run events).map := by
  induction events using List.reverseRecOn with
  | nil => exact fun _ => rfl
  | append_singleton events event ih =>
    obtain ⟨hbefore, hevent⟩ := Trace.each_concat.1 h
    rw [run_concat]
    rcases step_subtracts (accountsFor_run events) (ih hbefore) event with ⟨-, hnone⟩ | ⟨hsub, -⟩
    · exact hnone
    · exact absurd hsub hevent

/-- **Every turn is counted once, at every moment of a run, exactly when no turn is reported in a
fork whose base is not zero.**

**Proof sketch.** The sessions account for the ledger in any case. What the report subtracts is
nothing as long as no fork with a base has reported a turn. The first turn of such a fork makes the
report subtract its base. -/
theorem countsOnce_iff (events : List UsageEvent) : Trace.Throughout CountsOnce events ↔
    Trace.Each (fun before event => ¬(run before).SubtractsBase event) events := by
  induction events using List.reverseRecOn with
  | nil =>
    rw [Trace.throughout_nil, countsOnce_iff_sum]
    exact iff_of_true rfl (Trace.each_nil _)
  | append_singleton events event ih =>
    rw [Trace.throughout_concat, Trace.each_concat, ih]
    refine and_congr_right fun hbefore => ?_
    have haccounts := accountsFor_run (events ++ [event])
    rw [countsOnce_iff_sum, run_concat]
    rcases step_subtracts (accountsFor_run events) (noneSubtracted_run hbefore) event with
      ⟨hevent, hnone⟩ | ⟨hevent, hsum⟩
    · rw [run_concat] at haccounts
      exact iff_of_true (hnone.sum_eq_zero haccounts.keys) hevent
    · exact iff_of_false hsum (not_not.2 hevent)

end AgentSessions

/-- A message is edited behind a turn of a hundred tokens, and the fork reports ten. -/
def editedBehindTurn : List UsageEvent :=
  [.start "s1", .entry "m1", .report ⟨100, 0, 0, 0⟩ 0 ⟨false, none⟩, .entry "m2",
    .edit "m2" "s1" "s2" false, .entry "m3", .report ⟨10, 0, 0, 0⟩ 0 ⟨false, none⟩]

/-- **A turn before a fork is not counted once the fork has reported one.** -/
theorem editedBehindTurn_not_counted :
    (readAgentUsage (AgentSessions.run editedBehindTurn).map (some "s2")).2.totalIn = 10 ∧
      (owedUsage (AgentSessions.observed editedBehindTurn).2).totalIn = 110 ∧
      ¬AgentSessions.CountsOnce editedBehindTurn := by
  have hshown : (readAgentUsage (AgentSessions.run editedBehindTurn).map (some "s2")).2.totalIn =
      10 := by decide
  have howed : (owedUsage (AgentSessions.observed editedBehindTurn).2).totalIn = 110 := by
    decide
  refine ⟨hshown, howed, fun h => ?_⟩
  have htotal := congrArg UsageBucket.totalIn (h (some "s2"))
  rw [hshown, howed] at htotal
  exact absurd htotal (by decide)

end Isomux
