import Isomux.ControlPlane.CreateLatch

set_option autoImplicit false

/-!
# One permit for an intent

Whatever the workers, the crashes and the database do, an intent gets at most one permit, and a
permit is spent at most once. The row of the intent is the latch: a call that commits has inserted
it, so the calls that committed have different intents. A permit is minted by a call that committed,
once, and the commit that inserted the intent has also written it into the evidence of the
operation.

## Main results

* `Isomux.CreateLatch.armBody_ok` — a commit does all of it.
* `Isomux.CreateLatch.Inv.step` — every event keeps the invariant.
* `Isomux.CreateLatch.armed_fence_spent` — a fence arms once.
* `Isomux.CreateLatch.createLatch_once` — the latch over all runs.
-/

namespace Isomux.CreateLatch

open ControlStore

/-! ## The transaction -/

/-- What the transaction of `armOnce` does to the database when it commits. -/
structure Armed (db db' : Database) (req : ArmRequest) (fence : Fence)
    (armed : ControlStore.OperationRow) : Prop where
  fenced : fence.Holds db
  fresh : getIntent db req.intentId = none
  latched : ∃ now, getIntent db' req.intentId = some (latchedIntent req now)
  operation : getOperation db' fence.id = some armed
  evidence : armed.evidence = armedEvidence req.intentId
  running : armed.status = .running ∧ armed.leaseHolder = some fence.holder ∧
    armed.version = fence.version + 1
  audited : ∃ row, db'.auditEvents.rows = db.auditEvents.rows ++ [row] ∧
    row.action = js "arm_create" ∧ row.target = req.intentId
  kept : ∀ k, db.createIntents.Has k → db'.createIntents.Has k
  follows : Follows db db'

variable {journal : Option IntentJournal} {clock : ArmClock} {req : ArmRequest} {fence : Fence}
  {db db' : Database} {armed : ControlStore.OperationRow}

lemma latchIntent_ok {now : ℤ} (h : latchIntent db req now = .ok db') :
    getIntent db req.intentId = none ∧
      getIntent db' req.intentId = some (latchedIntent req now) ∧
      (∀ k, db.createIntents.Has k → db'.createIntents.Has k) ∧
      db'.operations = db.operations ∧ db'.auditEvents = db.auditEvents := by
  unfold latchIntent at h
  split at h
  · rename_i db₁ hinsert
    obtain rfl := Except.ok.inj h
    exact insertIntent_ok hinsert
  · cases h

/-- **A commit does all of it.** -/
theorem armBody_ok (h : armBody journal clock req fence db = .ok (armed, db')) :
    Armed db db' req fence armed := by
  obtain ⟨-, -, h⟩ := bind_eq_ok.1 h
  obtain ⟨latched, hlatch, h⟩ := bind_eq_ok.1 h
  obtain ⟨⟨found, written⟩, hcas, h⟩ := bind_eq_ok.1 h
  obtain ⟨hfresh, hlatched, hkept, hoperations, haudit⟩ := latchIntent_ok hlatch
  cases found with
  | none => cases h
  | some op =>
    obtain ⟨⟨row, audited⟩, happend, h⟩ := bind_eq_ok.1 h
    obtain ⟨rfl, rfl⟩ := Prod.mk.inj (Except.ok.inj h)
    obtain ⟨hops, hints, hrows, hrow⟩ := appendAudit_ok happend
    obtain ⟨hnone, -⟩ | ⟨before, hbefore, hadmits, hop, hafter, hfollows, hintents, haudits⟩ :=
      updateOperation_ok hcas
    · cases hnone
    · obtain rfl := Option.some.inj hop
      have hbefore' : getOperation db fence.id = some before := by
        rw [getOperation, ← hoperations]
        exact hbefore
      have hversion : before.version = fence.version ∧ before.leaseHolder = some fence.holder := by
        simpa [Fence.admits] using hadmits
      refine
        { fenced := ⟨before, hbefore', hadmits⟩
          fresh := hfresh
          latched := ⟨clock.latchedAt, by rw [getIntent, hints, hintents]; exact hlatched⟩
          operation := by rw [getOperation, hops]; exact hafter
          evidence := rfl
          running := ⟨rfl, hversion.2, congrArg (· + 1) hversion.1⟩
          audited := ⟨row, by rw [hrows, haudits, haudit], by rw [hrow], by rw [hrow]⟩
          kept := fun k hk => by rw [hints, hintents]; exact hkept k hk
          follows := ?_ }
      exact (Follows.of_eq hoperations).trans (hfollows.trans (Follows.of_eq hops))

theorem armBody_of_stale (journal : Option IntentJournal) (clock : ArmClock) (req : ArmRequest)
    (h : ¬ fence.Holds db) :
    ∃ failure, armBody journal clock req fence db = .error failure := by
  cases hbody : armBody journal clock req fence db with
  | error failure => exact ⟨failure, rfl⟩
  | ok result => exact absurd (armBody_ok hbody).fenced h

/-! ## What other transactions do -/

/-- A transaction of another part takes no intent away and no operation back. -/
lemma Write.apply_frame {write : Write} (h : write.apply db = .ok db') :
    Follows db db' ∧ ∀ k, db.createIntents.Has k → db'.createIntents.Has k := by
  have hupdate : ∀ {id : JsString} {test : ControlStore.OperationRow → Bool}
      {change : ControlStore.OperationRow → ControlStore.OperationRow},
      Prod.snd <$> updateOperation db id test change = .ok db' →
      Follows db db' ∧ ∀ k, db.createIntents.Has k → db'.createIntents.Has k := by
    intro id test change hmap
    obtain ⟨⟨result, db₁⟩, hok, rfl⟩ := map_eq_ok.1 hmap
    obtain ⟨hfollows, hintents⟩ := updateOperation_frame hok
    exact ⟨hfollows, fun k hk => by rwa [hintents]⟩
  cases write with
  | enqueue id instanceId kind status nextAttemptAt inactivity absolute evidence now =>
    obtain ⟨⟨row, db₁⟩, hok, rfl⟩ := map_eq_ok.1 h
    obtain ⟨-, -, -, -, hfollows, hintents⟩ := enqueue_made hok
    exact ⟨hfollows, fun k hk => by rwa [hintents]⟩
  | tryLease id expectedVersion holder leaseUntil now => exact hupdate h
  | renewLease fence leaseUntil now => exact hupdate h
  | casOperation fence patch now => exact hupdate h
  | flagDeadline id expectedVersion which now => cases which <;> exact hupdate h
  | supersedeReboot id evidence now => exact hupdate h
  | casIntent intentId expectedVersion patch =>
    obtain ⟨⟨row, db₁⟩, hok, rfl⟩ := map_eq_ok.1 h
    obtain ⟨hkept, hoperations⟩ := casIntent_frame hok
    exact ⟨Follows.of_eq hoperations, hkept⟩
  | importIntent row =>
    obtain ⟨-, -, hkept, hoperations, -⟩ := insertIntent_ok h
    exact ⟨Follows.of_eq hoperations, hkept⟩
  | appendAudit row =>
    obtain ⟨⟨written, db₁⟩, hok, rfl⟩ := map_eq_ok.1 h
    obtain ⟨hoperations, hintents, -⟩ := appendAudit_ok hok
    exact ⟨Follows.of_eq hoperations, fun k hk => by rwa [hintents]⟩

/-! ## What an event does -/

/-- The call runs its transaction, or its commit has not returned. -/
def Call.Open (call : Call) : Prop :=
  call.phase = .arming ∨ ∃ armed, call.phase = .committed armed

/-- What an event does to the calls and to the database. -/
inductive Stepped (s : System) (event : Event) : System → Prop where
  | same : Stepped s event s
  /-- A call begins, or it is refused. -/
  | quiet {n : ℕ} (call : Call) {phase : Phase}
      (hopen : ∀ before, s.calls n = some before → before.Open)
      (hphase : phase = .arming ∨ ∃ failure, phase = .refused failure) :
      Stepped s event (s.move n call phase)
  | commits {n : ℕ} {clock : ArmClock} {call : Call} {armed : ControlStore.OperationRow}
      {db : Database} (hevent : event = .transact n clock) (hcall : s.calls n = some call)
      (harming : call.phase = .arming) (harmed : Armed s.db db call.req call.fence armed) :
      Stepped s event { s.move n call (.committed armed) with db }
  | mints {n : ℕ} {call : Call} {armed : ControlStore.OperationRow}
      (hcall : s.calls n = some call) (hcommitted : call.phase = .committed armed) :
      Stepped s event { s.move n call (.returned (.mint call.req.intentId) armed) with
        minted := s.minted ++ [{ call := n, intentId := call.req.intentId }] }
  | consumes {n : ℕ} {call : Call} {permit : CreatePermit} {armed : ControlStore.OperationRow}
      (hcall : s.calls n = some call) (hreturned : call.phase = .returned permit armed)
      (hunspent : permit.spent = false) :
      Stepped s event { s.move n call (.returned { permit with spent := true } armed) with
        consumed := s.consumed ++ [{ call := n, intentId := permit.intentId }] }
  | crashes (worker : ℕ) : Stepped s event (step s (.crash worker))
  | writes {db : Database} (hkept : ∀ k, s.db.createIntents.Has k → db.createIntents.Has k) :
      Stepped s event { s with db }

variable {s : System} {n : ℕ} {call : Call}

lemma Call.open_of_eq (hcall : s.calls n = some call) (hopen : call.Open) :
    ∀ before, s.calls n = some before → before.Open := fun _ hbefore =>
  Option.some.inj (hcall.symm.trans hbefore) ▸ hopen

lemma step_stepped (s : System) (event : Event) : Stepped s event (step s event) := by
  cases event with
  | armOnce n worker journal req fence =>
    simp only [step]
    cases hcall : s.calls n with
    | none => exact .quiet _ (by simp [hcall]) (.inl rfl)
    | some call => exact .same
  | transact n clock =>
    simp only [step]
    cases hcall : s.calls n with
    | none => exact .same
    | some call =>
      dsimp only
      split_ifs with harming
      · simp only [tx]
        cases hbody : armBody call.journal clock call.req call.fence s.db with
        | error failure =>
          exact .quiet call (Call.open_of_eq hcall (.inl harming)) (.inr ⟨failure, rfl⟩)
        | ok result => exact .commits rfl hcall harming (armBody_ok hbody)
      · exact .same
  | databaseFails n message =>
    simp only [step]
    split
    · rename_i call hcall
      split_ifs with harming
      · exact .quiet call (Call.open_of_eq hcall (.inl harming)) (.inr ⟨_, rfl⟩)
      · exact .same
    · exact .same
  | commitUnheard n message =>
    simp only [step]
    split
    · rename_i call hcall
      split
      · rename_i armed hcommitted
        exact .quiet call (Call.open_of_eq hcall (.inr ⟨armed, hcommitted⟩)) (.inr ⟨_, rfl⟩)
      · exact .same
    · exact .same
  | commitReturns n =>
    simp only [step]
    split
    · rename_i call hcall
      split
      · rename_i armed hcommitted
        exact .mints hcall hcommitted
      · exact .same
    · exact .same
  | consume n =>
    simp only [step]
    split
    · rename_i call hcall
      split
      · rename_i permit armed hreturned
        simp only [CreatePermit.consume]
        cases hspent : permit.spent with
        | true => exact .same
        | false => exact .consumes hcall hreturned hspent
      · exact .same
    · exact .same
  | crash worker => exact .crashes worker
  | write write =>
    simp only [step]
    cases hwrite : write.apply s.db with
    | error failure => exact .same
    | ok db => exact .writes (Write.apply_frame hwrite).2

/-! ## The invariant -/

/-- The call has been granted a permit, or it will be when its commit returns. -/
def System.Granted (s : System) (n : ℕ) (intentId : JsString) : Prop :=
  ⟨n, intentId⟩ ∈ s.minted ∨
    ∃ call armed, s.calls n = some call ∧ call.phase = .committed armed ∧
      call.req.intentId = intentId

structure Inv (s : System) : Prop where
  latched : ∀ n i, s.Granted n i → s.db.createIntents.Has i
  distinct : ∀ n n' i, s.Granted n i → s.Granted n' i → n = n'
  mintedOnce : (s.minted.map Grant.call).Nodup
  minted : ∀ grant ∈ s.minted, ∃ call, s.calls grant.call = some call ∧
    (call.phase = .lost ∨ ∃ permit armed, call.phase = .returned permit armed ∧
      permit.intentId = grant.intentId)
  consumedOnce : (s.consumed.map Grant.call).Nodup
  consumed : ∀ grant ∈ s.consumed, grant ∈ s.minted ∧ ∃ call, s.calls grant.call = some call ∧
    (call.phase = .lost ∨ ∃ permit armed, call.phase = .returned permit armed ∧
      permit.spent = true)
  returned : ∀ n call permit armed, s.calls n = some call → call.phase = .returned permit armed →
    ⟨n, permit.intentId⟩ ∈ s.minted

lemma Inv.start (db : Database) : Inv (start db) := by
  constructor <;> simp [CreateLatch.start, System.Granted]

lemma Inv.not_minted (h : Inv s) (hopen : ∀ call, s.calls n = some call → call.Open) :
    ∀ grant ∈ s.minted, grant.call ≠ n := by
  rintro grant hgrant rfl
  obtain ⟨call, hcall, hphase⟩ := h.minted grant hgrant
  obtain harming | ⟨armed, hcommitted⟩ := hopen call hcall
  · simp [harming] at hphase
  · simp [hcommitted] at hphase

variable {i : JsString} {m : ℕ}

lemma System.Granted.of_move {phase : Phase}
    (h : (s.move n call phase).Granted m i) (hphase : ∀ armed, phase ≠ .committed armed) :
    s.Granted m i := by
  obtain hgrant | ⟨call', armed, hcall', hcommitted, hreq⟩ := h
  · exact Or.inl hgrant
  · by_cases hm : m = n
    · subst hm
      obtain rfl : { call with phase } = call' := by simpa using hcall'
      exact absurd hcommitted (hphase armed)
    · rw [s.move_of_ne call phase hm] at hcall'
      exact Or.inr ⟨call', armed, hcall', hcommitted, hreq⟩

lemma Inv.move_quiet (h : Inv s) (hquiet : ∀ grant ∈ s.minted, grant.call ≠ n) {phase : Phase}
    (hphase : (∀ armed, phase ≠ .committed armed) ∧
      ∀ permit armed, phase ≠ .returned permit armed) :
    Inv (s.move n call phase) where
  latched m i hgrant := h.latched m i (hgrant.of_move hphase.1)
  distinct m m' i hm hm' := h.distinct m m' i (hm.of_move hphase.1) (hm'.of_move hphase.1)
  mintedOnce := h.mintedOnce
  minted grant hgrant := by
    rw [s.move_of_ne call phase (hquiet grant hgrant)]
    exact h.minted grant hgrant
  consumedOnce := h.consumedOnce
  consumed grant hgrant := by
    rw [s.move_of_ne call phase (hquiet grant (h.consumed grant hgrant).1)]
    exact h.consumed grant hgrant
  returned m call' permit armed hcall' hreturned := by
    by_cases hm : m = n
    · subst hm
      obtain rfl : { call with phase } = call' := by simpa using hcall'
      exact absurd hreturned (hphase.2 permit armed)
    · rw [s.move_of_ne call phase hm] at hcall'
      exact h.returned m call' permit armed hcall' hreturned

variable {armed : ControlStore.OperationRow}

lemma granted_of_commit
    (h : System.Granted { s.move n call (.committed armed) with db := db' } m i) :
    s.Granted m i ∨ m = n ∧ i = call.req.intentId := by
  obtain hgrant | ⟨call', armed', hcall', hcommitted, hreq⟩ := h
  · exact Or.inl (Or.inl hgrant)
  · by_cases hm : m = n
    · subst hm
      obtain rfl : { call with phase := .committed armed } = call' := by simpa using hcall'
      exact Or.inr ⟨rfl, hreq.symm⟩
    · have hother := (s.move_of_ne call (.committed armed) hm).symm.trans hcall'
      exact Or.inl (Or.inr ⟨call', armed', hother, hcommitted, hreq⟩)

lemma granted_of_mint (hcall : s.calls n = some call) (hcommitted : call.phase = .committed armed)
    (h : System.Granted { s.move n call (.returned (.mint call.req.intentId) armed) with
      minted := s.minted ++ [{ call := n, intentId := call.req.intentId }] } m i) :
    s.Granted m i := by
  obtain hgrant | hpending := h
  · rcases List.mem_append.1 hgrant with hold | hnew
    · exact Or.inl hold
    · obtain ⟨rfl, rfl⟩ : m = n ∧ i = call.req.intentId := by simpa using hnew
      exact Or.inr ⟨call, armed, hcall, hcommitted, rfl⟩
  · exact System.Granted.of_move (Or.inr hpending) (by simp)

/-- A call commits. Its intent was not there, so nobody has been granted it. -/
lemma Inv.commit (h : Inv s) (hcall : s.calls n = some call) (harming : call.phase = .arming)
    (harmed : Armed s.db db' call.req call.fence armed) :
    Inv { s.move n call (.committed armed) with db := db' } := by
  have hquiet := h.not_minted (Call.open_of_eq hcall (.inl harming))
  have hfresh : ∀ m, ¬ s.Granted m call.req.intentId := by
    intro m hgrant
    obtain ⟨row, hrow⟩ := KeyedTable.has_iff_find.1 (h.latched m _ hgrant)
    have hnone := harmed.fresh
    rw [getIntent, hrow] at hnone
    cases hnone
  constructor
  · intro m i hgrant
    rcases granted_of_commit hgrant with hold | ⟨rfl, rfl⟩
    · exact harmed.kept i (h.latched m i hold)
    · obtain ⟨now, hnow⟩ := harmed.latched
      exact KeyedTable.has_iff_find.2 ⟨_, hnow⟩
  · intro m m' i hm hm'
    rcases granted_of_commit hm with hold | ⟨rfl, rfl⟩
    · rcases granted_of_commit hm' with hold' | ⟨rfl, rfl⟩
      · exact h.distinct m m' i hold hold'
      · exact absurd hold (hfresh m)
    · rcases granted_of_commit hm' with hold' | ⟨rfl, -⟩
      · exact absurd hold' (hfresh m')
      · rfl
  · exact h.mintedOnce
  · intro grant hgrant
    obtain ⟨call', hcall', hphase⟩ := h.minted grant hgrant
    exact ⟨call', (s.move_of_ne call _ (hquiet grant hgrant)).trans hcall', hphase⟩
  · exact h.consumedOnce
  · intro grant hgrant
    obtain ⟨hminted, call', hcall', hphase⟩ := h.consumed grant hgrant
    exact ⟨hminted, call', (s.move_of_ne call _ (hquiet grant hminted)).trans hcall', hphase⟩
  · intro m call' permit armed' hcall' hreturned
    by_cases hm : m = n
    · subst hm
      obtain rfl : { call with phase := .committed armed } = call' := by simpa using hcall'
      cases hreturned
    · have hother := (s.move_of_ne call (.committed armed) hm).symm.trans hcall'
      exact h.returned m call' permit armed' hother hreturned

/-- A commit returns, and the permit that was granted is minted. -/
lemma Inv.mint (h : Inv s) (hcall : s.calls n = some call)
    (hcommitted : call.phase = .committed armed) :
    Inv { s.move n call (.returned (.mint call.req.intentId) armed) with
      minted := s.minted ++ [{ call := n, intentId := call.req.intentId }] } := by
  have hquiet := h.not_minted (Call.open_of_eq hcall (.inr ⟨armed, hcommitted⟩))
  constructor
  · exact fun m i hgrant => h.latched m i (granted_of_mint hcall hcommitted hgrant)
  · exact fun m m' i hm hm' => h.distinct m m' i (granted_of_mint hcall hcommitted hm)
      (granted_of_mint hcall hcommitted hm')
  · rw [List.map_append, List.nodup_append]
    refine ⟨h.mintedOnce, by simp, ?_⟩
    intro m hm m' hm'
    obtain ⟨grant, hgrant, rfl⟩ := List.mem_map.1 hm
    obtain rfl : m' = n := by simpa using hm'
    exact hquiet grant hgrant
  · intro grant hgrant
    rcases List.mem_append.1 hgrant with hold | hnew
    · obtain ⟨call', hcall', hphase⟩ := h.minted grant hold
      exact ⟨call', (s.move_of_ne call _ (hquiet grant hold)).trans hcall', hphase⟩
    · obtain rfl := List.mem_singleton.1 hnew
      exact ⟨_, s.move_self n call _, Or.inr ⟨_, armed, rfl, rfl⟩⟩
  · exact h.consumedOnce
  · intro grant hgrant
    obtain ⟨hminted, call', hcall', hphase⟩ := h.consumed grant hgrant
    exact ⟨List.mem_append_left _ hminted, call',
      (s.move_of_ne call _ (hquiet grant hminted)).trans hcall', hphase⟩
  · intro m call' permit armed' hcall' hreturned
    by_cases hm : m = n
    · subst hm
      obtain rfl : { call with phase := .returned (.mint call.req.intentId) armed } = call' := by
        simpa using hcall'
      obtain ⟨rfl, -⟩ := Phase.returned.inj hreturned
      exact List.mem_append_right _ (List.mem_singleton_self _)
    · have hother := (s.move_of_ne call _ hm).symm.trans hcall'
      exact List.mem_append_left _ (h.returned m call' permit armed' hother hreturned)

lemma granted_of_consume {permit : CreatePermit} {consumed : List Grant}
    (h : System.Granted { s.move n call (.returned permit armed) with consumed } m i) :
    s.Granted m i := by
  have hmoved : (s.move n call (.returned permit armed)).Granted m i := h
  exact hmoved.of_move (by simp)

/-- A permit that is not spent is spent. -/
lemma Inv.consume (h : Inv s) (hcall : s.calls n = some call) {permit : CreatePermit}
    (hreturned : call.phase = .returned permit armed) (hunspent : permit.spent = false) :
    Inv { s.move n call (.returned { permit with spent := true } armed) with
      consumed := s.consumed ++ [{ call := n, intentId := permit.intentId }] } := by
  -- the call has not spent its permit before
  have hfirst : ∀ grant ∈ s.consumed, grant.call ≠ n := by
    rintro grant hgrant rfl
    obtain ⟨-, call', hcall', hphase⟩ := h.consumed grant hgrant
    obtain rfl : call' = call := Option.some.inj (hcall'.symm.trans hcall)
    rcases hphase with hlost | ⟨permit', armed', hphase, hspent⟩
    · rw [hreturned] at hlost
      cases hlost
    · obtain ⟨rfl, -⟩ := Phase.returned.inj (hreturned.symm.trans hphase)
      rw [hunspent] at hspent
      cases hspent
  have hown := h.returned n call permit armed hcall hreturned
  constructor
  · exact fun m i hgrant => h.latched m i (granted_of_consume hgrant)
  · exact fun m m' i hm hm' => h.distinct m m' i (granted_of_consume hm) (granted_of_consume hm')
  · exact h.mintedOnce
  · intro grant hgrant
    by_cases hm : grant.call = n
    · obtain ⟨call', hcall', hphase⟩ := h.minted grant hgrant
      rw [hm] at hcall'
      obtain rfl : call' = call := Option.some.inj (hcall'.symm.trans hcall)
      refine ⟨_, by rw [hm]; exact s.move_self n call' _, Or.inr ⟨_, armed, rfl, ?_⟩⟩
      rcases hphase with hlost | ⟨permit', armed', hphase, hintent⟩
      · rw [hreturned] at hlost
        cases hlost
      · obtain ⟨rfl, -⟩ := Phase.returned.inj (hreturned.symm.trans hphase)
        exact hintent
    · obtain ⟨call', hcall', hphase⟩ := h.minted grant hgrant
      exact ⟨call', (s.move_of_ne call _ hm).trans hcall', hphase⟩
  · rw [List.map_append, List.nodup_append]
    refine ⟨h.consumedOnce, by simp, ?_⟩
    intro m hm m' hm'
    obtain ⟨grant, hgrant, rfl⟩ := List.mem_map.1 hm
    obtain rfl : m' = n := by simpa using hm'
    exact hfirst grant hgrant
  · intro grant hgrant
    rcases List.mem_append.1 hgrant with hold | hnew
    · obtain ⟨hminted, call', hcall', hphase⟩ := h.consumed grant hold
      exact ⟨hminted, call', (s.move_of_ne call _ (hfirst grant hold)).trans hcall', hphase⟩
    · obtain rfl := List.mem_singleton.1 hnew
      exact ⟨hown, _, s.move_self n call _, Or.inr ⟨_, armed, rfl, rfl⟩⟩
  · intro m call' permit' armed' hcall' hphase
    by_cases hm : m = n
    · subst hm
      obtain rfl : { call with phase := .returned { permit with spent := true } armed } =
          call' := by
        simpa using hcall'
      obtain ⟨rfl, -⟩ := Phase.returned.inj hphase
      exact hown
    · have hother := (s.move_of_ne call _ hm).symm.trans hcall'
      exact h.returned m call' permit' armed' hother hphase

lemma crash_calls {worker m : ℕ} {call' : Call}
    (h : (step s (.crash worker)).calls m = some call') :
    s.calls m = some call' ∨ call'.phase = .lost := by
  obtain ⟨call, hcall, rfl⟩ := Option.map_eq_some_iff.1 h
  split_ifs
  · exact Or.inr rfl
  · exact Or.inl hcall

lemma calls_crash (worker : ℕ) {call' : Call} (h : s.calls m = some call') :
    (step s (.crash worker)).calls m = some call' ∨
      ∃ call, (step s (.crash worker)).calls m = some call ∧ call.phase = .lost := by
  have hmap : (step s (.crash worker)).calls m =
      some (if call'.worker = worker then { call' with phase := .lost } else call') := by
    simp [step, h]
  split_ifs at hmap
  · exact Or.inr ⟨_, hmap, rfl⟩
  · exact Or.inl hmap

lemma granted_of_crash {worker m : ℕ}
    (h : (step s (.crash worker)).Granted m i) : s.Granted m i := by
  obtain hgrant | ⟨call', armed, hcall', hcommitted, hreq⟩ := h
  · exact Or.inl hgrant
  · rcases crash_calls hcall' with hsame | hlost
    · exact Or.inr ⟨call', armed, hsame, hcommitted, hreq⟩
    · rw [hlost] at hcommitted
      cases hcommitted

lemma Inv.crash (h : Inv s) (worker : ℕ) : Inv (step s (.crash worker)) := by
  constructor
  · exact fun m i hgrant => h.latched m i (granted_of_crash hgrant)
  · exact fun m m' i hm hm' => h.distinct m m' i (granted_of_crash hm) (granted_of_crash hm')
  · exact h.mintedOnce
  · intro grant hgrant
    obtain ⟨call', hcall', hphase⟩ := h.minted grant hgrant
    rcases calls_crash worker hcall' with hsame | ⟨dead, hdead, hlost⟩
    · exact ⟨call', hsame, hphase⟩
    · exact ⟨dead, hdead, Or.inl hlost⟩
  · exact h.consumedOnce
  · intro grant hgrant
    obtain ⟨hminted, call', hcall', hphase⟩ := h.consumed grant hgrant
    rcases calls_crash worker hcall' with hsame | ⟨dead, hdead, hlost⟩
    · exact ⟨hminted, call', hsame, hphase⟩
    · exact ⟨hminted, dead, hdead, Or.inl hlost⟩
  · intro m call' permit armed hcall' hreturned
    rcases crash_calls hcall' with hsame | hlost
    · exact h.returned m call' permit armed hsame hreturned
    · rw [hlost] at hreturned
      cases hreturned

/-- **Every event keeps the invariant.** -/
theorem Inv.step (h : Inv s) (event : Event) : Inv (step s event) := by
  have hstep := step_stepped s event
  generalize CreateLatch.step s event = s' at hstep ⊢
  cases hstep with
  | same => exact h
  | quiet call hopen hphase =>
    refine h.move_quiet (h.not_minted hopen) ?_
    rcases hphase with rfl | ⟨failure, rfl⟩ <;> simp
  | commits hevent hcall harming harmed => exact h.commit hcall harming harmed
  | mints hcall hcommitted => exact h.mint hcall hcommitted
  | consumes hcall hreturned hunspent => exact h.consume hcall hreturned hunspent
  | crashes worker => exact h.crash worker
  | writes hkept => exact { h with latched := fun n i hgrant => hkept i (h.latched n i hgrant) }

theorem Inv.run (db : Database) (events : List Event) :
    Inv (Machine.run CreateLatch.step (CreateLatch.start db) events) :=
  Machine.run_invariant (fun _ event h => Inv.step h event) (Inv.start db)

/-! ## Where a grant comes from -/

/-- A grant that a step makes is made by the transaction of its call, which commits. -/
lemma granted_of_step {event : Event} (h : (step s event).Granted n i) :
    s.Granted n i ∨ ∃ clock call armed, event = .transact n clock ∧ s.calls n = some call ∧
      call.req.intentId = i ∧ Armed s.db (step s event).db call.req call.fence armed := by
  have hstep := step_stepped s event
  generalize step s event = s' at hstep h ⊢
  cases hstep with
  | same => exact Or.inl h
  | quiet call hopen hphase =>
    refine Or.inl (System.Granted.of_move h ?_)
    rcases hphase with rfl | ⟨failure, rfl⟩ <;> simp
  | @commits n' clock call armed db hevent hcall harming harmed =>
    rcases granted_of_commit h with hold | ⟨rfl, rfl⟩
    · exact Or.inl hold
    · exact Or.inr ⟨clock, call, armed, hevent, hcall, rfl, harmed⟩
  | mints hcall hcommitted => exact Or.inl (granted_of_mint hcall hcommitted h)
  | consumes hcall hreturned hunspent => exact Or.inl (granted_of_consume h)
  | crashes worker => exact Or.inl (granted_of_crash h)
  | writes hkept => exact Or.inl h

/-! ## Stale fences -/

lemma transact_of_stale (hcall : s.calls n = some call) (harming : call.phase = .arming)
    (hstale : ¬ call.fence.Holds s.db) :
    ∃ failure, step s (.transact n clock) = s.move n call (.refused failure) := by
  obtain ⟨failure, hbody⟩ := armBody_of_stale call.journal clock call.req hstale
  refine ⟨failure, ?_⟩
  simp only [step, hcall, harming, if_true, tx, hbody]
  rfl

/-- A call that was refused gets no permit. -/
def Refused (n : ℕ) (s : System) : Prop :=
  (∀ grant ∈ s.minted, grant.call ≠ n) ∧ ∃ call, s.calls n = some call ∧
    (call.phase = .lost ∨ ∃ failure, call.phase = .refused failure)

lemma Refused.move (h : Refused n s) (call : Call) (phase : Phase)
    (hopen : ∀ before, s.calls m = some before →
      before.phase ≠ .lost ∧ ∀ failure, before.phase ≠ .refused failure) (db' : Database)
    (consumed : List Grant) :
    m ≠ n ∧ Refused n { s.move m call phase with db := db', consumed } := by
  obtain ⟨hquiet, ended, hended, hor⟩ := h
  have hne : m ≠ n := by
    rintro rfl
    rcases hor with hlost | ⟨failure, hrefused⟩
    · exact (hopen ended hended).1 hlost
    · exact (hopen ended hended).2 failure hrefused
  exact ⟨hne, hquiet, ended, (s.move_of_ne call phase hne.symm).trans hended, hor⟩

/-- A call that was refused stays refused. -/
lemma Refused.step (h : Refused n s) (event : Event) : Refused n (step s event) := by
  have hstep := step_stepped s event
  generalize CreateLatch.step s event = s' at hstep ⊢
  have hphases : ∀ {call : Call}, call.Open →
      call.phase ≠ .lost ∧ ∀ failure, call.phase ≠ .refused failure := by
    rintro call (harming | ⟨armed, hcommitted⟩)
    · simp [harming]
    · simp [hcommitted]
  cases hstep with
  | same => exact h
  | quiet call hopen hphase =>
    exact (h.move call _ (fun before hbefore => hphases (hopen before hbefore)) s.db s.consumed).2
  | @commits m clock call armed db hevent hcall harming harmed =>
    exact (h.move call _ (by simp [hcall, harming]) db s.consumed).2
  | @mints m call armed hcall hcommitted =>
    obtain ⟨hne, hquiet, hended⟩ :=
      h.move (m := m) call (.returned (.mint call.req.intentId) armed) (by simp [hcall, hcommitted])
        s.db s.consumed
    refine ⟨?_, hended⟩
    intro grant hgrant
    rcases List.mem_append.1 hgrant with hold | hnew
    · exact hquiet grant hold
    · obtain rfl := List.mem_singleton.1 hnew
      exact hne
  | consumes hcall hreturned hunspent =>
    exact (h.move _ _ (by simp [hcall, hreturned]) s.db _).2
  | crashes worker =>
    obtain ⟨hquiet, ended, hended, hor⟩ := h
    refine ⟨hquiet, ?_⟩
    rcases calls_crash worker hended with hsame | ⟨dead, hdead, hlost⟩
    · exact ⟨ended, hsame, hor⟩
    · exact ⟨dead, hdead, Or.inl hlost⟩
  | writes hkept => exact h

/-! ## The latch over all runs -/

/-- **The latch.** In every run of any number of workers, with crashes anywhere: no intent gets two
permits; no permit is spent twice, and only a permit that was minted is spent; a permit that was
minted comes from one transaction of its call, which latched the intent and armed the operation of
the fence together; and a transaction with a stale fence leaves the database as it was, and its call
never gets a permit.

**Proof sketch.** The invariant gives the first two. A grant begins at the commit of its call. A
transaction with a stale fence is rolled back and its call refused, and a call that was refused
stays so. -/
theorem createLatch_once (db : Database) (events : List Event) :
    let s := Machine.run step (start db) events
    (s.minted.map Grant.intentId).Nodup ∧
    ((s.consumed.map Grant.call).Nodup ∧ ∀ grant ∈ s.consumed, grant ∈ s.minted) ∧
    (∀ grant ∈ s.minted, ∃ before clock after call armed,
      events = before ++ Event.transact grant.call clock :: after ∧
      (Machine.run step (start db) before).calls grant.call = some call ∧
      call.req.intentId = grant.intentId ∧
      Armed (Machine.run step (start db) before).db
        (Machine.run step (start db) (before ++ [.transact grant.call clock])).db
        call.req call.fence armed) ∧
    ∀ n clock call, s.calls n = some call → call.phase = .arming → ¬ call.fence.Holds s.db →
      (step s (.transact n clock)).db = s.db ∧
      ∀ later, ∀ grant ∈ (Machine.run step (step s (.transact n clock)) later).minted,
        grant.call ≠ n := by
  intro s
  have hinv : Inv s := Inv.run db events
  refine ⟨?_, ⟨hinv.consumedOnce, fun grant hgrant => (hinv.consumed grant hgrant).1⟩, ?_, ?_⟩
  · rw [List.nodup_map_iff_inj_on (List.Nodup.of_map _ hinv.mintedOnce)]
    intro grant hgrant grant' hgrant' hintent
    have hcall : grant.call = grant'.call :=
      hinv.distinct grant.call grant'.call grant.intentId (Or.inl hgrant)
        (Or.inl (by rw [hintent]; exact hgrant'))
    cases grant
    cases grant'
    cases hcall
    cases hintent
    rfl
  · intro grant hgrant
    have hgranted : s.Granted grant.call grant.intentId := Or.inl hgrant
    obtain ⟨before, event, after, rfl, hbefore, hafter⟩ :=
      Machine.run_begins (P := fun s : System => s.Granted grant.call grant.intentId)
        (by simp [start, System.Granted]) hgranted
    obtain hold | ⟨clock, call, armed, rfl, hcall, hreq, harmed⟩ := granted_of_step hafter
    · exact absurd hold hbefore
    · refine ⟨before, clock, after, call, armed, rfl, hcall, hreq, ?_⟩
      rw [Machine.run_append]
      exact harmed
  · intro n clock call hcall harming hstale
    obtain ⟨failure, hstep⟩ := transact_of_stale hcall harming hstale
    refine ⟨by rw [hstep]; rfl, fun later => ?_⟩
    have hrefused : Refused n (step s (.transact n clock)) := by
      rw [hstep]
      exact ⟨hinv.not_minted (Call.open_of_eq hcall (.inl harming)), _, s.move_self n call _,
        Or.inr ⟨failure, rfl⟩⟩
    exact (Machine.run_invariant (P := Refused n) (fun s event h => Refused.step h event)
      hrefused).1

end Isomux.CreateLatch
