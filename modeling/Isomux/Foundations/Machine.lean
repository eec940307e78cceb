import Mathlib.Data.List.Basic

set_option autoImplicit false

/-!
# Machines that take events

A machine is a function from a state and an event to the next state. A property of its runs comes
from what one step preserves. Where the steps preserve it only under a condition on the event and
the state it meets, the condition has to hold along the run.

## Main results

* `Machine.run_invariant` — what every step preserves, every run preserves.
* `Machine.run_invariant_along` — the same under a condition along the run.
* `Machine.run_invariant_of_mem` — the same under a condition on the events.
* `Machine.forall_take_iff_along`, `Machine.forall_take_iff_along_of_invariant` — a condition along a
  run that is exact.
* `Machine.run_begins` — what comes to hold in a run came to hold at one of its steps.
-/

namespace Machine

variable {σ ε : Type*} {step : σ → ε → σ} {s : σ} {events rest : List ε}

def run (step : σ → ε → σ) (s : σ) (events : List ε) : σ := events.foldl step s

/-- `ok` holds of every event and the state it meets. -/
def Along (step : σ → ε → σ) (ok : σ → ε → Prop) : σ → List ε → Prop
  | _, [] => True
  | s, event :: events => ok s event ∧ Along step ok (step s event) events

/-- A condition along a run is decided event by event. -/
instance decidableAlong {ok : σ → ε → Prop} [∀ s event, Decidable (ok s event)] :
    ∀ s events, Decidable (Along step ok s events)
  | _, [] => .isTrue trivial
  | s, event :: events =>
    have : Decidable (Along step ok (step s event) events) := decidableAlong _ events
    inferInstanceAs (Decidable (ok s event ∧ Along step ok (step s event) events))

@[simp] theorem run_nil : run step s [] = s := rfl

@[simp] theorem run_cons {event : ε} :
    run step s (event :: events) = run step (step s event) events := rfl

theorem run_append : run step s (events ++ rest) = run step (run step s events) rest := by
  simp [run, List.foldl_append]

variable {ok : σ → ε → Prop} {P : σ → Prop}

theorem run_invariant_along
    (hstep : ∀ s event, P s → ok s event → P (step s event)) (hs : P s)
    (hok : Along step ok s events) : P (run step s events) := by
  induction events generalizing s with
  | nil => exact hs
  | cons event events ih => exact ih (hstep s event hs hok.1) hok.2

theorem run_invariant (hstep : ∀ s event, P s → P (step s event)) (hs : P s) :
    P (run step s events) := by
  induction events generalizing s with
  | nil => exact hs
  | cons event events ih => exact ih (hstep s event hs)

theorem run_invariant_of_mem {ok : ε → Prop}
    (hstep : ∀ s event, ok event → P s → P (step s event)) (hs : P s)
    (hok : ∀ event ∈ events, ok event) : P (run step s events) := by
  induction events generalizing s with
  | nil => exact hs
  | cons event events ih =>
    exact ih (hstep s event (hok event List.mem_cons_self) hs)
      fun e he => hok e (List.mem_cons_of_mem _ he)

/-- A property holds in every state of a run exactly when a condition holds along it, where the
condition says exactly which steps keep the property. -/
theorem forall_take_iff_along
    (hstep : ∀ s event, P s → (P (step s event) ↔ ok s event)) (hs : P s) :
    (∀ n, P (run step s (events.take n))) ↔ Along step ok s events := by
  induction events generalizing s with
  | nil => simpa [Along] using hs
  | cons event events ih =>
    constructor
    · intro hall
      have hnext : P (step s event) := by simpa using hall 1
      exact ⟨(hstep s event hs).1 hnext, (ih hnext).1 fun n => by simpa using hall (n + 1)⟩
    · rintro ⟨hok, halong⟩ n
      have hnext := (hstep s event hs).2 hok
      cases n with
      | zero => simpa using hs
      | succ n => simpa using (ih hnext).2 halong n

theorem forall_take_iff_along_of_invariant {I P : σ → Prop}
    (hI : ∀ s event, I s → I (step s event))
    (hstep : ∀ s event, I s → P s → (P (step s event) ↔ ok s event)) (hi : I s) (hs : P s) :
    (∀ n, P (run step s (events.take n))) ↔ Along step ok s events := by
  rw [← forall_take_iff_along (P := fun s => I s ∧ P s) ?_ ⟨hi, hs⟩]
  · exact forall_congr' fun n => (and_iff_right (run_invariant hI hi)).symm
  · rintro s event ⟨hi, hs⟩
    rw [and_iff_right (hI s event hi), hstep s event hi hs]

theorem run_begins (hs : ¬ P s) (h : P (run step s events)) :
    ∃ before event after, events = before ++ event :: after ∧ ¬ P (run step s before) ∧
      P (step (run step s before) event) := by
  induction events generalizing s with
  | nil => exact absurd h hs
  | cons event events ih =>
    by_cases hnext : P (step s event)
    · exact ⟨[], event, events, rfl, hs, hnext⟩
    · obtain ⟨before, e, after, rfl, hbefore, hafter⟩ := ih hnext h
      exact ⟨event :: before, e, after, rfl, hbefore, hafter⟩

theorem along_of_forall (h : ∀ s event, ok s event) (s : σ) (events : List ε) :
    Along step ok s events := by
  induction events generalizing s with
  | nil => trivial
  | cons event events ih => exact ⟨h s event, ih _⟩

theorem along_append :
    Along step ok s (events ++ rest) ↔
      Along step ok s events ∧ Along step ok (run step s events) rest := by
  induction events generalizing s with
  | nil => simp [Along]
  | cons event events ih => simp [Along, ih, and_assoc]

end Machine
