import Mathlib.Logic.Equiv.Basic
import Mathlib.Tactic.Common

set_option autoImplicit false

/-!
# Seating charts

A chart says who holds which place. The moves of a chart are those that put nobody on a place that
another one holds. An implementation keeps its places exclusive when each of its operations is such
a move.

## Main results

* `Seating.Move.exclusive`, `Seating.Move.supported` — every move keeps both.
* `Seating.exclusive_update_iff` — a place that is taken has to be free.
-/

namespace Seating

abbrev Chart (κ π : Type*) := κ → Option π

variable {κ π : Type*} {c c' : Chart κ π} {ok ok' : π → Prop}

def Exclusive (c : Chart κ π) : Prop :=
  ∀ a b p, c a = some p → c b = some p → a = b

def Supported (ok : π → Prop) (c : Chart κ π) : Prop :=
  ∀ a p, c a = some p → ok p

/-- A step of a chart. A place is taken only if it is there and no other one holds it. -/
inductive Move [DecidableEq κ] (ok : π → Prop) : Chart κ π → Chart κ π → Prop
  | stay (c : Chart κ π) : Move ok c c
  | leave (c : Chart κ π) (a : κ) : Move ok c (Function.update c a none)
  /-- One takes a place, from another place or from outside. -/
  | take (c : Chart κ π) (a : κ) (p : π) (hok : ok p) (hfree : ∀ b, b ≠ a → c b ≠ some p) :
      Move ok c (Function.update c a (some p))
  | exchange (c : Chart κ π) (a b : κ) (p q : π) (ha : c a = some p) (hb : c b = some q) :
      Move ok c (Function.update (Function.update c a (some q)) b (some p))

lemma Supported.mono (h : Supported ok c) (hok : ∀ a p, c a = some p → ok p → ok' p) :
    Supported ok' c := fun a p hp => hok a p hp (h a p hp)

section

variable [DecidableEq κ]

/-- **Every move keeps places exclusive.**

**Proof sketch.** A holder behind the move is the one that moved, or held the same place before. An
exchange has two that moved, onto places that they held between them. -/
theorem Move.exclusive (h : Move ok c c') (hc : Exclusive c) : Exclusive c' := by
  intro x y p hx hy
  cases h with
  | stay => exact hc x y p hx hy
  | leave a =>
    have hxa : x ≠ a := by
      rintro rfl
      simp at hx
    have hya : y ≠ a := by
      rintro rfl
      simp at hy
    rw [Function.update_of_ne hxa] at hx
    rw [Function.update_of_ne hya] at hy
    exact hc x y p hx hy
  | take a q hok hfree =>
    by_cases hxa : x = a <;> by_cases hya : y = a
    · exact hxa.trans hya.symm
    · subst hxa
      rw [Function.update_self, Option.some.injEq] at hx
      rw [Function.update_of_ne hya] at hy
      exact absurd (hx ▸ hy) (hfree y hya)
    · subst hya
      rw [Function.update_self, Option.some.injEq] at hy
      rw [Function.update_of_ne hxa] at hx
      exact absurd (hy ▸ hx) (hfree x hxa)
    · rw [Function.update_of_ne hxa] at hx
      rw [Function.update_of_ne hya] at hy
      exact hc x y p hx hy
  | exchange a b q r ha hb =>
    -- The one that holds `p` behind the exchange held it, or its partner did.
    have hback : ∀ z, Function.update (Function.update c a (some r)) b (some q) z = some p →
        c (Equiv.swap a b z) = some p := by
      intro z hz
      by_cases hzb : z = b
      · subst hzb
        rw [Function.update_self] at hz
        rw [Equiv.swap_apply_right, ha, hz]
      · rw [Function.update_of_ne hzb] at hz
        by_cases hza : z = a
        · subst hza
          rw [Function.update_self] at hz
          rw [Equiv.swap_apply_left, hb, hz]
        · rw [Function.update_of_ne hza] at hz
          rwa [Equiv.swap_apply_of_ne_of_ne hza hzb]
    exact (Equiv.swap a b).injective (hc _ _ p (hback x hx) (hback y hy))

/-- **Every move keeps a chart on places that are there.** -/
theorem Move.supported (h : Move ok c c') (hc : Supported ok c) : Supported ok c' := by
  intro x p hx
  cases h with
  | stay => exact hc x p hx
  | leave a =>
    by_cases hxa : x = a
    · simp [hxa] at hx
    · rw [Function.update_of_ne hxa] at hx
      exact hc x p hx
  | take a q hok hfree =>
    by_cases hxa : x = a
    · subst hxa
      rw [Function.update_self, Option.some.injEq] at hx
      exact hx ▸ hok
    · rw [Function.update_of_ne hxa] at hx
      exact hc x p hx
  | exchange a b q r ha hb =>
    by_cases hxb : x = b
    · subst hxb
      rw [Function.update_self] at hx
      exact hc a p (ha.trans hx)
    · rw [Function.update_of_ne hxb] at hx
      by_cases hxa : x = a
      · subst hxa
        rw [Function.update_self] at hx
        exact hc b p (hb.trans hx)
      · rw [Function.update_of_ne hxa] at hx
        exact hc x p hx

/-- **A place that is taken has to be free**: whoever takes it, the chart stays exclusive exactly
when no other one holds it. -/
theorem exclusive_update_iff {a : κ} {p : π} (hc : Exclusive c) :
    Exclusive (Function.update c a (some p)) ↔ ∀ b, b ≠ a → c b ≠ some p := by
  constructor
  · intro h b hb hp
    refine hb (h b a p ?_ (Function.update_self ..))
    rw [Function.update_of_ne hb]
    exact hp
  · intro hfree
    have htake : Move (fun _ => True) c (Function.update c a (some p)) := .take c a p trivial hfree
    exact htake.exclusive hc

end

end Seating
