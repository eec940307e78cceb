import Mathlib.Data.List.Basic

set_option autoImplicit false

/-!
# Programs that change all or nothing

A program over a state either gives an answer or fails. It changes all or nothing when an answer comes
with the state it met or with a change that is allowed, and a failure leaves what counts of the state
as it was. What counts is a relation: a failure may leave traces elsewhere.

## Main results

* `AllOrNothing.From.bind` — a program that changes nothing may come first.
* `AllOrNothing.From.andPure` — an answer may be computed at the end.
* `AllOrNothing.From.after` — the state behind a program has changed as allowed, or not at all.
-/

namespace AllOrNothing

variable {ε σ α β : Type} {same change change' : σ → σ → Prop} {s s' : σ}

/-- An answer comes with the state that was met or with an allowed change of it; a failure leaves what
counts as it was. -/
def From (same change : σ → σ → Prop) (s : σ) (p : EStateM ε σ α) : Prop :=
  match p.run s with
  | .ok _ s' => s' = s ∨ change s s'
  | .error _ s' => same s s'

def after (p : EStateM ε σ α) (s : σ) : σ :=
  match p.run s with
  | .ok _ s' => s'
  | .error _ s' => s'

def Fails (p : EStateM ε σ α) (s : σ) : Prop := ∃ e s', p.run s = .error e s'

namespace From

variable {p q : EStateM ε σ α} {f : α → EStateM ε σ β}

lemma pure (a : α) : From same change s (Pure.pure a : EStateM ε σ α) := .inl rfl

lemma throw (hrefl : same s s) (e : ε) :
    From same change s (MonadExcept.throw e : EStateM ε σ α) := hrefl

lemma get_bind {f : σ → EStateM ε σ β} (h : From same change s (f s)) :
    From same change s (get >>= f) := h

lemma ite {c : Prop} [Decidable c] (h : c → From same change s p) (h' : ¬c → From same change s q) :
    From same change s (if c then p else q) := by
  split_ifs with hc
  · exact h hc
  · exact h' hc

/-- **A program that changes nothing may come first.** -/
lemma bind (hp : From same (fun _ _ => False) s p)
    (hf : ∀ a, p.run s = .ok a s → From same change s (f a)) : From same change s (p >>= f) := by
  unfold From at hp ⊢
  rw [EStateM.run_bind]
  cases hout : p.run s with
  | ok a t =>
    rw [hout] at hp
    obtain rfl : t = s := hp.resolve_right id
    exact hf a hout
  | error e t =>
    rw [hout] at hp
    exact hp

/-- **An answer may be computed at the end.** -/
lemma andPure (h : From same change s p) (g : α → β) :
    From same change s (p >>= fun a => Pure.pure (g a)) := by
  unfold From at h ⊢
  rw [EStateM.run_bind]
  cases hout : p.run s with
  | ok a t =>
    rw [hout] at h
    exact h
  | error e t =>
    rw [hout] at h
    exact h

theorem after (h : From same change s p) (hrefl : same s s) :
    same s (AllOrNothing.after p s) ∨ change s (AllOrNothing.after p s) := by
  unfold From at h
  unfold AllOrNothing.after
  cases hout : p.run s with
  | ok a t =>
    rw [hout] at h
    rcases h with heq | hchange
    · exact .inl (heq ▸ hrefl)
    · exact .inr hchange
  | error e t =>
    rw [hout] at h
    exact .inl h

/-- **A program that fails** has changed nothing that counts. -/
theorem of_fails (h : From same change s p) (hfails : Fails p s) :
    same s (AllOrNothing.after p s) := by
  obtain ⟨e, t, hout⟩ := hfails
  unfold From at h
  unfold AllOrNothing.after
  rw [hout] at h ⊢
  exact h

end From

end AllOrNothing
