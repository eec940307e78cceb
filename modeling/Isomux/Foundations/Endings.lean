import Isomux.Foundations.AllOrNothing

set_option autoImplicit false

/-!
# How a program ends

A program over a state ends with an answer or with an error, each with the state it leaves. A
condition on answers and one on errors are pushed through a program from its end to its start, one
rule for each way a program is built.

## Main results

* `Endings.ends_bind`, `Endings.ends_tryCatch` and so on — the rules.
* `Endings.Ends.mono` — weaker conditions.
-/

namespace Endings

variable {ε σ α β : Type} {s : σ} {ok ok' : α → σ → Prop} {err err' : ε → σ → Prop}

/-- Run from `s`, the program ends with an answer and a state that meet `ok`, or with an error and a
state that meet `err`. -/
def Ends (p : EStateM ε σ α) (s : σ) (ok : α → σ → Prop) (err : ε → σ → Prop) : Prop :=
  match p.run s with
  | .ok a s' => ok a s'
  | .error e s' => err e s'

@[simp] theorem ends_pure {a : α} : Ends (pure a : EStateM ε σ α) s ok err ↔ ok a s := Iff.rfl

@[simp] theorem ends_throw {e : ε} : Ends (throw e : EStateM ε σ α) s ok err ↔ err e s := Iff.rfl

@[simp] theorem ends_get {ok : σ → σ → Prop} :
    Ends (get : EStateM ε σ σ) s ok err ↔ ok s s := Iff.rfl

@[simp] theorem ends_set {t : σ} {ok : PUnit → σ → Prop} :
    Ends (set t : EStateM ε σ PUnit) s ok err ↔ ok ⟨⟩ t := Iff.rfl

@[simp] theorem ends_modify {f : σ → σ} {ok : PUnit → σ → Prop} :
    Ends (modify f : EStateM ε σ PUnit) s ok err ↔ ok ⟨⟩ (f s) := Iff.rfl

@[simp] theorem ends_bind {p : EStateM ε σ β} {f : β → EStateM ε σ α} :
    Ends (p >>= f) s ok err ↔ Ends p s (fun b s' => Ends (f b) s' ok err) err := by
  unfold Ends
  rw [EStateM.run_bind]
  cases p.run s <;> rfl

@[simp] theorem ends_tryCatch {p : EStateM ε σ α} {handle : ε → EStateM ε σ α} :
    Ends (tryCatch p handle) s ok err ↔ Ends p s ok (fun e s' => Ends (handle e) s' ok err) := by
  unfold Ends
  have hrun : (tryCatch p handle : EStateM ε σ α).run s =
      match p.run s with
      | .ok a s' => .ok a s'
      | .error e s' => (handle e).run s' := by
    change EStateM.tryCatch p handle s = _
    unfold EStateM.tryCatch EStateM.run
    cases p s <;> rfl
  rw [hrun]
  cases p.run s <;> rfl

theorem Ends.mono {p : EStateM ε σ α} (h : Ends p s ok err) (hok : ∀ a s', ok a s' → ok' a s')
    (herr : ∀ e s', err e s' → err' e s') : Ends p s ok' err' := by
  unfold Ends at h ⊢
  cases hrun : p.run s with
  | ok a s' =>
    rw [hrun] at h
    exact hok a s' h
  | error e s' =>
    rw [hrun] at h
    exact herr e s' h

theorem Ends.after {p : EStateM ε σ α} {P : σ → Prop}
    (h : Ends p s (fun _ s' => P s') fun _ s' => P s') : P (AllOrNothing.after p s) := by
  unfold Ends at h
  unfold AllOrNothing.after
  cases hrun : p.run s with
  | ok a s' =>
    rw [hrun] at h
    exact h
  | error e s' =>
    rw [hrun] at h
    exact h

end Endings
