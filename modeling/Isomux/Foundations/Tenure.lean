import Mathlib.Data.List.Infix

set_option autoImplicit false

/-!
# Who holds a thing

A log in which some events hand a thing to a party, some take it back, and the others have nothing
to do with it. The party that holds the thing behind a log is the one of the last event that has.
What a holder does falls into its term: the part of the log behind the event that handed the thing
to it.

## Main results

* `Tenure.tenant_eq_some_iff` — a party holds the thing if its term is the last one and is open.
* `Tenure.tenant_append_eq_some_iff` — a party keeps the thing over events that are not its own if
  nobody else is handed it.
-/

namespace Tenure

variable {α π : Type*} {turn : α → Option (Option π)} {log rest : List α} {a : α} {p : π}

/-- The party that holds the thing behind a log: `turn` says to whom an event hands it, if it has to
do with the thing. -/
def tenant (turn : α → Option (Option π)) (log : List α) : Option π :=
  log.foldl (fun holder a => (turn a).getD holder) none

@[simp] lemma tenant_concat : tenant turn (log ++ [a]) = (turn a).getD (tenant turn log) := by
  simp [tenant]

lemma tenant_append_of_idle (h : ∀ b ∈ rest, turn b = none) :
    tenant turn (log ++ rest) = tenant turn log := by
  induction rest using List.reverseRecOn with
  | nil => rw [List.append_nil]
  | append_singleton rest b ih =>
    rw [← List.append_assoc, tenant_concat, h b (by simp), Option.getD_none]
    exact ih fun c hc => h c (List.mem_append_left _ hc)

/-- **The term of a holder.** A party holds the thing if it was handed to it and no event behind
that has to do with the thing. -/
theorem tenant_eq_some_iff :
    tenant turn log = some p ↔ ∃ before a since, log = before ++ a :: since ∧
      turn a = some (some p) ∧ ∀ b ∈ since, turn b = none := by
  constructor
  · intro h
    induction log using List.reverseRecOn with
    | nil => cases h
    | append_singleton log b ih =>
      rw [tenant_concat] at h
      cases hturn : turn b with
      | some holder =>
        rw [hturn, Option.getD_some] at h
        subst h
        exact ⟨log, b, [], rfl, hturn, by simp⟩
      | none =>
        rw [hturn, Option.getD_none] at h
        obtain ⟨before, a, since, rfl, ha, hidle⟩ := ih h
        refine ⟨before, a, since ++ [b], by simp, ha, ?_⟩
        simpa [or_imp, forall_and, hturn] using hidle
  · rintro ⟨before, a, since, rfl, ha, hidle⟩
    have hsplit : before ++ a :: since = before ++ [a] ++ since := by simp
    rw [hsplit, tenant_append_of_idle hidle, tenant_concat, ha, Option.getD_some]

/-- **A holder that does nothing.** Behind events that hand nothing to the party, and that take the
thing back only from who holds it, a party that held it still does if nobody was handed it. -/
theorem tenant_append_eq_some_iff (hp : tenant turn log = some p)
    (hnot : ∀ b ∈ rest, turn b ≠ some (some p))
    (hback : ∀ before b after, rest = before ++ b :: after → turn b = some none →
      tenant turn (log ++ before) ≠ some p) :
    tenant turn (log ++ rest) = some p ↔ ∀ b ∈ rest, ∀ q, turn b ≠ some (some q) := by
  induction rest using List.reverseRecOn with
  | nil => simpa using hp
  | append_singleton rest b ih =>
    have ih' := ih (fun c hc => hnot c (List.mem_append_left _ hc)) fun before c after heq hc =>
      hback before c (after ++ [b]) (by simp [heq]) hc
    have hb := hnot b (by simp)
    have hbackb := hback rest b [] rfl
    rw [← List.append_assoc, tenant_concat]
    constructor
    · intro h c hc q hq
      cases hturn : turn b with
      | some holder =>
        rw [hturn, Option.getD_some] at h
        exact hb (hturn.trans (congrArg some h))
      | none =>
        rw [hturn, Option.getD_none] at h
        rcases List.mem_append.1 hc with hmem | hmem
        · exact ih'.1 h c hmem q hq
        · obtain rfl := List.mem_singleton.1 hmem
          rw [hturn] at hq
          cases hq
    · intro h
      have hkept := ih'.2 fun c hc => h c (List.mem_append_left _ hc)
      rcases hturn : turn b with _ | _ | q
      · exact hkept
      · exact absurd hkept (hbackb hturn)
      · exact absurd hturn (h b (by simp) q)

end Tenure
