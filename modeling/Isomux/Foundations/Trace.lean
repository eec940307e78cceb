import Mathlib.Data.List.Infix

set_option autoImplicit false

/-!
# Logs of events

A machine that reports what it does appends to a log. A safety property of such a machine says
something about every event together with the events before it, or about every state the log went
through. Both are closed under taking prefixes and are checked one appended event at a time.

## Main results

* `Trace.each_concat`, `Trace.throughout_concat` — what one more event has to satisfy.
* `Trace.each_append` — a log in two parts.
* `Trace.getElem?_concat` — an event of a log with one more is an old one or that one.
* `Trace.Each.of_prefix` — an initial part of a good log is good.
* `Trace.followed_concat`, `Trace.answered_append` — what more events do to what is behind others.
-/

namespace Trace

variable {α : Type*}

/-- `Q` holds of every event of `log` together with the list of the events before it. -/
def Each (Q : List α → α → Prop) (log : List α) : Prop :=
  ∀ before a after, log = before ++ a :: after → Q before a

/-- `P` holds of every prefix of `log`. -/
def Throughout (P : List α → Prop) (log : List α) : Prop := ∀ l, l <+: log → P l

@[simp] theorem each_nil (Q : List α → α → Prop) : Each Q [] := by
  intro before a after h
  simp at h

variable {log : List α} {Q : List α → α → Prop}

@[simp] theorem each_concat {a : α} :
    Each Q (log ++ [a]) ↔ Each Q log ∧ Q log a := by
  constructor
  · intro h
    refine ⟨fun before b after hlog => h before b (after ++ [a]) (by simp [hlog]), ?_⟩
    exact h log a [] rfl
  · rintro ⟨hlog, ha⟩ before b after heq
    rcases List.eq_nil_or_concat after with rfl | ⟨after, c, rfl⟩
    · obtain ⟨rfl, hab⟩ := List.append_inj' heq rfl
      obtain rfl : a = b := by simpa using hab
      exact ha
    · have heq' : log ++ [a] = (before ++ b :: after) ++ [c] := by simpa using heq
      exact hlog before b after (List.append_inj' heq' rfl).1

theorem each_append {log log' : List α} :
    Each Q (log ++ log') ↔ Each Q log ∧ Each (fun before a => Q (log ++ before) a) log' := by
  induction log' using List.reverseRecOn with
  | nil => simp
  | append_singleton log' a ih =>
    rw [← List.append_assoc, each_concat, each_concat, ih, and_assoc]

theorem getElem?_concat {a b : α} {i : ℕ} (h : (log ++ [a])[i]? = some b) :
    log[i]? = some b ∨ i = log.length ∧ b = a := by
  rcases lt_or_ge i log.length with hlt | hge
  · rw [List.getElem?_append_left hlt] at h
    exact .inl h
  · rw [List.getElem?_append_right hge, List.getElem?_singleton] at h
    split_ifs at h with hlast
    exact .inr ⟨by omega, (Option.some.inj h).symm⟩

theorem getElem?_append_of_some {a : α} {i : ℕ} (h : log[i]? = some a) (rest : List α) :
    (log ++ rest)[i]? = some a := by
  rw [List.getElem?_append_left (List.getElem?_eq_some_iff.1 h).1, h]

theorem Each.of_prefix {l log : List α} (h : Each Q log)
    (hl : l <+: log) : Each Q l := by
  obtain ⟨rest, rfl⟩ := hl
  intro before a after heq
  exact h before a (after ++ rest) (by simp [heq])

theorem Each.imp {Q R : List α → α → Prop} (h : Each Q log)
    (hQR : ∀ before a, Q before a → R before a) : Each R log :=
  fun before a after heq => hQR before a (h before a after heq)

@[simp] theorem throughout_nil {P : List α → Prop} : Throughout P [] ↔ P [] := by
  simp [Throughout]

@[simp] theorem throughout_concat {P : List α → Prop} {a : α} :
    Throughout P (log ++ [a]) ↔ Throughout P log ∧ P (log ++ [a]) := by
  simp only [Throughout, List.prefix_concat_iff, or_imp, forall_and, forall_eq]
  exact and_comm

/-- Every event with `P` has an event with `Q` behind it. -/
def Followed (P Q : α → Prop) (log : List α) : Prop :=
  ∀ before a after, log = before ++ a :: after → P a → ∃ b ∈ after, Q b

/-- The event behind every event with `P` answers it. -/
def Answered (P : α → Prop) (R : α → α → Prop) (log : List α) : Prop :=
  ∀ before a after, log = before ++ a :: after → P a → ∃ b rest, after = b :: rest ∧ R a b

@[simp] theorem followed_nil {P Q : α → Prop} : Followed P Q [] := by
  intro before a after h
  simp at h

/-- One more event: it is what was waited for, or everything before has been followed and it waits
for nothing. -/
theorem followed_concat {P Q : α → Prop} {a : α} (hPQ : ∀ a, P a → ¬ Q a) :
    Followed P Q (log ++ [a]) ↔ Q a ∨ Followed P Q log ∧ ¬ P a := by
  constructor
  · intro h
    by_cases hQ : Q a
    · exact .inl hQ
    · refine .inr ⟨fun before b after heq hb => ?_, fun hP => ?_⟩
      · obtain ⟨c, hc, hQc⟩ := h before b (after ++ [a]) (by simp [heq]) hb
        rcases List.mem_append.mp hc with hin | hlast
        · exact ⟨c, hin, hQc⟩
        · exact absurd ((List.mem_singleton.mp hlast) ▸ hQc) hQ
      · obtain ⟨c, hc, -⟩ := h log a [] rfl hP
        simp at hc
  · intro h before b after heq hb
    rcases List.eq_nil_or_concat after with rfl | ⟨after, c, rfl⟩
    · obtain ⟨rfl, hba⟩ := List.append_inj' heq rfl
      obtain rfl : a = b := by simpa using hba
      exact h.elim (fun hQ => absurd hQ (hPQ a hb)) fun hP => absurd hb hP.2
    · have heq' : log ++ [a] = (before ++ b :: after) ++ [c] := by simpa using heq
      obtain ⟨hlog, hac⟩ := List.append_inj' heq' rfl
      obtain rfl : a = c := by simpa using hac
      rcases h with hQ | ⟨hfollowed, -⟩
      · exact ⟨a, by simp, hQ⟩
      · obtain ⟨d, hd, hQd⟩ := hfollowed before b after hlog hb
        exact ⟨d, by simp [hd], hQd⟩

theorem answered_append {P : α → Prop} {R : α → α → Prop} {log log' : List α}
    (h : Answered P R log) (h' : Answered P R log') : Answered P R (log ++ log') := by
  intro before a after heq hP
  rcases List.append_eq_append_iff.mp heq with ⟨l, rfl, hlog'⟩ | ⟨l, rfl, hrest⟩
  · exact h' l a after hlog' hP
  · cases l with
    | nil => exact h' [] a after hrest.symm hP
    | cons b l =>
      obtain ⟨rfl, rfl⟩ := List.cons.inj hrest
      obtain ⟨c, rest, rfl, hR⟩ := h before a l rfl hP
      exact ⟨c, rest ++ log', rfl, hR⟩

theorem answered_of_forall_not {P : α → Prop} {R : α → α → Prop}
    (h : ∀ a ∈ log, ¬ P a) : Answered P R log := by
  rintro before a after rfl hP
  exact absurd hP (h a (by simp))

end Trace
