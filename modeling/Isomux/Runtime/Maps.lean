import Mathlib.Data.List.Basic

set_option autoImplicit false

/-!
# Maps of the runtime

A JavaScript `Map` keeps its entries in the order of their first insertion. It is the list of its
entries here.

## Main results

* `Isomux.JsMap.mem_set`, `Isomux.JsMap.mem_delete` — what is in a map behind an update.
* `Isomux.JsMap.get_set`, `Isomux.JsMap.get_delete` — what a key holds behind an update.
* `Isomux.JsMap.get_filter` — what a key holds among some of the entries.
* `Isomux.JsMap.view_get_foldl` — what a key shows behind a loop over the map.
* `Isomux.JsMap.mem_iff_get` — the entries of a map whose keys are distinct.
-/

namespace Isomux

/-- A `Map`: its entries in insertion order. -/
abbrev JsMap (κ β : Type*) := List (κ × β)

namespace JsMap

variable {κ β : Type*} [DecidableEq κ] (m : JsMap κ β)

/-- `map.get(key)`. -/
def get (key : κ) : Option β := (m.find? fun e => e.1 = key).map Prod.snd

/-- `map.has(key)`. -/
def has (key : κ) : Bool := m.any fun e => e.1 = key

/-- `map.delete(key)`. -/
def delete (key : κ) : JsMap κ β := m.filter fun e => e.1 ≠ key

/-- `map.set(key, value)`: in the place of the key, or behind the others. -/
def set (key : κ) (value : β) : JsMap κ β :=
  if has m key then m.map fun e => if e.1 = key then (key, value) else e
  else m ++ [(key, value)]

variable {m : JsMap κ β} {key : κ} {value : β} {e : κ × β}

theorem has_iff : has m key = true ↔ ∃ value, (key, value) ∈ m := by
  simp only [has, List.any_eq_true, decide_eq_true_eq, Prod.exists]
  constructor
  · rintro ⟨k, v, hmem, rfl⟩
    exact ⟨v, hmem⟩
  · rintro ⟨v, hmem⟩
    exact ⟨key, v, hmem, rfl⟩

@[simp] theorem mem_delete :
    e ∈ delete m key ↔ e ∈ m ∧ e.1 ≠ key := by
  simp [delete]

theorem mem_set (h : e ∈ set m key value) :
    e ∈ m ∨ e = (key, value) := by
  unfold set at h
  split_ifs at h
  · obtain ⟨e', he', heq⟩ := List.mem_map.mp h
    split_ifs at heq
    · exact .inr heq.symm
    · exact .inl (heq ▸ he')
  · simpa using h

lemma get_cons :
    get (e :: m) key = if e.1 = key then some e.2 else get m key := by
  by_cases h : e.1 = key <;> simp [get, h]

lemma has_eq_isSome : has m key = (get m key).isSome := by
  induction m with
  | nil => rfl
  | cons e m ih =>
    rw [get_cons]
    by_cases h : e.1 = key
    · simp [has, h]
    · simpa [has, h] using ih

lemma get_replace {key k : κ} :
    get (m.map fun e => if e.1 = key then (key, value) else e) k =
      if k = key then (get m key).map fun _ => value else get m k := by
  induction m with
  | nil => simp [get]
  | cons e m ih =>
    rw [List.map_cons, get_cons, get_cons, get_cons, ih]
    by_cases hk : k = key <;> by_cases he : e.1 = key
    · simp [hk, he]
    · simp [hk, he]
    · have hne : ¬key = k := fun h => hk h.symm
      simp [hk, he, hne]
    · simp [hk, he]

lemma get_append {key k : κ} :
    get (m ++ [(key, value)]) k = (get m k).or (if key = k then some value else none) := by
  induction m with
  | nil => by_cases hk : key = k <;> simp [get, hk]
  | cons e m ih =>
    rw [List.cons_append, get_cons, get_cons, ih]
    by_cases he : e.1 = k <;> simp [he]

theorem get_set {key k : κ} :
    get (set m key value) k = if k = key then some value else get m k := by
  unfold set
  rw [has_eq_isSome]
  by_cases hk : k = key
  · subst hk
    cases hget : get m k <;> simp [get_replace, get_append, hget]
  · have hne : ¬key = k := fun h => hk h.symm
    cases hget : get m key <;> simp [get_replace, get_append, hk, hne]

theorem get_delete {key k : κ} :
    get (delete m key) k = if k = key then none else get m k := by
  induction m with
  | nil => simp [delete, get]
  | cons e m ih =>
    by_cases he : e.1 = key
    · have hdel : delete (e :: m) key = delete m key := by simp [delete, he]
      rw [hdel, ih, get_cons]
      by_cases hk : k = key
      · simp [hk]
      · have hne : ¬e.1 = k := fun h => hk (h.symm.trans he)
        simp [hk, hne]
    · have hdel : delete (e :: m) key = e :: delete m key := by simp [delete, he]
      rw [hdel, get_cons, get_cons, ih]
      by_cases hek : e.1 = k
      · have hne : ¬k = key := fun h => he (hek.trans h)
        simp [hek, hne]
      · simp [hek]

theorem nodup_keys_set (h : (m.map Prod.fst).Nodup) :
    ((set m key value).map Prod.fst).Nodup := by
  by_cases hhas : has m key = true
  · have hkeys : (set m key value).map Prod.fst = m.map Prod.fst := by
      rw [set, if_pos hhas, List.map_map]
      refine List.map_congr_left fun e _ => ?_
      by_cases he : e.1 = key <;> simp [he]
    rw [hkeys]
    exact h
  · rw [set, if_neg hhas, List.map_append, List.nodup_append]
    refine ⟨h, by simp, ?_⟩
    rintro a ha b hb rfl
    obtain ⟨e, he, rfl⟩ := List.mem_map.1 ha
    have hkey : e.1 = key := by simpa using hb
    exact hhas (has_iff.2 ⟨e.2, hkey ▸ he⟩)

theorem nodup_keys_delete (h : (m.map Prod.fst).Nodup) :
    ((delete m key).map Prod.fst).Nodup :=
  h.sublist (List.filter_sublist.map _)

lemma mem_of_get (h : get m key = some value) :
    (key, value) ∈ m := by
  obtain ⟨e, hfind, rfl⟩ := Option.map_eq_some_iff.1 h
  have hkey : e.1 = key := by simpa using List.find?_some hfind
  exact hkey ▸ List.mem_of_find?_eq_some hfind

theorem mem_iff_get (h : (m.map Prod.fst).Nodup) :
    (key, value) ∈ m ↔ get m key = some value := by
  induction m with
  | nil => simp [get]
  | cons e m ih =>
    obtain ⟨hnotin, hrest⟩ := List.nodup_cons.1 h
    rw [get_cons, List.mem_cons, ih hrest]
    by_cases he : e.1 = key
    · have hnone : get m key ≠ some value := fun hget =>
        hnotin (he ▸ List.mem_map.2 ⟨(key, value), (ih hrest).2 hget, rfl⟩)
      obtain ⟨k, v⟩ := e
      obtain rfl : k = key := he
      simp [hnone, eq_comm]
    · have hne : (key, value) ≠ e := fun heq => he (heq ▸ rfl)
      simp [he, hne]

theorem get_filter (h : (m.map Prod.fst).Nodup) (test : κ × β → Bool) (key : κ) :
    get (m.filter test) key = (get m key).filter fun value => test (key, value) := by
  induction m with
  | nil => rfl
  | cons e m ih =>
    obtain ⟨hnotin, hrest⟩ := List.nodup_cons.1 h
    rw [get_cons]
    by_cases he : e.1 = key
    · obtain ⟨k, v⟩ := e
      obtain rfl : k = key := he
      by_cases hpass : test (k, v) = true
      · simp [hpass, get_cons, Option.filter]
      · have hnone : get m k = none := by
          cases hget : get m k with
          | none => rfl
          | some value =>
            exact absurd (List.mem_map.2 ⟨(k, value), (mem_iff_get hrest).2 hget, rfl⟩) hnotin
        simp [hpass, ih hrest, hnone, Option.filter]
    · by_cases hpass : test e = true
      · simp [hpass, get_cons, he, ih hrest]
      · simp [hpass, he, ih hrest]

theorem view_get_foldl {α τ : Type*} {key : α → κ} {step : JsMap κ β → α → JsMap κ β}
    (view : Option β → τ) (join : τ → τ → τ) (shown : α → τ) {items : List α}
    (hstep : ∀ m, ∀ a ∈ items, ∀ k, view (get (step m a) k) =
      if key a = k then join (view (get m k)) (shown a) else view (get m k))
    (m : JsMap κ β) (k : κ) : view (get (items.foldl step m) k) =
      ((items.filter (key · = k)).map shown).foldl join (view (get m k)) := by
  induction items generalizing m with
  | nil => rfl
  | cons a items ih =>
    rw [List.foldl_cons, ih fun m a ha => hstep m a (List.mem_cons_of_mem _ ha),
      hstep m a List.mem_cons_self k, List.filter_cons]
    by_cases hk : key a = k
    · simp [hk]
    · simp [hk]

omit [DecidableEq κ] in
theorem nodup_keys_foldl {α : Type*} {step : JsMap κ β → α → JsMap κ β} (items : List α)
    (hstep : ∀ m a, (m.map Prod.fst).Nodup → ((step m a).map Prod.fst).Nodup)
    (h : (m.map Prod.fst).Nodup) : ((items.foldl step m).map Prod.fst).Nodup := by
  induction items generalizing m with
  | nil => exact h
  | cons a items ih => exact ih (hstep m a h)

omit [DecidableEq κ] in
theorem forall_mem_foldl {α : Type*} {step : JsMap κ β → α → JsMap κ β} {P : κ × β → Prop}
    (items : List α)
    (hstep : ∀ m, ∀ a ∈ items, (∀ e ∈ m, P e) → ∀ e ∈ step m a, P e)
    (h : ∀ e ∈ m, P e) : ∀ e ∈ items.foldl step m, P e := by
  induction items generalizing m with
  | nil => exact h
  | cons a items ih =>
    exact ih (fun m a ha => hstep m a (List.mem_cons_of_mem _ ha))
      (hstep m a List.mem_cons_self h)

lemma set_cons_of_ne (h : e.1 ≠ key) (m : JsMap κ β) (value : β) :
    set (e :: m) key value = e :: set m key value := by
  have hhas : has (e :: m) key = has m key := by simp [has, h]
  unfold set
  rw [hhas]
  split_ifs <;> simp [h]

lemma set_cons_self (h : key ∉ m.map Prod.fst) (old value : β) :
    set ((key, old) :: m) key value = (key, value) :: m := by
  have hhas : has ((key, old) :: m) key = true := by simp [has]
  have hrest : (m.map fun e => if e.1 = key then (key, value) else e) = m := by
    refine (List.map_congr_left fun e he => ?_).trans (List.map_id m)
    exact if_neg fun heq => h (List.mem_map.2 ⟨e, he, heq⟩)
  rw [set, if_pos hhas, List.map_cons, if_pos rfl, hrest]

end JsMap

end Isomux
