import Isomux.Runtime.JsonNumbers
import Isomux.Runtime.Maps
import Mathlib.Data.List.Sort

set_option autoImplicit false

/-!
# Objects as records

An object literal `{}` that is filled under names of the outside world is a record of its own
properties. Their order is that of the language: array indexes first, in ascending order, then the
other names in the order of their first insertion. The name `__proto__` is none of them: assigning a
number or a string to it does nothing.

## Main results

* `Isomux.mem_recordOf` — all entries are in it but the one under `__proto__`.
-/

namespace Isomux

variable {β : Type*}

/-- `"__proto__"`. -/
def PROTO : JsString := js "__proto__"

/-- The number that a name is the text of, if it is an array index. -/
def arrayIndex (name : JsString) : Option ℕ :=
  if name = decimalDigits (digitsValue name) ∧ digitsValue name < 4294967295 then
    some (digitsValue name)
  else none

variable (m : JsMap JsString β)

/-- Properties in the order of the language. -/
def propertyOrder : JsMap JsString β :=
  (m.filter fun e => (arrayIndex e.1).isSome).insertionSort
    (fun a b => (arrayIndex a.1).getD 0 ≤ (arrayIndex b.1).getD 0) ++
      m.filter fun e => (arrayIndex e.1).isNone

/-- `record[name] = value`, for a value that is no object. -/
def assign (name : JsString) (value : β) : JsMap JsString β :=
  if name = PROTO then m else JsMap.set m name value

variable (entries : JsMap JsString β)

/-- The record behind `for (const [name, value] of entries) record[name] = value`. -/
def recordOf : JsMap JsString β :=
  propertyOrder (entries.foldl (fun m e => assign m e.1 e.2) [])

lemma propertyOrder_perm : (propertyOrder m).Perm m := by
  have hparts := List.filter_append_perm (fun e : JsString × β => (arrayIndex e.1).isSome) m
  have hrest : (m.filter fun e => !(arrayIndex e.1).isSome) =
      m.filter fun e => (arrayIndex e.1).isNone :=
    List.filter_congr fun e _ => by rw [Option.not_isSome]
  rw [hrest] at hparts
  exact ((List.perm_insertionSort _ _).append_right _).trans hparts

lemma foldl_set (hnodup : (entries.map Prod.fst).Nodup)
    (m : JsMap JsString β) (hnew : ∀ e ∈ entries, e.1 ∉ m.map Prod.fst) :
    entries.foldl (fun m e => JsMap.set m e.1 e.2) m = m ++ entries := by
  induction entries generalizing m with
  | nil => simp
  | cons e entries ih =>
    obtain ⟨hnotin, hrest⟩ := List.nodup_cons.1 hnodup
    have hhas : ¬ JsMap.has m e.1 = true := fun h => by
      obtain ⟨v, hv⟩ := JsMap.has_iff.1 h
      exact hnew e List.mem_cons_self (List.mem_map.2 ⟨_, hv, rfl⟩)
    have hset : JsMap.set m e.1 e.2 = m ++ [e] := by rw [JsMap.set, if_neg hhas]
    rw [List.foldl_cons, hset, ih hrest, List.append_assoc, List.singleton_append]
    intro e' he' hmem
    rw [List.map_append, List.mem_append] at hmem
    rcases hmem with hold | hlast
    · exact hnew e' (List.mem_cons_of_mem _ he') hold
    · have heq : e'.1 = e.1 := by simpa using hlast
      exact hnotin (heq ▸ List.mem_map.2 ⟨e', he', rfl⟩)

lemma foldl_assign (hnodup : (entries.map Prod.fst).Nodup) :
    entries.foldl (fun m e => assign m e.1 e.2) [] = entries.filter fun e => e.1 ≠ PROTO := by
  have hassign : (fun (m : JsMap JsString β) (e : JsString × β) => assign m e.1 e.2) =
      fun m e => if decide (e.1 ≠ PROTO) = true then JsMap.set m e.1 e.2 else m := by
    funext m e
    by_cases hproto : e.1 = PROTO <;> simp [assign, hproto]
  have hkept : ((entries.filter fun e => e.1 ≠ PROTO).map Prod.fst).Nodup :=
    hnodup.sublist (List.filter_sublist.map _)
  rw [hassign, ← List.foldl_filter, foldl_set _ hkept [] (by simp), List.nil_append]

theorem mem_recordOf {entries : JsMap JsString β} (hnodup : (entries.map Prod.fst).Nodup)
    {e : JsString × β} : e ∈ recordOf entries ↔ e ∈ entries ∧ e.1 ≠ PROTO := by
  rw [recordOf, (propertyOrder_perm _).mem_iff, foldl_assign entries hnodup]
  simp

lemma nodup_recordOf {entries : JsMap JsString β} (hnodup : (entries.map Prod.fst).Nodup) :
    ((recordOf entries).map Prod.fst).Nodup := by
  rw [recordOf, ((propertyOrder_perm _).map Prod.fst).nodup_iff,
    foldl_assign entries hnodup]
  exact hnodup.sublist (List.filter_sublist.map _)

example : recordOf [(js "b", 0), (js "10", 1), (PROTO, 2), (js "9", 3), (js "09", 4)] =
    [(js "9", 3), (js "10", 1), (js "b", 0), (js "09", 4)] := by
  decide +kernel

end Isomux
