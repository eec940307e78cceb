import Mathlib.Data.List.Infix

set_option autoImplicit false

/-!
# A pattern in joined blocks

A list is joined of blocks. A block is foreign to a pattern when it is not empty and has nothing that the
pattern has. Where the pattern occurs in the joined list, it lies in blocks one behind the other of which
none is foreign.

## Main results

* `Blocks.exists_infix` — where a pattern lies.
-/

namespace Blocks

section

variable {ι α : Type*} {text : ι → List α} {pattern : List α} {blocks : List ι}

/-- A block that is not empty and has nothing that the pattern has. -/
def Foreign (text : ι → List α) (pattern : List α) (i : ι) : Prop :=
  text i ≠ [] ∧ ∀ a ∈ text i, a ∉ pattern

lemma isPrefix_append {part x y : List α} (h : part <+: x ++ y) :
    part <+: x ∨ ∃ rest, part = x ++ rest ∧ rest <+: y := by
  obtain ⟨back, hback⟩ := h
  rcases List.append_eq_append_iff.1 hback with ⟨rest, hx, -⟩ | ⟨rest, hpart, hy⟩
  · exact .inl ⟨rest, hx.symm⟩
  · exact .inr ⟨rest, hpart, ⟨back, hy.symm⟩⟩

lemma Foreign.not_prefix {i : ι} {back rest : List α} (h : Foreign text pattern i)
    (hback : back ≠ []) (hsplit : back <:+ text i) {part : List α} (hpart : part ≠ [])
    (hmem : ∀ a ∈ part, a ∈ pattern) : ¬part <+: back ++ rest := by
  intro hstart
  obtain ⟨a, part, rfl⟩ := List.exists_cons_of_ne_nil hpart
  obtain ⟨b, back, rfl⟩ := List.exists_cons_of_ne_nil hback
  have heq : a = b := (List.cons_prefix_cons.1 hstart).1
  exact h.2 b (hsplit.subset List.mem_cons_self) (heq ▸ hmem a List.mem_cons_self)

/-- A part of a pattern that the joined blocks begin with lies in the first of them, none of which is
foreign. -/
lemma exists_prefix {part : List α} (hmem : ∀ a ∈ part, a ∈ pattern) (h : part <+: blocks.flatMap text) :
    ∃ middle after, blocks = middle ++ after ∧ (∀ i ∈ middle, ¬Foreign text pattern i) ∧
      part <+: middle.flatMap text := by
  induction blocks generalizing part with
  | nil => exact ⟨[], [], rfl, nofun, h⟩
  | cons i blocks ih =>
    by_cases hpart : part = []
    · exact ⟨[], i :: blocks, rfl, nofun, hpart ▸ List.nil_prefix⟩
    · rw [List.flatMap_cons] at h
      have hforeign : ¬Foreign text pattern i := fun hi =>
        hi.not_prefix hi.1 List.suffix_rfl hpart hmem h
      rcases isPrefix_append h with hin | ⟨rest, rfl, hrest⟩
      · refine ⟨[i], blocks, rfl, fun j hj => List.mem_singleton.1 hj ▸ hforeign, ?_⟩
        rwa [List.flatMap_singleton]
      · obtain ⟨middle, after, rfl, hmiddle, hlies⟩ :=
          ih (fun a ha => hmem a (List.mem_append_right _ ha)) hrest
        refine ⟨i :: middle, after, rfl, fun j hj => ?_, ?_⟩
        · rcases List.mem_cons.1 hj with rfl | hj
          · exact hforeign
          · exact hmiddle j hj
        · rw [List.flatMap_cons]
          exact List.prefix_append_right_inj _ |>.2 hlies

/-- **Where a pattern lies** in joined blocks: in blocks one behind the other, none of them foreign. -/
theorem exists_infix (hne : pattern ≠ []) (h : pattern <:+: blocks.flatMap text) :
    ∃ before middle after, blocks = before ++ middle ++ after ∧
      (∀ i ∈ middle, ¬Foreign text pattern i) ∧ pattern <:+: middle.flatMap text := by
  induction blocks with
  | nil => exact absurd (List.infix_nil.1 h) hne
  | cons i blocks ih =>
    rw [List.flatMap_cons] at h
    obtain ⟨front, back, hfront⟩ := h
    rw [List.append_assoc] at hfront
    rcases List.append_eq_append_iff.1 hfront with ⟨rest, hblock, hrest⟩ | ⟨rest, hskip, hrest⟩
    · by_cases hempty : rest = []
      · -- the pattern begins behind the block
        subst hempty
        obtain ⟨before, middle, after, rfl, hmiddle, hin⟩ := ih ⟨[], back, by simpa using hrest⟩
        exact ⟨i :: before, middle, after, rfl, hmiddle, hin⟩
      · have hstart : pattern <+: rest ++ blocks.flatMap text := ⟨back, hrest⟩
        have hforeign : ¬Foreign text pattern i := fun hi =>
          hi.not_prefix hempty ⟨front, hblock.symm⟩ hne (fun _ ha => ha) hstart
        rcases isPrefix_append hstart with hin | ⟨more, hmore, hnext⟩
        · refine ⟨[], [i], blocks, rfl, fun j hj => List.mem_singleton.1 hj ▸ hforeign, ?_⟩
          rw [List.flatMap_singleton, hblock]
          exact hin.isInfix.trans (List.suffix_append _ _).isInfix
        · obtain ⟨middle, after, rfl, hmiddle, hlies⟩ :=
            exists_prefix (fun a ha => hmore ▸ List.mem_append_right _ ha) hnext
          refine ⟨[], i :: middle, after, rfl, fun j hj => ?_, ?_⟩
          · rcases List.mem_cons.1 hj with rfl | hj
            · exact hforeign
            · exact hmiddle j hj
          · obtain ⟨last, hlast⟩ := hlies
            rw [List.flatMap_cons, hblock, hmore, ← hlast]
            exact ⟨front, last, by simp⟩
    · obtain ⟨before, middle, after, rfl, hmiddle, hin⟩ := ih ⟨rest, back, by
        rw [List.append_assoc]
        exact hrest.symm⟩
      exact ⟨i :: before, middle, after, rfl, hmiddle, hin⟩

end

end Blocks
