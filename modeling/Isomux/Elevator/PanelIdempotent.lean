import Isomux.Elevator.PanelMerge
import Isomux.Runtime.Json

set_option autoImplicit false

/-!
# A sanitised panel, sanitised again

Sanitising brings a panel to its normal form, and a panel in normal form should stay as it is. All of
it does but the order of the snapshots: they are sorted, by their floors among other things, before
the floors over the cap are cut.

## Main results

* `Isomux.sanitisePanel_value_iff` — a sanitised panel stays exactly when its snapshots are sorted.
* `Isomux.sanitisePanel_idempotent_iff` — it stays exactly when the cut keeps the order.
-/

namespace Isomux

def Panel.value (p : Panel) : JsValue :=
  .object [("visited", .array (p.visited.map PanelVisit.value)),
    ("removed", .array (p.removed.map PanelRemoval.value)),
    ("snapshots", .array (p.snapshots.map PanelSnapshot.value))]

section

variable (parseUrl : JsString → Option ParsedUrl) (raw : JsValue) (now : ℕ)

/-- Of the latest removals that a value has of its offices, one of the last. -/
def KeptRemoval : PanelRemoval → Prop :=
  Largest.Among (IsLatestRemoval (readRemovals parseUrl (raw.field "removed") now) now)
    MAX_PANEL_REMOVALS

def KeptVisit : PanelVisit → Prop :=
  Largest.Among (IsFirstVisit (readVisits parseUrl (raw.field "visited") now)
    (KeptRemoval parseUrl raw now)) MAX_PANEL_BUTTONS

def KeptSnapshot : PanelSnapshot → Prop :=
  Largest.Among (IsNewestSnapshot (readSnapshots parseUrl (raw.field "snapshots") now)
    (KeptVisit parseUrl raw now)) MAX_SNAPSHOTS

/-- The cut of the floors does not turn two kept snapshots of one time around. -/
def CutKeepsOrder : Prop :=
  ∀ s t, KeptSnapshot parseUrl raw now s → KeptSnapshot parseUrl raw now t → s.rev = t.rev →
    s ≤ t → s.cut ≤ t.cut

end

section

variable {parseUrl : JsString → Option ParsedUrl} {now : ℕ} (raw : JsValue)

/-! ## Sane panels -/

lemma length_sliceLast_le {α : Type} (n : ℕ) (list : List α) : (sliceLast n list).length ≤ n := by
  rw [sliceLast, List.length_drop]
  omega

lemma mem_sliceLast_iff {α κ : Type} [LinearOrder α] {key : α → κ} {P : α → Prop} {rows : List α}
    (hsorted : rows.Pairwise (· ≤ ·)) (hnodup : (rows.map key).Nodup)
    (hrows : ∀ x, x ∈ rows ↔ P x) (n : ℕ) (x : α) : x ∈ sliceLast n rows ↔ Largest.Among P n x :=
  Largest.mem_drop_iff ((hsorted.and hnodup.of_map).imp fun h => lt_of_le_of_ne h.1 h.2) hrows

/-- The snapshots of a sanitised panel are those that are kept, in their order before the cut. -/
lemma exists_kept : ∃ kept : List PanelSnapshot,
    (sanitisePanel parseUrl raw now).snapshots = kept.map PanelSnapshot.cut ∧
    kept.Pairwise (· ≤ ·) ∧ ∀ s, s ∈ kept ↔ KeptSnapshot parseUrl raw now s := by
  obtain ⟨removed, hremoved⟩ : ∃ removed, removed = sliceLast MAX_PANEL_REMOVALS
    (removalRows (readRemovals parseUrl (raw.field "removed") now) now) := ⟨_, rfl⟩
  obtain ⟨visited, hvisited⟩ : ∃ visited, visited = sliceLast MAX_PANEL_BUTTONS
    (visitRows (readVisits parseUrl (raw.field "visited") now) removed) := ⟨_, rfl⟩
  have hr : (· ∈ removed) = KeptRemoval parseUrl raw now := funext fun r => propext <| by
    rw [hremoved]
    exact mem_sliceLast_iff (pairwise_le_mergeSort isLE_removalOrder _) (nodup_removalRows _ _)
      (mem_removalRows_iff fun r h => (ok_readRemovals r h).nonneg) _ r
  have hnodup : (removed.map (·.url)).Nodup := by
    rw [hremoved]
    exact (nodup_removalRows _ _).sublist ((sliceLast_sublist _ _).map _)
  have hv : (· ∈ visited) = KeptVisit parseUrl raw now := funext fun v => propext <| by
    rw [hvisited, KeptVisit, ← hr]
    exact mem_sliceLast_iff (pairwise_le_mergeSort isLE_visitOrder _) (nodup_visitRows _ _)
      (mem_visitRows_iff (fun v h => (ok_readVisits v h).nonneg) hnodup) _ v
  refine ⟨sliceLast MAX_SNAPSHOTS (snapshotRows (readSnapshots parseUrl (raw.field "snapshots") now)
    visited), ?_, (pairwise_le_mergeSort isLE_snapshotOrder _).sublist (sliceLast_sublist _ _), ?_⟩
  · rw [sanitisePanel, normalise_eq hremoved hvisited]
  · rw [KeptSnapshot, ← hv]
    exact mem_sliceLast_iff (pairwise_le_mergeSort isLE_snapshotOrder _) (nodup_snapshotRows _ _)
      (mem_snapshotRows_iff _) _

lemma underCaps_sanitisePanel :
    UnderCaps (sanitisePanel parseUrl raw now).visited (sanitisePanel parseUrl raw now).removed
      (sanitisePanel parseUrl raw now).snapshots := by
  have hcap : ∀ {α : Type} (key : α → JsString) (n : ℕ) (rows : List α),
      ((sliceLast n rows).map key).dedup.length ≤ n := fun key n rows =>
    ((List.dedup_sublist _).length_le.trans (List.length_map key).le).trans
      (length_sliceLast_le n rows)
  obtain ⟨removed, hremoved⟩ : ∃ removed, removed = sliceLast MAX_PANEL_REMOVALS
    (removalRows (readRemovals parseUrl (raw.field "removed") now) now) := ⟨_, rfl⟩
  obtain ⟨visited, hvisited⟩ : ∃ visited, visited = sliceLast MAX_PANEL_BUTTONS
    (visitRows (readVisits parseUrl (raw.field "visited") now) removed) := ⟨_, rfl⟩
  rw [sanitisePanel, normalise_eq hremoved hvisited]
  refine ⟨?_, ?_, ?_⟩
  · dsimp only
    rw [hvisited]
    exact hcap _ _ _
  · dsimp only
    rw [hremoved]
    exact hcap _ _ _
  · dsimp only
    rw [List.map_map]
    exact hcap _ _ _

lemma sane_nothing : (⟨[], [], []⟩ : Panel).Sane parseUrl now := by
  constructor <;> simp

lemma sanitisePanel_value (p : Panel) :
    sanitisePanel parseUrl p.value now = mergePanels parseUrl p ⟨[], [], []⟩ now := by
  simp only [mergePanels, Panel.value, List.append_nil]

/-- **A sanitised panel stays exactly when its snapshots are sorted.** -/
theorem sanitisePanel_value_iff :
    sanitisePanel parseUrl (sanitisePanel parseUrl raw now).value now =
        sanitisePanel parseUrl raw now ↔
      (sanitisePanel parseUrl raw now).snapshots.Pairwise (· ≤ ·) := by
  have hsane : (sanitisePanel parseUrl raw now).Sane parseUrl now := sane_sanitisePanel raw
  have hmerged := sorted_mergePanels hsane sane_nothing
  rw [sanitisePanel_value]
  constructor
  · intro h
    rwa [h] at hmerged
  · intro hsorted
    refine (sane_mergePanels _ _).eq_of_entry hsane hmerged hsorted fun url => ?_
    rw [entry_mergePanels hsane sane_nothing]
    · exact Tombstones.Entry.merge_empty (hsane.settled url)
    · simp only [List.append_nil]
      exact underCaps_sanitisePanel raw

/-! ## The cut -/

lemma le_of_rev_lt {s t : PanelSnapshot} (h : s.rev < t.rev) : s ≤ t := by
  rw [← isLE_snapshotOrder, snapshotOrder, isLE_signOf_then]
  exact .inl h

lemma pairwise_cut_iff {snapshots : List PanelSnapshot} (hsorted : snapshots.Pairwise (· ≤ ·)) :
    (snapshots.map PanelSnapshot.cut).Pairwise (· ≤ ·) ↔
      ∀ s ∈ snapshots, ∀ t ∈ snapshots, s.rev = t.rev → s ≤ t → s.cut ≤ t.cut := by
  rw [List.pairwise_map]
  constructor
  · intro hcut s hs t ht _ hle
    -- of two snapshots, the one that is not later comes first in the list, or they are one
    have hthere : snapshots.Pairwise fun a b => a ≤ b → a.cut ≤ b.cut :=
      hcut.imp (by intro a b h _; exact h)
    have hback : snapshots.Pairwise (flip fun a b => a ≤ b → a.cut ≤ b.cut) :=
      hsorted.imp fun hab hba => le_of_eq (congrArg _ (le_antisymm hba hab))
    exact hthere.forall_of_forall_of_flip (fun a _ _ => le_refl _) hback hs ht hle
  · intro hkeeps
    refine hsorted.imp_of_mem fun {s t} hs ht hle => ?_
    rcases lt_trichotomy s.rev t.rev with hlt | heq | hgt
    · exact le_of_rev_lt hlt
    · exact hkeeps s hs t ht heq hle
    · exact le_of_eq (congrArg PanelSnapshot.cut (le_antisymm hle (le_of_rev_lt hgt)))

/-- **Sanitising is idempotent exactly when the cut keeps the order**: for every value, the panel
that it reads as stays as it is if and only if of the snapshots that are kept no two of one time
change their order when their floors are cut. Kept is of every kept visit the newest snapshot, as
long as it is one of the last `MAX_SNAPSHOTS`. -/
theorem sanitisePanel_idempotent_iff (parseUrl : JsString → Option ParsedUrl) (raw : JsValue)
    (now : ℕ) : sanitisePanel parseUrl (sanitisePanel parseUrl raw now).value now =
        sanitisePanel parseUrl raw now ↔ CutKeepsOrder parseUrl raw now := by
  obtain ⟨kept, hkept, hsorted, hmem⟩ : ∃ kept, (sanitisePanel parseUrl raw now).snapshots = _ ∧ _ :=
    exists_kept raw
  rw [sanitisePanel_value_iff, hkept, pairwise_cut_iff hsorted]
  simp only [hmem, CutKeepsOrder]
  exact forall_congr' fun s => ⟨fun h t hs ht => h hs t ht, fun h hs t ht => h t hs ht⟩

end

/-! ## A cut that turns two snapshots around -/

def floorUrl (i : ℕ) : JsString := js "https://f" ++ decimalDigits i

/-- The floors of an office that has as many as the cap. -/
def manyFloors : List JsString := (List.range MAX_FLOORS).map floorUrl

/-- A panel of two offices whose snapshots have one time. The second one has a floor over the cap. -/
def crowdedPanel : Panel where
  visited := [⟨js "https://a", 1⟩, ⟨js "https://b", 2⟩]
  removed := []
  snapshots := [⟨js "https://a", 5, manyFloors⟩, ⟨js "https://b", 5, manyFloors ++ [js "https://x"]⟩]

lemma isOrigin_floorUrl : ∀ i < MAX_FLOORS, isOrigin parseOrigin (.string (floorUrl i)) =
    some (floorUrl i) := by
  decide +kernel

lemma nodup_manyFloors : (manyFloors ++ [js "https://x"]).Nodup := by
  have hinjective : Function.Injective floorUrl := fun i j h =>
    decimalDigits_injective (List.append_cancel_left h)
  refine (List.nodup_range.map hinjective).append (List.nodup_singleton _) ?_
  intro f hf hx
  obtain ⟨i, -, rfl⟩ := List.mem_map.1 hf
  have hunit : (102 : CodeUnit) = 120 := Option.some.inj
    (congrArg (fun text : JsString => text[8]?) (List.mem_singleton.1 hx))
  exact absurd hunit (by decide)

lemma ok_crowdedPanel : ∀ s ∈ crowdedPanel.snapshots, s.Ok parseOrigin 100 := by
  have hfloors : ∀ f ∈ manyFloors ++ [js "https://x"],
      isOrigin parseOrigin (.string f) = some f := by
    intro f hf
    rcases List.mem_append.1 hf with hmany | hone
    · obtain ⟨i, hi, rfl⟩ := List.mem_map.1 hmany
      exact isOrigin_floorUrl i (List.mem_range.1 hi)
    · rw [List.mem_singleton.1 hone]
      decide +kernel
  intro s hs
  simp only [crowdedPanel, List.mem_cons, List.not_mem_nil, or_false] at hs
  rcases hs with rfl | rfl
  · exact ⟨by decide +kernel, by decide, by decide, fun f hf => hfloors f (List.mem_append_left _ hf),
      nodup_manyFloors.sublist (List.sublist_append_left _ _)⟩
  · exact ⟨by decide +kernel, by decide, by decide, hfloors, nodup_manyFloors⟩

/-- Of the panel all visits and all snapshots are kept. -/
lemma kept_crowdedPanel :
    ∀ s ∈ crowdedPanel.snapshots, KeptSnapshot parseOrigin crowdedPanel.value 100 s := by
  have hvisits : readVisits parseOrigin (crowdedPanel.value.field "visited") 100 =
      crowdedPanel.visited := by decide +kernel
  have hsnapshots : readSnapshots parseOrigin (crowdedPanel.value.field "snapshots") 100 =
      crowdedPanel.snapshots := readSnapshots_values ok_crowdedPanel
  have hnone : ∀ r, ¬KeptRemoval parseOrigin crowdedPanel.value 100 r :=
    fun r h => List.not_mem_nil h.1.1
  have hvisited : ∀ v ∈ crowdedPanel.visited, KeptVisit parseOrigin crowdedPanel.value 100 v := by
    intro v hv
    rw [KeptVisit, hvisits]
    refine Largest.among_of_length_le (fun w hw => hw.1) (by decide)
      ⟨hv, fun r hr => absurd hr (hnone r), fun w hw hurl _ => ?_⟩
    have hnodup : (crowdedPanel.visited.map (·.url)).Nodup := by decide +kernel
    rw [List.inj_on_of_nodup_map hnodup hw hv hurl]
  intro s hs
  obtain ⟨v, hv, hurl⟩ : ∃ v ∈ crowdedPanel.visited, v.url = s.origin := by
    simp only [crowdedPanel, List.mem_cons, List.not_mem_nil, or_false] at hs ⊢
    rcases hs with rfl | rfl
    · exact ⟨_, .inl rfl, rfl⟩
    · exact ⟨_, .inr rfl, rfl⟩
  rw [KeptSnapshot, hsnapshots]
  refine Largest.among_of_length_le (fun t ht => ht.1) (by decide)
    ⟨hs, ⟨v, hvisited v hv, hurl⟩, fun t ht horigin => ?_⟩
  have hnodup : (crowdedPanel.snapshots.map (·.origin)).Nodup := by decide +kernel
  rw [List.inj_on_of_nodup_map hnodup ht hs horigin]

/-- The comma behind the last floor sorts before the bracket. -/
lemma jsonStrings_manyFloors_lt :
    (jsonStrings (manyFloors ++ [js "https://x"])).units < (jsonStrings manyFloors).units := by
  decide +kernel

theorem sanitisePanel_turns_around : ¬ ∀ (parseUrl : JsString → Option ParsedUrl) (raw : JsValue)
    (now : ℕ), sanitisePanel parseUrl (sanitisePanel parseUrl raw now).value now =
      sanitisePanel parseUrl raw now := by
  intro hall
  have hsorted := (sanitisePanel_value_iff crowdedPanel.value).1
    (hall parseOrigin crowdedPanel.value 100)
  obtain ⟨kept, hkept, hkeptSorted, hmem⟩ : ∃ kept,
      (sanitisePanel parseOrigin crowdedPanel.value 100).snapshots = _ ∧ _ := exists_kept _
  rw [hkept, pairwise_cut_iff hkeptSorted] at hsorted
  have hthere : ∀ s ∈ crowdedPanel.snapshots, s ∈ kept := fun s hs =>
    (hmem s).2 (kept_crowdedPanel s hs)
  have hturned := hsorted _ (hthere _ (List.mem_cons_of_mem _ List.mem_cons_self)) _
    (hthere _ List.mem_cons_self) rfl ?_
  · -- both have the same floors now
    have hlength : manyFloors.length = MAX_FLOORS := by simp [manyFloors]
    rw [← isLE_snapshotOrder] at hturned
    simp only [PanelSnapshot.cut, List.take_left' hlength, List.take_of_length_le hlength.le] at hturned
    rw [snapshotOrder, byUrl, byUrl, isLE_signOf_then, isLE_signOf_then, isLE_signOf] at hturned
    rcases hturned with hlt | ⟨-, hlt | ⟨-, hle⟩⟩
    · exact absurd hlt (lt_irrefl _)
    · exact absurd hlt (lt_irrefl _)
    · exact absurd hle (by decide)
  · rw [← isLE_snapshotOrder, snapshotOrder, byUrl, isLE_signOf_then, isLE_signOf_then]
    exact .inr ⟨rfl, .inl jsonStrings_manyFloors_lt⟩

end Isomux
