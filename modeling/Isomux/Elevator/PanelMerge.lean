import Isomux.Elevator.PanelNormal
import Mathlib.Data.List.Dedup

set_option autoImplicit false

/-!
# The merge of panels

Under the caps, the merge of two sanitised panels merges what they say of each office. The order of
two panels does not matter then, and the grouping of three does exactly where the first merge forgets
a visit or a snapshot that the other grouping shows.

## Main results

* `Isomux.Panel.Sane.eq_of_entry` — a sane panel is determined by its entries.
* `Isomux.entry_mergePanels` — the entries of a merge.
* `Isomux.mergePanels_order_independent_iff` — when the order of the merges does not matter.
-/

namespace Isomux

section

variable {parseUrl : JsString → Option ParsedUrl} {now : ℕ} {a b c : Panel}

/-! ## Panels by their entries -/

/-- A row is the one that a key finds. -/
lemma Panel.Sane.mem_iff_of_entry {p q : Panel} (hp : p.Sane parseUrl now)
    (hq : q.Sane parseUrl now) (h : ∀ url, p.entry url = q.entry url) :
    (∀ v, v ∈ p.visited → v ∈ q.visited) ∧ (∀ r, r ∈ p.removed → r ∈ q.removed) ∧
      ∀ s, s ∈ p.snapshots → s ∈ q.snapshots := by
  refine ⟨fun v hv => ?_, fun r hr => ?_, fun s hs => ?_⟩
  · have hurl : ∀ x y : PanelVisit, x.url = y.url → panelTime x.addedAt = panelTime y.addedAt → x = y :=
      fun x y hurl hat => PanelVisit.ext hurl (panelTime_inj.1 hat)
    refine (mem_iff_elim _ hq.visits_nodup hurl (panelTime_ne_top v.addedAt)).2 ?_
    exact (congrArg Tombstones.Entry.added (h v.url)).symm.trans
      ((mem_iff_elim _ hp.visits_nodup hurl (panelTime_ne_top v.addedAt)).1 hv)
  · have hurl : ∀ x y : PanelRemoval, x.url = y.url → panelTime x.at = panelTime y.at → x = y :=
      fun x y hurl hat => PanelRemoval.ext hurl (panelTime_inj.1 hat)
    refine (mem_iff_elim _ hq.removals_nodup hurl (panelTime_ne_bot r.at)).2 ?_
    exact (congrArg Tombstones.Entry.removed (h r.url)).symm.trans
      ((mem_iff_elim _ hp.removals_nodup hurl (panelTime_ne_bot r.at)).1 hr)
  · have hsame : ∀ x y : PanelSnapshot, x.origin = y.origin → WithBot.some x = WithBot.some y → x = y :=
      fun x y _ hsame => WithBot.coe_injective hsame
    refine (mem_iff_elim _ hq.snapshots_nodup hsame (WithBot.coe_ne_bot (a := s))).2 ?_
    exact (congrArg Tombstones.Entry.copy (h s.origin)).symm.trans
      ((mem_iff_elim _ hp.snapshots_nodup hsame WithBot.coe_ne_bot).1 hs)

lemma eq_of_sorted_of_mem_iff {α κ : Type} [PartialOrder α] {key : α → κ} {l l' : List α}
    (h : (l.map key).Nodup) (h' : (l'.map key).Nodup) (hs : l.Pairwise (· ≤ ·))
    (hs' : l'.Pairwise (· ≤ ·)) (hmem : ∀ x, x ∈ l ↔ x ∈ l') : l = l' :=
  ((List.perm_ext_iff_of_nodup h.of_map h'.of_map).2 hmem).eq_of_pairwise' hs hs'

/-- **A sane panel whose snapshots are sorted is determined by its entries.** -/
theorem Panel.Sane.eq_of_entry {p q : Panel} (hp : p.Sane parseUrl now) (hq : q.Sane parseUrl now)
    (hps : p.snapshots.Pairwise (· ≤ ·)) (hqs : q.snapshots.Pairwise (· ≤ ·))
    (h : ∀ url, p.entry url = q.entry url) : p = q := by
  obtain ⟨hv, hr, hs⟩ := hp.mem_iff_of_entry hq h
  obtain ⟨hv', hr', hs'⟩ := hq.mem_iff_of_entry hp fun url => (h url).symm
  have hvisited : p.visited = q.visited := eq_of_sorted_of_mem_iff hp.visits_nodup
    hq.visits_nodup hp.visits_sorted hq.visits_sorted fun x => ⟨hv x, hv' x⟩
  have hremoved : p.removed = q.removed := eq_of_sorted_of_mem_iff hp.removals_nodup
    hq.removals_nodup hp.removals_sorted hq.removals_sorted fun x => ⟨hr x, hr' x⟩
  have hsnapshots : p.snapshots = q.snapshots := eq_of_sorted_of_mem_iff hp.snapshots_nodup
    hq.snapshots_nodup hps hqs fun x => ⟨hs x, hs' x⟩
  cases p
  cases q
  subst hvisited hremoved hsnapshots
  rfl

lemma Panel.Sane.settled {p : Panel} (hp : p.Sane parseUrl now) (url : JsString) :
    (p.entry url).Settled := by
  constructor
  · show (p.removed.find? (·.url = url)).elim ⊥ (panelTime ·.at) ≤
      (p.visited.find? (·.url = url)).elim ⊤ (panelTime ·.addedAt)
    cases hv : p.visited.find? (·.url = url) with
    | none => exact le_top
    | some v =>
      cases hr : p.removed.find? (·.url = url) with
      | none => exact bot_le
      | some r =>
        obtain ⟨hvmem, hvurl⟩ := (Rows.find?_eq_some_iff hp.visits_nodup).1 hv
        obtain ⟨hrmem, hrurl⟩ := (Rows.find?_eq_some_iff hp.removals_nodup).1 hr
        exact panelTime_le.2 (hp.kept v hvmem r hrmem (hrurl.trans hvurl.symm))
  · intro htop
    show (p.snapshots.find? (·.origin = url)).elim ⊥ WithBot.some = ⊥
    cases hs : p.snapshots.find? (·.origin = url) with
    | none => rfl
    | some s =>
      obtain ⟨hsmem, rfl⟩ := (Rows.find?_eq_some_iff hp.snapshots_nodup).1 hs
      obtain ⟨v, hv, hurl⟩ := hp.live s hsmem
      have hfind := (Rows.find?_eq_some_iff hp.visits_nodup).2 ⟨hv, hurl⟩
      simp only [Panel.entry, hfind] at htop
      exact absurd htop (panelTime_ne_top _)

/-! ## The entries of a merge -/

/-- What is put together stays under the caps: so many offices have a visit, a removal or a
snapshot. -/
structure UnderCaps (visits : List PanelVisit) (removals : List PanelRemoval)
    (snapshots : List PanelSnapshot) : Prop where
  visits : (visits.map (·.url)).dedup.length ≤ MAX_PANEL_BUTTONS
  removals : (removals.map (·.url)).dedup.length ≤ MAX_PANEL_REMOVALS
  snapshots : (snapshots.map (·.origin)).dedup.length ≤ MAX_SNAPSHOTS

lemma length_le_dedup {α β κ : Type} [DecidableEq κ] {key : α → κ} {key' : β → κ} {rows : List α}
    {rows' : List β} (h : (rows.map key).Nodup) (hsub : rows.map key ⊆ rows'.map key') :
    rows.length ≤ (rows'.map key').dedup.length := by
  rw [← List.length_map key]
  exact (List.subperm_of_subset h fun k hk => List.mem_dedup.2 (hsub hk)).length_le

/-- What two sane panels hold together is in order. -/
lemma ok_append (ha : a.Sane parseUrl now) (hb : b.Sane parseUrl now) :
    (∀ v ∈ a.visited ++ b.visited, v.Ok parseUrl now) ∧
      (∀ r ∈ a.removed ++ b.removed, r.Ok parseUrl now) ∧
      ∀ s ∈ a.snapshots ++ b.snapshots, s.Ok parseUrl now :=
  ⟨fun v hv => (List.mem_append.1 hv).elim (ha.visits_ok v) (hb.visits_ok v),
    fun r hr => (List.mem_append.1 hr).elim (ha.removals_ok r) (hb.removals_ok r),
    fun s hs => (List.mem_append.1 hs).elim (ha.snapshots_ok s) (hb.snapshots_ok s)⟩

lemma mergePanels_eq (ha : a.Sane parseUrl now) (hb : b.Sane parseUrl now) :
    mergePanels parseUrl a b now = normalise (a.visited ++ b.visited) (a.removed ++ b.removed)
      (a.snapshots ++ b.snapshots) now := by
  obtain ⟨hv, hr, hs⟩ := ok_append ha hb
  show normalise (readVisits parseUrl (.array ((a.visited ++ b.visited).map PanelVisit.value)) now)
    (readRemovals parseUrl (.array ((a.removed ++ b.removed).map PanelRemoval.value)) now)
    (readSnapshots parseUrl (.array ((a.snapshots ++ b.snapshots).map PanelSnapshot.value)) now)
    now = _
  rw [readVisits_values hv, readRemovals_values hr, readSnapshots_values hs]

lemma sane_mergePanels (a b : Panel) : (mergePanels parseUrl a b now).Sane parseUrl now :=
  sane_sanitisePanel _

lemma map_cut_eq (ha : a.Sane parseUrl now) (hb : b.Sane parseUrl now) {n : ℕ}
    {visited : List PanelVisit} :
    (sliceLast n (snapshotRows (a.snapshots ++ b.snapshots) visited)).map PanelSnapshot.cut =
      sliceLast n (snapshotRows (a.snapshots ++ b.snapshots) visited) := by
  refine (List.map_congr_left fun s hs => ?_).trans (List.map_id _)
  have hmem := ((mem_snapshotRows_iff _ s).1 ((sliceLast_sublist _ _).subset hs)).1
  have hshort := (List.mem_append.1 hmem).elim (ha.short s) (hb.short s)
  show (⟨s.origin, s.rev, s.floors.take MAX_FLOORS⟩ : PanelSnapshot) = s
  rw [List.take_of_length_le hshort]

lemma sorted_mergePanels (ha : a.Sane parseUrl now) (hb : b.Sane parseUrl now) :
    (mergePanels parseUrl a b now).snapshots.Pairwise (· ≤ ·) := by
  rw [mergePanels_eq ha hb, normalise_eq rfl rfl]
  show (List.map _ _).Pairwise (· ≤ ·)
  rw [map_cut_eq ha hb]
  exact (pairwise_le_mergeSort isLE_snapshotOrder _).sublist (sliceLast_sublist _ _)

lemma elim_visit_counts (visits : List PanelVisit) (removed : List PanelRemoval) (url : JsString) :
    (visits.find? (·.url = url)).elim ⊤ (PanelVisit.counts removed) =
      Tombstones.keep (removalAt removed url)
        ((visits.find? (·.url = url)).elim ⊤ (panelTime ·.addedAt)) := by
  cases hfind : visits.find? (·.url = url) with
  | none => exact (Tombstones.keep_top _).symm
  | some v =>
    obtain rfl : v.url = url := by simpa using List.find?_some hfind
    rfl

lemma elim_snapshot_counts (snapshots : List PanelSnapshot) (visited : List PanelVisit)
    (url : JsString) :
    (snapshots.find? (·.origin = url)).elim ⊥ (PanelSnapshot.counts visited) =
      if (visited.find? (·.url = url)).elim ⊤ (panelTime ·.addedAt) = ⊤ then ⊥
      else (snapshots.find? (·.origin = url)).elim ⊥ WithBot.some := by
  have hall : visited.all (·.url ≠ url) = true ↔
      (visited.find? (·.url = url)).elim ⊤ (panelTime ·.addedAt) = ⊤ := by
    cases hfind : visited.find? (·.url = url) with
    | none =>
      refine iff_of_true (List.all_eq_true.2 fun v hv => ?_) rfl
      simpa using List.find?_eq_none.1 hfind v hv
    | some v =>
      refine iff_of_false (fun h => ?_) (panelTime_ne_top _)
      have hne := List.all_eq_true.1 h v (List.mem_of_find?_eq_some hfind)
      have heq := List.find?_some hfind
      simp_all
  cases hfind : snapshots.find? (·.origin = url) with
  | none => exact (ite_self _).symm
  | some s =>
    obtain rfl : s.origin = url := by simpa using List.find?_some hfind
    exact if_congr hall rfl rfl

lemma Panel.Sane.elim_removal_counts (ha : a.Sane parseUrl now) (url : JsString) :
    (a.removed.find? (·.url = url)).elim ⊥ (PanelRemoval.counts now) = (a.entry url).removed := by
  show _ = (a.removed.find? (·.url = url)).elim ⊥ (panelTime ·.at)
  cases hfind : a.removed.find? (·.url = url) with
  | none => rfl
  | some r => exact if_neg (ha.recent r (List.mem_of_find?_eq_some hfind))

/-- **The entries of a merge are the merged entries**, under the caps. -/
theorem entry_mergePanels (ha : a.Sane parseUrl now) (hb : b.Sane parseUrl now)
    (hcaps : UnderCaps (a.visited ++ b.visited) (a.removed ++ b.removed)
      (a.snapshots ++ b.snapshots)) (url : JsString) :
    (mergePanels parseUrl a b now).entry url = (a.entry url).merge (b.entry url) := by
  obtain ⟨hvok, hrok, -⟩ := ok_append ha hb
  have hvpos : ∀ v ∈ a.visited ++ b.visited, 0 ≤ v.addedAt := fun v hv => (hvok v hv).nonneg
  have hrpos : ∀ r ∈ a.removed ++ b.removed, 0 ≤ r.at := fun r hr => (hrok r hr).nonneg
  -- under the caps no row is dropped
  have hr : (removalRows (a.removed ++ b.removed) now).length ≤ MAX_PANEL_REMOVALS :=
    (length_le_dedup (nodup_removalRows _ _) (List.map_subset _ fun r h =>
      ((mem_removalRows_iff hrpos r).1 h).1)).trans hcaps.removals
  set removed := removalRows (a.removed ++ b.removed) now with hremoved
  have hv : (visitRows (a.visited ++ b.visited) removed).length ≤ MAX_PANEL_BUTTONS :=
    (length_le_dedup (nodup_visitRows _ _) (List.map_subset _ fun v h =>
      ((mem_visitRows_iff hvpos (nodup_removalRows _ _) v).1 h).1)).trans hcaps.visits
  set visited := visitRows (a.visited ++ b.visited) removed with hvisited
  have hs : (snapshotRows (a.snapshots ++ b.snapshots) visited).length ≤ MAX_SNAPSHOTS :=
    (length_le_dedup (nodup_snapshotRows _ _) (List.map_subset _ fun s h =>
      ((mem_snapshotRows_iff _ s).1 h).1)).trans hcaps.snapshots
  rw [mergePanels_eq ha hb, normalise_eq (sliceLast_eq hr).symm (sliceLast_eq hv).symm,
    map_cut_eq ha hb, sliceLast_eq hs]
  have hremovalAt : removalAt removed url = max (a.entry url).removed (b.entry url).removed := by
    rw [hremoved, find_removalRows hrpos,
      Rows.foldl_filter_append _ max_bot_left max_bot_right ha.removals_nodup hb.removals_nodup,
      ha.elim_removal_counts, hb.elim_removal_counts]
  have hadded : (visited.find? (·.url = url)).elim ⊤ (panelTime ·.addedAt) =
      ((a.entry url).merge (b.entry url)).added := by
    rw [hvisited, find_visitRows hvpos,
      Rows.foldl_filter_append _ min_top_left min_top_right ha.visits_nodup hb.visits_nodup,
      elim_visit_counts, elim_visit_counts, hremovalAt]
    rfl
  ext
  · exact hadded
  · exact hremovalAt
  · show (List.find? _ (snapshotRows (a.snapshots ++ b.snapshots) visited)).elim ⊥ WithBot.some = _
    rw [find_snapshotRows, Rows.foldl_filter_append _ max_bot_left max_bot_right
      ha.snapshots_nodup hb.snapshots_nodup, elim_snapshot_counts, elim_snapshot_counts, hadded]
    show _ = if ((a.entry url).merge (b.entry url)).added = ⊤ then ⊥ else _
    split_ifs
    · exact max_self ⊥
    · rfl

/-! ## The order of the merges -/

lemma UnderCaps.mono {visits visits' : List PanelVisit} {removals removals' : List PanelRemoval}
    {snapshots snapshots' : List PanelSnapshot} (h : UnderCaps visits' removals' snapshots')
    (hv : visits ⊆ visits') (hr : removals ⊆ removals') (hs : snapshots ⊆ snapshots') :
    UnderCaps visits removals snapshots := by
  have hle : ∀ {α : Type} (key : α → JsString) {rows rows' : List α}, rows ⊆ rows' →
      (rows.map key).dedup.length ≤ (rows'.map key).dedup.length := by
    intro α key rows rows' hsub
    refine (List.subperm_of_subset (List.nodup_dedup _) fun k hk => ?_).length_le
    exact List.mem_dedup.2 (List.map_subset key hsub (List.mem_dedup.1 hk))
  exact ⟨(hle _ hv).trans h.visits, (hle _ hr).trans h.removals, (hle _ hs).trans h.snapshots⟩

lemma mergePanels_subset (ha : a.Sane parseUrl now) (hb : b.Sane parseUrl now) :
    (mergePanels parseUrl a b now).visited ⊆ a.visited ++ b.visited ∧
      (mergePanels parseUrl a b now).removed ⊆ a.removed ++ b.removed ∧
      (mergePanels parseUrl a b now).snapshots ⊆ a.snapshots ++ b.snapshots := by
  obtain ⟨removed, hremoved⟩ : ∃ removed, removed =
      sliceLast MAX_PANEL_REMOVALS (removalRows (a.removed ++ b.removed) now) := ⟨_, rfl⟩
  obtain ⟨visited, hvisited⟩ : ∃ visited, visited =
      sliceLast MAX_PANEL_BUTTONS (visitRows (a.visited ++ b.visited) removed) := ⟨_, rfl⟩
  rw [mergePanels_eq ha hb, normalise_eq hremoved hvisited, map_cut_eq ha hb]
  have hsubr : removed.Sublist (removalRows _ now) := hremoved ▸ sliceLast_sublist _ _
  have hsubv : visited.Sublist (visitRows _ removed) := hvisited ▸ sliceLast_sublist _ _
  obtain ⟨hvok, hrok, -⟩ := ok_append ha hb
  have hnodup := (nodup_removalRows _ now).sublist (hsubr.map (·.url))
  exact ⟨fun v hv => ((mem_visitRows_iff (fun v h => (hvok v h).nonneg) hnodup v).1
      (hsubv.subset hv)).1,
    fun r hr => ((mem_removalRows_iff (fun r h => (hrok r h).nonneg) r).1 (hsubr.subset hr)).1,
    fun s hs => ((mem_snapshotRows_iff _ s).1 ((sliceLast_sublist _ _).subset hs)).1⟩

lemma UnderCaps.left (h : UnderCaps (a.visited ++ b.visited ++ c.visited)
    (a.removed ++ b.removed ++ c.removed) (a.snapshots ++ b.snapshots ++ c.snapshots)) :
    UnderCaps (a.visited ++ b.visited) (a.removed ++ b.removed) (a.snapshots ++ b.snapshots) :=
  h.mono (List.subset_append_left _ _) (List.subset_append_left _ _)
    (List.subset_append_left _ _)

lemma UnderCaps.rev (h : UnderCaps (a.visited ++ b.visited ++ c.visited)
    (a.removed ++ b.removed ++ c.removed) (a.snapshots ++ b.snapshots ++ c.snapshots)) :
    UnderCaps (c.visited ++ b.visited ++ a.visited) (c.removed ++ b.removed ++ a.removed)
      (c.snapshots ++ b.snapshots ++ a.snapshots) := by
  have hsub : ∀ {α : Type} (x y z : List α), z ++ y ++ x ⊆ x ++ y ++ z := by
    intro α x y z r hr
    simp only [List.mem_append] at hr ⊢
    tauto
  exact h.mono (hsub _ _ _) (hsub _ _ _) (hsub _ _ _)

lemma UnderCaps.merged (ha : a.Sane parseUrl now) (hb : b.Sane parseUrl now)
    (h : UnderCaps (a.visited ++ b.visited ++ c.visited)
      (a.removed ++ b.removed ++ c.removed) (a.snapshots ++ b.snapshots ++ c.snapshots)) :
    UnderCaps ((mergePanels parseUrl a b now).visited ++ c.visited)
      ((mergePanels parseUrl a b now).removed ++ c.removed)
      ((mergePanels parseUrl a b now).snapshots ++ c.snapshots) := by
  obtain ⟨hv, hr, hs⟩ := mergePanels_subset ha hb
  have hsub : ∀ {α : Type} {x y : List α} (z : List α), x ⊆ y → x ++ z ⊆ y ++ z := fun z hxy =>
    List.append_subset.2
      ⟨fun r hr => List.subset_append_left _ z (hxy hr), List.subset_append_right _ z⟩
  exact h.mono (hsub _ hv) (hsub _ hr) (hsub _ hs)

lemma entry_mergePanels_mergePanels (ha : a.Sane parseUrl now) (hb : b.Sane parseUrl now)
    (hc : c.Sane parseUrl now) (hcaps : UnderCaps (a.visited ++ b.visited ++ c.visited)
      (a.removed ++ b.removed ++ c.removed) (a.snapshots ++ b.snapshots ++ c.snapshots))
    (url : JsString) :
    (mergePanels parseUrl (mergePanels parseUrl a b now) c now).entry url =
      ((a.entry url).merge (b.entry url)).merge (c.entry url) := by
  rw [entry_mergePanels (sane_mergePanels a b) hc (hcaps.merged ha hb),
    entry_mergePanels ha hb hcaps.left]

/-- **The order of two panels does not matter**, under the caps. -/
theorem mergePanels_comm (ha : a.Sane parseUrl now) (hb : b.Sane parseUrl now)
    (hcaps : UnderCaps (a.visited ++ b.visited) (a.removed ++ b.removed)
      (a.snapshots ++ b.snapshots)) :
    mergePanels parseUrl a b now = mergePanels parseUrl b a now := by
  have hcaps' : UnderCaps (b.visited ++ a.visited) (b.removed ++ a.removed)
      (b.snapshots ++ a.snapshots) :=
    hcaps.mono (List.perm_append_comm.subset) (List.perm_append_comm.subset)
      (List.perm_append_comm.subset)
  refine (sane_mergePanels a b).eq_of_entry (sane_mergePanels b a) (sorted_mergePanels ha hb)
    (sorted_mergePanels hb ha) fun url => ?_
  rw [entry_mergePanels ha hb hcaps, entry_mergePanels hb ha hcaps', Tombstones.Entry.merge_comm]

theorem mergePanels_self_iff (ha : a.Sane parseUrl now)
    (hcaps : UnderCaps a.visited a.removed a.snapshots) :
    mergePanels parseUrl a a now = a ↔ a.snapshots.Pairwise (· ≤ ·) := by
  constructor
  · intro h
    rw [← h]
    exact sorted_mergePanels ha ha
  · intro hsorted
    have hsub : ∀ {α : Type} (x : List α), x ++ x ⊆ x := by
      intro α x r hr
      exact (List.mem_append.1 hr).elim id id
    refine (sane_mergePanels a a).eq_of_entry ha (sorted_mergePanels ha ha) hsorted fun url => ?_
    rw [entry_mergePanels ha ha (hcaps.mono (hsub _) (hsub _) (hsub _)),
      Tombstones.Entry.merge_self (ha.settled url)]

/-- Of an office, the merge of the first two panels forgets a visit that the third one would show,
or a snapshot. -/
def Panel.Forgets (a b c : Panel) (url : JsString) : Prop :=
  (a.entry url).LosesAdded (b.entry url) (c.entry url) ∨
    (a.entry url).LosesCopy (b.entry url) (c.entry url)

/-- The grouping of three panels does not matter exactly when neither grouping forgets a thing. -/
theorem mergePanels_assoc_iff (ha : a.Sane parseUrl now) (hb : b.Sane parseUrl now)
    (hc : c.Sane parseUrl now) (hcaps : UnderCaps (a.visited ++ b.visited ++ c.visited)
      (a.removed ++ b.removed ++ c.removed) (a.snapshots ++ b.snapshots ++ c.snapshots)) :
    mergePanels parseUrl (mergePanels parseUrl a b now) c now =
        mergePanels parseUrl a (mergePanels parseUrl b c now) now ↔
      ∀ url, ¬a.Forgets b c url ∧ ¬c.Forgets b a url := by
  have hleft := entry_mergePanels_mergePanels ha hb hc hcaps
  have hright := entry_mergePanels_mergePanels hc hb ha hcaps.rev
  have hcb : mergePanels parseUrl c b now = mergePanels parseUrl b c now :=
    mergePanels_comm hc hb hcaps.rev.left
  have houter : mergePanels parseUrl (mergePanels parseUrl c b now) a now =
      mergePanels parseUrl a (mergePanels parseUrl b c now) now := by
    rw [mergePanels_comm (sane_mergePanels c b) ha (hcaps.rev.merged hc hb), hcb]
  have hassoc := fun url => Tombstones.Entry.merge_assoc_iff (ha.settled url) (hb.settled url)
    (hc.settled url)
  have hgroup : ∀ url, ((a.entry url).merge (b.entry url)).merge (c.entry url) =
      ((c.entry url).merge (b.entry url)).merge (a.entry url) ↔
        ¬a.Forgets b c url ∧ ¬c.Forgets b a url := by
    intro url
    rw [Tombstones.Entry.merge_comm _ (a.entry url), Tombstones.Entry.merge_comm (c.entry url),
      hassoc url, Panel.Forgets, Panel.Forgets, not_or, not_or]
    tauto
  rw [← houter]
  constructor
  · intro h url
    rw [← hgroup url, ← hleft url, ← hright url, h]
  · intro h
    refine (sane_mergePanels _ _).eq_of_entry (sane_mergePanels _ _)
      (sorted_mergePanels (sane_mergePanels _ _) hc)
      (sorted_mergePanels (sane_mergePanels _ _) ha) fun url => ?_
    rw [hleft url, hright url]
    exact (hgroup url).2 (h url)

end

/-- **When the order of the merges does not matter.** The panels are sanitised, and what they hold
together stays under the caps. The order of two panels never matters then. A panel adds nothing to
itself when its snapshots are in their order, which the cut of their floors may have disturbed. The
grouping of three panels does not matter when of no office the merge of two of them forgets a visit
or a snapshot that the third one would show. -/
theorem mergePanels_order_independent_iff (parseUrl : JsString → Option ParsedUrl) (now : ℕ)
    {a b c : Panel} (ha : ∃ raw, a = sanitisePanel parseUrl raw now)
    (hb : ∃ raw, b = sanitisePanel parseUrl raw now)
    (hc : ∃ raw, c = sanitisePanel parseUrl raw now)
    (hcaps : UnderCaps (a.visited ++ b.visited ++ c.visited)
      (a.removed ++ b.removed ++ c.removed) (a.snapshots ++ b.snapshots ++ c.snapshots)) :
    (mergePanels parseUrl a b now = mergePanels parseUrl b a now ∧
        mergePanels parseUrl a a now = a ∧
        mergePanels parseUrl (mergePanels parseUrl a b now) c now =
          mergePanels parseUrl a (mergePanels parseUrl b c now) now) ↔
      a.snapshots.Pairwise (fun s s' => (snapshotOrder s s').isLE = true) ∧
        ∀ url, ¬a.Forgets b c url ∧ ¬c.Forgets b a url := by
  obtain ⟨rawA, rfl⟩ := ha
  obtain ⟨rawB, rfl⟩ := hb
  obtain ⟨rawC, rfl⟩ := hc
  have hone := hcaps.left.mono (List.subset_append_left _ _) (List.subset_append_left _ _)
    (List.subset_append_left _ _)
  rw [mergePanels_self_iff (sane_sanitisePanel rawA) hone,
    mergePanels_assoc_iff (sane_sanitisePanel rawA) (sane_sanitisePanel rawB)
      (sane_sanitisePanel rawC) hcaps]
  simp only [isLE_snapshotOrder]
  exact and_iff_right
    (mergePanels_comm (sane_sanitisePanel rawA) (sane_sanitisePanel rawB) hcaps.left)

/-! ## A grouping that forgets a visit -/

/-- The parser on `https:` origins without a port. -/
def parseOrigin (text : JsString) : Option ParsedUrl :=
  some
    { protocol := js "https:"
      username := []
      password := []
      hostname := text.drop 8
      origin := text }

/-- The panel of a browser that rode to the office at `t`. -/
def rodeAt (t : ℚ) : Panel := ⟨[⟨js "https://a.example.com", t⟩], [], []⟩

/-- The panel of a browser whose member removed the office at `t`. -/
def removedAt (t : ℚ) : Panel := ⟨[], [⟨js "https://a.example.com", t⟩], []⟩

lemma sanitised_rodeAt : (∃ raw, rodeAt 10 = sanitisePanel parseOrigin raw 100) ∧
    (∃ raw, rodeAt 20 = sanitisePanel parseOrigin raw 100) ∧
      ∃ raw, removedAt 15 = sanitisePanel parseOrigin raw 100 :=
  ⟨⟨.object [("visited", .array ((rodeAt 10).visited.map PanelVisit.value))], by decide +kernel⟩,
    ⟨.object [("visited", .array ((rodeAt 20).visited.map PanelVisit.value))], by decide +kernel⟩,
    ⟨.object [("removed", .array ((removedAt 15).removed.map PanelRemoval.value))],
      by decide +kernel⟩⟩

lemma underCaps_rodeAt : UnderCaps ((rodeAt 10).visited ++ (rodeAt 20).visited ++
    (removedAt 15).visited) ((rodeAt 10).removed ++ (rodeAt 20).removed ++ (removedAt 15).removed)
    ((rodeAt 10).snapshots ++ (rodeAt 20).snapshots ++ (removedAt 15).snapshots) :=
  ⟨by decide, by decide, by decide⟩

/-- A browser rode to an office at 10, another one at 20, and a third one removed it at 15. When the
rides merge first, the office is gone. When the later ride and the removal merge first, it stays. -/
theorem mergePanels_forgets_a_ride :
    (mergePanels parseOrigin (mergePanels parseOrigin (rodeAt 10) (rodeAt 20) 100)
        (removedAt 15) 100).visited = [] ∧
      (mergePanels parseOrigin (rodeAt 10)
        (mergePanels parseOrigin (rodeAt 20) (removedAt 15) 100) 100).visited =
          (rodeAt 20).visited ∧
      ¬∀ (parseUrl : JsString → Option ParsedUrl) (now : ℕ) (a b c : Panel),
        (∃ raw, a = sanitisePanel parseUrl raw now) →
        (∃ raw, b = sanitisePanel parseUrl raw now) →
        (∃ raw, c = sanitisePanel parseUrl raw now) →
        UnderCaps (a.visited ++ b.visited ++ c.visited) (a.removed ++ b.removed ++ c.removed)
          (a.snapshots ++ b.snapshots ++ c.snapshots) →
        mergePanels parseUrl a b now = mergePanels parseUrl b a now ∧
          mergePanels parseUrl a a now = a ∧
          mergePanels parseUrl (mergePanels parseUrl a b now) c now =
            mergePanels parseUrl a (mergePanels parseUrl b c now) now := by
  have hgone : (mergePanels parseOrigin (mergePanels parseOrigin (rodeAt 10) (rodeAt 20) 100)
      (removedAt 15) 100).visited = [] := by decide +kernel
  have hstays : (mergePanels parseOrigin (rodeAt 10)
      (mergePanels parseOrigin (rodeAt 20) (removedAt 15) 100) 100).visited =
        (rodeAt 20).visited := by decide +kernel
  refine ⟨hgone, hstays, fun h => ?_⟩
  obtain ⟨ha, hb, hc⟩ := sanitised_rodeAt
  have hassoc := (h parseOrigin 100 _ _ _ ha hb hc underCaps_rodeAt).2.2
  rw [hassoc, hstays] at hgone
  exact List.cons_ne_nil _ _ hgone

theorem mergePanels_order_independent_iff_rides :
    (mergePanels parseOrigin (rodeAt 10) (rodeAt 20) 100 =
        mergePanels parseOrigin (rodeAt 20) (rodeAt 10) 100 ∧
        mergePanels parseOrigin (rodeAt 10) (rodeAt 10) 100 = rodeAt 10 ∧
        mergePanels parseOrigin (mergePanels parseOrigin (rodeAt 10) (rodeAt 20) 100)
            (removedAt 15) 100 =
          mergePanels parseOrigin (rodeAt 10)
            (mergePanels parseOrigin (rodeAt 20) (removedAt 15) 100) 100) ↔
      (rodeAt 10).snapshots.Pairwise (fun s s' => (snapshotOrder s s').isLE = true) ∧
        ∀ url, ¬(rodeAt 10).Forgets (rodeAt 20) (removedAt 15) url ∧
          ¬(removedAt 15).Forgets (rodeAt 20) (rodeAt 10) url :=
  mergePanels_order_independent_iff parseOrigin 100 sanitised_rodeAt.1 sanitised_rodeAt.2.1
    sanitised_rodeAt.2.2 underCaps_rodeAt

end Isomux
