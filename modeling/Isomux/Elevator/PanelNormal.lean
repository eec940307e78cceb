import Isomux.Elevator.Panel
import Isomux.Foundations.Largest
import Isomux.Foundations.Rows
import Isomux.Foundations.Tombstones
import Mathlib.Data.Prod.Lex
import Mathlib.Order.WithBot

set_option autoImplicit false

/-!
# The normal form of a panel

For one office a panel says when it was first visited, when it was last removed, and what its newest
snapshot is: an entry with tombstones. The module reads the entries of a panel, says what the
sanitised panels have in common, and computes the entries of a normal form from the lists it is made
of.

## Main results

* `Isomux.sane_sanitisePanel` — a sanitised panel is sane.
* `Isomux.find_removalRows`, `Isomux.find_visitRows`, `Isomux.find_snapshotRows` — what the rows of
  a normal form hold for an office.
-/

namespace Isomux

/-! ## Orders -/

section

variable {α : Type} [LinearOrder α]

lemma isLE_signOf_then {a b : α} {o : Ordering} :
    ((signOf a b).then o).isLE = true ↔ a < b ∨ a = b ∧ o.isLE = true := by
  unfold signOf
  split_ifs with hab hba
  · simp [hab]
  · simp [hab, hba.ne']
  · have heq : a = b := le_antisymm (not_lt.1 hba) (not_lt.1 hab)
    simp [heq]

lemma isLE_signOf {a b : α} : (signOf a b).isLE = true ↔ a ≤ b := by
  unfold signOf
  split_ifs with hab hba
  · simp [hab.le]
  · simp [hba]
  · simp [not_lt.1 hba]

lemma pairwise_le_mergeSort {cmp : α → α → Ordering} (hcmp : ∀ a b, (cmp a b).isLE = true ↔ a ≤ b)
    (list : List α) : (list.mergeSort fun a b => (cmp a b).isLE).Pairwise (· ≤ ·) := by
  refine (List.pairwise_mergeSort ?_ ?_ list).imp fun h => (hcmp _ _).1 h
  · intro a b c hab hbc
    exact (hcmp a c).2 (((hcmp a b).1 hab).trans ((hcmp b c).1 hbc))
  · intro a b
    rw [Bool.or_eq_true, hcmp, hcmp]
    exact le_total a b

end

lemma JsString.units_injective : Function.Injective JsString.units :=
  List.map_injective_iff.2 fun _ _ h => UInt16.toNat_inj.1 h

def PanelVisit.sortKey (v : PanelVisit) : ℚ ×ₗ List ℕ := toLex (v.addedAt, v.url.units)

def PanelRemoval.sortKey (r : PanelRemoval) : ℚ ×ₗ List ℕ := toLex (r.at, r.url.units)

def PanelSnapshot.sortKey (s : PanelSnapshot) : ℚ ×ₗ List ℕ ×ₗ List ℕ :=
  toLex (s.rev, toLex ((jsonStrings s.floors).units, s.origin.units))

lemma PanelVisit.sortKey_injective : Function.Injective PanelVisit.sortKey := by
  intro v w h
  obtain ⟨ht, hu⟩ := Prod.mk.inj (toLex.injective h)
  cases v
  cases w
  exact congrArg₂ _ (JsString.units_injective hu) ht

lemma PanelRemoval.sortKey_injective : Function.Injective PanelRemoval.sortKey := by
  intro r r' h
  obtain ⟨ht, hu⟩ := Prod.mk.inj (toLex.injective h)
  cases r
  cases r'
  exact congrArg₂ _ (JsString.units_injective hu) ht

lemma PanelSnapshot.sortKey_injective : Function.Injective PanelSnapshot.sortKey := by
  intro s s' h
  obtain ⟨hrev, hrest⟩ := Prod.mk.inj (toLex.injective h)
  obtain ⟨hfloors, horigin⟩ := Prod.mk.inj (toLex.injective hrest)
  have ho := JsString.units_injective horigin
  have hf := jsonStrings_injective (JsString.units_injective hfloors)
  cases s
  cases s'
  subst ho hf
  exact congrArg (PanelSnapshot.mk _ · _) hrev

instance : LinearOrder PanelVisit := LinearOrder.lift' _ PanelVisit.sortKey_injective

instance : LinearOrder PanelRemoval := LinearOrder.lift' _ PanelRemoval.sortKey_injective

instance : LinearOrder PanelSnapshot := LinearOrder.lift' _ PanelSnapshot.sortKey_injective

lemma isLE_visitOrder (a b : PanelVisit) : (visitOrder a b).isLE = true ↔ a ≤ b := by
  rw [visitOrder, byUrl, isLE_signOf_then, isLE_signOf]
  show _ ↔ a.sortKey ≤ b.sortKey
  rw [PanelVisit.sortKey, PanelVisit.sortKey, Prod.Lex.toLex_le_toLex]

lemma isLE_removalOrder (a b : PanelRemoval) : (removalOrder a b).isLE = true ↔ a ≤ b := by
  rw [removalOrder, byUrl, isLE_signOf_then, isLE_signOf]
  show _ ↔ a.sortKey ≤ b.sortKey
  rw [PanelRemoval.sortKey, PanelRemoval.sortKey, Prod.Lex.toLex_le_toLex]

lemma isLE_snapshotOrder (a b : PanelSnapshot) : (snapshotOrder a b).isLE = true ↔ a ≤ b := by
  rw [snapshotOrder, byUrl, byUrl, isLE_signOf_then, isLE_signOf_then, isLE_signOf]
  show _ ↔ a.sortKey ≤ b.sortKey
  rw [PanelSnapshot.sortKey, PanelSnapshot.sortKey, Prod.Lex.toLex_le_toLex,
    Prod.Lex.toLex_le_toLex]

lemma swap_snapshotOrder (a b : PanelSnapshot) :
    (snapshotOrder a b).swap = snapshotOrder b a := by
  have hswap : ∀ {α : Type} [LinearOrder α] (a b : α), (signOf a b).swap = signOf b a := by
    intro α _ a b
    unfold signOf
    split_ifs with hab hba <;> simp_all [lt_asymm]
  simp only [snapshotOrder, byUrl, Ordering.swap_then, hswap]

lemma snapshotOrder_eq_lt {a b : PanelSnapshot} : snapshotOrder a b = .lt ↔ a < b := by
  rw [← not_le, ← isLE_snapshotOrder, ← swap_snapshotOrder a b]
  cases snapshotOrder a b <;> decide

/-! ## Entries -/

/-- The times of panels, with a time before and a time behind all of them. -/
abbrev PanelTime := WithBot (WithTop ℚ)

def panelTime (t : ℚ) : PanelTime := ((t : WithTop ℚ) : PanelTime)

@[simp] lemma panelTime_le {s t : ℚ} : panelTime s ≤ panelTime t ↔ s ≤ t := by simp [panelTime]

@[simp] lemma panelTime_inj {s t : ℚ} : panelTime s = panelTime t ↔ s = t := by simp [panelTime]

lemma panelTime_ne_top (t : ℚ) : panelTime t ≠ ⊤ := by
  intro h
  have htop : ((t : WithTop ℚ) : PanelTime) = ((⊤ : WithTop ℚ) : PanelTime) := h
  exact WithTop.coe_ne_top (WithBot.coe_injective htop)

lemma panelTime_ne_bot (t : ℚ) : panelTime t ≠ ⊥ := WithBot.coe_ne_bot

def Panel.entry (p : Panel) (url : JsString) :
    Tombstones.Entry PanelTime (WithBot PanelSnapshot) where
  added := (p.visited.find? (·.url = url)).elim ⊤ (panelTime ·.addedAt)
  removed := (p.removed.find? (·.url = url)).elim ⊥ (panelTime ·.at)
  copy := (p.snapshots.find? (·.origin = url)).elim ⊥ WithBot.some

section

variable (parseUrl : JsString → Option ParsedUrl) (now : ℕ)

structure PanelVisit.Ok (v : PanelVisit) : Prop where
  origin : isOrigin parseUrl (.string v.url) = some v.url
  nonneg : 0 ≤ v.addedAt
  le_now : v.addedAt ≤ now

structure PanelRemoval.Ok (r : PanelRemoval) : Prop where
  origin : isOrigin parseUrl (.string r.url) = some r.url
  nonneg : 0 ≤ r.at
  le_now : r.at ≤ now

structure PanelSnapshot.Ok (s : PanelSnapshot) : Prop where
  origin : isOrigin parseUrl (.string s.origin) = some s.origin
  nonneg : 0 ≤ s.rev
  le_now : s.rev ≤ now
  floors : ∀ f ∈ s.floors, isOrigin parseUrl (.string f) = some f
  nodup : s.floors.Nodup

structure Panel.Sane (p : Panel) : Prop where
  visits_ok : ∀ v ∈ p.visited, v.Ok parseUrl now
  removals_ok : ∀ r ∈ p.removed, r.Ok parseUrl now
  snapshots_ok : ∀ s ∈ p.snapshots, s.Ok parseUrl now
  recent : ∀ r ∈ p.removed, ¬r.at < now - REMOVAL_TTL_MS
  short : ∀ s ∈ p.snapshots, s.floors.length ≤ MAX_FLOORS
  visits_nodup : (p.visited.map (·.url)).Nodup
  removals_nodup : (p.removed.map (·.url)).Nodup
  snapshots_nodup : (p.snapshots.map (·.origin)).Nodup
  visits_sorted : p.visited.Pairwise (· ≤ ·)
  removals_sorted : p.removed.Pairwise (· ≤ ·)
  kept : ∀ v ∈ p.visited, ∀ r ∈ p.removed, r.url = v.url → r.at ≤ v.addedAt
  live : ∀ s ∈ p.snapshots, ∃ v ∈ p.visited, v.url = s.origin

end

/-! ## Rows -/

section

variable {ρ τ : Type} {bot : τ} {key : ρ → JsString} {counts : ρ → τ}
  {rows items : List ρ} {r : ρ}

/-- A row is the one that its key finds. -/
lemma mem_iff_elim (val : ρ → τ) (hnodup : (rows.map key).Nodup)
    (hval : ∀ x y, key x = key y → val x = val y → x = y) (hbot : val r ≠ bot) :
    r ∈ rows ↔ (rows.find? (key · = key r)).elim bot val = val r := by
  constructor
  · intro hr
    rw [(Rows.find?_eq_some_iff hnodup).2 ⟨hr, rfl⟩]
    rfl
  · intro helim
    cases hat : rows.find? (key · = key r) with
    | none =>
      rw [hat] at helim
      exact absurd helim.symm hbot
    | some row =>
      obtain ⟨hmem, hkey⟩ := (Rows.find?_eq_some_iff hnodup).1 hat
      rw [hat] at helim
      exact hval row r hkey helim ▸ hmem

variable [LinearOrder τ]

/-- **The rows of a normal form** are, of each key, the best item that counts. -/
theorem mem_rows_iff (val : ρ → τ) (ok : ρ → Prop) (hnodup : (rows.map key).Nodup)
    (hval : ∀ x y, key x = key y → val x = val y → x = y) (hbot : ∀ x, bot < val x)
    (hcounts : ∀ x, ok x ∧ counts x = val x ∨ ¬ok x ∧ counts x = bot)
    (hfind : ∀ k, (rows.find? (key · = k)).elim bot val =
      ((items.filter (key · = k)).map counts).foldl max bot) :
    r ∈ rows ↔ r ∈ items ∧ ok r ∧ ∀ r' ∈ items, key r' = key r → ok r' → val r' ≤ val r := by
  rw [mem_iff_elim val hnodup hval (hbot r).ne', hfind, Largest.foldl_max_eq_iff,
    or_iff_right (hbot r).ne', and_iff_right (hbot r).le]
  simp only [List.mem_map, List.mem_filter, decide_eq_true_eq]
  constructor
  · rintro ⟨⟨x, ⟨hx, hkey⟩, hbest⟩, hall⟩
    rcases hcounts x with ⟨hok, hval'⟩ | ⟨-, hnone⟩
    · obtain rfl := hval x r hkey (hval'.symm.trans hbest)
      refine ⟨hx, hok, fun y hy hsame hcount => ?_⟩
      have hle := hall _ ⟨y, ⟨hy, hsame⟩, rfl⟩
      rwa [((hcounts y).resolve_right fun h => h.1 hcount).2] at hle
    · exact absurd (hnone.symm.trans hbest) (hbot r).ne
  · rintro ⟨hr, hok, hall⟩
    refine ⟨⟨r, ⟨hr, rfl⟩, ((hcounts r).resolve_right fun h => h.1 hok).2⟩, ?_⟩
    rintro _ ⟨y, ⟨hy, hsame⟩, rfl⟩
    rcases hcounts y with ⟨hcount, heq⟩ | ⟨-, heq⟩
    · exact heq ▸ hall y hy hsame hcount
    · exact heq ▸ (hbot r).le

end

/-! ## The loops -/

section

variable {now : ℕ}

def PanelRemoval.counts (now : ℕ) (r : PanelRemoval) : PanelTime :=
  if r.at < now - REMOVAL_TTL_MS then ⊥ else panelTime r.at

variable {removed : List PanelRemoval} {removals : List PanelRemoval} {visits : List PanelVisit}

lemma get_latestRemovals (h : ∀ r ∈ removals, 0 ≤ r.at)
    (url : JsString) : (JsMap.get (latestRemovals removals now) url).elim ⊥ panelTime =
      ((removals.filter (·.url = url)).map (PanelRemoval.counts now)).foldl max ⊥ := by
  refine JsMap.view_get_foldl (fun o => o.elim ⊥ panelTime) max (PanelRemoval.counts now) ?_ [] url
  intro m r hr k
  have hpos : (-1 : ℚ) < r.at := (by decide : (-1 : ℚ) < 0).trans_le (h r hr)
  unfold PanelRemoval.counts
  by_cases hold : r.at < now - REMOVAL_TTL_MS
  · simp [hold]
  rw [if_neg hold, if_neg hold]
  by_cases hk : r.url = k
  · subst hk
    rw [if_pos rfl]
    cases hget : JsMap.get m r.url with
    | none => simp [hpos, JsMap.get_set]
    | some t =>
      by_cases hlt : t < r.at
      · simp [hlt, JsMap.get_set, hlt.le]
      · simp [hlt, hget, not_lt.1 hlt]
  · rw [if_neg hk]
    split_ifs
    · rw [JsMap.get_set, if_neg (Ne.symm hk)]
    · rfl

def removalAt (removed : List PanelRemoval) (url : JsString) : PanelTime :=
  (removed.find? (·.url = url)).elim ⊥ (panelTime ·.at)

def PanelVisit.counts (removed : List PanelRemoval) (v : PanelVisit) : PanelTime :=
  Tombstones.keep (removalAt removed v.url) (panelTime v.addedAt)

lemma lt_latest_iff {v : PanelVisit} (h : 0 ≤ v.addedAt) :
    v.addedAt < (JsMap.get (removed.map fun r => (r.url, r.at)) v.url).getD (-1) ↔
      ¬removalAt removed v.url ≤ panelTime v.addedAt := by
  have hpos : (-1 : ℚ) < v.addedAt := (by decide : (-1 : ℚ) < 0).trans_le h
  rw [JsMap.get, List.find?_map, removalAt]
  show _ < (Option.map Prod.snd (Option.map _ (removed.find? (·.url = v.url)))).getD (-1) ↔ _
  cases removed.find? (·.url = v.url) with
  | none => simp [hpos.le]
  | some r => simp

lemma get_firstVisits
    (h : ∀ v ∈ visits, 0 ≤ v.addedAt) (url : JsString) :
    (JsMap.get (firstVisits visits removed) url).elim ⊤ panelTime =
      ((visits.filter (·.url = url)).map (PanelVisit.counts removed)).foldl min ⊤ := by
  refine JsMap.view_get_foldl (fun o => o.elim ⊤ panelTime) min (PanelVisit.counts removed) ?_ [] url
  intro m v hv k
  have hskip := @lt_latest_iff removed _ (h v hv)
  unfold PanelVisit.counts Tombstones.keep
  by_cases hle : removalAt removed v.url ≤ panelTime v.addedAt
  · rw [if_neg fun hlt => hskip.1 hlt hle, if_pos hle]
    by_cases hk : v.url = k
    · subst hk
      rw [if_pos rfl]
      cases hget : JsMap.get m v.url with
      | none => simp [JsMap.get_set]
      | some t =>
        by_cases hlt : v.addedAt < t
        · simp [hlt, JsMap.get_set, hlt.le]
        · simp [hlt, hget, not_lt.1 hlt]
    · rw [if_neg hk]
      cases JsMap.get m v.url with
      | none => simp [JsMap.get_set, Ne.symm hk]
      | some t =>
        by_cases hlt : v.addedAt < t
        · simp [hlt, JsMap.get_set, Ne.symm hk]
        · simp [hlt]
  · rw [if_pos (hskip.2 hle), if_neg hle]
    simp

def PanelSnapshot.counts (visited : List PanelVisit) (s : PanelSnapshot) :
    WithBot PanelSnapshot :=
  if visited.all (·.url ≠ s.origin) then ⊥ else s

variable (snapshots : List PanelSnapshot)

lemma get_newestSnapshots (visited : List PanelVisit) (origin : JsString) :
    (JsMap.get (newestSnapshots snapshots visited) origin).elim ⊥ WithBot.some =
      ((snapshots.filter (·.origin = origin)).map (PanelSnapshot.counts visited)).foldl max ⊥ := by
  refine JsMap.view_get_foldl (fun o => o.elim ⊥ WithBot.some) max
    (PanelSnapshot.counts visited) ?_ [] origin
  intro m s _ k
  unfold PanelSnapshot.counts
  by_cases hgone : visited.all (·.url ≠ s.origin) = true
  · rw [if_pos hgone, if_pos hgone]
    simp
  rw [if_neg hgone, if_neg hgone]
  by_cases hk : s.origin = k
  · subst hk
    rw [if_pos rfl]
    cases hget : JsMap.get m s.origin with
    | none => simp [JsMap.get_set]
    | some kept =>
      by_cases hlt : kept < s
      · simp [snapshotOrder_eq_lt, hlt, JsMap.get_set, hlt.le]
      · simp [snapshotOrder_eq_lt, hlt, hget, not_lt.1 hlt]
  · rw [if_neg hk]
    cases JsMap.get m s.origin with
    | none => simp [JsMap.get_set, Ne.symm hk]
    | some kept =>
      by_cases hlt : snapshotOrder kept s = .lt
      · simp [hlt, JsMap.get_set, Ne.symm hk]
      · simp [hlt]

lemma nodup_latestRemovals (removals : List PanelRemoval) (now : ℕ) :
    ((latestRemovals removals now).map Prod.fst).Nodup := by
  refine JsMap.nodup_keys_foldl removals (fun m r hm => ?_) List.nodup_nil
  split_ifs
  · exact hm
  · exact JsMap.nodup_keys_set hm
  · exact hm

lemma nodup_firstVisits (visits : List PanelVisit) (removed : List PanelRemoval) :
    ((firstVisits visits removed).map Prod.fst).Nodup := by
  refine JsMap.nodup_keys_foldl visits (fun m v hm => ?_) List.nodup_nil
  repeat' split
  all_goals first | exact hm | exact JsMap.nodup_keys_set hm

lemma nodup_newestSnapshots (visited : List PanelVisit) :
    ((newestSnapshots snapshots visited).map Prod.fst).Nodup := by
  refine JsMap.nodup_keys_foldl snapshots (fun m s hm => ?_) List.nodup_nil
  repeat' split
  all_goals first | exact hm | exact JsMap.nodup_keys_set hm

lemma origin_of_mem_newestSnapshots (visited : List PanelVisit) :
    ∀ e ∈ newestSnapshots snapshots visited, e.2.origin = e.1 := by
  refine JsMap.forall_mem_foldl snapshots ?_ (fun e he => absurd he List.not_mem_nil)
  intro m s hs hm e he
  have hset : e ∈ JsMap.set m s.origin s → e.2.origin = e.1 := fun he =>
    (JsMap.mem_set he).elim (hm e) (· ▸ rfl)
  split_ifs at he
  · exact hm e he
  · split at he
    · exact hset he
    · split_ifs at he
      · exact hset he
      · exact hm e he

/-! ## The rows of a normal form -/

/-- The removals of a normal form, before the cap. -/
def removalRows (removals : List PanelRemoval) (now : ℕ) : List PanelRemoval :=
  ((latestRemovals removals now).map fun e => (⟨e.1, e.2⟩ : PanelRemoval)).mergeSort
    fun a b => (removalOrder a b).isLE

/-- The visits of a normal form, before the cap. -/
def visitRows (visits : List PanelVisit) (removed : List PanelRemoval) : List PanelVisit :=
  ((firstVisits visits removed).map fun e => (⟨e.1, e.2⟩ : PanelVisit)).mergeSort
    fun a b => (visitOrder a b).isLE

/-- The snapshots of a normal form, before the cap. -/
def snapshotRows (visited : List PanelVisit) : List PanelSnapshot :=
  ((newestSnapshots snapshots visited).map Prod.snd).mergeSort fun a b => (snapshotOrder a b).isLE

lemma nodup_removalRows (removals : List PanelRemoval) (now : ℕ) :
    ((removalRows removals now).map (·.url)).Nodup := by
  refine ((List.mergeSort_perm _ _).map _).nodup_iff.2 ?_
  rw [List.map_map]
  exact nodup_latestRemovals removals now

lemma nodup_visitRows (visits : List PanelVisit) (removed : List PanelRemoval) :
    ((visitRows visits removed).map (·.url)).Nodup := by
  refine ((List.mergeSort_perm _ _).map _).nodup_iff.2 ?_
  rw [List.map_map]
  exact nodup_firstVisits visits removed

lemma nodup_snapshotRows (visited : List PanelVisit) :
    ((snapshotRows snapshots visited).map (·.origin)).Nodup := by
  refine ((List.mergeSort_perm _ _).map _).nodup_iff.2 ?_
  have hkeys : (newestSnapshots snapshots visited).map (fun e => e.2.origin) =
      (newestSnapshots snapshots visited).map Prod.fst :=
    List.map_congr_left (origin_of_mem_newestSnapshots snapshots visited)
  rw [List.map_map]
  show ((newestSnapshots snapshots visited).map fun e => e.2.origin).Nodup
  rw [hkeys]
  exact nodup_newestSnapshots snapshots visited

lemma find_removalRows (h : ∀ r ∈ removals, 0 ≤ r.at)
    (url : JsString) : removalAt (removalRows removals now) url =
      ((removals.filter (·.url = url)).map (PanelRemoval.counts now)).foldl max ⊥ := by
  rw [← get_latestRemovals h, removalAt, removalRows,
    Rows.find?_perm (by rw [List.map_map]; exact nodup_latestRemovals removals now)
      (List.mergeSort_perm _ _), List.find?_map, JsMap.get]
  show Option.elim (Option.map _ ((latestRemovals removals now).find? (·.1 = url))) _ _ = _
  cases (latestRemovals removals now).find? (·.1 = url) <;> rfl

lemma find_visitRows
    (h : ∀ v ∈ visits, 0 ≤ v.addedAt) (url : JsString) :
    ((visitRows visits removed).find? (·.url = url)).elim ⊤ (panelTime ·.addedAt) =
      ((visits.filter (·.url = url)).map (PanelVisit.counts removed)).foldl min ⊤ := by
  rw [← get_firstVisits h, visitRows,
    Rows.find?_perm (by rw [List.map_map]; exact nodup_firstVisits visits removed)
      (List.mergeSort_perm _ _), List.find?_map, JsMap.get]
  show Option.elim (Option.map _ ((firstVisits visits removed).find? (·.1 = url))) _ _ = _
  cases (firstVisits visits removed).find? (·.1 = url) <;> rfl

lemma find_snapshotRows (visited : List PanelVisit) (origin : JsString) :
    ((snapshotRows snapshots visited).find? (·.origin = origin)).elim ⊥ WithBot.some =
      ((snapshots.filter (·.origin = origin)).map (PanelSnapshot.counts visited)).foldl max ⊥ := by
  have hnodup := (List.mergeSort_perm ((newestSnapshots snapshots visited).map Prod.snd)
    fun a b => (snapshotOrder a b).isLE).map (·.origin) |>.nodup_iff.1
      (nodup_snapshotRows snapshots visited)
  have hfind : (newestSnapshots snapshots visited).find? (fun e => e.2.origin = origin) =
      (newestSnapshots snapshots visited).find? (fun e => e.1 = origin) := by
    rw [← List.head?_filter, ← List.head?_filter, List.filter_congr]
    intro e he
    rw [origin_of_mem_newestSnapshots snapshots visited e he]
  rw [← get_newestSnapshots, snapshotRows, Rows.find?_perm hnodup (List.mergeSort_perm _ _),
    List.find?_map, JsMap.get]
  show Option.elim (Option.map _ ((newestSnapshots snapshots visited).find?
    fun e => e.2.origin = origin)) _ _ = _
  rw [hfind]

/-- The latest removal of its office, and not too old. -/
def IsLatestRemoval (removals : List PanelRemoval) (now : ℕ) (r : PanelRemoval) : Prop :=
  r ∈ removals ∧ ¬r.at < now - REMOVAL_TTL_MS ∧
    ∀ r' ∈ removals, r'.url = r.url → ¬r'.at < now - REMOVAL_TTL_MS → r'.at ≤ r.at

/-- No removal that is kept is later than the visit. -/
def PanelVisit.Survives (kept : PanelRemoval → Prop) (v : PanelVisit) : Prop :=
  ∀ r, kept r → r.url = v.url → r.at ≤ v.addedAt

/-- The first visit of its office among those that survive the removals. -/
def IsFirstVisit (visits : List PanelVisit) (kept : PanelRemoval → Prop) (v : PanelVisit) : Prop :=
  v ∈ visits ∧ v.Survives kept ∧
    ∀ v' ∈ visits, v'.url = v.url → v'.Survives kept → v.addedAt ≤ v'.addedAt

/-- The newest snapshot of an office that is still a visit. -/
def IsNewestSnapshot (snapshots : List PanelSnapshot) (kept : PanelVisit → Prop)
    (s : PanelSnapshot) : Prop :=
  s ∈ snapshots ∧ (∃ v, kept v ∧ v.url = s.origin) ∧
    ∀ s' ∈ snapshots, s'.origin = s.origin → s' ≤ s

lemma mem_removalRows_iff (h : ∀ r ∈ removals, 0 ≤ r.at) (r : PanelRemoval) :
    r ∈ removalRows removals now ↔ IsLatestRemoval removals now r := by
  refine (mem_rows_iff (fun r : PanelRemoval => panelTime r.at)
    (fun r => ¬r.at < now - REMOVAL_TTL_MS) (nodup_removalRows removals now)
    (fun x y hurl hat => PanelRemoval.ext hurl (panelTime_inj.1 hat))
    (fun x => bot_lt_iff_ne_bot.2 (panelTime_ne_bot _)) (fun x => ?_) (find_removalRows h)).trans ?_
  · unfold PanelRemoval.counts
    by_cases hold : x.at < now - REMOVAL_TTL_MS <;> simp [hold]
  · simp only [IsLatestRemoval, panelTime_le]

lemma removalAt_le_iff (h : (removed.map (·.url)).Nodup) {v : PanelVisit} :
    removalAt removed v.url ≤ panelTime v.addedAt ↔ v.Survives (· ∈ removed) := by
  unfold removalAt PanelVisit.Survives
  constructor
  · intro hle r hr hurl
    rw [(Rows.find?_eq_some_iff h).2 ⟨hr, hurl⟩] at hle
    exact panelTime_le.1 hle
  · intro hall
    cases hfind : removed.find? (·.url = v.url) with
    | none => exact bot_le
    | some r =>
      obtain ⟨hr, hurl⟩ := (Rows.find?_eq_some_iff h).1 hfind
      exact panelTime_le.2 (hall r hr hurl)

lemma mem_visitRows_iff (h : ∀ v ∈ visits, 0 ≤ v.addedAt) (hremoved : (removed.map (·.url)).Nodup)
    (v : PanelVisit) :
    v ∈ visitRows visits removed ↔ IsFirstVisit visits (· ∈ removed) v := by
  refine (mem_rows_iff (τ := PanelTimeᵒᵈ) (fun v : PanelVisit => panelTime v.addedAt)
    (fun v => v.Survives (· ∈ removed)) (nodup_visitRows visits removed)
    (fun x y hurl hat => PanelVisit.ext hurl (panelTime_inj.1 hat))
    (fun x => lt_top_iff_ne_top.2 (panelTime_ne_top _)) (fun x => ?_) (find_visitRows h)).trans ?_
  · unfold PanelVisit.counts
    by_cases hle : removalAt removed x.url ≤ panelTime x.addedAt
    · exact .inl ⟨(removalAt_le_iff hremoved).1 hle, if_pos hle⟩
    · exact .inr ⟨(removalAt_le_iff hremoved).not.1 hle, if_neg hle⟩
  · exact and_congr_right fun _ => and_congr_right fun _ => forall₄_congr fun v' _ _ _ =>
      (panelTime_le : panelTime v.addedAt ≤ panelTime v'.addedAt ↔ _)

lemma mem_snapshotRows_iff {visited : List PanelVisit} (s : PanelSnapshot) :
    s ∈ snapshotRows snapshots visited ↔ IsNewestSnapshot snapshots (· ∈ visited) s := by
  refine (mem_rows_iff WithBot.some (fun s : PanelSnapshot => ∃ v ∈ visited, v.url = s.origin)
    (nodup_snapshotRows snapshots visited) (fun x y _ hsame => WithBot.coe_injective hsame)
    WithBot.bot_lt_coe (fun x => ?_) (find_snapshotRows snapshots visited)).trans ?_
  · unfold PanelSnapshot.counts
    by_cases hlive : ∃ v ∈ visited, v.url = x.origin
    · exact .inl ⟨hlive, if_neg (by simpa using hlive)⟩
    · exact .inr ⟨hlive, if_pos (by simpa using hlive)⟩
  · unfold IsNewestSnapshot
    refine and_congr_right fun _ => and_congr_right fun hlive => ?_
    simp only [WithBot.coe_le_coe]
    exact forall₃_congr fun s' _ hsame => forall_prop_of_true (by rwa [hsame])

end

/-! ## Sane panels -/

section

variable {parseUrl : JsString → Option ParsedUrl} {now : ℕ}

lemma sliceLast_sublist {α : Type} (n : ℕ) (list : List α) : (sliceLast n list).Sublist list :=
  List.drop_sublist _ _

lemma sliceLast_eq {α : Type} {n : ℕ} {list : List α} (h : list.length ≤ n) :
    sliceLast n list = list := by
  rw [sliceLast, Nat.sub_eq_zero_of_le h, List.drop_zero]

/-- A snapshot without the floors over the cap. -/
def PanelSnapshot.cut (s : PanelSnapshot) : PanelSnapshot :=
  { s with floors := s.floors.take MAX_FLOORS }

variable {snapshots : List PanelSnapshot}

lemma normalise_eq {visits visited : List PanelVisit} {removals removed : List PanelRemoval}
    (hremoved : removed = sliceLast MAX_PANEL_REMOVALS (removalRows removals now))
    (hvisited : visited = sliceLast MAX_PANEL_BUTTONS (visitRows visits removed)) :
    normalise visits removals snapshots now = ⟨visited, removed,
      (sliceLast MAX_SNAPSHOTS (snapshotRows snapshots visited)).map PanelSnapshot.cut⟩ := by
  rw [hvisited, hremoved]
  rfl

/-- **The normal form of rows that are in order is sane.** -/
theorem sane_normalise {visits : List PanelVisit} {removals : List PanelRemoval}
    (hvisits : ∀ v ∈ visits, v.Ok parseUrl now)
    (hremovals : ∀ r ∈ removals, r.Ok parseUrl now)
    (hsnapshots : ∀ s ∈ snapshots, s.Ok parseUrl now) :
    (normalise visits removals snapshots now).Sane parseUrl now := by
  obtain ⟨removed, hremoved⟩ : ∃ removed,
      removed = sliceLast MAX_PANEL_REMOVALS (removalRows removals now) := ⟨_, rfl⟩
  obtain ⟨visited, hvisited⟩ : ∃ visited,
      visited = sliceLast MAX_PANEL_BUTTONS (visitRows visits removed) := ⟨_, rfl⟩
  rw [normalise_eq hremoved hvisited]
  have hsubr : removed.Sublist (removalRows removals now) := hremoved ▸ sliceLast_sublist _ _
  have hsubv : visited.Sublist (visitRows visits removed) := hvisited ▸ sliceLast_sublist _ _
  have hnodup : (removed.map (·.url)).Nodup :=
    (nodup_removalRows removals now).sublist (hsubr.map _)
  have hr : ∀ r ∈ removed, IsLatestRemoval removals now r := fun r hr =>
    (mem_removalRows_iff (fun r h => (hremovals r h).nonneg) r).1 (hsubr.subset hr)
  have hv : ∀ v ∈ visited, IsFirstVisit visits (· ∈ removed) v := fun v hv =>
    (mem_visitRows_iff (fun v h => (hvisits v h).nonneg) hnodup v).1 (hsubv.subset hv)
  have hs : ∀ s ∈ sliceLast MAX_SNAPSHOTS (snapshotRows snapshots visited),
      IsNewestSnapshot snapshots (· ∈ visited) s := fun s hs =>
    (mem_snapshotRows_iff snapshots s).1 ((sliceLast_sublist _ _).subset hs)
  refine
    { visits_ok := fun v h => hvisits v (hv v h).1
      removals_ok := fun r h => hremovals r (hr r h).1
      snapshots_ok := ?_
      recent := fun r h => (hr r h).2.1
      short := ?_
      visits_nodup := (nodup_visitRows visits removed).sublist (hsubv.map _)
      removals_nodup := hnodup
      snapshots_nodup := ?_
      visits_sorted := (pairwise_le_mergeSort isLE_visitOrder _).sublist hsubv
      removals_sorted := (pairwise_le_mergeSort isLE_removalOrder _).sublist hsubr
      kept := fun v h => (hv v h).2.1
      live := ?_ }
  · intro s h
    obtain ⟨row, hrow, rfl⟩ := List.mem_map.1 h
    have hok := hsnapshots row (hs row hrow).1
    exact
      { hok with
        floors := fun f hf => hok.floors f (List.mem_of_mem_take hf)
        nodup := hok.nodup.sublist (List.take_sublist _ _) }
  · intro s h
    obtain ⟨row, hrow, rfl⟩ := List.mem_map.1 h
    show (row.floors.take MAX_FLOORS).length ≤ MAX_FLOORS
    exact List.length_take_le _ _
  · rw [List.map_map]
    exact (nodup_snapshotRows snapshots visited).sublist ((sliceLast_sublist _ _).map _)
  · intro s h
    obtain ⟨row, hrow, rfl⟩ := List.mem_map.1 h
    exact (hs row hrow).2.1

lemma isOrigin_string {v : JsValue} {s : JsString} (h : isOrigin parseUrl v = some s) :
    isOrigin parseUrl (.string s) = some s := by
  unfold isOrigin at h
  split at h
  · split_ifs at h with hself
    obtain rfl := Option.some.inj h
    exact if_pos hself
  · cases h

lemma timeOf_bounds {v : JsValue} {t : ℚ} (h : timeOf v now = some t) : 0 ≤ t ∧ t ≤ now := by
  unfold timeOf at h
  split at h
  · split_ifs at h with hneg
    obtain rfl := Option.some.inj h
    exact ⟨le_min (not_lt.1 hneg) (Rat.natCast_nonneg), min_le_right _ _⟩
  · cases h

lemma timeOf_number {t : ℚ} (hnonneg : 0 ≤ t) (hnow : t ≤ now) :
    timeOf (.number t) now = some t := by
  show (if t < 0 then none else some (min t now)) = some t
  rw [if_neg hnonneg.not_gt, min_eq_left hnow]

lemma ok_readVisits {raw : JsValue} : ∀ v ∈ readVisits parseUrl raw now, v.Ok parseUrl now := by
  intro v hv
  obtain ⟨f, -, hf⟩ := List.mem_filterMap.1 hv
  split at hf
  · next url addedAt hurl htime =>
    obtain rfl := Option.some.inj hf
    exact ⟨isOrigin_string hurl, (timeOf_bounds htime).1, (timeOf_bounds htime).2⟩
  · cases hf

lemma ok_readRemovals {raw : JsValue} :
    ∀ r ∈ readRemovals parseUrl raw now, r.Ok parseUrl now := by
  intro r hr
  obtain ⟨f, -, hf⟩ := List.mem_filterMap.1 hr
  split at hf
  · next url at' hurl htime =>
    obtain rfl := Option.some.inj hf
    exact ⟨isOrigin_string hurl, (timeOf_bounds htime).1, (timeOf_bounds htime).2⟩
  · cases hf

lemma nodup_eraseDups {α : Type} [BEq α] [LawfulBEq α] : ∀ list : List α, list.eraseDups.Nodup
  | [] => List.nodup_nil
  | a :: list => by
    rw [List.eraseDups_cons]
    refine List.nodup_cons.2 ⟨?_, nodup_eraseDups _⟩
    intro h
    simpa using (List.mem_filter.1 (List.mem_eraseDups.1 h)).2
  termination_by list => list.length
  decreasing_by
    exact Nat.lt_succ_of_le (List.length_filter_le _ _)

lemma eraseDups_eq {α : Type} [BEq α] [LawfulBEq α] {list : List α} (h : list.Nodup) :
    list.eraseDups = list := by
  induction list with
  | nil => rfl
  | cons a list ih =>
    obtain ⟨hnew, hrest⟩ := List.nodup_cons.1 h
    rw [List.eraseDups_cons, List.filter_eq_self.2, ih hrest]
    intro b hb
    have hne : b ≠ a := fun heq => hnew (heq ▸ hb)
    simpa using hne

lemma ok_readSnapshots {raw : JsValue} :
    ∀ s ∈ readSnapshots parseUrl raw now, s.Ok parseUrl now := by
  intro s hs
  obtain ⟨f, -, hf⟩ := List.mem_filterMap.1 hs
  split at hf
  · next origin rev floors horigin hrev hfloors =>
    obtain rfl := Option.some.inj hf
    refine
      { origin := isOrigin_string horigin
        nonneg := (timeOf_bounds hrev).1
        le_now := (timeOf_bounds hrev).2
        floors := ?_
        nodup := nodup_eraseDups _ }
    intro g hg
    obtain ⟨v, -, hv⟩ := List.mem_filterMap.1 (List.mem_eraseDups.1 hg)
    exact isOrigin_string hv
  · cases hf

/-- **A sanitised panel is sane.** -/
theorem sane_sanitisePanel (raw : JsValue) :
    (sanitisePanel parseUrl raw now).Sane parseUrl now :=
  sane_normalise ok_readVisits ok_readRemovals ok_readSnapshots

lemma readVisits_values {visits : List PanelVisit} (h : ∀ v ∈ visits, v.Ok parseUrl now) :
    readVisits parseUrl (.array (visits.map PanelVisit.value)) now = visits := by
  show (visits.map PanelVisit.value).filterMap _ = visits
  rw [List.filterMap_map]
  refine (List.filterMap_congr fun v hv => ?_).trans List.filterMap_some
  have hok := h v hv
  have htime := timeOf_number hok.nonneg hok.le_now
  simp [PanelVisit.value, JsValue.field, JsValue.fields, JsMap.get_cons, hok.origin, htime]

lemma readRemovals_values {removals : List PanelRemoval} (h : ∀ r ∈ removals, r.Ok parseUrl now) :
    readRemovals parseUrl (.array (removals.map PanelRemoval.value)) now = removals := by
  show (removals.map PanelRemoval.value).filterMap _ = removals
  rw [List.filterMap_map]
  refine (List.filterMap_congr fun r hr => ?_).trans List.filterMap_some
  have hok := h r hr
  have htime := timeOf_number hok.nonneg hok.le_now
  simp [PanelRemoval.value, JsValue.field, JsValue.fields, JsMap.get_cons, hok.origin, htime]

lemma readSnapshots_values
    (h : ∀ s ∈ snapshots, s.Ok parseUrl now) :
    readSnapshots parseUrl (.array (snapshots.map PanelSnapshot.value)) now = snapshots := by
  show (snapshots.map PanelSnapshot.value).filterMap _ = snapshots
  rw [List.filterMap_map]
  refine (List.filterMap_congr fun s hs => ?_).trans List.filterMap_some
  have hok := h s hs
  have hfloors : (s.floors.map JsValue.string).filterMap (isOrigin parseUrl) = s.floors := by
    rw [List.filterMap_map]
    exact (List.filterMap_congr fun f hf => hok.floors f hf).trans List.filterMap_some
  have htime := timeOf_number hok.nonneg hok.le_now
  simp [PanelSnapshot.value, JsValue.field, JsValue.fields, JsMap.get_cons, hok.origin, htime,
    hfloors, eraseDups_eq hok.nodup]

end

end Isomux
