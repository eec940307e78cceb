import Isomux.Webhooks.Deliveries
import Mathlib.Data.List.Induction
import Mathlib.Data.List.Nodup

set_option autoImplicit false

/-!
# A body is dispatched once

The rows of one hash are a day apart, so at most one of them is recent, and the index finds it. A
claim that is under way has a pending row, or a row that was trimmed; so a claim of the same hash
finds the pending row and is a duplicate.

A new row avoids the ids of the rows that are in the log. It does not avoid the ids of rows that were
trimmed while their dispatch is under way: when it draws one of these, the older dispatch settles the
new row.

## Main results

* `Isomux.deliveryInv_step` — an event keeps the invariant.
* `Isomux.finalRow_step` — a row with a final outcome keeps it while it is in the log.
* `Isomux.webhook_dedup` — the log keeps its promises in every run whose ids are fresh.
* `Isomux.webhook_dedup_drawn_again` — a run in which an id is drawn again.
-/

namespace Isomux

open IndexedLog (newest Spaced)

/-! ## Promises -/

variable (s : WebhookDeliveryStore)

/-- No new row takes the id of a claim under way. -/
def WebhookDeliveryEvent.IdFresh : WebhookDeliveryEvent → Prop
  | .claim _ draws loads true =>
    ∀ id, newRowId (s.logFor loads).2.rows draws = some id → ∀ c ∈ s.claims, c.rowId ≠ id
  | _ => True

namespace WebhookDeliveryStore

/-- The claims of a hash that are under way and whose row is in the log and recent. -/
def openClaims (bodyHash : JsString) : List DeliveryClaim :=
  s.claims.filter fun c => c.bodyHash = bodyHash ∧ ∃ row ∈ s.rows, row.id = c.rowId ∧
    row.bodyHash = bodyHash ∧ s.clock - row.receivedAt < WEBHOOK_DEDUP_WINDOW_MS

structure Deduplicates (s : WebhookDeliveryStore) : Prop where
  index_newest : ∀ log, s.log = some log → ∀ bodyHash,
    JsMap.get log.index bodyHash = newest (·.bodyHash) log.rows bodyHash
  rows_le : s.rows.length ≤ WEBHOOK_DELIVERY_LOG_MAX
  openClaims_le_one : ∀ bodyHash, (s.openClaims bodyHash).length ≤ 1
  claim_failed : ∀ input draws loads,
    s.claim input draws loads false = ((s.logFor loads).1, none) ∧
      ∀ log, s.log = some log → (s.logFor loads).1 = s

/-- A row with a final outcome, as a row in the log has become. -/
def FinalRow (row : WebhookDelivery) : Prop :=
  ∃ r ∈ s.rows, r.id = row.id ∧ r.bodyHash = row.bodyHash ∧ r.receivedAt = row.receivedAt ∧
    r.outcome.final

end WebhookDeliveryStore

/-! ## Rows -/

structure DeliveryRows (clock : ℤ) (rows : List WebhookDelivery) : Prop where
  ids : (rows.map (·.id)).Nodup
  length_le : rows.length ≤ WEBHOOK_DELIVERY_LOG_MAX
  past : ∀ row ∈ rows, row.receivedAt ≤ clock
  spaced : Spaced (·.bodyHash) (·.receivedAt) WEBHOOK_DEDUP_WINDOW_MS rows

/-- A rewrite keeps what a row is known by. -/
structure KeepsRow (f : WebhookDelivery → WebhookDelivery) : Prop where
  id : ∀ row, (f row).id = row.id
  bodyHash : ∀ row, (f row).bodyHash = row.bodyHash
  receivedAt : ∀ row, (f row).receivedAt = row.receivedAt

variable {s : WebhookDeliveryStore} {log : WebhookDeliveryLog} {rows : List WebhookDelivery}
  {row : WebhookDelivery} {draws : List JsString} {input : ClaimInput} {result : ClaimResult}
  {before after : WebhookDelivery} {clock : ℤ}

lemma DeliveryRows.nil : DeliveryRows clock [] where
  ids := List.nodup_nil
  length_le := Nat.zero_le _
  past := by simp
  spaced := List.Pairwise.nil

lemma DeliveryRows.later {clock now : ℤ}
    (h : DeliveryRows clock rows) (hle : clock ≤ now) : DeliveryRows now rows where
  __ := h
  past := fun row hrow => (h.past row hrow).trans hle

lemma DeliveryRows.map (h : DeliveryRows clock rows)
    {f : WebhookDelivery → WebhookDelivery} (hf : KeepsRow f) : DeliveryRows clock (rows.map f) where
  ids := by
    have hids : (rows.map f).map (·.id) = rows.map (·.id) := by
      rw [List.map_map]
      exact List.map_congr_left fun row _ => hf.id row
    rw [hids]
    exact h.ids
  length_le := by
    rw [List.length_map]
    exact h.length_le
  past := by
    intro row hrow
    obtain ⟨old, hold, rfl⟩ := List.mem_map.1 hrow
    rw [hf.receivedAt]
    exact h.past old hold
  spaced := h.spaced.map (fun row _ => hf.bodyHash row) fun row _ => hf.receivedAt row

lemma DeliveryRows.eq_of_id (h : DeliveryRows clock rows)
    {a b : WebhookDelivery} (ha : a ∈ rows) (hb : b ∈ rows) (hid : a.id = b.id) : a = b :=
  List.inj_on_of_nodup_map h.ids ha hb hid

lemma WebhookDeliveryLog.append_rows (log : WebhookDeliveryLog) (row : WebhookDelivery) :
    (log.append row).rows = (log.rows ++ [row]).drop (overCap (log.rows ++ [row])) := by
  simp only [WebhookDeliveryLog.append]

lemma WebhookDeliveryLog.append_index (log : WebhookDeliveryLog) (row : WebhookDelivery) :
    (log.append row).index =
      JsMap.set (((log.rows ++ [row]).take (overCap (log.rows ++ [row]))).foldl untrack log.index)
        row.bodyHash row := by
  simp only [WebhookDeliveryLog.append]

lemma WebhookDeliveryLog.mem_append {row r : WebhookDelivery}
    (h : r ∈ (log.append row).rows) : r ∈ log.rows ∨ r = row := by
  rw [WebhookDeliveryLog.append_rows] at h
  rcases List.mem_append.1 (List.mem_of_mem_drop h) with h | h
  · exact .inl h
  · exact .inr (List.mem_singleton.1 h)

lemma DeliveryRows.append (h : DeliveryRows clock log.rows)
    (hid : ∀ r ∈ log.rows, r.id ≠ row.id) (hnow : row.receivedAt = clock)
    (hold : ∀ r, newest (·.bodyHash) log.rows row.bodyHash = some r →
      r.receivedAt + WEBHOOK_DEDUP_WINDOW_MS ≤ clock) :
    DeliveryRows clock (log.append row).rows where
  ids := by
    rw [WebhookDeliveryLog.append_rows]
    refine List.Nodup.sublist ((List.drop_sublist _ _).map _) ?_
    rw [List.map_append]
    refine List.nodup_append.2 ⟨h.ids, List.nodup_singleton _, fun a ha b hb => ?_⟩
    obtain ⟨r, hr, rfl⟩ := List.mem_map.1 ha
    obtain rfl : b = row.id := List.mem_singleton.1 hb
    exact hid r hr
  length_le := by
    rw [WebhookDeliveryLog.append_rows, List.length_drop, overCap]
    omega
  past := by
    intro r hr
    rcases WebhookDeliveryLog.mem_append hr with hr | rfl
    · exact h.past r hr
    · exact hnow.le
  spaced := by
    rw [WebhookDeliveryLog.append_rows]
    refine List.Pairwise.sublist (List.drop_sublist _ _) (h.spaced.concat ?_ (by decide))
    intro x hx
    have hle := hold x hx
    rw [← hnow] at hle
    exact hle

lemma keepsRow_replace (hid : after.id = before.id)
    (hhash : after.bodyHash = before.bodyHash) (htime : after.receivedAt = before.receivedAt) :
    KeepsRow fun row => if row = before then after else row where
  id := by
    intro row
    split_ifs with h
    · rw [h, hid]
    · rfl
  bodyHash := by
    intro row
    split_ifs with h
    · rw [h, hhash]
    · rfl
  receivedAt := by
    intro row
    split_ifs with h
    · rw [h, htime]
    · rfl

lemma keepsRow_recovered : KeepsRow WebhookDeliveryStore.recovered where
  id := by
    intro row
    unfold WebhookDeliveryStore.recovered
    split_ifs <;> rfl
  bodyHash := by
    intro row
    unfold WebhookDeliveryStore.recovered
    split_ifs <;> rfl
  receivedAt := by
    intro row
    unfold WebhookDeliveryStore.recovered
    split_ifs <;> rfl

/-! ## The index -/

/-- The index has the newest row of every hash. -/
def WebhookDeliveryLog.Indexed (log : WebhookDeliveryLog) : Prop :=
  ∀ bodyHash, JsMap.get log.index bodyHash = newest (·.bodyHash) log.rows bodyHash

lemma indexed_indexOf (rows : List WebhookDelivery) :
    WebhookDeliveryLog.Indexed ⟨rows, WebhookDeliveryLog.indexOf rows⟩ := by
  intro bodyHash
  induction rows using List.reverseRecOn with
  | nil => rfl
  | append_singleton rows row ih =>
    have hset : WebhookDeliveryLog.indexOf (rows ++ [row]) =
        JsMap.set (WebhookDeliveryLog.indexOf rows) row.bodyHash row := by
      simp [WebhookDeliveryLog.indexOf]
    change JsMap.get (WebhookDeliveryLog.indexOf (rows ++ [row])) bodyHash = _
    rw [hset, JsMap.get_set, IndexedLog.newest_concat]
    by_cases h : row.bodyHash = bodyHash
    · simp [h]
    · simpa [h, Ne.symm h] using ih

lemma newest_replaced
    (hhash : after.bodyHash = before.bodyHash) (bodyHash : JsString) :
    newest (·.bodyHash) (replaced rows before after) bodyHash =
      (newest (·.bodyHash) rows bodyHash).map fun row => if row = before then after else row := by
  refine IndexedLog.newest_map fun row _ => ?_
  split_ifs with h
  · rw [h, hhash]
  · rfl

lemma WebhookDeliveryLog.Indexed.rewrite (h : log.Indexed)
    (hhash : after.bodyHash = before.bodyHash)
    (hbefore : JsMap.get log.index before.bodyHash = some before) :
    (log.rewrite before after).Indexed := by
  intro bodyHash
  rw [WebhookDeliveryLog.rewrite, newest_replaced hhash, JsMap.get_set, ← h bodyHash]
  by_cases hk : bodyHash = after.bodyHash
  · rw [if_pos hk, hk, hhash, hbefore]
    simp
  · rw [if_neg hk]
    cases hget : JsMap.get log.index bodyHash with
    | none => rfl
    | some row =>
      have hrow : row.bodyHash = bodyHash :=
        (IndexedLog.mem_of_newest ((h bodyHash).symm.trans hget)).2
      have hne : row ≠ before := by
        rintro rfl
        exact hk (hrow.symm.trans hhash.symm)
      simp [hne]

/-- Rows are dropped at the front, and leave the index. -/
lemma indexed_untrack {trimmed rest : List WebhookDelivery}
    {index : JsMap JsString WebhookDelivery}
    (h : WebhookDeliveryLog.Indexed ⟨trimmed ++ rest, index⟩) (hnodup : (trimmed ++ rest).Nodup) :
    WebhookDeliveryLog.Indexed ⟨rest, trimmed.foldl untrack index⟩ := by
  induction trimmed generalizing index with
  | nil => exact h
  | cons old trimmed ih =>
    obtain ⟨hnotin, hrest⟩ := List.nodup_cons.1 hnodup
    refine ih (fun bodyHash => ?_) hrest
    have hget := h bodyHash
    simp only [List.cons_append, IndexedLog.newest_cons] at hget
    have hold := h old.bodyHash
    simp only [List.cons_append, IndexedLog.newest_cons, if_true] at hold
    unfold untrack
    cases hnew : newest (·.bodyHash) (trimmed ++ rest) old.bodyHash with
    | some row =>
      have hne : row ≠ old := by
        rintro rfl
        exact hnotin (IndexedLog.mem_of_newest hnew).1
      rw [hnew, Option.some_or] at hold
      rw [if_neg (by rw [hold]; simpa using hne)]
      by_cases hk : old.bodyHash = bodyHash
      · rw [← hk, hold, hnew]
      · simpa [hk] using hget
    | none =>
      rw [hnew, Option.none_or] at hold
      rw [if_pos hold, JsMap.get_delete]
      by_cases hk : bodyHash = old.bodyHash
      · rw [if_pos hk, hk, hnew]
      · rw [if_neg hk]
        simpa [Ne.symm hk] using hget

lemma WebhookDeliveryLog.Indexed.append (h : log.Indexed)
    (hrows : DeliveryRows clock log.rows) : (log.append row).Indexed := by
  intro bodyHash
  rw [WebhookDeliveryLog.append_rows, WebhookDeliveryLog.append_index]
  have hle : overCap (log.rows ++ [row]) ≤ log.rows.length := by
    have hmax : 0 < WEBHOOK_DELIVERY_LOG_MAX := by decide
    rw [overCap, List.length_append, List.length_singleton]
    omega
  generalize overCap (log.rows ++ [row]) = excess at hle ⊢
  have htake : (log.rows ++ [row]).take excess = log.rows.take excess :=
    List.take_append_of_le_length hle
  have hdrop : (log.rows ++ [row]).drop excess = log.rows.drop excess ++ [row] :=
    List.drop_append_of_le_length hle
  have hsplit : log.rows.take excess ++ log.rows.drop excess = log.rows := List.take_append_drop _ _
  have hrest := @indexed_untrack (log.rows.take excess) (log.rows.drop excess)
    log.index (by rw [hsplit]; exact h)
    (by rw [hsplit]; exact List.Nodup.of_map _ hrows.ids)
  rw [htake, hdrop, JsMap.get_set, IndexedLog.newest_concat, hrest bodyHash]
  by_cases hk : bodyHash = row.bodyHash
  · simp [hk]
  · simp [hk, Ne.symm hk]

/-! ## What a claim does -/

lemma WebhookDeliveryLog.Indexed.hit_eq (h : log.Indexed) {t : ℤ}
    {bodyHash : JsString} (hhit : log.hit t bodyHash = some row) :
    newest (·.bodyHash) log.rows bodyHash = some row ∧
      t - row.receivedAt < WEBHOOK_DEDUP_WINDOW_MS := by
  obtain ⟨hget, hrecent⟩ := Option.filter_eq_some_iff.1 hhit
  exact ⟨(h bodyHash).symm.trans hget, by simpa using hrecent⟩

lemma WebhookDeliveryLog.Indexed.hit_none (h : log.Indexed) {t : ℤ}
    {bodyHash : JsString} (hhit : log.hit t bodyHash = none)
    (hnew : newest (·.bodyHash) log.rows bodyHash = some row) :
    row.receivedAt + WEBHOOK_DEDUP_WINDOW_MS ≤ t := by
  have hold := Option.filter_eq_none_iff.1 hhit row ((h bodyHash).trans hnew)
  simp only [decide_eq_true_eq] at hold
  omega

/-- **What a claim does**: it takes a retryable row again, counts a duplicate, or adds a row. -/
lemma WebhookDeliveryLog.claim_cases {log log' : WebhookDeliveryLog} {t : ℤ}
        (hclaim : log.claim t input draws = some (result, log')) :
    (∃ hit row, log.hit t input.bodyHash = some hit ∧ log' = log.rewrite hit row ∧
      row.id = hit.id ∧ row.bodyHash = hit.bodyHash ∧ row.receivedAt = hit.receivedAt ∧
      ((hit.outcome.retryable = true ∧ row.outcome = .pending ∧ result = .retry row hit) ∨
        (hit.outcome.retryable = false ∧ row.outcome = hit.outcome ∧ result = .duplicate row))) ∨
    (∃ id, log.hit t input.bodyHash = none ∧ newRowId log.rows draws = some id ∧
      log' = log.append (input.row id t) ∧ result = .new (input.row id t)) := by
  unfold WebhookDeliveryLog.claim at hclaim
  cases hhit : log.hit t input.bodyHash with
  | some hit =>
    rw [hhit] at hclaim
    dsimp only at hclaim
    left
    split_ifs at hclaim with hretry
    · obtain ⟨rfl, rfl⟩ := Prod.mk.inj (Option.some.inj hclaim)
      exact ⟨hit, _, rfl, rfl, rfl, rfl, rfl, .inl ⟨hretry, rfl, rfl⟩⟩
    · obtain ⟨rfl, rfl⟩ := Prod.mk.inj (Option.some.inj hclaim)
      exact ⟨hit, _, rfl, rfl, rfl, rfl, rfl, .inr ⟨by simpa using hretry, rfl, rfl⟩⟩
  | none =>
    rw [hhit] at hclaim
    obtain ⟨id, hid, heq⟩ := Option.map_eq_some_iff.1 hclaim
    obtain ⟨rfl, rfl⟩ := Prod.mk.inj heq
    exact .inr ⟨id, rfl, hid, rfl, rfl⟩

lemma newRowId_free {id : JsString}
    (h : newRowId rows draws = some id) : ∀ r ∈ rows, r.id ≠ id := by
  have hfree := List.find?_some h
  simpa using hfree

lemma WebhookDeliveryLog.claim_rows {log log' : WebhookDeliveryLog} (h : log.Indexed)
    (hrows : DeliveryRows clock log.rows)
    (hclaim : log.claim clock input draws = some (result, log')) :
    DeliveryRows clock log'.rows ∧ log'.Indexed := by
  rcases WebhookDeliveryLog.claim_cases hclaim with
    ⟨hit, row, hhit, rfl, hid, hhash, htime, -⟩ | ⟨id, hhit, hdraw, rfl, -⟩
  · have hkey := (IndexedLog.mem_of_newest (h.hit_eq hhit).1).2
    refine ⟨hrows.map (keepsRow_replace hid hhash htime), h.rewrite hhash ?_⟩
    rw [h, hkey]
    exact (h.hit_eq hhit).1
  · exact ⟨hrows.append (newRowId_free hdraw) rfl fun r hr => h.hit_none hhit hr, h.append hrows⟩

/-! ## The invariant -/

structure DeliveryInv (s : WebhookDeliveryStore) : Prop where
  file : DeliveryRows s.clock s.file
  log : ∀ log, s.log = some log → DeliveryRows s.clock log.rows ∧ log.Indexed
  claims : (s.claims.map (·.rowId)).Nodup
  claimed : ∀ c ∈ s.claims, ∀ row ∈ s.rows, row.id = c.rowId →
    row.outcome = .pending ∧ row.bodyHash = c.bodyHash
  unloaded : s.log = none → s.claims = []

lemma deliveryInv_start (clock : ℤ) : DeliveryInv (.start clock) where
  file := DeliveryRows.nil
  log := by simp [WebhookDeliveryStore.start]
  claims := List.nodup_nil
  claimed := by simp [WebhookDeliveryStore.start]
  unloaded := fun _ => rfl

/-- The log that a claim goes to. -/
lemma DeliveryInv.logFor (h : DeliveryInv s) (loads : Bool) :
    DeliveryInv (s.logFor loads).1 ∧ (s.logFor loads).1.log = some (s.logFor loads).2 ∧
      (s.logFor loads).1.clock = s.clock ∧ (s.logFor loads).1.claims = s.claims := by
  cases hlog : s.log with
  | some log =>
    have hfor : s.logFor loads = (s, log) := by
      unfold WebhookDeliveryStore.logFor
      rw [hlog]
    rw [hfor]
    exact ⟨h, hlog, rfl, rfl⟩
  | none =>
    have hfor : s.logFor loads = s.load loads := by
      unfold WebhookDeliveryStore.logFor
      rw [hlog]
    have hrows := h.file.map keepsRow_recovered
    have hnone := h.unloaded hlog
    rw [hfor]
    refine ⟨?_, rfl, rfl, rfl⟩
    exact
      { file := by
          change DeliveryRows s.clock (if _ then _ else _)
          split_ifs
          · exact hrows
          · exact h.file
        log := by
          intro log hlog
          obtain rfl := Option.some.inj hlog
          exact ⟨hrows, indexed_indexOf _⟩
        claims := h.claims
        claimed := by
          intro c hc
          exact absurd (show c ∈ s.claims from hc) (by simp [hnone])
        unloaded := fun hlog => by cases hlog }

lemma WebhookDeliveryStore.rows_of_log
    (h : s.log = some log) : s.rows = log.rows := by
  rw [WebhookDeliveryStore.rows, h]

lemma mem_replaced {before after r : WebhookDelivery}
    (h : r ∈ replaced rows before after) :
    (r ∈ rows ∧ r ≠ before) ∨ (r = after ∧ before ∈ rows) := by
  obtain ⟨x, hx, hr⟩ := List.mem_map.1 h
  split_ifs at hr with hxb
  · exact .inr ⟨hr.symm, hxb ▸ hx⟩
  · subst hr
    exact .inl ⟨hx, hxb⟩

lemma not_retryable_of_claimed {outcome : WebhookDeliveryOutcome} (h : outcome = .pending) :
    ¬outcome.retryable = true := by
  rw [h]
  decide

/-- **A claim that is committed keeps the invariant**, if the id of its row is fresh.

**Proof sketch.** A retry opens a claim on a row that was retryable, so no claim under way has that
row. A new row has an id that no claim under way has. A duplicate opens no claim, and the row it
counts on is as pending as before. -/
lemma DeliveryInv.commit (h : DeliveryInv s)
    (hlog : s.log = some log)
    {log' : WebhookDeliveryLog} (hclaim : log.claim s.clock input draws = some (result, log'))
    (hfresh : ∀ id, newRowId log.rows draws = some id → ∀ c ∈ s.claims, c.rowId ≠ id) :
    DeliveryInv { s with
      file := log'.rows
      log := some log'
      claims := s.claims ++ result.opened } := by
  obtain ⟨hrows, hindexed⟩ := h.log log hlog
  obtain ⟨hrows', hindexed'⟩ := WebhookDeliveryLog.claim_rows hindexed hrows hclaim
  have hclaimed := h.claimed
  rw [WebhookDeliveryStore.rows_of_log hlog] at hclaimed
  refine ⟨hrows', fun l hl => Option.some.inj hl ▸ ⟨hrows', hindexed'⟩, ?_, ?_, fun hl => by cases hl⟩
  · change ((s.claims ++ result.opened).map (·.rowId)).Nodup
    rw [List.map_append]
    refine List.nodup_append.2 ⟨h.claims, ?_, ?_⟩
    · cases result <;> simp [ClaimResult.opened]
    · intro a ha b hb hab
      obtain ⟨c, hc, rfl⟩ := List.mem_map.1 ha
      rcases WebhookDeliveryLog.claim_cases hclaim with
        ⟨hit, row, hhit, -, hid, -, -, ⟨hretry, -, rfl⟩ | ⟨-, -, rfl⟩⟩ | ⟨id, -, hdraw, -, rfl⟩
      · have hrow : b = row.id := by simpa [ClaimResult.opened] using hb
        have hmem := (IndexedLog.mem_of_newest (hindexed.hit_eq hhit).1).1
        exact not_retryable_of_claimed (hclaimed c hc hit hmem (by rw [hab, hrow, hid])).1 hretry
      · simp [ClaimResult.opened] at hb
      · have hrow : b = id := by simpa [ClaimResult.opened, ClaimInput.row] using hb
        exact hfresh id hdraw c hc (hab.trans hrow)
  · intro c hcs r hr hid
    change r ∈ log'.rows at hr
    rcases WebhookDeliveryLog.claim_cases hclaim with
      ⟨hit, row, hhit, rfl, hrowid, hrowhash, -, hrest⟩ | ⟨id, -, hdraw, rfl, rfl⟩
    · have hmem := (IndexedLog.mem_of_newest (hindexed.hit_eq hhit).1).1
      rcases List.mem_append.1 hcs with hc | hc
      · rcases mem_replaced hr with ⟨hr, -⟩ | ⟨rfl, -⟩
        · exact hclaimed c hc r hr hid
        · have hpending := hclaimed c hc hit hmem (hrowid.symm.trans hid)
          rcases hrest with ⟨hretry, -, -⟩ | ⟨-, hout, -⟩
          · exact (not_retryable_of_claimed hpending.1 hretry).elim
          · exact ⟨hout.trans hpending.1, hrowhash.trans hpending.2⟩
      · rcases hrest with ⟨-, hout, rfl⟩ | ⟨-, -, rfl⟩
        · obtain rfl := List.mem_singleton.1 hc
          rcases mem_replaced hr with ⟨hr, hne⟩ | ⟨rfl, -⟩
          · exact absurd (hrows.eq_of_id hr hmem (hid.trans hrowid)) hne
          · exact ⟨hout, rfl⟩
        · simp [ClaimResult.opened] at hc
    · rcases List.mem_append.1 hcs with hc | hc
      · rcases WebhookDeliveryLog.mem_append hr with hr | rfl
        · exact hclaimed c hc r hr hid
        · exact absurd hid.symm (hfresh id hdraw c hc)
      · obtain rfl := List.mem_singleton.1 hc
        rcases WebhookDeliveryLog.mem_append hr with hr | rfl
        · exact absurd hid (newRowId_free hdraw r hr)
        · exact ⟨rfl, rfl⟩

lemma WebhookDeliveryStore.claim_cases (s : WebhookDeliveryStore) (input : ClaimInput)
    (draws : List JsString) (loads writes : Bool) :
    s.claim input draws loads writes = ((s.logFor loads).1, none) ∨
    ∃ result log', writes = true ∧
      (s.logFor loads).2.claim (s.logFor loads).1.clock input draws = some (result, log') ∧
      s.claim input draws loads writes = ({ (s.logFor loads).1 with
        file := log'.rows
        log := some log'
        claims := (s.logFor loads).1.claims ++ result.opened }, some result) := by
  unfold WebhookDeliveryStore.claim
  cases hclaim : (s.logFor loads).2.claim (s.logFor loads).1.clock input draws with
  | none => exact .inl (by simp [hclaim])
  | some answer =>
    obtain ⟨result, log'⟩ := answer
    cases writes with
    | false => exact .inl (by simp [hclaim])
    | true => exact .inr ⟨result, log', rfl, rfl, by simp [hclaim]⟩

/-- **What a settle does in memory**: the row with its id is rewritten. -/
lemma WebhookDeliveryLog.settle_cases {log log' : WebhookDeliveryLog} {rowId : JsString}
    {patch : SettlePatch} (h : log.settle rowId patch = some log') :
    ∃ before ∈ log.rows, before.id = rowId ∧
      log'.rows = replaced log.rows before (patch.apply before) ∧
      (log.Indexed → log'.Indexed) := by
  obtain ⟨before, hfind, rfl⟩ := Option.map_eq_some_iff.1 h
  refine ⟨before, List.mem_of_find?_eq_some hfind, by simpa using List.find?_some hfind, rfl, ?_⟩
  intro hindexed
  dsimp only
  split_ifs with hget
  · exact hindexed.rewrite rfl hget
  · intro bodyHash
    have hkeep : ∀ row, newest (·.bodyHash) log.rows bodyHash = some row → row ≠ before := by
      rintro row hnew rfl
      refine hget ?_
      change JsMap.get log.index row.bodyHash = some row
      rw [hindexed, (IndexedLog.mem_of_newest hnew).2, hnew]
    change JsMap.get log.index bodyHash =
      newest (·.bodyHash) (replaced log.rows before (patch.apply before)) bodyHash
    rw [newest_replaced (show (patch.apply before).bodyHash = before.bodyHash from rfl), hindexed bodyHash]
    cases hnew : newest (·.bodyHash) log.rows bodyHash with
    | none => rfl
    | some row => simp [hkeep row hnew]

lemma rowId_ne_of_mem_eraseIdx {claims : List DeliveryClaim} {i : ℕ} {c d : DeliveryClaim}
    (h : (claims.map (·.rowId)).Nodup) (hc : claims[i]? = some c) (hd : d ∈ claims.eraseIdx i) :
    d.rowId ≠ c.rowId := by
  intro heq
  obtain ⟨j, hj, hget⟩ := List.mem_eraseIdx_iff_getElem?.1 hd
  have hlt : i < claims.length := (List.getElem?_eq_some_iff.1 hc).1
  refine hj ((List.getElem?_inj (by simpa using hlt) h).1 ?_).symm
  simp [hc, hget, heq]

/-- **A settle keeps the invariant**: the other claims that are under way have other rows. -/
lemma DeliveryInv.settle (h : DeliveryInv s) (claim : ℕ)
    (patch : SettlePatch) (writes : Bool) : DeliveryInv (s.settle claim patch writes) := by
  unfold WebhookDeliveryStore.settle
  cases hc : s.claims[claim]? with
  | none => exact h
  | some c =>
    dsimp only
    have hsub : (s.claims.eraseIdx claim).Sublist s.claims := List.eraseIdx_sublist _ _
    cases hsettle : s.log.bind fun log => log.settle c.rowId patch with
    | none =>
      exact
        { h with
          claims := h.claims.sublist (hsub.map _)
          claimed := fun d hd => h.claimed d (hsub.subset hd)
          unloaded := fun hlog => by
            change s.claims.eraseIdx claim = []
            rw [h.unloaded hlog]
            rfl }
    | some log' =>
      obtain ⟨log, hlog, hsome⟩ := Option.bind_eq_some_iff.1 hsettle
      obtain ⟨before, hmem, hid, hrows', hindexed'⟩ := WebhookDeliveryLog.settle_cases hsome
      obtain ⟨hrows, hindexed⟩ := h.log log hlog
      have hgood : DeliveryRows s.clock log'.rows := by
        rw [hrows']
        exact hrows.map (keepsRow_replace rfl rfl rfl)
      refine ⟨?_, fun l hl => Option.some.inj hl ▸ ⟨hgood, hindexed' hindexed⟩,
        h.claims.sublist (hsub.map _), ?_, fun hl => by cases hl⟩
      · dsimp only
        split_ifs
        · exact hgood
        · exact h.file
      · intro d hd r hr hrid
        change r ∈ log'.rows at hr
        rw [hrows'] at hr
        have hclaimed := h.claimed d (hsub.subset hd)
        rw [WebhookDeliveryStore.rows_of_log hlog] at hclaimed
        rcases mem_replaced hr with ⟨hr, -⟩ | ⟨rfl, -⟩
        · exact hclaimed r hr hrid
        · exact absurd (hrid.symm.trans hid) (rowId_ne_of_mem_eraseIdx h.claims hc hd)

/-- **An event keeps the invariant**, if the id of a row that it adds is fresh. -/
theorem deliveryInv_step (s : WebhookDeliveryStore) (event : WebhookDeliveryEvent)
    (h : DeliveryInv s) (hfresh : event.IdFresh s) : DeliveryInv (s.step event) := by
  cases event with
  | elapse ms =>
    have hle : s.clock ≤ s.clock + ms := by omega
    exact
      { h with
        file := h.file.later hle
        log := fun log hlog => ⟨(h.log log hlog).1.later hle, (h.log log hlog).2⟩ }
  | claim input draws loads writes =>
    obtain ⟨hinv, hlog, -, hclaims⟩ := h.logFor loads
    change DeliveryInv (s.claim input draws loads writes).1
    rcases s.claim_cases input draws loads writes with heq | ⟨result, log', rfl, hclaim, heq⟩
    · rw [heq]
      exact hinv
    · rw [heq]
      refine hinv.commit hlog hclaim fun id hid c hc => ?_
      rw [hclaims] at hc
      exact hfresh id hid c hc
  | settle claim patch writes => exact h.settle claim patch writes
  | restart =>
    exact
      { file := h.file
        log := by simp [WebhookDeliveryStore.step]
        claims := List.nodup_nil
        claimed := by simp [WebhookDeliveryStore.step]
        unloaded := fun _ => rfl }

/-! ## Open claims -/

lemma length_le_one_of_nodup {α β : Type*} {f : α → β} {l : List α} (h : (l.map f).Nodup)
    (hsame : ∀ a ∈ l, ∀ b ∈ l, f a = f b) : l.length ≤ 1 := by
  cases l with
  | nil => exact Nat.zero_le 1
  | cons a l =>
    cases l with
    | nil => exact le_refl 1
    | cons b l =>
      have hab := hsame a List.mem_cons_self b (List.mem_cons_of_mem _ List.mem_cons_self)
      simp [hab] at h

lemma DeliveryInv.openClaims_le_one (h : DeliveryInv s)
    (bodyHash : JsString) : (s.openClaims bodyHash).length ≤ 1 := by
  refine length_le_one_of_nodup (f := (·.rowId)) (h.claims.sublist (List.filter_sublist.map _)) ?_
  intro c hc d hd
  obtain ⟨-, hcrow⟩ := List.mem_filter.1 hc
  obtain ⟨-, hdrow⟩ := List.mem_filter.1 hd
  obtain ⟨-, rc, hrc, hcid, hchash, hcrecent⟩ := of_decide_eq_true hcrow
  obtain ⟨-, rd, hrd, hdid, hdhash, hdrecent⟩ := of_decide_eq_true hdrow
  cases hlog : s.log with
  | none =>
    rw [WebhookDeliveryStore.rows, hlog] at hrc
    cases hrc
  | some log =>
    rw [WebhookDeliveryStore.rows_of_log hlog] at hrc hrd
    obtain ⟨hrows, -⟩ := h.log log hlog
    have hsame := hrows.spaced.eq_of_recent hrows.past hrc hrd (hchash.trans hdhash.symm) hcrecent
      hdrecent
    rw [← hcid, ← hdid, hsame]

lemma DeliveryInv.deduplicates (h : DeliveryInv s) :
    s.Deduplicates where
  index_newest := fun log hlog => (h.log log hlog).2
  rows_le := by
    unfold WebhookDeliveryStore.rows
    cases hlog : s.log with
    | none => exact Nat.zero_le _
    | some log => exact (h.log log hlog).1.length_le
  openClaims_le_one := h.openClaims_le_one
  claim_failed := by
    intro input draws loads
    constructor
    · rcases s.claim_cases input draws loads false with heq | ⟨_, _, hfalse, -⟩
      · exact heq
      · cases hfalse
    · intro log hlog
      unfold WebhookDeliveryStore.logFor
      rw [hlog]

/-! ## Final rows -/

lemma WebhookDeliveryStore.FinalRow.logFor
    (h : s.FinalRow row) (loads : Bool) :
    ∃ log, s.log = some log ∧ s.logFor loads = (s, log) := by
  obtain ⟨r, hr, -⟩ := h
  cases hlog : s.log with
  | none =>
    rw [WebhookDeliveryStore.rows, hlog] at hr
    cases hr
  | some log =>
    refine ⟨log, rfl, ?_⟩
    unfold WebhookDeliveryStore.logFor
    rw [hlog]

lemma mem_replaced_of_ne {before after r : WebhookDelivery}
    (h : r ∈ rows) (hne : r ≠ before) : r ∈ replaced rows before after :=
  List.mem_map.2 ⟨r, h, if_neg hne⟩

/-- **A row with a final outcome keeps it while it is in the log.**

**Proof sketch.** A retry and a settle rewrite rows that are not final: the one is retryable, the
other is the pending row of a claim under way. A duplicate keeps the outcome. A new row has another
id, so a row that still has the id is the final one. -/
theorem finalRow_step {event : WebhookDeliveryEvent}
    (h : DeliveryInv s) (hfinal : s.FinalRow row)
    (hevent : event ≠ .restart) (hkept : ∃ r ∈ (s.step event).rows, r.id = row.id) :
    (s.step event).FinalRow row := by
  obtain ⟨log, hlog, hfor⟩ := hfinal.logFor false
  obtain ⟨r, hr, hid, hhash, htime, hout⟩ := hfinal
  have hmem := hr
  rw [WebhookDeliveryStore.rows_of_log hlog] at hmem
  obtain ⟨hrows, hindexed⟩ := h.log log hlog
  cases event with
  | elapse ms => exact ⟨r, hr, hid, hhash, htime, hout⟩
  | claim input draws loads writes =>
    have hfor : s.logFor loads = (s, log) := by
      unfold WebhookDeliveryStore.logFor
      rw [hlog]
    have hcases := s.claim_cases input draws loads writes
    rw [hfor] at hcases
    change ∃ r ∈ (s.claim input draws loads writes).1.rows, _ at hkept
    change (s.claim input draws loads writes).1.FinalRow row
    rcases hcases with heq | ⟨result, log', -, hclaim, heq⟩
    · rw [heq]
      exact ⟨r, hr, hid, hhash, htime, hout⟩
    · rw [heq] at hkept ⊢
      change ∃ r ∈ log'.rows, _ at hkept
      change ∃ r ∈ log'.rows, _
      rcases WebhookDeliveryLog.claim_cases hclaim with
        ⟨hit, new, hhit, rfl, hnewid, hnewhash, hnewtime, hrest⟩ | ⟨id, -, hdraw, rfl, -⟩
      · by_cases hsame : r = hit
        · subst hsame
          rcases hrest with ⟨hretry, -, -⟩ | ⟨-, hkeep, -⟩
          · rw [hout.2] at hretry
            cases hretry
          · refine ⟨new, List.mem_map.2 ⟨r, hmem, if_pos rfl⟩, hnewid.trans hid,
              hnewhash.trans hhash, hnewtime.trans htime, ?_⟩
            rw [hkeep]
            exact hout
        · exact ⟨r, mem_replaced_of_ne hmem hsame, hid, hhash, htime, hout⟩
      · obtain ⟨x, hx, hxid⟩ := hkept
        rcases WebhookDeliveryLog.mem_append hx with hold | rfl
        · have hsame : x = r := hrows.eq_of_id hold hmem (hxid.trans hid.symm)
          exact ⟨r, hsame ▸ hx, hid, hhash, htime, hout⟩
        · exact absurd (hid.trans hxid.symm) (newRowId_free hdraw r hmem)
  | settle claim patch writes =>
    change (s.settle claim patch writes).FinalRow row
    unfold WebhookDeliveryStore.settle
    cases hc : s.claims[claim]? with
    | none => exact ⟨r, hr, hid, hhash, htime, hout⟩
    | some c =>
      dsimp only
      rw [hlog, Option.bind_some]
      cases hsettle : log.settle c.rowId patch with
      | none => exact ⟨r, hmem, hid, hhash, htime, hout⟩
      | some log' =>
        obtain ⟨before, hbefore, hbid, hrows', -⟩ := WebhookDeliveryLog.settle_cases hsettle
        have hpending := h.claimed c (List.mem_of_getElem? hc) before
          (by rw [WebhookDeliveryStore.rows_of_log hlog]; exact hbefore) hbid
        have hne : r ≠ before := by
          rintro rfl
          exact hout.1 hpending.1
        refine ⟨r, ?_, hid, hhash, htime, hout⟩
        change r ∈ log'.rows
        rw [hrows']
        exact mem_replaced_of_ne hmem hne
  | restart => exact absurd rfl hevent

/-- A claim of the hash of a recent final row is a duplicate. -/
lemma WebhookDeliveryStore.FinalRow.duplicate
    (hfinal : s.FinalRow row) (h : DeliveryInv s)
    {loads writes : Bool} (hhash : input.bodyHash = row.bodyHash)
    (hrecent : s.clock - row.receivedAt < WEBHOOK_DEDUP_WINDOW_MS)
    (hanswer : (s.claim input draws loads writes).2 = some result) :
    ∃ r, result = .duplicate r := by
  obtain ⟨log, hlog, hfor⟩ := hfinal.logFor loads
  obtain ⟨r, hr, -, hrhash, hrtime, hout⟩ := hfinal
  rw [WebhookDeliveryStore.rows_of_log hlog] at hr
  obtain ⟨hrows, hindexed⟩ := h.log log hlog
  have hcases := s.claim_cases input draws loads writes
  rw [hfor] at hcases
  rcases hcases with heq | ⟨answer, log', -, hclaim, heq⟩
  · rw [heq] at hanswer
    cases hanswer
  · rw [heq] at hanswer
    obtain rfl : answer = result := Option.some.inj hanswer
    have hkey : r.bodyHash = input.bodyHash := hrhash.trans hhash.symm
    rcases WebhookDeliveryLog.claim_cases hclaim with
      ⟨hit, new, hhit, -, -, -, -, hrest⟩ | ⟨id, hhit, -, -, -⟩
    · obtain ⟨hnewest, hhitRecent⟩ := hindexed.hit_eq hhit
      obtain ⟨hhitMem, hhitHash⟩ := IndexedLog.mem_of_newest hnewest
      have hsame : r = hit := hrows.spaced.eq_of_recent hrows.past hr hhitMem
        (hkey.trans hhitHash.symm) (by rw [hrtime]; exact hrecent) hhitRecent
      rcases hrest with ⟨hretry, -, -⟩ | ⟨-, -, rfl⟩
      · rw [← hsame, hout.2] at hretry
        cases hretry
      · exact ⟨new, rfl⟩
    · cases hnewest : newest (·.bodyHash) log.rows input.bodyHash with
      | none => exact absurd hkey (IndexedLog.key_ne_of_newest hnewest hr)
      | some x =>
        have hold : x.receivedAt + WEBHOOK_DEDUP_WINDOW_MS ≤ s.clock :=
          hindexed.hit_none hhit hnewest
        have hpast := hrows.past r hr
        rcases hrows.spaced.le_newest hnewest hr hkey with rfl | hle
        · omega
        · have := hrows.past x (IndexedLog.mem_of_newest hnewest).1
          change r.receivedAt + _ ≤ x.receivedAt at hle
          omega

/-! ## Runs -/

lemma deliveryInv_run {events : List WebhookDeliveryEvent}
    (hfresh : Machine.Along WebhookDeliveryStore.step (fun s event => event.IdFresh s)
      (.start clock) events) :
    DeliveryInv (Machine.run WebhookDeliveryStore.step (.start clock) events) :=
  Machine.run_invariant_along deliveryInv_step (deliveryInv_start clock) hfresh

lemma finalRow_run {events : List WebhookDeliveryEvent}
    (h : DeliveryInv s) (hfinal : s.FinalRow row)
    (hfresh : Machine.Along WebhookDeliveryStore.step (fun s event => event.IdFresh s) s events)
    (hevents : .restart ∉ events)
    (hkept : ∀ n, ∃ r ∈ (Machine.run WebhookDeliveryStore.step s (events.take n)).rows,
      r.id = row.id) :
    (Machine.run WebhookDeliveryStore.step s events).FinalRow row := by
  induction events generalizing s with
  | nil => exact hfinal
  | cons event events ih =>
    have hne : event ≠ .restart := fun heq => hevents (heq ▸ List.mem_cons_self)
    refine ih (deliveryInv_step s event h hfresh.1) (finalRow_step h hfinal hne (hkept 1)) hfresh.2
      (fun hmem => hevents (List.mem_cons_of_mem _ hmem)) fun n => hkept (n + 1)

/-- **A body is dispatched once.** In every run in which no new row takes the id of a claim under
way, the index has the newest row of every hash, the rows are within the cap, at most one claim of a
hash is under way whose row is recent and in the log, and a claim whose write fails changes nothing.
Once a row has a final outcome, every claim of its hash is a duplicate while the row is recent and in
the log of the process. -/
theorem webhook_dedup (clock : ℤ) (events : List WebhookDeliveryEvent)
    (hfresh : Machine.Along WebhookDeliveryStore.step (fun s event => event.IdFresh s)
      (.start clock) events) :
    (Machine.run WebhookDeliveryStore.step (.start clock) events).Deduplicates ∧
    ∀ before after, events = before ++ after → .restart ∉ after →
      ∀ row ∈ (Machine.run WebhookDeliveryStore.step (.start clock) before).rows,
      row.outcome.final →
      (∀ n, ∃ r ∈ (Machine.run WebhookDeliveryStore.step (.start clock)
        (before ++ after.take n)).rows, r.id = row.id) →
      (Machine.run WebhookDeliveryStore.step (.start clock) events).clock - row.receivedAt <
        WEBHOOK_DEDUP_WINDOW_MS →
      ∀ input draws loads writes result, input.bodyHash = row.bodyHash →
      ((Machine.run WebhookDeliveryStore.step (.start clock) events).claim input draws loads
        writes).2 = some result → ∃ r, result = .duplicate r := by
  refine ⟨(deliveryInv_run hfresh).deduplicates, ?_⟩
  rintro before after rfl hafter row hrow hout hkept hrecent input draws loads writes result hhash
    hanswer
  obtain ⟨hbefore, hrest⟩ := Machine.along_append.1 hfresh
  have hfinal := finalRow_run (deliveryInv_run hbefore) ⟨row, hrow, rfl, rfl, rfl, hout⟩ hrest hafter
    fun n => by
      rw [← Machine.run_append]
      exact hkept n
  rw [← Machine.run_append] at hfinal
  exact hfinal.duplicate (deliveryInv_run hfresh) hhash hrecent hanswer

def dispatchedOnce : List WebhookDeliveryEvent :=
  [.claim ⟨[104], 2, js "push", js "1"⟩ [js "d_00000001"] true true,
    .settle 0 ⟨.dispatched, 202, some 0, some [], some (.agent (js "a")), none⟩ true]

theorem webhook_dedup_dispatched_once :
    (Machine.run WebhookDeliveryStore.step (.start 0) dispatchedOnce).Deduplicates ∧
    ∀ result, ((Machine.run WebhookDeliveryStore.step (.start 0) dispatchedOnce).claim
      ⟨[104], 2, js "push", js "2"⟩ [js "d_00000002"] true true).2 = some result →
        ∃ r, result = .duplicate r := by
  have hfresh : Machine.Along WebhookDeliveryStore.step (fun s event => event.IdFresh s)
      (.start 0) dispatchedOnce := by
    refine ⟨fun id _ c hc => ?_, trivial, trivial⟩
    cases hc
  obtain ⟨hstate, hfinal⟩ := webhook_dedup 0 dispatchedOnce hfresh
  refine ⟨hstate, fun result => hfinal dispatchedOnce [] (List.append_nil _).symm (by simp)
    { id := js "d_00000001"
      receivedAt := 0
      event := js "push"
      deliveryId := js "1"
      bodyHash := [104]
      bodySize := 2
      outcome := .dispatched
      attempts := 1
      duplicates := 0
      lastSeenAt := 0
      status := 202
      ruleIndex := some 0
      args := some []
      target := some (.agent (js "a"))
      detail := none } (by decide +kernel) ⟨by decide, rfl⟩ (fun n => ?_) (by decide +kernel) _ _ _ _
      result rfl⟩
  rw [List.take_nil, List.append_nil]
  exact ⟨_, by decide +kernel, rfl⟩

/-! ## An id that is drawn again -/

lemma WebhookDeliveryStore.claim_of_log {log log' : WebhookDeliveryLog}
    (hlog : s.log = some log)
    (hclaim : log.claim s.clock input draws = some (result, log')) (loads : Bool) :
    s.step (.claim input draws loads true) = { s with
      file := log'.rows
      log := some log'
      claims := s.claims ++ result.opened } := by
  simp only [WebhookDeliveryStore.step, WebhookDeliveryStore.claim, WebhookDeliveryStore.logFor,
    hlog, hclaim, if_true]

lemma WebhookDeliveryLog.claim_new {t : ℤ}
    {id : JsString} (hhit : log.hit t input.bodyHash = none)
    (hdraw : newRowId log.rows draws = some id) :
    log.claim t input draws = some (.new (input.row id t), log.append (input.row id t)) := by
  unfold WebhookDeliveryLog.claim
  rw [hhit, hdraw]
  rfl

lemma WebhookDeliveryLog.newest_append (log : WebhookDeliveryLog) (row : WebhookDelivery)
    (hmax : overCap (log.rows ++ [row]) ≤ log.rows.length) :
    row ∈ (log.append row).rows ∧
      newest (·.bodyHash) (log.append row).rows row.bodyHash = some row := by
  rw [WebhookDeliveryLog.append_rows, List.drop_append_of_le_length hmax]
  exact ⟨by simp, by rw [IndexedLog.newest_concat, if_pos rfl]⟩

/-- A dispatch that could not reach its target. -/
def unavailablePatch : SettlePatch := ⟨.targetUnavailable, 503, none, none, none, none⟩

/-- **A new row that takes the id of a claim under way breaks the promise**: when that claim is
settled for a retry, a copy of the new body is claimed while the first is under way. -/
theorem openClaims_of_drawn_again (h : DeliveryInv s)
    (hlog : s.log = some log) {claim : ℕ} {c : DeliveryClaim}
    (hc : s.claims[claim]? = some c)
    (hhit : log.hit s.clock input.bodyHash = none) (hdraw : newRowId log.rows draws = some c.rowId) :
    1 < ((Machine.run WebhookDeliveryStore.step s [.claim input draws true true,
      .settle claim unavailablePatch true, .claim input [] true true]).openClaims
        input.bodyHash).length := by
  obtain ⟨hrows, hindexed⟩ := h.log log hlog
  obtain ⟨row, hrow⟩ : ∃ row, row = input.row c.rowId s.clock := ⟨_, rfl⟩
  have hid : row.id = c.rowId := by rw [hrow]; rfl
  have hhash : row.bodyHash = input.bodyHash := by rw [hrow]; rfl
  have htime : row.receivedAt = s.clock := by rw [hrow]; rfl
  have hmax : overCap (log.rows ++ [row]) ≤ log.rows.length := by
    have hle := hrows.length_le
    have hpos : 0 < WEBHOOK_DELIVERY_LOG_MAX := by decide
    rw [overCap, List.length_append, List.length_singleton]
    omega
  obtain ⟨hmem, hnewest⟩ := log.newest_append row hmax
  -- the new row is added
  have hstep1 := WebhookDeliveryStore.claim_of_log hlog
    (WebhookDeliveryLog.claim_new hhit hdraw) true
  rw [← hrow] at hstep1
  -- the claim whose row was trimmed settles it
  have hlt : claim < s.claims.length := (List.getElem?_eq_some_iff.1 hc).1
  obtain ⟨log2, hsettle⟩ : ∃ log2, (log.append row).settle c.rowId unavailablePatch = some log2 := by
    unfold WebhookDeliveryLog.settle
    cases hfind : (log.append row).rows.find? fun r => r.id = c.rowId with
    | none => exact absurd hid (by simpa using List.find?_eq_none.1 hfind row hmem)
    | some x => exact ⟨_, rfl⟩
  obtain ⟨before, hbefore, hbid, hrows2, hindexed2⟩ := WebhookDeliveryLog.settle_cases hsettle
  obtain rfl : before = row := by
    rcases WebhookDeliveryLog.mem_append hbefore with hold | heq
    · exact absurd hbid (newRowId_free hdraw before hold)
    · exact heq
  have hstep2 : (s.step (.claim input draws true true)).step (.settle claim unavailablePatch true) =
      { s with
        file := log2.rows
        log := some log2
        claims := s.claims.eraseIdx claim ++ [⟨before.id, before.bodyHash⟩] } := by
    rw [hstep1]
    simp only [WebhookDeliveryStore.step, WebhookDeliveryStore.settle, ClaimResult.opened,
      List.getElem?_append_left hlt, hc, Option.bind_some, hsettle, if_true,
      List.eraseIdx_append_of_lt_length hlt]
  -- a copy of the new body finds a row that invites a retry
  obtain ⟨after, hafter⟩ : ∃ after, after = unavailablePatch.apply before := ⟨_, rfl⟩
  rw [← hafter] at hrows2
  have hafterHash : after.bodyHash = before.bodyHash := by rw [hafter]; rfl
  have hnewest2 : newest (·.bodyHash) log2.rows input.bodyHash = some after := by
    rw [hrows2, newest_replaced hafterHash, ← hhash, hnewest]
    simp
  have hhit2 : log2.hit s.clock input.bodyHash = some after := by
    rw [WebhookDeliveryLog.hit, hindexed2 (hindexed.append hrows), hnewest2]
    have hnow : after.receivedAt = s.clock := by rw [hafter]; exact htime
    simp [hnow, WEBHOOK_DEDUP_WINDOW_MS]
  obtain ⟨again, log3, hclaim3⟩ : ∃ row log3, log2.claim s.clock input [] =
      some (.retry row after, log3) := by
    unfold WebhookDeliveryLog.claim
    rw [hhit2, hafter]
    exact ⟨_, _, rfl⟩
  have hafterMem : after ∈ log2.rows := (IndexedLog.mem_of_newest hnewest2).1
  obtain ⟨hagainId, hagainHash, hagainTime, hagainMem⟩ : again.id = before.id ∧
      again.bodyHash = input.bodyHash ∧ again.receivedAt = s.clock ∧ again ∈ log3.rows := by
    rcases WebhookDeliveryLog.claim_cases hclaim3 with
      ⟨hit, row, hhit3, rfl, hrid, hrhash, hrtime, ⟨-, -, hres⟩ | ⟨-, -, hres⟩⟩ | ⟨_, hnone, -⟩
    · obtain rfl : after = hit := Option.some.inj (hhit2.symm.trans hhit3)
      obtain ⟨rfl, -⟩ := ClaimResult.retry.inj hres
      refine ⟨hrid.trans ?_, hrhash.trans (hafterHash.trans hhash), hrtime.trans ?_,
        List.mem_map.2 ⟨after, hafterMem, if_pos rfl⟩⟩
      · rw [hafter]
        rfl
      · rw [hafter]
        exact htime
    · cases hres
    · rw [hhit2] at hnone
      cases hnone
  have hstep3 : Machine.run WebhookDeliveryStore.step s [.claim input draws true true,
      .settle claim unavailablePatch true, .claim input [] true true] =
      { s with
        file := log3.rows
        log := some log3
        claims := s.claims.eraseIdx claim ++ [⟨before.id, input.bodyHash⟩] ++
          [⟨before.id, input.bodyHash⟩] } := by
    simp only [Machine.run_cons, Machine.run_nil]
    rw [hstep2]
    refine (WebhookDeliveryStore.claim_of_log (s := { s with
      file := log2.rows
      log := some log2
      claims := s.claims.eraseIdx claim ++ [⟨before.id, before.bodyHash⟩] }) rfl hclaim3
        true).trans ?_
    simp only [ClaimResult.opened, hagainId, hagainHash, hhash]
  have hopen : ∃ row ∈ log3.rows, row.id = before.id ∧ row.bodyHash = input.bodyHash ∧
      s.clock - row.receivedAt < WEBHOOK_DEDUP_WINDOW_MS :=
    ⟨again, hagainMem, hagainId, hagainHash, by simp [hagainTime, WEBHOOK_DEDUP_WINDOW_MS]⟩
  have hsub : [⟨before.id, input.bodyHash⟩, ⟨before.id, input.bodyHash⟩].Sublist
      (s.claims.eraseIdx claim ++ [⟨before.id, input.bodyHash⟩] ++
        [⟨before.id, input.bodyHash⟩]) := by
    rw [List.append_assoc]
    exact List.sublist_append_right _ _
  rw [hstep3]
  refine lt_of_lt_of_le ?_ (hsub.filter _).length_le
  rw [List.filter_eq_self.2]
  · exact Nat.lt_succ_self 1
  · simpa [WebhookDeliveryStore.rows] using hopen

/-! ## A run in which an id is drawn again -/

/-- A claim of a body, whose row gets an id. -/
def drawnClaim (body id : ℕ) : WebhookDeliveryEvent :=
  .claim ⟨[UInt16.ofNat body], 0, [], []⟩ [[UInt16.ofNat id]] true true

/-- The row of a claim whose id has the number of its body. -/
def drawnRow (n : ℕ) : WebhookDelivery :=
  ClaimInput.row ⟨[UInt16.ofNat n], 0, [], []⟩ [UInt16.ofNat n] 0

lemma singleton_ofNat_ne {a b : ℕ} (ha : a < 65536) (hb : b < 65536) (hne : a ≠ b) :
    ([UInt16.ofNat a] : JsString) ≠ [UInt16.ofNat b] := by
  intro h
  have hsame := congrArg UInt16.toNat (List.cons.inj h).1
  rw [UInt16.toNat_ofNat_of_lt' ha, UInt16.toNat_ofNat_of_lt' hb] at hsame
  exact hne hsame

/-- The store behind a number of deliveries whose dispatches are all under way. -/
structure Drawn (n : ℕ) (s : WebhookDeliveryStore) (log : WebhookDeliveryLog) : Prop where
  inv : DeliveryInv s
  clock : s.clock = 0
  claims : s.claims = (List.range n).map fun k => ⟨[UInt16.ofNat k], [UInt16.ofNat k]⟩
  loaded : s.log = some log
  rows : log.rows = ((List.range n).map drawnRow).drop (n - WEBHOOK_DELIVERY_LOG_MAX)

lemma Drawn.of_mem {n : ℕ}
    (h : Drawn n s log) {r : WebhookDelivery} (hr : r ∈ log.rows) :
    ∃ k, n - WEBHOOK_DELIVERY_LOG_MAX ≤ k ∧ k < n ∧ r = drawnRow k := by
  rw [h.rows, List.mem_iff_getElem?] at hr
  obtain ⟨i, hi⟩ := hr
  rw [List.getElem?_drop, List.getElem?_map] at hi
  obtain ⟨k, hk, rfl⟩ := Option.map_eq_some_iff.1 hi
  obtain ⟨hlt, rfl⟩ := List.getElem?_eq_some_iff.1 hk
  rw [List.length_range] at hlt
  rw [List.getElem_range]
  exact ⟨_, Nat.le_add_right _ _, hlt, rfl⟩

lemma Drawn.hit_none {n : ℕ}
    (h : Drawn n s log) {body : ℕ} (hn : n ≤ body) (hbody : body < 65536) :
    log.hit s.clock [UInt16.ofNat body] = none := by
  have hnone : JsMap.get log.index [UInt16.ofNat body] = none := by
    rw [(h.inv.log log h.loaded).2]
    cases hnew : newest (·.bodyHash) log.rows [UInt16.ofNat body] with
    | none => rfl
    | some r =>
      obtain ⟨hr, hhash⟩ := IndexedLog.mem_of_newest hnew
      obtain ⟨k, -, hk, rfl⟩ := h.of_mem hr
      exact absurd hhash (singleton_ofNat_ne (by omega) hbody (by omega))
  rw [WebhookDeliveryLog.hit, hnone]
  rfl

lemma Drawn.newRowId_eq {n : ℕ}
    (h : Drawn n s log) {id : ℕ} (hid : id < n - WEBHOOK_DELIVERY_LOG_MAX ∨ n ≤ id)
    (hn : n < 65536) (hlt : id < 65536) :
    newRowId log.rows [[UInt16.ofNat id]] = some [UInt16.ofNat id] := by
  have hfree : (log.rows.any fun row => row.id = [UInt16.ofNat id]) = false := by
    refine List.any_eq_false.2 fun r hr => ?_
    obtain ⟨k, hle, hk, rfl⟩ := h.of_mem hr
    have hne : ([UInt16.ofNat k] : JsString) ≠ [UInt16.ofNat id] :=
      singleton_ofNat_ne (by omega) hlt (by omega)
    rw [decide_eq_true_eq]
    exact hne
  simp [newRowId, hfree]

/-- One more delivery. -/
lemma Drawn.step {n : ℕ} (h : Drawn n s log)
    (hn : n < 65535) : ∃ log', Drawn (n + 1) (s.step (drawnClaim n n)) log' := by
  have hdraw := @Drawn.newRowId_eq _ _ _ h n (.inr le_rfl) (by omega) (by omega)
  have hclaim := @WebhookDeliveryLog.claim_new log _ ⟨[UInt16.ofNat n], 0, [], []⟩ _ _
    (h.hit_none le_rfl (by omega)) hdraw
  have hstep := WebhookDeliveryStore.claim_of_log h.loaded hclaim true
  refine ⟨log.append (drawnRow n), ?_⟩
  have hfresh : (drawnClaim n n).IdFresh s := by
    intro id hid c hc
    have hfor : (s.logFor true).2 = log := by
      rw [WebhookDeliveryStore.logFor, h.loaded]
    rw [hfor, hdraw] at hid
    obtain rfl := Option.some.inj hid
    rw [h.claims] at hc
    obtain ⟨k, hk, rfl⟩ := List.mem_map.1 hc
    rw [List.mem_range] at hk
    exact singleton_ofNat_ne (by omega) (by omega) (by omega)
  have hinv := deliveryInv_step s _ h.inv hfresh
  rw [h.clock] at hstep
  rw [drawnClaim] at hinv ⊢
  rw [hstep] at hinv ⊢
  exact
    { inv := hinv
      clock := rfl
      claims := by
        rw [List.range_succ, List.map_append, ← h.claims]
        rfl
      loaded := rfl
      rows := by
        have hlen : n - WEBHOOK_DELIVERY_LOG_MAX ≤ ((List.range n).map drawnRow).length := by
          simp
        have hover : n - WEBHOOK_DELIVERY_LOG_MAX + overCap (((List.range n).map drawnRow ++
            [drawnRow n]).drop (n - WEBHOOK_DELIVERY_LOG_MAX)) =
              n + 1 - WEBHOOK_DELIVERY_LOG_MAX := by
          rw [overCap, List.length_drop, List.length_append, List.length_map, List.length_range,
            List.length_singleton]
          omega
        rw [WebhookDeliveryLog.append_rows, h.rows, ← List.drop_append_of_le_length hlen,
          List.drop_drop, hover, List.range_succ, List.map_append]
        rfl }

lemma drawn_run (n : ℕ) (hn : n < 65535) :
    ∃ log, Drawn (n + 1) (Machine.run WebhookDeliveryStore.step (.start 0)
      ((List.range (n + 1)).map fun k => drawnClaim k k)) log := by
  induction n with
  | zero =>
    have hloaded : Drawn 0 { WebhookDeliveryStore.start 0 with log := some ⟨[], []⟩ } ⟨[], []⟩ :=
      { inv := ((deliveryInv_start 0).logFor true).1
        clock := rfl
        claims := rfl
        loaded := rfl
        rows := rfl }
    exact hloaded.step (by decide)
  | succ n ih =>
    obtain ⟨log, h⟩ := ih (by omega)
    rw [List.range_succ, List.map_append, Machine.run_append]
    exact h.step hn

/-- A delivery is under way while as many others come in as the log has rows. The next one draws the
id of the first, which then settles it, and a copy of it is a retry. -/
def drawnAgain : List WebhookDeliveryEvent :=
  (List.range (WEBHOOK_DELIVERY_LOG_MAX + 1)).map (fun n => drawnClaim n n) ++
    [drawnClaim 1000 0, .settle 0 unavailablePatch true,
      .claim ⟨[UInt16.ofNat 1000], 0, [], []⟩ [] true true]

/-- **The promise fails in a run in which an id is drawn again.** -/
theorem webhook_dedup_drawn_again :
    ¬∀ clock events, (Machine.run WebhookDeliveryStore.step (.start clock) events).Deduplicates := by
  intro h
  have hone := (h 0 drawnAgain).openClaims_le_one [UInt16.ofNat 1000]
  have hmax : 0 < WEBHOOK_DELIVERY_LOG_MAX ∧ WEBHOOK_DELIVERY_LOG_MAX < 1000 := by decide
  obtain ⟨log, hdrawn⟩ := drawn_run WEBHOOK_DELIVERY_LOG_MAX (by omega)
  have hc : (Machine.run WebhookDeliveryStore.step (.start 0)
      ((List.range (WEBHOOK_DELIVERY_LOG_MAX + 1)).map fun n => drawnClaim n n)).claims[0]? =
        some ⟨[UInt16.ofNat 0], [UInt16.ofNat 0]⟩ := by
    rw [hdrawn.claims, List.getElem?_map, List.getElem?_range (by omega)]
    rfl
  have hmore := @openClaims_of_drawn_again _ _ _ ⟨[UInt16.ofNat 1000], 0, [], []⟩ hdrawn.inv
    hdrawn.loaded _ _ hc (hdrawn.hit_none (by omega) (by decide))
    (hdrawn.newRowId_eq (.inl (by omega)) (by omega) (by decide))
  rw [drawnAgain, Machine.run_append] at hone
  exact absurd hone (not_le.2 hmore)

end Isomux
