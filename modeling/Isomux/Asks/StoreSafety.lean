import Isomux.Asks.EntryUpdates

set_option autoImplicit false

/-!
# What the file of asks holds

Every operation of the store saves its entries as a whole or leaves memory and file as they were.
What it saves is what became of the entries there were, or one new ask behind them. From this come
the invariants of all runs: the file holds asks that pass the check of a start, and no agent and no
source has more of them than it may.

## Main results

* `Isomux.AskOp.call_from` — what a call may do.
* `Isomux.AsksRun.invariant_run` — the invariant of every run.
* `Isomux.asks_reload` — the store reads what it wrote.
* `Isomux.asks_save_fails_and_caps` — a failed save changes nothing, and the caps hold.
-/

namespace Isomux

open AllOrNothing (From)

/-! ## What operations make of the entries -/

/-- Each entry was made of one of those there were, in their order. -/
def Kept (finite : Prop) (entries next : List AskEntry) : Prop :=
  List.SublistForall₂ (fun e' e => Became finite e e') next entries

namespace Kept

variable {finite : Prop} {entries next : List AskEntry}

lemma filterMap {f : AskEntry → Option AskEntry}
    (h : ∀ e ∈ entries, ∀ e', f e = some e' → Became finite e e') :
    Kept finite entries (entries.filterMap f) := by
  induction entries with
  | nil => exact .nil
  | cons e entries ih =>
    have hrest := ih fun x hx => h x (List.mem_cons_of_mem _ hx)
    cases hf : f e with
    | none =>
      rw [List.filterMap_cons_none hf]
      exact .cons_right hrest
    | some e' =>
      rw [List.filterMap_cons_some hf]
      exact .cons (h e List.mem_cons_self e' hf) hrest

lemma map {f : AskEntry → AskEntry} (h : ∀ e ∈ entries, Became finite e (f e)) :
    Kept finite entries (entries.map f) := by
  rw [← List.filterMap_eq_map]
  exact filterMap fun e he e' hf => Option.some.inj hf ▸ h e he

lemma filter (p : AskEntry → Bool) : Kept finite entries (entries.filter p) := by
  rw [← List.filterMap_eq_filter]
  refine filterMap fun e _ e' hf => ?_
  obtain ⟨rfl, -⟩ := Option.guard_eq_some_iff.1 hf
  exact .refl _

lemma exists_became (h : Kept finite entries next) : ∀ e' ∈ next, ∃ e ∈ entries, Became finite e e' := by
  induction h with
  | nil => exact fun x hx => absurd hx List.not_mem_nil
  | @cons e' e next entries hbecame _ ih =>
    intro x hx
    rcases List.mem_cons.1 hx with rfl | hx
    · exact ⟨e, List.mem_cons_self, hbecame⟩
    · obtain ⟨y, hy, hxy⟩ := ih x hx
      exact ⟨y, List.mem_cons_of_mem _ hy, hxy⟩
  | cons_right _ ih =>
    intro x hx
    obtain ⟨y, hy, hxy⟩ := ih x hx
    exact ⟨y, List.mem_cons_of_mem _ hy, hxy⟩

lemma ids_sublist (h : Kept finite entries next) :
    (next.map (·.id)).Sublist (entries.map (·.id)) := by
  induction h with
  | nil => exact List.nil_sublist _
  | cons hbecame _ ih =>
    rw [List.map_cons, List.map_cons, hbecame.id]
    exact ih.cons_cons _
  | cons_right _ ih => exact ih.cons _

lemma length_filter_le (h : Kept finite entries next) {p : AskEntry → Bool}
    (hp : ∀ e e', Became finite e e' → p e' = true → p e = true) :
    (next.filter p).length ≤ (entries.filter p).length := by
  induction h with
  | nil => exact Nat.zero_le _
  | @cons e' e next entries hbecame _ ih =>
    by_cases hpe' : p e' = true
    · rw [List.filter_cons_of_pos hpe', List.filter_cons_of_pos (hp e e' hbecame hpe')]
      exact Nat.succ_le_succ ih
    · rw [List.filter_cons_of_neg hpe']
      exact ih.trans ((List.sublist_cons_self e entries).filter p).length_le
  | @cons_right e next entries _ ih =>
    exact ih.trans ((List.sublist_cons_self e entries).filter p).length_le

end Kept

/-! ## What a call may do -/

def Untouched (s s' : AskStore) : Prop :=
  s'.entries = s.entries ∧ s'.disk.file = s.disk.file ∧ s'.available = s.available

structure Saved (env : AskEnv) (allowed : List AskEntry → List AskEntry → Prop) (s s' : AskStore) :
    Prop where
  fault : env.fault = none
  available : s.available = true
  allowed : allowed s.entries s'.entries
  file : s'.disk.file = some s'.entries
  available' : s'.available = true

lemma Untouched.refl (s : AskStore) : Untouched s s := ⟨rfl, rfl, rfl⟩

namespace AskStore

variable {α : Type} {env : AskEnv} {s : AskStore} {allowed : List AskEntry → List AskEntry → Prop}
  {entries next : List AskEntry} {id : JsString} {entry prev : AskEntry} {finite : Prop}

lemma commit_from (havailable : s.available = true) (h : allowed s.entries next) :
    From Untouched (Saved env allowed) s (commit env.fault next) := by
  unfold commit atomicWriteFileSync
  rcases hfault : env.fault with _ | _ | _ | _
  · exact .inr ⟨hfault, havailable, h, rfl, havailable⟩
  · exact Untouched.refl s
  · exact Untouched.refl s
  · exact Untouched.refl s

lemma withEntries_from {change : AskStore → AskStore → Prop} {body : List AskEntry → AskM α}
    (h : s.available = true → From Untouched change s (body s.entries)) :
    From Untouched change s (withEntries body) := by
  unfold withEntries check
  refine .bind (.get_bind (.ite (fun _ => .pure ()) fun _ => .throw (.refl s) _)) fun a hrun =>
    .get_bind (h ?_)
  by_contra havailable
  simp [EStateM.run_bind, havailable] at hrun

lemma withEntry_from {change : AskStore → AskStore → Prop}
    {body : List AskEntry → AskEntry → AskM (Option AskEntry)}
    (h : s.available = true → ∀ prev ∈ s.entries, prev.id = id →
      From Untouched change s (body s.entries prev)) :
    From Untouched change s (withEntry id body) := by
  refine withEntries_from fun havailable => ?_
  cases hfind : s.entries.find? fun e => e.id = id with
  | none => exact .pure none
  | some prev =>
    exact h havailable prev (List.mem_of_find?_eq_some hfind) (by simpa using List.find?_some hfind)

lemma kept_replaced (hnodup : (entries.map (·.id)).Nodup) (hprev : prev ∈ entries)
    (hid : prev.id = id) (h : Became finite prev entry) :
    Kept finite entries (replaced entries id entry) := by
  refine Kept.map fun e he => ?_
  split_ifs with heq
  · rw [List.inj_on_of_nodup_map hnodup he hprev (heq.trans hid.symm)]
    exact h
  · exact .refl e

lemma replace_from (havailable : s.available = true) (hnodup : (s.entries.map (·.id)).Nodup)
    (hprev : prev ∈ s.entries) (hid : prev.id = id) (h : Became finite prev entry) :
    From Untouched (Saved env (Kept finite)) s (replace env s.entries id entry) :=
  (commit_from havailable (kept_replaced hnodup hprev hid h)).andPure _

lemma replaceChecked_from (havailable : s.available = true)
    (hnodup : (s.entries.map (·.id)).Nodup) (hprev : prev ∈ s.entries) (hid : prev.id = id)
    (h : isAskEntry entry.toJs = true → Became finite prev entry) :
    From Untouched (Saved env (Kept finite)) s (replaceChecked env s.entries id entry) :=
  .ite (fun hvalid => replace_from havailable hnodup hprev hid (h hvalid)) fun _ =>
    .throw (.refl s) _

/-! ## The operations on one ask -/

variable (hnodup : (s.entries.map (·.id)).Nodup)
include hnodup

variable (id : JsString)

lemma edit_from (change : AskEdit) (hfinite : finite → env.now.isFinite = true ∧
    change.readFiles.all (·.all (·.all AskReadFile.isFinite)) = true) :
    From Untouched (Saved env (Kept finite)) s (edit env id change) :=
  withEntry_from fun havailable _ hprev hid =>
    replaceChecked_from havailable hnodup hprev hid fun hvalid =>
      .checked rfl rfl (.inl rfl) rfl hvalid fun hfin h =>
        AskEdit.isFinite_entry (hfinite hfin).1 (hfinite hfin).2 h

lemma requestSimplify_from (hnow : finite → env.now.isFinite = true) :
    From Untouched (Saved env (Kept finite)) s (requestSimplify env id) :=
  withEntry_from fun havailable _ hprev hid =>
    replace_from havailable hnodup hprev hid (.times fun hfin => ⟨hnow hfin, hnow hfin⟩)

lemma cancelSimplify_from (hnow : finite → env.now.isFinite = true) :
    From Untouched (Saved env (Kept finite)) s (cancelSimplify env id) :=
  withEntry_from fun havailable _ hprev hid => .ite (fun _ => .pure none) fun _ =>
    replace_from havailable hnodup hprev hid (.times fun hfin => ⟨hnow hfin, rfl⟩)

lemma setRun_from (id command : JsString) (run : Option AskCommandRun)
    (hrun : finite → run.all AskCommandRun.isFinite = true) :
    From Untouched (Saved env (Kept finite)) s (setRun env id command run) :=
  withEntry_from fun havailable _ hprev hid =>
    .ite (fun _ => replaceChecked_from havailable hnodup hprev hid fun hvalid =>
      .checked rfl rfl (.inl rfl) rfl hvalid fun hfin h =>
        AskEntry.isFinite_setRun (hrun hfin) h) fun _ => .pure none

lemma reraise_from (id prompt : JsString) (hnow : finite → env.now.isFinite = true) :
    From Untouched (Saved env (Kept finite)) s (reraise env id prompt) := by
  refine withEntry_from fun havailable prev hprev hid => ?_
  cases hpage : prev.page with
  | none => exact .pure none
  | some page =>
    refine .ite (fun _ => ?_) fun _ => ?_
    · exact replace_from havailable hnodup hprev hid
        (.alarm hpage prev.prompt isAskPage_reraised (fun _ h => h) fun hfin =>
          AskPage.isFinite_reraised (hnow hfin))
    · exact replace_from havailable hnodup hprev hid
        (.alarm hpage prompt isAskPage_reraised (fun hfin _ => hnow hfin) fun hfin =>
          AskPage.isFinite_reraised (hnow hfin))

lemma ack_from (id byUserId : JsString) (hnow : finite → env.now.isFinite = true) :
    From Untouched (Saved env (Kept finite)) s (ack env id byUserId) := by
  refine withEntry_from fun havailable prev hprev hid => ?_
  cases hpage : prev.page with
  | none => exact .pure none
  | some page =>
    refine .ite (fun _ => .pure _) fun _ => ?_
    exact replace_from havailable hnodup hprev hid
      (.alarm hpage prev.prompt isAskPage_acked (fun _ h => h) fun hfin =>
        AskPage.isFinite_acked (hnow hfin))

lemma recordPageDelivery_from (id userId : JsString) (delivery : PagerDelivery)
    (hdelivery : finite → delivery.isFinite = true) :
    From Untouched (Saved env (Kept finite)) s (recordPageDelivery env id userId delivery) := by
  refine withEntry_from fun havailable prev hprev hid => ?_
  cases hpage : prev.page with
  | none => exact .pure none
  | some page =>
    refine .ite (fun _ => ?_) fun _ => .pure none
    exact replace_from havailable hnodup hprev hid
      (.alarm hpage prev.prompt isAskPage_delivery (fun _ h => h) fun hfin =>
        AskPage.isFinite_delivery (hdelivery hfin))

omit hnodup in
lemma remove_from : From Untouched (Saved env (Kept finite)) s (remove env id) :=
  withEntry_from fun havailable _ _ _ => (commit_from havailable (Kept.filter _)).andPure _

end AskStore

/-! ## Ids that are drawn -/

lemma IdDraw.length_id {byteLength : ℕ} (d : IdDraw byteLength) : d.id.length = 2 * byteLength := by
  have hdigits : ∀ bytes : List UInt8, (bytes.flatMap fun b =>
      [idDigit (b.toNat / 16), idDigit (b.toNat % 16)]).length = 2 * bytes.length := by
    intro bytes
    induction bytes with
    | nil => rfl
    | cons b bytes ih =>
      rw [List.flatMap_cons, List.length_append, ih, List.length_cons]
      simp only [List.length_cons, List.length_nil]
      omega
  exact (hdigits d.bytes).trans (by rw [d.length_bytes])

lemma freshFrom_spec {byteLength : ℕ} {held : List JsString} {draws rest : List (IdDraw byteLength)}
    {id : JsString} (h : freshFrom held draws = some (id, rest)) :
    id ∉ held ∧ id.length = 2 * byteLength := by
  induction draws with
  | nil => cases h
  | cons d draws ih =>
    unfold freshFrom at h
    split_ifs at h with hheld hhistory
    · exact ih h
    · exact ih h
    · obtain rfl : d.id = id := congrArg Prod.fst (Option.some.inj h)
      exact ⟨hheld, d.length_id⟩

namespace AskStore

variable {env : AskEnv} {s : AskStore} {finite : Prop}

/-! ## The operations on many asks -/

lemma markLostRuns_from : From Untouched (Saved env (Kept finite)) s (markLostRuns env) :=
  withEntries_from fun havailable =>
    .ite (fun _ => (commit_from havailable (Kept.map fun e _ => .lostRuns e)).andPure _) fun _ =>
      .pure _

lemma exists_of_mem_keptPages {theirs : List AskEntry} :
    ∀ kept ∈ keptPages theirs, ∃ e ∈ theirs, e.id = kept.1 ∧ e.orphan = some kept.2 := by
  refine JsMap.forall_mem_foldl theirs (fun kept e he hkept => ?_) fun _ h => nomatch h
  cases horphan : e.orphan with
  | none => exact hkept
  | some orphan =>
    intro x hx
    rcases JsMap.mem_set hx with hx | rfl
    · exact hkept x hx
    · exact ⟨e, he, rfl, horphan⟩

lemma removeAgent_from (hnodup : (s.entries.map (·.id)).Nodup) (agentId : JsString) :
    From Untouched (Saved env (Kept finite)) s (removeAgent env agentId) := by
  refine withEntries_from fun havailable => .ite (fun _ => .pure 0) fun _ => ?_
  refine (commit_from havailable (Kept.filterMap fun e he e' h => ?_)).andPure _
  split_ifs at h with hother
  · obtain rfl := Option.some.inj h
    exact .refl e
  · obtain ⟨kept, hfind, rfl⟩ := Option.map_eq_some_iff.1 h
    obtain ⟨x, hx, hid, horphan⟩ := exists_of_mem_keptPages kept (List.mem_of_find?_eq_some hfind)
    have hkey : kept.1 = e.id := by simpa using List.find?_some hfind
    obtain rfl : x = e :=
      List.inj_on_of_nodup_map hnodup (List.mem_of_mem_filter hx) he (hid.trans hkey)
    exact .orphan horphan

/-- Pages without an id get one, and nothing else changes.

**Proof sketch.** By induction on the entries that are left; what was done stands before them. -/
lemma withPageIds_spec {done rest next : List AskEntry} {draws : List (IdDraw 8)}
    (h : withPageIds done rest draws = some next) :
    ∃ tail, next = done ++ tail ∧ Kept finite rest tail := by
  induction rest generalizing done draws with
  | nil => exact ⟨[], by simpa using (Option.some.inj h).symm, .nil⟩
  | cons e rest ih =>
    have hstep : ∀ {e' draws}, Became finite e e' →
        withPageIds (done ++ [e']) rest draws = some next →
        ∃ tail, next = done ++ tail ∧ Kept finite (e :: rest) tail := by
      intro e' draws hbecame hrun
      obtain ⟨tail, rfl, hkept⟩ := ih hrun
      exact ⟨e' :: tail, by simp, .cons hbecame hkept⟩
    unfold withPageIds at h
    cases hpage : e.page with
    | none =>
      simp only [hpage] at h
      exact hstep (.refl e) h
    | some page =>
      simp only [hpage] at h
      split_ifs at h with hid
      · cases hfresh : freshFrom (heldPageIds (done ++ e :: rest)) draws with
        | none => simp only [hfresh, reduceCtorEq] at h
        | some drawn =>
          obtain ⟨pageId, draws'⟩ := drawn
          simp only [hfresh] at h
          have hne : pageId ≠ [] := by
            rintro rfl
            have hlength := (freshFrom_spec hfresh).2
            simp at hlength
          exact hstep (.alarm hpage e.prompt (isAskPage_pageId hne) (fun _ h => h) fun _ h => h) h
      · exact hstep (.refl e) h

lemma backfillPages_from : From Untouched (Saved env (Kept finite)) s (backfillPages env) := by
  refine withEntries_from fun havailable => .ite (fun _ => ?_) fun _ => .pure ()
  cases hnext : withPageIds [] s.entries env.pageIds with
  | none => exact .throw (.refl s) _
  | some next =>
    obtain ⟨tail, rfl, hkept⟩ := withPageIds_spec hnext
    exact commit_from havailable hkept

/-! ## A new ask -/

/-- One ask was opened behind the others, within the caps unless it was moved into the store. -/
structure Opened (finite : Prop) (n : NewAsk) (entries next : List AskEntry) (entry : AskEntry) :
    Prop where
  next : next = entries ++ [entry]
  fresh : entry.id ∉ entries.map (·.id)
  valid : isAskEntry entry.toJs = true
  agent : entry.agentId = n.agentId
  source : entry.source = n.source
  page : entry.page.isSome = n.page.isSome
  isFinite : finite → entry.isFinite = true
  asks : n.migrated = none → (openAsks entries n.agentId).length < ASK_MAX_OPEN_PER_AGENT
  pages : n.migrated = none → n.page.isSome = true →
    (heldPages entries n.source).length < ASK_PAGES_MAX_OPEN_PER_SOURCE

lemma isSome_of_drawPage {n : NewAsk} {entries : List AskEntry} {pageIds : List (IdDraw 8)}
    {page : Option AskPage} (h : n.drawPage entries pageIds = some page) :
    page.isSome = n.page.isSome := by
  unfold NewAsk.drawPage at h
  cases hpage : n.page with
  | none =>
    simp only [hpage, Option.some.injEq] at h
    rw [← h]
    rfl
  | some newPage =>
    simp only [hpage] at h
    cases hmigrated : n.migrated with
    | some migrated =>
      simp only [hmigrated, Option.some.injEq] at h
      rw [← h]
      rfl
    | none =>
      simp only [hmigrated] at h
      obtain ⟨drawn, -, rfl⟩ := Option.map_eq_some_iff.1 h
      rfl

lemma create_from (n : NewAsk)
    (hfinite : finite → env.now.isFinite = true ∧ n.isFinite = true) :
    From Untouched (Saved env fun entries next => ∃ entry, Opened finite n entries next entry) s
      (create env n) := by
  refine withEntries_from fun havailable => .ite (fun _ => .pure _) fun hasks =>
    .ite (fun _ => .pure _) fun hpages => ?_
  cases hid : freshFrom (s.entries.map (·.id)) env.ids with
  | none => exact .throw (.refl s) _
  | some drawn =>
    obtain ⟨id, rest⟩ := drawn
    cases hpage : n.drawPage s.entries env.pageIds with
    | none => exact .throw (.refl s) _
    | some page =>
      refine .ite (fun hvalid => ?_) fun _ => .throw (.refl s) _
      refine (commit_from havailable ⟨_, rfl, (freshFrom_spec hid).1, hvalid, rfl, rfl, ?_, ?_, ?_,
        ?_⟩).andPure _
      · exact isSome_of_drawPage hpage
      · intro hfin
        obtain ⟨hnow, hn⟩ := hfinite hfin
        refine NewAsk.isFinite_entry ?_ hn (NewAsk.isFinite_drawPage hn hpage)
        cases hmigrated : n.migrated with
        | none => exact hnow
        | some m => exact (NewAsk.isFinite_migrated hn m hmigrated).1
      · intro hown
        exact Nat.lt_of_not_le fun hle => hasks ⟨by rw [hown]; rfl, hle⟩
      · intro hown hsome
        exact Nat.lt_of_not_le fun hle => hpages ⟨hsome, by rw [hown]; rfl, hle⟩

end AskStore

/-- What an operation may make of the entries. -/
def AskOp.Allowed (finite : Prop) : AskOp → List AskEntry → List AskEntry → Prop
  | .create n, entries, next => ∃ entry, AskStore.Opened finite n entries next entry
  | _, entries, next => Kept finite entries next

open AskStore in
/-- **What a call may do**: it saves what became of the entries or one new ask behind them, or leaves
memory and file as they were. Finite numbers stay so when the call brings no others. -/
theorem AskOp.call_from {env : AskEnv} {s : AskStore} (hnodup : (s.entries.map (·.id)).Nodup)
    (op : AskOp) : From Untouched
      (Saved env (op.Allowed (env.now.isFinite = true ∧ op.isFinite = true))) s (op.call env) := by
  cases op with
  | create n => exact (create_from n id).andPure _
  | edit id change => exact (edit_from hnodup id change fun h => h).andPure _
  | requestSimplify id => exact (requestSimplify_from hnodup id And.left).andPure _
  | cancelSimplify id => exact (cancelSimplify_from hnodup id And.left).andPure _
  | setRun id command run => exact (setRun_from hnodup id command run And.right).andPure _
  | markLostRuns => exact markLostRuns_from.andPure _
  | reraise id prompt => exact (reraise_from hnodup id prompt And.left).andPure _
  | ack id byUserId => exact (ack_from hnodup id byUserId And.left).andPure _
  | recordPageDelivery id userId delivery =>
    exact (recordPageDelivery_from hnodup id userId delivery And.right).andPure _
  | remove id => exact (remove_from id).andPure _
  | removeAgent agentId => exact (removeAgent_from hnodup agentId).andPure _
  | backfillPages => exact backfillPages_from

/-! ## Sources -/

lemma eq_of_samePageSource {a b : AskPageSource} (h : samePageSource a b = true) : a = b := by
  cases a <;> cases b <;> simp_all [samePageSource, JsDouble.strictEq]

/-! ## The invariant of every run -/

namespace AsksRun

def saved (r : AsksRun) : List AskEntry := r.store.disk.file.getD []

/-- The asks of a list that an agent has open and that were not moved into the store. -/
def ownAsks (r : AsksRun) (entries : List AskEntry) (agentId : JsString) : List AskEntry :=
  (openAsks entries agentId).filter r.isOwn

/-- The pages of a list that a source holds and that were not moved into the store. -/
def ownPages (r : AsksRun) (entries : List AskEntry) (source : AskPageSource) : List AskEntry :=
  (heldPages entries source).filter r.isOwn

/-- What holds behind every run. Memory is what the file holds, or nothing in a store that is not
available. -/
structure Invariant (r : AsksRun) : Prop where
  nodup : (r.saved.map (·.id)).Nodup
  valid : ∀ e ∈ r.saved, isAskEntry e.toJs = true
  asks : ∀ agentId, (r.ownAsks r.saved agentId).length ≤ ASK_MAX_OPEN_PER_AGENT
  pages : ∀ source, (r.ownPages r.saved source).length ≤ ASK_PAGES_MAX_OPEN_PER_SOURCE
  memory : r.store.entries = r.saved ∨ r.store.available = false ∧ r.store.entries = []

/-! ## Marks -/

variable {entries next : List AskEntry} {entry : AskEntry} {migrated : List JsString} {op : AskOp}

lemma broughtIn_of_subset (h : next.map (·.id) ⊆ entries.map (·.id)) : broughtIn entries next = [] := by
  refine List.filter_eq_nil_iff.2 fun id hid => ?_
  simpa using h hid

lemma broughtIn_concat (h : entry.id ∉ entries.map (·.id)) :
    broughtIn entries (entries ++ [entry]) = [entry.id] := by
  have hold : (entries.map (·.id)).filter (fun id => id ∉ entries.map (·.id)) = [] :=
    List.filter_eq_nil_iff.2 fun id hid => by simpa using hid
  unfold broughtIn
  rw [List.map_append, List.filter_append, hold]
  exact List.filter_eq_self.2 (by simpa using h)

lemma marks_nil : marks migrated op [] = migrated := by
  unfold marks
  split_ifs
  · rfl
  · exact List.filter_eq_self.2 (by simp)

lemma mem_marks_of_ne {id id' : JsString} (h : id ≠ id') :
    id ∈ marks migrated op [id'] ↔ id ∈ migrated := by
  unfold marks
  split_ifs <;> simp [h]

lemma mem_marks_self {id : JsString} : id ∈ marks migrated op [id] ↔ op.isMigration = true := by
  unfold marks
  split_ifs with hop <;> simp [hop]

/-! ## Caps -/

lemma length_filter_concat_le {group own own' : AskEntry → Bool} {cap : ℕ}
    (hown : ∀ e ∈ entries, own' e = own e)
    (hcap : ((entries.filter group).filter own).length ≤ cap)
    (hnew : group entry = true → own' entry = true → (entries.filter group).length < cap) :
    (((entries ++ [entry]).filter group).filter own').length ≤ cap := by
  have hold : (entries.filter group).filter own' = (entries.filter group).filter own :=
    List.filter_congr fun e he => hown e (List.mem_of_mem_filter he)
  rw [List.filter_append, List.filter_append, List.length_append, hold]
  by_cases hentry : group entry = true ∧ own' entry = true
  · have hlt := hnew hentry.1 hentry.2
    have hle := List.length_filter_le own (entries.filter group)
    have hone : (List.filter own' (List.filter group [entry])).length ≤ 1 :=
      (List.length_filter_le _ _).trans (List.length_filter_le _ _)
    omega
  · have hnone : List.filter own' (List.filter group [entry]) = [] := by
      by_cases hgroup : group entry = true
      · have hnot : ¬own' entry = true := fun h => hentry ⟨hgroup, h⟩
        simp [hgroup, hnot]
      · simp [hgroup]
    rw [hnone]
    exact hcap

/-! ## One step -/

variable {r r' : AsksRun}

lemma isOwn_iff {e : AskEntry} : r.isOwn e = true ↔ e.id ∉ r.migrated := by
  simp [isOwn]

lemma Invariant.congr (h : r.Invariant) (hsaved : r'.saved = r.saved)
    (hmigrated : r'.migrated = r.migrated)
    (hmemory : r'.store.entries = r'.saved ∨
      r'.store.available = false ∧ r'.store.entries = []) : r'.Invariant := by
  have hown : r'.isOwn = r.isOwn := by
    unfold isOwn
    rw [hmigrated]
  refine ⟨by rw [hsaved]; exact h.nodup, by rw [hsaved]; exact h.valid, fun agentId => ?_,
    fun source => ?_, hmemory⟩
  · unfold ownAsks
    rw [hsaved, hown]
    exact h.asks agentId
  · unfold ownPages
    rw [hsaved, hown]
    exact h.pages source

lemma Invariant.nodup_entries (h : r.Invariant) : (r.store.entries.map (·.id)).Nodup := by
  rcases h.memory with hmemory | ⟨-, hmemory⟩
  · rw [hmemory]
    exact h.nodup
  · rw [hmemory]
    exact List.nodup_nil

/-- The invariant holds of what became of the entries. -/
lemma Invariant.kept {finite : Prop} (h : r.Invariant) (hkept : Kept finite r.saved r'.saved)
    (hmigrated : r'.migrated = r.migrated) (hmemory : r'.store.entries = r'.saved) :
    r'.Invariant := by
  have hown : r'.isOwn = r.isOwn := by
    unfold isOwn
    rw [hmigrated]
  have hsame : ∀ e e', Became finite e e' → r.isOwn e' = r.isOwn e := by
    intro e e' hbecame
    unfold isOwn
    rw [hbecame.id]
  refine ⟨h.nodup.sublist hkept.ids_sublist, fun e' he' => ?_, fun agentId => ?_, fun source => ?_,
    .inl hmemory⟩
  · obtain ⟨e, he, hbecame⟩ := hkept.exists_became e' he'
    exact hbecame.valid (h.valid e he)
  · refine le_trans ?_ (h.asks agentId)
    unfold ownAsks openAsks
    rw [hown, List.filter_filter, List.filter_filter]
    refine hkept.length_filter_le fun e e' hbecame hcounts => ?_
    simp only [Bool.and_eq_true, decide_eq_true_eq] at hcounts ⊢
    obtain ⟨howns, hagent, heq⟩ := hcounts
    rw [hsame e e' hbecame] at howns
    refine ⟨howns, hagent, ?_⟩
    rcases hbecame.agent with hthe | hnone
    · exact hthe.symm.trans heq
    · exact absurd (heq.symm.trans hnone) hagent
  · refine le_trans ?_ (h.pages source)
    unfold ownPages heldPages
    rw [hown, List.filter_filter, List.filter_filter]
    refine hkept.length_filter_le fun e e' hbecame hcounts => ?_
    simp only [Bool.and_eq_true] at hcounts ⊢
    rwa [hsame e e' hbecame, hbecame.page, hbecame.source] at hcounts

/-- The invariant holds with an ask that was opened within the caps. -/
lemma Invariant.opened {finite : Prop} {n : NewAsk} (h : r.Invariant)
    (hopened : AskStore.Opened finite n r.saved r'.saved entry)
    (hmigrated : r'.migrated = marks r.migrated (.create n) [entry.id])
    (hmemory : r'.store.entries = r'.saved) : r'.Invariant := by
  have hown : ∀ e ∈ r.saved, r'.isOwn e = r.isOwn e := by
    intro e he
    have hne : e.id ≠ entry.id := fun heq =>
      hopened.fresh (heq ▸ List.mem_map_of_mem he)
    rw [Bool.eq_iff_iff, isOwn_iff, isOwn_iff, hmigrated, mem_marks_of_ne hne]
  have hnew : r'.isOwn entry = true → n.migrated = none := by
    intro hentry
    rw [isOwn_iff, hmigrated, mem_marks_self] at hentry
    simpa [AskOp.isMigration] using hentry
  refine ⟨?_, fun e he => ?_, fun agentId => ?_, fun source => ?_, .inl hmemory⟩
  · rw [hopened.next, List.map_append]
    refine List.nodup_append.2 ⟨h.nodup, List.nodup_singleton _, fun id hid id' hid' heq => ?_⟩
    obtain rfl : id' = entry.id := by simpa using hid'
    exact hopened.fresh (heq ▸ hid)
  · rw [hopened.next] at he
    rcases List.mem_append.1 he with he | he
    · exact h.valid e he
    · rw [List.mem_singleton.1 he]
      exact hopened.valid
  · unfold ownAsks openAsks
    rw [hopened.next]
    refine length_filter_concat_le hown (h.asks agentId) fun hgroup hentry => ?_
    have hagent : n.agentId = agentId := by
      simp only [Bool.and_eq_true, decide_eq_true_eq] at hgroup
      exact hopened.agent.symm.trans hgroup.2
    rw [← hagent]
    exact hopened.asks (hnew hentry)
  · unfold ownPages heldPages
    rw [hopened.next]
    refine length_filter_concat_le hown (h.pages source) fun hgroup hentry => ?_
    obtain ⟨hsome, hsource⟩ := Bool.and_eq_true_iff.1 hgroup
    rw [hopened.source] at hsource
    rw [← eq_of_samePageSource hsource]
    exact hopened.pages (hnew hentry) (hopened.page ▸ hsome)

lemma Invariant.of_nil (hsaved : r.saved = []) (hmemory : r.store.entries = []) : r.Invariant := by
  refine ⟨?_, ?_, fun agentId => ?_, fun source => ?_, .inl (hmemory.trans hsaved.symm)⟩
  · rw [hsaved]
    exact List.nodup_nil
  · rw [hsaved]
    exact fun _ h => absurd h List.not_mem_nil
  · rw [hsaved]
    exact Nat.zero_le _
  · rw [hsaved]
    exact Nat.zero_le _

/-- Behind a call the file, the marks and memory are what they were, or the operation did to them what
it may do. -/
lemma Invariant.step_call (h : r.Invariant) (env : AskEnv) (op : AskOp) :
    (r.step (.call env op)).saved = r.saved ∧ (r.step (.call env op)).migrated = r.migrated ∧
        ((r.step (.call env op)).store.entries = r.saved ∨
          (r.step (.call env op)).store.available = false ∧
            (r.step (.call env op)).store.entries = []) ∨
      op.Allowed (env.now.isFinite = true ∧ op.isFinite = true) r.saved
          (r.step (.call env op)).saved ∧
        (r.step (.call env op)).migrated =
          marks r.migrated op (broughtIn r.saved (r.step (.call env op)).saved) ∧
        (r.step (.call env op)).store.entries = (r.step (.call env op)).saved := by
  rcases (AskOp.call_from h.nodup_entries op).after (Untouched.refl r.store) with
    ⟨hentries, hfile, havailable⟩ | hsaved
  · have hnone : broughtIn r.store.entries (AllOrNothing.after (op.call env) r.store).entries = [] :=
      broughtIn_of_subset (by rw [hentries]; exact List.Subset.refl _)
    refine .inl ⟨congrArg (·.getD []) hfile, ?_, ?_⟩
    · change marks r.migrated op (broughtIn _ _) = _
      rw [hnone, marks_nil]
    · exact h.memory.imp hentries.trans fun ⟨hoff, hempty⟩ =>
        ⟨havailable.trans hoff, hentries.trans hempty⟩
  · have hmemory : r.store.entries = r.saved :=
      h.memory.resolve_right fun ⟨hoff, _⟩ => by simp [hsaved.available] at hoff
    have hfile : (r.step (.call env op)).saved = (r.step (.call env op)).store.entries :=
      congrArg (·.getD []) hsaved.file
    refine .inr ⟨?_, ?_, hfile.symm⟩
    · rw [hfile, ← hmemory]
      exact hsaved.allowed
    · rw [hfile, ← hmemory]
      rfl

lemma Invariant.call (h : r.Invariant) (env : AskEnv) (op : AskOp) :
    (r.step (.call env op)).Invariant := by
  rcases h.step_call env op with ⟨hsaved, hmigrated, hmemory⟩ | ⟨hallowed, hmarks, hmemory⟩
  · exact h.congr hsaved hmigrated (by rw [hsaved]; exact hmemory)
  · have hkept {finite : Prop} (hkept : Kept finite r.saved (r.step (.call env op)).saved) :
        (r.step (.call env op)).Invariant := by
      refine h.kept hkept ?_ hmemory
      rw [hmarks, broughtIn_of_subset hkept.ids_sublist.subset, marks_nil]
    cases op with
    | create n =>
      obtain ⟨entry, hopened⟩ := hallowed
      refine h.opened hopened ?_ hmemory
      rw [hmarks, hopened.next, broughtIn_concat hopened.fresh]
    | _ => exact hkept hallowed

lemma load_cases (disk : AsksDisk) (readable moved : Bool) :
    (AskStore.load disk readable moved).disk = disk ∧
        ((AskStore.load disk readable moved).entries = disk.file.getD [] ∨
          (AskStore.load disk readable moved).available = false ∧
            (AskStore.load disk readable moved).entries = []) ∨
      (AskStore.load disk readable moved).disk.file = none ∧
        (AskStore.load disk readable moved).entries = [] := by
  unfold AskStore.load AskStore.readFile
  cases readable with
  | false => exact .inl ⟨rfl, .inr ⟨rfl, rfl⟩⟩
  | true =>
    cases hfile : disk.file with
    | none => exact .inl ⟨rfl, .inl rfl⟩
    | some list =>
      simp only [↓reduceIte]
      split_ifs with haccepted
      · exact .inl ⟨rfl, .inl rfl⟩
      · cases moved with
        | false => exact .inl ⟨rfl, .inr ⟨rfl, rfl⟩⟩
        | true => exact .inr ⟨rfl, rfl⟩

lemma Invariant.start (h : r.Invariant) (readable moved : Bool) :
    (r.step (.start readable moved)).Invariant := by
  rcases load_cases r.store.disk readable moved with ⟨hdisk, hmemory⟩ | ⟨hfile, hmemory⟩
  · have hsaved : (r.step (.start readable moved)).saved = r.saved :=
      congrArg (fun disk => disk.file.getD []) hdisk
    exact h.congr hsaved rfl (by rw [hsaved]; exact hmemory)
  · exact .of_nil (congrArg (·.getD []) hfile) hmemory

/-- **One step** keeps the invariant. -/
theorem invariant_step (r : AsksRun) (event : AsksEvent) (h : r.Invariant) :
    (r.step event).Invariant := by
  cases event with
  | call env op => exact h.call env op
  | start readable moved => exact h.start readable moved

lemma invariant_initial : initial.Invariant := .of_nil rfl rfl

/-- **Every run** keeps the invariant. -/
theorem invariant_run (events : List AsksEvent) :
    (Machine.run step initial events).Invariant :=
  Machine.run_invariant invariant_step invariant_initial

/-! ## Runs with finite numbers -/

lemma accepted_of_valid {list : List AskEntry} (h : ∀ e ∈ list, isAskEntry e.toJs = true)
    (hfinite : ∀ e ∈ list, e.isFinite = true) : AskStore.accepted list = true := by
  refine (JsValue.Survives.arrayOf survives_isAskEntry) _
    (.ofList (fun _ => JsValue.noConfusion) fun e he => e.plain_toJs (hfinite e he)) ?_
  change (list.map AskEntry.toJs).all isAskEntry = true
  rw [List.all_map]
  exact List.all_eq_true.2 h

lemma Invariant.load_eq (h : r.Invariant) (hfinite : ∀ e ∈ r.saved, e.isFinite = true)
    (readable moved : Bool) :
    AskStore.load r.store.disk readable moved =
      { entries := if readable then r.saved else []
        available := readable
        disk := r.store.disk } := by
  unfold AskStore.load AskStore.readFile
  cases readable with
  | false => rfl
  | true =>
    have hsaved : r.saved = r.store.disk.file.getD [] := rfl
    cases hfile : r.store.disk.file with
    | none =>
      rw [hfile] at hsaved
      simp [hsaved]
    | some list =>
      rw [hfile] at hsaved
      have hlist : r.saved = list := hsaved
      have haccepted := accepted_of_valid h.valid hfinite
      rw [hlist] at haccepted ⊢
      simp [haccepted]

/-- Finite numbers stay so when the store gets no others. -/
lemma Invariant.isFinite_step (h : r.Invariant) (hfinite : ∀ e ∈ r.saved, e.isFinite = true)
    {event : AsksEvent} (hevent : event.isFinite = true) :
    ∀ e ∈ (r.step event).saved, e.isFinite = true := by
  cases event with
  | call env op =>
    have hinputs := Bool.and_eq_true_iff.1 hevent
    rcases h.step_call env op with ⟨hsaved, -, -⟩ | ⟨hallowed, -, -⟩
    · rw [hsaved]
      exact hfinite
    · have hkept (hkept : Kept (env.now.isFinite = true ∧ op.isFinite = true) r.saved
          (r.step (.call env op)).saved) : ∀ e ∈ (r.step (.call env op)).saved, e.isFinite = true := by
        intro e' he'
        obtain ⟨e, he, hbecame⟩ := hkept.exists_became e' he'
        exact hbecame.isFinite hinputs (hfinite e he)
      cases op with
      | create n =>
        obtain ⟨entry, hopened⟩ := hallowed
        rw [hopened.next]
        intro e he
        rcases List.mem_append.1 he with he | he
        · exact hfinite e he
        · rw [List.mem_singleton.1 he]
          exact hopened.isFinite hinputs
      | _ => exact hkept hallowed
  | start readable moved =>
    have hload : (AskStore.load r.store.disk readable moved).disk = r.store.disk := by
      rw [h.load_eq hfinite]
    have hsaved : (r.step (.start readable moved)).saved = r.saved :=
      congrArg (fun disk => disk.file.getD []) hload
    rw [hsaved]
    exact hfinite

theorem isFinite_run {events : List AsksEvent} (hevents : ∀ event ∈ events, event.isFinite = true) :
    ∀ e ∈ (Machine.run step initial events).saved, e.isFinite = true :=
  (Machine.run_invariant_of_mem (P := fun r : AsksRun => r.Invariant ∧ ∀ e ∈ r.saved, e.isFinite = true)
    (fun _ event hevent h => ⟨invariant_step _ event h.1, h.1.isFinite_step h.2 hevent⟩)
    ⟨invariant_initial, fun _ h => absurd h List.not_mem_nil⟩ hevents).2

end AsksRun

/-! ## Reloads, failed saves and caps -/

/-- **The store reads what it wrote.** Behind every run in which it gets finite numbers every entry of
the file passes the check of a start as it comes back, so a start that can read the file puts nothing
aside: it has the entries that were saved, which are those of memory. -/
theorem asks_reload (events : List AsksEvent) (hfinite : ∀ event ∈ events, event.isFinite = true)
    (moved : Bool) :
    let r := Machine.run AsksRun.step .initial events
    (∀ e ∈ r.saved, isAskEntry e.toJs.roundTrip = true) ∧
      AskStore.load r.store.disk true moved =
        { entries := r.saved, available := true, disk := r.store.disk } ∧
      (r.store.available = true → r.store.entries = r.saved) := by
  intro r
  have hinvariant : r.Invariant := AsksRun.invariant_run events
  have hsaved := AsksRun.isFinite_run hfinite
  refine ⟨fun e he => ?_, hinvariant.load_eq hsaved true moved, fun havailable => ?_⟩
  · exact survives_isAskEntry _ (e.plain_toJs (hsaved e he)) (hinvariant.valid e he)
  · exact hinvariant.memory.resolve_right fun ⟨hoff, _⟩ => by simp [havailable] at hoff

/-- A call at the beginning of time, with one id drawn. -/
def firstCall : AskEnv where
  now := .finite 0
  ids := [⟨[0, 0, 0, 1], rfl, .free⟩]
  pageIds := []
  fault := none

/-- An ask to a member that shows a file of some size. -/
def fileAsk (size : JsDouble) : NewAsk where
  agentId := js "agent"
  memberUserId := some (js "member")
  otherMemberUserIds := none
  room := false
  prompt := js "Look at this."
  secret := none
  «sudo» := none
  link := none
  options := none
  recommended := none
  priority := none
  affordances :=
    { commands := none
      editFiles := none
      readFiles := some [⟨js "1.png", js "plan.png", js "image/png", size, none⟩] }
  sessionId := none
  step := none
  app := none
  messaging := none
  page := none
  office := none
  migrated := none

theorem asks_reload_two :
    let events : List AsksEvent := [.call firstCall (.create (fileAsk (.finite 12))),
      .start true false, .call { firstCall with ids := [⟨[0, 0, 0, 2], rfl, .free⟩] }
        (.create (fileAsk (.finite 7))), .call firstCall .markLostRuns]
    let r := Machine.run AsksRun.step .initial events
    r.saved.length = 2 ∧ (AskStore.load r.store.disk true false).available = true := by
  intro events
  exact ⟨by decide +kernel,
    congrArg AskStore.available (asks_reload events (by decide +kernel) false).2.1⟩

/-- `NaN` is a number, and passes the check of an entry. It comes back as `null`, which does not: the
file is put aside. -/
theorem asks_reload_nan :
    (Machine.run AsksRun.step .initial
        [.call firstCall (.create (fileAsk .nan))]).saved.length = 1 ∧
      (Machine.run AsksRun.step .initial
        [.call firstCall (.create (fileAsk .nan))]).saved.all
          (fun e => isAskEntry e.toJs.roundTrip) = false ∧
      (AskStore.load (Machine.run AsksRun.step .initial
        [.call firstCall (.create (fileAsk .nan))]).store.disk true true).disk.file.isNone =
          true := by
  decide +kernel

/-- **A failed save changes nothing, and the caps hold.** Behind every run an operation that fails, or
whose write fails, leaves the entries and the file as they were; no agent has more than its cap of
open asks and no source more than its cap of pages, besides those that were moved into the store. -/
theorem asks_save_fails_and_caps (events : List AsksEvent) :
    let r := Machine.run AsksRun.step .initial events
    (∀ env op, env.fault ≠ none ∨ AllOrNothing.Fails (AskOp.call env op) r.store →
        (AllOrNothing.after (op.call env) r.store).entries = r.store.entries ∧
          (AllOrNothing.after (op.call env) r.store).disk.file = r.store.disk.file) ∧
      (∀ agentId, ((openAsks r.store.entries agentId).filter r.isOwn).length ≤
        ASK_MAX_OPEN_PER_AGENT) ∧
      ∀ source, ((heldPages r.store.entries source).filter r.isOwn).length ≤
        ASK_PAGES_MAX_OPEN_PER_SOURCE := by
  intro r
  have hinvariant : r.Invariant := AsksRun.invariant_run events
  refine ⟨fun env op hfails => ?_, fun agentId => ?_, fun source => ?_⟩
  · have hcall := @AskOp.call_from env _ hinvariant.nodup_entries op
    have huntouched : Untouched r.store (AllOrNothing.after (op.call env) r.store) := by
      rcases hfails with hfault | hfails
      · exact (hcall.after (Untouched.refl _)).resolve_right fun hsaved => hfault hsaved.fault
      · exact hcall.of_fails hfails
    exact ⟨huntouched.1, huntouched.2.1⟩
  · rcases hinvariant.memory with hmemory | ⟨-, hmemory⟩
    · rw [hmemory]
      exact hinvariant.asks agentId
    · rw [hmemory]
      exact Nat.zero_le _
  · rcases hinvariant.memory with hmemory | ⟨-, hmemory⟩
    · rw [hmemory]
      exact hinvariant.pages source
    · rw [hmemory]
      exact Nat.zero_le _

end Isomux
