import Isomux.Cronjobs.RunTranscripts
import Mathlib.Data.List.Induction

set_option autoImplicit false

/-!
# Edits keep the transcript before the edited message

The sessions of a run are a tree: every session has a chain of ancestors up to the root. An entry is
in the log of one session only. The transcript of a session is read down its chain, and the part of
it before an entry is the transcript of the session that logged the entry, cut there. So a fork from
that session has just this part.

## Main results

* `Isomux.chainLoop_isSome` — the walk over a map ends.
* `Isomux.RunLogs.loadRunLogWithAncestors_eq` — the transcript of a session of the tree.
* `Isomux.RunLogs.editRunMessage_leaf` — the transcript behind an edit.
* `Isomux.RunLogs.edits_keep_transcripts` — the transcripts along every run.
-/

namespace Isomux

section

variable {Content Usage Rest : Type} {map : JsMap String (RunSessionMeta Usage Rest)}

/-! ## The walk -/

lemma chainLoop_eq (n : ℕ) (start : Option String) (visited : List String)
    (chain : List (String × Option String)) :
    chainLoop map n start visited chain =
      (ParentChain.walk (forkParent map) n start visited).map fun l =>
        l.reverse.map (fun s => (s, forkCut map s)) ++ chain := by
  induction n generalizing start visited chain with
  | zero => rfl
  | succ n ih =>
    cases start with
    | none => rfl
    | some current =>
      simp only [chainLoop, ParentChain.walk]
      split_ifs
      · rfl
      · rw [ih, Option.map_map]
        congr 1
        funext l
        simp

lemma mem_keys_of_forkParent {x : String} (h : forkParent map x ≠ none) :
    x ∈ map.map Prod.fst := by
  cases hget : map.get x with
  | none => simp [forkParent, hget] at h
  | some value => exact List.mem_map.2 ⟨(x, value), JsMap.mem_of_get hget, rfl⟩

lemma walk_isSome (map : JsMap String (RunSessionMeta Usage Rest)) (start : Option String)
    (visited : List String) :
    (ParentChain.walk (forkParent map) (walkBound map) start visited).isSome := by
  have hkeys : ∀ x, forkParent map x ≠ none → x ∈ map.map Prod.fst := fun x => mem_keys_of_forkParent
  refine ParentChain.walk_isSome hkeys ?_
  have hle := List.length_filter_le (fun x => decide (x ∉ visited)) (map.map Prod.fst)
  rw [List.length_map] at hle
  unfold walkBound
  omega

/-- **The walk over a map ends**, whatever the map says, and more steps find nothing else. -/
theorem chainLoop_isSome (map : JsMap String (RunSessionMeta Usage Rest)) (start : Option String) :
    ∃ chain, ∀ n, walkBound map ≤ n → chainLoop map n start [] [] = some chain := by
  obtain ⟨l, hl⟩ := Option.isSome_iff_exists.1 (walk_isSome map start [])
  refine ⟨l.reverse.map (fun s => (s, forkCut map s)) ++ [], fun n hn => ?_⟩
  rw [chainLoop_eq, ParentChain.walk_mono hl hn, Option.map_some]

lemma walk_of_isChain {x : String} {l : List String} (h : ParentChain.IsChain (forkParent map) x l)
    (hnodup : l.Nodup) (visited : List String) (hnew : ∀ y ∈ l, y ∉ visited) :
    ParentChain.walk (forkParent map) (walkBound map) (some x) visited = some l := by
  obtain ⟨l', hl'⟩ := Option.isSome_iff_exists.1 (walk_isSome map (some x) visited)
  have hlong : ParentChain.walk (forkParent map) (max (walkBound map) (l.length + 1)) (some x)
      visited = some l :=
    ParentChain.walk_of_isChain h hnodup hnew (by omega)
  rw [ParentChain.walk_mono hl' (Nat.le_max_left _ _)] at hlong
  exact hl'.trans hlong

/-! ## Entries from the leaf up -/

/-- The entries of a chain, from the leaf up: those of the ancestors before the fork of the leaf, and
those of the leaf before an entry. -/
def entriesUp (cutOf : String → Option String) (log : String → List (RunLogEntry Content)) :
    List String → Option String → List (RunLogEntry Content)
  | [], _ => []
  | x :: above, cutoffId => entriesUp cutOf log above (cutOf x) ++ entriesBefore cutoffId (log x)

variable {cutOf cutOf' : String → Option String} {log log' : String → List (RunLogEntry Content)}
  {l : List String}

@[simp] lemma entriesBefore_none (entries : List (RunLogEntry Content)) :
    entriesBefore none entries = entries := by
  induction entries with
  | nil => rfl
  | cons first entries ih => exact congrArg (first :: ·) ih

lemma entriesBefore_cons (cutoffId : Option String) (first : RunLogEntry Content)
    (entries : List (RunLogEntry Content)) :
    entriesBefore cutoffId (first :: entries) =
      if some first.id = cutoffId then [] else first :: entriesBefore cutoffId entries := by
  by_cases h : some first.id = cutoffId <;> simp [entriesBefore, h]

variable {cutoffId : Option String} {id : String}

lemma entriesBefore_append {entries rest : List (RunLogEntry Content)}
    (h : ∀ e ∈ entries, e.id ≠ id) :
    entriesBefore (some id) (entries ++ rest) = entries ++ entriesBefore (some id) rest := by
  induction entries with
  | nil => rfl
  | cons first entries ih =>
    rw [List.cons_append, entriesBefore_cons, if_neg (by simpa using h first List.mem_cons_self),
      ih fun e he => h e (List.mem_cons_of_mem _ he), List.cons_append]

lemma entriesBefore_append_of_mem {entries rest : List (RunLogEntry Content)}
    (h : ∃ e ∈ entries, e.id = id) :
    entriesBefore (some id) (entries ++ rest) = entriesBefore (some id) entries := by
  induction entries with
  | nil => simp at h
  | cons first entries ih =>
    rw [List.cons_append, entriesBefore_cons, entriesBefore_cons]
    by_cases hid : first.id = id
    · simp [hid]
    · rw [if_neg (by simpa using hid), if_neg (by simpa using hid), ih]
      simpa [hid] using h

lemma chainEntries_append (log : String → List (RunLogEntry Content))
    (chain : List (String × Option String)) (s : String) (c : Option String) :
    ∃ entries, chainEntries log (chain ++ [(s, c)]) = entries ++ log s ∧
      ∀ t d, chainEntries log (chain ++ [(s, c), (t, d)]) =
        entries ++ entriesBefore d (log s) ++ log t := by
  induction chain with
  | nil => exact ⟨[], rfl, fun t d => rfl⟩
  | cons first chain ih =>
    obtain ⟨entries, hentries, hmore⟩ := ih
    cases chain with
    | nil =>
      refine ⟨entriesBefore c (log first.1), rfl, fun t d => ?_⟩
      simp [chainEntries]
    | cons second chain =>
      refine ⟨entriesBefore second.2 (log first.1) ++ entries, ?_, fun t d => ?_⟩
      · simp only [List.cons_append, chainEntries] at hentries ⊢
        rw [hentries, List.append_assoc]
      · have hmore := hmore t d
        simp only [List.cons_append, chainEntries] at hmore ⊢
        rw [hmore]
        simp only [List.append_assoc]

/-- **The entries of a chain, from the leaf up.** -/
lemma chainEntries_reverse (x : String) (above : List String) :
    chainEntries log ((x :: above).reverse.map fun s => (s, cutOf s)) =
      entriesUp cutOf log (x :: above) none := by
  induction above generalizing x with
  | nil => simp [chainEntries, entriesUp]
  | cons p above ih =>
    obtain ⟨entries, hentries, hmore⟩ :=
      chainEntries_append log (above.reverse.map fun s => (s, cutOf s)) p (cutOf p)
    have hup := ih p
    simp only [List.reverse_cons, List.map_append, List.map_cons, List.map_nil] at hup ⊢
    rw [hentries] at hup
    simp only [entriesUp, entriesBefore_none, List.append_cancel_right_eq] at hup ⊢
    rw [List.append_assoc]
    exact (hmore x (cutOf x)).trans (by rw [hup])

lemma entriesUp_congr (cutoffId : Option String) (hcut : ∀ x ∈ l, cutOf' x = cutOf x)
    (hlog : ∀ x ∈ l, log' x = log x) :
    entriesUp cutOf' log' l cutoffId = entriesUp cutOf log l cutoffId := by
  induction l generalizing cutoffId with
  | nil => rfl
  | cons x above ih =>
    simp only [entriesUp]
    rw [hcut x List.mem_cons_self, hlog x List.mem_cons_self,
      ih _ (fun y hy => hcut y (List.mem_cons_of_mem _ hy))
        fun y hy => hlog y (List.mem_cons_of_mem _ hy)]

lemma entriesBefore_entriesBefore {entries : List (RunLogEntry Content)}
    (h : ∃ e ∈ entriesBefore cutoffId entries, e.id = id) :
    entriesBefore (some id) (entriesBefore cutoffId entries) = entriesBefore (some id) entries := by
  induction entries with
  | nil => rfl
  | cons first entries ih =>
    rw [entriesBefore_cons] at h ⊢
    by_cases hcut : some first.id = cutoffId
    · simp [hcut] at h
    · rw [if_neg hcut] at h ⊢
      rw [entriesBefore_cons, entriesBefore_cons]
      by_cases hid : first.id = id
      · simp [hid]
      · rw [if_neg (by simpa using hid), if_neg (by simpa using hid), ih]
        simpa [hid] using h

lemma mem_of_mem_entriesBefore {entries : List (RunLogEntry Content)}
    {entry : RunLogEntry Content} (h : entry ∈ entriesBefore cutoffId entries) : entry ∈ entries :=
  (List.takeWhile_sublist _).subset h

/-- **Where a chain is cut.** The part of a chain before one of its entries is the chain of the
session that logged the entry, cut there. -/
lemma entriesUp_cut
    (h : ∃ e ∈ entriesUp cutOf log l cutoffId, e.id = id) :
    ∃ before y after, l = before ++ y :: after ∧ (∃ e ∈ log y, e.id = id) ∧
      entriesBefore (some id) (entriesUp cutOf log l cutoffId) =
        entriesUp cutOf log (y :: after) (some id) := by
  induction l generalizing cutoffId with
  | nil => simp [entriesUp] at h
  | cons x above ih =>
    by_cases hup : ∃ e ∈ entriesUp cutOf log above (cutOf x), e.id = id
    · obtain ⟨before, y, after, rfl, hy, hcut⟩ := ih hup
      refine ⟨x :: before, y, after, rfl, hy, ?_⟩
      rw [entriesUp, entriesBefore_append_of_mem hup, hcut]
    · -- The entry is one of the log of `x`, so that none of the ancestors has it.
      obtain ⟨e, he, rfl⟩ := h
      have hlog : e ∈ entriesBefore cutoffId (log x) := by
        rcases List.mem_append.1 he with he | he
        · exact absurd ⟨e, he, rfl⟩ hup
        · exact he
      refine ⟨[], x, above, rfl, ⟨e, mem_of_mem_entriesBefore hlog, rfl⟩, ?_⟩
      have hnone : ∀ e' ∈ entriesUp cutOf log above (cutOf x), e'.id ≠ e.id :=
        fun e' he' hid => hup ⟨e', he', hid⟩
      simp only [entriesUp]
      rw [entriesBefore_append hnone, entriesBefore_entriesBefore ⟨e, hlog, rfl⟩]

namespace RunLogs

variable {w w' : RunLogs Content Usage Rest}

/-! ## The tree of sessions -/

/-- The chain of a session of the run: sessions of the run, each once, and the leaf only as the
first. -/
structure Lineage (w : RunLogs Content Usage Rest) (x : String) (l : List String) : Prop where
  chain : ParentChain.IsChain (forkParent w.sessions) x l
  nodup : l.Nodup
  known : ∀ y ∈ l, y ∈ w.known
  leaf : x ≠ w.leaf → w.leaf ∉ l

/-- The sessions are a tree, and an id is in one log only. -/
structure Grown (w : RunLogs Content Usage Rest) : Prop where
  leaf_known : w.leaf ∈ w.known
  lineage : ∀ x ∈ w.known, ∃ l, w.Lineage x l
  named : ∀ x ∈ w.known, x ≠ ""
  logs : ∀ x, x ∉ w.known → w.loadRunLog x = []
  oneLog : ∀ x y, ∀ e ∈ w.loadRunLog x, ∀ e' ∈ w.loadRunLog y, e.id = e'.id → x = y

/-- New entries and new sessions have ids of their own. -/
def Fresh (w : RunLogs Content Usage Rest) : RunLogOp Content Usage Rest → Prop
  | .append entry => ∀ x, ∀ e ∈ w.loadRunLog x, e.id ≠ entry.id
  | .record _ _ => True
  | .edit _ newSessionId _ _ _ => newSessionId ≠ "" ∧ newSessionId ∉ w.known

variable {ops : List (RunLogOp Content Usage Rest)} {x : String}

/-- **The transcript of a session of the tree** is what its chain has, from the leaf up. -/
lemma loadRunLogWithAncestors_eq (h : w.Grown) (hx : x ∈ w.known) {l : List String}
    (hl : w.Lineage x l) :
    w.loadRunLogWithAncestors x = entriesUp (forkCut w.sessions) w.loadRunLog l none := by
  obtain ⟨above, rfl⟩ := hl.chain.eq_cons
  have hstart : (some x).filter (· ≠ "") = some x := by simp [h.named x hx]
  have hwalk := walk_of_isChain hl.chain hl.nodup [] fun y _ => List.not_mem_nil
  rw [loadRunLogWithAncestors, hstart, chainLoop_eq, hwalk, Option.map_some, Option.getD_some,
    List.append_nil]
  exact chainEntries_reverse x above

/-- **The session to fork from** is the one of the chain whose log has the entry. -/
lemma forkFromSessionId_eq (h : w.Grown) {l : List String} (hl : w.Lineage w.leaf l) {y id : String}
    (hy : y ∈ l) (hentry : ∃ e ∈ w.loadRunLog y, e.id = id) : w.forkFromSessionId id = y := by
  have hhas : ∀ x, w.logHas id x = true ↔ ∃ e ∈ w.loadRunLog x, e.id = id := by
    simp [logHas]
  have hunique : ∀ x, w.logHas id x = true → x = y := by
    intro x hx
    obtain ⟨e, he, hid⟩ := (hhas x).1 hx
    obtain ⟨e', he', hid'⟩ := hentry
    exact h.oneLog x y e he e' he' (hid.trans hid'.symm)
  unfold forkFromSessionId
  split_ifs with hleaf
  · exact hunique _ hleaf
  · have hne : y ≠ w.leaf := by
      rintro rfl
      exact hleaf ((hhas _).2 hentry)
    obtain ⟨chain, nodup, -, -⟩ := hl
    cases chain with
    | root => exact absurd (List.mem_singleton.1 hy) hne
    | step hparent hchain =>
      rename_i p above
      obtain ⟨hleafAbove, habove⟩ := List.nodup_cons.1 nodup
      have hwalk := walk_of_isChain hchain habove [w.leaf] fun z hz hmem =>
        hleafAbove (List.mem_singleton.1 hmem ▸ hz)
      have hfind : above.find? (w.logHas id) = some y := by
        have hmem : y ∈ above := (List.mem_cons.1 hy).resolve_left hne
        obtain ⟨z, hz⟩ := Option.isSome_iff_exists.1
          (List.find?_isSome.2 ⟨y, hmem, (hhas y).2 hentry⟩)
        rw [hz, hunique z (List.find?_some hz)]
      rw [hparent, ParentChain.search_eq_find? hwalk, hfind]
      rfl

/-! ## What an operation does to the tree -/

lemma mem_known :
    x ∈ w.known ↔ x = w.rootSessionId ∨ (w.sessions.get x).isSome := by
  have hkey : x ∈ w.sessions.map Prod.fst ↔ (w.sessions.get x).isSome := by
    rw [← JsMap.has_eq_isSome, JsMap.has_iff]
    simp
  rw [known, List.mem_cons, hkey]

lemma get_ensureRunSessionClaudeConfigDir {sessionId x : String} (hx : x ≠ sessionId)
    (root : Option String) (now : ℚ) :
    (ensureRunSessionClaudeConfigDir map sessionId root now).get x = map.get x := by
  unfold ensureRunSessionClaudeConfigDir
  split
  · rfl
  · split
    · split_ifs
      · rfl
      · rw [JsMap.get_set, if_neg hx]
    · rw [JsMap.get_set, if_neg hx]

lemma get_persistRunSessionFork {sessionId x : String} (forkedFrom forkMessageId : String)
    (forkBaseUsage : Option Usage) (now : ℚ) (hx : x ≠ sessionId) :
    (persistRunSessionFork map sessionId forkedFrom forkMessageId forkBaseUsage now).get x =
      map.get x := by
  rw [persistRunSessionFork, JsMap.get_set, if_neg hx]

lemma get_persistRunSessionFork_self (map : JsMap String (RunSessionMeta Usage Rest))
    (sessionId forkedFrom forkMessageId : String) (forkBaseUsage : Option Usage) (now : ℚ) :
    ∃ m, (persistRunSessionFork map sessionId forkedFrom forkMessageId forkBaseUsage now).get
        sessionId = some m ∧ m.forkedFrom = some forkedFrom ∧
      m.forkMessageId = some forkMessageId := by
  rw [persistRunSessionFork, JsMap.get_set, if_pos rfl]
  exact ⟨_, rfl, rfl, rfl⟩

lemma Grown.of_same (h : w.Grown) (hleaf : w'.leaf = w.leaf)
    (hknown : ∀ x, x ∈ w'.known ↔ x ∈ w.known)
    (hparent : ∀ x, forkParent w'.sessions x = forkParent w.sessions x)
    (hlogs : ∀ x, x ∉ w.known → w'.loadRunLog x = [])
    (hone : ∀ x y, ∀ e ∈ w'.loadRunLog x, ∀ e' ∈ w'.loadRunLog y, e.id = e'.id → x = y) :
    w'.Grown where
  leaf_known := hleaf ▸ (hknown _).2 h.leaf_known
  lineage := by
    intro x hx
    obtain ⟨l, hl⟩ := h.lineage x ((hknown x).1 hx)
    exact ⟨l, hl.chain.congr fun y _ => hparent y, hl.nodup, fun y hy => (hknown y).2 (hl.known y hy),
      hleaf ▸ hl.leaf⟩
  named := fun x hx => h.named x ((hknown x).1 hx)
  logs := fun x hx => hlogs x fun hmem => hx ((hknown x).2 hmem)
  oneLog := hone

lemma Grown.appendRunLog (h : w.Grown) {entry : RunLogEntry Content}
    (hfresh : ∀ x, ∀ e ∈ w.loadRunLog x, e.id ≠ entry.id) :
    (w.appendRunLog w.leaf entry).Grown := by
  have hmem : ∀ x, ∀ e ∈ (w.appendRunLog w.leaf entry).loadRunLog x,
      e ∈ w.loadRunLog x ∨ (x = w.leaf ∧ e = entry) := by
    intro x e he
    simp only [RunLogs.appendRunLog, Function.update_apply] at he
    split_ifs at he with hx
    · rcases List.mem_append.1 he with he | he
      · exact .inl (hx ▸ he)
      · exact .inr ⟨hx, List.mem_singleton.1 he⟩
    · exact .inl he
  refine h.of_same rfl (fun _ => Iff.rfl) (fun _ => rfl) (fun x hx => ?_) fun x y e he e' he' hid => ?_
  · have hne : x ≠ w.leaf := fun heq => hx (heq ▸ h.leaf_known)
    simp only [RunLogs.appendRunLog, Function.update_of_ne hne]
    exact h.logs x hx
  · rcases hmem x e he with hold | ⟨rfl, hnew⟩ <;>
      rcases hmem y e' he' with hold' | ⟨rfl, hnew'⟩
    · exact h.oneLog x y e hold e' hold' hid
    · exact absurd (hid.trans (congrArg _ hnew')) (hfresh x e hold)
    · exact absurd (hid.symm.trans (congrArg _ hnew)) (hfresh y e' hold')
    · rfl

lemma record_same (h : w.Grown) (rest : Rest) (now : ℚ) :
    (∀ x, x ∈ (w.step (.record rest now)).known ↔ x ∈ w.known) ∧
      (∀ x, forkParent (w.step (.record rest now)).sessions x = forkParent w.sessions x) ∧
      ∀ x, forkCut (w.step (.record rest now)).sessions x = forkCut w.sessions x := by
  have hget : ∀ x, (w.step (.record rest now)).sessions.get x =
      if x = w.leaf then
        some { (w.sessions.get w.leaf).getD ⟨none, none, now, none, none, none, none⟩ with
          rest := some rest }
      else w.sessions.get x := fun x => JsMap.get_set
  refine ⟨fun x => ?_, fun x => ?_, fun x => ?_⟩
  · have hleaf := h.leaf_known
    rw [mem_known] at hleaf ⊢
    rw [mem_known, hget]
    by_cases hx : x = w.leaf
    · simp only [hx, if_true, Option.isSome_some, or_true, true_iff]
      exact hleaf
    · rw [if_neg hx]
      rfl
  · unfold forkParent
    rw [hget]
    by_cases hx : x = w.leaf
    · rw [if_pos hx, hx]
      cases w.sessions.get w.leaf <;> rfl
    · rw [if_neg hx]
  · unfold forkCut
    rw [hget]
    by_cases hx : x = w.leaf
    · rw [if_pos hx, hx]
      cases w.sessions.get w.leaf <;> rfl
    · rw [if_neg hx]

/-- The edit finds its message: the transcript has it, as a message of a member. -/
def FindsMessage (w : RunLogs Content Usage Rest) (logEntryId : String) : Prop :=
  ∃ target, (w.loadRunLogWithAncestors w.leaf).find? (·.id = logEntryId) = some target ∧
    target.kind = "user_message"

/-- What an edit that finds its message does to the map of the sessions. -/
structure Forked (w w' : RunLogs Content Usage Rest) (logEntryId newSessionId : String) : Prop where
  logs : w'.loadRunLog = w.loadRunLog
  root : w'.rootSessionId = w.rootSessionId
  leaf : w'.leaf = newSessionId
  others : ∀ x, x ≠ newSessionId → w'.sessions.get x = w.sessions.get x
  new : ∃ m, w'.sessions.get newSessionId = some m ∧
    m.forkedFrom = some (w.forkFromSessionId logEntryId) ∧ m.forkMessageId = some logEntryId

lemma forked_editRunMessage {logEntryId : String} (hfinds : w.FindsMessage logEntryId)
    (newSessionId : String) (claudeConfigRoot : Option String) (parentBase : Option Usage)
    (now : ℚ) :
    w.Forked (w.editRunMessage logEntryId newSessionId claudeConfigRoot parentBase now) logEntryId
      newSessionId := by
  obtain ⟨target, hfind, hkind⟩ := hfinds
  unfold editRunMessage
  rw [hfind]
  simp only [hkind, ne_eq, not_true_eq_false, if_false]
  refine ⟨rfl, rfl, rfl, fun x hx => ?_, ?_⟩
  · rw [get_persistRunSessionFork _ _ _ _ hx, get_ensureRunSessionClaudeConfigDir hx]
  · exact get_persistRunSessionFork_self _ _ _ _ _ _

lemma editRunMessage_of_not_finds {logEntryId : String} (hfinds : ¬w.FindsMessage logEntryId)
    (newSessionId : String) (claudeConfigRoot : Option String) (parentBase : Option Usage)
    (now : ℚ) : w.editRunMessage logEntryId newSessionId claudeConfigRoot parentBase now = w := by
  unfold editRunMessage
  split
  · rfl
  · rename_i target hfind
    split_ifs with hkind
    · rfl
    · exact absurd ⟨target, hfind, by simpa using hkind⟩ hfinds

namespace Forked

variable {logEntryId newSessionId : String}

variable {x : String}

lemma forkParent_eq (h : w.Forked w' logEntryId newSessionId) (hx : x ≠ newSessionId) :
    forkParent w'.sessions x = forkParent w.sessions x := by
  simp only [forkParent, h.others x hx]

lemma forkCut_eq (h : w.Forked w' logEntryId newSessionId) (hx : x ≠ newSessionId) :
    forkCut w'.sessions x = forkCut w.sessions x := by
  simp only [forkCut, h.others x hx]

lemma mem_known_iff (h : w.Forked w' logEntryId newSessionId) :
    x ∈ w'.known ↔ x = newSessionId ∨ x ∈ w.known := by
  rw [mem_known, mem_known, h.root]
  by_cases hx : x = newSessionId
  · obtain ⟨m, hm, -⟩ := h.new
    simp [hx, hm]
  · rw [h.others x hx]
    simp [hx]

/-- **Where the message is.** The session to fork from is in the chain of the leaf, and the
transcript before the message is its chain, cut there. -/
lemma exists_fork (h : w.Grown) (hfinds : w.FindsMessage logEntryId) :
    ∃ after, w.Lineage (w.forkFromSessionId logEntryId)
        (w.forkFromSessionId logEntryId :: after) ∧
      entriesBefore (some logEntryId) (w.loadRunLogWithAncestors w.leaf) =
        entriesUp (forkCut w.sessions) w.loadRunLog (w.forkFromSessionId logEntryId :: after)
          (some logEntryId) := by
  obtain ⟨target, hfind, -⟩ := hfinds
  obtain ⟨l, hl⟩ := h.lineage w.leaf h.leaf_known
  have hentries := loadRunLogWithAncestors_eq h h.leaf_known hl
  have htarget : ∃ e ∈ entriesUp (forkCut w.sessions) w.loadRunLog l none, e.id = logEntryId :=
    ⟨target, hentries ▸ List.mem_of_find?_eq_some hfind, by simpa using List.find?_some hfind⟩
  obtain ⟨before, y, after, rfl, hy, hcut⟩ := entriesUp_cut htarget
  obtain rfl : w.forkFromSessionId logEntryId = y := forkFromSessionId_eq h hl (by simp) hy
  refine ⟨after, ⟨hl.chain.suffix, ?_, ?_, ?_⟩, hentries ▸ hcut⟩
  · exact hl.nodup.sublist (List.sublist_append_right _ _)
  · exact fun z hz => hl.known z (List.mem_append_right _ hz)
  · -- The leaf is the first of the chain, and no session is in it twice.
    intro hne hmem
    obtain ⟨above, habove⟩ := hl.chain.eq_cons
    cases before with
    | nil => exact hne (List.cons.inj habove).1
    | cons first before =>
      obtain ⟨rfl, -⟩ := List.cons.inj habove
      exact (List.nodup_cons.1 hl.nodup).1 (List.mem_append_right _ hmem)

lemma lineage_old (h : w.Forked w' logEntryId newSessionId) (hnew : newSessionId ∉ w.known)
    {l : List String} (hl : w.Lineage x l) : w'.Lineage x l where
  chain := hl.chain.congr fun y hy => h.forkParent_eq fun heq => hnew (heq ▸ hl.known y hy)
  nodup := hl.nodup
  known := fun y hy => h.mem_known_iff.2 (.inr (hl.known y hy))
  leaf := fun _ hmem => hnew (hl.known _ (h.leaf ▸ hmem))

lemma lineage_new (h : w.Forked w' logEntryId newSessionId) (hgrown : w.Grown)
    (hnew : newSessionId ∉ w.known) {after : List String}
    (hl : w.Lineage (w.forkFromSessionId logEntryId) (w.forkFromSessionId logEntryId :: after)) :
    w'.Lineage newSessionId (newSessionId :: w.forkFromSessionId logEntryId :: after) := by
  have hold := h.lineage_old hnew hl
  have hnotin : newSessionId ∉ w.forkFromSessionId logEntryId :: after :=
    fun hmem => hnew (hl.known _ hmem)
  have hparent : forkParent w'.sessions newSessionId = some (w.forkFromSessionId logEntryId) := by
    obtain ⟨m, hm, hfrom, -⟩ := h.new
    have hnamed := hgrown.named _ (hl.known _ List.mem_cons_self)
    simp [forkParent, hm, hfrom, hnamed]
  refine ⟨.step hparent hold.chain, List.nodup_cons.2 ⟨hnotin, hl.nodup⟩, fun y hy => ?_,
    fun hne => absurd h.leaf.symm hne⟩
  rcases List.mem_cons.1 hy with rfl | hy
  · exact h.mem_known_iff.2 (.inl rfl)
  · exact hold.known y hy

lemma grown (h : w.Forked w' logEntryId newSessionId) (hgrown : w.Grown)
    (hfinds : w.FindsMessage logEntryId) (hname : newSessionId ≠ "")
    (hnew : newSessionId ∉ w.known) : w'.Grown where
  leaf_known := h.mem_known_iff.2 (.inl h.leaf)
  lineage := by
    intro x hx
    rcases h.mem_known_iff.1 hx with rfl | hx
    · obtain ⟨after, hl, -⟩ := exists_fork hgrown hfinds
      exact ⟨_, h.lineage_new hgrown hnew hl⟩
    · obtain ⟨l, hl⟩ := hgrown.lineage x hx
      exact ⟨l, h.lineage_old hnew hl⟩
  named := by
    intro x hx
    rcases h.mem_known_iff.1 hx with rfl | hx
    · exact hname
    · exact hgrown.named x hx
  logs := by
    intro x hx
    rw [h.logs]
    exact hgrown.logs x fun hmem => hx (h.mem_known_iff.2 (.inr hmem))
  oneLog := by
    rw [h.logs]
    exact hgrown.oneLog

/-- **The transcript of the new session** is that of the old one before the message.

**Proof sketch.** The new session has no log yet. Its chain goes on with the session whose log has
the message, cut at the message, and this is the old transcript before the message
(`Forked.exists_fork`). -/
lemma transcript_new (h : w.Forked w' logEntryId newSessionId) (hgrown : w.Grown)
    (hfinds : w.FindsMessage logEntryId) (hname : newSessionId ≠ "")
    (hnew : newSessionId ∉ w.known) :
    w'.loadRunLogWithAncestors newSessionId =
      entriesBefore (some logEntryId) (w.loadRunLogWithAncestors w.leaf) := by
  obtain ⟨after, hl, hcut⟩ := exists_fork hgrown hfinds
  have hnotin : ∀ x ∈ w.forkFromSessionId logEntryId :: after, x ≠ newSessionId :=
    fun x hx heq => hnew (heq ▸ hl.known x hx)
  have hself : forkCut w'.sessions newSessionId = some logEntryId := by
    obtain ⟨m, hm, -, hat⟩ := h.new
    simp [forkCut, hm, hat]
  rw [loadRunLogWithAncestors_eq (h.grown hgrown hfinds hname hnew) (h.mem_known_iff.2 (.inl rfl))
    (h.lineage_new hgrown hnew hl), hcut]
  rw [entriesUp, hself, h.logs, hgrown.logs _ hnew, entriesBefore_none, List.append_nil]
  exact entriesUp_congr _ (fun x hx => h.forkCut_eq (hnotin x hx)) fun _ _ => rfl

lemma transcript_old (h : w.Forked w' logEntryId newSessionId) (hgrown : w.Grown)
    (hfinds : w.FindsMessage logEntryId) (hname : newSessionId ≠ "")
    (hnew : newSessionId ∉ w.known) (hx : x ∈ w.known) :
    w'.loadRunLogWithAncestors x = w.loadRunLogWithAncestors x := by
  obtain ⟨l, hl⟩ := hgrown.lineage x hx
  rw [loadRunLogWithAncestors_eq (h.grown hgrown hfinds hname hnew) (h.mem_known_iff.2 (.inr hx))
    (h.lineage_old hnew hl), loadRunLogWithAncestors_eq hgrown hx hl, h.logs]
  exact entriesUp_congr _ (fun y hy => h.forkCut_eq fun heq => hnew (heq ▸ hl.known y hy))
    fun _ _ => rfl

end Forked

/-! ## One operation -/

/-- **Every operation keeps the sessions a tree.** -/
lemma Grown.step (h : w.Grown) {op : RunLogOp Content Usage Rest} (hfresh : w.Fresh op) :
    (w.step op).Grown := by
  cases op with
  | append entry => exact h.appendRunLog hfresh
  | record rest now =>
    obtain ⟨hknown, hparent, -⟩ := record_same h rest now
    exact h.of_same rfl hknown hparent h.logs h.oneLog
  | edit logEntryId newSessionId claudeConfigRoot parentBase now =>
    by_cases hfinds : w.FindsMessage logEntryId
    · exact (forked_editRunMessage hfinds newSessionId claudeConfigRoot parentBase now).grown h hfinds
        hfresh.1 hfresh.2
    · simp only [RunLogs.step]
      rw [editRunMessage_of_not_finds hfinds]
      exact h

lemma known_step (h : w.Grown) (op : RunLogOp Content Usage Rest) (hx : x ∈ w.known) :
    x ∈ (w.step op).known := by
  cases op with
  | append entry => exact hx
  | record rest now => exact ((record_same h rest now).1 x).2 hx
  | edit logEntryId newSessionId claudeConfigRoot parentBase now =>
    by_cases hfinds : w.FindsMessage logEntryId
    · exact (forked_editRunMessage hfinds newSessionId claudeConfigRoot parentBase
        now).mem_known_iff.2 (.inr hx)
    · simp only [RunLogs.step]
      rwa [editRunMessage_of_not_finds hfinds]

lemma transcript_append (h : w.Grown) (entry : RunLogEntry Content)
    (hfresh : w.Fresh (.append entry : RunLogOp Content Usage Rest)) :
    (w.step (.append entry)).loadRunLogWithAncestors w.leaf =
      w.loadRunLogWithAncestors w.leaf ++ [entry] := by
  obtain ⟨l, hl⟩ := h.lineage w.leaf h.leaf_known
  have hl' : (w.step (.append entry)).Lineage w.leaf l := { hl with }
  rw [loadRunLogWithAncestors_eq (h.step hfresh) h.leaf_known hl',
    loadRunLogWithAncestors_eq h h.leaf_known hl]
  obtain ⟨above, rfl⟩ := hl.chain.eq_cons
  have habove : ∀ x ∈ above, (w.step (.append entry)).loadRunLog x = w.loadRunLog x := by
    intro x hx
    refine Function.update_of_ne (fun heq => ?_) _ _
    exact (List.nodup_cons.1 hl.nodup).1 (heq ▸ hx)
  have hleaf : (w.step (.append entry)).loadRunLog w.leaf = w.loadRunLog w.leaf ++ [entry] :=
    Function.update_self ..
  simp only [entriesUp, entriesBefore_none, hleaf, List.append_assoc]
  rw [entriesUp_congr _ (fun _ _ => rfl) habove]
  rfl

lemma transcript_step (h : w.Grown) {op : RunLogOp Content Usage Rest} (hfresh : w.Fresh op)
    (hx : x ∈ w.known) (hlog : (w.step op).loadRunLog x = w.loadRunLog x) :
    (w.step op).loadRunLogWithAncestors x = w.loadRunLogWithAncestors x := by
  obtain ⟨l, hl⟩ := h.lineage x hx
  cases op with
  | append entry =>
    have hne : x ≠ w.leaf := by
      rintro rfl
      simp [RunLogs.step, RunLogs.appendRunLog] at hlog
    have hl' : (w.step (.append entry)).Lineage x l := { hl with }
    rw [loadRunLogWithAncestors_eq (h.step hfresh) hx hl', loadRunLogWithAncestors_eq h hx hl]
    refine entriesUp_congr _ (fun _ _ => rfl) fun y hy => Function.update_of_ne ?_ _ _
    rintro rfl
    exact hl.leaf hne hy
  | record rest now =>
    obtain ⟨hknown, hparent, hcut⟩ := record_same h rest now
    have hl' : (w.step (.record rest now)).Lineage x l :=
      ⟨hl.chain.congr fun y _ => hparent y, hl.nodup, fun y hy => (hknown y).2 (hl.known y hy),
        hl.leaf⟩
    rw [loadRunLogWithAncestors_eq (h.step hfresh) ((hknown x).2 hx) hl',
      loadRunLogWithAncestors_eq h hx hl]
    exact entriesUp_congr _ (fun y _ => hcut y) fun _ _ => rfl
  | edit logEntryId newSessionId claudeConfigRoot parentBase now =>
    by_cases hfinds : w.FindsMessage logEntryId
    · exact (forked_editRunMessage hfinds newSessionId claudeConfigRoot parentBase
        now).transcript_old h hfinds hfresh.1 hfresh.2 hx
    · simp only [RunLogs.step]
      rw [editRunMessage_of_not_finds hfinds]

@[simp] lemma loadRunLog_editRunMessage (w : RunLogs Content Usage Rest)
    (logEntryId newSessionId : String) (claudeConfigRoot : Option String)
    (parentBase : Option Usage) (now : ℚ) :
    (w.editRunMessage logEntryId newSessionId claudeConfigRoot parentBase now).loadRunLog =
      w.loadRunLog := by
  by_cases hfinds : w.FindsMessage logEntryId
  · exact (forked_editRunMessage hfinds newSessionId claudeConfigRoot parentBase now).logs
  · rw [editRunMessage_of_not_finds hfinds]

lemma log_isPrefix (w : RunLogs Content Usage Rest) (op : RunLogOp Content Usage Rest)
    (x : String) : w.loadRunLog x <+: (w.step op).loadRunLog x := by
  cases op with
  | append entry =>
    by_cases hx : x = w.leaf
    · simp [RunLogs.step, RunLogs.appendRunLog, hx]
    · simp [RunLogs.step, RunLogs.appendRunLog, hx]
  | record rest now => exact List.prefix_rfl
  | edit logEntryId newSessionId claudeConfigRoot parentBase now => simp [RunLogs.step]

/-! ## Runs -/

lemma grown_start {rootSessionId : String} (hroot : rootSessionId ≠ "") :
    (start rootSessionId : RunLogs Content Usage Rest).Grown where
  leaf_known := List.mem_cons_self
  lineage := by
    intro x hx
    obtain rfl : x = rootSessionId := by simpa [known, start] using hx
    exact ⟨[x], .root rfl, by simp, fun y hy => by simpa [known, start] using hy,
      fun hne => absurd rfl hne⟩
  named := by
    intro x hx
    obtain rfl : x = rootSessionId := by simpa [known, start] using hx
    exact hroot
  logs := fun _ _ => rfl
  oneLog := fun _ _ e he => absurd he List.not_mem_nil

lemma Grown.run (h : w.Grown)
    (hfresh : Machine.Along RunLogs.step Fresh w ops) : (Machine.run RunLogs.step w ops).Grown :=
  Machine.run_invariant_along (fun _ _ hs hok => hs.step hok) h hfresh

lemma log_isPrefix_run (w : RunLogs Content Usage Rest) (ops : List (RunLogOp Content Usage Rest))
    (x : String) : w.loadRunLog x <+: (Machine.run RunLogs.step w ops).loadRunLog x := by
  induction ops generalizing w with
  | nil => exact List.prefix_rfl
  | cons op ops ih => exact (log_isPrefix w op x).trans (ih (w.step op))

lemma transcript_run (h : w.Grown)
    (hfresh : Machine.Along RunLogs.step Fresh w ops) (hx : x ∈ w.known)
    (hlog : (Machine.run RunLogs.step w ops).loadRunLog x = w.loadRunLog x) :
    (Machine.run RunLogs.step w ops).loadRunLogWithAncestors x = w.loadRunLogWithAncestors x := by
  induction ops generalizing w with
  | nil => rfl
  | cons op ops ih =>
    rw [Machine.run_cons] at hlog ⊢
    -- Between its two ends the log is the same.
    have hstep : (w.step op).loadRunLog x = w.loadRunLog x := by
      have hbefore := log_isPrefix w op x
      have hafter := log_isPrefix_run (w.step op) ops x
      rw [hlog] at hafter
      exact hafter.eq_of_length_le hbefore.length_le
    rw [ih (h.step hfresh.1) hfresh.2 (known_step h op hx) (hlog.trans hstep.symm),
      transcript_step h hfresh.1 hx hstep]

lemma transcript_appends (h : w.Grown) (entries : List (RunLogEntry Content))
    (hfresh : Machine.Along RunLogs.step Fresh w
      (entries.map (.append : _ → RunLogOp Content Usage Rest))) :
    (Machine.run RunLogs.step w (entries.map .append)).leaf = w.leaf ∧
      (Machine.run RunLogs.step w (entries.map .append)).loadRunLogWithAncestors w.leaf =
        w.loadRunLogWithAncestors w.leaf ++ entries := by
  induction entries generalizing w with
  | nil => simp
  | cons entry entries ih =>
    obtain ⟨hleaf, hentries⟩ := ih (h.step hfresh.1) hfresh.2
    refine ⟨hleaf, ?_⟩
    rw [List.map_cons, Machine.run_cons]
    have hstay : (w.step (.append entry)).leaf = w.leaf := rfl
    rw [hstay, transcript_append h entry hfresh.1, List.append_assoc] at hentries
    exact hentries

lemma mem_log_run {rootSessionId x : String}
    {e : RunLogEntry Content}
    (he : e ∈ (Machine.run RunLogs.step (start rootSessionId) ops).loadRunLog x) :
    RunLogOp.append e ∈ ops := by
  induction ops using List.reverseRec with
  | nil => cases he
  | append_singleton ops op ih =>
    rw [Machine.run_append, Machine.run_cons, Machine.run_nil] at he
    cases op with
    | append entry =>
      simp only [RunLogs.step, RunLogs.appendRunLog, Function.update_apply] at he
      split_ifs at he with hx
      · rcases List.mem_append.1 he with he | he
        · exact List.mem_append_left _ (ih (hx ▸ he))
        · exact List.mem_append_right _ (by simpa using he)
      · exact List.mem_append_left _ (ih he)
    | record rest now => exact List.mem_append_left _ (ih he)
    | edit logEntryId newSessionId claudeConfigRoot parentBase now =>
      simp only [RunLogs.step, loadRunLog_editRunMessage] at he
      exact List.mem_append_left _ (ih he)

/-- **Edits keep the transcript before the edited message.** Take a run with one session and any
sequence of logged entries, of other data of the sessions and of edits, where new entries and new
sessions have ids of their own.

Behind an edit that finds its message, and entries that are logged then, the transcript of the new
leaf is that of the old one before the message, and then these entries. A session of the run that
nothing was logged to since has the transcript it had. And the walk over the ancestors ends on every
map of sessions.

**Proof sketch.** The sessions are a tree in every state (`Grown.run`). An edit cuts the chain of the
leaf where the message is (`Forked.transcript_new`) and touches no other chain. -/
theorem edits_keep_transcripts {rootSessionId : String} (hroot : rootSessionId ≠ "")
    (ops : List (RunLogOp Content Usage Rest))
    (hfresh : Machine.Along RunLogs.step Fresh (start rootSessionId) ops) :
    (∀ before logEntryId newSessionId claudeConfigRoot parentBase now entries,
      ops = before ++ .edit logEntryId newSessionId claudeConfigRoot parentBase now ::
        entries.map .append →
      let w := Machine.run RunLogs.step (start rootSessionId) before
      let w' := Machine.run RunLogs.step (start rootSessionId) ops
      w.FindsMessage logEntryId →
        w'.leaf = newSessionId ∧
          w'.loadRunLogWithAncestors newSessionId =
            ((w.loadRunLogWithAncestors w.leaf).takeWhile fun e => e.id ≠ logEntryId) ++ entries) ∧
    (∀ before after, ops = before ++ after →
      let w := Machine.run RunLogs.step (start rootSessionId) before
      let w' := Machine.run RunLogs.step (start rootSessionId) ops
      ∀ x ∈ w.known, w'.loadRunLog x = w.loadRunLog x →
        w'.loadRunLogWithAncestors x = w.loadRunLogWithAncestors x) ∧
    ∀ (map : JsMap String (RunSessionMeta Usage Rest)) (session : Option String),
      ∃ chain, ∀ n, walkBound map ≤ n → chainLoop map n session [] [] = some chain := by
  refine ⟨?_, ?_, chainLoop_isSome⟩
  · rintro before logEntryId newSessionId claudeConfigRoot parentBase now entries rfl w w' hfinds
    obtain ⟨hbefore, ⟨hname, hnew⟩, hafter⟩ := Machine.along_append.1 hfresh
    have hw : w.Grown := (grown_start hroot).run hbefore
    have hfork := forked_editRunMessage hfinds newSessionId claudeConfigRoot parentBase now
    have hcut := hfork.transcript_new hw hfinds hname hnew
    obtain ⟨hleaf, happends⟩ :=
      transcript_appends (hfork.grown hw hfinds hname hnew) entries hafter
    have hrun : w' = Machine.run RunLogs.step
        (w.editRunMessage logEntryId newSessionId claudeConfigRoot parentBase now)
          (entries.map .append) := by
      simp only [w', Machine.run_append, Machine.run_cons]
      rfl
    rw [hfork.leaf] at hleaf happends
    rw [hrun, hleaf, happends, hcut]
    refine ⟨rfl, ?_⟩
    simp [entriesBefore]
  · rintro before after rfl w w' x hx hlog
    obtain ⟨hbefore, hafter⟩ := Machine.along_append.1 hfresh
    have hrun : w' = Machine.run RunLogs.step w after := Machine.run_append
    rw [hrun] at hlog ⊢
    exact transcript_run ((grown_start hroot).run hbefore) hafter hx hlog

end RunLogs

end

/-- A run with three messages, an edit of the last one, and an edit of the second one, which is in the
log of the root. -/
def nestedEdits : List (RunLogOp String Unit Unit) :=
  [.append ⟨"e1", "user_message", "one"⟩, .append ⟨"e2", "user_message", "two"⟩,
    .append ⟨"e3", "user_message", "three"⟩, .edit "e3" "s1" none none 0,
    .append ⟨"e4", "user_message", "three again"⟩, .edit "e2" "s2" none none 1,
    .append ⟨"e5", "user_message", "two again"⟩]

theorem edits_keep_transcripts_nested :
    (Machine.run RunLogs.step (RunLogs.start "root") nestedEdits).loadRunLogWithAncestors "s2" =
      [⟨"e1", "user_message", "one"⟩, ⟨"e5", "user_message", "two again"⟩] := by
  have happend : ∀ (ops : List (RunLogOp String Unit Unit)) (entry : RunLogEntry String),
      (∀ e, RunLogOp.append e ∈ ops → e.id ≠ entry.id) →
      RunLogs.Fresh (Machine.run RunLogs.step (RunLogs.start "root") ops) (.append entry) :=
    fun ops entry h x e he => h e (RunLogs.mem_log_run he)
  have hfresh : Machine.Along RunLogs.step RunLogs.Fresh (RunLogs.start "root") nestedEdits := by
    refine ⟨happend (nestedEdits.take 0) _ ?_, happend (nestedEdits.take 1) _ ?_,
      happend (nestedEdits.take 2) _ ?_, ?_, happend (nestedEdits.take 4) _ ?_, ?_,
      happend (nestedEdits.take 6) _ ?_, trivial⟩
    · simp [nestedEdits]
    · simp [nestedEdits]
    · simp [nestedEdits]
    · change "s1" ≠ "" ∧ "s1" ∉ RunLogs.known _
      decide
    · simp [nestedEdits]
    · change "s2" ≠ "" ∧ "s2" ∉ RunLogs.known _
      decide
    · simp [nestedEdits]
  have hmain := (RunLogs.edits_keep_transcripts (by decide) nestedEdits hfresh).1
    (nestedEdits.take 5) "e2" "s2" none none 1 [⟨"e5", "user_message", "two again"⟩] rfl
  have hcut := (hmain ⟨⟨"e2", "user_message", "two"⟩, by decide, rfl⟩).2
  exact hcut.trans (by decide)

end Isomux
