import Mathlib.Data.List.Induction
import Isomux.Storage.Prune

set_option autoImplicit false

/-!
# What pruning leaves alone

Every file that applying a plan deletes is named by the plan and by the plan that is made afresh. A
transcript among them belongs to a session that no guard of the fresh plan spares, whatever the plan
that is applied says, and both files of such a session are as old as the policy asks.

## Main results

* `Isomux.Prune.grouped_groupSessions` — how the files of a session are taken together.
* `Isomux.Prune.applied_fold` — what applying a plan deletes.
* `Isomux.Prune.prune_guarded` — the guards, the fork ancestry, the fence and the partition.
-/

namespace Isomux.Prune

variable {sys : FileSystem} {files files' : OfficeFiles} {deps : PruneDeps} {policy : PrunePolicy}

/-! ## Statements -/

section Statements

variable (sys files deps)

/-- A file is a transcript of a session of an agent. -/
def IsTranscript (agentId sessionId : JsString) (place : List JsString) (file : LogFile) : Prop :=
  ∃ logs name compressed, FileTree.realpath files.tree sys.links deps.logsDir = some logs ∧
    place = logs ++ [agentId, name] ∧ (js "agent-").isPrefixOf agentId = true ∧
    sessionIdOfTranscript name = some (sessionId, compressed) ∧
    FileTree.node files.tree place = some (.file file)

/-- The time of a session: that of the newest of its files, and never one before zero. -/
def SessionTime (agentId sessionId : JsString) (t : ℚ) : Prop :=
  0 ≤ t ∧ (∀ place file, IsTranscript sys files deps agentId sessionId place file →
    file.mtimeMs ≤ t) ∧
    (t = 0 ∨ ∃ place file, IsTranscript sys files deps agentId sessionId place file ∧
      file.mtimeMs = t)

/-- No guard spares a session, and the plan names one of its files with its time. As many others as
the policy keeps are not older. -/
structure MayGo (plan : PrunePlan) (agentId sessionId : JsString) : Prop where
  inactive : sessionId ∉ deps.activeSessionIds
  noFork : ∀ e ∈ deps.loadSessionsMap agentId, e.2.forkedFrom ≠ some sessionId
  notNewest : agentId ∈ deps.killedAgentIds ∨ ∃ others : List JsString, others.Nodup ∧
    sessionId ∉ others ∧ plan.policy.keepPerAgent ≤ others.length ∧ ∀ other ∈ others,
      (∃ place file, IsTranscript sys files deps agentId other place file) ∧
      ∃ t t', SessionTime sys files deps agentId sessionId t ∧
        SessionTime sys files deps agentId other t' ∧ t ≤ t'
  old : ∀ place file, IsTranscript sys files deps agentId sessionId place file →
    file.mtimeMs ≤ deps.now - plan.policy.olderThanDays * DAY_MS
  recorded : ∃ c ∈ plan.candidates, SessionTime sys files deps agentId sessionId c.mtimeMs ∧
    ∃ logs name file, c.path = joinNames agentId name ∧
      IsTranscript sys files deps agentId sessionId (logs ++ [agentId, name]) file

def ForkedFrom (agentId sessionId parent : JsString) : Prop :=
  ∃ e ∈ deps.loadSessionsMap agentId, e.1 = sessionId ∧ e.2.forkedFrom = some parent

/-- All sessions, with their agents and their places among the sessions of their agents. -/
def transcriptRows : List (JsString × SessionFile × ℕ) :=
  (listAgentDirs sys files deps).flatMap fun agentId =>
    (sessionFiles sys files deps agentId).zipIdx.map fun e => (agentId, e)

def rowReason (policy : PrunePolicy) (row : JsString × SessionFile × ℕ) : Option PruneSkipReason :=
  spareTranscript deps policy row.1 row.2.1 row.2.2

end Statements

/-! ## Names and paths -/

section Paths

variable {root : List JsString} {agentId name : JsString}

lemma pathStep_name (h : IsFileName name) (path : List JsString) : pathStep path name = path ++ [name] := by
  rw [pathStep, if_neg (by simp [h.1, h.2.1]), if_neg h.2.2.1]

lemma resolvePath_name (h : IsFileName name) : resolvePath root name = root ++ [name] := by
  rw [resolvePath, List.splitOn_eq_singleton h.2.2.2, List.foldl_cons, List.foldl_nil, pathStep_name h]

lemma resolvePath_join (h : IsFileName agentId) (rest : JsString) :
    resolvePath root (joinNames agentId rest) = resolvePath (root ++ [agentId]) rest := by
  rw [resolvePath, joinNames, List.splitOn_append_cons_self_of_not_mem h.2.2.2, List.foldl_cons,
    pathStep_name h]
  rfl

end Paths

/-! ## Files -/

section Files

variable {path place : List JsString} {name : JsString}

lemma lstatFile_eq {b : Bool} (h : FileTree.realpath files.tree sys.links path = some place)
    (hdir : FileTree.node files.tree place = some (.directory b)) {file : LogFile} :
    lstatFile sys files (path ++ [name]) = some file ↔
      FileTree.node files.tree (place ++ [name]) = some (.file file) := by
  rw [lstatFile, FileTree.lstat_concat h hdir]
  cases hnode : FileTree.node files.tree (place ++ [name]) with
  | none => simp
  | some n => cases n <;> simp

lemma exists_of_isRealDir (h : isRealDir sys files (path ++ [name]) = true) :
    ∃ base b b', FileTree.realpath files.tree sys.links path = some base ∧
      FileTree.node files.tree base = some (.directory b) ∧
      FileTree.node files.tree (base ++ [name]) = some (.directory b') := by
  unfold isRealDir at h
  split at h
  · rename_i p b hstat
    obtain ⟨base, b', hbase, hdir, rfl, hnode⟩ := FileTree.exists_of_lstat hstat
    exact ⟨base, b', b, hbase, hdir, hnode⟩
  · exact nomatch h

lemma entry_spec {b : FileTree.Node JsString LogFile}
    (h : (name, b) ∈ FileTree.children files.tree place) :
    IsFileName name ∧ FileTree.node files.tree (place ++ [name]) = some b := by
  have hmem := FileTree.mem_children.1 h
  have hnames := files.names _ hmem
  exact ⟨hnames.2 name (List.mem_append_right _ List.mem_cons_self),
    FileTree.node_of_mem files.nodup hmem hnames.1⟩

lemma mem_listAgentDirs {agentId : JsString} :
    agentId ∈ listAgentDirs sys files deps ↔
      (js "agent-").isPrefixOf agentId = true ∧ ∃ logs listable,
        FileTree.realpath files.tree sys.links deps.logsDir = some logs ∧
        FileTree.node files.tree logs = some (.directory true) ∧
        FileTree.node files.tree (logs ++ [agentId]) = some (.directory listable) := by
  unfold listAgentDirs readdirSync
  rw [List.mem_map]
  constructor
  · rintro ⟨d, hd, rfl⟩
    obtain ⟨hmem, htest⟩ := List.mem_filter.1 hd
    rw [Bool.and_eq_true] at htest
    cases hentries : FileTree.readdir files.tree sys.links deps.logsDir with
    | none =>
      rw [hentries] at hmem
      exact absurd hmem List.not_mem_nil
    | some entries =>
      rw [hentries, Option.getD_some] at hmem
      obtain ⟨logs, hlogs, hdir, rfl⟩ := FileTree.exists_of_readdir hentries
      obtain ⟨name, n⟩ := d
      have hnode := (entry_spec hmem).2
      cases n with
      | directory listable => exact ⟨htest.2, logs, listable, hlogs, hdir, hnode⟩
      | _ => exact nomatch htest.1
  · rintro ⟨hagent, logs, listable, hlogs, hdir, hnode⟩
    refine ⟨(agentId, .directory listable), List.mem_filter.2 ⟨?_, ?_⟩, rfl⟩
    · rw [FileTree.readdir, hlogs, Option.bind_some, hdir]
      exact FileTree.mem_children.2 (FileTree.mem_of_node hnode (by simp))
    · rw [hagent]
      rfl

lemma isFileName_agent {agentId : JsString} {logs : List JsString} {n : FileTree.Node JsString LogFile}
    (h : FileTree.node files.tree (logs ++ [agentId]) = some n) : IsFileName agentId :=
  (files.names _ (FileTree.mem_of_node h (by simp))).2 agentId
    (List.mem_append_right _ List.mem_cons_self)

end Files

/-! ## Sessions -/

/-- A file of a session among the names of its directory. -/
def IsForm (sys : FileSystem) (files : OfficeFiles) (agentDir : List JsString) (names : List JsString)
    (sessionId name : JsString) (stat : LogFile) : Prop :=
  name ∈ names ∧ (∃ compressed, sessionIdOfTranscript name = some (sessionId, compressed)) ∧
    lstatFile sys files (agentDir ++ [name]) = some stat

/-- How the files of sessions are taken together. -/
structure Grouped (sys : FileSystem) (files : OfficeFiles) (agentDir names : List JsString)
    (bySession : JsMap JsString SessionFile) : Prop where
  nodup : (bySession.map Prod.fst).Nodup
  key : ∀ e ∈ bySession, e.2.sessionId = e.1
  named : ∀ e ∈ bySession, ∃ stat, IsForm sys files agentDir names e.1 e.2.name stat
  bound : ∀ sessionId name stat, IsForm sys files agentDir names sessionId name stat →
    ∃ file, (sessionId, file) ∈ bySession ∧ stat.mtimeMs ≤ file.mtime
  attained : ∀ e ∈ bySession, e.2.mtime = 0 ∨
    ∃ name stat, IsForm sys files agentDir names e.1 name stat ∧ stat.mtimeMs = e.2.mtime
  nonneg : ∀ e ∈ bySession, 0 ≤ e.2.mtime

section Sessions

variable {agentDir names : List JsString} {bySession : JsMap JsString SessionFile}
  {name sessionId : JsString}

lemma IsForm.append {stat : LogFile} (h : IsForm sys files agentDir names sessionId name stat)
    (more : List JsString) : IsForm sys files agentDir (names ++ more) sessionId name stat :=
  ⟨List.mem_append_left _ h.1, h.2⟩

lemma Grouped.skip (h : Grouped sys files agentDir names bySession)
    (hskip : ∀ sessionId stat, ¬IsForm sys files agentDir [name] sessionId name stat) :
    Grouped sys files agentDir (names ++ [name]) bySession := by
  have hold : ∀ i n stat, IsForm sys files agentDir (names ++ [name]) i n stat →
      IsForm sys files agentDir names i n stat := by
    rintro i n stat ⟨hmem, hform⟩
    rcases List.mem_append.1 hmem with hmem | hmem
    · exact ⟨hmem, hform⟩
    · obtain rfl := List.mem_singleton.1 hmem
      exact absurd ⟨List.mem_cons_self, hform⟩ (hskip i stat)
  refine ⟨h.nodup, h.key, fun e he => ?_, fun i n stat hform => h.bound i n stat (hold i n stat hform),
    fun e he => ?_, h.nonneg⟩
  · obtain ⟨stat, hform⟩ := h.named e he
    exact ⟨stat, hform.append _⟩
  · rcases h.attained e he with hzero | ⟨n, stat, hform, heq⟩
    · exact Or.inl hzero
    · exact Or.inr ⟨n, stat, hform.append _, heq⟩

/-- One more file of a session. -/
lemma Grouped.addForm (h : Grouped sys files agentDir names bySession) {compressed : Bool}
    {stat : LogFile} (hid : sessionIdOfTranscript name = some (sessionId, compressed))
    (hstat : lstatFile sys files (agentDir ++ [name]) = some stat) :
    Grouped sys files agentDir (names ++ [name]) (addForm bySession name sessionId compressed stat) := by
  have hnew : IsForm sys files agentDir (names ++ [name]) sessionId name stat :=
    ⟨List.mem_append_right _ List.mem_cons_self, ⟨compressed, hid⟩, hstat⟩
  have hseen : ∀ file, bySession.get sessionId = some file → (sessionId, file) ∈ bySession :=
    fun file hget => (JsMap.mem_iff_get h.nodup).2 hget
  have hmem : ∀ e ∈ Prune.addForm bySession name sessionId compressed stat,
      e ∈ bySession ∧ e.1 ≠ sessionId ∨
        e = (sessionId, ⟨sessionId, ((bySession.get sessionId).map fun file =>
          if compressed then file.name else name).getD name,
          (((bySession.get sessionId).map (·.size)).getD 0) + stat.bytes.length,
          max (((bySession.get sessionId).map (·.mtime)).getD 0) stat.mtimeMs⟩) := by
    rintro ⟨i, file⟩ he
    have hget := (JsMap.mem_iff_get (JsMap.nodup_keys_set h.nodup)).1 he
    rw [JsMap.get_set] at hget
    by_cases hi : i = sessionId
    · rw [if_pos hi] at hget
      rw [hi, ← Option.some.inj hget]
      refine Or.inr ?_
      cases bySession.get sessionId <;> rfl
    · rw [if_neg hi] at hget
      exact Or.inl ⟨(JsMap.mem_iff_get h.nodup).2 hget, hi⟩
  refine ⟨JsMap.nodup_keys_set h.nodup, fun e he => ?_, fun e he => ?_, fun i n s hform => ?_,
    fun e he => ?_, fun e he => ?_⟩
  · rcases hmem e he with ⟨hold, -⟩ | rfl
    · exact h.key e hold
    · rfl
  · rcases hmem e he with ⟨hold, -⟩ | rfl
    · obtain ⟨s, hform⟩ := h.named e hold
      exact ⟨s, hform.append _⟩
    · cases hget : bySession.get sessionId with
      | none => exact ⟨stat, hnew⟩
      | some file =>
        cases compressed with
        | false => exact ⟨stat, hnew⟩
        | true =>
          obtain ⟨s, hform⟩ := h.named _ (hseen file hget)
          exact ⟨s, hform.append _⟩
  · -- the times of a session only grow
    obtain ⟨hn, ⟨c, hi⟩, hs⟩ := hform
    have hset : ∀ file, (Prune.addForm bySession name sessionId compressed stat).get sessionId =
        some file → (sessionId, file) ∈ Prune.addForm bySession name sessionId compressed stat :=
      fun file hget => (JsMap.mem_iff_get (JsMap.nodup_keys_set h.nodup)).2 hget
    have hnow := hset _ ((JsMap.get_set).trans (if_pos rfl))
    rcases List.mem_append.1 hn with hn | hn
    · obtain ⟨file, hfile, hle⟩ := h.bound i n s ⟨hn, ⟨c, hi⟩, hs⟩
      by_cases heq : i = sessionId
      · subst heq
        refine ⟨_, hnow, hle.trans ?_⟩
        rw [(JsMap.mem_iff_get h.nodup).1 hfile]
        exact le_max_left _ _
      · refine ⟨file, (JsMap.mem_iff_get (JsMap.nodup_keys_set h.nodup)).2 ?_, hle⟩
        rw [JsMap.get_set, if_neg heq]
        exact (JsMap.mem_iff_get h.nodup).1 hfile
    · obtain rfl := List.mem_singleton.1 hn
      obtain ⟨rfl, rfl⟩ := Prod.mk.inj (Option.some.inj (hi.symm.trans hid))
      obtain rfl := Option.some.inj (hs.symm.trans hstat)
      exact ⟨_, hnow, le_max_right _ _⟩
  · rcases hmem e he with ⟨hold, -⟩ | rfl
    · rcases h.attained e hold with hzero | ⟨n, s, hform, heq⟩
      · exact Or.inl hzero
      · exact Or.inr ⟨n, s, hform.append _, heq⟩
    · dsimp only
      rcases max_choice (((bySession.get sessionId).map (·.mtime)).getD 0) stat.mtimeMs with hmax | hmax
      · rw [hmax]
        cases hget : bySession.get sessionId with
        | none => exact Or.inl rfl
        | some file =>
          rcases h.attained _ (hseen file hget) with hzero | ⟨n, s, hform, heq⟩
          · exact Or.inl hzero
          · exact Or.inr ⟨n, s, hform.append _, heq⟩
      · rw [hmax]
        exact Or.inr ⟨name, stat, hnew, rfl⟩
  · rcases hmem e he with ⟨hold, -⟩ | rfl
    · exact h.nonneg e hold
    · refine le_max_of_le_left ?_
      cases hget : bySession.get sessionId with
      | none => exact le_rfl
      | some file => exact h.nonneg _ (hseen file hget)

/-- **How the files of sessions are taken together.** -/
theorem grouped_groupSessions (sys : FileSystem) (files : OfficeFiles) (agentDir names : List JsString) :
    Grouped sys files agentDir names (groupSessions sys files agentDir names) := by
  induction names using List.reverseRecOn with
  | nil =>
    exact ⟨List.nodup_nil, fun _ h => absurd h List.not_mem_nil,
      fun _ h => absurd h List.not_mem_nil, fun _ _ _ h => absurd h.1 List.not_mem_nil,
      fun _ h => absurd h List.not_mem_nil, fun _ h => absurd h List.not_mem_nil⟩
  | append_singleton names name ih =>
    rw [groupSessions, List.foldl_append, List.foldl_cons, List.foldl_nil]
    split
    · rename_i i c s hid hstat
      exact ih.addForm hid hstat
    · rename_i hno
      refine ih.skip fun i s hform => ?_
      obtain ⟨-, ⟨c, hid⟩, hstat⟩ := hform
      exact hno i c s hid hstat

end Sessions

/-! ## The sessions of an agent -/

section Agents

variable {logs : List JsString} {agentId sessionId : JsString} {file : SessionFile} {index : ℕ}

variable (sys files deps agentId)

/-- The names of the transcripts of an agent. -/
def transcriptNames : List JsString :=
  (((readdirSync sys files (deps.logsDir ++ [agentId])).getD []).filter fun d =>
    isFile d && (sessionIdOfTranscript d.1).isSome).map Prod.fst

/-- The sessions of an agent, by their ids. -/
def sessionTable : JsMap JsString SessionFile :=
  groupSessions sys files (deps.logsDir ++ [agentId]) (transcriptNames sys files deps agentId)

lemma grouped_sessionTable :
    Grouped sys files (deps.logsDir ++ [agentId]) (transcriptNames sys files deps agentId)
      (sessionTable sys files deps agentId) := grouped_groupSessions _ _ _ _

lemma nodup_sessionFiles : ((sessionFiles sys files deps agentId).map (·.sessionId)).Nodup := by
  have hgrouped := grouped_sessionTable sys files deps agentId
  have hperm : (sessionFiles sys files deps agentId).Perm
      ((sessionTable sys files deps agentId).map Prod.snd) := List.mergeSort_perm _ _
  rw [(hperm.map _).nodup_iff, List.map_map]
  have hkeys : (sessionTable sys files deps agentId).map ((·.sessionId) ∘ Prod.snd) =
      (sessionTable sys files deps agentId).map Prod.fst :=
    List.map_congr_left fun e he => hgrouped.key e he
  rw [hkeys]
  exact hgrouped.nodup

variable {sys files deps agentId}

lemma mem_sessionFiles :
    file ∈ sessionFiles sys files deps agentId ↔
      (file.sessionId, file) ∈ sessionTable sys files deps agentId := by
  have hkey := (grouped_sessionTable sys files deps agentId).key
  change file ∈ ((sessionTable sys files deps agentId).map Prod.snd).mergeSort _ ↔ _
  rw [List.mem_mergeSort, List.mem_map]
  constructor
  · rintro ⟨e, he, rfl⟩
    rw [hkey e he]
    exact he
  · exact fun h => ⟨_, h, rfl⟩

lemma realpath_agent {b : Bool} (hlogs : FileTree.realpath files.tree sys.links deps.logsDir = some logs)
    (hdir : FileTree.node files.tree logs = some (.directory true))
    (hagent : FileTree.node files.tree (logs ++ [agentId]) = some (.directory b)) :
    FileTree.realpath files.tree sys.links (deps.logsDir ++ [agentId]) = some (logs ++ [agentId]) :=
  FileTree.realpath_concat hlogs hdir hagent

lemma isForm_iff (hlogs : FileTree.realpath files.tree sys.links deps.logsDir = some logs)
    (hdir : FileTree.node files.tree logs = some (.directory true))
    (hagent : FileTree.node files.tree (logs ++ [agentId]) = some (.directory true))
    {name : JsString} {stat : LogFile} :
    IsForm sys files (deps.logsDir ++ [agentId]) (transcriptNames sys files deps agentId) sessionId
        name stat ↔
      (∃ compressed, sessionIdOfTranscript name = some (sessionId, compressed)) ∧
        FileTree.node files.tree (logs ++ [agentId, name]) = some (.file stat) := by
  have hpath := realpath_agent hlogs hdir hagent
  have hplace : logs ++ [agentId, name] = logs ++ [agentId] ++ [name] := by simp
  rw [IsForm, lstatFile_eq hpath hagent, hplace]
  refine ⟨fun h => h.2, fun h => ⟨?_, h⟩⟩
  obtain ⟨⟨compressed, hid⟩, hnode⟩ := h
  refine List.mem_map.2 ⟨(name, .file stat), List.mem_filter.2 ⟨?_, ?_⟩, rfl⟩
  · rw [readdirSync, FileTree.readdir, hpath, Option.bind_some, hagent]
    exact FileTree.mem_children.2 (FileTree.mem_of_node hnode (by simp))
  · rw [hid]
    rfl

lemma listable_of_mem {b : Bool}
    (hlogs : FileTree.realpath files.tree sys.links deps.logsDir = some logs)
    (hdir : FileTree.node files.tree logs = some (.directory true))
    (hagent : FileTree.node files.tree (logs ++ [agentId]) = some (.directory b))
    (h : file ∈ sessionFiles sys files deps agentId) : b = true := by
  obtain ⟨stat, hform⟩ := (grouped_sessionTable sys files deps agentId).named _ (mem_sessionFiles.1 h)
  cases b with
  | true => rfl
  | false =>
    have hnames : transcriptNames sys files deps agentId = [] := by
      rw [transcriptNames, readdirSync, FileTree.readdir, realpath_agent hlogs hdir hagent,
        Option.bind_some, hagent]
      rfl
    have hmem := hform.1
    rw [hnames] at hmem
    exact absurd hmem List.not_mem_nil

structure RowSpec (sys : FileSystem) (files : OfficeFiles) (deps : PruneDeps) (agentId : JsString)
    (file : SessionFile) (index : ℕ) (logs : List JsString) : Prop where
  prefixed : (js "agent-").isPrefixOf agentId = true
  path : FileTree.realpath files.tree sys.links deps.logsDir = some logs
  directory : FileTree.node files.tree logs = some (.directory true)
  agent : FileTree.node files.tree (logs ++ [agentId]) = some (.directory true)
  place : (sessionFiles sys files deps agentId)[index]? = some file

lemma exists_of_mem_rows (h : (agentId, file, index) ∈ transcriptRows sys files deps) :
    ∃ logs, RowSpec sys files deps agentId file index logs := by
  obtain ⟨agent, hagent, hrow⟩ := List.mem_flatMap.1 h
  obtain ⟨e, hzip, heq⟩ := List.mem_map.1 hrow
  cases heq
  obtain ⟨hagentName, logs, listable, hlogs, hdir, hnode⟩ := mem_listAgentDirs.1 hagent
  have hplace := List.mk_mem_zipIdx_iff_getElem?.1 hzip
  obtain rfl := listable_of_mem hlogs hdir hnode (List.mem_of_getElem? hplace)
  exact ⟨logs, hagentName, hlogs, hdir, hnode, hplace⟩

lemma RowSpec.isTranscript_iff (h : RowSpec sys files deps agentId file index logs)
    {place : List JsString} {stat : LogFile} :
    IsTranscript sys files deps agentId sessionId place stat ↔
      ∃ name, place = logs ++ [agentId, name] ∧
        IsForm sys files (deps.logsDir ++ [agentId]) (transcriptNames sys files deps agentId) sessionId
          name stat := by
  constructor
  · rintro ⟨logs', name, compressed, hlogs, rfl, -, hid, hnode⟩
    obtain rfl := Option.some.inj (hlogs.symm.trans h.path)
    exact ⟨name, rfl, (isForm_iff h.path h.directory h.agent).2 ⟨⟨compressed, hid⟩, hnode⟩⟩
  · rintro ⟨name, rfl, hform⟩
    obtain ⟨⟨compressed, hid⟩, hnode⟩ := (isForm_iff h.path h.directory h.agent).1 hform
    exact ⟨logs, name, compressed, h.path, rfl, h.prefixed, hid, hnode⟩

lemma spareTranscript_eq_none :
    spareTranscript deps policy agentId file index = none ↔
      file.sessionId ∉ deps.activeSessionIds ∧
        (agentId ∈ deps.killedAgentIds ∨ policy.keepPerAgent ≤ index) ∧
        file.sessionId ∉ forkAncestors deps agentId ∧
        file.mtime ≤ deps.now - policy.olderThanDays * DAY_MS := by
  unfold spareTranscript
  by_cases hkilled : agentId ∈ deps.killedAgentIds
  · have hindex : ¬(index : ℚ) < 0 := not_lt.2 (Nat.cast_nonneg index)
    simp only [hkilled, hindex, List.contains_iff_mem, if_true, if_false]
    split_ifs <;> simp_all
  · simp only [hkilled, List.contains_iff_mem, if_false]
    split_ifs <;> simp_all

lemma isSafeId_of_transcript {name : JsString} {compressed : Bool}
    (h : sessionIdOfTranscript name = some (sessionId, compressed)) : isSafeId sessionId = true := by
  unfold sessionIdOfTranscript at h
  dsimp only at h
  split_ifs at h with hgz hsafe hplain hsafe
  · exact (Prod.mk.inj (Option.some.inj h)).1 ▸ hsafe
  · exact (Prod.mk.inj (Option.some.inj h)).1 ▸ hsafe

lemma RowSpec.isForm (h : RowSpec sys files deps agentId file index logs) : ∃ stat,
    IsForm sys files (deps.logsDir ++ [agentId]) (transcriptNames sys files deps agentId)
      file.sessionId file.name stat :=
  (grouped_sessionTable sys files deps agentId).named _
    (mem_sessionFiles.1 (List.mem_of_getElem? h.place))

lemma RowSpec.isTranscript (h : RowSpec sys files deps agentId file index logs) :
    ∃ stat, IsTranscript sys files deps agentId file.sessionId (logs ++ [agentId, file.name]) stat :=
  h.isForm.imp fun _ hform => h.isTranscript_iff.2 ⟨_, rfl, hform⟩

lemma RowSpec.sessionTime (h : RowSpec sys files deps agentId file index logs) :
    SessionTime sys files deps agentId file.sessionId file.mtime := by
  have hmem := mem_sessionFiles.1 (List.mem_of_getElem? h.place)
  have hgrouped := grouped_sessionTable sys files deps agentId
  refine ⟨hgrouped.nonneg _ hmem, fun place stat hstat => ?_, ?_⟩
  · obtain ⟨name, -, hform⟩ := h.isTranscript_iff.1 hstat
    obtain ⟨f, hf, hle⟩ := hgrouped.bound _ _ _ hform
    have hsame := (JsMap.mem_iff_get hgrouped.nodup).1 hf
    rw [(JsMap.mem_iff_get hgrouped.nodup).1 hmem] at hsame
    rw [Option.some.inj hsame]
    exact hle
  · refine (hgrouped.attained _ hmem).imp_right ?_
    rintro ⟨name, stat, hform, heq⟩
    exact ⟨_, stat, h.isTranscript_iff.2 ⟨name, rfl, hform⟩, heq⟩

/-- The sessions in front of one are other ones, and not older. -/
lemma RowSpec.front (h : RowSpec sys files deps agentId file index logs) :
    ∃ others : List JsString, others.Nodup ∧ file.sessionId ∉ others ∧ others.length = index ∧
      ∀ other ∈ others, ∃ g j, RowSpec sys files deps agentId g j logs ∧ g.sessionId = other ∧
        file.mtime ≤ g.mtime := by
  obtain ⟨hindex, hfile⟩ := List.getElem?_eq_some_iff.1 h.place
  have hdrop : file ∈ (sessionFiles sys files deps agentId).drop index :=
    List.mem_drop_iff_getElem.2 ⟨0, by simpa using hindex, by simpa using hfile⟩
  have hsplit := (List.take_append_drop index (sessionFiles sys files deps agentId)).symm
  have hnodup := nodup_sessionFiles sys files deps agentId
  rw [hsplit, List.map_append] at hnodup
  obtain ⟨hfront, -, hapart⟩ := List.nodup_append.1 hnodup
  refine ⟨_, hfront, fun htaken => hapart _ htaken _ (List.mem_map_of_mem hdrop) rfl, ?_, ?_⟩
  · rw [List.length_map, List.length_take, Nat.min_eq_left hindex.le]
  · intro other hother
    obtain ⟨g, hg, rfl⟩ := List.mem_map.1 hother
    obtain ⟨j, hj⟩ := List.mem_iff_getElem?.1 (List.mem_of_mem_take hg)
    have hsorted : (sessionFiles sys files deps agentId).Pairwise fun a b =>
        decide (b.mtime ≤ a.mtime) = true :=
      List.pairwise_mergeSort (fun a b c hab hbc => by simp only [decide_eq_true_eq] at *; linarith)
        (fun a b => by simpa using le_total b.mtime a.mtime) _
    rw [hsplit] at hsorted
    exact ⟨g, j, { h with place := hj }, rfl,
      of_decide_eq_true ((List.pairwise_append.1 hsorted).2.2 g hg file hdrop)⟩

/-- **No guard spares a session** that is a candidate of the plan. -/
theorem RowSpec.mayGo (h : RowSpec sys files deps agentId file index logs) {plan : PrunePlan}
    (hspare : spareTranscript deps plan.policy agentId file index = none)
    (hplan : ∃ c ∈ plan.candidates, c.path = joinNames agentId file.name ∧ c.mtimeMs = file.mtime) :
    MayGo sys files deps plan agentId file.sessionId := by
  obtain ⟨hactive, hnew, hfork, hold⟩ := spareTranscript_eq_none.1 hspare
  obtain ⟨stat, hstat⟩ := h.isTranscript
  obtain ⟨c, hc, hpath, hmtime⟩ := hplan
  refine ⟨hactive, fun e he hforked => hfork ?_, hnew.imp_right fun hle => ?_, fun place stat hstat =>
    (h.sessionTime.2.1 place stat hstat).trans hold, c, hc, hmtime ▸ h.sessionTime, logs, file.name,
    stat, hpath, hstat⟩
  · -- a safe id is not empty
    have hid : file.sessionId ≠ [] := by
      obtain ⟨-, name, compressed, -, -, -, hid, -⟩ := hstat
      intro hnil
      have hsafe := isSafeId_of_transcript hid
      rw [hnil] at hsafe
      exact absurd hsafe (by decide)
    exact List.mem_filterMap.2 ⟨e, he, by rw [hforked, Option.filter_some, if_pos (by simpa using hid)]⟩
  · obtain ⟨others, hnodup, hother, hlength, hfront⟩ := h.front
    refine ⟨others, hnodup, hother, hlength ▸ hle, fun other hmem => ?_⟩
    obtain ⟨g, j, hg, rfl, htime⟩ := hfront other hmem
    obtain ⟨stat', hstat'⟩ := hg.isTranscript
    exact ⟨⟨_, stat', hstat'⟩, _, _, h.sessionTime, hg.sessionTime, htime⟩

end Agents

/-! ## Candidates -/

section Candidates

variable {α : Type*} {target : PruneTarget} {candidate : PruneCandidate}

lemma foldl_draftFile_fst (reason : α → Option PruneSkipReason) (candidateOf : α → PruneCandidate)
    (rows : List α) (draft : Draft) :
    (rows.foldl (fun draft row => draftFile draft (reason row) (candidateOf row)) draft).1 =
      draft.1 ++ (rows.filter fun row => (reason row).isNone).map candidateOf := by
  induction rows generalizing draft with
  | nil => simp
  | cons row rows ih =>
    rw [List.foldl_cons, ih]
    cases hreason : reason row with
    | none => simp [draftFile, hreason]
    | some r => simp [draftFile, hreason]

lemma foldl_transcriptRows (draft : Draft) :
    (listAgentDirs sys files deps).foldl (fun draft agentId =>
      (sessionFiles sys files deps agentId).zipIdx.foldl (fun draft e =>
        draftFile draft (spareTranscript deps policy agentId e.1 e.2)
          (transcriptCandidate deps agentId e.1)) draft) draft =
      (transcriptRows sys files deps).foldl (fun draft row =>
        draftFile draft (rowReason deps policy row) (transcriptCandidate deps row.1 row.2.1)) draft := by
  rw [transcriptRows, List.foldl_flatMap]
  simp only [List.foldl_map]
  rfl

lemma perm_planTranscripts (ledger : SkipLedger) :
    (planTranscripts sys files deps policy ledger).1.candidates.Perm
      (((transcriptRows sys files deps).filter fun row => (rowReason deps policy row).isNone).map
        fun row => transcriptCandidate deps row.1 row.2.1) := by
  rw [planTranscripts]
  dsimp only
  rw [foldl_transcriptRows]
  refine (List.mergeSort_perm _ _).trans ?_
  rw [foldl_draftFile_fst, List.nil_append]

/-- A candidate's file lies in a directory. -/
def Located (sys : FileSystem) (files : OfficeFiles) (root : List JsString) (path : JsString)
    (dir : List JsString) (name : JsString) : Prop :=
  ∃ parent b, resolvePath root path = parent ++ [name] ∧
    FileTree.realpath files.tree sys.links parent = some dir ∧
    FileTree.node files.tree dir = some (.directory b)

lemma Located.unique {root dir dir' : List JsString} {path name name' : JsString}
    (h : Located sys files root path dir name) (h' : Located sys files root path dir' name') :
    dir = dir' ∧ name = name' := by
  obtain ⟨parent, b, hpath, hdir, -⟩ := h
  obtain ⟨parent', b', hpath', hdir', -⟩ := h'
  obtain ⟨rfl, hname⟩ := List.append_inj' (hpath.symm.trans hpath') rfl
  exact ⟨Option.some.inj (hdir.symm.trans hdir'), (List.cons.inj hname).1⟩

lemma RowSpec.located {agentId : JsString} {file : SessionFile} {index : ℕ} {logs : List JsString}
    (h : RowSpec sys files deps agentId file index logs) :
    Located sys files deps.logsDir (transcriptCandidate deps agentId file).path (logs ++ [agentId])
      file.name := by
  obtain ⟨stat, hform⟩ := h.isForm
  have hnode := ((isForm_iff h.path h.directory h.agent).1 hform).2
  have hname : IsFileName file.name :=
    (files.names _ (FileTree.mem_of_node hnode (by simp))).2 _ (by simp)
  refine ⟨deps.logsDir ++ [agentId], true, ?_, realpath_agent h.path h.directory h.agent, h.agent⟩
  rw [transcriptCandidate, resolvePath_join (isFileName_agent h.agent), resolvePath_name hname]

/-- The last directory of other files is not one of an agent. -/
def IsElsewhere (dir : List JsString) : Prop :=
  ∃ base s, dir = base ++ [s] ∧ (js "agent-").isPrefixOf s = false

lemma forall_draftFile {P : PruneCandidate → Prop} {draft : Draft} (h : ∀ c ∈ draft.1, P c)
    (reason : Option PruneSkipReason) (hc : reason = none → P candidate) :
    ∀ c ∈ (draftFile draft reason candidate).1, P c := by
  intro c hmem
  cases reason with
  | some r => exact h c hmem
  | none =>
    rcases List.mem_append.1 hmem with hmem | hmem
    · exact h c hmem
    · rw [List.mem_singleton.1 hmem]
      exact hc rfl

lemma forall_foldl {P : PruneCandidate → Prop} {step : Draft → α → Draft} (rows : List α)
    (hstep : ∀ draft, ∀ row ∈ rows, (∀ c ∈ draft.1, P c) → ∀ c ∈ (step draft row).1, P c)
    {draft : Draft} (h : ∀ c ∈ draft.1, P c) : ∀ c ∈ (rows.foldl step draft).1, P c := by
  induction rows generalizing draft with
  | nil => exact h
  | cons row rows ih =>
    exact ih (fun draft r hr => hstep draft r (List.mem_cons_of_mem _ hr))
      (hstep draft row List.mem_cons_self h)

lemma located_attachment (h : candidate ∈ (planAttachments sys files deps policy newLedger).1.candidates) :
    ∃ dir name, Located sys files deps.logsDir candidate.path dir name ∧ IsElsewhere dir := by
  rw [planAttachments] at h
  dsimp only at h
  refine forall_foldl (P := fun c => ∃ dir name, Located sys files deps.logsDir c.path dir name ∧
    IsElsewhere dir) _ ?_ (fun c hc => absurd hc List.not_mem_nil) candidate
      ((List.mergeSort_perm _ _).mem_iff.1 h)
  intro draft agentId hagent hdraft
  split_ifs with hreal
  · exact hdraft
  · rw [Bool.not_eq_true, Bool.not_eq_false'] at hreal
    have hsplit : deps.logsDir ++ [agentId, js "files"] = deps.logsDir ++ [agentId] ++ [js "files"] := by
      simp
    rw [hsplit] at hreal ⊢
    obtain ⟨base, b, b', hbase, hdir, hfiles⟩ := exists_of_isRealDir hreal
    have hpath := FileTree.realpath_concat hbase hdir hfiles
    obtain ⟨-, logs, listable, hlogs, hlogsDir, hnode⟩ := mem_listAgentDirs.1 hagent
    refine forall_foldl _ (fun draft entry hentry hdraft => ?_) hdraft
    split
    · rename_i stat _ hstat
      refine forall_draftFile hdraft _ fun _ => ⟨base ++ [js "files"], entry.1,
        ⟨deps.logsDir ++ [agentId] ++ [js "files"], b', ?_, hpath, hfiles⟩, base, js "files", rfl,
        by decide⟩
      have hname : IsFileName entry.1 := by
        have hfile := (lstatFile_eq hpath hfiles).1 hstat
        exact (files.names _ (FileTree.mem_of_node hfile (by simp))).2 _ (by simp)
      rw [resolvePath_join (isFileName_agent hnode), resolvePath_join (by
        exact ⟨by decide, by decide, by decide, by decide⟩), resolvePath_name hname]
    · exact hdraft

/-- Where a file of a directory that is pruned by age lies. -/
lemma located_byAge {isLog isLive : JsString → Bool}
    (htarget : target = .tokenLogs ∨ target = .terminalRecordings)
    (h : candidate ∈ (planByAge sys files deps policy target isLog isLive newLedger).1.candidates) :
    ∃ dir name, Located sys files (targetRoot target deps) candidate.path dir name ∧
      IsElsewhere dir := by
  have hroot : ∃ s, targetRoot target deps = deps.stateRoot ++ [s] ∧
      (js "agent-").isPrefixOf s = false := by
    rcases htarget with rfl | rfl
    · exact ⟨_, rfl, by decide⟩
    · exact ⟨_, rfl, by decide⟩
  obtain ⟨s, hs, helse⟩ := hroot
  rw [planByAge] at h
  dsimp only at h
  refine forall_foldl (P := fun c => ∃ dir name, Located sys files (targetRoot target deps) c.path dir
    name ∧ IsElsewhere dir) _ ?_ (fun c hc => absurd hc List.not_mem_nil) candidate
      ((List.mergeSort_perm _ _).mem_iff.1 h)
  intro draft name hname hdraft
  split_ifs at hname with hreal
  · by_cases hlog : (!isLog name) = true
    · rw [if_pos hlog]
      exact hdraft
    · rw [if_neg hlog]
      split
      · exact hdraft
      · rename_i stat hstat
        rw [hs] at hreal hstat
        obtain ⟨base, b, b', hbase, hdir, hnode⟩ := exists_of_isRealDir hreal
        have hpath := FileTree.realpath_concat hbase hdir hnode
        have hfile := (lstatFile_eq hpath hnode).1 hstat
        have hproper : IsFileName name :=
          (files.names _ (FileTree.mem_of_node hfile (by simp))).2 _ (by simp)
        refine forall_draftFile hdraft _ fun _ => ⟨base ++ [s], name,
          ⟨deps.stateRoot ++ [s], b', ?_, hpath, hnode⟩, base, s, rfl, helse⟩
        rw [hs, resolvePath_name hproper]
  · exact absurd hname List.not_mem_nil

end Candidates

/-! ## The deletion -/

section Deletion

variable {cur : OfficeFiles} {root realRoot parent dir : List JsString} {name sessionId : JsString}
  {compressed : Bool} {target : PruneTarget}

lemma sessionId_compressed (stem : JsString) :
    sessionIdOfTranscript (stem ++ COMPRESSED_TRANSCRIPT_SUFFIX) =
      if isSafeId stem then some (stem, true) else none := by
  rw [sessionIdOfTranscript, if_pos (by simp [List.isSuffixOf_iff_suffix])]
  simp

lemma sessionId_plain (stem : JsString) : sessionIdOfTranscript (stem ++ TRANSCRIPT_SUFFIX) =
    if isSafeId stem then some (stem, false) else none := by
  have hno : ¬COMPRESSED_TRANSCRIPT_SUFFIX.isSuffixOf (stem ++ TRANSCRIPT_SUFFIX) = true := by
    rw [List.isSuffixOf_iff_suffix]
    rintro ⟨more, hmore⟩
    have hlast := congrArg List.getLast? hmore
    rw [List.getLast?_append_of_ne_nil _ (by decide), List.getLast?_append_of_ne_nil _ (by decide)]
      at hlast
    exact absurd hlast (by decide)
  rw [sessionIdOfTranscript, if_neg hno, if_pos (by simp [List.isSuffixOf_iff_suffix])]
  simp

/-- The other form of a session's file is of the same session. -/
lemma sessionId_twinName (h : sessionIdOfTranscript name = some (sessionId, compressed)) :
    ∃ c, sessionIdOfTranscript (twinName name) = some (sessionId, c) := by
  have hsafe := isSafeId_of_transcript h
  by_cases hgz : COMPRESSED_TRANSCRIPT_SUFFIX.isSuffixOf name = true
  · obtain ⟨stem, rfl⟩ := List.isSuffixOf_iff_suffix.1 hgz
    rw [sessionId_compressed] at h
    split_ifs at h
    obtain rfl := (Prod.mk.inj (Option.some.inj h)).1
    have hsplit : stem ++ COMPRESSED_TRANSCRIPT_SUFFIX = stem ++ TRANSCRIPT_SUFFIX ++ js ".gz" := by
      rw [List.append_assoc]
      rfl
    refine ⟨false, ?_⟩
    rw [twinName, if_pos hgz, hsplit, List.length_append, Nat.add_sub_cancel, List.take_left,
      sessionId_plain, if_pos hsafe]
  · have hplain : TRANSCRIPT_SUFFIX.isSuffixOf name = true := by
      by_contra hno
      rw [sessionIdOfTranscript, if_neg hgz, if_neg hno] at h
      cases h
    obtain ⟨stem, rfl⟩ := List.isSuffixOf_iff_suffix.1 hplain
    rw [sessionId_plain] at h
    split_ifs at h
    obtain rfl := (Prod.mk.inj (Option.some.inj h)).1
    refine ⟨true, ?_⟩
    rw [twinName, if_neg hgz, List.append_assoc]
    exact (sessionId_compressed stem).trans (if_pos hsafe)

def Loses (cur : OfficeFiles) (place : List JsString) (next : OfficeFiles) : Prop :=
  next = cur.unlink place ∧ place ≠ [] ∧ ∃ file, FileTree.node cur.tree place = some (.file file)

lemma Loses.fewer {place : List JsString} {next : OfficeFiles} (h : Loses cur place next) :
    FileTree.Fewer cur.tree next.tree := by
  obtain ⟨rfl, hne, file, hfile⟩ := h
  exact FileTree.fewer_unlink hne hfile

lemma Loses.eq_of_gone {place p : List JsString} {next : OfficeFiles} (h : Loses cur place next)
    (hgone : FileTree.node next.tree p = none) :
    FileTree.node cur.tree p = none ∨ p = place := by
  obtain ⟨rfl, hne, -⟩ := h
  rw [OfficeFiles.unlink, FileTree.node_unlink hne] at hgone
  split_ifs at hgone with hp
  · exact Or.inr hp
  · exact Or.inl hgone

lemma loses_unlinkSync {b : Bool} {next : OfficeFiles}
    (hparent : FileTree.realpath cur.tree sys.links parent = some dir)
    (hdir : FileTree.node cur.tree dir = some (.directory b))
    (h : unlinkSync sys cur (parent ++ [name]) = .ok next) : Loses cur (dir ++ [name]) next := by
  rw [unlinkSync, FileTree.lstat_concat hparent hdir] at h
  cases hnode : FileTree.node cur.tree (dir ++ [name]) with
  | none =>
    rw [hnode] at h
    exact nomatch h
  | some n =>
    rw [hnode] at h
    cases n with
    | file file =>
      dsimp only [Option.map_some] at h
      split at h
      · exact nomatch h
      · exact ⟨(Except.ok.inj h).symm, by simp, file, hnode⟩
    | _ => exact nomatch h

lemma unlinkTranscriptTwin_cases {b : Bool}
    (hparent : FileTree.realpath cur.tree sys.links parent = some dir)
    (hdir : FileTree.node cur.tree dir = some (.directory b)) :
    unlinkTranscriptTwin sys cur (parent ++ [name]) = cur ∨
      Loses cur (dir ++ [twinName name]) (unlinkTranscriptTwin sys cur (parent ++ [name])) := by
  unfold unlinkTranscriptTwin
  rw [List.dropLast_concat, List.getLastD_concat]
  dsimp only
  split
  · exact Or.inl rfl
  · split
    · rename_i next hnext
      exact Or.inr (loses_unlinkSync hparent hdir hnext)
    · exact Or.inl rfl

/-- The files of a candidate that both plans have. -/
def OfCandidate (approved : JsMap JsString PruneCandidate) (candidate : PruneCandidate)
    (target : PruneTarget) (dir : List JsString) (name : JsString) (p : List JsString) : Prop :=
  ∃ live, approved.get candidate.path = some live ∧ live.mtimeMs = candidate.mtimeMs ∧
    (p = dir ++ [name] ∨ target = .transcripts ∧ p = dir ++ [twinName name])

/-- **A candidate is refused, or its files are deleted.** -/
theorem applyCandidate_cases (approved : JsMap JsString PruneCandidate)
    (sparedBy : JsMap JsString PruneSkipReason) (applied : Applied) (candidate : PruneCandidate)
    (hfewer : FileTree.Fewer files.tree applied.1.tree)
    (hlocated : ∀ live, approved.get candidate.path = some live →
      Located sys files root candidate.path dir name) :
    FileTree.Fewer files.tree (applyCandidate sys target root realRoot approved sparedBy applied
        candidate).1.tree ∧
      ∀ p, FileTree.node (applyCandidate sys target root realRoot approved sparedBy applied
          candidate).1.tree p = none →
        FileTree.node applied.1.tree p = none ∨
          OfCandidate approved candidate target dir name p := by
  have hrefused : FileTree.Fewer files.tree applied.1.tree ∧
      ∀ p, FileTree.node applied.1.tree p = none →
        FileTree.node applied.1.tree p = none ∨
          OfCandidate approved candidate target dir name p :=
    ⟨hfewer, fun _ hp => Or.inl hp⟩
  unfold applyCandidate
  dsimp only
  split
  · exact hrefused
  · rename_i live hlive
    by_cases hmtime : live.mtimeMs = candidate.mtimeMs
    · rw [if_neg (not_not.2 hmtime)]
      by_cases hparents : (!parentInsideLogsRoot sys applied.1 realRoot (resolvePath root candidate.path) ||
          !noSymlinkParents sys applied.1 realRoot candidate.path) = true
      · rw [if_pos hparents]
        exact hrefused
      · rw [if_neg hparents]
        split
        · exact hrefused
        · split
          · exact hrefused
          · rename_i next hnext
            obtain ⟨parent, b, hpath, hparent, hdir⟩ := hlocated live hlive
            have hdir' := hfewer.node hdir
            have hparent' := hfewer.realpath hparent hdir
            rw [hpath] at hnext ⊢
            have hloses := loses_unlinkSync hparent' hdir' hnext
            have hnextFewer := hfewer.trans hloses.fewer
            have hname : ∀ p, FileTree.node next.tree p = none →
                FileTree.node applied.1.tree p = none ∨
                  OfCandidate approved candidate target dir name p :=
              fun p hp => (hloses.eq_of_gone hp).imp_right fun hp => ⟨live, hlive, hmtime, Or.inl hp⟩
            by_cases htranscripts : target = .transcripts
            · rw [if_pos htranscripts]
              have hdir'' := hnextFewer.node hdir
              have hparent'' := hnextFewer.realpath hparent hdir
              rcases unlinkTranscriptTwin_cases hparent'' hdir'' with htwin | htwin
              · rw [htwin]
                exact ⟨hnextFewer, hname⟩
              · refine ⟨hnextFewer.trans htwin.fewer, fun p hp => ?_⟩
                rcases htwin.eq_of_gone hp with hp | hp
                · exact hname p hp
                · exact Or.inr ⟨live, hlive, hmtime, Or.inr ⟨htranscripts, hp⟩⟩
            · rw [if_neg htranscripts]
              exact ⟨hnextFewer, hname⟩
        · exact hrefused
    · rw [if_pos hmtime]
      exact hrefused

end Deletion

/-! ## What is deleted -/

section Deleted

variable {plan : PrunePlan} {candidate live : PruneCandidate} {agentId sessionId : JsString}
  {place : List JsString} {file : LogFile}

lemma mem_of_approved {candidates : List PruneCandidate} {path : JsString}
    (h : JsMap.get (candidates.foldl (fun approved c => approved.set c.path c)
      ([] : JsMap JsString PruneCandidate)) path = some live) :
    live ∈ candidates ∧ live.path = path := by
  have hnodup : ((candidates.foldl (fun (approved : JsMap JsString PruneCandidate) c =>
      approved.set c.path c) []).map Prod.fst).Nodup :=
    JsMap.nodup_keys_foldl candidates (fun _ _ hm => JsMap.nodup_keys_set hm) List.nodup_nil
  have hentries : ∀ e ∈ candidates.foldl (fun (approved : JsMap JsString PruneCandidate) c =>
      approved.set c.path c) [], e.2 ∈ candidates ∧ e.2.path = e.1 := by
    refine JsMap.forall_mem_foldl candidates (fun m c hc hm e he => ?_) nofun
    exact (JsMap.mem_set he).elim (hm e) fun heq => heq ▸ ⟨hc, rfl⟩
  exact hentries (path, live) ((JsMap.mem_iff_get hnodup).2 h)

lemma exists_of_mem_transcripts
    (h : candidate ∈ (planTranscripts sys files deps policy newLedger).1.candidates) :
    ∃ agentId file index logs, RowSpec sys files deps agentId file index logs ∧
      spareTranscript deps policy agentId file index = none ∧
      candidate = transcriptCandidate deps agentId file := by
  obtain ⟨⟨agentId, file, index⟩, hrow, rfl⟩ :=
    List.mem_map.1 ((perm_planTranscripts newLedger).mem_iff.1 h)
  obtain ⟨hmem, hreason⟩ := List.mem_filter.1 hrow
  obtain ⟨logs, hspec⟩ := exists_of_mem_rows hmem
  exact ⟨agentId, file, index, logs, hspec, Option.isNone_iff_eq_none.1 hreason, rfl⟩

lemma exists_located {target : PruneTarget}
    (h : candidate ∈ (planPruneDetailed sys files deps policy target).1.candidates) :
    ∃ dir name, Located sys files (targetRoot target deps) candidate.path dir name ∧
      (target ≠ .transcripts → IsElsewhere dir) := by
  cases target with
  | transcripts =>
    obtain ⟨agentId, file, index, logs, hspec, -, rfl⟩ := exists_of_mem_transcripts h
    exact ⟨_, _, hspec.located, fun hne => absurd rfl hne⟩
  | attachments =>
    obtain ⟨dir, name, hlocated, helse⟩ := located_attachment h
    exact ⟨dir, name, hlocated, fun _ => helse⟩
  | tokenLogs =>
    obtain ⟨dir, name, hlocated, helse⟩ := located_byAge (Or.inl rfl) h
    exact ⟨dir, name, hlocated, fun _ => helse⟩
  | terminalRecordings =>
    obtain ⟨dir, name, hlocated, helse⟩ := located_byAge (Or.inr rfl) h
    exact ⟨dir, name, hlocated, fun _ => helse⟩

def IsPlanned (sys : FileSystem) (files : OfficeFiles) (deps : PruneDeps) (plan : PrunePlan)
    (place : List JsString) : Prop :=
  ∃ live ∈ (planPruneDetailed sys files deps plan.policy plan.target).1.candidates,
    (∃ c ∈ plan.candidates, c.path = live.path ∧ c.mtimeMs = live.mtimeMs) ∧
    ∃ dir name, Located sys files (targetRoot plan.target deps) live.path dir name ∧
      (place = dir ++ [name] ∨ plan.target = .transcripts ∧ place = dir ++ [twinName name])

/-- **What applying a plan deletes**: files that both plans have.

**Proof sketch.** The fresh plan is made before the first file is deleted. The directories of its files
stay where they are while files are deleted, so every later path leads where it led for the plan. -/
theorem applied_fold (sys : FileSystem) (files : OfficeFiles) (plan : PrunePlan) (deps : PruneDeps) :
    FileTree.Fewer files.tree (applyPrune sys files plan deps).1.tree ∧
      ∀ place, FileTree.node (applyPrune sys files plan deps).1.tree place = none →
        FileTree.node files.tree place = none ∨ IsPlanned sys files deps plan place := by
  unfold applyPrune
  dsimp only
  split
  · exact ⟨FileTree.Fewer.refl _, fun _ h => Or.inl h⟩
  · split
    · rename_i realRoot _ _
      refine List.foldlRecOn (motive := fun applied : Applied =>
        FileTree.Fewer files.tree applied.1.tree ∧ ∀ place, FileTree.node applied.1.tree place = none →
          FileTree.node files.tree place = none ∨ IsPlanned sys files deps plan place) _ _
        ⟨FileTree.Fewer.refl _, fun _ h => Or.inl h⟩ ?_
      intro applied happlied candidate hcandidate
      have hlocated : ∃ dir name, ∀ live, JsMap.get
          ((planPruneDetailed sys files deps plan.policy plan.target).1.candidates.foldl
            (fun approved c => approved.set c.path c) []) candidate.path = some live →
          Located sys files (targetRoot plan.target deps) candidate.path dir name := by
        cases hlive : JsMap.get
            ((planPruneDetailed sys files deps plan.policy plan.target).1.candidates.foldl
              (fun approved c => approved.set c.path c) []) candidate.path with
        | none => exact ⟨[], [], nofun⟩
        | some live =>
          obtain ⟨hmem, hpath⟩ := mem_of_approved hlive
          obtain ⟨dir, name, hlocated, -⟩ := exists_located hmem
          exact ⟨dir, name, fun _ _ => hpath ▸ hlocated⟩
      obtain ⟨dir, name, hlocated⟩ := hlocated
      obtain ⟨hfewer, hgone⟩ := applyCandidate_cases _ _ applied candidate happlied.1 hlocated
      refine ⟨hfewer, fun place hplace => ?_⟩
      rcases hgone place hplace with hold | ⟨live, hlive, hmtime, hwhere⟩
      · exact happlied.2 place hold
      · obtain ⟨hmem, hpath⟩ := mem_of_approved hlive
        exact Or.inr ⟨live, hmem, ⟨candidate, hcandidate, hpath.symm, hmtime.symm⟩, dir, name,
          hpath ▸ hlocated live hlive, hwhere⟩
    · exact ⟨FileTree.Fewer.refl _, fun _ h => Or.inl h⟩

/-- **A transcript that is deleted** is of a session that no guard spares. -/
theorem transcript_mayGo (h : IsTranscript sys files deps agentId sessionId place file)
    (hgone : FileTree.node (applyPrune sys files plan deps).1.tree place = none) :
    plan.target = .transcripts ∧ MayGo sys files deps plan agentId sessionId := by
  obtain ⟨logs, name, compressed, hlogs, rfl, hagentName, hid, hnode⟩ := h
  rcases (applied_fold sys files plan deps).2 _ hgone with hnone | ⟨live, hlive, hplan, dir, leaf,
    hlocated, hwhere⟩
  · exact nomatch hnode.symm.trans hnone
  · have hdir : dir = logs ++ [agentId] := by
      have hsplit : logs ++ [agentId, name] = logs ++ [agentId] ++ [name] := by simp
      rw [hsplit] at hwhere
      rcases hwhere with hwhere | ⟨-, hwhere⟩
      · exact (List.append_inj' hwhere rfl).1.symm
      · exact (List.append_inj' hwhere rfl).1.symm
    obtain ⟨dir', leaf', hlocated', helse⟩ := exists_located hlive
    obtain ⟨rfl, rfl⟩ := hlocated.unique hlocated'
    have htarget : plan.target = .transcripts := by
      by_contra hne
      obtain ⟨base, s, hbase, hno⟩ := helse hne
      obtain rfl := (List.cons.inj (List.append_inj' (hdir.symm.trans hbase) rfl).2).1
      exact nomatch hagentName.symm.trans hno
    refine ⟨htarget, ?_⟩
    rw [htarget] at hlive hlocated
    obtain ⟨agent, session, index, logs', hspec, hspare, rfl⟩ := exists_of_mem_transcripts hlive
    obtain ⟨hsame, hleaf⟩ := hlocated.unique hspec.located
    obtain ⟨-, hagent⟩ := List.append_inj' (hdir.symm.trans hsame) rfl
    obtain rfl := (List.cons.inj hagent).1
    obtain rfl := Option.some.inj (hlogs.symm.trans hspec.path)
    -- the name is one of the two of the session
    obtain ⟨stat, -, ⟨c, hsession⟩, -⟩ := hspec.isForm
    have hsessionId : session.sessionId = sessionId := by
      have hsplit : logs ++ [agentId, name] = logs ++ [agentId] ++ [name] := by simp
      rw [hsplit, hdir, hleaf] at hwhere
      rcases hwhere with hwhere | ⟨-, hwhere⟩
      · rw [(List.cons.inj (List.append_inj' hwhere rfl).2).1] at hid
        exact (Prod.mk.inj (Option.some.inj (hsession.symm.trans hid))).1
      · rw [(List.cons.inj (List.append_inj' hwhere rfl).2).1] at hid
        obtain ⟨c', htwin⟩ := sessionId_twinName hsession
        exact (Prod.mk.inj (Option.some.inj (htwin.symm.trans hid))).1
    rw [← hsessionId]
    exact hspec.mayGo hspare hplan

/-- **No transcript of a fork ancestor is deleted.** -/
theorem ancestor_stays (plan : PrunePlan) {ancestor : JsString}
    (hfork : Relation.TransGen (ForkedFrom deps agentId) sessionId ancestor)
    (h : IsTranscript sys files deps agentId ancestor place file) :
    FileTree.node (applyPrune sys files plan deps).1.tree place = some (.file file) := by
  have hnode : FileTree.node files.tree place = some (.file file) := by
    obtain ⟨-, -, -, -, -, -, -, hnode⟩ := h
    exact hnode
  rcases (applied_fold sys files plan deps).1 place with hsame | ⟨hgone, -⟩
  · rw [hsame, hnode]
  · have hgo := (transcript_mayGo h hgone).2
    have hparent : ∃ child, ForkedFrom deps agentId child ancestor := by
      cases hfork with
      | single hstep => exact ⟨_, hstep⟩
      | tail _ hstep => exact ⟨_, hstep⟩
    obtain ⟨child, e, he, -, hnamed⟩ := hparent
    exact absurd hnamed (hgo.noFork e he)

/-- A path does not lead below a directory: it is empty, absolute, or leads out of it. -/
def IsOutside (root : List JsString) (path : JsString) : Prop :=
  path = [] ∨ path.head? = some 47 ∨ path.head? = some 92 ∨
    ¬(root <+: resolvePath root path ∧ resolvePath root path ≠ root)

/-- **A path outside the root** stops everything. -/
theorem outside_deletes_nothing (h : ∃ c ∈ plan.candidates, IsOutside (targetRoot plan.target deps) c.path) :
    (applyPrune sys files plan deps).1 = files ∧ (applyPrune sys files plan deps).2.deleted = 0 := by
  have hfound : ∃ c, plan.candidates.find?
      (fun c => (resolveCandidatePath (targetRoot plan.target deps) c.path).isNone) = some c := by
    obtain ⟨c, hc, houtside⟩ := h
    refine Option.isSome_iff_exists.1 (List.find?_isSome.2 ⟨c, hc, ?_⟩)
    rw [Option.isNone_iff_eq_none, resolveCandidatePath]
    rcases houtside with hnil | hslash | hback | hout
    · rw [hnil]
      rfl
    · rw [if_pos (by simp [hslash])]
    · rw [if_pos (by simp [hback])]
    · split_ifs with hfirst
      · rfl
      · dsimp only
        rw [if_neg fun hin => hout ?_]
        simp only [Bool.and_eq_true, decide_eq_true_eq, List.isPrefixOf_iff_prefix] at hin
        exact ⟨hin.1.2, hin.2⟩
  obtain ⟨c, hc⟩ := hfound
  unfold applyPrune
  dsimp only
  rw [hc]
  exact ⟨rfl, rfl⟩

end Deleted

/-! ## The partition -/

section Partition

variable {α : Type*}

/-- How many files the ledger has for a reason. -/
def skipCount (ledger : SkipLedger) (reason : PruneSkipReason) : ℕ :=
  ((ledger.totals.get reason).map (·.count)).getD 0

lemma skipCount_addSkip (ledger : SkipLedger) (path : JsString) (reason r : PruneSkipReason) (bytes : ℕ) :
    skipCount (addSkip ledger path reason bytes) r =
      skipCount ledger r + if r = reason then 1 else 0 := by
  rw [skipCount, addSkip, JsMap.get_set, skipCount]
  split_ifs with h
  · subst h
    cases ledger.totals.get r <;> rfl
  · rfl

variable (reason : α → Option PruneSkipReason)

lemma skipCount_foldl (candidateOf : α → PruneCandidate)
    (rows : List α) (draft : Draft) (r : PruneSkipReason) :
    skipCount (rows.foldl (fun draft row => draftFile draft (reason row) (candidateOf row)) draft).2 r =
      skipCount draft.2 r + (rows.filter fun row => reason row = some r).length := by
  induction rows generalizing draft with
  | nil => rfl
  | cons row rows ih =>
    rw [List.foldl_cons, ih, List.filter_cons]
    cases hreason : reason row with
    | none => simp [draftFile]
    | some found =>
      rw [draftFile, skipCount_addSkip]
      by_cases hr : r = found
      · subst hr
        simp only [if_true, decide_true, List.length_cons]
        omega
      · have hne : ¬some found = some r := fun h => hr (Option.some.inj h).symm
        simp [hr, hne]

lemma reason_foldl (candidateOf : α → PruneCandidate)
    (rows : List α) {draft : Draft} (h : ∀ e ∈ draft.2.totals, e.2.reason = e.1) :
    ∀ e ∈ (rows.foldl (fun draft row =>
      draftFile draft (reason row) (candidateOf row)) draft).2.totals, e.2.reason = e.1 := by
  induction rows generalizing draft with
  | nil => exact h
  | cons row rows ih =>
    refine ih ?_
    change ∀ e ∈ (draftFile draft (reason row) (candidateOf row)).2.totals, e.2.reason = e.1
    cases reason row with
    | none => exact h
    | some r =>
      intro e he
      rcases JsMap.mem_set he with hold | rfl
      · exact h e hold
      · rfl

lemma sum_filterMap_totals (ledger : SkipLedger) (reasons : List PruneSkipReason) :
    ((reasons.filterMap ledger.totals.get).map (·.count)).sum = (reasons.map (skipCount ledger)).sum := by
  induction reasons with
  | nil => rfl
  | cons reason reasons ih =>
    rw [List.map_cons, List.sum_cons, skipCount, ← ih]
    cases hget : ledger.totals.get reason with
    | none =>
      rw [List.filterMap_cons_none hget]
      exact (Nat.zero_add _).symm
    | some entry =>
      rw [List.filterMap_cons_some hget]
      rfl

lemma length_eq_add_sum (rows : List α) :
    rows.length = (rows.filter fun row => (reason row).isNone).length +
      (SKIP_ORDER.map fun r => (rows.filter fun row => reason row = some r).length).sum := by
  induction rows with
  | nil => rfl
  | cons row rows ih =>
    simp only [SKIP_ORDER, List.map_cons, List.map_nil, List.sum_cons, List.sum_nil] at ih ⊢
    simp only [List.filter_cons, List.length_cons]
    cases reason row with
    | none =>
      simp only [Option.isNone_none, if_true, reduceCtorEq, decide_false, List.length_cons]
      simp only [if_false]
      omega
    | some r =>
      cases r <;>
        simp only [Option.isNone_some, Option.some.injEq, reduceCtorEq, decide_false, decide_true,
          Bool.false_eq_true, if_false, if_true, List.length_cons] <;>
        omega

variable (sys files deps)

/-- An agent has a session whose directories can be listed. -/
def IsListed (agentId sessionId : JsString) : Prop :=
  ∃ logs place file, IsTranscript sys files deps agentId sessionId place file ∧
    FileTree.realpath files.tree sys.links deps.logsDir = some logs ∧
    FileTree.node files.tree logs = some (.directory true) ∧
    FileTree.node files.tree (logs ++ [agentId]) = some (.directory true)

lemma nodup_listAgentDirs : (listAgentDirs sys files deps).Nodup := by
  unfold listAgentDirs readdirSync
  refine (List.filter_sublist.map Prod.fst).nodup ?_
  cases hentries : FileTree.readdir files.tree sys.links deps.logsDir with
  | none => exact List.nodup_nil
  | some entries =>
    obtain ⟨logs, -, -, rfl⟩ := FileTree.exists_of_readdir hentries
    exact FileTree.nodup_children files.nodup logs

lemma nodup_rows :
    ((transcriptRows sys files deps).map fun row => (row.1, row.2.1.sessionId)).Nodup := by
  have hrows : (transcriptRows sys files deps).map (fun row => (row.1, row.2.1.sessionId)) =
      (listAgentDirs sys files deps).flatMap fun agentId =>
        ((sessionFiles sys files deps agentId).map (·.sessionId)).map fun id => (agentId, id) := by
    rw [transcriptRows, List.map_flatMap]
    refine List.flatMap_congr fun agentId _ => ?_
    rw [List.map_map, List.map_map, ← List.zipIdx_map_fst 0 (sessionFiles sys files deps agentId),
      List.map_map, List.zipIdx_map_fst]
    rfl
  rw [hrows, List.nodup_flatMap]
  refine ⟨fun agentId _ => ?_, ?_⟩
  · exact (nodup_sessionFiles sys files deps agentId).map fun a b h => (Prod.mk.inj h).2
  · refine (nodup_listAgentDirs sys files deps).imp fun {a b} hne => ?_
    change List.Disjoint _ _
    rw [List.disjoint_left]
    intro e ha hb
    obtain ⟨i, -, rfl⟩ := List.mem_map.1 ha
    obtain ⟨j, -, heq⟩ := List.mem_map.1 hb
    exact hne (Prod.mk.inj heq).1.symm

lemma mem_rows_iff {agentId sessionId : JsString} :
    (agentId, sessionId) ∈ (transcriptRows sys files deps).map (fun row => (row.1, row.2.1.sessionId)) ↔
      IsListed sys files deps agentId sessionId := by
  constructor
  · intro h
    obtain ⟨⟨agent, file, index⟩, hrow, heq⟩ := List.mem_map.1 h
    obtain ⟨rfl, rfl⟩ := Prod.mk.inj heq
    obtain ⟨logs, hspec⟩ := exists_of_mem_rows hrow
    obtain ⟨stat, hstat⟩ := hspec.isTranscript
    exact ⟨logs, _, stat, hstat, hspec.path, hspec.directory, hspec.agent⟩
  · rintro ⟨logs, place, stat, ⟨logs', name, compressed, hlogs', rfl, hagentName, hid, hnode⟩, hlogs, hdir,
      hagent⟩
    obtain rfl := Option.some.inj (hlogs.symm.trans hlogs')
    have hform := (isForm_iff hlogs hdir hagent).2 ⟨⟨compressed, hid⟩, hnode⟩
    have hgrouped := grouped_sessionTable sys files deps agentId
    obtain ⟨file, hfile, -⟩ := hgrouped.bound _ _ _ hform
    have hkey : file.sessionId = sessionId := hgrouped.key _ hfile
    rw [← hkey] at hfile ⊢
    obtain ⟨index, hlt, hindex⟩ := List.mem_iff_getElem.1 (mem_sessionFiles.2 hfile)
    refine List.mem_map.2 ⟨(agentId, file, index), List.mem_flatMap.2 ⟨agentId, ?_, ?_⟩, rfl⟩
    · exact mem_listAgentDirs.2 ⟨hagentName, logs, true, hlogs, hdir, hagent⟩
    · refine List.mem_map_of_mem (List.mk_mem_zipIdx_iff_getElem?.2 ?_)
      exact List.getElem?_eq_some_iff.2 ⟨hlt, hindex⟩

/-- **The candidates and the counts** of a plan for transcripts partition the sessions. -/
theorem plan_partitions (policy : PrunePolicy) :
    let plan := planPrune sys files deps policy .transcripts
    let rows := transcriptRows sys files deps
    plan.candidates.Perm ((rows.filter fun row => (rowReason deps policy row).isNone).map
        fun row => transcriptCandidate deps row.1 row.2.1) ∧
      (∀ s ∈ plan.skipped, s.count =
        (rows.filter fun row => rowReason deps policy row = some s.reason).length) ∧
      plan.candidates.length + (plan.skipped.map (·.count)).sum = rows.length := by
  intro plan rows
  have hperm : plan.candidates.Perm _ := perm_planTranscripts newLedger
  have hcount : ∀ r, skipCount (planTranscripts sys files deps policy newLedger).2 r =
      ((transcriptRows sys files deps).filter fun row => rowReason deps policy row = some r).length := by
    intro r
    rw [planTranscripts]
    dsimp only
    rw [foldl_transcriptRows, skipCount_foldl]
    exact Nat.zero_add _
  refine ⟨hperm, fun s hs => ?_, ?_⟩
  · obtain ⟨r, -, hget⟩ := List.mem_filterMap.1 hs
    have hreason : ∀ e ∈ (planTranscripts sys files deps policy newLedger).2.totals,
        e.2.reason = e.1 := by
      rw [planTranscripts]
      dsimp only
      rw [foldl_transcriptRows]
      exact reason_foldl _ _ _ nofun
    have hfound : (planTranscripts sys files deps policy newLedger).2.totals.get r = some s := hget
    have hmem : (r, s) ∈ (planTranscripts sys files deps policy newLedger).2.totals := by
      obtain ⟨e, he, heq⟩ := Option.map_eq_some_iff.1 hfound
      have hkey : e.1 = r := by simpa using List.find?_some he
      obtain ⟨k, v⟩ := e
      obtain rfl : k = r := hkey
      obtain rfl : v = s := heq
      exact List.mem_of_find?_eq_some he
    rw [hreason _ hmem, ← hcount, skipCount, hfound]
    rfl
  · have hskipped : plan.skipped =
        SKIP_ORDER.filterMap (planTranscripts sys files deps policy newLedger).2.totals.get := rfl
    rw [hskipped, sum_filterMap_totals, length_eq_add_sum (rowReason deps policy),
      List.map_congr_left fun r _ => hcount r]
    congr 1
    exact hperm.length_eq.trans (List.length_map _)

end Partition

/-- **Pruning deletes only what every guard allows.** A transcript that is deleted is of a session that
no guard spares when the plan is applied, and one of whose files the plan names with its time. So no
transcript of a fork ancestor is deleted. A plan with a path outside the root deletes nothing. And in every plan for
transcripts the candidates and the counts partition the sessions of the agents. -/
theorem prune_guarded (sys : FileSystem) (files : OfficeFiles) (deps : PruneDeps) (plan : PrunePlan) :
    (∀ agentId sessionId place file, IsTranscript sys files deps agentId sessionId place file →
      FileTree.node (applyPrune sys files plan deps).1.tree place = none →
        plan.target = .transcripts ∧ MayGo sys files deps plan agentId sessionId) ∧
    (∀ agentId sessionId ancestor place file,
      Relation.TransGen (ForkedFrom deps agentId) sessionId ancestor →
        IsTranscript sys files deps agentId ancestor place file →
          FileTree.node (applyPrune sys files plan deps).1.tree place = some (.file file)) ∧
    ((∃ c ∈ plan.candidates, IsOutside (targetRoot plan.target deps) c.path) →
      (applyPrune sys files plan deps).1 = files ∧ (applyPrune sys files plan deps).2.deleted = 0) ∧
    (∀ policy, (planPrune sys files deps policy .transcripts).candidates.Perm
        (((transcriptRows sys files deps).filter fun row => (rowReason deps policy row).isNone).map
          fun row => transcriptCandidate deps row.1 row.2.1) ∧
      (∀ s ∈ (planPrune sys files deps policy .transcripts).skipped, s.count =
        ((transcriptRows sys files deps).filter fun row =>
          rowReason deps policy row = some s.reason).length) ∧
      (planPrune sys files deps policy .transcripts).candidates.length +
          ((planPrune sys files deps policy .transcripts).skipped.map (·.count)).sum =
        (transcriptRows sys files deps).length) ∧
    ((transcriptRows sys files deps).map fun row => (row.1, row.2.1.sessionId)).Nodup ∧
    ∀ agentId sessionId, (agentId, sessionId) ∈
        (transcriptRows sys files deps).map (fun row => (row.1, row.2.1.sessionId)) ↔
      IsListed sys files deps agentId sessionId :=
  ⟨fun _ _ _ _ h hgone => transcript_mayGo h hgone, fun _ _ _ _ _ hfork h => ancestor_stays plan hfork h,
    outside_deletes_nothing, plan_partitions sys files deps, nodup_rows sys files deps,
    fun _ _ => mem_rows_iff _ _ _⟩

/-! ### One session of a killed agent -/

/-- Whether a name is proper can be computed. -/
instance (name : JsString) : Decidable (IsFileName name) :=
  inferInstanceAs (Decidable (_ ∧ _ ∧ _ ∧ _))

/-- A transcript that a crash left in both forms. -/
def exampleFiles : OfficeFiles where
  tree := [([js "s"], .directory true), ([js "s", js "logs"], .directory true),
    ([js "s", js "logs", js "agent-a"], .directory true),
    ([js "s", js "logs", js "agent-a", js "x.jsonl.gz"], .file ⟨[1], 5, true⟩),
    ([js "s", js "logs", js "agent-a", js "x.jsonl"], .file ⟨[2, 3], 7, true⟩)]
  nodup := by decide
  names := by decide

def exampleSystem : FileSystem := ⟨40, fun _ => none, fun _ => none⟩

def exampleDeps : PruneDeps :=
  ⟨[js "s"], [], 2 * DAY_MS, [], [js "agent-a"], fun _ => [], fun _ => some []⟩

def examplePlan : PrunePlan :=
  ⟨.transcripts, ⟨1, 3⟩, [⟨js "agent-a/x.jsonl", 0, [], none, 0, 7⟩], 0, []⟩

theorem prune_guarded_twin :
    FileTree.node (applyPrune exampleSystem exampleFiles examplePlan exampleDeps).1.tree
        [js "s", js "logs", js "agent-a", js "x.jsonl.gz"] = none ∧
      examplePlan.target = .transcripts ∧
      MayGo exampleSystem exampleFiles exampleDeps examplePlan (js "agent-a") (js "x") := by
  have hgone : FileTree.node (applyPrune exampleSystem exampleFiles examplePlan exampleDeps).1.tree
      [js "s", js "logs", js "agent-a", js "x.jsonl.gz"] = none := by
    have hnone : (FileTree.node (applyPrune exampleSystem exampleFiles examplePlan exampleDeps).1.tree
        [js "s", js "logs", js "agent-a", js "x.jsonl.gz"]).isNone = true := by
      decide +kernel
    exact Option.isNone_iff_eq_none.1 hnone
  refine ⟨hgone, (prune_guarded exampleSystem exampleFiles exampleDeps examplePlan).1 _ _ _ ⟨[1], 5, true⟩
    ⟨[js "s", js "logs"], js "x.jsonl.gz", true, ?_, rfl, by decide, by decide, rfl⟩ hgone⟩
  decide

end Isomux.Prune
