import Isomux.Foundations.Rows
import Isomux.Office.Tasks

set_option autoImplicit false

/-!
# The deltas of the task board

An operation puts a task on the board under its id, drops an id, or changes nothing. The page of a
viewer mirrors the visible tasks of the board: the delta it gets, or the lack of one, is the put or
the drop by which its mirror follows.

## Main results

* `Isomux.TaskBoard.apply_cases` — what an operation does to the board, and the change it reports.
* `Isomux.TaskSession.exact_step` — an operation keeps the invariant.
* `Isomux.TaskSession.replica_exact` — the page has the visible tasks of the board, and hears no id
  of a task it could never see.
-/

namespace Isomux

/-! ## What an operation does -/

section

variable {rt : TaskRuntime} {tasks tasks' : TaskBoard} {events : List TasksChanged}

lemma TaskBoard.fresh_of_firstUnused {draws : List String} {id : String}
    (h : firstUnused (tasks.map (·.id)) draws = some id) : ∀ t ∈ tasks, t.id ≠ id := by
  intro t ht hid
  unfold firstUnused at h
  have hunused : id ∉ tasks.map (·.id) := by simpa only [decide_eq_true_eq] using List.find?_some h
  exact hunused (List.mem_map.2 ⟨t, ht, hid⟩)

lemma TaskBoard.put_fresh {task : TaskItem} (h : ∀ t ∈ tasks, t.id ≠ task.id) :
    Rows.put (·.id) tasks task = tasks ++ [task] := by
  refine if_neg fun hany => ?_
  obtain ⟨t, ht, hid⟩ := List.any_eq_true.1 hany
  exact h t ht (by simpa using hid)

lemma TaskBoard.put_present {old task : TaskItem} (hold : old ∈ tasks) (hid : old.id = task.id) :
    Rows.put (·.id) tasks task = tasks.map fun t => if t.id = task.id then task else t :=
  if_pos (List.any_eq_true.2 ⟨old, hold, by simpa using hid⟩)

/-- What an operation does to the board, and the change it reports: nothing, a put of a task under a
fresh id, a put in the place of a task, or a drop of a task. -/
inductive TaskBoard.Moved (tasks : TaskBoard) : TaskBoard → List TasksChanged → Prop where
  | same : Moved tasks tasks []
  | created (task : TaskItem) (hfresh : ∀ t ∈ tasks, t.id ≠ task.id) :
      Moved tasks (Rows.put (·.id) tasks task)
        [⟨Rows.put (·.id) tasks task, .created task⟩]
  | updated (old next : TaskItem) (hold : old ∈ tasks) (hid : next.id = old.id) :
      Moved tasks (Rows.put (·.id) tasks next)
        [⟨Rows.put (·.id) tasks next, .updated next old.roomId⟩]
  | deleted (task : TaskItem) (htask : task ∈ tasks) :
      Moved tasks (Rows.drop (·.id) tasks task.id)
        [⟨Rows.drop (·.id) tasks task.id, .deleted task⟩]

lemma TaskBoard.commit_eq_ok {commitFails : Bool} {next : TaskBoard} {change : TaskChange}
    (h : TaskBoard.commit commitFails next change = .ok (tasks', events)) :
    tasks' = next ∧ events = [⟨next, change⟩] := by
  unfold TaskBoard.commit at h
  split_ifs at h
  obtain ⟨rfl, rfl⟩ := Prod.mk.inj (Except.ok.inj h)
  exact ⟨rfl, rfl⟩

/-- **What an operation does to the board**, where the store takes it. -/
theorem TaskBoard.apply_cases {op : TaskOp} (h : tasks.apply rt op = .ok (tasks', events)) :
    TaskBoard.Moved tasks tasks' events := by
  cases op with
  | add agents title createdBy opts draws now commitFails =>
    simp only [TaskBoard.apply, TaskBoard.addTask] at h
    split at h
    · obtain ⟨rfl, rfl⟩ := Prod.mk.inj (Except.ok.inj h)
      exact .same
    · next id hid =>
      obtain ⟨rfl, rfl⟩ := TaskBoard.commit_eq_ok h
      have hfresh := TaskBoard.fresh_of_firstUnused hid
      rw [← TaskBoard.put_fresh (by exact hfresh)]
      exact .created _ hfresh
  | update agents id changes commitFails =>
    simp only [TaskBoard.apply, TaskBoard.updateTask] at h
    split at h
    · obtain ⟨rfl, rfl⟩ := Prod.mk.inj (Except.ok.inj h)
      exact .same
    · next old hfind =>
      obtain ⟨rfl, rfl⟩ := TaskBoard.commit_eq_ok h
      have hold : old ∈ tasks := List.mem_of_find?_eq_some hfind
      obtain rfl : old.id = id := by simpa using List.find?_some hfind
      have hput := @TaskBoard.put_present tasks _
        ((old.toTaskRecord.edit rt agents changes).stamp rt) hold rfl
      rw [show (fun t : TaskItem => if t.id = old.id then
        (old.toTaskRecord.edit rt agents changes).stamp rt else t) = fun t =>
          if t.id = ((old.toTaskRecord.edit rt agents changes).stamp rt).id then
            (old.toTaskRecord.edit rt agents changes).stamp rt else t from rfl, ← hput]
      exact .updated old _ hold rfl
  | delete id commitFails =>
    simp only [TaskBoard.apply, TaskBoard.deleteTask] at h
    split at h
    · obtain ⟨rfl, rfl⟩ := Prod.mk.inj (Except.ok.inj h)
      exact .same
    · next task hfind =>
      obtain ⟨rfl, rfl⟩ := TaskBoard.commit_eq_ok h
      obtain rfl : task.id = id := by simpa using List.find?_some hfind
      exact .deleted task (List.mem_of_find?_eq_some hfind)
  | restore record commitFails =>
    simp only [TaskBoard.apply, TaskBoard.restoreTask] at h
    split_ifs at h with hany
    obtain ⟨rfl, rfl⟩ := TaskBoard.commit_eq_ok h
    have hfresh : ∀ t ∈ tasks, t.id ≠ (record.stamp rt).id := by
      intro t ht hid
      exact hany (List.any_eq_true.2 ⟨t, ht, decide_eq_true hid⟩)
    rw [← TaskBoard.put_fresh hfresh]
    exact .created _ hfresh

lemma TaskBoard.Moved.nodup (h : TaskBoard.Moved tasks tasks' events)
    (hids : (tasks.map (·.id)).Nodup) : (tasks'.map (·.id)).Nodup := by
  cases h with
  | same => exact hids
  | created task hfresh => exact Rows.nodup_put hids task
  | updated old next hold hid => exact Rows.nodup_put hids next
  | deleted task htask => exact Rows.nodup_drop hids task.id

end

/-! ## What a page does -/

namespace TaskSession

variable {rt : TaskRuntime} {viewer : TaskViewer} {s : TaskSession}

def sees (viewer : TaskViewer) (task : TaskItem) : Bool := taskVisibleTo task.roomId viewer

lemma applyTaskDelta_deleted (tasks : List TaskItem) (id : String) :
    applyTaskDelta tasks (.deleted id) = Rows.drop (·.id) tasks id := by
  show (if _ then _ else _) = _
  split_ifs with hany
  · rfl
  · refine (Rows.drop_eq_self fun t ht hid => hany ?_).symm
    exact List.any_eq_true.2 ⟨t, ht, by simpa using hid⟩

/-- The ids of the board are distinct, and the page mirrors the tasks that its viewer sees. -/
structure Exact (viewer : TaskViewer) (s : TaskSession) : Prop where
  nodup : (s.tasks.map (·.id)).Nodup
  mirror : Rows.Mirrors (·.id) (sees viewer) s.tasks s.replica

lemma Exact.drop_unseen (h : Exact viewer s) {task : TaskItem} (htask : task ∈ s.tasks)
    (hsees : sees viewer task = false) : Rows.drop (·.id) s.replica task.id = s.replica := by
  refine Rows.drop_eq_self fun t ht hid => ?_
  obtain ⟨hmem, hpass⟩ := (h.mirror.mem_iff t).1 ht
  obtain rfl : t = task := List.inj_on_of_nodup_map h.nodup hmem htask hid
  rw [hsees] at hpass
  cases hpass

lemma Exact.drop_fresh (h : Exact viewer s) {id : String} (hfresh : ∀ t ∈ s.tasks, t.id ≠ id) :
    Rows.drop (·.id) s.replica id = s.replica :=
  Rows.drop_eq_self fun t ht => hfresh t ((h.mirror.mem_iff t).1 ht).1

/-- The page follows a change of the board.

**Proof sketch.** A task that is visible behind the change is put on the page. One that is not
visible behind it is dropped: by the delta where it was visible before, and without one where it
was not, as the page has no row under its id then. -/
lemma Exact.hear_moved (h : Exact viewer s) {tasks' : TaskBoard} {events : List TasksChanged}
    (hmoved : TaskBoard.Moved s.tasks tasks' events) :
    Exact viewer (events.foldl (hear viewer) { s with tasks := tasks' }) := by
  have hnodup := hmoved.nodup h.nodup
  cases hmoved with
  | same => exact h
  | created task hfresh =>
    rw [List.foldl_cons, List.foldl_nil]
    by_cases hnow : sees viewer task = true
    · have hdelta : taskDeltaFor (.created task) viewer = some (.upserted task) := if_pos hnow
      simp only [hear, hdelta]
      exact ⟨hnodup, h.mirror.put hnow⟩
    · have hdelta : taskDeltaFor (.created task) viewer = none := if_neg hnow
      simp only [hear, hdelta]
      refine ⟨hnodup, ?_⟩
      rw [← h.drop_fresh hfresh]
      exact h.mirror.hide (Bool.eq_false_iff.2 hnow)
  | updated old next hold hid =>
    rw [List.foldl_cons, List.foldl_nil]
    by_cases hnow : sees viewer next = true
    · have hdelta : taskDeltaFor (.updated next old.roomId) viewer = some (.upserted next) :=
        if_pos hnow
      simp only [hear, hdelta]
      exact ⟨hnodup, h.mirror.put hnow⟩
    have hhide := h.mirror.hide (Bool.eq_false_iff.2 hnow)
    by_cases hprev : sees viewer old = true
    · have hdelta : taskDeltaFor (.updated next old.roomId) viewer = some (.deleted next.id) :=
        (if_neg hnow).trans (if_pos hprev)
      simp only [hear, hdelta]
      refine ⟨hnodup, ?_⟩
      rw [applyTaskDelta_deleted]
      exact hhide
    · have hdelta : taskDeltaFor (.updated next old.roomId) viewer = none :=
        (if_neg hnow).trans (if_neg hprev)
      simp only [hear, hdelta]
      refine ⟨hnodup, ?_⟩
      rw [hid, h.drop_unseen hold (Bool.eq_false_iff.2 hprev)] at hhide
      exact hhide
  | deleted task htask =>
    rw [List.foldl_cons, List.foldl_nil]
    have hdrop := h.mirror.drop task.id
    by_cases hnow : sees viewer task = true
    · have hdelta : taskDeltaFor (.deleted task) viewer = some (.deleted task.id) := if_pos hnow
      simp only [hear, hdelta]
      refine ⟨hnodup, ?_⟩
      rw [applyTaskDelta_deleted]
      exact hdrop
    · have hdelta : taskDeltaFor (.deleted task) viewer = none := if_neg hnow
      simp only [hear, hdelta]
      refine ⟨hnodup, ?_⟩
      rw [h.drop_unseen htask (Bool.eq_false_iff.2 hnow)] at hdrop
      exact hdrop

/-- **An operation keeps the invariant.** -/
theorem exact_step (h : Exact viewer s) (op : TaskOp) : Exact viewer (step rt viewer s op) := by
  unfold step
  split
  · exact h
  · next tasks' events happly => exact h.hear_moved (TaskBoard.apply_cases happly)

lemma exact_start {tasks : TaskBoard} (hids : (tasks.map (·.id)).Nodup) :
    Exact viewer (start viewer tasks) :=
  ⟨hids, Rows.mirrors_filter hids⟩

/-- A delta about a change names a task that the viewer sees before the change or behind it. -/
lemma heard_moved {tasks' : TaskBoard} {events : List TasksChanged} {delta : TaskDelta}
    (hmoved : TaskBoard.Moved s.tasks tasks' events)
    (hdelta : delta ∈ (events.foldl (hear viewer) { s with tasks := tasks' }).heard) :
    delta ∈ s.heard ∨
      ∃ t, (t ∈ s.tasks ∨ t ∈ tasks') ∧ t.id = delta.taskId ∧ sees viewer t = true := by
  -- a page hears the one delta of the one event
  have hone : ∀ change, delta ∈ (hear viewer { s with tasks := tasks' } ⟨tasks', change⟩).heard →
      delta ∈ s.heard ∨ taskDeltaFor change viewer = some delta := by
    intro change hmem
    unfold hear at hmem
    split at hmem
    · exact Or.inl hmem
    · next d hd =>
      rcases List.mem_append.1 hmem with hold | hnew
      · exact Or.inl hold
      · rw [List.mem_singleton.1 hnew]
        exact Or.inr hd
  cases hmoved with
  | same => exact Or.inl hdelta
  | created task hfresh =>
    refine (hone _ hdelta).imp_right fun hsome => ?_
    simp only [taskDeltaFor, Option.ite_none_right_eq_some, Option.some.injEq] at hsome
    obtain ⟨hnow, rfl⟩ := hsome
    exact ⟨task, Or.inr (Rows.mem_put.2 (Or.inl rfl)), rfl, hnow⟩
  | updated old next hold hid =>
    refine (hone _ hdelta).imp_right fun hsome => ?_
    simp only [taskDeltaFor] at hsome
    split_ifs at hsome with hnow hprev
    · obtain rfl := Option.some.inj hsome
      exact ⟨next, Or.inr (Rows.mem_put.2 (Or.inl rfl)), rfl, hnow⟩
    · obtain rfl := Option.some.inj hsome
      exact ⟨old, Or.inl hold, hid.symm, hprev⟩
  | deleted task htask =>
    refine (hone _ hdelta).imp_right fun hsome => ?_
    simp only [taskDeltaFor, Option.ite_none_right_eq_some, Option.some.injEq] at hsome
    obtain ⟨hnow, rfl⟩ := hsome
    exact ⟨task, Or.inl htask, rfl, hnow⟩

lemma tasks_foldl_hear (events : List TasksChanged) (s : TaskSession) :
    (events.foldl (hear viewer) s).tasks = s.tasks := by
  induction events generalizing s with
  | nil => rfl
  | cons event events ih =>
    rw [List.foldl_cons, ih]
    unfold hear
    split <;> rfl

/-- A delta of a run names a task that the viewer saw at some moment of the run.

**Proof sketch.** By induction on the operations from the last one: the deltas of the last operation
name a task that is visible before it or behind it. -/
lemma heard_run {tasks : TaskBoard} {ops : List TaskOp} {delta : TaskDelta}
    (h : delta ∈ (Machine.run (step rt viewer) (start viewer tasks) ops).heard) :
    ∃ before, before <+: ops ∧
      ∃ t ∈ (Machine.run (step rt viewer) (start viewer tasks) before).tasks,
        t.id = delta.taskId ∧ sees viewer t = true := by
  induction ops using List.reverseRecOn with
  | nil => cases h
  | append_singleton ops op ih =>
    rw [Machine.run_append, Machine.run_cons, Machine.run_nil] at h
    set s := Machine.run (step rt viewer) (start viewer tasks) ops with hs
    have hearlier : delta ∈ s.heard → ∃ before, before <+: ops ++ [op] ∧
        ∃ t ∈ (Machine.run (step rt viewer) (start viewer tasks) before).tasks,
          t.id = delta.taskId ∧ sees viewer t = true := by
      intro hold
      obtain ⟨before, hbefore, ht⟩ := ih hold
      exact ⟨before, hbefore.trans (List.prefix_append ops [op]), ht⟩
    rcases happly : s.tasks.apply rt op with e | ⟨tasks', events⟩
    · have hstep : step rt viewer s op = s := by simp only [step, happly]
      rw [hstep] at h
      exact hearlier h
    · have hmoved := TaskBoard.apply_cases happly
      have hstep : step rt viewer s op =
          events.foldl (hear viewer) { s with tasks := tasks' } := by simp only [step, happly]
      rw [hstep] at h
      rcases heard_moved hmoved h with hold | ⟨t, hbefore | hbehind, hid, hsees⟩
      · exact hearlier hold
      · exact ⟨ops, List.prefix_append ops [op], t, hbefore, hid, hsees⟩
      · refine ⟨ops ++ [op], List.prefix_rfl, t, ?_, hid, hsees⟩
        have hboard : (events.foldl (hear viewer) { s with tasks := tasks' }).tasks = tasks' :=
          tasks_foldl_hear events _
        rw [Machine.run_append, Machine.run_cons, Machine.run_nil, ← hs, hstep, hboard]
        exact hbehind

/-- **The page has the visible tasks of the board.** The board starts as the stored tasks, whose ids
are the keys of the store, and the page as the visible ones of them. Behind any operations the page
has exactly the tasks of the board that its viewer sees, in an order of its own. The id of a task
that the viewer can see at no moment of the run is in no delta. -/
theorem replica_exact (rt : TaskRuntime) (viewer : TaskViewer)
    (stored : {records : List TaskRecord // (records.map (·.id)).Nodup}) (ops : List TaskOp) :
    let after := Machine.run (step rt viewer)
      (start viewer (TaskBoard.setTasksDirect rt stored.1))
    (after ops).replica.Perm (projectTasks (after ops).tasks viewer) ∧
      ∀ id, (∀ before, before <+: ops → ∀ t ∈ (after before).tasks, t.id = id →
          taskVisibleTo t.roomId viewer = false) →
        ∀ delta ∈ (after ops).heard, delta.taskId ≠ id := by
  intro after
  have hids : ((TaskBoard.setTasksDirect rt stored.1).map (·.id)).Nodup := by
    rw [TaskBoard.setTasksDirect, List.map_map]
    exact stored.2
  have hexact : Exact viewer (after ops) :=
    Machine.run_invariant (fun _ op h => exact_step h op) (exact_start hids)
  refine ⟨hexact.mirror.perm hexact.nodup, ?_⟩
  rintro id hnever delta hdelta rfl
  obtain ⟨before, hbefore, t, ht, hid, hsees⟩ := heard_run hdelta
  have hunseen := hnever before hbefore t ht hid
  rw [show taskVisibleTo t.roomId viewer = true from hsees] at hunseen
  cases hunseen

end TaskSession

end Isomux
