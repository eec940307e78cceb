import Isomux.Foundations.Trace
import Mathlib.Data.List.Basic
import Mathlib.Order.Nat

set_option autoImplicit false

/-!
# Serial chains of promises

Tasks that are serialised under a key: a task waits for the one that was the last of its key when it
came, and a map from the keys to their last tasks forgets a key when the last task is over. Tasks of
one key then run one at a time, in the order in which they came. A task may also come outside of the
chains. All the tasks that are not over are lost with the process.

## Main results

* `PromiseChains.Sound.isOver_of_started` — a task starts when those before it are over.
* `PromiseChains.Sound.eq_of_running` — one task of a key runs at a time.
-/

inductive TaskState (α ω : Type*) where
  | waiting
  | running (stage : α)
  | settled (answer : ω)
  | lost

structure ChainTask (κ δ α ω : Type*) where
  job : δ
  key : Option κ
  previous : Option ℕ
  state : TaskState α ω

/-- The tasks in the order in which they came, and the last task of each key. -/
structure PromiseChains (κ δ α ω : Type*) where
  tasks : List (ChainTask κ δ α ω)
  tails : κ → Option ℕ

variable {κ δ α ω : Type*}

def TaskState.isOver : TaskState α ω → Bool
  | .waiting => false
  | .running _ => false
  | .settled _ => true
  | .lost => true

def TaskState.hasStarted : TaskState α ω → Bool
  | .waiting => false
  | _ => true

lemma TaskState.hasStarted_of_isOver {state : TaskState α ω} (h : state.isOver = true) :
    state.hasStarted = true := by
  cases state with
  | waiting => cases h
  | running stage => cases h
  | settled answer => rfl
  | lost => rfl

namespace PromiseChains

def empty : PromiseChains κ δ α ω := ⟨[], fun _ => none⟩

variable (c : PromiseChains κ δ α ω) (i : ℕ)

def add (job : δ) (state : TaskState α ω) : PromiseChains κ δ α ω :=
  { c with tasks := c.tasks ++ [⟨job, none, none, state⟩] }

/-- A task comes under a key, and waits for the last one of it. -/
def serialise [DecidableEq κ] (key : κ) (job : δ) : PromiseChains κ δ α ω where
  tasks := c.tasks ++ [⟨job, some key, c.tails key, .waiting⟩]
  tails := Function.update c.tails key (some c.tasks.length)

variable (task : ChainTask κ δ α ω)

/-- The task at a place is in another state. -/
def setState (state : TaskState α ω) : PromiseChains κ δ α ω :=
  { c with tasks := c.tasks.set i { task with state } }

def ready : Bool :=
  task.previous.all fun p => c.tasks[p]?.all (·.state.isOver)

/-- A waiting task starts, when what it waits for is over. -/
def start (stage : δ → α) : PromiseChains κ δ α ω :=
  match c.tasks[i]? with
  | some task =>
    match task.state with
    | .waiting => if c.ready task then c.setState i task (.running (stage task.job)) else c
    | _ => c
  | none => c

def advance (stage : α) : PromiseChains κ δ α ω :=
  c.setState i task (.running stage)

/-- The key is forgotten when its last task is over. -/
def release [DecidableEq κ] (key : Option κ) : PromiseChains κ δ α ω :=
  match key with
  | none => c
  | some key =>
    if c.tails key = some i then { c with tails := Function.update c.tails key none } else c

def settle [DecidableEq κ] (task : ChainTask κ δ α ω) (answer : ω) : PromiseChains κ δ α ω :=
  (c.setState i task (.settled answer)).release i task.key

def crash : PromiseChains κ δ α ω where
  tasks := c.tasks.map fun task =>
    if task.state.isOver then task else { task with state := .lost }
  tails _ := none

variable {c} {i}

/-! ## The invariant -/

structure Sound (c : PromiseChains κ δ α ω) : Prop where
  tail : ∀ key t, c.tails key = some t → (∃ task, c.tasks[t]? = some task ∧ task.key = some key) ∧
    ∀ (i : ℕ) task, c.tasks[i]? = some task → task.key = some key → i ≤ t
  idle : ∀ key, c.tails key = none → ∀ (i : ℕ) task, c.tasks[i]? = some task →
    task.key = some key → task.state.isOver = true
  waits : ∀ (i j : ℕ) key first second, i < j → c.tasks[i]? = some first →
    c.tasks[j]? = some second → first.key = some key → second.key = some key →
    first.state.isOver = false →
    ∃ p, second.previous = some p ∧ i ≤ p ∧ p < j ∧
      ∃ task, c.tasks[p]? = some task ∧ task.key = some key
  before : ∀ (j : ℕ) second p, c.tasks[j]? = some second → second.previous = some p → p < j
  started : ∀ (j : ℕ) second p, c.tasks[j]? = some second → second.state.hasStarted = true →
    second.previous = some p → ∀ task, c.tasks[p]? = some task → task.state.isOver = true

/-- **Order.** When a task has started, those of its key that came before it are over.

**Proof sketch.** By induction on the place of the task. It waited for a task `p` that is over now;
what came between is before `p`, which had to start to be over. -/
theorem Sound.isOver_of_started (h : Sound c) {i j : ℕ} {key : κ}
    {first second : ChainTask κ δ α ω} (hij : i < j) (hi : c.tasks[i]? = some first)
    (hj : c.tasks[j]? = some second) (hfirst : first.key = some key)
    (hsecond : second.key = some key) (hstarted : second.state.hasStarted = true) :
    first.state.isOver = true := by
  induction j using Nat.strongRecOn generalizing second with
  | ind j ih =>
    by_contra hnot
    obtain ⟨p, hprevious, hip, hpj, task, hp, hkey⟩ :=
      h.waits i j key first second hij hi hj hfirst hsecond (eq_false_of_ne_true hnot)
    have hover := h.started j second p hj hstarted hprevious task hp
    rcases hip.eq_or_lt with rfl | hlt
    · rw [hi] at hp
      exact hnot (Option.some.inj hp ▸ hover)
    · exact hnot (ih p hpj hlt hp hkey (TaskState.hasStarted_of_isOver hover))

/-- **Exclusion.** One task of a key runs at a time. -/
theorem Sound.eq_of_running (h : Sound c) {i j : ℕ} {key : κ} {first second : ChainTask κ δ α ω}
    {stage stage' : α} (hi : c.tasks[i]? = some first) (hj : c.tasks[j]? = some second)
    (hfirst : first.key = some key) (hsecond : second.key = some key)
    (hrun : first.state = .running stage) (hrun' : second.state = .running stage') : i = j := by
  rcases Nat.lt_trichotomy i j with hlt | heq | hgt
  · have hover := h.isOver_of_started hlt hi hj hfirst hsecond (by rw [hrun']; rfl)
    rw [hrun] at hover
    cases hover
  · exact heq
  · have hover := h.isOver_of_started hgt hj hi hsecond hfirst (by rw [hrun]; rfl)
    rw [hrun'] at hover
    cases hover

theorem sound_empty : Sound (empty : PromiseChains κ δ α ω) where
  tail _ _ h := nomatch h
  idle _ _ _ _ h := nomatch h
  waits _ _ _ _ _ _ h := nomatch h
  before _ _ _ h := nomatch h
  started _ _ _ h := nomatch h

/-! ## What keeps it -/

variable {task : ChainTask κ δ α ω} {state : TaskState α ω} {l : List (ChainTask κ δ α ω)} {j : ℕ}

lemma lt_length
    (h : l[j]? = some task) : j < l.length := (List.getElem?_eq_some_iff.1 h).1

theorem Sound.add (h : Sound c) (job : δ) (state : TaskState α ω) : Sound (c.add job state) where
  tail key t ht := by
    obtain ⟨⟨task, htask, hkey⟩, hlast⟩ := h.tail key t ht
    refine ⟨⟨task, Trace.getElem?_append_of_some htask _, hkey⟩, fun i other hi hother => ?_⟩
    rcases Trace.getElem?_concat hi with hold | ⟨-, rfl⟩
    · exact hlast i other hold hother
    · cases hother
  idle key ht i task hi hkey := by
    rcases Trace.getElem?_concat hi with hold | ⟨-, rfl⟩
    · exact h.idle key ht i task hold hkey
    · cases hkey
  waits i j key first second hij hi hj hfirst hsecond hnot := by
    rcases Trace.getElem?_concat hj with hold | ⟨-, rfl⟩
    · rcases Trace.getElem?_concat hi with hi | ⟨-, rfl⟩
      · obtain ⟨p, hp, hip, hpj, task, htask, hkey⟩ :=
          h.waits i j key first second hij hi hold hfirst hsecond hnot
        exact ⟨p, hp, hip, hpj, task, Trace.getElem?_append_of_some htask _, hkey⟩
      · cases hfirst
    · cases hsecond
  before j second p hj hp := by
    rcases Trace.getElem?_concat hj with hold | ⟨-, rfl⟩
    · exact h.before j second p hold hp
    · cases hp
  started j second p hj hstarted hp task htask := by
    rcases Trace.getElem?_concat hj with hold | ⟨-, rfl⟩
    · rcases Trace.getElem?_concat htask with htask | ⟨rfl, -⟩
      · exact h.started j second p hold hstarted hp task htask
      · exact absurd (h.before j second _ hold hp) (lt_length hold).not_gt
    · cases hp

/-- A task that comes under a key keeps the invariant. -/
theorem Sound.serialise [DecidableEq κ] (h : Sound c) (key : κ) (job : δ) :
    Sound (c.serialise key job) where
  tail key' t ht := by
    rcases eq_or_ne key' key with rfl | hne
    · obtain rfl : c.tasks.length = t := by
        simpa [PromiseChains.serialise, Function.update_self] using ht
      refine ⟨⟨_, List.getElem?_concat_length .., rfl⟩, fun i other hi _ => ?_⟩
      rcases Trace.getElem?_concat hi with hold | ⟨rfl, -⟩
      · exact (lt_length hold).le
      · exact le_rfl
    · have ht : c.tails key' = some t := by
        simpa [PromiseChains.serialise, Function.update_of_ne hne] using ht
      obtain ⟨⟨task, htask, hkey⟩, hlast⟩ := h.tail key' t ht
      refine ⟨⟨task, Trace.getElem?_append_of_some htask _, hkey⟩, fun i other hi hother => ?_⟩
      rcases Trace.getElem?_concat hi with hold | ⟨-, rfl⟩
      · exact hlast i other hold hother
      · exact absurd (Option.some.inj hother).symm hne
  idle key' ht i task hi hkey := by
    have hne : key' ≠ key := by
      rintro rfl
      simp [PromiseChains.serialise, Function.update_self] at ht
    have ht : c.tails key' = none := by
      simpa [PromiseChains.serialise, Function.update_of_ne hne] using ht
    rcases Trace.getElem?_concat hi with hold | ⟨-, rfl⟩
    · exact h.idle key' ht i task hold hkey
    · exact absurd (Option.some.inj hkey).symm hne
  waits i j key' first second hij hi hj hfirst hsecond hnot := by
    rcases Trace.getElem?_concat hi with hold | ⟨rfl, -⟩
    · rcases Trace.getElem?_concat hj with hj | ⟨rfl, rfl⟩
      · obtain ⟨p, hp, hip, hpj, task, htask, hkey⟩ :=
          h.waits i j key' first second hij hold hj hfirst hsecond hnot
        exact ⟨p, hp, hip, hpj, task, Trace.getElem?_append_of_some htask _, hkey⟩
      · obtain rfl : key = key' := Option.some.inj hsecond
        cases htail : c.tails key with
        | none =>
          have hover := h.idle key htail i first hold hfirst
          rw [hnot] at hover
          cases hover
        | some t =>
          obtain ⟨⟨task, htask, hkey⟩, hlast⟩ := h.tail key t htail
          exact ⟨t, rfl, hlast i first hold hfirst, lt_length htask, task,
            Trace.getElem?_append_of_some htask _, hkey⟩
    · rcases Trace.getElem?_concat hj with hj | ⟨rfl, -⟩
      · exact absurd (lt_length hj) hij.not_gt
      · exact absurd hij (lt_irrefl _)
  before j second p hj hp := by
    rcases Trace.getElem?_concat hj with hold | ⟨rfl, rfl⟩
    · exact h.before j second p hold hp
    · obtain ⟨⟨task, htask, -⟩, -⟩ := h.tail key p hp
      exact lt_length htask
  started j second p hj hstarted hp task htask := by
    rcases Trace.getElem?_concat hj with hold | ⟨-, rfl⟩
    · rcases Trace.getElem?_concat htask with htask | ⟨rfl, -⟩
      · exact h.started j second p hold hstarted hp task htask
      · exact absurd (h.before j second _ hold hp) (lt_length hold).not_gt
    · cases hstarted

lemma exists_of_setState
    (hi : c.tasks[i]? = some task) (hover : task.state.isOver = true → state.isOver = true)
    {other : ChainTask κ δ α ω} (hj : (c.setState i task state).tasks[j]? = some other) :
    ∃ old, c.tasks[j]? = some old ∧ other.key = old.key ∧ other.previous = old.previous ∧
      (old.state.isOver = true → other.state.isOver = true) ∧
      (other = old ∨ j = i ∧ other = { task with state }) := by
  rw [setState, List.getElem?_set] at hj
  split_ifs at hj with hij hlt
  · subst hij
    obtain rfl := (Option.some.inj hj).symm
    exact ⟨task, hi, rfl, rfl, hover, .inr ⟨rfl, rfl⟩⟩
  · exact ⟨other, hj, rfl, rfl, id, .inl rfl⟩

lemma exists_setState_of (state : TaskState α ω)
    (hi : c.tasks[i]? = some task) {old : ChainTask κ δ α ω} (hj : c.tasks[j]? = some old) :
    ∃ other, (c.setState i task state).tasks[j]? = some other ∧ other.key = old.key := by
  rw [setState, List.getElem?_set]
  rcases eq_or_ne i j with rfl | hij
  · rw [hi] at hj
    obtain rfl := Option.some.inj hj
    rw [if_pos rfl, if_pos (lt_length hi)]
    exact ⟨_, rfl, rfl⟩
  · rw [if_neg hij]
    exact ⟨old, hj, rfl⟩

lemma getElem?_setState
    {other : ChainTask κ δ α ω} (hj : (c.setState i task state).tasks[j]? = some other) :
    j ≠ i ∧ c.tasks[j]? = some other ∨ j = i ∧ other = { task with state } := by
  rw [setState, List.getElem?_set] at hj
  split_ifs at hj with hij hlt
  · exact .inr ⟨hij.symm, (Option.some.inj hj).symm⟩
  · exact .inl ⟨Ne.symm hij, hj⟩

lemma getElem?_setState_of_ne
    (hj : j ≠ i) : (c.setState i task state).tasks[j]? = c.tasks[j]? := by
  rw [setState, List.getElem?_set_ne hj.symm]

lemma getElem?_setState_self
    (hi : c.tasks[i]? = some task) :
    (c.setState i task state).tasks[i]? = some { task with state } := by
  rw [setState, List.getElem?_set_self (lt_length hi)]

@[simp] lemma tasks_settle [DecidableEq κ] {answer : ω} :
    (c.settle i task answer).tasks = (c.setState i task (.settled answer)).tasks := by
  unfold settle release
  split
  · rfl
  · split_ifs <;> rfl

lemma getElem?_start {stage : δ → α}
    (hj : (c.start i stage).tasks[j]? = some task) :
    c.tasks[j]? = some task ∨ ∃ old, c.tasks[j]? = some old ∧ old.state = .waiting ∧
      task = { old with state := .running (stage old.job) } := by
  unfold start at hj
  split at hj
  · rename_i old hi
    split at hj
    · rename_i hwaiting
      split_ifs at hj
      · rcases getElem?_setState hj with ⟨-, hold⟩ | ⟨rfl, rfl⟩
        · exact .inl hold
        · exact .inr ⟨old, hi, hwaiting, rfl⟩
      · exact .inl hj
    · exact .inl hj
  · exact .inl hj

lemma getElem?_start_of_isOver {stage : δ → α}
    (hj : c.tasks[j]? = some task) (hover : task.state.isOver = true) :
    (c.start i stage).tasks[j]? = some task := by
  unfold start
  split
  · rename_i old hi
    split
    · rename_i hwaiting
      split_ifs
      · rw [getElem?_setState_of_ne, hj]
        rintro rfl
        rw [hj] at hi
        obtain rfl := Option.some.inj hi
        rw [hwaiting] at hover
        cases hover
      · exact hj
    · exact hj
  · exact hj

lemma getElem?_setState_of_isOver {task other : ChainTask κ δ α ω} {stage : α}
    (hi : c.tasks[i]? = some task) (hrun : task.state = .running stage)
    (hj : c.tasks[j]? = some other) (hover : other.state.isOver = true) :
    (c.setState i task state).tasks[j]? = some other := by
  rw [getElem?_setState_of_ne, hj]
  rintro rfl
  rw [hj] at hi
  obtain rfl := Option.some.inj hi
  rw [hrun] at hover
  cases hover

lemma getElem?_crash_of_isOver (hj : c.tasks[j]? = some task)
    (hover : task.state.isOver = true) : c.crash.tasks[j]? = some task := by
  rw [crash, List.getElem?_map, hj, Option.map_some, if_pos hover]

/-- A change of the state of a task keeps the invariant, when it starts in its turn and is not over
for nothing. -/
theorem Sound.setState (h : Sound c)
    (hi : c.tasks[i]? = some task) (hover : task.state.isOver = true → state.isOver = true)
    (hstart : state.hasStarted = true → ∀ p, task.previous = some p → ∀ t, c.tasks[p]? = some t →
      t.state.isOver = true) : Sound (c.setState i task state) where
  tail key t ht := by
    obtain ⟨⟨last, hlast, hkey⟩, hall⟩ := h.tail key t ht
    obtain ⟨last', hlast', hkey'⟩ := exists_setState_of state hi hlast
    refine ⟨⟨last', hlast', hkey'.trans hkey⟩, fun j other hj hother => ?_⟩
    obtain ⟨old, hold, hoverkey, -⟩ := exists_of_setState hi hover hj
    exact hall j old hold (hoverkey.symm.trans hother)
  idle key ht j other hj hother := by
    obtain ⟨old, hold, hkey, -, hmono, -⟩ := exists_of_setState hi hover hj
    exact hmono (h.idle key ht j old hold (hkey.symm.trans hother))
  waits i' j key first second hij hi' hj hfirst hsecond hnot := by
    obtain ⟨first', hfirst', hkey, -, hmono, -⟩ := exists_of_setState hi hover hi'
    obtain ⟨second', hsecond', hkey', hprevious, -⟩ := exists_of_setState hi hover hj
    have hnot' : first'.state.isOver = false := by
      by_contra hcontra
      rw [hmono (eq_true_of_ne_false hcontra)] at hnot
      cases hnot
    obtain ⟨p, hp, hip, hpj, last, hlast, hkeyLast⟩ := h.waits i' j key first' second' hij hfirst'
      hsecond' (hkey.symm.trans hfirst) (hkey'.symm.trans hsecond) hnot'
    obtain ⟨last', hlast', hkeyLast'⟩ := exists_setState_of state hi hlast
    exact ⟨p, hprevious.trans hp, hip, hpj, last', hlast', hkeyLast'.trans hkeyLast⟩
  before j second p hj hp := by
    obtain ⟨old, hold, -, hprevious, -⟩ := exists_of_setState hi hover hj
    exact h.before j old p hold (hprevious.symm.trans hp)
  started j second p hj hstarted hp last hlast := by
    obtain ⟨last', hlast', -, -, hmono, -⟩ := exists_of_setState hi hover hlast
    obtain ⟨old, hold, -, hprevious, -, hsame | ⟨rfl, rfl⟩⟩ := exists_of_setState hi hover hj
    · subst hsame
      exact hmono (h.started j second p hold hstarted hp last' hlast')
    · exact hmono (hstart hstarted p hp last' hlast')

theorem Sound.start (h : Sound c) (stage : δ → α) : Sound (c.start i stage) := by
  unfold PromiseChains.start
  split
  · rename_i task hi
    split
    · rename_i hwaiting
      split_ifs with hready
      · refine h.setState hi (fun hover => ?_) fun _ p hp t ht => ?_
        · rw [hwaiting] at hover
          cases hover
        · rw [ready, hp] at hready
          simpa [ht] using hready
      · exact h
    · exact h
  · exact h

lemma Sound.isOver_previous (h : Sound c) {stage : α}
    (hi : c.tasks[i]? = some task) (hrun : task.state = .running stage) (p : ℕ)
    (hp : task.previous = some p) (t : ChainTask κ δ α ω) (ht : c.tasks[p]? = some t) :
    t.state.isOver = true :=
  h.started i task p hi (by rw [hrun]; rfl) hp t ht

theorem Sound.advance (h : Sound c) {stage stage' : α}
    (hi : c.tasks[i]? = some task) (hrun : task.state = .running stage) :
    Sound (c.advance i task stage') := by
  refine h.setState hi (fun hover => ?_) fun _ => h.isOver_previous hi hrun
  rw [hrun] at hover
  cases hover

theorem Sound.release [DecidableEq κ] (h : Sound c) {key : Option κ}
    (hi : c.tasks[i]? = some task) (hover : task.state.isOver = true) (hkey : task.key = key) :
    Sound (c.release i key) := by
  unfold PromiseChains.release
  split
  · exact h
  · rename_i key
    split_ifs with htail
    · refine ⟨fun key' t ht => ?_, fun key' ht j other hj hother => ?_, h.waits, h.before, h.started⟩
      · rcases eq_or_ne key' key with rfl | hne
        · dsimp only at ht
          rw [Function.update_self] at ht
          cases ht
        · dsimp only at ht
          rw [Function.update_of_ne hne] at ht
          exact h.tail key' t ht
      · rcases eq_or_ne key' key with rfl | hne
        · rcases ((h.tail key' i htail).2 j other hj hother).eq_or_lt with rfl | hlt
          · rw [hi] at hj
            exact Option.some.inj hj ▸ hover
          · exact h.isOver_of_started hlt hj hi hother hkey (TaskState.hasStarted_of_isOver hover)
        · dsimp only at ht
          rw [Function.update_of_ne hne] at ht
          exact h.idle key' ht j other hj hother
    · exact h

theorem Sound.settle [DecidableEq κ] (h : Sound c) {stage : α}
    {answer : ω} (hi : c.tasks[i]? = some task) (hrun : task.state = .running stage) :
    Sound (c.settle i task answer) := by
  have hset : Sound (c.setState i task (.settled answer)) :=
    h.setState hi (fun _ => rfl) fun _ => h.isOver_previous hi hrun
  have hi' : (c.setState i task (.settled answer)).tasks[i]? =
      some { task with state := .settled answer } := by
    rw [PromiseChains.setState, List.getElem?_set_self (lt_length hi)]
  exact hset.release hi' rfl rfl

lemma isOver_crash (h : c.crash.tasks[i]? = some task) :
    task.state.isOver = true := by
  rw [crash, List.getElem?_map, Option.map_eq_some_iff] at h
  obtain ⟨old, -, rfl⟩ := h
  split_ifs with hover
  · exact hover
  · rfl

theorem Sound.crash (h : Sound c) : Sound c.crash where
  tail _ _ ht := nomatch ht
  idle _ _ _ _ hi _ := isOver_crash hi
  waits i j key first second hij hi hj hfirst hsecond hnot := by
    rw [isOver_crash hi] at hnot
    cases hnot
  before j second p hj hp := by
    rw [PromiseChains.crash, List.getElem?_map, Option.map_eq_some_iff] at hj
    obtain ⟨old, hold, rfl⟩ := hj
    refine h.before j old p hold ?_
    rw [← hp]
    split_ifs <;> rfl
  started _ _ _ _ _ _ _ htask := isOver_crash htask

end PromiseChains
