import Mathlib.Data.List.Basic

set_option autoImplicit false

/-!
# Folders that survive a crash

The files of a folder, the operations a program does on them, and what a crash may leave of them. The
bytes of a file are on the disk when the file was flushed, a change of the folder when the folder was.
Behind a crash, every name has its entry or one it had since the folder was flushed last, and of a
file that was not flushed anything may be left.

## Main results

* `Disk.Op.possible_of_untouched`, `Disk.Op.possible_runAll` — operations bring no new entry to
  another name.
* `Disk.Folder.Survives.possible` — what a crash leaves of a name whose files are all flushed.
-/

namespace Disk

variable {ν τ : Type*}

/-- A file: its bytes, when it was changed, and whether all of it is on the disk. -/
structure StoredFile (τ : Type*) where
  bytes : List UInt8
  mtime : τ
  flushed : Bool
  deriving DecidableEq

/-- A folder: what is under every name, and the entries that names had since the folder was flushed. -/
structure Folder (ν τ : Type*) where
  files : ν → Option (StoredFile τ)
  undone : List (ν × Option (StoredFile τ))

inductive Op (ν τ : Type*) where
  | create (name : ν) (now : τ)
  | write (name : ν) (bytes : List UInt8)
  | setTimes (name : ν) (time : τ)
  | flush (name : ν)
  | rename (source target : ν)
  | remove (name : ν)
  | flushFolder
  | append (name : ν) (bytes : List UInt8) (now : τ)

def Op.names : Op ν τ → List ν
  | create name _ => [name]
  | write name _ => [name]
  | setTimes name _ => [name]
  | flush name => [name]
  | rename source target => [source, target]
  | remove name => [name]
  | flushFolder => []
  | append name _ _ => [name]

section Run

variable [DecidableEq ν]

def Folder.put (d : Folder ν τ) (name : ν) (entry : Option (StoredFile τ)) : Folder ν τ :=
  ⟨Function.update d.files name entry, (name, d.files name) :: d.undone⟩

def Folder.change (d : Folder ν τ) (name : ν) (f : StoredFile τ → StoredFile τ) : Folder ν τ :=
  ⟨Function.update d.files name ((d.files name).map f), d.undone⟩

/-- What an operation does. An append is durable: the bytes are on the disk, and so is the entry of
the file. -/
def Op.run : Op ν τ → Folder ν τ → Folder ν τ
  | create name now, d => d.put name (some ⟨[], now, false⟩)
  | write name bytes, d =>
    d.change name fun f => { f with bytes := f.bytes ++ bytes, flushed := false }
  | setTimes name time, d => d.change name fun f => { f with mtime := time, flushed := false }
  | flush name, d => d.change name fun f => { f with flushed := true }
  | rename source target, d => (d.put target (d.files source)).put source none
  | remove name, d => d.put name none
  | flushFolder, d => ⟨d.files, []⟩
  | append name bytes now, d =>
    ⟨Function.update d.files name (some ⟨((d.files name).elim [] (·.bytes)) ++ bytes, now, true⟩),
      d.undone.filter fun e => e.1 ≠ name⟩

def Op.runAll (ops : List (Op ν τ)) (d : Folder ν τ) : Folder ν τ :=
  ops.foldl (fun d op => op.run d) d

end Run

/-- An entry a crash may leave under a name, as far as it is on the disk. -/
def Folder.Possible (d : Folder ν τ) (name : ν) (entry : Option (StoredFile τ)) : Prop :=
  d.files name = entry ∨ (name, entry) ∈ d.undone

def Remains : Option (StoredFile τ) → Option (StoredFile τ) → Prop
  | none, left => left = none
  | some f, left => f.flushed = false ∨ left = some f

def Folder.Survives (d : Folder ν τ) (left : ν → Option (StoredFile τ)) : Prop :=
  ∀ name, ∃ entry, d.Possible name entry ∧ Remains entry (left name)

/-! ## What is under a name -/

section Names

variable {d : Folder ν τ} {name other source target : ν} {entry : Option (StoredFile τ)}

lemma Folder.possible_files (d : Folder ν τ) (name : ν) : d.Possible name (d.files name) := Or.inl rfl

@[simp] lemma Folder.possible_settled {files : ν → Option (StoredFile τ)} :
    Folder.Possible ⟨files, []⟩ name entry ↔ files name = entry := by
  simp [Folder.Possible]

lemma Folder.survives_files (d : Folder ν τ) : d.Survives d.files := by
  intro name
  refine ⟨_, d.possible_files name, ?_⟩
  cases d.files name with
  | none => rfl
  | some f => exact Or.inr rfl

lemma Folder.Survives.possible {left : ν → Option (StoredFile τ)} (h : d.Survives left)
    (hflushed : ∀ f, d.Possible name (some f) → f.flushed = true) : d.Possible name (left name) := by
  obtain ⟨entry, hpossible, hremains⟩ := h name
  cases entry with
  | none =>
    rw [show left name = none from hremains]
    exact hpossible
  | some f =>
    rcases hremains with hlost | hleft
    · exact absurd (hflushed f hpossible) (by rw [hlost]; decide)
    · rw [hleft]
      exact hpossible

variable [DecidableEq ν]

@[simp] lemma Folder.files_put : (d.put name entry).files name = entry := Function.update_self ..

lemma Folder.files_put_of_ne (h : other ≠ name) : (d.put name entry).files other = d.files other :=
  Function.update_of_ne h ..

lemma Folder.possible_put {e : Option (StoredFile τ)} (h : (d.put name entry).Possible name e) :
    e = entry ∨ d.Possible name e := by
  rcases h with h | h
  · exact Or.inl (h.symm.trans Folder.files_put)
  · rcases List.mem_cons.1 h with h | h
    · exact Or.inr (Or.inl (Prod.mk.inj h).2.symm)
    · exact Or.inr (Or.inr h)

lemma Folder.possible_put_of_ne (hne : other ≠ name) {e : Option (StoredFile τ)}
    (h : (d.put name entry).Possible other e) : d.Possible other e := by
  rcases h with h | h
  · exact Or.inl ((Folder.files_put_of_ne hne).symm.trans h)
  · rcases List.mem_cons.1 h with h | h
    · exact absurd (Prod.mk.inj h).1 hne
    · exact Or.inr h

@[simp] lemma Folder.files_change (f : StoredFile τ → StoredFile τ) :
    (d.change name f).files name = (d.files name).map f := Function.update_self ..

lemma Folder.files_change_of_ne (h : other ≠ name) (f : StoredFile τ → StoredFile τ) :
    (d.change name f).files other = d.files other := Function.update_of_ne h ..

lemma Folder.possible_change_of_ne (hne : other ≠ name) {f : StoredFile τ → StoredFile τ}
    (h : (d.change name f).Possible other entry) : d.Possible other entry :=
  h.imp_left (Folder.files_change_of_ne hne f).symm.trans

theorem Op.files_of_untouched (op : Op ν τ) (h : name ∉ op.names) :
    (op.run d).files name = d.files name := by
  cases op with
  | create n now => exact Folder.files_put_of_ne (List.ne_of_not_mem_cons h)
  | write n bytes | setTimes n time | flush n =>
    exact Folder.files_change_of_ne (List.ne_of_not_mem_cons h) _
  | rename source target =>
    have htarget : name ≠ target := fun heq => h (heq ▸ List.mem_cons_of_mem _ List.mem_cons_self)
    exact (Folder.files_put_of_ne (List.ne_of_not_mem_cons h)).trans
      (Folder.files_put_of_ne htarget)
  | remove n => exact Folder.files_put_of_ne (List.ne_of_not_mem_cons h)
  | flushFolder => rfl
  | append n bytes now => exact Function.update_of_ne (List.ne_of_not_mem_cons h) ..

/-- **An operation brings no new entry to another name.** -/
theorem Op.possible_of_untouched (op : Op ν τ) (h : name ∉ op.names)
    (hpossible : (op.run d).Possible name entry) : d.Possible name entry := by
  cases op with
  | create n now => exact Folder.possible_put_of_ne (List.ne_of_not_mem_cons h) hpossible
  | write n bytes | setTimes n time | flush n =>
    exact Folder.possible_change_of_ne (List.ne_of_not_mem_cons h) hpossible
  | rename source target =>
    have htarget : name ≠ target := fun heq => h (heq ▸ List.mem_cons_of_mem _ List.mem_cons_self)
    exact Folder.possible_put_of_ne htarget
      (Folder.possible_put_of_ne (List.ne_of_not_mem_cons h) hpossible)
  | remove n => exact Folder.possible_put_of_ne (List.ne_of_not_mem_cons h) hpossible
  | flushFolder => exact Or.inl (Folder.possible_settled.1 hpossible)
  | append n bytes now =>
    rcases hpossible with hthere | hundone
    · exact Or.inl ((Function.update_of_ne (List.ne_of_not_mem_cons h) ..).symm.trans hthere)
    · exact Or.inr (List.mem_filter.1 hundone).1

theorem Op.files_runAll {ops : List (Op ν τ)} (h : ∀ op ∈ ops, name ∉ op.names) :
    (Op.runAll ops d).files name = d.files name := by
  induction ops generalizing d with
  | nil => rfl
  | cons op ops ih =>
    exact (ih fun o ho => h o (List.mem_cons_of_mem _ ho)).trans
      (op.files_of_untouched (h op List.mem_cons_self))

theorem Op.possible_runAll {ops : List (Op ν τ)} (h : ∀ op ∈ ops, name ∉ op.names)
    (hpossible : (Op.runAll ops d).Possible name entry) : d.Possible name entry := by
  induction ops generalizing d with
  | nil => exact hpossible
  | cons op ops ih =>
    exact op.possible_of_untouched (h op List.mem_cons_self)
      (ih (fun o ho => h o (List.mem_cons_of_mem _ ho)) hpossible)

lemma Op.possible_flushFolder (h : (Op.flushFolder.run d).Possible name entry) :
    d.files name = entry := Folder.possible_settled.1 h

lemma Op.possible_rename (hne : target ≠ source)
    (h : ((Op.rename source target).run d).Possible target entry) :
    entry = d.files source ∨ d.Possible target entry :=
  Folder.possible_put (Folder.possible_put_of_ne hne h)

lemma Op.files_rename (hne : target ≠ source) :
    ((Op.rename source target).run d).files target = d.files source :=
  (Folder.files_put_of_ne hne).trans Folder.files_put

lemma Op.possible_append {bytes : List UInt8} {now : τ}
    (h : ((Op.append name bytes now).run d).Possible name entry) :
    entry = some ⟨((d.files name).elim [] (·.bytes)) ++ bytes, now, true⟩ := by
  rcases h with h | h
  · exact h.symm.trans (Function.update_self ..)
  · exact absurd rfl (of_decide_eq_true (List.mem_filter.1 h).2)

end Names

end Disk
