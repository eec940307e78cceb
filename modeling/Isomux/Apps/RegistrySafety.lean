import Isomux.Apps.RegistrySteps
import Mathlib.Data.List.Perm.Subperm

set_option autoImplicit false

/-!
# Addresses and directories of the app registry, over whole runs

Along every run of registrations, changes and deletes, from any file that the registry reads, every
file that is written is read again with the records and the rows that were written. An app keeps its
address until it is deleted, a label stays with its name for good, and a name that is registered again
gets a larger registration generation. A directory stays where it is or is moved whole to a free place,
and two registrations never share one.

## Main results

* `Isomux.AppRegistry.live_run`, `Isomux.AppRegistry.grows_run` — apps and rows along a run.
* `Isomux.AppRegistry.owned_step`, `Isomux.AppRegistry.dirsKept_step` — what an event leaves of the
  directories.
* `Isomux.AppRegistry.registry_safe` — all of it, over whole runs.
-/

namespace Isomux.AppRegistry

variable {options : AppRegistryOptions} {disk : RegistryDisk} {event : Event} {events : List Event}

/-! ## One step -/

def Readable (options : AppRegistryOptions) (disk : RegistryDisk) : Prop :=
  ∃ s, snapshot options disk.file = .ok s

def Deletes (options : AppRegistryOptions) (name : JsString) (disk : RegistryDisk) (event : Event) :
    Prop :=
  Removes name event ∧ ∃ app, (perform options disk event).1 = .ok (some app)

lemma SameAddress.trans {a b c : AppRecord} (h : SameAddress a b) (h' : SameAddress b c) :
    SameAddress a c :=
  ⟨h'.name.trans h.name, h'.port.trans h.port, h'.hostLabel.trans h.hostLabel,
    h'.hostGen.trans h.hostGen, h'.registrationGen.trans h.registrationGen⟩

lemma Grows.trans {a b c : List IssuedLabel} (h : Grows options a b) (h' : Grows options b c) :
    Grows options a c := by
  intro row hrow
  obtain ⟨row', hrow', hsame, r, r', hr, hr', hle⟩ := h row hrow
  obtain ⟨row'', hrow'', hsame', n, r'', hn, hr'', hle'⟩ := h' row' hrow'
  have heq : (r' : ℚ) = n := JsDouble.finite.inj (hr'.symm.trans hn)
  have heq' : r' = n := by exact_mod_cast heq
  exact ⟨row'', hrow'', ⟨hsame'.label.trans hsame.label, hsame'.name.trans hsame.name,
    hsame'.gen.trans hsame.gen⟩, r, r'', hr, hr'', by omega⟩

lemma Valid.grows_asWritten {s : RegistryState} (h : Valid options s) :
    Grows options s.issuedLabels s.asWritten.issuedLabels := by
  intro row hrow
  obtain ⟨r, hr⟩ := h.exists_generation hrow
  obtain ⟨hsame, hgeneration⟩ := (h.rows row hrow).sameIssuance
  exact ⟨row.roundTrip, List.mem_map_of_mem hrow, hsame, r, r, hr, hgeneration.trans hr, le_rfl⟩

/-- **A step of the registry**: the file stays, or a state that may be written is written and read
again. -/
theorem step_file (hproper : Proper options disk event) :
    (step options disk event).file = disk.file ∨
      ∃ s next app, snapshot options disk.file = .ok s ∧ Change options s event next app ∧
        Valid options s ∧ Valid options next ∧
        (step options disk event).file = persisted next ∧
        snapshot options (step options disk event).file = .ok next.asWritten ∧
        (perform options disk event).1 = .ok (some app) := by
  rcases @step_cases options disk event with hsame | ⟨s, next, app, hs, hchange, hfile, hanswer⟩
  · exact .inl hsame
  · have hvalid := valid_of_snapshot hs
    have hnext := hchange.valid hvalid hs hproper
    refine .inr ⟨s, next, app, hs, hchange, hvalid, hnext, hfile, ?_, hanswer⟩
    rw [hfile]
    exact snapshot_persisted hnext

lemma readable_step (hread : Readable options disk) (hproper : Proper options disk event) :
    Readable options (step options disk event) := by
  rcases step_file hproper with hsame | ⟨-, next, -, -, -, -, -, -, hsnapshot, -⟩
  · rw [Readable, hsame]
    exact hread
  · exact ⟨_, hsnapshot⟩

variable {app : AppRecord}

/-- **An app that is not deleted keeps its address** in a step. -/
theorem live_step (hproper : Proper options disk event) (happ : app ∈ live options disk.file)
    (hkept : ¬Deletes options app.name disk event) :
    ∃ app' ∈ live options (step options disk event).file, SameAddress app app' := by
  rcases step_file hproper with hsame | ⟨s, next, answer, hs, hchange, hvalid, hnext, -, hsnapshot, hanswer⟩
  · rw [hsame]
    exact ⟨app, happ, SameAddress.refl app⟩
  · rw [live_of_snapshot hs] at happ
    have hremoves : ¬Removes app.name event := fun h => hkept ⟨h, answer, hanswer⟩
    obtain ⟨app', happ', hsame⟩ := hchange.keeps hvalid hs hproper happ hremoves
    rw [live_of_snapshot hsnapshot]
    exact ⟨app'.asWritten, List.mem_map_of_mem happ', hsame.trans (hnext.apps app' happ').sameAddress⟩

/-- **The ledger grows** in a step. -/
theorem grows_step (hread : Readable options disk) (hproper : Proper options disk event) :
    Grows options (ledger options disk.file) (ledger options (step options disk event).file) := by
  rcases step_file hproper with hsame | ⟨s, next, answer, hs, hchange, hvalid, hnext, -, hsnapshot, -⟩
  · obtain ⟨s, hs⟩ := hread
    rw [hsame, ledger_of_snapshot hs]
    exact (valid_of_snapshot hs).grows_refl
  · rw [ledger_of_snapshot hs, ledger_of_snapshot hsnapshot]
    exact (hchange.grows hvalid hs hproper).trans hnext.grows_asWritten

/-! ## Whole runs -/

lemma readable_run (hread : Readable options disk)
    (hproper : Machine.Along (step options) (Proper options) disk events) :
    Readable options (Machine.run (step options) disk events) :=
  Machine.run_invariant_along (fun _ _ => readable_step) hread hproper

/-- **An app that is not deleted keeps its address** along a run. -/
theorem live_run (hproper : Machine.Along (step options) (Proper options) disk events)
    (happ : app ∈ live options disk.file)
    (hkept : Machine.Along (step options) (fun disk event => ¬Deletes options app.name disk event)
      disk events) :
    ∃ app' ∈ live options (Machine.run (step options) disk events).file, SameAddress app app' := by
  induction events generalizing disk app with
  | nil => exact ⟨app, happ, SameAddress.refl app⟩
  | cons event events ih =>
    obtain ⟨app', happ', hsame⟩ := live_step hproper.1 happ hkept.1
    have hkept' := hkept.2
    rw [← hsame.name] at hkept'
    obtain ⟨app'', happ'', hsame'⟩ := ih hproper.2 happ' hkept'
    exact ⟨app'', happ'', hsame.trans hsame'⟩

/-- **The ledger grows** along a run. -/
theorem grows_run (hread : Readable options disk)
    (hproper : Machine.Along (step options) (Proper options) disk events) :
    Grows options (ledger options disk.file)
      (ledger options (Machine.run (step options) disk events).file) := by
  induction events generalizing disk with
  | nil =>
    obtain ⟨s, hs⟩ := hread
    rw [Machine.run_nil, ledger_of_snapshot hs]
    exact (valid_of_snapshot hs).grows_refl
  | cons event events ih =>
    exact (grows_step hread hproper.1).trans (ih (readable_step hread hproper.1) hproper.2)

/-! ## The directories -/

variable (dirs : JsMap Place (List DataFile))

lemma get_mkdir (place p : Place) : JsMap.get (mkdir dirs place) p =
      if p = place then some ((JsMap.get dirs p).getD []) else JsMap.get dirs p := by
  unfold mkdir
  rw [JsMap.has_eq_isSome]
  by_cases hp : p = place
  · subst hp
    cases hget : JsMap.get dirs p <;> simp [hget, JsMap.get_append]
  · have hne : ¬place = p := fun h => hp h.symm
    split_ifs <;> simp [JsMap.get_append, hne]

lemma retiredEntry_injective (base : JsString) : Function.Injective (retiredEntry base) := by
  have hlonger : ∀ n, retiredEntry base (n + 1) ≠ base := by
    intro n heq
    have hlength := congrArg List.length heq
    simp only [retiredEntry, List.length_append] at hlength
    have hhyphen : (js "-").length = 1 := by decide
    omega
  intro n m h
  cases n with
  | zero =>
    cases m with
    | zero => rfl
    | succ m => exact absurd h.symm (hlonger m)
  | succ n =>
    cases m with
    | zero => exact absurd h (hlonger n)
    | succ m =>
      have hdigits := decimalDigits_injective (List.append_cancel_left h)
      omega

/-- **One of the names is free.** -/
theorem exists_freeEntry (base : JsString) :
    ∃ entry, freeEntry dirs base = some entry ∧ JsMap.get dirs (.retired entry) = none := by
  cases hfree : freeEntry dirs base with
  | some entry =>
    refine ⟨entry, rfl, ?_⟩
    have hhas := List.find?_some hfree
    rw [Bool.not_eq_true', JsMap.has_eq_isSome] at hhas
    simpa using hhas
  | none =>
    -- else there would be more names than directories
    exfalso
    have hall := List.find?_eq_none.1 hfree
    have hsubset : ((List.range (dirs.length + 1)).map fun n => Place.retired (retiredEntry base n)) ⊆
        dirs.map Prod.fst := by
      intro place hplace
      obtain ⟨n, hn, rfl⟩ := List.mem_map.1 hplace
      have hhas := hall _ (List.mem_map_of_mem hn)
      rw [Bool.not_eq_true', Bool.not_eq_false] at hhas
      obtain ⟨content, hmem⟩ := JsMap.has_iff.1 hhas
      exact List.mem_map.2 ⟨_, hmem, rfl⟩
    have hnodup : ((List.range (dirs.length + 1)).map
        fun n => Place.retired (retiredEntry base n)).Nodup :=
      List.nodup_range.map fun n m h => retiredEntry_injective base (Place.retired.inj h)
    have hlength := (List.subperm_of_subset hnodup hsubset).length_le
    rw [List.length_map, List.length_range, List.length_map] at hlength
    exact absurd hlength (Nat.not_succ_le_self _)

/-- **The directory of an app is moved whole to a free place.** -/
theorem get_archiveDataDir (name : JsString) (at_ : JsDouble) :
    (JsMap.get dirs (.data name) = none ∧ archiveDataDir options dirs name at_ = dirs) ∨
      ∃ content entry, JsMap.get dirs (.data name) = some content ∧
        JsMap.get dirs (.retired entry) = none ∧
        ∀ place, JsMap.get (archiveDataDir options dirs name at_) place =
          if place = .data name then none
          else if place = .retired entry then some content else JsMap.get dirs place := by
  obtain ⟨entry, hfree, hnone⟩ := exists_freeEntry dirs (name ++ js "-" ++ numberText options at_)
  cases hget : JsMap.get dirs (.data name) with
  | none => exact .inl ⟨rfl, by simp only [archiveDataDir, hget]⟩
  | some content =>
    refine .inr ⟨content, entry, rfl, hnone, fun place => ?_⟩
    simp only [archiveDataDir, hget, hfree, JsMap.get_append, JsMap.get_delete]
    by_cases hdata : place = .data name
    · subst hdata
      simp
    · by_cases hretired : place = .retired entry
      · subst hretired
        simp [hnone]
      · have hne : ¬Place.retired entry = place := fun h => hretired h.symm
        simp [hdata, hretired, hne]

/-- **Every directory has the data of one registration**: that of an app has the data of the live app of
the name, and one that was set aside has the data of one app. -/
structure Owned (options : AppRegistryOptions) (disk : RegistryDisk) : Prop where
  data : ∀ name content, JsMap.get disk.dirs (.data name) = some content →
    ∀ f ∈ content, ∀ o ∈ f.owner, ∃ app ∈ live options disk.file, app.name = name ∧
      o = (name, app.registrationGen)
  retired : ∀ entry content, JsMap.get disk.dirs (.retired entry) = some content →
    ∃ owner, ∀ f ∈ content, ∀ o ∈ f.owner, o = owner

/-- **What an event leaves of the directories**: each stays as it is, or it is that of an app that is
deleted and is moved whole to a free place, or the app that it is of has written into it. -/
def DirsKept (options : AppRegistryOptions) (disk : RegistryDisk) (event : Event)
    (disk' : RegistryDisk) : Prop :=
  ∀ place content, JsMap.get disk.dirs place = some content →
    JsMap.get disk'.dirs place = some content ∨
      ∃ name, place = .data name ∧
        (Removes name event ∧ (∃ entry, JsMap.get disk.dirs (.retired entry) = none ∧
            JsMap.get disk'.dirs (.retired entry) = some content) ∧
          JsMap.get disk'.dirs place = none ∨
        (∃ files, event = .store name files) ∧ ∃ app ∈ live options disk.file, app.name = name)

lemma dirs_persist {α : Type} (env : Surroundings) (disk : RegistryDisk) (s : RegistryState)
    (answer : α) : (persist env disk s answer).2.dirs = disk.dirs := by
  unfold persist
  split_ifs <;> rfl

/-- What an event does to the directories: nothing, or a registration makes an empty one for a name
that is free, or a delete moves one, or a live app writes into its own. -/
lemma step_dirs (disk : RegistryDisk) (event : Event) :
    (step options disk event).dirs = disk.dirs ∧
        ((step options disk event).file = disk.file ∨ ∀ name, ¬Removes name event) ∨
      (∃ env input s port, event = .register env input ∧ snapshot options disk.file = .ok s ∧
        Admitted options input s port ∧
        (step options disk event).dirs = mkdir disk.dirs (.data input.name)) ∨
      (∃ env name, event = .remove env name ∧ (∃ app ∈ live options disk.file, app.name = name) ∧
        (step options disk event).dirs = archiveDataDir options disk.dirs name env.now) ∨
      ∃ name files, event = .store name files ∧ ∃ app ∈ live options disk.file, app.name = name ∧
        step options disk event =
          { disk with dirs := JsMap.set disk.dirs (.data name) (writtenBy app name files) } := by
  have hdirs : ∀ env s (app : AppRecord) dirs,
      (persist env { disk with dirs } s (some app)).2.dirs = dirs := fun _ _ _ _ => dirs_persist ..
  unfold step
  rcases @perform_cases options disk event with ⟨hsame, -⟩ | ⟨name, files, rfl, app, happ, hname, hstore⟩ |
    ⟨env, s, next, app, hsnapshot, hchange, hperform⟩
  · exact .inl ⟨by rw [hsame], .inl (by rw [hsame])⟩
  · exact .inr (.inr (.inr ⟨name, files, rfl, app, happ, hname, by rw [hstore]⟩))
  · rw [hperform, hdirs]
    cases hchange with
    | @register env' input port hadmitted =>
      exact .inr (.inl ⟨env', input, s, port, rfl, hsnapshot, hadmitted, rfl⟩)
    | update => exact .inl ⟨rfl, .inr fun _ => id⟩
    | @remove env' name app hmem hname =>
      exact .inr (.inr (.inl ⟨env', name, rfl,
        ⟨app, by rwa [live_of_snapshot hsnapshot], hname⟩, rfl⟩))

/-- **What an event leaves of the directories.** -/
theorem dirsKept_step (disk : RegistryDisk) (event : Event) :
    DirsKept options disk event (step options disk event) := by
  intro place content hget
  rcases @step_dirs options disk event with ⟨hsame, -⟩ | ⟨env, input, s, port, rfl, -, -, hdirs⟩ |
    ⟨env, name, rfl, -, hdirs⟩ | ⟨name, files, rfl, app, happ, hname, hstep⟩
  · exact .inl (hsame.symm ▸ hget)
  · refine .inl ?_
    rw [hdirs, get_mkdir, hget]
    split_ifs <;> rfl
  · rw [hdirs]
    rcases @get_archiveDataDir options disk.dirs name env.now with
      ⟨-, hsame⟩ | ⟨moved, entry, hdata, hfree, harchive⟩
    · exact .inl (hsame.symm ▸ hget)
    · by_cases hplace : place = .data name
      · subst hplace
        obtain rfl : moved = content := Option.some.inj (hdata.symm.trans hget)
        refine .inr ⟨name, rfl, .inl ⟨rfl, ⟨entry, hfree, ?_⟩, ?_⟩⟩
        · rw [harchive, if_neg nofun, if_pos rfl]
        · rw [harchive, if_pos rfl]
      · have hne : place ≠ .retired entry := by
          rintro rfl
          cases hfree.symm.trans hget
        exact .inl (by rw [harchive, if_neg hplace, if_neg hne, hget])
  · rw [hstep, JsMap.get_set]
    by_cases hplace : place = .data name
    · exact .inr ⟨name, hplace, .inr ⟨⟨files, rfl⟩, app, happ, hname⟩⟩
    · exact .inl (by rw [if_neg hplace, hget])

lemma owns_of_sameAddress {file : StateFile} {app app' : AppRecord} {name : JsString}
    {o : JsString × JsDouble} (happ' : app' ∈ live options file) (hsame : SameAddress app app')
    (hname : app.name = name) (ho : o = (name, app.registrationGen)) :
    ∃ app ∈ live options file, app.name = name ∧ o = (name, app.registrationGen) :=
  ⟨app', happ', hsame.name.trans hname, ho.trans (by rw [hsame.registrationGen])⟩

/-- **Every directory still has the data of one registration** behind a step. -/
theorem owned_step (h : Owned options disk) (hproper : Proper options disk event) :
    Owned options (step options disk event) := by
  -- an app that is not deleted still owns its directory
  have hkeep : ∀ {name : JsString} {o : JsString × JsDouble}, ¬Removes name event →
      (∃ app ∈ live options disk.file, app.name = name ∧ o = (name, app.registrationGen)) →
      ∃ app ∈ live options (step options disk event).file, app.name = name ∧
        o = (name, app.registrationGen) := by
    rintro name o hremoves ⟨app, happ, rfl, ho⟩
    obtain ⟨app', happ', hsame⟩ := live_step hproper happ fun hdeletes => hremoves hdeletes.1
    exact owns_of_sameAddress happ' hsame rfl ho
  rcases @step_dirs options disk event with ⟨hdirs, hfile⟩ | ⟨env, input, s, port, rfl, hsnapshot,
    hadmitted, hdirs⟩ | ⟨env, name, rfl, ⟨app, happ, hname⟩, hdirs⟩ | ⟨name, files, rfl, app, happ, hname,
    hstep⟩
  · refine ⟨fun name content hget f hf o ho => ?_, fun entry content hget => ?_⟩
    · rw [hdirs] at hget
      rcases hfile with hfile | hremoves
      · rw [hfile]
        exact h.data name content hget f hf o ho
      · exact hkeep (hremoves name) (h.data name content hget f hf o ho)
    · rw [hdirs] at hget
      exact h.retired entry content hget
  · refine ⟨fun name content hget f hf o ho => ?_, fun entry content hget => ?_⟩
    · rw [hdirs, get_mkdir] at hget
      split_ifs at hget with hname
      · -- a directory under a free name has no data of an app
        obtain rfl : name = input.name := Place.data.inj hname
        cases hold : JsMap.get disk.dirs (.data input.name) with
        | none =>
          rw [hold] at hget
          cases hget
          cases hf
        | some old =>
          rw [hold] at hget
          cases hget
          obtain ⟨app, happ, heq, -⟩ := h.data input.name old hold f hf o ho
          rw [live_of_snapshot hsnapshot] at happ
          exact absurd heq (hadmitted.name app happ)
      · exact hkeep id (h.data name content hget f hf o ho)
    · rw [hdirs, get_mkdir, if_neg (by simp)] at hget
      exact h.retired entry content hget
  · have hother : ∀ {other : JsString}, other ≠ name → ¬Removes other (.remove env name) :=
      fun hne heq => hne heq.symm
    rcases @get_archiveDataDir options disk.dirs name env.now with
      ⟨hnone, hsame⟩ | ⟨moved, entry, hdata, hfree, harchive⟩
    · rw [hsame] at hdirs
      refine ⟨fun other content hget f hf o ho => ?_, fun entry content hget => ?_⟩
      · rw [hdirs] at hget
        have hne : other ≠ name := by
          rintro rfl
          cases hnone.symm.trans hget
        exact hkeep (hother hne) (h.data other content hget f hf o ho)
      · rw [hdirs] at hget
        exact h.retired entry content hget
    · refine ⟨fun other content hget f hf o ho => ?_, fun entry' content hget => ?_⟩
      · rw [hdirs, harchive] at hget
        have hplace : Place.data other ≠ .data name := by
          intro heq
          rw [if_pos heq] at hget
          cases hget
        have hne : other ≠ name := fun heq => hplace (congrArg Place.data heq)
        rw [if_neg hplace, if_neg (by simp)] at hget
        exact hkeep (hother hne) (h.data other content hget f hf o ho)
      · rw [hdirs, harchive, if_neg (by simp)] at hget
        split_ifs at hget with hplace
        · cases hget
          refine ⟨(name, app.registrationGen), fun f hf o ho => ?_⟩
          obtain ⟨app', happ', hname', ho'⟩ := h.data name moved hdata f hf o ho
          have hsameApp : app' = app := by
            cases hs : snapshot options disk.file with
            | error e =>
              rw [live, hs] at happ
              cases happ
            | ok s =>
              rw [live_of_snapshot hs] at happ happ'
              exact List.inj_on_of_nodup_map (valid_of_snapshot hs).consistent.names happ' happ
                (hname'.trans hname.symm)
          rw [ho', hsameApp]
        · exact h.retired entry' content hget
  · rw [hstep]
    refine ⟨fun other content hget f hf o ho => ?_, fun entry content hget => ?_⟩
    · rw [JsMap.get_set] at hget
      split_ifs at hget with hplace
      · cases hget
        obtain rfl : other = name := Place.data.inj hplace
        obtain ⟨bytes, -, rfl⟩ := List.mem_map.1 hf
        exact ⟨app, happ, hname, (Option.some.inj ho).symm⟩
      · exact h.data other content hget f hf o ho
    · rw [JsMap.get_set, if_neg (by simp)] at hget
      exact h.retired entry content hget

/-- **A deleted app leaves no directory under its name.** -/
lemma dirs_of_deletes {name : JsString} (h : Deletes options name disk event) :
    JsMap.get (step options disk event).dirs (.data name) = none := by
  obtain ⟨hremoves, answer, hanswer⟩ := h
  cases event with
  | remove env removed =>
    obtain rfl : removed = name := hremoves
    unfold step
    rcases @perform_cases options disk (.remove env removed) with ⟨-, hnone⟩ |
      ⟨name, files, heq, -⟩ | ⟨env', s, next, app, -, -, hperform⟩
    · exact absurd hanswer (hnone answer)
    · cases heq
    · rw [hperform, dirs_persist, madeDirs]
      rcases @get_archiveDataDir options disk.dirs removed env.now with
        ⟨hnone, hsame⟩ | ⟨moved, entry, -, -, harchive⟩
      · rw [hsame, hnone]
      · rw [harchive, if_pos rfl]
  | _ => exact hremoves.elim

/-! ## The registry -/

/-- An operation that is refused: it throws, or there is no app of the name. -/
def Refused (options : AppRegistryOptions) (disk : RegistryDisk) (event : Event) : Prop :=
  ∀ app, (perform options disk event).1 ≠ .ok (some app)

/-- A step that writes writes what is read again, and one that is refused writes nothing. -/
def WritesSound (options : AppRegistryOptions) (disk : RegistryDisk) (event : Event) : Prop :=
  (Refused options disk event → (step options disk event).file = disk.file) ∧
    ((step options disk event).file = disk.file ∨
      ∃ next app, (step options disk event).file = persisted next ∧
        snapshot options (step options disk event).file = .ok next.asWritten ∧
        (perform options disk event).1 = .ok (some app))

/-- Live apps share no name, no port and no label. -/
def Distinct (apps : List AppRecord) : Prop :=
  (apps.map AppRecord.name).Nodup ∧ (apps.map AppRecord.port).Nodup ∧
    (apps.map AppRecord.hostLabel).Nodup

lemma writesSound (hproper : Proper options disk event) : WritesSound options disk event := by
  rcases step_file hproper with hsame | ⟨s, next, app, -, -, -, -, hfile, hsnapshot, hanswer⟩
  · exact ⟨fun _ => hsame, .inl hsame⟩
  · exact ⟨fun hrefused => absurd hanswer (hrefused app), .inr ⟨next, app, hfile, hsnapshot, hanswer⟩⟩

lemma distinct_live (hread : Readable options disk) : Distinct (live options disk.file) := by
  obtain ⟨s, hs⟩ := hread
  have hconsistent := (valid_of_snapshot hs).consistent
  rw [live_of_snapshot hs]
  exact ⟨hconsistent.names, hconsistent.ports, hconsistent.hostLabels⟩

/-- **A label stays with its name**: a live app that has the label of a row has the name of the row. -/
theorem name_of_label (hread : Readable options disk) {row : IssuedLabel}
    (hrow : row ∈ ledger options disk.file) (happ : app ∈ live options disk.file)
    (hlabel : app.hostLabel = IssuedLabel.label row) : app.name = IssuedLabel.name row := by
  obtain ⟨s, hs⟩ := hread
  have hconsistent := (valid_of_snapshot hs).consistent
  rw [ledger_of_snapshot hs] at hrow
  rw [live_of_snapshot hs] at happ
  obtain ⟨row', hrow', hname, hlabel'⟩ := (hconsistent.lineages app happ).exists_row
  have hsame := eq_of_label_eq hconsistent.labels hrow' hrow (hlabel'.trans hlabel)
  rw [← hname, hsame]

lemma exists_row_of_live (hread : Readable options disk)
    (happ : app ∈ live options disk.file) : ∃ row ∈ ledger options disk.file,
      IssuedLabel.name row = app.name ∧
        IssuedLabel.generation options row = app.registrationGen := by
  obtain ⟨s, hs⟩ := hread
  have hvalid := valid_of_snapshot hs
  rw [live_of_snapshot hs] at happ
  rw [ledger_of_snapshot hs]
  have hof := hvalid.consistent.lineages app happ
  obtain ⟨row, hrow, hname, -⟩ := hof.exists_row
  obtain ⟨m, hm, ⟨largest, hlargest, hlargestName, hlargestGen⟩, -⟩ :=
    hvalid.maxOf_lineage hrow hname
  exact ⟨largest, hlargest, hlargestName, hlargestGen.trans (hm.symm.trans hof.maxOf_eq)⟩

/-- **A registration is later than all rows of its name.** -/
theorem later_of_register {env : Surroundings} {input : RegisterAppInput}
    (hproper : Proper options disk (.register env input))
    (hanswer : (perform options disk (.register env input)).1 = .ok (some app)) {row : IssuedLabel}
    (hrow : row ∈ ledger options disk.file) (hname : IssuedLabel.name row = input.name) :
    ∃ r r' : ℕ, IssuedLabel.generation options row = .finite r ∧
      app.registrationGen = .finite r' ∧ r < r' := by
  rcases @perform_cases options disk (.register env input) with ⟨-, hnone⟩ |
    ⟨name, files, heq, -⟩ | ⟨env', s, next, live, hsnapshot, hchange, hperform⟩
  · exact absurd hanswer (hnone app)
  · cases heq
  · cases hchange with
    | register hadmitted =>
      have hissued := issued_of_admitted (valid_of_snapshot hsnapshot) hsnapshot hadmitted hproper
      rw [hperform, persist] at hanswer
      split_ifs at hanswer
      obtain rfl := Option.some.inj (Except.ok.inj hanswer)
      rw [ledger_of_snapshot hsnapshot] at hrow
      exact hissued.later row hrow hname

lemma proper_parts {before rest : List Event}
    (hproper : Machine.Along (step options) (Proper options) disk events)
    (heq : events = before ++ rest) :
    Machine.Along (step options) (Proper options) disk before ∧
      Machine.Along (step options) (Proper options) (Machine.run (step options) disk before) rest := by
  rw [heq] at hproper
  exact Machine.along_append.1 hproper

/-- **The registry keeps addresses for life and never writes what it refuses.** Along every run of
proper inputs from a file that is read:

* every step writes what is read again, or nothing, and writes nothing when it is refused; it leaves
  every directory where it is, or moves it whole, and a deleted app leaves none under its name;
* in every state live apps share no name, no port and no label, and every directory has the data of one
  registration;
* from every state to every later one an app that is not deleted keeps its name, its port, its label and
  its registration generation, a label that was issued goes with its name, and a name that is
  registered again gets a larger registration generation.

**Proof sketch.** What is read may be written, and each operation turns it into what may be written, so
what is written is read again. The ledger is in every valid state the record of all labels: labels are
there once, a row is never lost, and its registration generation never goes down. -/
theorem registry_safe (hread : Readable options disk) (howned : Owned options disk)
    (hproper : Machine.Along (step options) (Proper options) disk events) :
    (∀ before event after, events = before ++ event :: after →
      WritesSound options (Machine.run (step options) disk before) event ∧
        DirsKept options (Machine.run (step options) disk before) event
          (step options (Machine.run (step options) disk before) event) ∧
        ∀ name, Deletes options name (Machine.run (step options) disk before) event →
          JsMap.get (step options (Machine.run (step options) disk before) event).dirs
            (.data name) = none) ∧
    (∀ before after, events = before ++ after →
      Distinct (live options (Machine.run (step options) disk before).file) ∧
        Owned options (Machine.run (step options) disk before)) ∧
    ∀ before span after, events = before ++ span ++ after →
      (∀ app ∈ live options (Machine.run (step options) disk before).file,
        Machine.Along (step options) (fun disk event => ¬Deletes options app.name disk event)
          (Machine.run (step options) disk before) span →
        ∃ app' ∈ live options (Machine.run (step options) disk (before ++ span)).file,
          SameAddress app app') ∧
      (∀ row ∈ ledger options (Machine.run (step options) disk before).file,
        ∀ app ∈ live options (Machine.run (step options) disk (before ++ span)).file,
          app.hostLabel = IssuedLabel.label row → app.name = IssuedLabel.name row) ∧
      ∀ env input rest, after = .register env input :: rest →
        ∀ app ∈ live options (Machine.run (step options) disk before).file, app.name = input.name →
          ∀ app', (perform options (Machine.run (step options) disk (before ++ span))
            (.register env input)).1 = .ok (some app') →
            ∃ r r' : ℕ, app.registrationGen = .finite r ∧ app'.registrationGen = .finite r' ∧
              r < r' := by
  refine ⟨fun before event after heq => ?_, fun before after heq => ?_,
    fun before span after heq => ⟨fun app happ hkept => ?_, fun row hrow app happ hlabel => ?_,
      fun env input rest hafter app happ hname app' hanswer => ?_⟩⟩
  · obtain ⟨-, hrest⟩ := proper_parts hproper heq
    exact ⟨writesSound hrest.1, dirsKept_step _ _, fun name => dirs_of_deletes⟩
  · obtain ⟨hbefore, -⟩ := proper_parts hproper heq
    exact ⟨distinct_live (readable_run hread hbefore),
      Machine.run_invariant_along (fun _ _ => owned_step) howned hbefore⟩
  · rw [List.append_assoc] at heq
    obtain ⟨-, hrest⟩ := proper_parts hproper heq
    rw [Machine.run_append]
    exact live_run (Machine.along_append.1 hrest).1 happ hkept
  · obtain ⟨hboth, -⟩ := proper_parts hproper heq
    rw [List.append_assoc] at heq
    obtain ⟨hbefore, hrest⟩ := proper_parts hproper heq
    have hgrows := grows_run (readable_run hread hbefore) (Machine.along_append.1 hrest).1
    rw [← Machine.run_append] at hgrows
    obtain ⟨row', hrow', hsame, -⟩ := hgrows row hrow
    rw [← hsame.name]
    exact name_of_label (readable_run hread hboth) hrow' happ (hlabel.trans hsame.label.symm)
  · subst hafter
    obtain ⟨-, hregister⟩ := proper_parts hproper heq
    rw [List.append_assoc] at heq
    obtain ⟨hbefore, hrest⟩ := proper_parts hproper heq
    have hgrows := grows_run (readable_run hread hbefore) (Machine.along_append.1 hrest).1
    rw [← Machine.run_append] at hgrows
    obtain ⟨row, hrow, hrowName, hgeneration⟩ :=
      exists_row_of_live (readable_run hread hbefore) happ
    obtain ⟨row', hrow', hsame, r, r', hr, hr', hle⟩ := hgrows row hrow
    obtain ⟨n, m, hn, hm, hlt⟩ := later_of_register hregister.1 hanswer hrow'
      (hsame.name.trans (hrowName.trans hname))
    have heq' : (r' : ℚ) = n := JsDouble.finite.inj (hr'.symm.trans hn)
    have heq'' : r' = n := by exact_mod_cast heq'
    exact ⟨r, m, hgeneration.symm.trans hr, hm, by omega⟩

def officeRegistry : AppRegistryOptions where
  appsFile := js "apps.json"
  portMin := 21000
  portMax := 21999
  valid := by decide
  otherToNumber := fun _ => .nan
  otherToText := fun _ => []

def calm : Surroundings where
  now := .finite 1000
  probePort := fun _ => some true
  mkdirFails := false
  archiveFails := false
  writeFails := false

def smallApp (name : String) : RegisterAppInput where
  name := js name
  command := js "bun run start"
  cwd := js "/srv/app"
  description := none
  userId := none
  username := none
  createdBy := js "agent"
  createdByAgentId := some (js "agent-1")

/-- The disk of an office with an app that has a file in its directory. -/
def boardDisk : RegistryDisk where
  file := persisted (issue officeRegistry ⟨[], []⟩ (smallApp "board") 21000 (.finite 1000)).1
  dirs := [(.data (js "board"), [⟨some (js "board", .finite 1), [1]⟩])]

theorem registry_safe_first :
    let events : List Event := [.register calm (smallApp "notes"), .remove calm (js "board"),
      .register calm (smallApp "board")]
    Distinct (live officeRegistry (Machine.run (step officeRegistry) boardDisk events).file) := by
  intro events
  have hid : ∀ name, ∀ id ∈ (smallApp name).createdByAgentId, ShortId id := by
    rintro name id ⟨⟩
    exact Nat.le_of_ble_eq_true rfl
  have howned : Owned officeRegistry boardDisk := by
    refine ⟨fun name content hget f hf o ho => ?_, fun entry content hget => by cases hget⟩
    obtain ⟨rfl, rfl⟩ : name = js "board" ∧ content = [⟨some (js "board", .finite 1), [1]⟩] := by
      simpa [boardDisk, JsMap.get, eq_comm] using hget
    rw [List.mem_singleton.1 hf] at ho
    cases ho
    decide +kernel
  have hclock : WholeClock (.finite 1000) := show isWholeFrom 0 (.number 1000) = true by decide
  have hsafe := @registry_safe officeRegistry boardDisk events ⟨_, rfl⟩ howned
    ⟨⟨hclock, hid _, by decide +kernel⟩, trivial, ⟨hclock, hid _, by decide +kernel⟩, trivial⟩
  exact (hsafe.2.1 events [] rfl).1

theorem generation_shared : ((live officeRegistry (Machine.run (step officeRegistry) ⟨.missing, []⟩
    [.register calm (smallApp "board"), .register calm (smallApp "notes")]).file).map fun app =>
      (app.name, app.registrationGen)) = [(js "board", .finite 1), (js "notes", .finite 1)] := by
  decide

end Isomux.AppRegistry
