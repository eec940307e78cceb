import Isomux.Apps.RegistryState
import Mathlib.Data.List.Nodup

set_option autoImplicit false

/-!
# What the operations of the app registry write

An operation that writes turns the state that it read into the state that it writes in one of three
ways: an app is registered, a record is changed in its place, or a record is left out. Each of them
turns a state that may be written into one that may be written.

## Main results

* `Isomux.AppRegistry.perform_cases` — what an operation does.
* `Isomux.AppRegistry.Change.valid` — what is written may be written.
* `Isomux.AppRegistry.Change.keeps` — the address of an app that is not left out.
* `Isomux.AppRegistry.Change.grows` — the ledger only grows.
-/

namespace Isomux.AppRegistry

open JsValue (Defined)

variable {options : AppRegistryOptions} {s next : RegistryState} {app : AppRecord}

/-! ## The inputs of a registration -/

lemma allocatePort_eq_ok {used : List JsDouble} {probePort : ℕ → Option Bool} {port : ℕ}
    (h : allocatePort options used probePort = .ok port) :
    options.portMin ≤ port ∧ port ≤ options.portMax ∧ JsDouble.finite port ∉ used := by
  have hgo : ∀ ports, allocatePort.go options used probePort ports = .ok port →
      port ∈ ports ∧ JsDouble.finite port ∉ used := by
    intro ports
    induction ports with
    | nil => nofun
    | cons p ports ih =>
      intro h
      rw [allocatePort.go] at h
      split_ifs at h with hused
      · exact ⟨List.mem_cons_of_mem _ (ih h).1, (ih h).2⟩
      · split at h
        · cases h
        · exact ⟨List.mem_cons_of_mem _ (ih h).1, (ih h).2⟩
        · cases h
          exact ⟨List.mem_cons_self, hused⟩
  obtain ⟨hmem, hfree⟩ := hgo _ h
  have hrange := List.mem_range'_1.1 hmem
  exact ⟨hrange.1, by omega, hfree⟩

structure Admitted (options : AppRegistryOptions) (input : RegisterAppInput) (s : RegistryState)
    (port : ℕ) : Prop where
  refusal : input.refusal = none
  name : ∀ app ∈ s.apps, app.name ≠ input.name
  label : ∀ row ∈ s.issuedLabels, IssuedLabel.label row = input.name →
    IssuedLabel.name row = input.name
  window : options.portMin ≤ port ∧ port ≤ options.portMax
  free : JsDouble.finite port ∉ s.apps.map AppRecord.port

variable {row : IssuedLabel} {name : JsString} {issued : List IssuedLabel} {patch : UpdateAppInput}
  {key : String} {file : StateFile}

lemma admit_eq_ok {probePort : ℕ → Option Bool} {input : RegisterAppInput}
    {port : ℕ} (h : admission options probePort input file = .ok (s, port)) :
    snapshot options file = .ok s ∧ Admitted options input s port := by
  unfold admission at h
  split at h
  · cases h
  · rename_i hrefusal
    split at h
    · cases h
    · rename_i s' hsnapshot
      split_ifs at h with hlimit hname
      split at h
      · cases h
      · rename_i hforeign
        cases hport : allocatePort options (s'.apps.map AppRecord.port) probePort with
        | error e =>
          rw [hport] at h
          cases h
        | ok p =>
          rw [hport] at h
          cases h
          obtain ⟨hmin, hmax, hfree⟩ := allocatePort_eq_ok hport
          refine ⟨hsnapshot, hrefusal, fun app happ heq => hname ?_, fun row hrow hlabel => ?_,
            ⟨hmin, hmax⟩, hfree⟩
          · exact List.any_eq_true.2 ⟨app, happ, decide_eq_true heq⟩
          · by_contra hother
            have hnone := List.find?_eq_none.1 hforeign row hrow
            exact hnone (decide_eq_true ⟨hlabel, hother⟩)

lemma firstOf_eq_none {refusals : List (Option AppRegistryError)} (h : firstOf refusals = none) :
    ∀ r ∈ refusals, r = none := by
  intro r hr
  exact List.findSome?_eq_none_iff.1 h r hr

lemma isNameText_of_checkAppName (h : checkAppName name = none) :
    isNameText name = true := by
  unfold checkAppName at h
  split_ifs at h with hempty hlong hpattern
  simp only [Bool.not_eq_true', Bool.not_eq_false] at hpattern
  have hpos : 0 < name.length := Nat.pos_of_ne_zero hempty
  simp [isNameText, hpos, Nat.le_of_not_lt hlong, hpattern]

lemma check_command {command : JsString} (h : assertCommand command = none) :
    (0 < command.trim.length && command.length ≤ MAX_APP_COMMAND_LENGTH) = true := by
  unfold assertCommand at h
  split_ifs at h with hblank hlong
  have hpos : 0 < command.trim.length := Nat.pos_of_ne_zero hblank
  simp [hpos, Nat.le_of_not_lt hlong]

lemma isAbsolute_of_assertCwd {cwd : JsString} (h : assertCwd cwd = none) : isAbsolute cwd = true := by
  unfold assertCwd at h
  split_ifs at h with habsolute
  exact habsolute

lemma length_of_assertDescription {description : JsString}
    (h : assertDescription description = none) :
    description.length ≤ MAX_APP_DESCRIPTION_LENGTH := by
  unfold assertDescription at h
  split_ifs at h with hlong
  exact Nat.le_of_not_lt hlong

/-! ## The inputs that the file can hold -/

def WholeClock (at_ : JsDouble) : Prop := isWholeFrom 0 at_.toJs = true

def ShortId (id : JsString) : Prop := id.length ≤ MAX_AGENT_ID_LENGTH

/-- **The inputs that the file can hold**: whole milliseconds, ids of agents that are short enough, and
a lineage whose registration generation can still grow. -/
def Proper (options : AppRegistryOptions) (disk : RegistryDisk) : Event → Prop
  | .register env input => WholeClock env.now ∧ (∀ id ∈ input.createdByAgentId, ShortId id) ∧
      ∀ row ∈ ledger options disk.file, IssuedLabel.name row = input.name →
        IssuedLabel.generation options row ≠ .finite MAX_SAFE_INTEGER
  | .update _ _ patch => (∀ id ∈ patch.messageTargetAgentId, ShortId id) ∧
      ∀ creator ∈ patch.creator, ShortId creator.id
  | .remove _ _ => True
  | .store _ _ => True

/-! ## A new record -/

lemma get_optionalField (key name : String) (value : Option JsValue) (rest : JsMap String JsValue) :
    JsMap.get (optionalField key value ++ rest) name =
      if key = name then value.or (JsMap.get rest name) else JsMap.get rest name := by
  cases value with
  | none => simp [optionalField]
  | some value =>
    rw [optionalField, List.singleton_append, JsMap.get_cons]
    by_cases hkey : key = name <;> simp [hkey]

lemma field_newRecord (input : RegisterAppInput) (port : ℕ) (hostLabel hostGen : JsValue)
    (at_ registrationGen : JsDouble) : ∀ f ∈ [("name", JsValue.string input.name),
      ("hostLabel", hostLabel), ("hostGen", hostGen), ("port", .number port),
      ("command", .string input.command), ("cwd", .string input.cwd),
      ("description", JsValue.ofOption JsValue.string input.description),
      ("userId", ofNullable input.userId), ("username", ofNullable input.username),
      ("createdBy", .string input.createdBy),
      ("createdByAgentId",
        JsValue.ofOption JsValue.string (input.createdByAgentId.filter (· ≠ []))),
      ("messageTargetAgentId",
        JsValue.ofOption JsValue.string (input.createdByAgentId.filter (· ≠ []))),
      ("createdAt", at_.toJs), ("thumbnailUpdatedAt", .undefined), ("archived", .undefined)],
      (newRecord input port hostLabel hostGen at_ registrationGen).field f.1 = f.2 := by
  have hoption : ∀ text : Option JsString,
      (text.map JsValue.string).getD .undefined = JsValue.ofOption JsValue.string text := by
    intro text
    cases text <;> rfl
  simp only [newRecord, AppRecord.field, JsValue.field, JsValue.fields, List.append_assoc,
    List.cons_append, List.nil_append, JsMap.get_cons, get_optionalField, List.forall_mem_cons]
  simp [JsMap.get, hoption]

lemma isNullableString_ofNullable (text : Option JsString) : isNullableString (ofNullable text) = true := by
  cases text <;> rfl

lemma isOptionalString_ofOption {max : ℕ} {text : Option JsString} (h : ∀ t ∈ text, t.length ≤ max) :
    isOptionalString max (JsValue.ofOption JsValue.string text) = true := by
  cases text with
  | none => rfl
  | some t =>
    have hshort := h t rfl
    simpa [isOptionalString, JsValue.isOptional, JsValue.ofOption, isShortText,
      JsValue.isStringWith, JsValue.isUndefined] using hshort

/-- The names of the fields of a new record. -/
lemma mem_fields_newRecord {input : RegisterAppInput} {port : ℕ} {hostLabel hostGen : JsValue}
    {at_ registrationGen : JsDouble} {f : String × JsValue}
    (hf : f ∈ (newRecord input port hostLabel hostGen at_ registrationGen).fields) :
    f.1 ∉ heldBack ∧ (hostLabel ≠ .undefined → hostGen ≠ .undefined → f.2 ≠ .undefined) := by
  have hoption : ∀ {key : String} {text : Option JsString},
      f ∈ optionalField key (text.map JsValue.string) → f.1 = key ∧ f.2 ≠ .undefined := by
    intro key text hmem
    cases text with
    | none => cases hmem
    | some t =>
      obtain rfl := List.mem_singleton.1 hmem
      exact ⟨rfl, nofun⟩
  have htext : ∀ text, ofNullable text ≠ .undefined := by
    intro text
    cases text <;> exact nofun
  have hnumber : at_.toJs ≠ .undefined := by cases at_ <;> exact nofun
  simp only [newRecord, List.mem_append, List.mem_cons, List.not_mem_nil, or_false] at hf
  rcases hf with (((((rfl | rfl | rfl | rfl | rfl | rfl) | hf) | rfl | rfl | rfl) | hf) | hf) | rfl
  · exact ⟨show "name" ∉ heldBack by decide, fun _ _ => nofun⟩
  · exact ⟨show "hostLabel" ∉ heldBack by decide, fun h _ => h⟩
  · exact ⟨show "hostGen" ∉ heldBack by decide, fun _ h => h⟩
  · exact ⟨show "port" ∉ heldBack by decide, fun _ _ => nofun⟩
  · exact ⟨show "command" ∉ heldBack by decide, fun _ _ => nofun⟩
  · exact ⟨show "cwd" ∉ heldBack by decide, fun _ _ => nofun⟩
  · exact ⟨(hoption hf).1 ▸ by decide, fun _ _ => (hoption hf).2⟩
  · exact ⟨show "userId" ∉ heldBack by decide, fun _ _ => htext _⟩
  · exact ⟨show "username" ∉ heldBack by decide, fun _ _ => htext _⟩
  · exact ⟨show "createdBy" ∉ heldBack by decide, fun _ _ => nofun⟩
  · exact ⟨(hoption hf).1 ▸ by decide, fun _ _ => (hoption hf).2⟩
  · exact ⟨(hoption hf).1 ▸ by decide, fun _ _ => (hoption hf).2⟩
  · exact ⟨show "createdAt" ∉ heldBack by decide, fun _ _ => hnumber⟩

/-- **A new record may be written**, if what the registry does not check is proper. -/
lemma validApp_newRecord {input : RegisterAppInput} {port g r : ℕ} {hostLabel : JsString}
    {at_ : JsDouble} (hadmitted : Admitted options input s port) (hclock : WholeClock at_)
    (hid : ∀ id ∈ input.createdByAgentId, ShortId id) (hlabel : isNameText hostLabel = true)
    (hg : isGeneration (.number g) = true) (hr : isGeneration (.number r) = true) (hle : g ≤ r) :
    ValidApp options (newRecord input port (.string hostLabel) (.number g) at_ (.finite r)) := by
  have hfield := field_newRecord input port (.string hostLabel) (.number g) at_ (.finite r)
  set app := newRecord input port (.string hostLabel) (.number g) at_ (.finite r) with happ
  simp only [List.forall_mem_cons, List.not_mem_nil, false_imp_iff, implies_true, and_true] at hfield
  obtain ⟨hname, hhostLabel, hhostGen, hport, hcommand, hcwd, hdescription, huserId, husername,
    hcreatedBy, hcreatedByAgentId, htarget, hcreatedAt, hthumbnail, harchived⟩ := hfield
  have hrefusals := firstOf_eq_none hadmitted.refusal
  simp only [List.forall_mem_cons, List.not_mem_nil, false_imp_iff, implies_true, and_true]
    at hrefusals
  obtain ⟨hnameOk, hcommandOk, hcwdOk, hdescriptionOk⟩ := hrefusals
  have hshort : ∀ id ∈ input.createdByAgentId.filter (· ≠ []), id.length ≤ MAX_AGENT_ID_LENGTH :=
    fun id hmem => hid id (Option.mem_filter_iff.1 hmem).1
  have hwindow : isPortWithin options (.number port) = true := by
    have hmin : (options.portMin : ℚ) ≤ port := by exact_mod_cast hadmitted.window.1
    have hmax : (port : ℚ) ≤ options.portMax := by exact_mod_cast hadmitted.window.2
    simp [isPortWithin, Rat.isInt, hmin, hmax]
  have hcreated : isFiniteNumber at_.toJs = true := by
    cases at_ <;> first | rfl | cases hclock
  have hdescriptionShort : ∀ t ∈ input.description, t.length ≤ MAX_APP_DESCRIPTION_LENGTH := by
    intro t ht
    rw [Option.mem_def.1 ht] at hdescriptionOk
    exact length_of_assertDescription hdescriptionOk
  refine ⟨isPersistedApp_iff.2 ⟨rfl, ?_, ?_, ?_⟩, fun name hheld hmem => ?_, fun f hf => ?_⟩
  · have hstrip : ∀ c ∈ legacyChecks options, (strip app).field c.1 = app.field c.1 := by
      intro c hc
      refine field_strip_of_ne app fun heq => ?_
      simp [legacyChecks, Prod.ext_iff, heq] at hc
    refine List.all_eq_true.2 fun c hc => ?_
    rw [hstrip c hc]
    simp only [legacyChecks, List.mem_cons, List.not_mem_nil, or_false] at hc
    rcases hc with rfl | rfl | rfl | rfl | rfl | rfl | rfl | rfl | rfl | rfl | rfl | rfl | rfl
    · exact (congrArg _ hname).trans (isNameText_of_checkAppName hnameOk)
    · exact (congrArg _ hport).trans hwindow
    · exact (congrArg _ hcommand).trans (check_command hcommandOk)
    · exact (congrArg _ hcwd).trans (isAbsolute_of_assertCwd hcwdOk)
    · exact (congrArg _ hdescription).trans (isOptionalString_ofOption hdescriptionShort)
    · exact (congrArg _ huserId).trans (isNullableString_ofNullable _)
    · exact (congrArg _ husername).trans (isNullableString_ofNullable _)
    · exact (congrArg _ hcreatedBy).trans rfl
    · exact (congrArg _ hcreatedByAgentId).trans (isOptionalString_ofOption hshort)
    · exact (congrArg _ htarget).trans (isOptionalString_ofOption hshort)
    · exact (congrArg _ hcreatedAt).trans hcreated
    · exact (congrArg _ hthumbnail).trans rfl
    · exact (congrArg _ harchived).trans rfl
  · refine List.all_eq_true.2 fun c hc => ?_
    simp only [hostChecks, List.mem_cons, List.not_mem_nil, or_false] at hc
    rcases hc with rfl | rfl
    · exact (congrArg _ ((field_strip_of_ne app (by decide)).trans hhostLabel)).trans hlabel
    · exact (congrArg _ ((field_strip_of_ne app (by decide)).trans hhostGen)).trans hg
  · have hle' : (g : ℚ) ≤ r := by exact_mod_cast hle
    have hat : isAtLeast (.number r) (.number g) = true := decide_eq_true hle'
    rw [field_strip_registrationGen, field_strip_of_ne app (by decide), hhostGen,
      isLaterGeneration, JsValue.isOptional, Bool.or_eq_true_iff]
    exact .inr (Bool.and_eq_true_iff.2 ⟨hr, hat⟩)
  · obtain ⟨f, hf, rfl⟩ := List.mem_map.1 hmem
    exact (mem_fields_newRecord hf).1 hheld
  · exact (mem_fields_newRecord hf).2 (by simp) (by simp)

/-! ## One more app -/

lemma OfLineage.of_filter {issued issued' : List IssuedLabel} (h : OfLineage options issued app)
    (hrows : (issued'.filter fun row => IssuedLabel.name row = app.name) =
      issued.filter fun row => IssuedLabel.name row = app.name) : OfLineage options issued' app := by
  have hfind : ∀ rows : List IssuedLabel,
      rows.reverse.find? (fun row => decide (IssuedLabel.name row = app.name)) =
        (rows.filter fun row => decide (IssuedLabel.name row = app.name)).getLast? := by
    intro rows
    rw [← List.head?_filter, List.filter_reverse, List.head?_reverse]
  obtain ⟨hlabel, hlatest, hgeneration⟩ := h
  refine ⟨hlabel, ?_, ?_⟩
  · rw [hfind, hrows, ← hfind]
    exact hlatest
  · rw [lineageGenerations, hrows]
    exact hgeneration

lemma eq_of_label_eq (h : (issued.map IssuedLabel.label).Nodup)
    {row row' : IssuedLabel} (hrow : row ∈ issued) (hrow' : row' ∈ issued)
    (heq : IssuedLabel.label row = IssuedLabel.label row') : row = row' :=
  List.inj_on_of_nodup_map h hrow hrow' heq

lemma OfLineage.exists_row (h : OfLineage options issued app) :
    ∃ row ∈ issued, IssuedLabel.name row = app.name ∧ IssuedLabel.label row = app.hostLabel := by
  obtain ⟨row, hlatest, hlabel, -⟩ := h.latest
  exact ⟨row, List.mem_reverse.1 (List.mem_of_find?_eq_some hlatest),
    by simpa using List.find?_some hlatest, hlabel⟩

/-- **One more app** at a free name and a free port, with a ledger that is as before for all other
names. -/
theorem Consistent.add (h : Consistent options s)
    (hlabels : (issued.map IssuedLabel.label).Nodup)
    (hother : ∀ name, name ≠ app.name → (issued.filter fun row => IssuedLabel.name row = name) =
      s.issuedLabels.filter fun row => IssuedLabel.name row = name)
    (hof : OfLineage options issued app) (hname : ∀ a ∈ s.apps, a.name ≠ app.name)
    (hport : app.port ∉ s.apps.map AppRecord.port) :
    Consistent options ⟨s.apps ++ [app], issued⟩ := by
  have hlineages : ∀ a ∈ s.apps, OfLineage options issued a := fun a ha =>
    (h.lineages a ha).of_filter (hother a.name (hname a ha))
  have happend : ∀ {β : Type} (shown : AppRecord → β), (s.apps.map shown).Nodup →
      shown app ∉ s.apps.map shown → ((s.apps ++ [app]).map shown).Nodup := by
    intro β shown hnodup hfresh
    rw [List.map_append]
    exact List.Nodup.append hnodup (List.nodup_singleton _)
      (List.disjoint_singleton.2 hfresh)
  refine ⟨hlabels, happend _ h.names ?_, happend _ h.ports hport, happend _ h.hostLabels ?_, ?_⟩
  · intro hmem
    obtain ⟨a, ha, heq⟩ := List.mem_map.1 hmem
    exact hname a ha heq
  · intro hmem
    obtain ⟨a, ha, heq⟩ := List.mem_map.1 hmem
    obtain ⟨row, hrow, hrowName, hrowLabel⟩ := (hlineages a ha).exists_row
    obtain ⟨row', hrow', hrowName', hrowLabel'⟩ := hof.exists_row
    have hsame := eq_of_label_eq hlabels hrow hrow' (hrowLabel.trans (heq.trans hrowLabel'.symm))
    exact hname a ha (hrowName.symm.trans ((congrArg IssuedLabel.name hsame).trans hrowName'))
  · intro a ha
    rcases List.mem_append.1 ha with ha | ha
    · exact hlineages a ha
    · exact (List.mem_singleton.1 ha) ▸ hof

lemma field_setField (v value : JsValue) (key name : String) : (setField v key value).field name =
    if name = key then value else v.field name := by
  simp only [setField, JsValue.field, JsValue.fields, JsMap.get_set]
  split_ifs <;> rfl

lemma sameIssuance_setField (row : IssuedLabel) (value : JsValue) :
    SameIssuance row (setField row "registrationGen" value) := by
  constructor
  · rw [IssuedLabel.label, field_setField, if_neg (by decide), IssuedLabel.label]
  · rw [IssuedLabel.name, field_setField, if_neg (by decide), IssuedLabel.name]
  · rw [IssuedLabel.gen, field_setField, if_neg (by decide), IssuedLabel.gen]

lemma generation_setField (row : IssuedLabel) (r : ℕ) :
    IssuedLabel.generation options (setField row "registrationGen" (.number r)) = .finite r := by
  rw [IssuedLabel.generation, field_setField, if_pos rfl]
  rfl

lemma ValidRow.setField (h : ValidRow options row) {g r : ℕ}
    (hgen : row.field "gen" = .number g) (hr : isGeneration (.number r) = true) (hle : g ≤ r) :
    ValidRow options (setField row "registrationGen" (.number r)) := by
  obtain ⟨-, hrow, hlabel, -⟩ := isIssuedLabel_iff.1 h.passes
  have hsame := sameIssuance_setField row (.number r)
  constructor
  · refine isIssuedLabel_iff.2 ⟨rfl, List.all_eq_true.2 fun c hc => ?_, ?_, ?_⟩
    · have hne : c.1 ≠ "registrationGen" := by
        intro heq
        simp [rowChecks, Prod.ext_iff, heq] at hc
      rw [field_setField, if_neg hne]
      exact List.all_eq_true.1 hrow c hc
    · rw [hsame.label, hsame.name, hsame.gen]
      exact hlabel
    · have hle' : (g : ℚ) ≤ r := by exact_mod_cast hle
      have hat : isAtLeast (.number r) (.number g) = true := decide_eq_true hle'
      rw [field_setField, if_neg (by decide), hgen, field_setField, if_pos rfl, isLaterGeneration,
        JsValue.isOptional, Bool.or_eq_true_iff]
      exact .inr (Bool.and_eq_true_iff.2 ⟨hr, hat⟩)
  · intro f hf
    rcases JsMap.mem_set hf with hf | rfl
    · exact h.defined f hf
    · rintro ⟨⟩

lemma validRow_first {at_ : JsDouble} (hname : isNameText name = true)
    (hclock : WholeClock at_) : ValidRow options (firstRow name at_) := by
  have hshort : name.length ≤ MAX_APP_NAME_LENGTH := by
    simp only [isNameText, Bool.and_eq_true, decide_eq_true_eq] at hname
    exact hname.1.2
  have hgen : isGeneration (.number 1) = true := by decide
  have hat : isAtLeast (.number 1) (.number 1) = true := by decide
  have hfinite : isFiniteNumber at_.toJs = true := by
    cases at_ <;> first | rfl | cases hclock
  have hwhole : isWholeFrom 0 at_.toJs = true := hclock
  constructor
  · refine isIssuedLabel_iff.2 ⟨rfl, ?_, ?_, ?_⟩
    · simp [firstRow, passes, rowChecks, JsValue.field, JsValue.fields, JsMap.get, isShortText,
        JsValue.isStringWith, JsValue.isOptional, hname, hshort, hgen, hfinite, hwhole]
    · simp [firstRow, IssuedLabel.label, IssuedLabel.name, IssuedLabel.gen, JsValue.field, JsValue.fields,
        JsMap.get, textOf, numberOf, labelFor]
    · simp [firstRow, isLaterGeneration, JsValue.isOptional, JsValue.field, JsValue.fields, JsMap.get, hgen,
        hat]
  · intro f hf
    simp only [firstRow, JsValue.fields, List.mem_cons, List.not_mem_nil, or_false] at hf
    have hnumber : at_.toJs ≠ .undefined := by cases at_ <;> rintro ⟨⟩
    rcases hf with rfl | rfl | rfl | rfl | rfl | rfl
    · rintro ⟨⟩
    · rintro ⟨⟩
    · rintro ⟨⟩
    · exact hnumber
    · exact hnumber
    · rintro ⟨⟩

/-! ## What a registration makes of the state -/

/-- Every row is still there, and its registration generation has not gone down. -/
def Grows (options : AppRegistryOptions) (issued issued' : List IssuedLabel) : Prop :=
  ∀ row ∈ issued, ∃ row' ∈ issued', SameIssuance row row' ∧ ∃ r r' : ℕ,
    IssuedLabel.generation options row = .finite r ∧
      IssuedLabel.generation options row' = .finite r' ∧ r ≤ r'

/-- What a registration of a name makes of the state. -/
structure Issued (options : AppRegistryOptions) (s next : RegistryState) (app : AppRecord)
    (key : JsString) : Prop where
  valid : Valid options next
  apps : next.apps = s.apps ++ [app]
  name : app.name = key
  grows : Grows options s.issuedLabels next.issuedLabels
  later : ∀ row ∈ s.issuedLabels, IssuedLabel.name row = key → ∃ r r' : ℕ,
    IssuedLabel.generation options row = .finite r ∧ app.registrationGen = .finite r' ∧ r < r'

lemma Valid.exists_generation (h : Valid options s) (hrow : row ∈ s.issuedLabels) :
    ∃ r : ℕ, IssuedLabel.generation options row = .finite r := by
  obtain ⟨-, r, -, hr, -⟩ := generation_of_isIssuedLabel (h.rows row hrow).passes
  exact ⟨r, hr⟩

lemma Valid.grows_refl (h : Valid options s) : Grows options s.issuedLabels s.issuedLabels := by
  intro row hrow
  obtain ⟨r, hr⟩ := h.exists_generation hrow
  exact ⟨row, hrow, ⟨rfl, rfl, rfl⟩, r, r, hr, hr, le_rfl⟩

lemma address_newRecord (input : RegisterAppInput) (port : ℕ) (hostLabel : JsString) (g : ℕ)
    (at_ registrationGen : JsDouble) :
    (newRecord input port (.string hostLabel) (.number g) at_ registrationGen).name = input.name ∧
      (newRecord input port (.string hostLabel) (.number g) at_ registrationGen).port =
        .finite port ∧
      (newRecord input port (.string hostLabel) (.number g) at_ registrationGen).hostLabel =
        hostLabel ∧
      (newRecord input port (.string hostLabel) (.number g) at_ registrationGen).hostGen =
        .finite g := by
  have hfield := field_newRecord input port (.string hostLabel) (.number g) at_ registrationGen
  simp only [List.forall_mem_cons] at hfield
  refine ⟨?_, ?_, ?_, ?_⟩
  · rw [AppRecord.name, hfield.1]
    rfl
  · rw [AppRecord.port, hfield.2.2.2.1]
    rfl
  · rw [AppRecord.hostLabel, hfield.2.1]
    rfl
  · rw [AppRecord.hostGen, hfield.2.2.1]
    rfl

variable {input : RegisterAppInput} {port : ℕ} {at_ : JsDouble}

lemma issue_of_none (hnone : Lineage.latest IssuedLabel.name s.issuedLabels input.name = none) :
    issue options s input port at_ =
      (⟨s.apps ++ [newRecord input port (.string input.name) (.number (1 : ℕ)) at_
        (.finite (1 : ℕ))], s.issuedLabels ++ [firstRow input.name at_]⟩,
        newRecord input port (.string input.name) (.number (1 : ℕ)) at_ (.finite (1 : ℕ))) := by
  simp only [issue, hnone]
  rfl

lemma firstRow_issuance (name : JsString) (at_ : JsDouble) :
    IssuedLabel.name (firstRow name at_) = name ∧ IssuedLabel.label (firstRow name at_) = name ∧
      IssuedLabel.gen (firstRow name at_) = .finite (1 : ℕ) ∧
      IssuedLabel.generation options (firstRow name at_) = .finite (1 : ℕ) := by
  simp [firstRow, IssuedLabel.name, IssuedLabel.label, IssuedLabel.gen, IssuedLabel.generation,
    JsValue.field, JsValue.fields, JsMap.get, textOf, numberOf, coalesce, JsValue.isUndefined,
    JsValue.isNull, toNumber]

/-- **The first registration of a name** adds a row. -/
lemma issued_of_none (h : Valid options s) (hadmitted : Admitted options input s port)
    (hclock : WholeClock at_) (hid : ∀ id ∈ input.createdByAgentId, ShortId id)
    (hnone : Lineage.latest IssuedLabel.name s.issuedLabels input.name = none) :
    Issued options s (issue options s input port at_).1 (issue options s input port at_).2
      input.name := by
  have hnew := Lineage.latest_eq_none_iff.1 hnone
  have hnameOk : isNameText input.name = true :=
    isNameText_of_checkAppName (firstOf_eq_none hadmitted.refusal _ List.mem_cons_self)
  have hgen : isGeneration (.number (1 : ℕ)) = true := by decide
  have hlive := validApp_newRecord hadmitted hclock hid hnameOk hgen hgen le_rfl
  obtain ⟨hrowName, hrowLabel, hrowGen, hrowGeneration⟩ :=
    @firstRow_issuance options input.name at_
  rw [issue_of_none hnone]
  obtain ⟨hname, hport, hlabel, hhostGen⟩ :=
    address_newRecord input port input.name 1 at_ (.finite (1 : ℕ))
  dsimp only
  set app := newRecord input port (.string input.name) (.number (1 : ℕ)) at_ (.finite (1 : ℕ))
    with happ
  have hfilter : ∀ name, ((s.issuedLabels ++ [firstRow input.name at_]).filter fun row =>
      decide (IssuedLabel.name row = name)) =
        (s.issuedLabels.filter fun row => decide (IssuedLabel.name row = name)) ++
          if input.name = name then [firstRow input.name at_] else [] := by
    intro name
    rw [List.filter_append, List.filter_cons, hrowName]
    by_cases heq : input.name = name <;> simp [heq]
  have hnoRows : (s.issuedLabels.filter fun row => decide (IssuedLabel.name row = input.name)) = [] :=
    List.filter_eq_nil_iff.2 fun row hrow => by simpa using hnew row hrow
  have hof : OfLineage options (s.issuedLabels ++ [firstRow input.name at_]) app := by
    constructor
    · rw [hlabel, hname, hhostGen, labelFor]
      exact (if_pos rfl).symm
    · refine ⟨firstRow input.name at_, ?_, hrowLabel.trans hlabel.symm, hrowGen.trans hhostGen.symm⟩
      have hlast : ∀ r ∈ ([] : List IssuedLabel), IssuedLabel.name r ≠ app.name :=
        fun _ hr => absurd hr List.not_mem_nil
      exact Lineage.find?_reverse (hrowName.trans hname.symm) hlast
    · rw [hname, lineageGenerations, hfilter, hnoRows, if_pos rfl, List.nil_append, List.map_singleton,
        hrowGeneration]
      rfl
  refine ⟨⟨?_, ?_, ?_⟩, rfl, hname, ?_, ?_⟩
  · intro a ha
    rcases List.mem_append.1 ha with ha | ha
    · exact h.apps a ha
    · exact (List.mem_singleton.1 ha) ▸ hlive
  · intro row hrow
    rcases List.mem_append.1 hrow with hrow | hrow
    · exact h.rows row hrow
    · exact (List.mem_singleton.1 hrow) ▸ validRow_first hnameOk hclock
  · refine h.consistent.add ?_ (fun name hne => ?_) hof
      (fun a ha => hname ▸ hadmitted.name a ha) (hport ▸ hadmitted.free)
    · rw [List.map_append]
      refine List.Nodup.append h.consistent.labels (List.nodup_singleton _)
        (List.disjoint_singleton.2 fun hmem => ?_)
      obtain ⟨row, hrow, heq⟩ := List.mem_map.1 hmem
      exact hnew row hrow (hadmitted.label row hrow (heq.trans hrowLabel))
    · rw [hfilter, if_neg fun heq => hne (heq.symm.trans hname.symm), List.append_nil]
  · intro row hrow
    obtain ⟨row', hrow', hsame⟩ := h.grows_refl row hrow
    exact ⟨row', List.mem_append_left _ hrow', hsame⟩
  · exact fun row hrow heq => absurd heq (hnew row hrow)

lemma Valid.maxOf_lineage (h : Valid options s)
    (hrow : row ∈ s.issuedLabels) (hname : IssuedLabel.name row = name) : ∃ m : ℕ,
    JsDouble.maxOf (lineageGenerations options s.issuedLabels name) = .finite m ∧
      (∃ row ∈ s.issuedLabels, IssuedLabel.name row = name ∧
        IssuedLabel.generation options row = .finite m) ∧
      ∀ row ∈ s.issuedLabels, IssuedLabel.name row = name → ∃ r : ℕ,
        IssuedLabel.generation options row = .finite r ∧ r ≤ m := by
  have hmem : ∀ row ∈ s.issuedLabels, IssuedLabel.name row = name →
      IssuedLabel.generation options row ∈ lineageGenerations options s.issuedLabels name :=
    fun row hrow hname => List.mem_map_of_mem (List.mem_filter.2 ⟨hrow, decide_eq_true hname⟩)
  obtain ⟨q, hq, hqmem, hall⟩ := JsDouble.maxOf_spec (lineage_finite h.rows name)
    (List.ne_nil_of_mem (hmem row hrow hname))
  obtain ⟨largest, hlargest, hgeneration⟩ := List.mem_map.1 hqmem
  obtain ⟨hlargest, hlargestName⟩ := List.mem_filter.1 hlargest
  obtain ⟨m, hm⟩ := h.exists_generation hlargest
  obtain rfl : q = m := JsDouble.finite.inj (hgeneration.symm.trans hm)
  refine ⟨m, hq, ⟨largest, hlargest, of_decide_eq_true hlargestName, hm⟩, fun row hrow hname => ?_⟩
  obtain ⟨r, hr⟩ := h.exists_generation hrow
  have hle : (r : ℚ) ≤ m := hall r (hr ▸ hmem row hrow hname)
  exact ⟨r, hr, by exact_mod_cast hle⟩

lemma issue_of_some {index g m : ℕ} {label : JsString}
    (hsome : Lineage.latest IssuedLabel.name s.issuedLabels input.name = some (row, index))
    (hlabel : row.field "label" = .string label) (hgen : row.field "gen" = .number g)
    (hm : JsDouble.maxOf (lineageGenerations options s.issuedLabels input.name) = .finite m) :
    issue options s input port at_ =
      (⟨s.apps ++ [newRecord input port (.string label) (.number g) at_ (.finite (m + 1 : ℕ))],
        Lineage.patch s.issuedLabels index fun row =>
          setField row "registrationGen" (.number (m + 1 : ℕ))⟩,
        newRecord input port (.string label) (.number g) at_ (.finite (m + 1 : ℕ))) := by
  have hsucc : ((m : ℚ) + 1) = ((m + 1 : ℕ) : ℚ) := by norm_cast
  simp only [issue, hsome, hlabel, hgen, hm, JsDouble.succ, hsucc, JsDouble.toJs]

lemma isLowerAlnum_digitUnit {d : Char} (h : d.isDigit = true) :
    AppHosts.isLowerAlnum (digitUnit d) = true := by
  have hval : 48 ≤ d.toNat ∧ d.toNat ≤ 57 := by
    simp only [Char.isDigit, Bool.and_eq_true, decide_eq_true_eq, ge_iff_le, UInt32.le_iff_toNat_le] at h
    exact h
  have hnat : (digitUnit d).toNat = d.toNat := by
    simp only [digitUnit, UInt16.toNat_ofNat']
    omega
  have hbounds : 48 ≤ digitUnit d ∧ digitUnit d ≤ 57 := by
    rw [UInt16.le_iff_toNat_le, UInt16.le_iff_toNat_le, hnat]
    exact hval
  simp [AppHosts.isLowerAlnum, hbounds]

/-- The label of a generation of a name is made like a name. -/
lemma isNameText_labelFor {g : ℕ} (hname : isNameText name = true)
    (hsafe : g ≤ MAX_SAFE_INTEGER)
    (hshort : (labelFor options name (.finite g)).length ≤ MAX_APP_NAME_LENGTH) :
    isNameText (labelFor options name (.finite g)) = true := by
  unfold labelFor at hshort ⊢
  split_ifs at hshort ⊢ with hfirst
  · exact hname
  · have hlarge : |(g : ℚ)| < 10 ^ 21 := by
      have habs : |(g : ℚ)| = g := abs_of_nonneg (by exact_mod_cast Nat.zero_le g)
      have hlt : g < 10 ^ 21 := lt_of_le_of_lt hsafe (by decide)
      rw [habs]
      exact_mod_cast hlt
    have hint : ((g : ℚ)).isInt = true := by simp [Rat.isInt]
    have htext : numberText options (.finite g) = decimalDigits g := by
      rw [numberText, hint, if_pos (by simpa using hlarge)]
      rfl
    have hdigit : ∀ c ∈ decimalDigits g, AppHosts.isLowerAlnum c = true := by
      intro c hc
      obtain ⟨d, hd, rfl⟩ := List.mem_map.1 hc
      exact isLowerAlnum_digitUnit (Nat.isDigit_of_mem_toDigits (by decide) (by decide) hd)
    have hinner : ∀ c ∈ js "-g", (AppHosts.isLowerAlnum c || decide (c = 45)) = true :=
      List.all_eq_true.mp (by decide)
    have hne : decimalDigits g ≠ [] := fun h => Nat.toDigits_ne_nil (List.map_eq_nil_iff.1 h)
    rw [htext] at hshort ⊢
    simp only [isNameText, APP_NAME_PATTERN, Bool.and_eq_true, decide_eq_true_eq] at hname hshort ⊢
    obtain ⟨⟨hpos, -⟩, ⟨hhead, hall⟩, -⟩ := hname
    refine ⟨⟨by simp only [List.length_append]; omega, hshort⟩, ⟨?_, ?_⟩, ?_⟩
    · cases name with
      | nil => cases hpos
      | cons c rest => exact hhead
    · refine List.all_eq_true.2 fun c hc => ?_
      rcases List.mem_append.1 hc with hc | hc
      · rcases List.mem_append.1 hc with hc | hc
        · exact List.all_eq_true.1 hall c hc
        · exact hinner c hc
      · simp [hdigit c hc]
    · rw [List.getLast?_append_of_ne_nil _ hne, List.getLast?_eq_getLast_of_ne_nil hne]
      exact hdigit _ (List.getLast_mem hne)

/-- **The registration of a name that was used before** gives its last row a new generation. -/
lemma issued_of_some (h : Valid options s) (hadmitted : Admitted options input s port)
    (hclock : WholeClock at_) (hid : ∀ id ∈ input.createdByAgentId, ShortId id)
    (hroom : ∀ row ∈ s.issuedLabels, IssuedLabel.name row = input.name →
      IssuedLabel.generation options row ≠ .finite MAX_SAFE_INTEGER)
    {index : ℕ}
    (hsome : Lineage.latest IssuedLabel.name s.issuedLabels input.name = some (row, index)) :
    Issued options s (issue options s input port at_).1 (issue options s input port at_).2
      input.name := by
  obtain ⟨before, after, hsplit, rfl, hrowName, hafter⟩ := Lineage.latest_eq_some hsome
  have hrow : row ∈ s.issuedLabels := hsplit ▸ List.mem_append_right _ List.mem_cons_self
  obtain ⟨m, hm, ⟨largest, hlargest, hlargestName, hlargestGen⟩, hle⟩ :=
    h.maxOf_lineage hrow hrowName
  have hvalidRow := h.rows row hrow
  obtain ⟨g, r, hgen, hr, hone, hgr, -⟩ := generation_of_isIssuedLabel hvalidRow.passes
  obtain ⟨-, hchecks, hlabelFor, -⟩ := isIssuedLabel_iff.1 hvalidRow.passes
  obtain ⟨label, hlabel, -⟩ := exists_of_isStringWith
    (check_of_passes hchecks "label" (isShortText MAX_APP_NAME_LENGTH) (by simp [rowChecks]))
  have hrowLabel : IssuedLabel.label row = label := by
    rw [IssuedLabel.label, hlabel]
    rfl
  have hrowGen : IssuedLabel.gen row = .finite g := by
    rw [IssuedLabel.gen, hgen]
    rfl
  -- the new generation is one that may be written
  have hgm : g ≤ m := by
    obtain ⟨r', hr', hle'⟩ := hle row hrow hrowName
    have heq : (r : ℚ) = r' := JsDouble.finite.inj (hr.symm.trans hr')
    have heq' : r = r' := by exact_mod_cast heq
    omega
  have hsafe : m + 1 ≤ MAX_SAFE_INTEGER := by
    obtain ⟨-, m', -, hm', -, -, hsafe⟩ := generation_of_isIssuedLabel (h.rows largest hlargest).passes
    have heq : (m : ℚ) = m' := JsDouble.finite.inj (hlargestGen.symm.trans hm')
    have heq' : m = m' := by exact_mod_cast heq
    have hne : m ≠ MAX_SAFE_INTEGER := fun hmax =>
      hroom largest hlargest hlargestName (by rw [hlargestGen, hmax])
    omega
  have hgenOk : isGeneration (.number g) = true := isGeneration_iff.2 ⟨g, rfl, hone, by omega⟩
  have hnewOk : isGeneration (.number (m + 1 : ℕ)) = true :=
    isGeneration_iff.2 ⟨m + 1, rfl, by omega, hsafe⟩
  have hnameOk : isNameText input.name = true :=
    isNameText_of_checkAppName (firstOf_eq_none hadmitted.refusal _ List.mem_cons_self)
  have hlabelName : label = labelFor options input.name (.finite g) := by
    rw [← hrowLabel, hlabelFor, hrowName, hrowGen]
  have hlabelOk : isNameText label = true := by
    have hlength := check_of_passes hchecks "label" (isShortText MAX_APP_NAME_LENGTH)
      (by simp [rowChecks])
    rw [hlabel, hlabelName] at hlength
    rw [hlabelName]
    exact isNameText_labelFor hnameOk (by omega) (of_decide_eq_true hlength)
  have hlive := validApp_newRecord hadmitted hclock hid hlabelOk hgenOk hnewOk (by omega)
  rw [issue_of_some hsome hlabel hgen hm]
  obtain ⟨hname, hport, hhostLabel, hhostGen⟩ :=
    address_newRecord input port label g at_ (.finite (m + 1 : ℕ))
  dsimp only
  set app := newRecord input port (.string label) (.number g) at_ (.finite (m + 1 : ℕ)) with happ
  set row' := setField row "registrationGen" (.number (m + 1 : ℕ)) with hrow'
  have hpatch : (Lineage.patch s.issuedLabels before.length fun row =>
      setField row "registrationGen" (.number (m + 1 : ℕ))) = before ++ row' :: after := by
    rw [hsplit]
    exact Lineage.patch_split before after row _
  have hsame := sameIssuance_setField row (.number (m + 1 : ℕ))
  have hnewGeneration := @generation_setField options row (m + 1)
  rw [← hrow'] at hsame hnewGeneration
  rw [hpatch]
  have hmem : ∀ r ∈ before ++ row' :: after, r = row' ∨ r ∈ s.issuedLabels := by
    intro r hr
    rw [hsplit]
    simp only [List.mem_append, List.mem_cons] at hr ⊢
    tauto
  have hbound : ∀ r ∈ s.issuedLabels, IssuedLabel.name r = input.name → ∃ n : ℕ,
      IssuedLabel.generation options r = .finite n ∧ n < m + 1 := by
    intro r hr hrName
    obtain ⟨n, hn, hnm⟩ := hle r hr hrName
    exact ⟨n, hn, by omega⟩
  have hof : OfLineage options (before ++ row' :: after) app := by
    constructor
    · rw [hhostLabel, hname, hhostGen]
      exact hlabelName
    · refine ⟨row', ?_, ?_, ?_⟩
      · refine Lineage.find?_reverse ?_ ?_
        · rw [hsame.name, hrowName, hname]
        · rw [hname]
          exact hafter
      · rw [hsame.label, hrowLabel, hhostLabel]
      · rw [hsame.gen, hrowGen, hhostGen]
    · have hmax : JsDouble.maxOf (lineageGenerations options (before ++ row' :: after) app.name) =
          .finite (m + 1 : ℕ) := by
        refine JsDouble.maxOf_eq (fun d hd => ?_) ?_ fun q hq => ?_
        · obtain ⟨r, hr, rfl⟩ := List.mem_map.1 hd
          rcases hmem r (List.mem_filter.1 hr).1 with rfl | hr
          · exact ⟨_, hnewGeneration⟩
          · obtain ⟨n, hn⟩ := h.exists_generation hr
            exact ⟨n, hn⟩
        · refine List.mem_map.2 ⟨row', List.mem_filter.2 ⟨by simp, ?_⟩, hnewGeneration⟩
          exact decide_eq_true (by rw [hsame.name, hrowName, hname])
        · obtain ⟨r, hr, hrq⟩ := List.mem_map.1 hq
          obtain ⟨hr, hrName⟩ := List.mem_filter.1 hr
          rcases hmem r hr with rfl | hr
          · exact (JsDouble.finite.inj (hrq.symm.trans hnewGeneration)).le
          · obtain ⟨n, hn, hnm⟩ := hbound r hr ((of_decide_eq_true hrName).trans hname)
            rw [JsDouble.finite.inj (hrq.symm.trans hn)]
            exact_mod_cast hnm.le
      rw [hmax]
      exact decide_eq_true rfl
  refine ⟨⟨?_, ?_, ?_⟩, rfl, hname, ?_, ?_⟩
  · intro a ha
    rcases List.mem_append.1 ha with ha | ha
    · exact h.apps a ha
    · exact (List.mem_singleton.1 ha) ▸ hlive
  · intro r hr
    rcases hmem r hr with rfl | hr
    · exact hvalidRow.setField hgen hnewOk (by omega)
    · exact h.rows r hr
  · refine h.consistent.add ?_ (fun name hne => ?_) hof
      (fun a ha => hname ▸ hadmitted.name a ha) (hport ▸ hadmitted.free)
    · have hlabels := h.consistent.labels
      rw [hsplit] at hlabels
      simpa [hsame.label] using hlabels
    · have hother : input.name ≠ name := fun heq => hne (heq.symm.trans hname.symm)
      rw [hsplit]
      simp [List.filter_append, hsame.name, hrowName, hother]
  · intro r hr
    obtain ⟨n, hn⟩ := h.exists_generation hr
    rw [hsplit] at hr
    rcases List.mem_append.1 hr with hr' | hr'
    · exact ⟨r, List.mem_append_left _ hr', ⟨rfl, rfl, rfl⟩, n, n, hn, hn, le_rfl⟩
    · rcases List.mem_cons.1 hr' with rfl | hr'
      · obtain ⟨n', hn', hlt⟩ := hbound r hrow hrowName
        exact ⟨row', by simp, hsame, n', m + 1, hn', hnewGeneration, hlt.le⟩
      · exact ⟨r, by simp [hr'], ⟨rfl, rfl, rfl⟩, n, n, hn, hn, le_rfl⟩
  · intro r hr hrName
    obtain ⟨n, hn, hlt⟩ := hbound r hr hrName
    exact ⟨n, m + 1, hn, rfl, hlt⟩

/-! ## What a change makes of a record -/

def fixedFields : List String := ["name", "port", "hostLabel", "hostGen"] ++ heldBack

/-- A record with other fields may be written, and is at the same address. -/
structure Edits (options : AppRegistryOptions) (app : AppRecord) (fields : JsMap String JsValue) :
    Prop where
  valid : ValidApp options { app with fields := fields }
  sameAddress : SameAddress app { app with fields := fields }

/-- A field that is touched by no change shows the same behind a change of others. -/
lemma Edits.of_fields {fields fields' : JsMap String JsValue} (h : Edits options app fields)
    {value : JsValue} (hkey : key ∉ fixedFields)
    (hget : ∀ name, (JsValue.object fields').field name =
      if name = key then value else (JsValue.object fields).field name)
    (hcheck : ∀ c ∈ legacyChecks options, c.1 = key → c.2 value = true)
    (hmem : ∀ f ∈ fields', f ∈ fields ∨ f = (key, value) ∧ value ≠ .undefined) :
    Edits options app fields' := by
  have hfixed : ∀ name ∈ fixedFields, (JsValue.object fields').field name =
      (JsValue.object fields).field name := by
    intro name hname
    have hne : name ≠ key := fun heq => hkey (heq ▸ hname)
    rw [hget, if_neg hne]
  obtain ⟨hvalid, hsame⟩ := h
  obtain ⟨-, hlegacy, hhost, hlater⟩ := isPersistedApp_iff.1 hvalid.passes
  have hstrip : ∀ name, name ≠ "registrationGen" →
      (strip { app with fields := fields' }).field name =
        if name = key then value else (strip { app with fields := fields }).field name := by
    intro name hname
    rw [field_strip_of_ne _ hname, field_strip_of_ne _ hname]
    exact hget name
  have hother : ∀ name ∈ fixedFields, name ≠ "registrationGen" →
      (strip { app with fields := fields' }).field name =
        (strip { app with fields := fields }).field name := by
    intro name hname hne
    have hne' : name ≠ key := fun heq => hkey (heq ▸ hname)
    rw [hstrip name hne, if_neg hne']
  refine ⟨⟨isPersistedApp_iff.2 ⟨rfl, ?_, ?_, ?_⟩, ?_, ?_⟩, ⟨?_, ?_, ?_, ?_, rfl⟩⟩
  · refine List.all_eq_true.2 fun c hc => ?_
    have hne : c.1 ≠ "registrationGen" := by
      intro heq
      simp [legacyChecks, Prod.ext_iff, heq] at hc
    rw [hstrip c.1 hne]
    split_ifs with hc'
    · exact hcheck c hc hc'
    · exact List.all_eq_true.1 hlegacy c hc
  · refine List.all_eq_true.2 fun c hc => ?_
    have hname : c.1 ∈ fixedFields ∧ c.1 ≠ "registrationGen" := by
      simp only [hostChecks, List.mem_cons, List.not_mem_nil, or_false] at hc
      rcases hc with rfl | rfl <;> decide
    rw [hother c.1 hname.1 hname.2]
    exact List.all_eq_true.1 hhost c hc
  · rw [field_strip_registrationGen, hother "hostGen" (by decide) (by decide)]
    rw [field_strip_registrationGen] at hlater
    exact hlater
  · intro name hheld hname
    obtain ⟨f, hf, rfl⟩ := List.mem_map.1 hname
    rcases hmem f hf with hf | ⟨rfl, -⟩
    · exact hvalid.bare f.1 hheld (List.mem_map_of_mem hf)
    · exact hkey (List.mem_append_right _ hheld)
  · intro f hf
    rcases hmem f hf with hf | ⟨rfl, hne⟩
    · exact hvalid.defined f hf
    · exact hne
  · exact (congrArg textOf (hfixed "name" (by decide))).trans hsame.name
  · exact (congrArg numberOf (hfixed "port" (by decide))).trans hsame.port
  · exact (congrArg textOf (hfixed "hostLabel" (by decide))).trans hsame.hostLabel
  · exact (congrArg numberOf (hfixed "hostGen" (by decide))).trans hsame.hostGen

variable {fields : JsMap String JsValue}

lemma Edits.refl (h : ValidApp options app) : Edits options app app.fields :=
  ⟨h, SameAddress.refl app⟩

lemma Edits.set (h : Edits options app fields) {value : JsValue}
    (hkey : key ∉ fixedFields) (hcheck : ∀ c ∈ legacyChecks options, c.1 = key → c.2 value = true)
    (hdefined : value ≠ .undefined) : Edits options app (JsMap.set fields key value) := by
  refine h.of_fields hkey (fun name => ?_) hcheck fun f hf => ?_
  · exact field_setField (.object fields) value key name
  · rcases JsMap.mem_set hf with hf | rfl
    · exact .inl hf
    · exact .inr ⟨rfl, hdefined⟩

lemma Edits.delete (h : Edits options app fields) (hkey : key ∉ fixedFields)
    (hcheck : ∀ c ∈ legacyChecks options, c.1 = key → c.2 .undefined = true) :
    Edits options app (JsMap.delete fields key) := by
  refine h.of_fields hkey (fun name => ?_) hcheck fun f hf => .inl (JsMap.mem_delete.1 hf).1
  simp only [JsValue.field, JsValue.fields, JsMap.get_delete]
  split_ifs <;> rfl

lemma Edits.setWhen (h : Edits options app fields) (key : String) (value : Option JsValue)
    (hkey : key ∉ fixedFields) (hcheck : ∀ v ∈ value, v ≠ .undefined ∧
      ∀ c ∈ legacyChecks options, c.1 = key → c.2 v = true) :
    Edits options app (AppRegistry.setWhen key value fields) := by
  cases value with
  | none => exact h
  | some v => exact h.set hkey (hcheck v rfl).2 (hcheck v rfl).1

lemma UpdateAppInput.refusal_eq_none (h : patch.refusal = none) :
    (∀ command ∈ patch.command, assertCommand command = none) ∧
      (∀ cwd ∈ patch.cwd, assertCwd cwd = none) ∧
      (∀ description, patch.description = some (some description) →
        assertDescription description = none) ∧
      ∀ at_ ∈ patch.thumbnailUpdatedAt, isWholeFrom 0 at_.toJs = true := by
  unfold UpdateAppInput.refusal at h
  split at h
  · cases h
  · rename_i hfirst
    have hall := firstOf_eq_none hfirst
    simp only [List.forall_mem_cons, List.not_mem_nil, false_imp_iff, implies_true, and_true] at hall
    obtain ⟨hcommand, hcwd, hdescription⟩ := hall
    split_ifs at h with hthumbnail
    refine ⟨fun command hmem => ?_, fun cwd hmem => ?_, fun description heq => ?_,
      fun at_ hmem => ?_⟩
    · rwa [Option.mem_def.1 hmem] at hcommand
    · rwa [Option.mem_def.1 hmem] at hcwd
    · rwa [heq] at hdescription
    · rw [Option.mem_def.1 hmem] at hthumbnail
      simpa using hthumbnail

lemma edits_text {o : Option JsString} (hcheck : ∀ t ∈ o,
      ∀ c ∈ legacyChecks options, c.1 = key → c.2 (.string t) = true) :
    ∀ v ∈ o.map JsValue.string, v ≠ .undefined ∧
      ∀ c ∈ legacyChecks options, c.1 = key → c.2 v = true := by
  intro v hv
  obtain ⟨t, ht, rfl⟩ := Option.map_eq_some_iff.1 hv
  exact ⟨nofun, hcheck t ht⟩

lemma Edits.archive (h : Edits options app fields) (flag : Option Bool) :
    Edits options app (setArchived flag fields) := by
  cases flag with
  | none => exact h
  | some flag =>
    cases flag with
    | true => exact h.set (by decide) (by simp [legacyChecks, JsValue.isOptional, isBoolean]) nofun
    | false =>
      exact h.delete (by decide) (by simp [legacyChecks, JsValue.isOptional, JsValue.isUndefined])

lemma Edits.describe (h : Edits options app fields) {description : Option (Option JsString)}
    (hshort : ∀ text, description = some (some text) → assertDescription text = none) :
    Edits options app (setDescription description fields) := by
  cases description with
  | none => exact h
  | some text =>
    cases text with
    | none =>
      exact h.delete (by decide)
        (by simp [legacyChecks, isOptionalString, JsValue.isOptional, JsValue.isUndefined])
    | some text =>
      refine h.set (by decide) ?_ (by simp)
      have hlength := length_of_assertDescription (hshort text rfl)
      simpa [legacyChecks, isOptionalString, JsValue.isOptional, isShortText, JsValue.isStringWith,
        JsValue.isUndefined] using hlength

/-- **A change keeps the address of an app**, and its record may be written. -/
theorem edits_updated (h : ValidApp options app)
    (hrefusal : patch.refusal = none) (htarget : ∀ id ∈ patch.messageTargetAgentId, ShortId id)
    (hcreator : ∀ creator ∈ patch.creator, ShortId creator.id) :
    Edits options app (updated app patch).fields := by
  obtain ⟨hcommand, hcwd, hdescription, hthumbnail⟩ :=
    UpdateAppInput.refusal_eq_none hrefusal
  have hid : ∀ {id : JsString}, ShortId id →
      isOptionalString MAX_AGENT_ID_LENGTH (.string id) = true := fun h => decide_eq_true h
  have hcreated := (Edits.refl h).setWhen "createdByAgentId"
    (patch.creator.map fun c => .string c.id) (by decide) (by
      intro v hv
      obtain ⟨c, hc, rfl⟩ := Option.map_eq_some_iff.1 hv
      exact ⟨by simp, by simpa [legacyChecks] using hid (hcreator c hc)⟩)
  have hcreatedBy := hcreated.setWhen "createdBy"
    (patch.creator.map fun c => .string c.name) (by decide) (by
      intro v hv
      obtain ⟨c, hc, rfl⟩ := Option.map_eq_some_iff.1 hv
      exact ⟨by simp, by simp [legacyChecks, JsValue.isString, JsValue.isStringWith]⟩)
  have huserId := hcreatedBy.setWhen "userId"
    (patch.owner.map fun o => .string o.userId) (by decide) (by
      intro v hv
      obtain ⟨o, -, rfl⟩ := Option.map_eq_some_iff.1 hv
      exact ⟨by simp, by simp [legacyChecks, isNullableString, JsValue.isString,
        JsValue.isStringWith]⟩)
  have husername := huserId.setWhen "username"
    (patch.owner.map fun o => .string o.username) (by decide) (by
      intro v hv
      obtain ⟨o, -, rfl⟩ := Option.map_eq_some_iff.1 hv
      exact ⟨by simp, by simp [legacyChecks, isNullableString, JsValue.isString,
        JsValue.isStringWith]⟩)
  have hcommandSet := husername.setWhen "command" (patch.command.map .string)
    (by decide) (edits_text fun t ht => by
      simpa [legacyChecks, JsValue.isStringWith] using check_command (hcommand t ht))
  have hcwdSet := hcommandSet.setWhen "cwd" (patch.cwd.map .string)
    (by decide) (edits_text fun t ht => by
      simpa [legacyChecks, JsValue.isStringWith] using isAbsolute_of_assertCwd (hcwd t ht))
  have htargetSet := hcwdSet.setWhen "messageTargetAgentId"
    (patch.messageTargetAgentId.map .string) (by decide) (edits_text fun t ht => by
      simpa [legacyChecks] using hid (htarget t ht))
  have hthumbnailSet := htargetSet.setWhen "thumbnailUpdatedAt"
    (patch.thumbnailUpdatedAt.map JsDouble.toJs) (by decide) (by
      intro v hv
      obtain ⟨at_, hat, rfl⟩ := Option.map_eq_some_iff.1 hv
      refine ⟨by cases at_ <;> rintro ⟨⟩, ?_⟩
      simp [legacyChecks, JsValue.isOptional, hthumbnail at_ hat])
  have hfollows := hthumbnailSet.setWhen "messageTargetAgentId"
    (if targetFollows app patch then patch.creator.map fun c => .string c.id else none)
    (by decide) (by
      intro v hv
      split_ifs at hv
      · obtain ⟨c, hc, rfl⟩ := Option.map_eq_some_iff.1 hv
        exact ⟨by simp, by simpa [legacyChecks] using hid (hcreator c hc)⟩
      · cases hv)
  exact (hfollows.archive patch.archived).describe hdescription

/-! ## What an operation makes of the state -/

/-- What an operation that writes makes of a state: an app is registered, a record is changed in its
place, or a record is left out. -/
inductive Change (options : AppRegistryOptions) (s : RegistryState) :
    Event → RegistryState → AppRecord → Prop where
  | register {env : Surroundings} {input : RegisterAppInput} {port : ℕ}
    (hadmitted : Admitted options input s port) :
    Change options s (.register env input) (issue options s input port env.now).1
      (issue options s input port env.now).2
  | update {env : Surroundings} {name : JsString} {patch : UpdateAppInput} {before after : List AppRecord}
    {app : AppRecord} (hrefusal : patch.refusal = none) (hsplit : s.apps = before ++ app :: after)
    (hname : app.name = name) :
    Change options s (.update env name patch)
      { s with apps := before ++ updated app patch :: after } (updated app patch)
  | remove {env : Surroundings} {name : JsString} {app : AppRecord} (hmem : app ∈ s.apps)
    (hname : app.name = name) :
    Change options s (.remove env name) { s with apps := s.apps.filter (·.name ≠ name) } app

lemma persist_cases {α : Type} (env : Surroundings) (disk : RegistryDisk) (answer : α) :
    ((∃ e, (persist env disk s answer).1 = .error e) ∧ (persist env disk s answer).2 = disk) ∨
      (persist env disk s answer).1 = .ok answer ∧
        (persist env disk s answer).2 = { disk with file := persisted s } := by
  unfold persist
  split_ifs
  · exact .inl ⟨⟨_, rfl⟩, rfl⟩
  · exact .inr ⟨rfl, rfl⟩

lemma map_persist {α β : Type} (f : α → β) (env : Surroundings) (disk : RegistryDisk) (answer : α) :
    ((persist env disk s answer).1.map f, (persist env disk s answer).2) =
      persist env disk s (f answer) := by
  unfold persist
  split_ifs <;> rfl

/-- What an operation makes of the directories before it writes. -/
def madeDirs (options : AppRegistryOptions) (dirs : JsMap Place (List DataFile)) :
    Event → JsMap Place (List DataFile)
  | .register _ input => mkdir dirs (.data input.name)
  | .update _ _ _ => dirs
  | .remove env name => archiveDataDir options dirs name env.now
  | .store _ _ => dirs

/-- **What an operation does**: it comes back without a record and leaves the disk as it is, or an app
writes into its directory, or the change to the state is written behind that to the directories. -/
theorem perform_cases (disk : RegistryDisk) (event : Event) :
    ((perform options disk event).2 = disk ∧ ∀ app, (perform options disk event).1 ≠ .ok (some app)) ∨
      (∃ name files, event = .store name files ∧ ∃ app ∈ live options disk.file, app.name = name ∧
        perform options disk event = (.ok none,
          { disk with dirs := JsMap.set disk.dirs (.data name) (writtenBy app name files) })) ∨
      ∃ env s next app, snapshot options disk.file = .ok s ∧ Change options s event next app ∧
        perform options disk event =
          persist env { disk with dirs := madeDirs options disk.dirs event } next (some app) := by
  cases event with
  | store name files =>
    cases hfind : (live options disk.file).find? (·.name = name) with
    | none => exact .inl (by simp [perform, store, hfind])
    | some app =>
      refine .inr (.inl ⟨name, files, rfl, app, List.mem_of_find?_eq_some hfind,
        by simpa using List.find?_some hfind, ?_⟩)
      simp only [perform, store, hfind]
  | register env input =>
    cases hadmit : admission options env.probePort input disk.file with
    | error e => exact .inl (by simp [perform, register, hadmit, Except.map])
    | ok admitted =>
      obtain ⟨s, port⟩ := admitted
      obtain ⟨hsnapshot, hadmitted⟩ := admit_eq_ok hadmit
      by_cases hfails : env.mkdirFails = true
      · exact .inl (by simp [perform, register, hadmit, hfails, Except.map])
      · refine .inr (.inr ⟨env, s, _, _, hsnapshot, .register hadmitted, ?_⟩)
        simp only [perform, register, hadmit, hfails, Bool.false_eq_true, if_false]
        exact map_persist some env _ _
  | update env name patch =>
    cases hrefusal : patch.refusal with
    | some e => exact .inl (by simp [perform, update, hrefusal])
    | none =>
      cases hsnapshot : snapshot options disk.file with
      | error e => exact .inl (by simp [perform, update, hrefusal, hsnapshot])
      | ok s =>
        cases hfind : s.apps.zipIdx.find? (·.1.name = name) with
        | none => exact .inl (by simp [perform, update, hrefusal, hsnapshot, hfind])
        | some found =>
          obtain ⟨app, index⟩ := found
          have hname : app.name = name := by simpa using List.find?_some hfind
          have hget : s.apps[index]? = some app :=
            List.mem_zipIdx_iff_getElem?.1 (List.mem_of_find?_eq_some hfind)
          obtain ⟨hlt, happ⟩ := List.getElem?_eq_some_iff.1 hget
          have hsplit : s.apps = s.apps.take index ++ app :: s.apps.drop (index + 1) := by
            rw [← happ, List.getElem_cons_drop, List.take_append_drop]
          have hset : s.apps.set index (updated app patch) =
              s.apps.take index ++ updated app patch :: s.apps.drop (index + 1) :=
            List.set_eq_take_append_cons_drop.trans (if_pos hlt)
          refine .inr (.inr ⟨env, s, _, _, rfl, .update hrefusal hsplit hname, ?_⟩)
          simp only [perform, update, hrefusal, hsnapshot, hfind, hset, madeDirs]
  | remove env name =>
    cases hsnapshot : snapshot options disk.file with
    | error e => exact .inl (by simp [perform, remove, hsnapshot])
    | ok s =>
      cases hfind : s.apps.find? (·.name = name) with
      | none => exact .inl (by simp [perform, remove, hsnapshot, hfind])
      | some app =>
        have hname : app.name = name := by simpa using List.find?_some hfind
        by_cases hfails : env.archiveFails = true
        · exact .inl (by simp [perform, remove, hsnapshot, hfind, hfails])
        · refine .inr (.inr ⟨env, s, _, app, rfl, .remove (List.mem_of_find?_eq_some hfind) hname, ?_⟩)
          simp only [perform, remove, hsnapshot, hfind, hfails, Bool.false_eq_true, if_false, hname,
            madeDirs]

/-- **What an operation does to the file**: it leaves the file as it is, or it comes back with a record
and has written what it makes of the state. -/
theorem step_cases (disk : RegistryDisk) (event : Event) :
    (step options disk event).file = disk.file ∨
      ∃ s next app, snapshot options disk.file = .ok s ∧ Change options s event next app ∧
        (step options disk event).file = persisted next ∧
        (perform options disk event).1 = .ok (some app) := by
  unfold step
  rcases @perform_cases options disk event with ⟨hsame, -⟩ | ⟨name, files, -, app, -, -, hstore⟩ |
    ⟨env, s, next, app, hsnapshot, hchange, hperform⟩
  · exact .inl (by rw [hsame])
  · exact .inl (by rw [hstore])
  · rw [hperform]
    rcases persist_cases (s := next) env { disk with dirs := madeDirs options disk.dirs event }
      (some app) with ⟨-, hdisk⟩ | ⟨hanswer, hdisk⟩
    · exact .inl (by rw [hdisk])
    · exact .inr ⟨s, next, app, hsnapshot, hchange, by rw [hdisk], hanswer⟩

variable {event : Event} {disk : RegistryDisk}

lemma ledger_of_snapshot (h : snapshot options file = .ok s) :
    ledger options file = s.issuedLabels := by rw [ledger, h]

lemma live_of_snapshot (h : snapshot options file = .ok s) :
    live options file = s.apps := by rw [live, h]

lemma issued_of_admitted {env : Surroundings} (h : Valid options s)
    (hsnapshot : snapshot options disk.file = .ok s) (hadmitted : Admitted options input s port)
    (hproper : Proper options disk (.register env input)) :
    Issued options s (issue options s input port env.now).1 (issue options s input port env.now).2
      input.name := by
  obtain ⟨hclock, hid, hroom⟩ := hproper
  rw [ledger_of_snapshot hsnapshot] at hroom
  cases hlatest : Lineage.latest IssuedLabel.name s.issuedLabels input.name with
  | none => exact issued_of_none h hadmitted hclock hid hlatest
  | some latest =>
    obtain ⟨row, index⟩ := latest
    exact issued_of_some h hadmitted hclock hid hroom hlatest

lemma sameAddress_updated (h : ValidApp options app)
    (hrefusal : patch.refusal = none) {env : Surroundings}
    (hproper : Proper options disk (.update env name patch)) :
    ValidApp options (updated app patch) ∧ SameAddress app (updated app patch) := by
  obtain ⟨hvalid, hsame⟩ := edits_updated h hrefusal hproper.1 hproper.2
  exact ⟨hvalid, hsame⟩

/-- **What is written may be written.** -/
theorem Change.valid (h : Change options s event next app) (hs : Valid options s)
    (hsnapshot : snapshot options disk.file = .ok s) (hproper : Proper options disk event) :
    Valid options next := by
  cases h with
  | register hadmitted => exact (issued_of_admitted hs hsnapshot hadmitted hproper).valid
  | @update env name patch before after old hrefusal hsplit hname =>
    have hmem : ∀ a, a ∈ before ∨ a = old ∨ a ∈ after → a ∈ s.apps := by
      intro a ha
      rw [hsplit]
      simpa using ha
    obtain ⟨hvalid, hsame⟩ := sameAddress_updated (hs.apps old (hmem old (.inr (.inl rfl)))) hrefusal
      hproper
    have hshown : ∀ {β : Type} (shown : AppRecord → β), shown (updated old patch) = shown old →
        (before ++ updated old patch :: after).map shown = s.apps.map shown := by
      intro β shown heq
      simp [hsplit, heq]
    refine ⟨fun a ha => ?_, hs.rows, ⟨hs.consistent.labels, ?_, ?_, ?_, fun a ha => ?_⟩⟩
    · simp only [List.mem_append, List.mem_cons] at ha
      rcases ha with ha | rfl | ha
      · exact hs.apps a (hmem a (.inl ha))
      · exact hvalid
      · exact hs.apps a (hmem a (.inr (.inr ha)))
    · exact (hshown _ hsame.name).symm ▸ hs.consistent.names
    · exact (hshown _ hsame.port).symm ▸ hs.consistent.ports
    · exact (hshown _ hsame.hostLabel).symm ▸ hs.consistent.hostLabels
    · simp only [List.mem_append, List.mem_cons] at ha
      rcases ha with ha | rfl | ha
      · exact hs.consistent.lineages a (hmem a (.inl ha))
      · exact (hs.consistent.lineages old (hmem old (.inr (.inl rfl)))).of_sameAddress hsame
      · exact hs.consistent.lineages a (hmem a (.inr (.inr ha)))
  | @remove env name _ hmem hname =>
    have hsublist : (s.apps.filter fun a => decide (a.name ≠ name)).Sublist s.apps :=
      List.filter_sublist
    refine ⟨fun a ha => hs.apps a (List.mem_filter.1 ha).1, hs.rows, ⟨hs.consistent.labels,
      hs.consistent.names.sublist (hsublist.map _), hs.consistent.ports.sublist (hsublist.map _),
      hs.consistent.hostLabels.sublist (hsublist.map _),
      fun a ha => hs.consistent.lineages a (List.mem_filter.1 ha).1⟩⟩

def Removes (name : JsString) : Event → Prop
  | .remove _ removed => removed = name
  | _ => False

/-- **The address of an app that is not deleted stays.** -/
theorem Change.keeps (h : Change options s event next app) (hs : Valid options s)
    (hsnapshot : snapshot options disk.file = .ok s) (hproper : Proper options disk event)
    {a : AppRecord} (ha : a ∈ s.apps) (hkept : ¬Removes a.name event) :
    ∃ a' ∈ next.apps, SameAddress a a' := by
  cases h with
  | register hadmitted =>
    rw [(issued_of_admitted hs hsnapshot hadmitted hproper).apps]
    exact ⟨a, List.mem_append_left _ ha, SameAddress.refl a⟩
  | @update env name patch before after old hrefusal hsplit hname =>
    rw [hsplit] at ha
    simp only [List.mem_append, List.mem_cons] at ha
    rcases ha with ha | rfl | ha
    · exact ⟨a, by simp [ha], SameAddress.refl a⟩
    · have hold : a ∈ s.apps := by simp [hsplit]
      exact ⟨updated a patch, by simp, (sameAddress_updated (hs.apps a hold) hrefusal hproper).2⟩
    · exact ⟨a, by simp [ha], SameAddress.refl a⟩
  | remove hmem hname =>
    exact ⟨a, List.mem_filter.2 ⟨ha, decide_eq_true fun heq => hkept heq.symm⟩, SameAddress.refl a⟩

/-- **The ledger only grows.** -/
theorem Change.grows (h : Change options s event next app) (hs : Valid options s)
    (hsnapshot : snapshot options disk.file = .ok s) (hproper : Proper options disk event) :
    Grows options s.issuedLabels next.issuedLabels := by
  cases h with
  | register hadmitted => exact (issued_of_admitted hs hsnapshot hadmitted hproper).grows
  | update _ _ _ => exact hs.grows_refl
  | remove _ _ => exact hs.grows_refl

end Isomux.AppRegistry
