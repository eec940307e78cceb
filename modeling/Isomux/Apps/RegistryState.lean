import Isomux.Apps.Registry

set_option autoImplicit false

/-!
# What the app registry reads and writes

A state that passes the checks of the registry is written as a file that passes them too, and that
reads as the records and the rows that were written. The checks of the whole state say that names,
ports and labels are there once, and that every app has the last label and the largest registration
generation that the ledger has for its name.

## Main results

* `Isomux.AppRegistry.assertConsistent_eq_none_iff` — what the checks say.
* `Isomux.AppRegistry.snapshot_persisted` — what is written is read again.
* `Isomux.AppRegistry.valid_of_snapshot` — what is read may be written.
-/

namespace Isomux

namespace JsDouble

variable {l : List JsDouble}

lemma foldl_max_finite (hfin : ∀ d ∈ l, ∃ q, d = finite q) (a : ℚ) :
    ∃ m, l.foldl max (finite a) = finite m ∧ (m = a ∨ finite m ∈ l) ∧ a ≤ m ∧
      ∀ q, finite q ∈ l → q ≤ m := by
  induction l generalizing a with
  | nil => exact ⟨a, rfl, .inl rfl, le_rfl, nofun⟩
  | cons d l ih =>
    obtain ⟨b, rfl⟩ := hfin d List.mem_cons_self
    obtain ⟨m, hm, hmem, hle, hall⟩ :=
      ih (fun d hd => hfin d (List.mem_cons_of_mem _ hd)) (Max.max a b)
    refine ⟨m, hm, ?_, (le_max_left a b).trans hle, fun q hq => ?_⟩
    · rcases hmem with rfl | hmem
      · rcases max_choice a b with h | h
        · exact .inl h
        · exact .inr (by simp [h])
      · exact .inr (List.mem_cons_of_mem _ hmem)
    · rcases List.mem_cons.1 hq with hq | hq
      · obtain rfl : q = b := by injection hq
        exact (le_max_right a q).trans hle
      · exact hall q hq

/-- **The largest of some finite numbers** is one of them. -/
theorem maxOf_spec (hfin : ∀ d ∈ l, ∃ q, d = finite q) (hne : l ≠ []) :
    ∃ m, maxOf l = finite m ∧ finite m ∈ l ∧ ∀ q, finite q ∈ l → q ≤ m := by
  cases l with
  | nil => exact absurd rfl hne
  | cons d l =>
    obtain ⟨a, rfl⟩ := hfin d List.mem_cons_self
    obtain ⟨m, hm, hmem, hle, hall⟩ :=
      foldl_max_finite (fun d hd => hfin d (List.mem_cons_of_mem _ hd)) a
    refine ⟨m, hm, ?_, fun q hq => ?_⟩
    · rcases hmem with rfl | hmem
      · exact List.mem_cons_self
      · exact List.mem_cons_of_mem _ hmem
    · rcases List.mem_cons.1 hq with hq | hq
      · obtain rfl : q = a := by injection hq
        exact hle
      · exact hall q hq

theorem maxOf_eq (hfin : ∀ d ∈ l, ∃ q, d = finite q) {m : ℚ} (hm : finite m ∈ l)
    (hall : ∀ q, finite q ∈ l → q ≤ m) : maxOf l = finite m := by
  obtain ⟨n, hn, hmem, hle⟩ := maxOf_spec hfin (List.ne_nil_of_mem hm)
  rw [hn, le_antisymm (hall n hmem) (hle m hm)]

lemma numberOf_toJs {d : JsDouble} {n : ℚ} (h : d.toJs = .number n) : d = .finite n := by
  cases d with
  | finite m =>
    injection h with h
    rw [h]
  | _ => cases h

end JsDouble

namespace AppRegistry

open JsValue (Defined isScalar)

variable {options : AppRegistryOptions}

/-! ## The checks of single values -/

variable {issued : List IssuedLabel} {v : JsValue} {c : String × (JsValue → Bool)}
  {g : IssuedLabel → IssuedLabel} {name : String}

lemma isGeneration_iff : isGeneration v = true ↔
    ∃ n : ℕ, v = .number n ∧ 1 ≤ n ∧ n ≤ MAX_SAFE_INTEGER := by
  constructor
  · intro h
    cases v with
    | number q =>
      simp only [isGeneration, isWholeFrom, Bool.and_eq_true, decide_eq_true_eq] at h
      obtain ⟨⟨hint, hsafe⟩, hone⟩ := h
      have hq : (q.num : ℚ) = q := (Rat.eq_num_of_isInt hint).symm
      have hnum : 1 ≤ q.num := by
        rw [← hq] at hone
        exact_mod_cast hone
      obtain ⟨n, hn⟩ := Int.eq_ofNat_of_zero_le (show 0 ≤ q.num by omega)
      have hqn : q = n := by
        rw [← hq, hn]
        norm_cast
      rw [hqn, abs_of_nonneg (by exact_mod_cast Nat.zero_le n)] at hsafe
      exact ⟨n, by rw [hqn], by omega, by exact_mod_cast hsafe⟩
    | _ => cases h
  · rintro ⟨n, rfl, hone, hsafe⟩
    have habs : |(n : ℚ)| = n := abs_of_nonneg (by exact_mod_cast Nat.zero_le n)
    simp only [isGeneration, isWholeFrom, Bool.and_eq_true, decide_eq_true_eq, habs]
    refine ⟨⟨?_, ?_⟩, ?_⟩
    · simp [Rat.isInt]
    · exact_mod_cast hsafe
    · exact_mod_cast hone

lemma isScalar_of_isStringWith {test : JsString → Bool}
    (h : JsValue.isStringWith test v = true) : v.isScalar = true := by
  cases v <;> first | rfl | cases h

lemma isScalar_of_isOptional {check : JsValue → Bool}
    (hcheck : check v = true → v.isScalar = true) (h : JsValue.isOptional check v = true) :
    v.isScalar = true := by
  rcases Bool.or_eq_true_iff.1 h with h | h
  · cases v <;> first | rfl | cases h
  · exact hcheck h

lemma isScalar_of_isWholeFrom {least : ℚ} (h : isWholeFrom least v = true) :
    v.isScalar = true := by
  cases v <;> first | rfl | cases h

lemma isScalar_of_mem_legacyChecks (hc : c ∈ legacyChecks options)
    (h : c.2 v = true) : v.isScalar = true := by
  simp only [legacyChecks, List.mem_cons, List.not_mem_nil, or_false] at hc
  rcases hc with rfl | rfl | rfl | rfl | rfl | rfl | rfl | rfl | rfl | rfl | rfl | rfl | rfl
  · exact isScalar_of_isStringWith h
  · cases v <;> first | rfl | cases h
  · exact isScalar_of_isStringWith h
  · exact isScalar_of_isStringWith h
  · exact isScalar_of_isOptional isScalar_of_isStringWith h
  · cases v <;> first | rfl | cases h
  · cases v <;> first | rfl | cases h
  · exact isScalar_of_isStringWith h
  · exact isScalar_of_isOptional isScalar_of_isStringWith h
  · exact isScalar_of_isOptional isScalar_of_isStringWith h
  · cases v <;> first | rfl | cases h
  · exact isScalar_of_isOptional isScalar_of_isWholeFrom h
  · refine isScalar_of_isOptional (fun h => ?_) h
    cases v <;> first | rfl | cases h

lemma isScalar_of_mem_hostChecks (hc : c ∈ hostChecks)
    (h : c.2 v = true) : v.isScalar = true := by
  simp only [hostChecks, List.mem_cons, List.not_mem_nil, or_false] at hc
  rcases hc with rfl | rfl
  · exact isScalar_of_isStringWith h
  · exact isScalar_of_isWholeFrom h

lemma isScalar_of_mem_rowChecks (hc : c ∈ rowChecks)
    (h : c.2 v = true) : v.isScalar = true := by
  simp only [rowChecks, List.mem_cons, List.not_mem_nil, or_false] at hc
  rcases hc with rfl | rfl | rfl | rfl | rfl
  · exact isScalar_of_isStringWith h
  · exact isScalar_of_isWholeFrom h
  · exact isScalar_of_isStringWith h
  · cases v <;> first | rfl | cases h
  · exact isScalar_of_isOptional isScalar_of_isWholeFrom h

lemma isScalar_of_isLaterGeneration {gen v : JsValue} (h : isLaterGeneration gen v = true) :
    v.isScalar = true :=
  isScalar_of_isOptional (fun h => isScalar_of_isWholeFrom (Bool.and_eq_true_iff.1 h).1) h

lemma passes_roundTrip {checks : List (String × (JsValue → Bool))}
    (hscalar : ∀ c ∈ checks, ∀ v, c.2 v = true → v.isScalar = true)
    (hdefined : Defined v.fields) (h : passes checks v = true) :
    passes checks v.roundTrip = true ∧ ∀ c ∈ checks, v.roundTrip.field c.1 = v.field c.1 := by
  have hfield : ∀ c ∈ checks, v.roundTrip.field c.1 = v.field c.1 := by
    intro c hc
    rw [JsValue.field_roundTrip_of_defined hdefined]
    exact JsValue.roundTrip_of_isScalar (hscalar c hc _ (List.all_eq_true.1 h c hc))
  refine ⟨List.all_eq_true.2 fun c hc => ?_, hfield⟩
  rw [hfield c hc]
  exact List.all_eq_true.1 h c hc

/-! ## Records and rows behind the way through JSON -/

lemma isPlainObject_roundTrip (v : JsValue) : isPlainObject v.roundTrip = isPlainObject v := by
  cases v <;> rfl

lemma field_roundTrip_registrationGen {gen v : JsValue} (hdefined : Defined v.fields)
    (h : isLaterGeneration gen (v.field "registrationGen") = true) :
    v.roundTrip.field "registrationGen" = v.field "registrationGen" := by
  rw [JsValue.field_roundTrip_of_defined hdefined]
  exact JsValue.roundTrip_of_isScalar (isScalar_of_isLaterGeneration h)

lemma isPersistedApp_iff : isPersistedApp options v = true ↔
    isPlainObject v = true ∧ passes (legacyChecks options) v = true ∧ passes hostChecks v = true ∧
      isLaterGeneration (v.field "hostGen") (v.field "registrationGen") = true := by
  simp only [isPersistedApp, isLegacyPersistedApp, Bool.and_eq_true, and_assoc]

lemma isIssuedLabel_iff : isIssuedLabel options v = true ↔
    isPlainObject v = true ∧ passes rowChecks v = true ∧
      IssuedLabel.label v = labelFor options (IssuedLabel.name v) (IssuedLabel.gen v) ∧
      isLaterGeneration (v.field "gen") (v.field "registrationGen") = true := by
  simp only [isIssuedLabel, Bool.and_eq_true, decide_eq_true_eq, and_assoc]

lemma check_of_passes {checks : List (String × (JsValue → Bool))}
    (h : passes checks v = true) (name : String) (check : JsValue → Bool)
    (hmem : (name, check) ∈ checks) : check (v.field name) = true := List.all_eq_true.1 h _ hmem

lemma isPersistedApp_roundTrip (hdefined : Defined v.fields)
    (h : isPersistedApp options v = true) : isPersistedApp options v.roundTrip = true ∧
      ∀ name ∈ ["name", "port", "hostLabel", "hostGen", "registrationGen"],
        v.roundTrip.field name = v.field name := by
  obtain ⟨hobject, hlegacy, hhost, hlater⟩ := isPersistedApp_iff.1 h
  obtain ⟨hlegacy', hsame⟩ := passes_roundTrip (fun _ hc _ => isScalar_of_mem_legacyChecks hc)
    hdefined hlegacy
  obtain ⟨hhost', hsame'⟩ := passes_roundTrip (fun _ hc _ => isScalar_of_mem_hostChecks hc)
    hdefined hhost
  have hgen : v.roundTrip.field "hostGen" = v.field "hostGen" :=
    hsame' ("hostGen", isGeneration) (by simp [hostChecks])
  have hregistration := field_roundTrip_registrationGen hdefined hlater
  refine ⟨isPersistedApp_iff.2 ⟨?_, hlegacy', hhost', ?_⟩, ?_⟩
  · rw [isPlainObject_roundTrip]
    exact hobject
  · rw [hgen, hregistration]
    exact hlater
  · intro name hname
    simp only [List.mem_cons, List.not_mem_nil, or_false] at hname
    rcases hname with rfl | rfl | rfl | rfl | rfl
    · exact hsame ("name", _) List.mem_cons_self
    · exact hsame ("port", _) (List.mem_cons_of_mem _ List.mem_cons_self)
    · exact hsame' ("hostLabel", _) List.mem_cons_self
    · exact hgen
    · exact hregistration

lemma isIssuedLabel_roundTrip {row : IssuedLabel} (hdefined : Defined row.fields)
    (h : isIssuedLabel options row = true) : isIssuedLabel options row.roundTrip = true ∧
      ∀ name ∈ ["name", "gen", "label", "registrationGen"],
        row.roundTrip.field name = row.field name := by
  obtain ⟨hobject, hrow, hlabel, hlater⟩ := isIssuedLabel_iff.1 h
  obtain ⟨hrow', hsame⟩ := passes_roundTrip (fun _ hc _ => isScalar_of_mem_rowChecks hc)
    hdefined hrow
  have hkeep : ∀ name ∈ ["name", "gen", "label", "registrationGen"],
      row.roundTrip.field name = row.field name := by
    intro name hname
    simp only [List.mem_cons, List.not_mem_nil, or_false] at hname
    rcases hname with rfl | rfl | rfl | rfl
    · exact hsame ("name", _) List.mem_cons_self
    · exact hsame ("gen", isGeneration) (by simp [rowChecks])
    · exact hsame ("label", isShortText MAX_APP_NAME_LENGTH) (by simp [rowChecks])
    · exact field_roundTrip_registrationGen hdefined hlater
  refine ⟨isIssuedLabel_iff.2 ⟨?_, hrow', ?_, ?_⟩, hkeep⟩
  · rw [isPlainObject_roundTrip]
    exact hobject
  · simp only [IssuedLabel.label, IssuedLabel.name, IssuedLabel.gen, hkeep "label" (by simp),
      hkeep "name" (by simp), hkeep "gen" (by simp)]
    exact hlabel
  · rw [hkeep "gen" (by simp), hkeep "registrationGen" (by simp)]
    exact hlater

lemma generation_of_isIssuedLabel {row : IssuedLabel} (h : isIssuedLabel options row = true) :
    ∃ g r : ℕ, row.field "gen" = .number g ∧ IssuedLabel.generation options row = .finite r ∧
      1 ≤ g ∧ g ≤ r ∧ r ≤ MAX_SAFE_INTEGER := by
  obtain ⟨-, hrow, -, hlater⟩ := isIssuedLabel_iff.1 h
  obtain ⟨g, hg, hone, hsafe⟩ := isGeneration_iff.1
    (check_of_passes hrow "gen" isGeneration (by simp [rowChecks]))
  rcases Bool.or_eq_true_iff.1 hlater with hnone | hlater
  · refine ⟨g, g, hg, ?_, hone, le_rfl, hsafe⟩
    simp [IssuedLabel.generation, coalesce, hnone, hg, toNumber]
  · obtain ⟨hgen, hle⟩ := Bool.and_eq_true_iff.1 hlater
    obtain ⟨r, hr, -, hsafe'⟩ := isGeneration_iff.1 hgen
    rw [hr, hg] at hle
    have hle' : (g : ℚ) ≤ r := by simpa [isAtLeast] using hle
    refine ⟨g, r, hg, ?_, hone, by exact_mod_cast hle', hsafe'⟩
    simp [IssuedLabel.generation, coalesce, hr, JsValue.isUndefined, JsValue.isNull, toNumber]

/-! ## The checks of the whole state -/

/-- An app has the last label and the largest registration generation of its lineage. -/
structure OfLineage (options : AppRegistryOptions) (issued : List IssuedLabel) (app : AppRecord) :
    Prop where
  label : app.hostLabel = labelFor options app.name app.hostGen
  latest : ∃ row, (issued.reverse.find? fun row => IssuedLabel.name row = app.name) = some row ∧
    IssuedLabel.label row = app.hostLabel ∧ IssuedLabel.gen row = app.hostGen
  generation : app.registrationGen.strictEq
    (JsDouble.maxOf (lineageGenerations options issued app.name)) = true

/-- **The checks of the whole state.** -/
structure Consistent (options : AppRegistryOptions) (s : RegistryState) : Prop where
  labels : (s.issuedLabels.map IssuedLabel.label).Nodup
  names : (s.apps.map AppRecord.name).Nodup
  ports : (s.apps.map AppRecord.port).Nodup
  hostLabels : (s.apps.map AppRecord.hostLabel).Nodup
  lineages : ∀ app ∈ s.apps, OfLineage options s.issuedLabels app

lemma ledgerFault_eq_none_iff {seen : List JsString} {rows : List IssuedLabel} :
    ledgerFault seen rows = none ↔
      (∀ row ∈ rows, IssuedLabel.label row ∉ seen) ∧ (rows.map IssuedLabel.label).Nodup := by
  induction rows generalizing seen with
  | nil => simp [ledgerFault]
  | cons row rows ih =>
    rw [ledgerFault]
    by_cases hseen : IssuedLabel.label row ∈ seen
    · simp [hseen]
    · rw [if_neg hseen, ih]
      simp only [List.mem_cons, not_or, List.map_cons, List.nodup_cons, List.mem_map, not_exists,
        not_and, forall_eq_or_imp]
      constructor
      · rintro ⟨hrows, hnodup⟩
        exact ⟨⟨hseen, fun r hr => (hrows r hr).2⟩, fun r hr => (hrows r hr).1, hnodup⟩
      · rintro ⟨⟨-, hrows⟩, hfresh, hnodup⟩
        exact ⟨fun r hr => ⟨hfresh r hr, hrows r hr⟩, hnodup⟩

/-- Nothing is wrong with an app of its lineage. -/
lemma lineageFault_eq_none_iff {app : AppRecord} :
    lineageFault options issued app = none ↔ OfLineage options issued app := by
  unfold lineageFault
  constructor
  · intro h
    by_cases hlabel : app.hostLabel = labelFor options app.name app.hostGen
    · rw [if_neg (not_not.2 hlabel)] at h
      split at h
      · cases h
      · split at h
        · cases h
        · rename_i row hlatest
          split at h
          · cases h
          · rename_i hother
            split at h
            · rename_i hgeneration
              rw [not_or, not_not, not_not] at hother
              exact ⟨hlabel, ⟨row, hlatest, hother⟩, hgeneration⟩
            · cases h
    · rw [if_pos hlabel] at h
      cases h
  · rintro ⟨hlabel, ⟨row, hlatest, hrow⟩, hgeneration⟩
    have hname : IssuedLabel.name row = app.name := by simpa using List.find?_some hlatest
    have hissued : issued.any (isIssuance app) = true :=
      List.any_eq_true.2 ⟨row, List.mem_reverse.1 (List.mem_of_find?_eq_some hlatest),
        decide_eq_true ⟨hrow.1, hname, hrow.2⟩⟩
    have hsame : ¬(IssuedLabel.label row ≠ app.hostLabel ∨ IssuedLabel.gen row ≠ app.hostGen) := by
      rw [not_or, not_not, not_not]
      exact hrow
    rw [if_neg (not_not.2 hlabel), hissued, if_neg (by decide), hlatest]
    dsimp only
    rw [if_neg hsame, if_pos hgeneration]

/-- Nothing is wrong with apps of their lineages that share no name, no port and no label. -/
lemma appsFault_eq_none_iff {liveNames : List JsString}
    {liveByPort : JsMap JsDouble JsString} {liveByLabel : JsMap JsString JsString}
    {apps : List AppRecord} :
    appsFault options issued liveNames liveByPort liveByLabel apps = none ↔
      (∀ app ∈ apps, app.name ∉ liveNames ∧ JsMap.get liveByPort app.port = none ∧
        JsMap.get liveByLabel app.hostLabel = none ∧ OfLineage options issued app) ∧
      (apps.map AppRecord.name).Nodup ∧ (apps.map AppRecord.port).Nodup ∧
        (apps.map AppRecord.hostLabel).Nodup := by
  induction apps generalizing liveNames liveByPort liveByLabel with
  | nil => simp [appsFault]
  | cons app apps ih =>
    have hget : ∀ {κ : Type} [DecidableEq κ] (m : JsMap κ JsString) (key k : κ) (v : JsString),
        JsMap.get (JsMap.set m key v) k = none ↔ k ≠ key ∧ JsMap.get m k = none := by
      intro κ _ m key k v
      rw [JsMap.get_set]
      by_cases hk : k = key <;> simp [hk]
    rw [appsFault]
    by_cases hname : app.name ∈ liveNames
    · simp [hname]
    rw [if_neg hname]
    cases hport : JsMap.get liveByPort app.port with
    | some clash => simp [hport]
    | none =>
      cases hlabel : JsMap.get liveByLabel app.hostLabel with
      | some sameLabel => simp [hlabel]
      | none =>
        dsimp only
        cases hlineage : lineageFault options issued app with
        | some why =>
          have hnot : ¬OfLineage options issued app := fun h => by
            rw [lineageFault_eq_none_iff.2 h] at hlineage
            cases hlineage
          simp [hnot]
        | none =>
          have hof := lineageFault_eq_none_iff.1 hlineage
          dsimp only
          rw [ih]
          simp only [hget, List.mem_cons, not_or, List.map_cons, List.nodup_cons, List.mem_map,
            not_exists, not_and, forall_eq_or_imp]
          constructor
          · rintro ⟨happs, hnames, hports, hlabels⟩
            exact ⟨⟨⟨hname, hport, hlabel, hof⟩, fun a ha => ⟨(happs a ha).1.2,
              (happs a ha).2.1.2, (happs a ha).2.2.1.2, (happs a ha).2.2.2⟩⟩,
              ⟨fun a ha => (happs a ha).1.1, hnames⟩, ⟨fun a ha => (happs a ha).2.1.1, hports⟩,
              fun a ha => (happs a ha).2.2.1.1, hlabels⟩
          · rintro ⟨⟨-, happs⟩, ⟨hname', hnames⟩, ⟨hport', hports⟩, hlabel', hlabels⟩
            exact ⟨fun a ha => ⟨⟨hname' a ha, (happs a ha).1⟩, ⟨hport' a ha, (happs a ha).2.1⟩,
              ⟨hlabel' a ha, (happs a ha).2.2.1⟩, (happs a ha).2.2.2⟩, hnames, hports, hlabels⟩

/-- **What the checks of the whole state say.** -/
theorem assertConsistent_eq_none_iff {s : RegistryState} :
    assertConsistent options s = none ↔ Consistent options s := by
  rw [assertConsistent, Option.or_eq_none_iff, ledgerFault_eq_none_iff, appsFault_eq_none_iff]
  constructor
  · rintro ⟨⟨-, hlabels⟩, happs, hnames, hports, hhost⟩
    exact ⟨hlabels, hnames, hports, hhost, fun app happ => (happs app happ).2.2.2⟩
  · rintro ⟨hlabels, hnames, hports, hhost, happs⟩
    exact ⟨⟨fun row _ => List.not_mem_nil, hlabels⟩,
      fun app happ => ⟨List.not_mem_nil, rfl, rfl, happs app happ⟩, hnames, hports, hhost⟩

lemma snapshot_eq_ok_iff {file : StateFile} {s : RegistryState} :
    snapshot options file = .ok s ↔ loadState options file = .ok s ∧ Consistent options s := by
  rw [snapshot]
  cases hload : loadState options file with
  | error e => simp
  | ok s' =>
    dsimp only
    cases hcheck : assertConsistent options s' with
    | none =>
      have hconsistent := assertConsistent_eq_none_iff.1 hcheck
      constructor
      · rintro ⟨⟩
        exact ⟨rfl, hconsistent⟩
      · exact And.left
    | some why =>
      refine ⟨nofun, ?_⟩
      rintro ⟨⟨⟩, hconsistent⟩
      rw [assertConsistent_eq_none_iff.2 hconsistent] at hcheck
      cases hcheck

/-! ## Addresses and issuances -/

/-- Two records are of one app at one address. -/
structure SameAddress (app app' : AppRecord) : Prop where
  name : app'.name = app.name
  port : app'.port = app.port
  hostLabel : app'.hostLabel = app.hostLabel
  hostGen : app'.hostGen = app.hostGen
  registrationGen : app'.registrationGen = app.registrationGen

structure SameIssuance (row row' : IssuedLabel) : Prop where
  label : IssuedLabel.label row' = IssuedLabel.label row
  name : IssuedLabel.name row' = IssuedLabel.name row
  gen : IssuedLabel.gen row' = IssuedLabel.gen row

variable {s : RegistryState} {app app' : AppRecord} {row row' : IssuedLabel}

lemma SameAddress.refl (app : AppRecord) : SameAddress app app := ⟨rfl, rfl, rfl, rfl, rfl⟩

lemma OfLineage.of_sameAddress (h : OfLineage options issued app)
    (hsame : SameAddress app app') : OfLineage options issued app' := by
  obtain ⟨hlabel, hlatest, hgeneration⟩ := h
  constructor
  · rw [hsame.hostLabel, hsame.name, hsame.hostGen]
    exact hlabel
  · rw [hsame.hostLabel, hsame.name, hsame.hostGen]
    exact hlatest
  · rw [hsame.registrationGen, hsame.name]
    exact hgeneration

lemma lineageGenerations_map
    (hg : ∀ row ∈ issued, IssuedLabel.name (g row) = IssuedLabel.name row ∧
      IssuedLabel.generation options (g row) = IssuedLabel.generation options row)
    (name : JsString) :
    lineageGenerations options (issued.map g) name = lineageGenerations options issued name := by
  rw [lineageGenerations, List.filter_map, List.map_map, lineageGenerations]
  have hfilter : issued.filter ((fun row => decide (IssuedLabel.name row = name)) ∘ g) =
      issued.filter fun row => IssuedLabel.name row = name :=
    List.filter_congr fun row hrow => by simp [(hg row hrow).1]
  rw [hfilter]
  exact List.map_congr_left fun row hrow => (hg row (List.mem_filter.1 hrow).1).2

lemma map_map_of_eq {α β : Type*} {l : List α} {f : α → α} {shown : α → β}
    (h : ∀ a ∈ l, shown (f a) = shown a) : (l.map f).map shown = l.map shown := by
  rw [List.map_map]
  exact List.map_congr_left h

lemma find?_map_of_eq {α : Type*} {l : List α} {f : α → α} {p : α → Bool}
    (h : ∀ a ∈ l, p (f a) = p a) : (l.map f).find? p = (l.find? p).map f := by
  induction l with
  | nil => rfl
  | cons a l ih =>
    have hrest := ih fun a ha => h a (List.mem_cons_of_mem _ ha)
    rw [List.map_cons, List.find?_cons, List.find?_cons, h a List.mem_cons_self, hrest]
    cases p a <;> rfl

lemma find?_reverse_map
    (hg : ∀ row ∈ issued, IssuedLabel.name (g row) = IssuedLabel.name row) (name : JsString) :
    (issued.map g).reverse.find? (fun row => IssuedLabel.name row = name) =
      (issued.reverse.find? fun row => IssuedLabel.name row = name).map g := by
  rw [← List.map_reverse]
  exact find?_map_of_eq fun row hrow => by simp [hg row (List.mem_reverse.1 hrow)]

/-- **The whole state is checked by addresses and issuances alone.** -/
theorem Consistent.map (h : Consistent options s) {f : AppRecord → AppRecord}
    (hf : ∀ app ∈ s.apps, SameAddress app (f app))
    (hg : ∀ row ∈ s.issuedLabels, SameIssuance row (g row) ∧
      IssuedLabel.generation options (g row) = IssuedLabel.generation options row) :
    Consistent options ⟨s.apps.map f, s.issuedLabels.map g⟩ := by
  constructor
  · rw [map_map_of_eq fun row hrow => (hg row hrow).1.label]
    exact h.labels
  · rw [map_map_of_eq fun app happ => (hf app happ).name]
    exact h.names
  · rw [map_map_of_eq fun app happ => (hf app happ).port]
    exact h.ports
  · rw [map_map_of_eq fun app happ => (hf app happ).hostLabel]
    exact h.hostLabels
  · intro app' happ'
    obtain ⟨app, happ, rfl⟩ := List.mem_map.1 happ'
    refine OfLineage.of_sameAddress ?_ (hf app happ)
    obtain ⟨hlabel, ⟨row, hlatest, hrow⟩, hgeneration⟩ := h.lineages app happ
    have hmem := List.mem_reverse.1 (List.mem_of_find?_eq_some hlatest)
    refine ⟨hlabel, ⟨g row, ?_, ?_, ?_⟩, ?_⟩
    · rw [find?_reverse_map fun row hrow => (hg row hrow).1.name, hlatest]
      rfl
    · exact (hg row hmem).1.label.trans hrow.1
    · exact (hg row hmem).1.gen.trans hrow.2
    · rw [lineageGenerations_map fun row hrow => ⟨(hg row hrow).1.name, (hg row hrow).2⟩]
      exact hgeneration

/-! ## States that may be written -/

structure ValidApp (options : AppRegistryOptions) (app : AppRecord) : Prop where
  passes : isPersistedApp options (strip app) = true
  bare : ∀ name ∈ heldBack, name ∉ app.fields.map Prod.fst
  defined : Defined app.fields

structure ValidRow (options : AppRegistryOptions) (row : IssuedLabel) : Prop where
  passes : isIssuedLabel options row = true
  defined : Defined row.fields

/-- **A state that may be written.** -/
structure Valid (options : AppRegistryOptions) (s : RegistryState) : Prop where
  apps : ∀ app ∈ s.apps, ValidApp options app
  rows : ∀ row ∈ s.issuedLabels, ValidRow options row
  consistent : Consistent options s

lemma field_strip (app : AppRecord) (name : String) : (strip app).field name =
    if name = "registrationGen" then app.registrationGen.toJs else app.field name := by
  simp only [strip, JsValue.field, JsValue.fields, JsMap.get_set, AppRecord.field]
  split_ifs <;> rfl

lemma field_strip_of_ne (app : AppRecord) (h : name ≠ "registrationGen") :
    (strip app).field name = app.field name := by rw [field_strip, if_neg h]

lemma field_strip_registrationGen (app : AppRecord) :
    (strip app).field "registrationGen" = app.registrationGen.toJs := by
  rw [field_strip, if_pos rfl]

lemma ValidApp.fields_strip (h : ValidApp options app) :
    (strip app).fields = app.fields ++ [("registrationGen", app.registrationGen.toJs)] := by
  have hbare := h.bare "registrationGen" (by simp [heldBack])
  have hhas : JsMap.has app.fields "registrationGen" = false := by
    rw [Bool.eq_false_iff]
    intro hhas
    obtain ⟨value, hmem⟩ := JsMap.has_iff.1 hhas
    exact hbare (List.mem_map.2 ⟨_, hmem, rfl⟩)
  rw [strip, JsValue.fields, JsMap.set, hhas]
  rfl

lemma ValidApp.defined_strip (h : ValidApp options app) : Defined (strip app).fields := by
  rw [h.fields_strip]
  intro f hf
  rcases List.mem_append.1 hf with hf | hf
  · exact h.defined f hf
  · obtain rfl := List.mem_singleton.1 hf
    dsimp only
    cases app.registrationGen <;> exact nofun

lemma ValidApp.generations (h : ValidApp options app) : ∃ g r : ℕ,
    app.field "hostGen" = .number g ∧ app.registrationGen = .finite r ∧ 1 ≤ g ∧ g ≤ r ∧
      r ≤ MAX_SAFE_INTEGER := by
  obtain ⟨-, -, hhost, hlater⟩ := isPersistedApp_iff.1 h.passes
  obtain ⟨g, hg, hone, -⟩ := isGeneration_iff.1
    (check_of_passes hhost "hostGen" isGeneration (by simp [hostChecks]))
  rw [field_strip_registrationGen, hg] at hlater
  rw [field_strip_of_ne app (by decide)] at hg
  rcases Bool.or_eq_true_iff.1 hlater with hnone | hlater
  · rw [JsValue.isUndefined_toJs] at hnone
    cases hnone
  · obtain ⟨hgen, hle⟩ := Bool.and_eq_true_iff.1 hlater
    obtain ⟨r, hr, -, hsafe⟩ := isGeneration_iff.1 hgen
    rw [hr] at hle
    have hle' : (g : ℚ) ≤ r := by simpa [isAtLeast] using hle
    exact ⟨g, r, hg, JsDouble.numberOf_toJs hr, hone, by exact_mod_cast hle', hsafe⟩

def AppRecord.asWritten (app : AppRecord) : AppRecord :=
  { app with fields := JsValue.roundTripFields app.fields }

def RegistryState.asWritten (s : RegistryState) : RegistryState :=
  ⟨s.apps.map AppRecord.asWritten, s.issuedLabels.map JsValue.roundTrip⟩

lemma ValidApp.field_asWritten (h : ValidApp options app)
    (hname : name ≠ "registrationGen")
    (hsame : (strip app).roundTrip.field name = (strip app).field name) :
    app.asWritten.field name = app.field name := by
  rw [JsValue.field_roundTrip_of_defined h.defined_strip, field_strip_of_ne app hname] at hsame
  have hround : app.asWritten.field name = (app.field name).roundTrip :=
    JsValue.field_roundTrip_of_defined (v := .object app.fields) h.defined name
  rw [hround, hsame]

lemma ValidApp.sameAddress (h : ValidApp options app) : SameAddress app app.asWritten := by
  obtain ⟨-, hsame⟩ := isPersistedApp_roundTrip h.defined_strip h.passes
  have hfield : ∀ name ∈ ["name", "port", "hostLabel", "hostGen"],
      app.asWritten.field name = app.field name := by
    intro name hname
    simp only [List.mem_cons, List.not_mem_nil, or_false] at hname
    refine h.field_asWritten ?_ (hsame name ?_) <;> rcases hname with rfl | rfl | rfl | rfl <;> simp
  constructor
  · rw [AppRecord.name, hfield "name" (by simp), AppRecord.name]
  · rw [AppRecord.port, hfield "port" (by simp), AppRecord.port]
  · rw [AppRecord.hostLabel, hfield "hostLabel" (by simp), AppRecord.hostLabel]
  · rw [AppRecord.hostGen, hfield "hostGen" (by simp), AppRecord.hostGen]
  · rfl

lemma ValidRow.sameIssuance (h : ValidRow options row) : SameIssuance row row.roundTrip ∧
    IssuedLabel.generation options row.roundTrip = IssuedLabel.generation options row := by
  obtain ⟨-, hsame⟩ := isIssuedLabel_roundTrip h.defined h.passes
  refine ⟨⟨?_, ?_, ?_⟩, ?_⟩
  · rw [IssuedLabel.label, hsame "label" (by simp), IssuedLabel.label]
  · rw [IssuedLabel.name, hsame "name" (by simp), IssuedLabel.name]
  · rw [IssuedLabel.gen, hsame "gen" (by simp), IssuedLabel.gen]
  · rw [IssuedLabel.generation, hsame "registrationGen" (by simp), hsame "gen" (by simp),
      IssuedLabel.generation]

lemma ValidApp.strip_roundTrip (h : ValidApp options app) :
    (strip app).roundTrip = .object (JsValue.roundTripFields app.fields ++
      [("registrationGen", app.registrationGen.toJs)]) := by
  obtain ⟨g, r, -, hr, -⟩ := h.generations
  have hobject : strip app = .object (strip app).fields := rfl
  have hdefined := h.defined_strip
  rw [hobject, JsValue.roundTrip, hdefined.roundTripFields, h.fields_strip, List.map_append,
    ← h.defined.roundTripFields, hr]
  rfl

lemma ValidApp.bare_asWritten (h : ValidApp options app) :
    ∀ name ∈ heldBack, name ∉ app.asWritten.fields.map Prod.fst := by
  intro name hname
  rw [AppRecord.asWritten, h.defined.roundTripFields, List.map_map]
  exact h.bare name hname

lemma ValidApp.asWritten (h : ValidApp options app) : ValidApp options app.asWritten := by
  refine ⟨?_, h.bare_asWritten, JsValue.defined_roundTripFields _⟩
  have hstrip : strip app.asWritten = (strip app).roundTrip := by
    have hhas : JsMap.has app.asWritten.fields "registrationGen" = false := by
      rw [Bool.eq_false_iff]
      intro hhas
      obtain ⟨value, hmem⟩ := JsMap.has_iff.1 hhas
      exact h.bare_asWritten "registrationGen" (by simp [heldBack]) (List.mem_map.2 ⟨_, hmem, rfl⟩)
    rw [h.strip_roundTrip, strip, JsMap.set, hhas]
    rfl
  rw [hstrip]
  exact (isPersistedApp_roundTrip h.defined_strip h.passes).1

/-! ## What is written is read again -/

lemma foldl_delete (names : List String) (fields : JsMap String JsValue) :
    names.foldl JsMap.delete fields = fields.filter fun f => f.1 ∉ names := by
  induction names generalizing fields with
  | nil => simp
  | cons name names ih =>
    rw [List.foldl_cons, ih, JsMap.delete, List.filter_filter]
    refine List.filter_congr fun f _ => ?_
    by_cases hname : f.1 = name <;> simp [hname]

lemma lineage_finite (hrows : ∀ row ∈ issued, ValidRow options row)
    (name : JsString) : ∀ d ∈ lineageGenerations options issued name, ∃ q, d = .finite q := by
  intro d hd
  obtain ⟨row, hrow, rfl⟩ := List.mem_map.1 hd
  obtain ⟨g, r, -, hr, -⟩ := generation_of_isIssuedLabel (hrows row (List.mem_filter.1 hrow).1).passes
  exact ⟨r, hr⟩

lemma OfLineage.lineage_ne_nil (h : OfLineage options issued app) :
    lineageGenerations options issued app.name ≠ [] := by
  obtain ⟨row, hlatest, -⟩ := h.latest
  have hname : decide (IssuedLabel.name row = app.name) = true := by simpa using List.find?_some hlatest
  have hmem : row ∈ issued.filter fun row => IssuedLabel.name row = app.name :=
    List.mem_filter.2 ⟨List.mem_reverse.1 (List.mem_of_find?_eq_some hlatest), hname⟩
  exact List.ne_nil_of_mem (List.mem_map_of_mem hmem)

lemma OfLineage.maxOf_eq (h : OfLineage options issued app) :
    JsDouble.maxOf (lineageGenerations options issued app.name) = app.registrationGen := by
  have hgeneration := h.generation
  simp only [JsDouble.strictEq, Bool.and_eq_true, decide_eq_true_eq] at hgeneration
  exact hgeneration.2.symm

/-- A record that is written and read is the record behind the way through JSON. -/
lemma hydrate_roundTrip (hrows : ∀ row ∈ issued, ValidRow options row)
    (h : ValidApp options app) (hof : OfLineage options issued app) :
    hydrate options (issued.map JsValue.roundTrip) (strip app).roundTrip = app.asWritten := by
  obtain ⟨g, r, -, hr, -⟩ := h.generations
  obtain ⟨-, hsame⟩ := isPersistedApp_roundTrip h.defined_strip h.passes
  have hgen : (strip app).roundTrip.field "registrationGen" = .number r := by
    rw [hsame "registrationGen" (by simp), field_strip_registrationGen, hr]
    rfl
  have hname : textOf ((strip app).roundTrip.field "name") = app.name := by
    rw [hsame "name" (by simp), field_strip_of_ne app (by decide)]
    rfl
  have hfields : heldBack.foldl JsMap.delete (strip app).roundTrip.fields =
      JsValue.roundTripFields app.fields := by
    rw [foldl_delete, h.strip_roundTrip, JsValue.fields, List.filter_append, List.filter_eq_self.2,
      List.filter_eq_nil_iff.2, List.append_nil]
    · intro f hf
      obtain rfl := List.mem_singleton.1 hf
      simp [heldBack]
    · intro f hf
      refine decide_eq_true fun hheld => ?_
      exact h.bare_asWritten f.1 hheld (List.mem_map_of_mem hf)
  have hlineage : lineageGenerations options (issued.map JsValue.roundTrip) app.name =
      lineageGenerations options issued app.name :=
    lineageGenerations_map (fun row hrow => ⟨(hrows row hrow).sameIssuance.1.name,
      (hrows row hrow).sameIssuance.2⟩) _
  have hmax := hof.maxOf_eq
  rw [hr] at hmax
  obtain ⟨m, hm, hmem, hall⟩ := JsDouble.maxOf_spec (lineage_finite hrows _) hof.lineage_ne_nil
  obtain rfl : m = r := JsDouble.finite.inj (hm.symm.trans hmax)
  have hlargest : JsDouble.maxOf (.finite r :: lineageGenerations options issued app.name) =
      .finite r := by
    refine JsDouble.maxOf_eq ?_ List.mem_cons_self fun q hq => ?_
    · exact List.forall_mem_cons.2 ⟨⟨r, rfl⟩, lineage_finite hrows _⟩
    · rcases List.mem_cons.1 hq with hq | hq
      · exact (JsDouble.finite.inj hq).le
      · exact hall q hq
  have hcoalesce : toNumber options (coalesce (.number r) ((strip app).roundTrip.field "hostGen")) =
      .finite r := rfl
  rw [hydrate, hfields, hgen, hname, hlineage, hcoalesce, hlargest, AppRecord.asWritten, hr]

theorem Valid.asWritten (h : Valid options s) : Valid options s.asWritten := by
  constructor
  · intro app' happ'
    obtain ⟨app, happ, rfl⟩ := List.mem_map.1 happ'
    exact (h.apps app happ).asWritten
  · intro row' hrow'
    obtain ⟨row, hrow, rfl⟩ := List.mem_map.1 hrow'
    have hvalid := h.rows row hrow
    refine ⟨(isIssuedLabel_roundTrip hvalid.defined hvalid.passes).1, ?_⟩
    cases row with
    | object fields => exact JsValue.defined_roundTripFields fields
    | _ => exact nofun
  · exact h.consistent.map (fun app happ => (h.apps app happ).sameAddress)
      fun row hrow => (h.rows row hrow).sameIssuance

/-- **What is written is read again**: the file passes all checks, and it has the records and the rows
that were written. -/
theorem snapshot_persisted (h : Valid options s) :
    snapshot options (persisted s) = .ok s.asWritten := by
  refine snapshot_eq_ok_iff.2 ⟨?_, h.asWritten.consistent⟩
  have happs : JsValue.roundTripItems (s.apps.map strip) =
      s.apps.map fun app => (strip app).roundTrip := by
    rw [JsValue.roundTripItems_eq, List.map_map]
    · rfl
    · rintro v hv rfl
      obtain ⟨app, -, happ⟩ := List.mem_map.1 hv
      cases happ
  have hrows : JsValue.roundTripItems s.issuedLabels = s.issuedLabels.map JsValue.roundTrip := by
    refine JsValue.roundTripItems_eq fun row hrow hundefined => ?_
    have hobject := (isIssuedLabel_iff.1 (h.rows row hrow).passes).1
    rw [hundefined] at hobject
    cases hobject
  have hpassApps : (s.apps.map fun app => (strip app).roundTrip).all (isPersistedApp options) =
      true := by
    refine List.all_eq_true.2 fun v hv => ?_
    obtain ⟨app, happ, rfl⟩ := List.mem_map.1 hv
    exact (isPersistedApp_roundTrip (h.apps app happ).defined_strip (h.apps app happ).passes).1
  have hpassRows : (s.issuedLabels.map JsValue.roundTrip).all (isIssuedLabel options) = true := by
    refine List.all_eq_true.2 fun v hv => ?_
    obtain ⟨row, hrow, rfl⟩ := List.mem_map.1 hv
    exact (isIssuedLabel_roundTrip (h.rows row hrow).defined (h.rows row hrow).passes).1
  have hhydrate : (s.apps.map fun app => (strip app).roundTrip).map
      (hydrate options (s.issuedLabels.map JsValue.roundTrip)) = s.apps.map AppRecord.asWritten := by
    rw [List.map_map]
    exact List.map_congr_left fun app happ =>
      hydrate_roundTrip h.rows (h.apps app happ) (h.consistent.lineages app happ)
  have hvalue : (JsValue.object [("apps", .array (s.apps.map strip)),
      ("issuedLabels", .array s.issuedLabels)]).roundTrip =
        .object [("apps", .array (s.apps.map fun app => (strip app).roundTrip)),
          ("issuedLabels", .array (s.issuedLabels.map JsValue.roundTrip))] := by
    simp only [JsValue.roundTrip, JsValue.roundTripFields, happs, hrows]
  have hload : ∀ hparsed, loadState options (.json (.object
      [("apps", .array (s.apps.map fun app => (strip app).roundTrip)),
        ("issuedLabels", .array (s.issuedLabels.map JsValue.roundTrip))]) hparsed) =
          .ok s.asWritten := by
    intro hparsed
    simp only [loadState, readStateFile, JsValue.field, JsValue.fields, JsMap.get_cons, if_pos,
      Option.getD_some, show ("apps" = "issuedLabels") = False by decide, if_false, hpassApps,
      hpassRows, Bool.not_true, Bool.false_eq_true, hhydrate]
    rfl
  unfold persisted
  simp only [hvalue]
  exact hload _

/-! ## What is read may be written -/

lemma get_foldl_delete {names : List String} (h : name ∉ names)
    (fields : JsMap String JsValue) :
    JsMap.get (names.foldl JsMap.delete fields) name = JsMap.get fields name := by
  induction names generalizing fields with
  | nil => rfl
  | cons n names ih =>
    rw [List.mem_cons, not_or] at h
    rw [List.foldl_cons, ih h.2, JsMap.get_delete, if_neg h.1]

lemma field_hydrate (issued : List IssuedLabel) (v : JsValue) (h : name ∉ heldBack) :
    (hydrate options issued v).field name = v.field name := by
  simp only [hydrate, AppRecord.field, JsValue.field, JsValue.fields, get_foldl_delete h]

lemma OfLineage.generations (h : OfLineage options issued app)
    (hrows : ∀ row ∈ issued, ValidRow options row) : ∃ g r : ℕ,
    app.hostGen = .finite g ∧ app.registrationGen = .finite r ∧ 1 ≤ g ∧ g ≤ r ∧
      r ≤ MAX_SAFE_INTEGER := by
  obtain ⟨m, hm, hmem, hall⟩ := JsDouble.maxOf_spec (lineage_finite hrows _) h.lineage_ne_nil
  -- the largest generation is that of a row
  obtain ⟨largest, hlargest, hgeneration⟩ := List.mem_map.1 hmem
  obtain ⟨-, r, -, hr, -, -, hsafe⟩ :=
    generation_of_isIssuedLabel (hrows largest (List.mem_filter.1 hlargest).1).passes
  obtain rfl : m = r := JsDouble.finite.inj (hgeneration.symm.trans hr)
  obtain ⟨row, hlatest, -, hgen⟩ := h.latest
  have hname : decide (IssuedLabel.name row = app.name) = true := by simpa using List.find?_some hlatest
  have hrow := List.mem_reverse.1 (List.mem_of_find?_eq_some hlatest)
  obtain ⟨g, r', hg, hr', hone, hle, -⟩ := generation_of_isIssuedLabel (hrows row hrow).passes
  have hle' : (r' : ℚ) ≤ r :=
    hall r' (List.mem_map.2 ⟨row, List.mem_filter.2 ⟨hrow, hname⟩, hr'⟩)
  have hgenRow : IssuedLabel.gen row = .finite g := by
    rw [IssuedLabel.gen, hg]
    rfl
  exact ⟨g, r, hgen.symm.trans hgenRow, h.maxOf_eq.symm.trans hm, hone,
    hle.trans (by exact_mod_cast hle'), hsafe⟩

/-- **A record that is read may be written.** -/
lemma validApp_hydrate
    (hrows : ∀ row ∈ issued, ValidRow options row) (hdefined : Defined v.fields)
    (hlegacy : passes (legacyChecks options) v = true) (hhost : passes hostChecks v = true)
    (hof : OfLineage options issued (hydrate options issued v)) :
    ValidApp options (hydrate options issued v) := by
  have hkeep : ∀ name, name ∉ heldBack → (strip (hydrate options issued v)).field name =
      v.field name := by
    intro name hname
    rw [field_strip_of_ne _ (fun h => hname (by simp [heldBack, h])), field_hydrate issued v hname]
  have hpass : ∀ checks : List (String × (JsValue → Bool)), (∀ c ∈ checks, c.1 ∉ heldBack) →
      passes checks v = true → passes checks (strip (hydrate options issued v)) = true := by
    intro checks hchecks h
    refine List.all_eq_true.2 fun c hc => ?_
    rw [hkeep c.1 (hchecks c hc)]
    exact List.all_eq_true.1 h c hc
  have hgenField : (hydrate options issued v).field "hostGen" = v.field "hostGen" :=
    field_hydrate issued v (by decide)
  obtain ⟨n, hn, -⟩ := isGeneration_iff.1
    (check_of_passes hhost "hostGen" isGeneration (by simp [hostChecks]))
  obtain ⟨g, r, hg, hr, hone, hle, hsafe⟩ := hof.generations hrows
  rw [AppRecord.hostGen, hgenField, hn] at hg
  have hng : (n : ℚ) = g := JsDouble.finite.inj hg
  refine ⟨isPersistedApp_iff.2 ⟨rfl, hpass _ ?_ hlegacy, hpass _ ?_ hhost, ?_⟩, ?_, ?_⟩
  · simp [legacyChecks, heldBack]
  · simp [hostChecks, heldBack]
  · rw [field_strip_registrationGen, hkeep "hostGen" (by decide), hn, hr, hng]
    rw [isLaterGeneration, JsValue.isOptional, Bool.or_eq_true_iff]
    refine .inr (Bool.and_eq_true_iff.2 ⟨?_, ?_⟩)
    · exact isGeneration_iff.2 ⟨r, rfl, hone.trans hle, hsafe⟩
    · have hle' : (g : ℚ) ≤ r := by exact_mod_cast hle
      simpa [isAtLeast, JsDouble.toJs] using hle'
  · intro name hname hmem
    obtain ⟨f, hf, rfl⟩ := List.mem_map.1 hmem
    rw [hydrate, foldl_delete] at hf
    have hnot := of_decide_eq_true (List.mem_filter.1 hf).2
    exact hnot hname
  · intro f hf
    rw [hydrate, foldl_delete] at hf
    exact hdefined f (List.mem_filter.1 hf).1

lemma field_withFirstLabel (v : JsValue) (name : String) : (withFirstLabel v).field name =
    if name = "hostGen" then .number 1
    else if name = "hostLabel" then v.field "name" else v.field name := by
  simp only [withFirstLabel, setField, JsValue.field, JsValue.fields, JsMap.get_set]
  split_ifs <;> rfl

lemma exists_of_isStringWith {test : JsString → Bool}
    (h : JsValue.isStringWith test v = true) : ∃ t, v = .string t ∧ test t = true := by
  cases v with
  | string t => exact ⟨t, rfl, h⟩
  | _ => cases h

/-- The row of a record of the old file may be written. -/
lemma validRow_firstIssue (h : passes (legacyChecks options) v = true) :
    ValidRow options (firstIssue (withFirstLabel v)) := by
  obtain ⟨name, hname, htext⟩ := exists_of_isStringWith
    (check_of_passes h "name" (JsValue.isStringWith isNameText) (by simp [legacyChecks]))
  have hcreated := check_of_passes h "createdAt" isFiniteNumber (by simp [legacyChecks])
  have hrow : firstIssue (withFirstLabel v) = .object [("label", .string name),
      ("name", .string name), ("gen", .number 1), ("issuedAt", v.field "createdAt")] := by
    simp [firstIssue, field_withFirstLabel, hname]
  have hshort : name.length ≤ MAX_APP_NAME_LENGTH := by
    simp only [isNameText, Bool.and_eq_true, decide_eq_true_eq] at htext
    exact htext.1.2
  have hgen : isGeneration (.number 1) = true := by decide
  rw [hrow]
  clear hrow
  generalize v.field "createdAt" = createdAt at hcreated ⊢
  constructor
  · rw [isIssuedLabel_iff]
    refine ⟨rfl, ?_, ?_, rfl⟩
    · simp [passes, rowChecks, JsValue.field, JsValue.fields, isShortText, JsValue.isStringWith, htext,
        hshort, hcreated, hgen, JsValue.isOptional, JsValue.isUndefined, JsMap.get]
    · simp [IssuedLabel.label, IssuedLabel.name, IssuedLabel.gen, JsValue.field, JsValue.fields,
        JsMap.get_cons, textOf, numberOf, labelFor]
  · intro f hf
    simp only [JsValue.fields, List.mem_cons, List.not_mem_nil, or_false] at hf
    rcases hf with rfl | rfl | rfl | rfl
    · rintro ⟨⟩
    · rintro ⟨⟩
    · rintro ⟨⟩
    · intro hundefined
      dsimp only at hundefined
      rw [hundefined] at hcreated
      cases hcreated

lemma passes_withFirstLabel (h : passes (legacyChecks options) v = true) :
    passes (legacyChecks options) (withFirstLabel v) = true ∧
      passes hostChecks (withFirstLabel v) = true := by
  constructor
  · refine List.all_eq_true.2 fun c hc => ?_
    have hne : c.1 ≠ "hostGen" ∧ c.1 ≠ "hostLabel" := by
      simp only [legacyChecks, List.mem_cons, List.not_mem_nil, or_false] at hc
      rcases hc with rfl | rfl | rfl | rfl | rfl | rfl | rfl | rfl | rfl | rfl | rfl | rfl | rfl <;>
        simp
    rw [field_withFirstLabel, if_neg hne.1, if_neg hne.2]
    exact List.all_eq_true.1 h c hc
  · have hname := check_of_passes h "name" (JsValue.isStringWith isNameText) (by simp [legacyChecks])
    have hgen : isGeneration (.number 1) = true := by decide
    simp [passes, hostChecks, field_withFirstLabel, hname, hgen]

lemma defined_withFirstLabel (hdefined : Defined v.fields)
    (h : passes (legacyChecks options) v = true) : Defined (withFirstLabel v).fields := by
  obtain ⟨name, hname, -⟩ := exists_of_isStringWith
    (check_of_passes h "name" (JsValue.isStringWith isNameText) (by simp [legacyChecks]))
  intro f hf
  rcases JsMap.mem_set hf with hf | rfl
  · rcases JsMap.mem_set hf with hf | rfl
    · exact hdefined f hf
    · rw [hname]
      exact nofun
  · exact nofun

/-- **What is read may be written.** -/
theorem valid_of_snapshot {file : StateFile} (h : snapshot options file = .ok s) : Valid options s := by
  obtain ⟨hload, hconsistent⟩ := snapshot_eq_ok_iff.1 h
  cases file with
  | missing =>
    cases hload
    exact ⟨nofun, nofun, hconsistent⟩
  | unreadable why => cases hload
  | notJson => cases hload
  | json value hparsed =>
    cases value with
    | array records =>
      simp only [loadState, readStateFile] at hload
      split at hload
      · rename_i hall
        cases hload
        have hlegacy : ∀ v ∈ records, passes (legacyChecks options) v = true := fun v hv =>
          (Bool.and_eq_true_iff.1 (List.all_eq_true.1 hall v hv)).2
        have hdefined : ∀ v ∈ records, Defined v.fields := by
          cases hparsed with
          | array _ hitems => exact fun v hv => (hitems v hv).defined
        have hrows : ∀ row ∈ (records.map withFirstLabel).map firstIssue, ValidRow options row := by
          intro row hrow
          obtain ⟨app, happ, rfl⟩ := List.mem_map.1 hrow
          obtain ⟨v, hv, rfl⟩ := List.mem_map.1 happ
          exact validRow_firstIssue (hlegacy v hv)
        refine ⟨fun app happ => ?_, hrows, hconsistent⟩
        have hof := hconsistent.lineages app happ
        obtain ⟨v', hv', rfl⟩ := List.mem_map.1 happ
        obtain ⟨v, hv, rfl⟩ := List.mem_map.1 hv'
        obtain ⟨hlegacy', hhost⟩ := passes_withFirstLabel (hlegacy v hv)
        exact validApp_hydrate hrows (defined_withFirstLabel (hdefined v hv) (hlegacy v hv)) hlegacy'
          hhost hof
      · cases hload
    | object fields =>
      simp only [loadState, readStateFile] at hload
      split at hload
      · rename_i apps issued happs hissued
        split_ifs at hload with hpass hpassRows
        cases hload
        rw [Bool.not_eq_true', Bool.not_eq_false] at hpass hpassRows
        have hitems : ∀ {name : String} {items : List JsValue},
            (JsValue.object fields).field name = .array items → ∀ v ∈ items, Defined v.fields := by
          intro name items hfield v hv
          have hpart : JsValue.Parsed ((JsValue.object fields).field name) :=
            hparsed.field (by rw [hfield]; exact nofun)
          rw [hfield] at hpart
          cases hpart with
          | array _ hall => exact (hall v hv).defined
        have hrows : ∀ row ∈ issued, ValidRow options row := fun row hrow =>
          ⟨List.all_eq_true.1 hpassRows row hrow, hitems hissued row hrow⟩
        refine ⟨fun app happ => ?_, hrows, hconsistent⟩
        have hof := hconsistent.lineages app happ
        obtain ⟨v, hv, rfl⟩ := List.mem_map.1 happ
        obtain ⟨-, hlegacy, hhost, -⟩ := isPersistedApp_iff.1 (List.all_eq_true.1 hpass v hv)
        exact validApp_hydrate hrows (hitems happs v hv) hlegacy hhost hof
      · cases hload
      · cases hload
    | _ => cases hload

end AppRegistry

end Isomux
