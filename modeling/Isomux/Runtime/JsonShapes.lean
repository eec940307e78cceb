import Isomux.Runtime.Values

set_option autoImplicit false

/-!
# Checks of values, and the way through JSON

A value that is written as JSON and read again has lost the fields that hold `undefined`. A check that
looks at values by their types and by their fields cannot tell, as long as the value has no number
that is not finite and no `undefined` in an array.

## Main results

* `Isomux.JsValue.field_roundTrip` — the fields of a value that was written and read.
* `Isomux.JsValue.Survives.field`, `Isomux.JsValue.Survives.listOf`,
  `Isomux.JsValue.Survives.values` — how checks that survive compose.
-/

namespace Isomux

/-! ## Numbers -/

/-- A number. A finite one is the rational number it stands for. -/
inductive JsDouble where
  | finite (n : ℚ)
  | infinite (negative : Bool)
  | nan
  deriving DecidableEq

namespace JsDouble

def isFinite : JsDouble → Bool
  | finite _ => true
  | _ => false

/-- `===`: `NaN` is not what it is. -/
def strictEq (a b : JsDouble) : Bool := a ≠ nan && a = b

/-- `n + 1`. -/
def succ : JsDouble → JsDouble
  | finite n => finite (n + 1)
  | n => n

def toJs : JsDouble → JsValue
  | finite n => .number n
  | _ => .notFinite

end JsDouble

namespace JsValue

/-! ## The way through JSON -/

mutual

/-- `JSON.parse(JSON.stringify(value))`. -/
def roundTrip : JsValue → JsValue
  | array items => array (roundTripItems items)
  | object fields => object (roundTripFields fields)
  | notFinite => null
  | v => v

/-- In an array `undefined` becomes `null`. -/
def roundTripItems : List JsValue → List JsValue
  | [] => []
  | undefined :: items => null :: roundTripItems items
  | v :: items => roundTrip v :: roundTripItems items

/-- A field that holds `undefined` is left out. -/
def roundTripFields : List (String × JsValue) → List (String × JsValue)
  | [] => []
  | (_, undefined) :: fields => roundTripFields fields
  | (name, v) :: fields => (name, roundTrip v) :: roundTripFields fields

end

/-! ## Checks -/

/-- `v === undefined`. -/
def isUndefined : JsValue → Bool
  | undefined => true
  | _ => false

/-- `v === null`. -/
def isNull : JsValue → Bool
  | null => true
  | _ => false

/-- `v === true`. -/
def isTrue : JsValue → Bool
  | bool true => true
  | _ => false

/-- `typeof v === "string"`, and the string passes a test. -/
def isStringWith (test : JsString → Bool) : JsValue → Bool
  | string s => test s
  | _ => false

/-- `typeof v === "string"`. -/
def isString : JsValue → Bool := isStringWith fun _ => true

/-- `typeof v === "string" && v !== ""`. -/
def isNonEmptyString : JsValue → Bool := isStringWith (· ≠ [])

/-- `v === text`. -/
def isText (text : JsString) : JsValue → Bool := isStringWith (· = text)

/-- `v` is one of some texts. -/
def isOneOf (texts : List JsString) : JsValue → Bool := isStringWith fun s => texts.any (s = ·)

/-- `typeof v === "number"`. -/
def isNumber : JsValue → Bool
  | number _ => true
  | notFinite => true
  | _ => false

/-- `typeof v === "object" && v !== null`. -/
def isObject : JsValue → Bool
  | array _ => true
  | object _ => true
  | _ => false

variable (item : JsValue → Bool)

/-- `Array.isArray(v) && v.every(item)`. -/
def isArrayOf : JsValue → Bool
  | array items => items.all item
  | _ => false

/-- `isListOf`: a non-empty array whose every element passes. -/
def isListOf : JsValue → Bool
  | array items => !items.isEmpty && items.all item
  | _ => false

/-- `Object.values(v).every(item)`. -/
def everyValue : JsValue → Bool
  | object fields => fields.all fun f => item f.2
  | array items => items.all item
  | _ => true

variable (check : JsValue → Bool)

/-- `v === undefined || check(v)`. -/
def isOptional (v : JsValue) : Bool := v.isUndefined || check v

/-- `v` has none of some fields. -/
def lacks (names : List String) (v : JsValue) : Bool :=
  names.all fun name => (v.field name).isUndefined

/-! ## Values of types -/

def ofOption {α : Type} (make : α → JsValue) : Option α → JsValue
  | some a => make a
  | none => undefined

def ofList {α : Type} (make : α → JsValue) (list : List α) : JsValue := array (list.map make)

/-- An optional `true`. -/
def ofFlag (flag : Bool) : JsValue := if flag then bool true else undefined

@[simp] lemma isNumber_toJs (n : JsDouble) : n.toJs.isNumber = true := by
  cases n <;> rfl

@[simp] lemma isUndefined_toJs (n : JsDouble) : n.toJs.isUndefined = false := by
  cases n <;> rfl

/-! ## Values that survive -/

/-- A value in which nothing is lost but fields that hold `undefined`. The names of such fields do not
stand for other fields too. -/
inductive Plain : JsValue → Prop where
  | undefined : Plain undefined
  | null : Plain null
  | bool (b : Bool) : Plain (bool b)
  | number (n : ℚ) : Plain (number n)
  | string (s : JsString) : Plain (string s)
  | array (items : List JsValue) (hdefined : ∀ v ∈ items, v ≠ JsValue.undefined)
    (hitems : ∀ v ∈ items, Plain v) : Plain (array items)
  | object (fields : List (String × JsValue))
    (hnames : (fields.map Prod.fst).Nodup ∨ ∀ f ∈ fields, f.2 ≠ JsValue.undefined)
    (hfields : ∀ f ∈ fields, Plain f.2) : Plain (object fields)

/-- A check that cannot tell a value from what comes back. -/
def Stable : Prop := ∀ v, Plain v → check v.roundTrip = check v

/-- A check that what comes back passes when the value did. -/
def Survives : Prop :=
  ∀ v, Plain v → check v = true → check v.roundTrip = true

lemma Stable.survives {check : JsValue → Bool} (h : Stable check) : Survives check :=
  fun v hv hpass => (h v hv).trans hpass

lemma roundTripItems_eq {items : List JsValue} (h : ∀ v ∈ items, v ≠ undefined) :
    roundTripItems items = items.map roundTrip := by
  induction items with
  | nil => simp [roundTripItems]
  | cons v items ih =>
    have hv := h v List.mem_cons_self
    have hrest := ih fun w hw => h w (List.mem_cons_of_mem _ hw)
    cases v <;> simp_all [roundTripItems]

variable (fields : List (String × JsValue))

lemma roundTripFields_eq : roundTripFields fields =
    (fields.filter fun f => !f.2.isUndefined).map fun f => (f.1, f.2.roundTrip) := by
  induction fields with
  | nil => simp [roundTripFields]
  | cons f fields ih =>
    obtain ⟨name, v⟩ := f
    cases v <;> simp [roundTripFields, isUndefined, ih]

lemma Plain.finite {n : JsDouble} (h : n.isFinite = true) : Plain n.toJs := by
  cases n with
  | finite n => exact .number n
  | _ => cases h

lemma Plain.ofOption {α : Type} {make : α → JsValue} {o : Option α} (h : ∀ a ∈ o, Plain (make a)) :
    Plain (JsValue.ofOption make o) := by
  cases o with
  | none => exact .undefined
  | some a => exact h a rfl

lemma Plain.ofList {α : Type} {make : α → JsValue} {list : List α}
    (hdefined : ∀ a, make a ≠ JsValue.undefined) (h : ∀ a ∈ list, Plain (make a)) :
    Plain (JsValue.ofList make list) := by
  refine .array _ (fun v hv => ?_) fun v hv => ?_
  · obtain ⟨a, -, rfl⟩ := List.mem_map.1 hv
    exact hdefined a
  · obtain ⟨a, ha, rfl⟩ := List.mem_map.1 hv
    exact h a ha

lemma Plain.optionalString (o : Option JsString) : Plain (JsValue.ofOption JsValue.string o) :=
  .ofOption fun s _ => .string s

lemma Plain.strings (list : List JsString) : Plain (JsValue.ofList JsValue.string list) :=
  .ofList (fun _ => JsValue.noConfusion) fun s _ => .string s

lemma Plain.ofFlag (flag : Bool) : Plain (JsValue.ofFlag flag) := by
  cases flag with
  | false => exact .undefined
  | true => exact .bool true

@[simp] lemma isUndefined_roundTrip (v : JsValue) : v.roundTrip.isUndefined = v.isUndefined := by
  cases v <;> rfl

variable {v : JsValue}

lemma Plain.field (h : Plain v) (name : String) : Plain (v.field name) := by
  cases h with
  | object fields hnames hfields =>
    unfold JsValue.field
    cases hget : JsMap.get (JsValue.object fields).fields name with
    | none => exact .undefined
    | some w =>
      obtain ⟨f, hfind, rfl⟩ := Option.map_eq_some_iff.1 hget
      exact hfields f (List.mem_of_find?_eq_some hfind)
  | _ => exact .undefined

/-- **The fields of a value that was written and read** are its fields, written and read. -/
theorem field_roundTrip (h : Plain v) (name : String) :
    v.roundTrip.field name = (v.field name).roundTrip := by
  cases h with
  | object fields hnames hfields =>
    have hmap : ∀ list : List (String × JsValue), JsMap.get
        (list.map fun f => (f.1, f.2.roundTrip)) name = (JsMap.get list name).map roundTrip := by
      intro list
      induction list with
      | nil => rfl
      | cons f list ih =>
        rw [List.map_cons, JsMap.get_cons, JsMap.get_cons, ih]
        by_cases hf : f.1 = name <;> simp [hf]
    have hfilter : (JsMap.get (fields.filter fun f => !f.2.isUndefined) name).getD undefined =
        (JsMap.get fields name).getD undefined := by
      rcases hnames with hnodup | hdefined
      · rw [JsMap.get_filter hnodup]
        cases hget : JsMap.get fields name with
        | none => rfl
        | some w => cases w <;> rfl
      · rw [List.filter_eq_self.2]
        intro f hf
        have hne := hdefined f hf
        cases hvalue : f.2 <;> simp_all [isUndefined]
    simp only [JsValue.field, roundTrip, JsValue.fields, roundTripFields_eq, hmap]
    rw [← hfilter]
    cases JsMap.get (fields.filter fun f => !f.2.isUndefined) name with
    | none => rfl
    | some w => rfl
  | _ => rfl

/-! ## Fields that are all defined -/

/-- No field holds `undefined`: so it is for what `JSON.parse` returns. -/
def Defined : Prop := ∀ f ∈ fields, f.2 ≠ undefined

/-- What `JSON.parse` returns: nothing in it is `undefined`. -/
inductive Parsed : JsValue → Prop where
  | null : Parsed null
  | bool (b : Bool) : Parsed (bool b)
  | number (n : ℚ) : Parsed (number n)
  | notFinite : Parsed notFinite
  | string (s : JsString) : Parsed (string s)
  | array (items : List JsValue) (hitems : ∀ v ∈ items, Parsed v) : Parsed (array items)
  | object (fields : List (String × JsValue)) (hfields : ∀ f ∈ fields, Parsed f.2) :
    Parsed (object fields)

lemma Parsed.defined (h : Parsed v) : Defined v.fields := by
  cases h with
  | object fields hfields =>
    intro f hf hundefined
    have hparsed := hfields f hf
    rw [hundefined] at hparsed
    cases hparsed
  | _ => exact nofun

lemma Parsed.field (h : Parsed v) {name : String}
    (hdefined : v.field name ≠ JsValue.undefined) : Parsed (v.field name) := by
  cases h with
  | object fields hfields =>
    unfold JsValue.field at hdefined ⊢
    cases hget : JsMap.get (JsValue.object fields).fields name with
    | none => exact absurd (by rw [hget]; rfl) hdefined
    | some w => exact hfields _ (JsMap.mem_of_get hget)
  | _ => exact absurd rfl hdefined

mutual

theorem parsed_roundTrip : (v : JsValue) → v ≠ undefined → Parsed v.roundTrip
  | undefined, h => absurd rfl h
  | null, _ => .null
  | bool b, _ => .bool b
  | number n, _ => .number n
  | notFinite, _ => .null
  | string s, _ => .string s
  | array items, _ => .array _ (parsed_roundTripItems items)
  | object fields, _ => .object _ (parsed_roundTripFields fields)

theorem parsed_roundTripItems : (items : List JsValue) → ∀ v ∈ roundTripItems items, Parsed v
  | [], _, h => absurd h List.not_mem_nil
  | v :: items, w, h => by
    cases v with
    | undefined =>
      rcases List.mem_cons.1 h with rfl | h
      · exact .null
      · exact parsed_roundTripItems items w h
    | array list =>
      rcases List.mem_cons.1 h with rfl | h
      · exact .array _ (parsed_roundTripItems list)
      · exact parsed_roundTripItems items w h
    | object fields =>
      rcases List.mem_cons.1 h with rfl | h
      · exact .object _ (parsed_roundTripFields fields)
      · exact parsed_roundTripItems items w h
    | _ =>
      rcases List.mem_cons.1 h with rfl | h
      · constructor
      · exact parsed_roundTripItems items w h

theorem parsed_roundTripFields :
    (fields : List (String × JsValue)) → ∀ f ∈ roundTripFields fields, Parsed f.2
  | [], _, h => absurd h List.not_mem_nil
  | (name, v) :: fields, f, h => by
    cases v with
    | undefined => exact parsed_roundTripFields fields f h
    | array list =>
      rcases List.mem_cons.1 h with rfl | h
      · exact .array _ (parsed_roundTripItems list)
      · exact parsed_roundTripFields fields f h
    | object inner =>
      rcases List.mem_cons.1 h with rfl | h
      · exact .object _ (parsed_roundTripFields inner)
      · exact parsed_roundTripFields fields f h
    | _ =>
      rcases List.mem_cons.1 h with rfl | h
      · constructor
      · exact parsed_roundTripFields fields f h

end

/-- What comes back as it was: not an array, an object or a number that is not finite. -/
def isScalar : JsValue → Bool
  | array _ => false
  | object _ => false
  | notFinite => false
  | _ => true

lemma roundTrip_of_isScalar (h : v.isScalar = true) : v.roundTrip = v := by
  cases v <;> first | rfl | cases h

lemma Defined.roundTripFields {fields : List (String × JsValue)} (h : Defined fields) :
    JsValue.roundTripFields fields = fields.map fun f => (f.1, f.2.roundTrip) := by
  rw [roundTripFields_eq, List.filter_eq_self.2]
  intro f hf
  have hne := h f hf
  cases hvalue : f.2 <;> simp_all [isUndefined]

lemma defined_roundTripFields : Defined (JsValue.roundTripFields fields) := by
  rw [roundTripFields_eq]
  rintro f hf hundefined
  obtain ⟨f', hf', rfl⟩ := List.mem_map.1 hf
  have hdefined := (List.mem_filter.1 hf').2
  have hundefined' : f'.2.roundTrip = undefined := hundefined
  rw [← isUndefined_roundTrip, hundefined'] at hdefined
  cases hdefined

lemma field_roundTrip_of_defined (h : Defined v.fields) (name : String) :
    v.roundTrip.field name = (v.field name).roundTrip := by
  cases v with
  | object fields =>
    have hget : JsMap.get (fields.map fun f => (f.1, f.2.roundTrip)) name =
        (JsMap.get fields name).map JsValue.roundTrip := by
      clear h
      induction fields with
      | nil => rfl
      | cons f fields ih =>
        rw [List.map_cons, JsMap.get_cons, JsMap.get_cons, ih]
        by_cases hf : f.1 = name <;> simp [hf]
    have hfields : (JsValue.object fields).roundTrip.fields = fields.map fun f => (f.1, f.2.roundTrip) := by
      simp only [JsValue.roundTrip, JsValue.fields]
      exact Defined.roundTripFields h
    rw [field, hfields, hget]
    simp only [field, JsValue.fields]
    cases JsMap.get fields name with
    | none => rfl
    | some w => rfl
  | _ => rfl

/-! ## Checks that cannot tell -/

namespace Stable

variable {check other : JsValue → Bool}

lemma isUndefined : Stable JsValue.isUndefined := fun v _ => isUndefined_roundTrip v

lemma isStringWith (test : JsString → Bool) : Stable (JsValue.isStringWith test) := by
  intro v _
  cases v <;> rfl

lemma isString : Stable JsValue.isString := isStringWith _

lemma isNonEmptyString : Stable JsValue.isNonEmptyString := isStringWith _

lemma isText (text : JsString) : Stable (JsValue.isText text) := isStringWith _

lemma isTrue : Stable JsValue.isTrue := by
  intro v _
  cases v <;> rfl

lemma isNull : Stable JsValue.isNull := by
  intro v hv
  cases hv <;> rfl

lemma isNumber : Stable JsValue.isNumber := by
  intro v hv
  cases hv <;> rfl

lemma isObject : Stable JsValue.isObject := by
  intro v hv
  cases hv <;> rfl

lemma isOneOf (texts : List JsString) : Stable (JsValue.isOneOf texts) := isStringWith _

lemma and (h : Stable check) (h' : Stable other) : Stable fun v => check v && other v := by
  intro v hv
  dsimp only
  rw [h v hv, h' v hv]

lemma or (h : Stable check) (h' : Stable other) : Stable fun v => check v || other v := by
  intro v hv
  dsimp only
  rw [h v hv, h' v hv]

lemma not (h : Stable check) : Stable fun v => !check v := by
  intro v hv
  dsimp only
  rw [h v hv]

lemma beq (h : Stable check) (h' : Stable other) : Stable fun v => check v == other v := by
  intro v hv
  dsimp only
  rw [h v hv, h' v hv]

lemma field (h : Stable check) (name : String) : Stable fun v => check (v.field name) := by
  intro v hv
  dsimp only
  rw [field_roundTrip hv, h _ (hv.field name)]

lemma lacks (names : List String) : Stable (JsValue.lacks names) := by
  intro v hv
  unfold JsValue.lacks
  induction names with
  | nil => rfl
  | cons name names ih =>
    rw [List.all_cons, List.all_cons, ih, field_roundTrip hv, isUndefined_roundTrip]

end Stable

/-! ## Checks that are still passed -/

namespace Survives

variable {check other test : JsValue → Bool}

lemma and (h : Survives check) (h' : Survives other) : Survives fun v => check v && other v := by
  intro v hv hpass
  obtain ⟨hc, ho⟩ := Bool.and_eq_true_iff.1 hpass
  exact Bool.and_eq_true_iff.2 ⟨h v hv hc, h' v hv ho⟩

lemma or (h : Survives check) (h' : Survives other) : Survives fun v => check v || other v := by
  intro v hv hpass
  rcases Bool.or_eq_true_iff.1 hpass with hc | ho
  · exact Bool.or_eq_true_iff.2 (.inl (h v hv hc))
  · exact Bool.or_eq_true_iff.2 (.inr (h' v hv ho))

lemma ite (ht : Stable test) (h : Survives check) (h' : Survives other) :
    Survives fun v => if test v then check v else other v := by
  intro v hv hpass
  dsimp only at hpass ⊢
  rw [ht v hv]
  split_ifs at hpass ⊢ with htest
  · exact h v hv hpass
  · exact h' v hv hpass

lemma field (h : Survives check) (name : String) : Survives fun v => check (v.field name) := by
  intro v hv hpass
  dsimp only
  rw [field_roundTrip hv]
  exact h _ (hv.field name) hpass

lemma optional (h : Survives check) : Survives (isOptional check) := or Stable.isUndefined.survives h

lemma all_items (h : Survives check) {items : List JsValue} (hdefined : ∀ v ∈ items, v ≠ undefined)
    (hitems : ∀ v ∈ items, Plain v) (hpass : items.all check = true) :
    (roundTripItems items).all check = true := by
  rw [roundTripItems_eq hdefined, List.all_map]
  exact List.all_eq_true.2 fun v hv => h v (hitems v hv) (List.all_eq_true.1 hpass v hv)

lemma arrayOf (h : Survives check) : Survives (isArrayOf check) := by
  intro v hv hpass
  cases hv with
  | array items hdefined hitems => exact h.all_items hdefined hitems hpass
  | _ => exact hpass

lemma listOf (h : Survives check) : Survives (isListOf check) := by
  intro v hv hpass
  cases hv with
  | array items hdefined hitems =>
    obtain ⟨hempty, hall⟩ := Bool.and_eq_true_iff.1 hpass
    refine Bool.and_eq_true_iff.2 ⟨?_, h.all_items hdefined hitems hall⟩
    rw [roundTripItems_eq hdefined]
    cases items with
    | nil => cases hempty
    | cons _ _ => rfl
  | _ => exact hpass

lemma values (h : Survives check) : Survives (everyValue check) := by
  intro v hv hpass
  cases hv with
  | object fields hnames hfields =>
    simp only [roundTrip, everyValue, roundTripFields_eq, List.all_map]
    refine List.all_eq_true.2 fun f hf => ?_
    have hmem := (List.mem_filter.1 hf).1
    exact h f.2 (hfields f hmem) (List.all_eq_true.1 hpass f hmem)
  | array items hdefined hitems => exact h.all_items hdefined hitems hpass
  | _ => exact hpass

end Survives

end JsValue

end Isomux
