import Isomux.Runtime.Text

set_option autoImplicit false

/-!
# Hosts of apps

An app answers at a name one label below that of the office. The host of a request is brought into a
form that can be compared, and then it is the office's, or that of a label, or further below.

## Main results

* `Isomux.AppHosts.matchAppHost_label` — a host that has a label is the label below the domain.
-/

namespace Isomux.AppHosts

/-! ## Names -/

/-- `text.split(separator)` at one code unit. -/
def splitUnit (separator : CodeUnit) : JsString → List JsString
  | [] => [[]]
  | c :: rest =>
    if c = separator then [] :: splitUnit separator rest
    else
      match splitUnit separator rest with
      | [] => [[c]]
      | part :: parts => (c :: part) :: parts

def isLowerAlnum (c : CodeUnit) : Bool := (97 ≤ c && c ≤ 122) || (48 ≤ c && c ≤ 57)

def MAX_HOST_LABEL_LENGTH : ℕ := 63

def MAX_HOSTNAME_LENGTH : ℕ := 253

/-- A label: letters, digits and inner hyphens. -/
def isHostLabel (label : JsString) : Bool :=
  0 < label.length && label.length ≤ MAX_HOST_LABEL_LENGTH &&
    label.all (fun c => isLowerAlnum c || c = 45) && label.head?.any isLowerAlnum &&
    label.getLast?.any isLowerAlnum

def isHostname (host : JsString) (minLabels : ℕ) : Bool :=
  0 < host.length && host.length ≤ MAX_HOSTNAME_LENGTH &&
    minLabels ≤ (splitUnit 46 host).length && (splitUnit 46 host).all isHostLabel

/-! ## The host of a request -/

def isPrintableAscii (value : JsString) : Bool := value.all fun c => 0x20 ≤ c && c ≤ 0x7E

/-- The text before the first unit and the text behind it, if it is there. -/
def cutAt (c : CodeUnit) (text : JsString) : JsString × Option JsString :=
  match text.dropWhile (· ≠ c) with
  | [] => (text, none)
  | _ :: rest => (text.takeWhile (· ≠ c), some rest)

def isPort (port : JsString) : Bool := port ≠ [] && port.all fun c => 48 ≤ c && c ≤ 57

/-- The `Host` of a request, reduced to something comparable; `null` when it is no name. -/
def normalizeRequestHost (raw : Option JsString) : Option JsString :=
  match raw with
  | none => none
  | some raw =>
    if raw = [] || !isPrintableAscii raw then none
    else
      let lower := raw.toLowerCase
      if lower.head? = some 91 then none
      else
        let (name, port) := cutAt 58 lower
        if port.any (!isPort ·) then none
        else
          let host := if name.getLast? = some 46 then name.dropLast else name
          if isHostname host 1 then some host else none

def endsWith (name suffix : JsString) : Bool := suffix.isSuffixOf name

/-- A host that is no name: the part before the port is still below the domain. -/
def isBelowAppDomain (raw : Option JsString) (domain : JsString) : Bool :=
  match raw with
  | none => false
  | some raw =>
    let lower := raw.toLowerCase
    if lower.head? = some 91 then false
    else
      let name := ((cutAt 58 lower).1.reverse.dropWhile (· = 46)).reverse
      endsWith name (46 :: domain)

inductive AppHostMatch where
  | label (label : JsString)
  | under
  deriving DecidableEq

/-- Where a host is below the domain, if it is. -/
def matchAppHost (host domain : JsString) : Option AppHostMatch :=
  if endsWith host (46 :: domain) then
    let label := host.take (host.length - domain.length - 1)
    if label = [] || label.contains 46 then some .under else some (.label label)
  else none

/-- **A host that has a label is the label below the domain.** -/
theorem matchAppHost_label {host domain label : JsString}
    (h : matchAppHost host domain = some (.label label)) :
    host = label ++ 46 :: domain ∧ label ≠ [] ∧ 46 ∉ label := by
  unfold matchAppHost at h
  split_ifs at h with hends
  dsimp only at h
  obtain ⟨front, rfl⟩ := List.isSuffixOf_iff_suffix.1 hends
  have hlength : (front ++ 46 :: domain).length - domain.length - 1 = front.length := by
    simp only [List.length_append, List.length_cons]
    omega
  rw [hlength, List.take_left' rfl] at h
  split_ifs at h with hunder
  · cases h
  · obtain rfl : front = label := AppHostMatch.label.inj (Option.some.inj h)
    simp only [Bool.or_eq_true, decide_eq_true_eq, List.contains_iff_mem, not_or] at hunder
    exact ⟨rfl, hunder⟩

/-- A host has one label. -/
example : (normalizeRequestHost (some (js "Hello.Office.Example:443"))).bind
    (matchAppHost · (js "office.example")) = some (.label (js "hello")) := by
  decide +kernel

end Isomux.AppHosts
