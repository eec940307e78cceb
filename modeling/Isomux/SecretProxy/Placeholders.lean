import Isomux.Runtime.Json
import Isomux.Runtime.Values
import Isomux.SecretProxy.Scrub
import Isomux.SecretProxy.Swap
import Mathlib.Data.List.GetD

set_option autoImplicit false

/-!
# Values and placeholders (`src/shared/secret-hosts.ts`, `src/server/secret-proxy/placeholders.ts`)

The vault checks a value before it stores it. What an agent gets in its place keeps the well-known
prefix of the value, and goes on with letters and digits that a keyed hash gives.

## Main results

* `Isomux.checkSecretValue_iff` — which values are accepted.
* `Isomux.placeholderFor_shape` — what a placeholder looks like.
-/

namespace Isomux

/-! ## Values -/

def SECRET_MAX_VALUE_LENGTH : ℕ := 16 * 1024

/-- What is wrong with the field `value`. -/
inductive ValueError where
  | invalid
  | too_short
  | too_long
  deriving DecidableEq

/-- `checkSecretValue(value)`; `none` is `null`. Its errors name the field `value`. -/
def checkSecretValue : JsValue → Option ValueError
  | .string value =>
    if value.length = 0 then some .invalid
    else if value.length < SECRET_MIN_VALUE_LENGTH then some .too_short
    else if SECRET_MAX_VALUE_LENGTH < value.length then some .too_long
    else if value.any fun code => code < 0x20 || 0x7e < code then some .invalid
    else if value.head? = some 32 ∨ value.getLast? = some 32 then some .invalid
    else none
  | _ => some .invalid

/-- **The accepted values**: some letters of printable ASCII, without a space at either end. -/
theorem checkSecretValue_iff (value : JsString) :
    checkSecretValue (.string value) = none ↔
      SECRET_MIN_VALUE_LENGTH ≤ value.length ∧ value.length ≤ SECRET_MAX_VALUE_LENGTH ∧
        (∀ c ∈ value, 0x20 ≤ c ∧ c ≤ 0x7e) ∧ value.head? ≠ some 32 ∧ value.getLast? ≠ some 32 := by
  have hpositive : 0 < SECRET_MIN_VALUE_LENGTH := by decide
  rw [checkSecretValue]
  split_ifs with hempty hshort hlong hcode hspace
  · exact ⟨nofun, fun h => by omega⟩
  · exact ⟨nofun, fun h => by omega⟩
  · exact ⟨nofun, fun h => by omega⟩
  · refine ⟨nofun, fun ⟨_, _, hprintable, _⟩ => ?_⟩
    obtain ⟨c, hc, hbad⟩ := List.any_eq_true.mp hcode
    obtain ⟨hlow, hhigh⟩ := hprintable c hc
    rw [Bool.or_eq_true, decide_eq_true_eq, decide_eq_true_eq] at hbad
    rcases hbad with hbad | hbad
    · exact absurd hlow (UInt16.not_le.mpr hbad)
    · exact absurd hhigh (UInt16.not_le.mpr hbad)
  · refine ⟨nofun, fun ⟨_, _, _, hfirst, hlast⟩ => ?_⟩
    exact absurd hspace (not_or.mpr ⟨hfirst, hlast⟩)
  · refine ⟨fun _ => ⟨by omega, by omega, fun c hc => ?_, ?_, ?_⟩, fun _ => rfl⟩
    · constructor
      · by_contra hlow
        exact hcode (List.any_eq_true.mpr ⟨c, hc, by simp [UInt16.not_le.mp hlow]⟩)
      · by_contra hhigh
        exact hcode (List.any_eq_true.mpr ⟨c, hc, by simp [UInt16.not_le.mp hhigh]⟩)
    · exact (not_or.mp hspace).1
    · exact (not_or.mp hspace).2

/-! ## Placeholders -/

def BASE62 : JsString := js "0123456789ABCDEFGHIJKLMNOPQRSTUVWXYZabcdefghijklmnopqrstuvwxyz"

/-- `KNOWN_PREFIXES`: a prefix, and how many letters follow it. -/
def KNOWN_PREFIXES : List (JsString × ℕ) :=
  [(js "github_pat_", 82), (js "FlyV1 fm2_", 64), (js "sk_live_", 99), (js "sk_test_", 99),
    (js "rk_live_", 99), (js "rk_test_", 99), (js "ghp_", 36), (js "gho_", 36), (js "ghu_", 36),
    (js "ghs_", 36), (js "ghr_", 36)]

def PLAIN_BODY : ℕ := 40

/-- `shapeOf(value)`. -/
def shapeOf (value : JsString) : JsString × ℕ :=
  (KNOWN_PREFIXES.find? fun known => known.1.isPrefixOf value).getD ([], PLAIN_BODY)

/-- The inner loop of `base62`, over the bytes of a block. -/
def base62Block (body : ℕ) : Buffer → JsString → JsString
  | [], out => out
  | byte :: block, out =>
    if 248 ≤ byte then base62Block body block out
    else
      let out := out ++ [BASE62.getD (byte.toNat % 62) 0]
      if out.length = body then out else base62Block body block out

/-- The outer loop of `base62`. The digest of a counter is a block; `none` when these rounds do not
give enough letters. -/
def base62Loop (digest : ℕ → Buffer) (body : ℕ) : ℕ → ℕ → JsString → Option JsString
  | 0, _, out => if out.length < body then none else some out
  | rounds + 1, counter, out =>
    if out.length < body then
      base62Loop digest body rounds (counter + 1) (base62Block body (digest counter) out)
    else some out

/-- `base62(key, input, body)`: letters from the digests of the input with a counter behind it. The
digest under the key is a parameter. -/
def base62 (hmac : JsString → Buffer) (input : JsString) (body rounds : ℕ) : Option JsString :=
  base62Loop (fun counter => hmac (input ++ [0] ++ decimalDigits counter)) body rounds 0 []

/-- `placeholderFor(key, scope, name, generation, value)`; the scope is given by its id. -/
def placeholderFor (hmac : JsString → Buffer) (scopeId name : JsString) (generation : ℕ)
    (value : JsString) (rounds : ℕ) : Option JsString :=
  (base62 hmac (scopeId ++ [0] ++ name ++ [0] ++ decimalDigits generation) (shapeOf value).2
    rounds).map ((shapeOf value).1 ++ ·)

lemma mem_base62Block {body : ℕ} {block : Buffer} {out : JsString} (h : ∀ c ∈ out, c ∈ BASE62) :
    ∀ c ∈ base62Block body block out, c ∈ BASE62 := by
  induction block generalizing out with
  | nil => exact h
  | cons byte block ih =>
    have hnext : ∀ c ∈ out ++ [BASE62.getD (byte.toNat % 62) 0], c ∈ BASE62 := by
      intro c hc
      rcases List.mem_append.mp hc with hc | hc
      · exact h c hc
      · have hlt : byte.toNat % 62 < BASE62.length := by
          rw [show BASE62.length = 62 from by decide]
          omega
        rw [List.mem_singleton.mp hc, List.getD_eq_getElem _ _ hlt]
        exact List.getElem_mem hlt
    rw [base62Block]
    dsimp only
    split_ifs
    · exact ih h
    · exact hnext
    · exact ih hnext

lemma mem_base62Loop {digest : ℕ → Buffer} {body rounds counter : ℕ} {out text : JsString}
    (h : ∀ c ∈ out, c ∈ BASE62) (htext : base62Loop digest body rounds counter out = some text) :
    ∀ c ∈ text, c ∈ BASE62 := by
  induction rounds generalizing counter out with
  | zero =>
    rw [base62Loop] at htext
    split_ifs at htext
    cases htext
    exact h
  | succ rounds ih =>
    rw [base62Loop] at htext
    split_ifs at htext
    · exact ih (mem_base62Block h) htext
    · cases htext
      exact h

/-- **A placeholder** is a known prefix, or none, with letters and digits behind it. -/
theorem placeholderFor_shape {hmac : JsString → Buffer} {scopeId name value ph : JsString}
    {generation rounds : ℕ}
    (h : placeholderFor hmac scopeId name generation value rounds = some ph) :
    ∃ start ∈ [] :: KNOWN_PREFIXES.map Prod.fst, ∃ body, ph = start ++ body ∧
      ∀ c ∈ body, c ∈ BASE62 := by
  obtain ⟨body, hbody, rfl⟩ := Option.map_eq_some_iff.mp h
  have hnil : ∀ c ∈ ([] : JsString), c ∈ BASE62 := fun c hc => absurd hc List.not_mem_nil
  refine ⟨_, ?_, body, rfl, mem_base62Loop hnil hbody⟩
  unfold shapeOf
  cases hfind : KNOWN_PREFIXES.find? fun known => known.1.isPrefixOf value with
  | none => exact List.mem_cons_self
  | some known =>
    exact List.mem_cons_of_mem _ (List.mem_map_of_mem (List.mem_of_find?_eq_some hfind))

/-- A secret as the proxy gets it: the vault accepted its value, and its placeholder was made for
it. -/
structure Stored (s : ProxySecret) : Prop where
  value : checkSecretValue (.string s.value) = none
  placeholder : ∃ hmac generation rounds,
    placeholderFor hmac s.scope s.name generation s.value rounds = some s.placeholder

end Isomux
