import Isomux.Runtime.Text
import Mathlib.Data.List.Forall2

set_option autoImplicit false

/-!
# Placeholders in a request head (`src/server/secret-proxy/proxy.ts`)

The secret proxy replaces the placeholder of a secret by its value in the request headers that it
forwards. The module models the part of the proxy's state that this reads, and the swap.

## Main results

* `Isomux.deriveState_byPlaceholder` — a lookup finds a held secret.
* `Isomux.mem_namedHeaders_deriveState` — every header that a form names is looked at.
-/

namespace Isomux

/-! ## Secrets -/

inductive SecretForm where
  | authorization
  /-- The whole value of one named header, stored lower-case. -/
  | header (header : JsString)
  deriving DecidableEq

structure ProxySecret where
  scope : JsString
  ownerId : Option JsString
  name : JsString
  value : JsString
  hosts : List JsString
  form : SecretForm
  placeholder : JsString
  deriving DecidableEq

abbrev HeaderList := List (JsString × JsString)

/-- What the swap reads of the state derived from a snapshot. -/
structure ProxyState where
  byPlaceholder : JsString → Option ProxySecret
  namedHeaders : List JsString

/-- `"authorization"`. -/
def authorizationHeader : JsString := js "authorization"

/-- The header name that a form adds to `namedHeaders`. -/
def SecretForm.namedHeader : SecretForm → JsString
  | .authorization => authorizationHeader
  | .header h => h

variable (state : ProxyState)

/-- The body of the loop of `deriveState`; a later secret takes over a placeholder. -/
def addSecret (secret : ProxySecret) : ProxyState :=
  ⟨Function.update state.byPlaceholder secret.placeholder (some secret),
    state.namedHeaders ++ [secret.form.namedHeader]⟩

/-- `deriveState`, restricted to what the swap reads. -/
def deriveState (secrets : List ProxySecret) : ProxyState :=
  secrets.foldl addSecret ⟨fun _ => none, []⟩

/-- Whether `secret`'s form names the lower-case header name `header`. -/
def formNames (secret : ProxySecret) (header : JsString) : Prop :=
  match secret.form with
  | .authorization => header = authorizationHeader
  | .header h => h = header

instance (secret : ProxySecret) (header : JsString) : Decidable (formNames secret header) := by
  unfold formNames
  cases secret.form <;> infer_instance

/-! ## Credentials -/

/-- The test of `BASE64`: whole groups of letters, the last one possibly padded. -/
def isBase64 : JsString → Bool
  | [] => true
  | [a, b, c, d] =>
    isBase64Letter a && isBase64Letter b &&
      ((isBase64Letter c && (isBase64Letter d || d == base64Pad)) ||
        (c == base64Pad && d == base64Pad))
  | a :: b :: c :: d :: rest =>
    isBase64Letter a && isBase64Letter b && isBase64Letter c && isBase64Letter d && isBase64 rest
  | _ => false

/-- `decodeBasic(token)`: the user and the password of `Basic` credentials. -/
def decodeBasic (token : JsString) : Option (JsString × JsString) :=
  if isBase64 token then
    let decoded := (Buffer.ofBase64 token).toLatin1
    let user := decoded.takeWhile (· ≠ 58)
    if user.length = decoded.length then none else some (user, decoded.drop (user.length + 1))
  else none

/-- The match of `/^([^ ]+) +(.+)$/`: the scheme and the rest behind the spaces. When only spaces
follow, the last of them is the second group. -/
def matchCredentials (value : JsString) : Option (JsString × JsString) :=
  let scheme := value.takeWhile (· ≠ 32)
  let gap := value.dropWhile (· ≠ 32)
  let token := gap.dropWhile (· = 32)
  if scheme = [] ∨ gap = [] then none
  else if token = [] then (if 2 ≤ gap.length then some (scheme, [32]) else none)
  else if token.any isLineTerminator then none
  else some (scheme, token)

/-- The test of `TOKEN`. -/
def isToken (s : JsString) : Bool :=
  s != [] && s.all fun c =>
    (65 ≤ c && c ≤ 90) || (97 ≤ c && c ≤ 122) || (48 ≤ c && c ≤ 57) ||
      (js "!#$%&'*+.^_`|~-").contains c

lemma isToken_units {name : JsString} (h : isToken name = true) :
    ∀ c ∈ name, c < 128 ∧ c ≠ 10 ∧ c ≠ 13 ∧ c ≠ 58 := by
  intro c hc
  have htest := List.all_eq_true.1 (Bool.and_eq_true_iff.1 h).2 c hc
  refine ⟨?_, ?_, ?_, ?_⟩
  · rcases Bool.or_eq_true_iff.1 htest with hplain | hmark
    · simp only [Bool.or_eq_true, Bool.and_eq_true, decide_eq_true_eq] at hplain
      rw [UInt16.lt_iff_toNat_lt]
      simp only [UInt16.le_iff_toNat_le, UInt16.reduceToNat] at hplain ⊢
      omega
    · have hmarks : (js "!#$%&'*+.^_\x60|~-").all (· < 128) = true := by decide
      exact of_decide_eq_true (List.all_eq_true.1 hmarks c (List.contains_iff_mem.1 hmark))
  · rintro rfl
    exact absurd htest (by decide)
  · rintro rfl
    exact absurd htest (by decide)
  · rintro rfl
    exact absurd htest (by decide)

/-! ## The swap -/

/-- What `resolve` answers for a candidate. -/
inductive Resolved where
  | leave
  /-- The candidate is a placeholder of a secret that does not list the host. -/
  | forbidden (secret : ProxySecret)
  /-- The value of `secret`, which is pushed onto `used`. -/
  | replace (secret : ProxySecret)
  deriving DecidableEq

def injects (method : JsString) : Prop := method ≠ js "TRACE" ∧ method ≠ js "OPTIONS"

instance (method : JsString) : Decidable (injects method) := by unfold injects; infer_instance

/-- `resolve(header, candidate)`. -/
def resolve (host method header candidate : JsString) : Resolved :=
  match state.byPlaceholder candidate with
  | none => .leave
  | some secret =>
    if ¬ formNames secret header then .leave
    else if host ∉ secret.hosts then .forbidden secret
    else if ¬ injects method then .leave
    else .replace secret

/-- The text that stands for a candidate after `resolve`. -/
def Resolved.text (candidate : JsString) : Resolved → JsString
  | .replace secret => secret.value
  | _ => candidate

/-- The secrets that `resolve` pushes onto `used`. -/
def Resolved.pushed : Resolved → List ProxySecret
  | .replace secret => [secret]
  | _ => []

/-- `"Basic"` credentials with a new user and password. -/
def encodeBasic (scheme user pass : JsString) : JsString :=
  scheme ++ js " " ++ Buffer.toBase64 (JsString.toBuffer (user ++ js ":" ++ pass))

/-- The credentials branch of the loop: an `Authorization` value that is itself no placeholder. -/
def swapCredentials (host method lower value : JsString) :
    Except ProxySecret (JsString × List ProxySecret) :=
  match matchCredentials value with
  | none => .ok (value, [])
  | some (scheme, token) =>
    if ¬ isToken scheme then .ok (value, [])
    else if scheme.toLowerCase = js "basic" then
      match decodeBasic token with
      | none => .ok (value, [])
      | some (u, p) =>
        match resolve state host method lower u, resolve state host method lower p with
        | .forbidden secret, _ => .error secret
        | _, .forbidden secret => .error secret
        | .leave, .leave => .ok (value, [])
        | user, pass => .ok (encodeBasic scheme (user.text u) (pass.text p),
            user.pushed ++ pass.pushed)
    else
      match resolve state host method lower token with
      | .forbidden secret => .error secret
      | .replace secret => .ok (scheme ++ js " " ++ secret.value, [secret])
      | .leave => .ok (value, [])

/-- The body of the loop of `swapPlaceholders` for one field: its new value and what it pushes
onto `used`, or the forbidden secret. -/
def swapValue (host method name value : JsString) :
    Except ProxySecret (JsString × List ProxySecret) :=
  let lower := name.toLowerCase
  if lower ∉ state.namedHeaders then .ok (value, [])
  else
    match resolve state host method lower value with
    | .forbidden secret => .error secret
    | .replace secret => .ok (secret.value, [secret])
    | .leave =>
      if lower = authorizationHeader then swapCredentials state host method lower value
      else .ok (value, [])

inductive SwapResult where
  /-- The fields to send, and the secrets swapped in. -/
  | forward (headers : HeaderList) (used : List ProxySecret)
  /-- The request is refused because of this secret. -/
  | forbidden (secret : ProxySecret)
  deriving DecidableEq

/-- The loop of `swapPlaceholders`. -/
def swapLoop (state : ProxyState) (host method : JsString) :
    HeaderList → HeaderList → List ProxySecret → SwapResult
  | [], out, used => .forward out used
  | (name, value) :: headers, out, used =>
    match swapValue state host method name value with
    | .error secret => .forbidden secret
    | .ok (next, pushed) =>
      swapLoop state host method headers (out ++ [(name, next)]) (used ++ pushed)

/-- Swaps placeholders in the headers that their secrets' forms name. -/
def swapPlaceholders (host method : JsString) (headers : HeaderList) : SwapResult :=
  swapLoop state host method headers [] []

/-! ## What the state holds -/

/-- A lookup after the loop finds a secret of the list with that placeholder, or what the map had
before. -/
theorem byPlaceholder_foldl_addSecret (secrets : List ProxySecret) (state : ProxyState)
    (ph : JsString) :
    (∃ s ∈ secrets, s.placeholder = ph ∧
        (secrets.foldl addSecret state).byPlaceholder ph = some s) ∨
      (∀ s ∈ secrets, s.placeholder ≠ ph) ∧
        (secrets.foldl addSecret state).byPlaceholder ph = state.byPlaceholder ph := by
  induction secrets generalizing state with
  | nil => exact .inr ⟨by simp, rfl⟩
  | cons t secrets ih =>
    rw [List.foldl_cons]
    rcases ih (addSecret state t) with ⟨s, hs, hph, heq⟩ | ⟨hno, heq⟩
    · exact .inl ⟨s, List.mem_cons_of_mem _ hs, hph, heq⟩
    · rw [heq]
      by_cases ht : t.placeholder = ph
      · exact .inl ⟨t, List.mem_cons_self, ht, by simp [addSecret, ht]⟩
      · refine .inr ⟨by simpa [ht] using hno, ?_⟩
        exact Function.update_of_ne (Ne.symm ht) _ _

variable {secrets : List ProxySecret} {s : ProxySecret}

/-- **A lookup finds a held secret** with the placeholder that was looked up. -/
theorem deriveState_byPlaceholder {ph : JsString}
    (h : (deriveState secrets).byPlaceholder ph = some s) : s ∈ secrets ∧ s.placeholder = ph := by
  rcases byPlaceholder_foldl_addSecret secrets ⟨fun _ => none, []⟩ ph with
    ⟨t, ht, hph, heq⟩ | ⟨-, heq⟩
  · obtain rfl : t = s := Option.some.inj (heq.symm.trans h)
    exact ⟨ht, hph⟩
  · exact absurd (heq.symm.trans h) (by simp)

theorem byPlaceholder_deriveState_of_unique
    (hs : s ∈ secrets) (huniq : ∀ t ∈ secrets, t.placeholder = s.placeholder → t = s) :
    (deriveState secrets).byPlaceholder s.placeholder = some s := by
  rcases byPlaceholder_foldl_addSecret secrets ⟨fun _ => none, []⟩ s.placeholder with
    ⟨t, ht, hph, heq⟩ | ⟨hno, -⟩
  · rw [deriveState, heq, huniq t ht hph]
  · exact absurd rfl (hno s hs)

/-- **Every header that a form names is looked at.** -/
theorem mem_namedHeaders_deriveState {h : JsString} :
    h ∈ (deriveState secrets).namedHeaders ↔ ∃ s ∈ secrets, s.form.namedHeader = h := by
  have hfold : ∀ (ss : List ProxySecret) (state : ProxyState),
      (ss.foldl addSecret state).namedHeaders =
        state.namedHeaders ++ ss.map fun s => s.form.namedHeader := by
    intro ss
    induction ss with
    | nil => simp
    | cons t ss ih => intro state; simp [ih, addSecret]
  simp [deriveState, hfold]

theorem formNames_iff {h : JsString} :
    formNames s h ↔ s.form.namedHeader = h := by
  unfold formNames SecretForm.namedHeader
  cases s.form with
  | authorization => exact eq_comm
  | header => rfl

end Isomux
