import Isomux.Runtime.Base64
import Isomux.SecretProxy.Placeholders
import Isomux.SecretProxy.SwapSafety
import Mathlib.Data.List.TakeWhile

set_option autoImplicit false

/-!
# Basic credentials after the swap

`Basic` credentials are a user and a password joined by a colon, and read apart at the first one.
The user that is read has no colon; a value that takes its place may have one, and then the pair
that is written is read apart inside the value.

## Main results

* `Isomux.decodeBasic_encode` — the pair is read back exactly when the user has no colon.
* `Isomux.swapValue_basic` — what the swap makes of `Basic` credentials.
* `Isomux.basic_roundTrip` — when the forwarded credentials are read back.
-/

namespace Isomux

/-! ## What a value says -/

/-- The scheme, the user and the password of an `Authorization` value in the `Basic` scheme. -/
def basicCredentials (value : JsString) : Option (JsString × JsString × JsString) :=
  (matchCredentials value).bind fun (scheme, token) =>
    if isToken scheme ∧ scheme.toLowerCase = js "basic" then
      (decodeBasic token).map fun (user, pass) => (scheme, user, pass)
    else none

lemma exists_of_basicCredentials {value scheme user pass : JsString}
    (h : basicCredentials value = some (scheme, user, pass)) : ∃ token,
      matchCredentials value = some (scheme, token) ∧
        (isToken scheme ∧ scheme.toLowerCase = js "basic") ∧ decodeBasic token = some (user, pass) := by
  obtain ⟨⟨scheme', token⟩, hmatch, hrest⟩ := Option.bind_eq_some_iff.mp h
  dsimp only at hrest
  split_ifs at hrest with hscheme
  obtain ⟨pair, hdecode, hpair⟩ := Option.map_eq_some_iff.mp hrest
  cases hpair
  exact ⟨token, hmatch, hscheme, hdecode⟩

/-- The secret that the candidate is the placeholder of, where the `Authorization` header of this
request may carry its value. -/
def allowedSecret (secrets : List ProxySecret) (host method candidate : JsString) :
    Option ProxySecret :=
  ((deriveState secrets).byPlaceholder candidate).filter fun s =>
    formNames s authorizationHeader ∧ host ∈ s.hosts ∧ injects method

/-- The candidate, or the value of the secret it is the placeholder of. -/
def withValue (secrets : List ProxySecret) (host method candidate : JsString) : JsString :=
  ((allowedSecret secrets host method candidate).map ProxySecret.value).getD candidate

/-! ## Reading the pair back -/

/-- What is written in base64 passes the test of base64. -/
theorem isBase64_toBase64 (bytes : Buffer) : isBase64 bytes.toBase64 = true := by
  induction bytes using Buffer.toBase64.induct with
  | case1 => rfl
  | case2 a =>
    have ha := a.toNat_lt
    simp [Buffer.toBase64, isBase64, isBase64Letter_base64Letter _ (show
      a.toNat * 16 / 64 < 64 by omega), isBase64Letter_base64Letter _ (show
      a.toNat * 16 % 64 < 64 by omega)]
  | case3 a b =>
    have ha := a.toNat_lt
    have hb := b.toNat_lt
    simp [Buffer.toBase64, isBase64, isBase64Letter_base64Letter _ (show
      (a.toNat * 256 + b.toNat) * 4 / 4096 < 64 by omega), isBase64Letter_base64Letter _ (show
      (a.toNat * 256 + b.toNat) * 4 / 64 % 64 < 64 by omega), isBase64Letter_base64Letter _ (show
      (a.toNat * 256 + b.toNat) * 4 % 64 < 64 by omega)]
  | case4 a b c rest ih =>
    have ha := a.toNat_lt
    have hb := b.toNat_lt
    have hc := c.toNat_lt
    have h₁ := isBase64Letter_base64Letter
      (((a.toNat * 256 + b.toNat) * 256 + c.toNat) / 262144) (by omega)
    have h₂ := isBase64Letter_base64Letter
      (((a.toNat * 256 + b.toNat) * 256 + c.toNat) / 4096 % 64) (by omega)
    have h₃ := isBase64Letter_base64Letter
      (((a.toNat * 256 + b.toNat) * 256 + c.toNat) / 64 % 64) (by omega)
    have h₄ := isBase64Letter_base64Letter
      (((a.toNat * 256 + b.toNat) * 256 + c.toNat) % 64) (by omega)
    rw [Buffer.toBase64]
    cases hrest : Buffer.toBase64 rest with
    | nil => simp [isBase64, h₁, h₂, h₃, h₄]
    | cons d ds =>
      rw [hrest] at ih
      simp [isBase64, h₁, h₂, h₃, h₄, ih]

theorem decodeBasic_toBase64 {text : JsString} (htext : text.IsLatin1) (hcolon : 58 ∈ text) :
    decodeBasic (Buffer.toBase64 text.toBuffer) =
      some (text.takeWhile (· ≠ 58), text.drop ((text.takeWhile (· ≠ 58)).length + 1)) := by
  rw [decodeBasic, if_pos (isBase64_toBase64 _), Buffer.ofBase64_toBase64,
    JsString.toLatin1_toBuffer htext]
  dsimp only
  rw [if_neg]
  intro hlength
  have hwhole := List.takeWhile_prefix (fun c : CodeUnit => decide (c ≠ 58)) (l := text)
    |>.eq_of_length hlength
  rw [← hwhole] at hcolon
  exact absurd (List.mem_takeWhile_imp hcolon) (by simp)

/-- **A pair is read back exactly when the user has no colon.** -/
theorem decodeBasic_encode {user pass : JsString} (huser : user.IsLatin1) (hpass : pass.IsLatin1) :
    decodeBasic (Buffer.toBase64 (JsString.toBuffer (user ++ js ":" ++ pass))) =
      some (user, pass) ↔ 58 ∉ user := by
  have hjs : js ":" = [58] := by decide
  have htext : JsString.IsLatin1 (user ++ js ":" ++ pass) :=
    (huser.append (by decide)).append hpass
  rw [decodeBasic_toBase64 htext (by simp [hjs]), hjs, List.append_assoc, List.singleton_append]
  constructor
  · intro h hmem
    have hfirst : (user ++ 58 :: pass).takeWhile (· ≠ 58) = user :=
      (Prod.mk.inj (Option.some.inj h)).1
    rw [← hfirst] at hmem
    exact absurd (List.mem_takeWhile_imp hmem) (by simp)
  · intro hmem
    have hfirst : (user ++ 58 :: pass).takeWhile (· ≠ 58) = user := by
      rw [List.takeWhile_append_of_pos fun c hc => by
        simpa using fun h : c = 58 => hmem (h ▸ hc)]
      simp
    rw [hfirst]
    simp

lemma isLatin1_of_decodeBasic {token user pass : JsString}
    (h : decodeBasic token = some (user, pass)) :
    user.IsLatin1 ∧ pass.IsLatin1 ∧ 58 ∉ user := by
  unfold decodeBasic at h
  split_ifs at h
  dsimp only at h
  split_ifs at h
  obtain ⟨rfl, rfl⟩ := Prod.mk.inj (Option.some.inj h)
  have hlatin := Buffer.isLatin1_toLatin1 (Buffer.ofBase64 token)
  refine ⟨hlatin.of_subset (List.takeWhile_prefix _).subset,
    hlatin.of_subset (List.drop_suffix _ _).subset, fun hmem => ?_⟩
  exact absurd (List.mem_takeWhile_imp hmem) (by simp)

lemma takeWhile_of_isToken {scheme : JsString} (h : isToken scheme = true) (rest : JsString) :
    (scheme ++ 32 :: rest).takeWhile (· ≠ 32) = scheme ∧
      (scheme ++ 32 :: rest).dropWhile (· ≠ 32) = 32 :: rest := by
  have hspace : ∀ c ∈ scheme, decide (c ≠ 32) = true := by
    intro c hc
    rw [decide_eq_true_eq]
    rintro rfl
    unfold isToken at h
    rw [Bool.and_eq_true, List.all_eq_true] at h
    exact absurd (h.2 32 hc) (by decide)
  rw [List.takeWhile_append_of_pos hspace, List.dropWhile_append_of_pos hspace]
  simp

/-- The text of encoded credentials is taken apart into the scheme and the credentials. -/
theorem basicCredentials_encodeBasic {scheme user pass : JsString} (hscheme : isToken scheme = true)
    (hbasic : scheme.toLowerCase = js "basic") (huser : user.IsLatin1) (hpass : pass.IsLatin1) :
    basicCredentials (encodeBasic scheme user pass) = some (scheme, user, pass) ↔ 58 ∉ user := by
  rw [← decodeBasic_encode huser hpass]
  have hne : scheme ≠ [] := by
    rintro rfl
    exact absurd hscheme (by decide)
  set token := Buffer.toBase64 (JsString.toBuffer (user ++ js ":" ++ pass)) with htoken
  have hletters : ∀ c ∈ token, c ≠ 32 ∧ isLineTerminator c = false := by
    intro c hc
    rcases Buffer.mem_toBase64 hc with hletter | rfl
    · constructor
      · rintro rfl
        exact absurd hletter (by decide)
      · by_contra hline
        simp only [isLineTerminator, Bool.not_eq_false, Bool.or_eq_true, beq_iff_eq] at hline
        rcases hline with ((rfl | rfl) | rfl) | rfl <;> exact absurd hletter (by decide)
    · exact ⟨by decide, by decide⟩
  have htokenNe : token ≠ [] := by
    intro hnil
    have hlength := congrArg List.length hnil
    rw [htoken, Buffer.length_toBase64, JsString.toBuffer, List.length_map] at hlength
    simp only [List.length_append, List.length_nil, show (js ":").length = 1 from by decide]
      at hlength
    omega
  have hspaces : token.dropWhile (fun c => decide (c = 32)) = token := by
    obtain ⟨c, cs, hcons⟩ := List.exists_cons_of_ne_nil htokenNe
    rw [hcons, List.dropWhile_cons_of_neg]
    simpa using (hletters c (hcons ▸ List.mem_cons_self)).1
  have hmatch : matchCredentials (encodeBasic scheme user pass) = some (scheme, token) := by
    obtain ⟨htake, hdrop⟩ := takeWhile_of_isToken hscheme token
    have hvalue : encodeBasic scheme user pass = scheme ++ 32 :: token := by
      rw [encodeBasic, ← htoken, show js " " = [32] from by decide, List.append_assoc,
        List.singleton_append]
    rw [matchCredentials, hvalue, htake, hdrop]
    rw [if_neg (by simp [hne]), List.dropWhile_cons_of_pos (by simp), hspaces, if_neg htokenNe,
      if_neg]
    simpa using fun c hc => (hletters c hc).2
  rw [basicCredentials, hmatch, Option.bind_some]
  dsimp only
  rw [if_pos ⟨hscheme, hbasic⟩]
  cases decodeBasic token with
  | none => simp
  | some pair => simp [Prod.ext_iff]

/-! ## The swap of a pair -/

section Swap

variable {secrets : List ProxySecret} {host method : JsString}

variable {c : JsString} {s : ProxySecret}

lemma resolve_of_allowed
    (h : allowedSecret secrets host method c = some s) :
    resolve (deriveState secrets) host method authorizationHeader c = .replace s := by
  obtain ⟨hget, hallowed⟩ := Option.filter_eq_some_iff.mp h
  obtain ⟨hnames, hlists, hinjects⟩ := of_decide_eq_true hallowed
  simp only [resolve, hget]
  rw [if_neg (not_not.mpr hnames), if_neg (not_not.mpr hlists), if_neg (not_not.mpr hinjects)]

lemma resolve_of_not_allowed (h : allowedSecret secrets host method c = none) :
    resolve (deriveState secrets) host method authorizationHeader c = .leave ∨
      ∃ s, resolve (deriveState secrets) host method authorizationHeader c = .forbidden s := by
  unfold resolve
  cases hget : (deriveState secrets).byPlaceholder c with
  | none => exact .inl rfl
  | some s =>
    dsimp only
    by_cases hnames : formNames s authorizationHeader
    · rw [if_neg (not_not.mpr hnames)]
      by_cases hlists : host ∈ s.hosts
      · rw [if_neg (not_not.mpr hlists)]
        by_cases hinjects : injects method
        · rw [allowedSecret, hget] at h
          exact absurd h (by simp [Option.filter, hnames, hlists, hinjects])
        · exact .inl (if_pos hinjects)
      · exact .inr ⟨s, if_pos hlists⟩
    · exact .inl (if_pos hnames)

lemma resolve_text
    (hok : ∀ s, resolve (deriveState secrets) host method authorizationHeader c ≠ .forbidden s) :
    (resolve (deriveState secrets) host method authorizationHeader c).text c =
      withValue secrets host method c := by
  cases hallowed : allowedSecret secrets host method c with
  | none =>
    rcases resolve_of_not_allowed hallowed with hleave | ⟨s, hforbidden⟩
    · rw [hleave, withValue, hallowed]
      rfl
    · exact absurd hforbidden (hok s)
  | some s =>
    rw [resolve_of_allowed hallowed, withValue, hallowed]
    rfl

lemma mem_of_allowedSecret
    (h : allowedSecret secrets host method c = some s) :
    s ∈ secrets ∧ s.form.namedHeader = authorizationHeader := by
  obtain ⟨hget, hallowed⟩ := Option.filter_eq_some_iff.mp h
  exact ⟨(deriveState_byPlaceholder hget).1, formNames_iff.mp (of_decide_eq_true hallowed).1⟩

variable (host method) in
lemma isLatin1_withValue (hstored : ∀ s ∈ secrets, Stored s) (hc : c.IsLatin1) :
    (withValue secrets host method c).IsLatin1 := by
  unfold withValue
  cases hallowed : allowedSecret secrets host method c with
  | none => exact hc
  | some s =>
    have hvalue := (hstored s (mem_of_allowedSecret hallowed).1).value
    intro d hd
    obtain ⟨-, -, hprintable, -⟩ := (checkSecretValue_iff s.value).mp hvalue
    exact UInt16.lt_of_le_of_lt (hprintable d hd).2 (by decide)

/-- A placeholder is not a value in the `Basic` scheme. -/
lemma basicCredentials_placeholder (hstored : Stored s) :
    basicCredentials s.placeholder = none := by
  obtain ⟨hmac, generation, rounds, hmade⟩ := hstored.placeholder
  obtain ⟨start, hstart, body, hshape, hbody⟩ := placeholderFor_shape hmade
  have hspace : 32 ∉ body := fun h => absurd (hbody 32 h) (by decide)
  by_cases hplain : 32 ∈ start
  · -- One prefix has a space, behind another scheme.
    have hfly : start = js "FlyV1 fm2_" := by
      revert hplain hstart
      clear hshape hmade
      revert start
      decide
    have htake : s.placeholder.takeWhile (· ≠ 32) = js "FlyV1" := by
      rw [hshape, hfly, show js "FlyV1 fm2_" = js "FlyV1" ++ 32 :: js "fm2_" from by decide,
        List.append_assoc, List.takeWhile_append_of_pos (List.all_eq_true.mp (by decide))]
      simp
    unfold basicCredentials
    cases hmatch : matchCredentials s.placeholder with
    | none => rfl
    | some pair =>
      obtain ⟨scheme, token⟩ := pair
      have hscheme : scheme = js "FlyV1" := by
        unfold matchCredentials at hmatch
        dsimp only at hmatch
        rw [htake] at hmatch
        split_ifs at hmatch <;> simp only [Option.some.injEq, Prod.mk.injEq] at hmatch <;>
          exact hmatch.1.symm
      rw [Option.bind_some]
      dsimp only
      rw [if_neg]
      rw [hscheme]
      decide
  · have hnone : 32 ∉ s.placeholder := by
      rw [hshape, List.mem_append]
      exact not_or.mpr ⟨hplain, hspace⟩
    have hdrop : s.placeholder.dropWhile (· ≠ 32) = [] := by
      rw [List.dropWhile_eq_nil_iff]
      intro c hc
      simpa using fun h : c = 32 => hnone (h ▸ hc)
    rw [basicCredentials, matchCredentials, hdrop]
    simp

lemma resolve_basic (hstored : ∀ s ∈ secrets, Stored s) {value scheme user pass : JsString}
    (hbasic : basicCredentials value = some (scheme, user, pass)) (lower : JsString) :
    resolve (deriveState secrets) host method lower value = .leave := by
  refine resolve_eq_leave fun t ht _ hph => ?_
  have hnone := basicCredentials_placeholder (hstored t ht)
  rw [hph, hbasic] at hnone
  cases hnone

/-- **What the swap makes of a pair**: the pair with the values in place of the placeholders. -/
theorem swapValue_basic (hstored : ∀ s ∈ secrets, Stored s)
    {name value next scheme user pass : JsString} {pushed : List ProxySecret}
    (hname : name.toLowerCase = authorizationHeader)
    (hbasic : basicCredentials value = some (scheme, user, pass))
    (hallowed : (allowedSecret secrets host method user).isSome ∨
      (allowedSecret secrets host method pass).isSome)
    (h : swapValue (deriveState secrets) host method name value = .ok (next, pushed)) :
    next = encodeBasic scheme (withValue secrets host method user)
      (withValue secrets host method pass) := by
  obtain ⟨token, hmatch, hscheme, hdecode⟩ := exists_of_basicCredentials hbasic
  have hnamed : authorizationHeader ∈ (deriveState secrets).namedHeaders := by
    rw [mem_namedHeaders_deriveState]
    rcases hallowed with hsome | hsome
    · obtain ⟨s, hs⟩ := Option.isSome_iff_exists.mp hsome
      exact ⟨s, mem_of_allowedSecret hs⟩
    · obtain ⟨s, hs⟩ := Option.isSome_iff_exists.mp hsome
      exact ⟨s, mem_of_allowedSecret hs⟩
  unfold swapValue at h
  rw [hname] at h
  dsimp only at h
  rw [if_neg (not_not.mpr hnamed), resolve_basic hstored hbasic] at h
  dsimp only at h
  rw [if_pos rfl] at h
  simp only [swapCredentials, hmatch, hdecode] at h
  rw [if_neg (not_not.mpr hscheme.1), if_pos hscheme.2] at h
  have htext (c : JsString) : (∀ s, resolve (deriveState secrets) host method authorizationHeader c ≠
      .forbidden s) → (resolve (deriveState secrets) host method authorizationHeader c).text c =
        withValue secrets host method c := resolve_text
  have huser := htext user
  have hpass := htext pass
  cases hresolve : resolve (deriveState secrets) host method authorizationHeader user with
  | forbidden s =>
    rw [hresolve] at h
    cases h
  | leave =>
    rw [hresolve] at h huser
    cases hresolve' : resolve (deriveState secrets) host method authorizationHeader pass with
    | forbidden s =>
      rw [hresolve'] at h
      cases h
    | leave =>
      -- An allowed secret is not left.
      rcases hallowed with hsome | hsome
      · obtain ⟨s, hs⟩ := Option.isSome_iff_exists.mp hsome
        rw [resolve_of_allowed hs] at hresolve
        cases hresolve
      · obtain ⟨s, hs⟩ := Option.isSome_iff_exists.mp hsome
        rw [resolve_of_allowed hs] at hresolve'
        cases hresolve'
    | replace t =>
      rw [hresolve'] at h hpass
      cases h
      rw [← huser nofun, ← hpass nofun]
  | replace s =>
    rw [hresolve] at h huser
    cases hresolve' : resolve (deriveState secrets) host method authorizationHeader pass with
    | forbidden s =>
      rw [hresolve'] at h
      cases h
    | leave | replace t =>
      rw [hresolve'] at h hpass
      cases h
      rw [← huser nofun, ← hpass nofun]

end Swap

lemma swapFields_getElem {state : ProxyState} {host method : JsString} {headers out : HeaderList}
    {used : List ProxySecret} (h : swapFields state host method headers = .ok (out, used)) {i : ℕ}
    {name value : JsString} (hfield : headers[i]? = some (name, value)) :
    ∃ next pushed, swapValue state host method name value = .ok (next, pushed) ∧
      out[i]? = some (name, next) := by
  induction headers generalizing out used i with
  | nil => cases hfield
  | cons field headers ih =>
    obtain ⟨next, pushed, out', used', hvalue, hrest, rfl, rfl⟩ := swapFields_cons_ok h
    cases i with
    | zero =>
      cases hfield
      exact ⟨next, pushed, hvalue, rfl⟩
    | succ i => exact ih hrest hfield

/-- **Basic credentials after the swap.** Where the user or the password is the placeholder of an
allowed secret, the forwarded credentials are read back with the values in place of the placeholders
exactly when no value with a colon takes the place of the user.

**Proof sketch.** The swap joins the pair with the values by a colon, and base64 is read back; the
reader cuts at the first colon, which is the one that was put in when the user has none. -/
theorem basic_roundTrip {secrets : List ProxySecret} (hstored : ∀ s ∈ secrets, Stored s)
    {host method : JsString} {headers out : HeaderList} {used : List ProxySecret}
    (hforward : swapPlaceholders (deriveState secrets) host method headers = .forward out used)
    {i : ℕ} {name value scheme user pass : JsString} (hfield : headers[i]? = some (name, value))
    (hname : name.toLowerCase = authorizationHeader)
    (hbasic : basicCredentials value = some (scheme, user, pass))
    (hallowed : (allowedSecret secrets host method user).isSome ∨
      (allowedSecret secrets host method pass).isSome) :
    (∃ next, out[i]? = some (name, next) ∧ basicCredentials next =
        some (scheme, withValue secrets host method user, withValue secrets host method pass)) ↔
      ∀ s, allowedSecret secrets host method user = some s → 58 ∉ s.value := by
  obtain ⟨next, pushed, hswap, hout⟩ := swapFields_getElem (swapFields_of_forward hforward) hfield
  have hnext := swapValue_basic hstored hname hbasic hallowed hswap
  obtain ⟨token, hmatch, hscheme, hdecode⟩ := exists_of_basicCredentials hbasic
  obtain ⟨huser, hpass, hcolon⟩ := isLatin1_of_decodeBasic hdecode
  have hread := basicCredentials_encodeBasic hscheme.1 hscheme.2
    (isLatin1_withValue host method hstored huser)
    (isLatin1_withValue host method hstored hpass)
  have hcondition : 58 ∉ withValue secrets host method user ↔
      ∀ s, allowedSecret secrets host method user = some s → 58 ∉ s.value := by
    unfold withValue
    cases allowedSecret secrets host method user with
    | none => simpa using hcolon
    | some s => simp
  rw [← hcondition, ← hread, hout]
  constructor
  · rintro ⟨next', hnext', hback⟩
    cases hnext'
    rwa [hnext] at hback
  · intro hback
    exact ⟨next, rfl, by rwa [hnext]⟩

def countingDigest (_ : JsString) : Buffer := (List.range 32).map UInt8.ofNat

/-- An office secret that one host may receive. -/
def accountSecret (value : JsString) : ProxySecret where
  scope := js "office"
  ownerId := none
  name := js "ACCOUNT"
  value := value
  hosts := [js "api.stub.test"]
  form := .authorization
  placeholder := (placeholderFor countingDigest (js "office") (js "ACCOUNT") 1 value 2).getD []

def accountHeaders (user pass : JsString) : HeaderList :=
  [(js "Authorization", encodeBasic (js "Basic") user pass)]

lemma stored_accountSecret {value : JsString}
    (hvalue : checkSecretValue (.string (accountSecret value).value) = none)
    (hplaceholder : (placeholderFor countingDigest (js "office") (js "ACCOUNT") 1 value 2).isSome) :
    Stored (accountSecret value) := by
  refine ⟨hvalue, countingDigest, 1, 2, ?_⟩
  obtain ⟨ph, hph⟩ := Option.isSome_iff_exists.mp hplaceholder
  simp only [accountSecret, hph, Option.getD_some]

theorem basic_roundTrip_user :
    (∃ next, (accountHeaders (js "s3cr3tuser") (js "x"))[0]? = some (js "Authorization", next) ∧
      basicCredentials next = some (js "Basic",
        withValue [accountSecret (js "s3cr3tuser")] (js "api.stub.test") (js "GET")
          (accountSecret (js "s3cr3tuser")).placeholder,
        withValue [accountSecret (js "s3cr3tuser")] (js "api.stub.test") (js "GET") (js "x"))) ↔
      ∀ s, allowedSecret [accountSecret (js "s3cr3tuser")] (js "api.stub.test") (js "GET")
        (accountSecret (js "s3cr3tuser")).placeholder = some s → 58 ∉ s.value := by
  have hstored : ∀ s ∈ [accountSecret (js "s3cr3tuser")], Stored s := by
    intro s hs
    rw [List.mem_singleton.mp hs]
    exact stored_accountSecret (by decide +kernel) (by decide +kernel)
  have hforward : swapPlaceholders (deriveState [accountSecret (js "s3cr3tuser")])
      (js "api.stub.test") (js "GET")
        (accountHeaders (accountSecret (js "s3cr3tuser")).placeholder (js "x")) =
      .forward (accountHeaders (js "s3cr3tuser") (js "x")) [accountSecret (js "s3cr3tuser")] := by
    decide +kernel
  have hfield : (accountHeaders (accountSecret (js "s3cr3tuser")).placeholder (js "x"))[0]? =
      some (js "Authorization",
        encodeBasic (js "Basic") (accountSecret (js "s3cr3tuser")).placeholder (js "x")) := rfl
  have hbasic : basicCredentials
        (encodeBasic (js "Basic") (accountSecret (js "s3cr3tuser")).placeholder (js "x")) =
      some (js "Basic", (accountSecret (js "s3cr3tuser")).placeholder, js "x") := by
    decide +kernel
  exact basic_roundTrip hstored hforward hfield (by decide +kernel) hbasic
    (.inl (by decide +kernel))

/-- A value with a colon takes the place of the user: the pair that is forwarded is read back with
the front part of the value as the user and its rest in front of the password. -/
theorem basic_colon_splits :
    checkSecretValue (.string (js "user1:pw")) = none ∧
    Stored (accountSecret (js "user1:pw")) ∧
    swapPlaceholders (deriveState [accountSecret (js "user1:pw")]) (js "api.stub.test") (js "GET")
        (accountHeaders (accountSecret (js "user1:pw")).placeholder (js "x")) =
      .forward (accountHeaders (js "user1:pw") (js "x")) [accountSecret (js "user1:pw")] ∧
    basicCredentials
        (encodeBasic (js "Basic") (accountSecret (js "user1:pw")).placeholder (js "x")) =
      some (js "Basic", (accountSecret (js "user1:pw")).placeholder, js "x") ∧
    basicCredentials (encodeBasic (js "Basic") (js "user1:pw") (js "x")) =
      some (js "Basic", js "user1", js "pw:x") ∧
    basicCredentials (encodeBasic (js "Basic") (js "user1:pw") (js "x")) ≠
      some (js "Basic", js "user1:pw", js "x") := by
  refine ⟨by decide +kernel, stored_accountSecret (by decide +kernel) (by decide +kernel),
    by decide +kernel, by decide +kernel, by decide +kernel, by decide +kernel⟩

end Isomux
