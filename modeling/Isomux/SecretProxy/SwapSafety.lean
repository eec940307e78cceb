import Isomux.SecretProxy.Swap
import Mathlib.Data.Option.Basic

set_option autoImplicit false

/-!
# Safety of the placeholder swap

What a request may carry after the swap, said without the loop: each field is either unchanged or
holds, at the place of a placeholder, the value of a secret that is entitled to stand there.

## Main results

* `Isomux.SwapRun.unchanged` — a header that no used secret's form names is unchanged.
* `Isomux.swapPlaceholders_sound` — soundness of the swap, refusal, and noninterference.
-/

namespace Isomux

/-! ## What the swap may do -/

/-- The secrets whose value may stand in the header `lower` of a request to `host`. -/
structure Entitled (secrets : List ProxySecret) (host method lower : JsString)
    (s : ProxySecret) : Prop where
  held : s ∈ secrets
  names : formNames s lower
  lists : host ∈ s.hosts
  injects : injects method

/-- `SwapsTo lower value next swapped`: the value of the header `lower` becomes `next`, where the
values of exactly the secrets `swapped` stand for their placeholders. -/
inductive SwapsTo (lower value : JsString) : JsString → List ProxySecret → Prop
  | same : SwapsTo lower value value []
  | whole (s : ProxySecret) (h : value = s.placeholder) : SwapsTo lower value s.value [s]
  /-- The credentials behind a scheme are a placeholder. -/
  | token (s : ProxySecret) {scheme : JsString} (hl : lower = authorizationHeader)
      (hm : matchCredentials value = some (scheme, s.placeholder)) :
      SwapsTo lower value (scheme ++ js " " ++ s.value) [s]
  /-- The user of `Basic` credentials is a placeholder. -/
  | user (s : ProxySecret) {scheme token pass : JsString} (hl : lower = authorizationHeader)
      (hm : matchCredentials value = some (scheme, token))
      (hd : decodeBasic token = some (s.placeholder, pass)) :
      SwapsTo lower value (encodeBasic scheme s.value pass) [s]
  /-- The password of `Basic` credentials is a placeholder. -/
  | pass (s : ProxySecret) {scheme token user : JsString} (hl : lower = authorizationHeader)
      (hm : matchCredentials value = some (scheme, token))
      (hd : decodeBasic token = some (user, s.placeholder)) :
      SwapsTo lower value (encodeBasic scheme user s.value) [s]
  | both (s t : ProxySecret) {scheme token : JsString} (hl : lower = authorizationHeader)
      (hm : matchCredentials value = some (scheme, token))
      (hd : decodeBasic token = some (s.placeholder, t.placeholder)) :
      SwapsTo lower value (encodeBasic scheme s.value t.value) [s, t]

/-- `SwapRun secrets host method headers out used`: field by field and in order, `out` is `headers`
with values of entitled secrets swapped in, and `used` lists exactly the swapped secrets. -/
inductive SwapRun (secrets : List ProxySecret) (host method : JsString) :
    HeaderList → HeaderList → List ProxySecret → Prop
  | nil : SwapRun secrets host method [] [] []
  | cons {name value next : JsString} {swapped used : List ProxySecret} {headers out : HeaderList}
      (hswap : SwapsTo name.toLowerCase value next swapped)
      (hent : ∀ s ∈ swapped, Entitled secrets host method name.toLowerCase s)
      (hrest : SwapRun secrets host method headers out used) :
      SwapRun secrets host method ((name, value) :: headers) ((name, next) :: out)
        (swapped ++ used)

/-- The candidates inside a value of the header `lower`: the credentials behind a scheme, or the
user and the password of `Basic` credentials. -/
def credentials (lower value : JsString) : List JsString :=
  if lower ≠ authorizationHeader then []
  else
    match matchCredentials value with
    | none => []
    | some (scheme, token) =>
      if ¬ isToken scheme then []
      else if scheme.toLowerCase = js "basic" then
        match decodeBasic token with
        | none => []
        | some (user, pass) => [user, pass]
      else [token]

/-- A value of the header `lower` carries the placeholder `ph`: it is the placeholder, or it is no
placeholder for this header and the placeholder stands in its credentials. -/
def Carries (secrets : List ProxySecret) (lower value ph : JsString) : Prop :=
  value = ph ∨
    ph ∈ credentials lower value ∧ ∀ t ∈ secrets, formNames t lower → t.placeholder ≠ value

/-- The two secrets differ in their value at most. -/
def SameButValue (s t : ProxySecret) : Prop := t = { s with value := t.value }

/-- Every secret that is entitled to stand in the header `lower` has one value on both sides. -/
def EntitledAgree (secrets secrets' : List ProxySecret) (host method lower : JsString) : Prop :=
  ∀ st ∈ secrets.zip secrets', Entitled secrets host method lower st.1 → st.1.value = st.2.value

/-- Two results of the same request under secrets that differ in their values: they are of one
kind, and fields differ only where a secret with two values is entitled to stand. -/
def SwapIndistinguishable (secrets secrets' : List ProxySecret) (host method : JsString)
    (headers : HeaderList) : SwapResult → SwapResult → Prop
  | .forbidden s, .forbidden t => SameButValue s t
  | .forward out used, .forward out' used' =>
    List.Forall₂ SameButValue used used' ∧ out.length = out'.length ∧
      ∀ (i : ℕ) (h : JsString × JsString), headers[i]? = some h →
        EntitledAgree secrets secrets' host method h.1.toLowerCase → out[i]? = out'[i]?
  | _, _ => False

/-! ## The loop without accumulators -/

/-- The loop's fields and pushes for the fields to come. -/
def swapFields (state : ProxyState) (host method : JsString) :
    HeaderList → Except ProxySecret (HeaderList × List ProxySecret)
  | [] => .ok ([], [])
  | (name, value) :: headers =>
    match swapValue state host method name value, swapFields state host method headers with
    | .error s, _ => .error s
    | .ok _, .error s => .error s
    | .ok (next, pushed), .ok (out, used) => .ok ((name, next) :: out, pushed ++ used)

theorem swapLoop_eq (state : ProxyState) (host method : JsString) (headers out : HeaderList)
    (used : List ProxySecret) :
    swapLoop state host method headers out used =
      match swapFields state host method headers with
      | .error s => .forbidden s
      | .ok (out', used') => .forward (out ++ out') (used ++ used') := by
  induction headers generalizing out used with
  | nil => simp [swapLoop, swapFields]
  | cons h headers ih =>
    obtain ⟨name, value⟩ := h
    rw [swapLoop, swapFields]
    cases swapValue state host method name value with
    | error s => rfl
    | ok np =>
      obtain ⟨next, pushed⟩ := np
      dsimp only
      rw [ih]
      cases swapFields state host method headers <;> simp

theorem swapPlaceholders_eq (state : ProxyState) (host method : JsString) (headers : HeaderList) :
    swapPlaceholders state host method headers =
      match swapFields state host method headers with
      | .error s => .forbidden s
      | .ok (out, used) => .forward out used := by
  rw [swapPlaceholders, swapLoop_eq]
  rfl

theorem swapFields_of_forward {state : ProxyState} {host method : JsString}
    {headers out : HeaderList} {used : List ProxySecret}
    (h : swapPlaceholders state host method headers = .forward out used) :
    swapFields state host method headers = .ok (out, used) := by
  rw [swapPlaceholders_eq] at h
  split at h
  · cases h
  · rename_i hfields
    cases h
    exact hfields

theorem swapFields_cons_ok {state : ProxyState} {host method name value : JsString}
    {headers out : HeaderList} {used : List ProxySecret}
    (h : swapFields state host method ((name, value) :: headers) = .ok (out, used)) :
    ∃ next pushed out' used', swapValue state host method name value = .ok (next, pushed) ∧
      swapFields state host method headers = .ok (out', used') ∧ out = (name, next) :: out' ∧
        used = pushed ++ used' := by
  rw [swapFields] at h
  split at h
  · cases h
  · cases h
  · rename_i hvalue hrest
    cases h
    exact ⟨_, _, _, _, hvalue, hrest, rfl, rfl⟩

/-! ## One candidate -/

section Sound

variable {secrets : List ProxySecret} {host method lower : JsString} {s : ProxySecret}

theorem resolve_eq_replace {c : JsString}
    (h : resolve (deriveState secrets) host method lower c = .replace s) :
    Entitled secrets host method lower s ∧ s.placeholder = c := by
  unfold resolve at h
  split at h
  · cases h
  · rename_i t ht
    obtain ⟨hmem, hph⟩ := deriveState_byPlaceholder ht
    split_ifs at h with hnames hlists hinj
    obtain rfl : t = s := Resolved.replace.inj h
    exact ⟨⟨hmem, hnames, hlists, hinj⟩, hph⟩

/-- Only a held secret whose form names the header and that does not list the host is a reason to
refuse. -/
theorem resolve_eq_forbidden {c : JsString}
    (h : resolve (deriveState secrets) host method lower c = .forbidden s) :
    s ∈ secrets ∧ host ∉ s.hosts := by
  unfold resolve at h
  split at h
  · cases h
  · rename_i t ht
    split_ifs at h with hnames hlists
    obtain rfl : t = s := Resolved.forbidden.inj h
    exact ⟨(deriveState_byPlaceholder ht).1, hlists⟩

variable (host method) in
theorem resolve_placeholder (hs : s ∈ secrets)
    (huniq : ∀ t ∈ secrets, t.placeholder = s.placeholder → t = s) (hnames : formNames s lower) :
    resolve (deriveState secrets) host method lower s.placeholder =
      if host ∉ s.hosts then .forbidden s else if ¬ injects method then .leave else .replace s := by
  rw [resolve, byPlaceholder_deriveState_of_unique hs huniq]
  simp [hnames]

theorem resolve_eq_leave {c : JsString}
    (hno : ∀ t ∈ secrets, formNames t lower → t.placeholder ≠ c) :
    resolve (deriveState secrets) host method lower c = .leave := by
  unfold resolve
  split
  · rfl
  · rename_i t ht
    obtain ⟨hmem, hph⟩ := deriveState_byPlaceholder ht
    rw [if_pos fun hnames => hno t hmem hnames hph]

/-! ## One field -/

variable {name value : JsString} {pushed : List ProxySecret} {t : ProxySecret}

lemma swapsTo_same {value next : JsString}
    (h : (value, ([] : List ProxySecret)) = (next, pushed)) :
    SwapsTo lower value next pushed ∧ ∀ t ∈ pushed, Entitled secrets host method lower t := by
  obtain ⟨rfl, rfl⟩ := Prod.mk.inj h
  exact ⟨.same, by simp⟩

/-- What the credentials branch swaps in is entitled and stands for its placeholder. -/
theorem swapCredentials_sound {value next : JsString}
    (hl : lower = authorizationHeader)
    (h : swapCredentials (deriveState secrets) host method lower value = .ok (next, pushed)) :
    SwapsTo lower value next pushed ∧
      ∀ t ∈ pushed, Entitled secrets host method lower t := by
  unfold swapCredentials at h
  cases hm : matchCredentials value with
  | none => rw [hm] at h; exact swapsTo_same (Except.ok.inj h)
  | some st =>
    obtain ⟨scheme, token⟩ := st
    simp only [hm] at h
    split_ifs at h with htok hbasic
    · cases hd : decodeBasic token with
      | none => rw [hd] at h; exact swapsTo_same (Except.ok.inj h)
      | some up =>
        obtain ⟨u, p⟩ := up
        simp only [hd] at h
        cases hu : resolve (deriveState secrets) host method lower u with
        | forbidden t => simp [hu] at h
        | leave =>
          cases hp : resolve (deriveState secrets) host method lower p with
          | forbidden t => simp [hu, hp] at h
          | leave => simp only [hu, hp] at h; exact swapsTo_same (Except.ok.inj h)
          | replace t =>
            obtain ⟨hent, rfl⟩ := resolve_eq_replace hp
            simp only [hu, hp, Except.ok.injEq, Prod.mk.injEq] at h
            obtain ⟨rfl, rfl⟩ := h
            exact ⟨.pass t hl hm hd, by simpa [Resolved.pushed] using hent⟩
        | replace t =>
          obtain ⟨hent, rfl⟩ := resolve_eq_replace hu
          cases hp : resolve (deriveState secrets) host method lower p with
          | forbidden t' => simp [hu, hp] at h
          | leave =>
            simp only [hu, hp, Except.ok.injEq, Prod.mk.injEq] at h
            obtain ⟨rfl, rfl⟩ := h
            exact ⟨.user t hl hm hd, by simpa [Resolved.pushed] using hent⟩
          | replace t' =>
            obtain ⟨hent', rfl⟩ := resolve_eq_replace hp
            simp only [hu, hp, Except.ok.injEq, Prod.mk.injEq] at h
            obtain ⟨rfl, rfl⟩ := h
            exact ⟨.both t t' hl hm hd, by simp [Resolved.pushed, hent, hent']⟩
    · cases hr : resolve (deriveState secrets) host method lower token with
      | forbidden t => simp [hr] at h
      | leave => simp only [hr] at h; exact swapsTo_same (Except.ok.inj h)
      | replace t =>
        obtain ⟨hent, rfl⟩ := resolve_eq_replace hr
        simp only [hr, Except.ok.injEq, Prod.mk.injEq] at h
        obtain ⟨rfl, rfl⟩ := h
        exact ⟨.token t hl hm, by simpa using hent⟩
    · exact swapsTo_same (Except.ok.inj h)

theorem swapValue_sound {name value next : JsString}
    (h : swapValue (deriveState secrets) host method name value = .ok (next, pushed)) :
    SwapsTo name.toLowerCase value next pushed ∧
      ∀ t ∈ pushed, Entitled secrets host method name.toLowerCase t := by
  unfold swapValue at h
  dsimp only at h
  by_cases hnamed : name.toLowerCase ∈ (deriveState secrets).namedHeaders
  · rw [if_neg (not_not.mpr hnamed)] at h
    cases hr : resolve (deriveState secrets) host method name.toLowerCase value with
    | forbidden t => simp [hr] at h
    | replace t =>
      obtain ⟨hent, hph⟩ := resolve_eq_replace hr
      simp only [hr, Except.ok.injEq, Prod.mk.injEq] at h
      obtain ⟨rfl, rfl⟩ := h
      exact ⟨.whole t hph.symm, by simpa using hent⟩
    | leave =>
      simp only [hr] at h
      split_ifs at h with hl
      · exact swapCredentials_sound hl h
      · exact swapsTo_same (Except.ok.inj h)
  · rw [if_pos hnamed] at h
    exact swapsTo_same (Except.ok.inj h)

theorem swapCredentials_error {value : JsString}
    (h : swapCredentials (deriveState secrets) host method lower value = .error t) :
    t ∈ secrets ∧ host ∉ t.hosts := by
  unfold swapCredentials at h
  cases hm : matchCredentials value with
  | none => simp [hm] at h
  | some st =>
    obtain ⟨scheme, token⟩ := st
    simp only [hm] at h
    split_ifs at h with htok hbasic
    · cases hd : decodeBasic token with
      | none => simp [hd] at h
      | some up =>
        obtain ⟨u, p⟩ := up
        simp only [hd] at h
        cases hu : resolve (deriveState secrets) host method lower u with
        | forbidden t' =>
          simp only [hu, Except.error.injEq] at h
          exact h ▸ resolve_eq_forbidden hu
        | leave | replace _ =>
          cases hp : resolve (deriveState secrets) host method lower p with
          | forbidden t' =>
            simp only [hu, hp, Except.error.injEq] at h
            exact h ▸ resolve_eq_forbidden hp
          | leave | replace _ => simp [hu, hp] at h
    · cases hr : resolve (deriveState secrets) host method lower token with
      | forbidden t' =>
        simp only [hr, Except.error.injEq] at h
        exact h ▸ resolve_eq_forbidden hr
      | leave | replace _ => simp [hr] at h

theorem swapValue_error
    (h : swapValue (deriveState secrets) host method name value = .error t) :
    t ∈ secrets ∧ host ∉ t.hosts := by
  unfold swapValue at h
  dsimp only at h
  by_cases hnamed : name.toLowerCase ∈ (deriveState secrets).namedHeaders
  · rw [if_neg (not_not.mpr hnamed)] at h
    cases hr : resolve (deriveState secrets) host method name.toLowerCase value with
    | forbidden t' =>
      simp only [hr, Except.error.injEq] at h
      exact h ▸ resolve_eq_forbidden hr
    | replace t' => simp [hr] at h
    | leave =>
      simp only [hr] at h
      split_ifs at h
      exact swapCredentials_error h
  · rw [if_pos hnamed] at h
    cases h

variable (secrets host method) in
/-- The credentials branch acts on every candidate: it refuses for a forbidden one, and what it
lets through has the secret of a replaced one among the swapped ones. -/
theorem swapCredentials_of_mem {value c : JsString} (hc : c ∈ credentials lower value) :
    (∀ t, resolve (deriveState secrets) host method lower c = .forbidden t →
        ∃ t', swapCredentials (deriveState secrets) host method lower value = .error t') ∧
      ∀ t, resolve (deriveState secrets) host method lower c = .replace t → ∀ next pushed,
        swapCredentials (deriveState secrets) host method lower value = .ok (next, pushed) →
          t ∈ pushed := by
  unfold credentials at hc
  unfold swapCredentials
  split_ifs at hc with hl
  · simp at hc
  cases hm : matchCredentials value with
  | none => simp [hm] at hc
  | some st =>
    obtain ⟨scheme, token⟩ := st
    simp only [hm] at hc ⊢
    split_ifs at hc ⊢ with htok hbasic
    · cases hd : decodeBasic token with
      | none => simp [hd] at hc
      | some up =>
        obtain ⟨u, p⟩ := up
        simp only [hd, List.mem_cons, List.not_mem_nil, or_false] at hc ⊢
        refine ⟨fun t ht => ?_, fun t ht next pushed h => ?_⟩
        · rcases hc with rfl | rfl
          · simp [ht]
          · cases hu : resolve (deriveState secrets) host method lower u <;> simp [ht]
        · rcases hc with rfl | rfl
          · cases hp : resolve (deriveState secrets) host method lower p with
            | forbidden t' => simp [ht, hp] at h
            | leave | replace _ =>
              simp only [ht, hp, Except.ok.injEq, Prod.mk.injEq] at h
              simp [← h.2, Resolved.pushed]
          · cases hu : resolve (deriveState secrets) host method lower u with
            | forbidden t' => simp [hu] at h
            | leave | replace _ =>
              simp only [hu, ht, Except.ok.injEq, Prod.mk.injEq] at h
              simp [← h.2, Resolved.pushed]
    · obtain rfl : c = token := by simpa using hc
      refine ⟨fun t ht => ⟨t, by simp [ht]⟩, fun t ht next pushed h => ?_⟩
      simp only [ht, Except.ok.injEq, Prod.mk.injEq] at h
      simp [← h.2]
    · simp at hc

/-- **A carried placeholder is acted on.** If a field carries the placeholder of a secret whose form
names it, then it is refused when the secret does not list the host, and the secret is among the
swapped ones when it is entitled. -/
theorem swapValue_of_carries (hs : s ∈ secrets)
    (huniq : ∀ t ∈ secrets, t.placeholder = s.placeholder → t = s)
    (hnames : formNames s name.toLowerCase)
    (hcarry : Carries secrets name.toLowerCase value s.placeholder) :
    (host ∉ s.hosts →
        ∃ t, swapValue (deriveState secrets) host method name value = .error t) ∧
      (Entitled secrets host method name.toLowerCase s → ∀ next pushed,
        swapValue (deriveState secrets) host method name value = .ok (next, pushed) →
          s ∈ pushed) := by
  have hnamed : name.toLowerCase ∈ (deriveState secrets).namedHeaders :=
    mem_namedHeaders_deriveState.mpr ⟨s, hs, formNames_iff.mp hnames⟩
  have hplace := resolve_placeholder host method hs huniq hnames
  unfold swapValue
  dsimp only
  rw [if_neg (not_not.mpr hnamed)]
  rcases hcarry with rfl | ⟨hmem, hno⟩
  · refine ⟨fun hhost => ⟨s, by simp [hplace, hhost]⟩, fun hent next pushed h => ?_⟩
    simp only [hplace, hent.lists, hent.injects, not_true, if_false, Except.ok.injEq,
      Prod.mk.injEq] at h
    simp [← h.2]
  · have hl : name.toLowerCase = authorizationHeader := by
      by_contra hne
      simp [credentials, hne] at hmem
    rw [resolve_eq_leave hno]
    simp only [if_pos hl]
    obtain ⟨hforb, hrepl⟩ :=
      swapCredentials_of_mem secrets host method hmem
    exact ⟨fun hhost => hforb s (by simp [hplace, hhost]),
      fun hent => hrepl s (by simp [hplace, hent.lists, hent.injects])⟩

/-! ## All fields -/

theorem swapFields_sound {headers out : HeaderList} {used : List ProxySecret}
    (h : swapFields (deriveState secrets) host method headers = .ok (out, used)) :
    SwapRun secrets host method headers out used := by
  induction headers generalizing out used with
  | nil =>
    simp only [swapFields, Except.ok.injEq, Prod.mk.injEq] at h
    obtain ⟨rfl, rfl⟩ := h
    exact .nil
  | cons hd headers ih =>
    obtain ⟨next, pushed, out', used', hv, hrest, rfl, rfl⟩ := swapFields_cons_ok h
    obtain ⟨hswap, hent⟩ := swapValue_sound hv
    exact .cons hswap hent (ih hrest)

theorem swapFields_error {headers : HeaderList}
    (h : swapFields (deriveState secrets) host method headers = .error t) :
    t ∈ secrets ∧ host ∉ t.hosts := by
  induction headers with
  | nil => cases h
  | cons hd headers ih =>
    rw [swapFields] at h
    split at h
    · rename_i hv
      exact Except.error.inj h ▸ swapValue_error hv
    · rename_i hrest
      obtain rfl := Except.error.inj h
      exact ih hrest
    · cases h

theorem swapFields_of_error {headers : HeaderList}
    (hmem : (name, value) ∈ headers)
    (h : ∃ t, swapValue (deriveState secrets) host method name value = .error t) :
    ∃ t, swapFields (deriveState secrets) host method headers = .error t := by
  induction headers with
  | nil => cases hmem
  | cons hd headers ih =>
    rw [swapFields]
    rcases List.mem_cons.mp hmem with rfl | hmem
    · obtain ⟨t, ht⟩ := h
      exact ⟨t, by rw [ht]⟩
    · obtain ⟨t, ht⟩ := ih hmem
      cases hv : swapValue (deriveState secrets) host method hd.1 hd.2 with
      | error t' => exact ⟨t', rfl⟩
      | ok np => exact ⟨t, by rw [ht]⟩

theorem swapFields_pushed {headers out : HeaderList} {used : List ProxySecret}
    (hmem : (name, value) ∈ headers)
    (h : swapFields (deriveState secrets) host method headers = .ok (out, used)) :
    ∃ next pushed, swapValue (deriveState secrets) host method name value = .ok (next, pushed) ∧
      pushed ⊆ used := by
  induction headers generalizing out used with
  | nil => cases hmem
  | cons hd headers ih =>
    obtain ⟨next, pushed, out', used', hv, hrest, rfl, rfl⟩ := swapFields_cons_ok h
    rcases List.mem_cons.mp hmem with rfl | hmem
    · exact ⟨next, pushed, hv, List.subset_append_left _ _⟩
    · obtain ⟨next', pushed', hv', hsub⟩ := ih hmem hrest
      exact ⟨next', pushed', hv', fun t ht => List.mem_append_right _ (hsub ht)⟩

end Sound

/-! ## Noninterference -/

section Noninterference

variable {secrets secrets' : List ProxySecret} {host method lower : JsString}

/-- Secrets at the same place of the two lists, which differ in their value at most. -/
def Paired (secrets secrets' : List ProxySecret) (s t : ProxySecret) : Prop :=
  SameButValue s t ∧ (s, t) ∈ secrets.zip secrets'

theorem rel_byPlaceholder (h : List.Forall₂ SameButValue secrets secrets') (ph : JsString) :
    Option.Rel (Paired secrets secrets') ((deriveState secrets).byPlaceholder ph)
      ((deriveState secrets').byPlaceholder ph) := by
  have hpaired : List.Forall₂ (Paired secrets secrets') secrets secrets' :=
    List.forall₂_iff_zip.mpr ⟨h.length_eq, fun hm => ⟨List.forall₂_iff_zip.mp h |>.2 hm, hm⟩⟩
  suffices hfold : ∀ (ss ss' : List ProxySecret) (st st' : ProxyState),
      List.Forall₂ (Paired secrets secrets') ss ss' →
      Option.Rel (Paired secrets secrets') (st.byPlaceholder ph) (st'.byPlaceholder ph) →
      Option.Rel (Paired secrets secrets') ((ss.foldl addSecret st).byPlaceholder ph)
        ((ss'.foldl addSecret st').byPlaceholder ph) from
    hfold _ _ _ _ hpaired .none
  intro ss ss' st st' hss
  induction hss generalizing st st' with
  | nil => exact id
  | @cons s t ss ss' hst _ ih =>
    intro hrel
    refine ih _ _ ?_
    have hph : t.placeholder = s.placeholder := by rw [hst.1]
    by_cases heq : ph = s.placeholder
    · simpa [addSecret, hph, heq] using Option.Rel.some hst
    · simpa [addSecret, hph, heq, Function.update_of_ne] using hrel

theorem namedHeaders_eq (h : List.Forall₂ SameButValue secrets secrets') (name : JsString) :
    name ∈ (deriveState secrets).namedHeaders ↔ name ∈ (deriveState secrets').namedHeaders := by
  rw [mem_namedHeaders_deriveState, mem_namedHeaders_deriveState]
  induction h with
  | nil => rfl
  | @cons s t _ _ hst _ ih =>
    have hform : t.form = s.form := by rw [hst]
    simp [ih, hform]

variable (host method lower) in
/-- `resolve` answers in the same way, with paired secrets. -/
theorem resolve_rel (h : List.Forall₂ SameButValue secrets secrets') (c : JsString) :
    (resolve (deriveState secrets) host method lower c = .leave ∧
        resolve (deriveState secrets') host method lower c = .leave) ∨
      ∃ s t, Paired secrets secrets' s t ∧
        ((resolve (deriveState secrets) host method lower c = .forbidden s ∧
            resolve (deriveState secrets') host method lower c = .forbidden t) ∨
          (resolve (deriveState secrets) host method lower c = .replace s ∧
            resolve (deriveState secrets') host method lower c = .replace t)) := by
  unfold resolve
  have hrel := rel_byPlaceholder h c
  cases hs : (deriveState secrets).byPlaceholder c with
  | none =>
    rw [hs] at hrel
    cases ht : (deriveState secrets').byPlaceholder c with
    | none => exact .inl ⟨rfl, rfl⟩
    | some t => rw [ht] at hrel; cases hrel
  | some s =>
    rw [hs] at hrel
    cases ht : (deriveState secrets').byPlaceholder c with
    | none => rw [ht] at hrel; cases hrel
    | some t =>
      rw [ht] at hrel
      cases hrel with
      | some hst =>
        have hform : formNames t lower ↔ formNames s lower := by rw [hst.1]; rfl
        have hhosts : t.hosts = s.hosts := by rw [hst.1]
        simp only [hform, hhosts]
        by_cases hnames : formNames s lower
        · by_cases hlists : host ∈ s.hosts
          · by_cases hinj : injects method
            · exact .inr ⟨s, t, hst, .inr (by simp [hnames, hlists, hinj])⟩
            · exact .inl (by simp [hnames, hlists, hinj])
          · exact .inr ⟨s, t, hst, .inl (by simp [hnames, hlists])⟩
        · exact .inl (by simp [hnames])

/-- Two outcomes of one field: of one kind, and equal where the entitled values agree. -/
def FieldRel (secrets secrets' : List ProxySecret) (host method lower : JsString) :
    Except ProxySecret (JsString × List ProxySecret) →
      Except ProxySecret (JsString × List ProxySecret) → Prop
  | .error s, .error t => SameButValue s t
  | .ok (next, pushed), .ok (next', pushed') =>
    List.Forall₂ SameButValue pushed pushed' ∧
      (EntitledAgree secrets secrets' host method lower → next = next')
  | _, _ => False

theorem FieldRel.same (value : JsString) :
    FieldRel secrets secrets' host method lower (.ok (value, [])) (.ok (value, [])) :=
  ⟨.nil, fun _ => rfl⟩

theorem Paired.value_eq {s t : ProxySecret} {c : JsString} (hst : Paired secrets secrets' s t)
    (hr : resolve (deriveState secrets) host method lower c = .replace s)
    (hagree : EntitledAgree secrets secrets' host method lower) : s.value = t.value :=
  hagree (s, t) hst.2 (resolve_eq_replace hr).1

/-- The credentials branch treats both sides alike. -/
theorem swapCredentials_rel (h : List.Forall₂ SameButValue secrets secrets') (value : JsString) :
    FieldRel secrets secrets' host method lower
      (swapCredentials (deriveState secrets) host method lower value)
      (swapCredentials (deriveState secrets') host method lower value) := by
  unfold swapCredentials
  cases matchCredentials value with
  | none => exact .same value
  | some st =>
    obtain ⟨scheme, token⟩ := st
    dsimp only
    split_ifs
    · cases decodeBasic token with
      | none => exact .same value
      | some up =>
        obtain ⟨u, p⟩ := up
        dsimp only
        rcases resolve_rel host method lower h u with
          ⟨hu, hu'⟩ | ⟨s, t, hst, ⟨hu, hu'⟩ | ⟨hu, hu'⟩⟩ <;>
        rcases resolve_rel host method lower h p with
          ⟨hp, hp'⟩ | ⟨s', t', hst', ⟨hp, hp'⟩ | ⟨hp, hp'⟩⟩ <;>
        simp only [hu, hu', hp, hp']
        · exact .same value
        · exact hst'.1
        · exact ⟨.cons hst'.1 .nil, fun ha => by simp [Resolved.text, hst'.value_eq hp ha]⟩
        · exact hst.1
        · exact hst.1
        · exact hst.1
        · exact ⟨.cons hst.1 .nil, fun ha => by simp [Resolved.text, hst.value_eq hu ha]⟩
        · exact hst'.1
        · exact ⟨.cons hst.1 (.cons hst'.1 .nil), fun ha => by
            simp [Resolved.text, hst.value_eq hu ha, hst'.value_eq hp ha]⟩
    · rcases resolve_rel host method lower h token with
        ⟨hr, hr'⟩ | ⟨s, t, hst, ⟨hr, hr'⟩ | ⟨hr, hr'⟩⟩ <;> simp only [hr, hr']
      · exact .same value
      · exact hst.1
      · exact ⟨.cons hst.1 .nil, fun ha => by rw [hst.value_eq hr ha]⟩
    · exact .same value

variable (host method) in
theorem swapValue_rel (h : List.Forall₂ SameButValue secrets secrets') (name value : JsString) :
    FieldRel secrets secrets' host method name.toLowerCase
      (swapValue (deriveState secrets) host method name value)
      (swapValue (deriveState secrets') host method name value) := by
  unfold swapValue
  simp only [← namedHeaders_eq h]
  by_cases hnamed : name.toLowerCase ∈ (deriveState secrets).namedHeaders
  · simp only [hnamed, not_true, if_false]
    rcases resolve_rel host method name.toLowerCase h value with
      ⟨hr, hr'⟩ | ⟨s, t, hst, ⟨hr, hr'⟩ | ⟨hr, hr'⟩⟩ <;> simp only [hr, hr']
    · split_ifs
      · exact swapCredentials_rel h value
      · exact .same value
    · exact hst.1
    · exact ⟨.cons hst.1 .nil, fun ha => hst.value_eq hr ha⟩
  · simp only [hnamed, not_false_eq_true, if_true]
    exact .same value

def FieldsRel (secrets secrets' : List ProxySecret) (host method : JsString)
    (headers : HeaderList) : Except ProxySecret (HeaderList × List ProxySecret) →
      Except ProxySecret (HeaderList × List ProxySecret) → Prop
  | .error s, .error t => SameButValue s t
  | .ok (out, used), .ok (out', used') =>
    SwapIndistinguishable secrets secrets' host method headers (.forward out used)
      (.forward out' used')
  | _, _ => False

variable (host method) in
/-- The loop treats both sides alike.

**Proof sketch.** Induction on the fields; the outcomes of the first field and those of the others
are of one kind each, and a field depends only on the values that its own header is entitled to. -/
theorem swapFields_rel (h : List.Forall₂ SameButValue secrets secrets') (headers : HeaderList) :
    FieldsRel secrets secrets' host method headers
      (swapFields (deriveState secrets) host method headers)
      (swapFields (deriveState secrets') host method headers) := by
  induction headers with
  | nil => exact ⟨.nil, rfl, by simp⟩
  | cons hd headers ih =>
    obtain ⟨name, value⟩ := hd
    have hfield := swapValue_rel host method h name value
    rw [swapFields, swapFields]
    revert hfield
    rcases swapValue (deriveState secrets) host method name value with s | np <;>
      rcases swapValue (deriveState secrets') host method name value with t | np'
    · exact id
    · exact False.elim
    · exact False.elim
    · intro hfield
      revert ih
      rcases swapFields (deriveState secrets) host method headers with s | ou <;>
        rcases swapFields (deriveState secrets') host method headers with t | ou'
      · exact id
      · exact False.elim
      · exact False.elim
      · rintro ⟨hused, hlen, hout⟩
        refine ⟨List.rel_append hfield.1 hused, by simp [hlen], fun i hd hi ha => ?_⟩
        cases i with
        | zero =>
          obtain rfl : (name, value) = hd := by simpa using hi
          simp [hfield.2 ha]
        | succ i => simpa using hout i hd (by simpa using hi) ha

end Noninterference

/-! ## The law of the swap -/

section Law

variable {secrets : List ProxySecret} {host method : JsString}

theorem SwapRun.map_fst {headers out : HeaderList} {used : List ProxySecret}
    (h : SwapRun secrets host method headers out used) :
    out.map Prod.fst = headers.map Prod.fst := by
  induction h with
  | nil => rfl
  | cons _ _ _ ih => simp [ih]

theorem SwapsTo.eq_of_nil {lower value next : JsString} (h : SwapsTo lower value next []) :
    next = value := by
  cases h
  rfl

theorem SwapRun.unchanged {headers out : HeaderList} {used : List ProxySecret}
    (h : SwapRun secrets host method headers out used) (i : ℕ) (hd : JsString × JsString)
    (hi : headers[i]? = some hd) (hno : ∀ s ∈ used, ¬ formNames s hd.1.toLowerCase) :
    out[i]? = some hd := by
  induction h generalizing i with
  | nil => simp at hi
  | @cons name value next swapped used headers out hswap hent hrest ih =>
    cases i with
    | zero =>
      obtain rfl : (name, value) = hd := by simpa using hi
      have hnil : swapped = [] := by
        refine List.eq_nil_iff_forall_not_mem.mpr fun s hs => ?_
        exact hno s (List.mem_append_left _ hs) (hent s hs).names
      subst hnil
      simp [hswap.eq_of_nil]
    | succ i =>
      simpa using ih i (by simpa using hi) fun s hs => hno s (List.mem_append_right _ hs)

/-- **Soundness of the swap.** For every set of held secrets, host, method and header list:

* a forwarded request is the given one, field by field and in order, where each field is unchanged
  or has the values of entitled secrets in place of their placeholders, and `used` lists exactly
  these secrets; a header that no used secret's form names is unchanged;
* a request that carries, in the header its form names, the placeholder of a secret that does not
  list the host is refused, because of such a secret; and a carried placeholder of an entitled
  secret is among the used ones;
* the values of the secrets influence the result only in the headers where they are entitled to
  stand, so nowhere for another host or a refused method.

Placeholders of different secrets are different (they are message authentication codes of scope,
name and generation); the second part says so of the secret it is about. -/
theorem swapPlaceholders_sound (secrets : List ProxySecret) (host method : JsString)
    (headers : HeaderList) :
    (∀ out used, swapPlaceholders (deriveState secrets) host method headers = .forward out used →
        SwapRun secrets host method headers out used ∧
        out.map Prod.fst = headers.map Prod.fst ∧
        ∀ (i : ℕ) (hd : JsString × JsString), headers[i]? = some hd →
          (∀ s ∈ used, ¬ formNames s hd.1.toLowerCase) → out[i]? = some hd) ∧
    (∀ name value, (name, value) ∈ headers → ∀ s ∈ secrets,
        (∀ t ∈ secrets, t.placeholder = s.placeholder → t = s) →
        formNames s name.toLowerCase → Carries secrets name.toLowerCase value s.placeholder →
        (host ∉ s.hosts → ∃ t ∈ secrets, host ∉ t.hosts ∧
          swapPlaceholders (deriveState secrets) host method headers = .forbidden t) ∧
        ∀ out used, swapPlaceholders (deriveState secrets) host method headers =
          .forward out used → Entitled secrets host method name.toLowerCase s → s ∈ used) ∧
    ∀ secrets', List.Forall₂ SameButValue secrets secrets' →
      SwapIndistinguishable secrets secrets' host method headers
        (swapPlaceholders (deriveState secrets) host method headers)
        (swapPlaceholders (deriveState secrets') host method headers) := by
  refine ⟨fun out used h => ?_, fun name value hmem s hs huniq hnames hcarry => ⟨?_, ?_⟩,
    fun secrets' hrel => ?_⟩
  · have hrun := swapFields_sound (swapFields_of_forward h)
    exact ⟨hrun, hrun.map_fst, hrun.unchanged⟩
  · intro hhost
    have herror : ∃ t, swapValue (deriveState secrets) host method name value = .error t :=
      (swapValue_of_carries hs huniq hnames hcarry).1 hhost
    obtain ⟨t, ht⟩ := swapFields_of_error hmem herror
    obtain ⟨htmem, hthost⟩ := swapFields_error ht
    exact ⟨t, htmem, hthost, by rw [swapPlaceholders_eq, ht]⟩
  · intro out used h hent
    obtain ⟨next, pushed, hv, hsub⟩ := swapFields_pushed hmem (swapFields_of_forward h)
    exact hsub ((swapValue_of_carries hs huniq hnames hcarry).2 hent next pushed hv)
  · have hfields := swapFields_rel host method hrel headers
    rw [swapPlaceholders_eq, swapPlaceholders_eq]
    revert hfields
    cases swapFields (deriveState secrets) host method headers <;>
      cases swapFields (deriveState secrets') host method headers <;> exact id

end Law

end Isomux
