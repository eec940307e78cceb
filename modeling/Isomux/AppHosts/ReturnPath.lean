import Isomux.AppHosts.Containment

set_option autoImplicit false

/-!
# The return path of the handshake

A caller without a session is sent to the mint of the office, with the path and the query of its request
to return to, and the mint refuses what could be no path of the host. The bounce does not look whether it
will: it sends a path that begins with two slashes, a query with a backslash and a path that is too long
all the same.

## Main results

* `AppHosts.bounce_accepted_iff` — when the mint takes what the bounce sends.
-/

namespace Isomux.AppHosts

def MAX_RETURN_PATH_LENGTH : ℕ := 2048

/-- The path to return to, unless it is refused. -/
def validateReturnPath : Option JsString → Option JsString
  | none => some (js "/")
  | some raw =>
    if raw.length = 0 || MAX_RETURN_PATH_LENGTH < raw.length then none
    else if !(js "/").isPrefixOf raw || (js "//").isPrefixOf raw then none
    else if raw.any fun code => code ≤ 0x20 || 0x7F ≤ code then none
    else if raw.contains 92 || raw.contains 35 then none
    else some raw

def returnPathOf (url : Url) : JsString := url.pathname ++ url.search

/-- What the parser leaves of the URL of a request: a path behind a slash, in which every backslash has
become a slash, and a query behind a question mark, if there is one. Both are printable and without a
space, and the fragment is cut off. -/
structure Url.Parsed (url : Url) : Prop where
  pathname : ∃ rest, url.pathname = 47 :: rest
  backslash : 92 ∉ url.pathname
  search : url.search = [] ∨ ∃ rest, url.search = 63 :: rest
  printable : ∀ c ∈ returnPathOf url, 0x20 < c ∧ c < 0x7F ∧ c ≠ 35

/-- What the mint takes of the return paths of a bounce. -/
def Returns (url : Url) : Prop :=
  ¬js "//" <+: url.pathname ∧ 92 ∉ url.search ∧ (returnPathOf url).length ≤ MAX_RETURN_PATH_LENGTH

section Bounce

variable {url : Url} {office : Surroundings} {req : Request} {label : JsString}
  {rawCookie : Option JsString} {upgrade : Bool} {response : Response}

lemma Url.Parsed.slashes (h : url.Parsed) :
    (js "//").isPrefixOf (returnPathOf url) = true ↔ js "//" <+: url.pathname := by
  obtain ⟨rest, hpath⟩ := h.pathname
  rw [List.isPrefixOf_iff_prefix, returnPathOf, hpath]
  cases rest with
  | cons c rest =>
    have hprefix : ∀ tail : JsString, js "//" <+: 47 :: c :: tail ↔ c = 47 := by
      intro tail
      rw [show js "//" = [47, 47] from rfl, List.cons_prefix_cons, List.cons_prefix_cons]
      simp [eq_comm]
    rw [List.cons_append, List.cons_append, hprefix, hprefix]
  | nil =>
    -- the query begins with a question mark
    rcases h.search with hsearch | ⟨tail, hsearch⟩
    · rw [hsearch, List.append_nil]
    · rw [hsearch, show js "//" = [47, 47] from rfl]
      simp

/-- **The mint takes a return path** when it does not begin with two slashes, has no backslash and is
not too long. -/
theorem validateReturnPath_iff (h : url.Parsed) :
    validateReturnPath (some (returnPathOf url)) = some (returnPathOf url) ↔ Returns url := by
  obtain ⟨rest, hpath⟩ := h.pathname
  have hslash : (js "/").isPrefixOf (returnPathOf url) = true := by
    rw [returnPathOf, hpath]
    rfl
  have hprintable : ((returnPathOf url).any fun code => code ≤ 0x20 || 0x7F ≤ code) = false := by
    rw [List.any_eq_false]
    intro c hc
    obtain ⟨hlow, hhigh, -⟩ := h.printable c hc
    simp [UInt16.not_le.2 hlow, UInt16.not_le.2 hhigh]
  have hhash : (returnPathOf url).contains 35 = false := by
    rw [Bool.eq_false_iff, ne_eq, List.contains_iff_mem]
    exact fun hmem => (h.printable 35 hmem).2.2 rfl
  have hbackslash : (returnPathOf url).contains 92 = true ↔ 92 ∈ url.search := by
    rw [List.contains_iff_mem, returnPathOf, List.mem_append, or_iff_right h.backslash]
  have hlength : (returnPathOf url).length ≠ 0 := by
    rw [returnPathOf, hpath]
    simp
  rw [validateReturnPath, hslash, hprintable, hhash, Returns]
  simp only [hlength, decide_false, Bool.false_or, Bool.not_true, Bool.or_false, decide_eq_true_eq,
    Bool.false_eq_true, if_false, h.slashes, hbackslash]
  split_ifs with hlong hslashes hback
  · exact iff_of_false nofun fun hreturns => absurd hreturns.2.2 (Nat.not_le.2 hlong)
  · exact iff_of_false nofun fun hreturns => hreturns.1 hslashes
  · exact iff_of_false nofun fun hreturns => hreturns.2.1 hback
  · exact iff_of_true rfl ⟨hslashes, hback, Nat.not_lt.1 hlong⟩

lemma exists_of_bounce (h : noAppSessionAnswer office req label rawCookie upgrade = .response response)
    (hstatus : response.status = 302) :
    ∃ app r lines, encodeURIComponent (returnPathOf req.url) = some r ∧
      response = handshakeRedirect
        (office.origin ++ APP_MINT_PATH ++ js "?app=" ++ app ++ js "&r=" ++ r) lines := by
  unfold noAppSessionAnswer at h
  dsimp only at h
  split at h
  · obtain rfl := Answer.response.inj h
    exact absurd (show 401 = 302 from hstatus) (by decide)
  · split at h
    · obtain rfl := Answer.response.inj h
      exact absurd (show 401 = 302 from hstatus) (by decide)
    · split at h
      · rename_i app r _ hr
        exact ⟨app, r, _, hr, (Answer.response.inj h).symm⟩
      · exact nomatch h

/-- **The bounce and the mint agree** on exactly these return paths. -/
theorem bounce_accepted_iff (hurl : req.url.Parsed)
    (h : noAppSessionAnswer office req label rawCookie upgrade = .response response)
    (hstatus : response.status = 302) :
    ∃ app r lines, encodeURIComponent (returnPathOf req.url) = some r ∧
      response = handshakeRedirect
        (office.origin ++ APP_MINT_PATH ++ js "?app=" ++ app ++ js "&r=" ++ r) lines ∧
      (validateReturnPath (some (returnPathOf req.url)) = some (returnPathOf req.url) ↔
        Returns req.url) := by
  obtain ⟨app, r, lines, hr, hresponse⟩ := exists_of_bounce h hstatus
  exact ⟨app, r, lines, hr, hresponse, validateReturnPath_iff hurl⟩

end Bounce

/-! ### A path that begins with two slashes -/

/-- The path of a request that begins with two slashes. -/
def slashesUrl : Url := ⟨js "//page", [], []⟩

theorem bounce_refused :
    ¬∀ (office : Surroundings) (req : Request) (label : JsString) (rawCookie : Option JsString)
      (upgrade : Bool) (response : Response), req.url.Parsed →
      noAppSessionAnswer office req label rawCookie upgrade = .response response →
      response.status = 302 →
      validateReturnPath (some (returnPathOf req.url)) = some (returnPathOf req.url) := by
  intro h
  have hparsed : slashesUrl.Parsed := by
    refine ⟨⟨_, rfl⟩, by decide, .inl rfl, by decide⟩
  have hvalid := h exampleOffice ⟨js "GET", [], slashesUrl⟩ (js "hello") none false _ hparsed rfl rfl
  exact nomatch hvalid

theorem bounce_accepted_query :
    let url : Url := ⟨js "/docs", js "?page=2", [(js "page", js "2")]⟩
    ∃ app r lines, encodeURIComponent (js "/docs?page=2") = some r ∧
      handshakeRedirect (js "https://office.example" ++ APP_MINT_PATH ++ js "?app=" ++ js "hello" ++
        js "&r=" ++ js "%2Fdocs%3Fpage%3D2") [] = handshakeRedirect
          (js "https://office.example" ++ APP_MINT_PATH ++ js "?app=" ++ app ++ js "&r=" ++ r) lines ∧
      (validateReturnPath (some (js "/docs?page=2")) = some (js "/docs?page=2") ↔ Returns url) := by
  intro url
  have hparsed : url.Parsed := ⟨⟨_, rfl⟩, by decide, .inr ⟨_, rfl⟩, by decide⟩
  exact @bounce_accepted_iff exampleOffice ⟨js "GET", [], url⟩ (js "hello") none false _ hparsed rfl rfl

end Isomux.AppHosts
