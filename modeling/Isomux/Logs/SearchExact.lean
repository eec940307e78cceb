import Isomux.Logs.Search

set_option autoImplicit false

/-!
# The shortcuts of the search

A search that looks at every entry and keeps every hit is slow, and says the same. The lines that are not
parsed have no hit, since the lower case of a line has the lower case of every plain text that the lower
case of its content has. The hits that are cut off the buffer are older than as many as are asked for.

## Main results

* `Isomux.LogSearch.isInfix_line` — no line that matches is skipped.
* `Isomux.LogSearch.searchLogs_exact` — the search says what matches.
-/

namespace Isomux.LogSearch

/-! ## The prefilter -/

/-- What is read from a line was written by `JSON.stringify`. -/
def IsStringified (line : JsString) : Prop := ∀ v, Json.parse line = some v → line = v.text

lemma isStringified_text (v : Json) : IsStringified v.text := fun w hw => by
  rw [Json.parse_text] at hw
  rw [Option.some.inj hw]

lemma indexOf_isSome_iff {text pattern : JsString} :
    (indexOf text pattern 0).isSome ↔ pattern <:+: text := by
  rw [indexOf, List.find?_isSome]
  constructor
  · rintro ⟨k, -, hk⟩
    exact (List.isPrefixOf_iff_prefix.1 hk).isInfix.trans (List.drop_suffix k text).isInfix
  · rintro ⟨front, back, rfl⟩
    refine ⟨front.length, List.mem_range'_1.2 ⟨Nat.zero_le _, ?_⟩, List.isPrefixOf_iff_prefix.2 ?_⟩
    · simp only [List.length_append]
      omega
    · rw [List.append_assoc, List.drop_left]
      exact List.prefix_append pattern back

lemma length_jsonEscape {s : JsString} : s.length ≤ (jsonEscape s).length ∧
    ((jsonEscape s).length = s.length → 34 ∉ s ∧ 92 ∉ s) := by
  obtain ⟨texts, htexts, heq⟩ := jsonEscape_units s
  rw [heq]
  clear heq
  induction htexts with
  | nil => exact ⟨Nat.le_refl _, fun _ => ⟨List.not_mem_nil, List.not_mem_nil⟩⟩
  | @cons c text s texts hunit _ ih =>
    have hlong : 1 ≤ text.length ∧ (text.length = 1 → c ≠ 34 ∧ c ≠ 92) := by
      cases hunit with
      | raw hquote hslash => exact ⟨Nat.le_refl _, fun _ => ⟨hquote, hslash⟩⟩
      | short letter h => exact ⟨by simp, fun h => absurd h (by simp)⟩
      | unicode => exact ⟨by simp [unicodeEscape], fun h => absurd h (by simp [unicodeEscape])⟩
    rw [List.flatten_cons, List.length_append, List.length_cons]
    refine ⟨by omega, fun hlength => ?_⟩
    obtain ⟨hquote, hslash⟩ := hlong.2 (by omega)
    obtain ⟨hquotes, hslashes⟩ := ih.2 (by omega)
    exact ⟨fun h => (List.mem_cons.1 h).elim (fun h => hquote h.symm) hquotes,
      fun h => (List.mem_cons.1 h).elim (fun h => hslash h.symm) hslashes⟩

lemma isPlainUnit_of_canPrefilter {q : JsString} (h : canPrefilter q = true) :
    q ≠ [] ∧ ∀ c ∈ q, IsPlainUnit c := by
  have hescape : jsonEscape q = q := by
    by_contra hne
    have hslice : ((jsonQuote q).drop 1).dropLast ≠ q := by
      rwa [jsonQuote, List.drop_one, List.tail_cons, List.dropLast_concat]
    rw [canPrefilter, if_pos hslice] at h
    exact Bool.false_ne_true h
  have hslice : ¬((jsonQuote q).drop 1).dropLast ≠ q := by
    rw [jsonQuote, List.drop_one, List.tail_cons, List.dropLast_concat, hescape]
    exact not_not_intro rfl
  rw [canPrefilter, if_neg hslice, Bool.and_eq_true, decide_eq_true_eq] at h
  obtain ⟨hquote, hslash⟩ := (length_jsonEscape (s := q)).2 (by rw [hescape])
  refine ⟨h.1, fun c hc => ?_⟩
  have hrange := List.all_eq_true.1 h.2 c hc
  rw [Bool.and_eq_true, decide_eq_true_eq, decide_eq_true_eq] at hrange
  refine ⟨hrange.1, UInt16.lt_of_le_of_lt hrange.2 (by decide), fun heq => ?_, fun heq => ?_⟩
  · exact hquote (heq ▸ hc)
  · exact hslash (heq ▸ hc)

lemma isPlainUnit_toLowerCase {table : CaseTable} {q : JsString} (h : ∀ c ∈ q, IsPlainUnit c) :
    ∀ c ∈ table.toLowerCase q, IsPlainUnit c := by
  intro c hc
  rw [CaseTable.toLowerCase_ascii fun d hd => (h d hd).2.1] at hc
  obtain ⟨d, hd, rfl⟩ := List.mem_map.1 hc
  split_ifs with hletter
  · have hnat : (UInt16.ofNat (d.toNat + 32)).toNat = d.toNat + 32 :=
      UInt16.toNat_ofNat_of_lt' (show d.toNat + 32 < 65536 by omega)
    refine ⟨?_, ?_, fun heq => ?_, fun heq => ?_⟩
    · rw [UInt16.le_iff_toNat_le, hnat]
      exact Nat.le_add_left 32 _
    · rw [UInt16.lt_iff_toNat_lt, hnat]
      show d.toNat + 32 < 128
      omega
    · have := congrArg UInt16.toNat heq
      rw [hnat] at this
      exact absurd this (show ¬d.toNat + 32 = 34 by omega)
    · have := congrArg UInt16.toNat heq
      rw [hnat] at this
      exact absurd this (show ¬d.toNat + 32 = 92 by omega)
  · rw [UInt16.ofNat_toNat]
    exact h d hd

/-- **No line that matches is skipped**: the lower case of the line has the lower case of the query. -/
theorem isInfix_line {table : CaseTable} {q line content : JsString} {entry : Json}
    (hq : canPrefilter q = true) (hline : IsStringified line) (hparse : Json.parse line = some entry)
    (hcontent : entry.str "content" = some content)
    (h : table.toLowerCase q <:+: table.toLowerCase content) :
    table.toLowerCase q <:+: table.toLowerCase line := by
  obtain ⟨front, back, htext⟩ := Json.exists_text hcontent
  rw [hline entry hparse, htext]
  exact CaseTable.isInfix_literal (isPlainUnit_toLowerCase (isPlainUnit_of_canPrefilter hq).2) h front back

/-! ## The plain search -/

section

variable (language : SearchLanguage) (sessionsMeta : JsMap JsString SessionMeta) (q : JsString)
  (re : Option RegExp) (query : LogQuery)

def plainHit (line sessionId : JsString) : Option SearchHit :=
  (Json.parse line).bind fun entry => findHit language sessionsMeta q re query entry sessionId

end

/-- What matches: every entry is read and looked at, and every hit is kept. -/
def plainHits (language : SearchLanguage) (source : LogSource) (agentId : JsString) (query : LogQuery) :
    List SearchHit :=
  let q := query.q.getD []
  let re := if query.regex then language.regExp q else none
  let sessionsMeta := source.readSessionsMeta agentId
  match query.session with
  | some session =>
    (reconstructTimeline source agentId session).filterMap fun entry =>
      findHit language sessionsMeta q re query entry session
  | none =>
    (source.listSessions agentId).flatMap fun s =>
      (source.streamLines agentId s.sessionId).filterMap fun line =>
        plainHit language sessionsMeta q re query line s.sessionId

/-- What a scan knows of the hits in what it went through: their number and the newest ones. -/
structure Found (limit : ℕ) (scan : Scan) (hits : List SearchHit) : Prop where
  keeps : Largest.Keeps SearchHit.timestamp limit scan.hits hits
  total : scan.totalMatches = hits.length

section

variable {language : SearchLanguage} {sessionsMeta : JsMap JsString SessionMeta} {q : JsString}
  {re : Option RegExp} {query : LogQuery} {late : ℕ → Bool} {scan : Scan} {hits : List SearchHit}

lemma Found.push {limit : ℕ} (h : Found limit scan hits) (hit : SearchHit) :
    Found limit (scan.push limit hit) (hits ++ [hit]) := by
  refine ⟨?_, ?_⟩
  · have hpushed := h.keeps.push hit
    unfold Scan.push
    dsimp only
    split_ifs
    · exact hpushed.cut
    · exact hpushed
  · rw [List.length_append, List.length_singleton, ← h.total]
    rfl

lemma Found.consider (h : Found query.limit scan hits) (raw : Json) (sessionId : JsString) :
    Found query.limit (consider language sessionsMeta q re query scan raw sessionId)
      (hits ++ (findHit language sessionsMeta q re query raw sessionId).toList) := by
  unfold LogSearch.consider
  cases findHit language sessionsMeta q re query raw sessionId with
  | none => exact (List.append_nil hits).symm ▸ h
  | some hit => exact h.push hit

lemma findHit_of_id {raw : Json} (h : raw.str "id" = none) (sessionId : JsString) :
    findHit language sessionsMeta q re query raw sessionId = none := by
  rw [findHit, normalizeEntry, h]

lemma exists_content {raw : Json} {sessionId : JsString} {hit : SearchHit}
    (h : findHit language sessionsMeta q none query raw sessionId = some hit) :
    language.caseTable.toLowerCase q <:+: language.caseTable.toLowerCase ((raw.str "content").getD []) := by
  unfold findHit normalizeEntry at h
  split at h
  · cases h
  · rename_i entry hentry
    have hcontent : entry.content = (raw.str "content").getD [] := by
      split at hentry
      · cases hentry
      · split_ifs at hentry
        split at hentry
        · cases hentry
        · rw [← Option.some.inj hentry]
    split_ifs at h
    obtain ⟨found, hfound, -⟩ := Option.map_eq_some_iff.1 h
    obtain ⟨idx, hidx, -⟩ := Option.map_eq_some_iff.1 hfound
    rw [← hcontent]
    exact indexOf_isSome_iff.1 (Option.isSome_iff_exists.2 ⟨idx, hidx⟩)

lemma plainHit_of_skipped {line : JsString} (hline : IsStringified line) (hq : canPrefilter q = true)
    (hskip : ¬language.caseTable.toLowerCase q <:+: language.caseTable.toLowerCase line)
    (sessionId : JsString) : plainHit language sessionsMeta q none query line sessionId = none := by
  refine Option.eq_none_iff_forall_ne_some.2 fun hit hhit => ?_
  obtain ⟨entry, hparse, hfind⟩ := Option.bind_eq_some_iff.1 hhit
  have hin := exists_content hfind
  cases hcontent : entry.str "content" with
  | none =>
    have hne : language.caseTable.toLowerCase q ≠ [] := by
      obtain ⟨hne, hunits⟩ := isPlainUnit_of_canPrefilter hq
      rw [CaseTable.toLowerCase_ascii fun c hc => (hunits c hc).2.1]
      exact fun hmap => hne (List.map_eq_nil_iff.1 hmap)
    rw [hcontent] at hin
    exact hne (List.infix_nil.1 hin)
  | some content =>
    rw [hcontent] at hin
    exact hskip (isInfix_line hq hline hparse hcontent hin)

/-- **A line, read or skipped**, leaves the scan with what the line has. -/
theorem Found.scanLine (h : Found query.limit scan hits) {line : JsString} (hline : IsStringified line)
    (sessionId : JsString) :
    Found query.limit
      (scanLine language sessionsMeta q re query
        (if re.isNone && canPrefilter q then some (language.caseTable.toLowerCase q) else none)
        scan line sessionId)
      (hits ++ (plainHit language sessionsMeta q re query line sessionId).toList) := by
  have hskip : plainHit language sessionsMeta q re query line sessionId = none →
      Found query.limit scan
        (hits ++ (plainHit language sessionsMeta q re query line sessionId).toList) := fun hnone => by
    rw [hnone, Option.toList_none, List.append_nil]
    exact h
  unfold LogSearch.scanLine
  by_cases hempty : line = []
  · rw [if_pos hempty]
    exact hskip (by rw [plainHit, hempty]; rfl)
  rw [if_neg hempty]
  generalize hprefiltered : (if re.isNone && canPrefilter q then
    some (language.caseTable.toLowerCase q) else none) = prefiltered
  by_cases hout : prefiltered.any fun p => (indexOf (language.caseTable.toLowerCase line) p 0).isNone
  · -- the line is skipped: a hit would show in its lower case
    rw [if_pos hout]
    by_cases hplain : (re.isNone && canPrefilter q) = true
    · obtain ⟨hre, hq⟩ := Bool.and_eq_true_iff.1 hplain
      obtain rfl := Option.isNone_iff_eq_none.1 hre
      rw [← hprefiltered, if_pos hplain, Option.any_some, Option.isNone_iff_eq_none] at hout
      refine hskip (plainHit_of_skipped hline hq (fun hin => ?_) sessionId)
      have hsome := indexOf_isSome_iff.2 hin
      rw [hout] at hsome
      exact Bool.false_ne_true hsome
    · rw [← hprefiltered, if_neg hplain] at hout
      exact absurd hout Bool.false_ne_true
  rw [if_neg hout]
  cases hparse : Json.parse line with
  | none => exact hskip (by rw [plainHit, hparse]; rfl)
  | some entry =>
    dsimp only
    by_cases hid : (entry.str "id").isNone = true
    · rw [if_pos hid]
      refine hskip ?_
      rw [plainHit, hparse]
      exact findHit_of_id (Option.isNone_iff_eq_none.1 hid) sessionId
    · rw [if_neg hid, plainHit, hparse]
      exact h.consider entry sessionId

/-! ## The whole scan -/

section

variable {ι : Type} {visit : Scan → ι → Scan} {limit : ℕ}

lemma foldl_timedOut (h : scan.timedOut = true) (items : List ι) :
    items.foldl (untilLate late visit) scan = scan := by
  induction items with
  | nil => rfl
  | cons i items ih =>
    rw [List.foldl_cons, untilLate, if_pos h]
    exact ih

/-- **The run of a scan** that was not stopped. -/
theorem Found.foldl (hitOf : ι → Option SearchHit) (items : List ι)
    (hvisit : ∀ i ∈ items, ∀ scan hits, Found limit scan hits →
      Found limit (visit scan i) (hits ++ (hitOf i).toList))
    (h : Found limit scan hits) (hintime : (items.foldl (untilLate late visit) scan).timedOut = false) :
    Found limit (items.foldl (untilLate late visit) scan) (hits ++ items.filterMap hitOf) := by
  induction items generalizing scan hits with
  | nil => rwa [List.filterMap_nil, List.append_nil]
  | cons i items ih =>
    have hgo : untilLate late visit scan i = visit { scan with looks := scan.looks + 1 } i := by
      unfold untilLate
      by_cases hout : scan.timedOut = true
      · rw [foldl_timedOut hout, hout] at hintime
        exact absurd hintime nofun
      by_cases hlate : late scan.looks = true
      · rw [List.foldl_cons, untilLate, if_neg hout, if_pos hlate, foldl_timedOut rfl] at hintime
        exact absurd hintime nofun
      rw [if_neg hout, if_neg hlate]
    rw [List.foldl_cons, hgo] at hintime ⊢
    have hstep := hvisit i List.mem_cons_self { scan with looks := scan.looks + 1 } hits
      ⟨h.keeps, h.total⟩
    have hrest := ih (fun j hj => hvisit j (List.mem_cons_of_mem i hj)) hstep hintime
    cases hhit : hitOf i with
    | none =>
      rw [hhit, Option.toList_none, List.append_nil] at hrest
      rwa [List.filterMap_cons_none hhit]
    | some hit =>
      rw [hhit, Option.toList_some, List.append_assoc, List.singleton_append] at hrest
      rwa [List.filterMap_cons_some hhit]

end

lemma Found.start (limit : ℕ) : Found limit Scan.start [] := ⟨Largest.keeps_nil, rfl⟩

theorem Found.scanTimeline {source : LogSource} {agentId session : JsString}
    (hintime :
      (scanTimeline language sessionsMeta q re query source agentId late session).timedOut = false) :
    Found query.limit (scanTimeline language sessionsMeta q re query source agentId late session)
      ((reconstructTimeline source agentId session).filterMap fun entry =>
        findHit language sessionsMeta q re query entry session) :=
  Found.foldl _ _ (fun entry _ _ _ h => h.consider entry session) (Found.start _) hintime

theorem Found.scanSessions {source : LogSource} {agentId : JsString}
    (hlines : ∀ s ∈ source.listSessions agentId, ∀ line ∈ source.streamLines agentId s.sessionId,
      IsStringified line)
    (hintime : (scanSessions language sessionsMeta q re query source agentId late).timedOut = false) :
    ∃ all, all.Perm ((source.listSessions agentId).flatMap fun s =>
        (source.streamLines agentId s.sessionId).filterMap fun line =>
          plainHit language sessionsMeta q re query line s.sessionId) ∧
      Found query.limit (scanSessions language sessionsMeta q re query source agentId late) all := by
  refine ⟨_, ?_, Found.foldl
    (fun line : JsString × JsString => plainHit language sessionsMeta q re query line.1 line.2) _
    (fun line hline _ _ h => ?_) (Found.start _) hintime⟩
  · rw [List.nil_append, List.filterMap_flatMap]
    simp only [List.filterMap_map]
    exact (Largest.sorted_perm _).flatMap_right _
  · obtain ⟨s, hs, hline⟩ := List.mem_flatMap.1 hline
    obtain ⟨text, htext, rfl⟩ := List.mem_map.1 hline
    exact h.scanLine (hlines s ((Largest.sorted_perm _).mem_iff.1 hs) text htext) s.sessionId

lemma exists_found {source : LogSource} {agentId : JsString}
    (hlines : ∀ s ∈ source.listSessions agentId, ∀ line ∈ source.streamLines agentId s.sessionId,
      IsStringified line)
    (hintime : (searchLogs language source agentId query late).timedOut = false) :
    ∃ hits scan, hits.Perm (plainHits language source agentId query) ∧ Found query.limit scan hits ∧
      (searchLogs language source agentId query late).totalMatches = some scan.totalMatches ∧
      (searchLogs language source agentId query late).results =
        Largest.cut SearchHit.timestamp query.limit scan.hits := by
  have htotal : ∀ (scan : Scan) (a b : Option ℕ), scan.timedOut = false →
      (if scan.timedOut = true then a else b) = b := fun scan a b h => by
    rw [h, if_neg Bool.false_ne_true]
  unfold searchLogs plainHits at *
  dsimp only at *
  cases hsession : query.session with
  | some session =>
    rw [hsession] at hintime
    exact ⟨_, _, List.Perm.refl _, Found.scanTimeline hintime, htotal _ _ _ hintime, rfl⟩
  | none =>
    rw [hsession] at hintime
    obtain ⟨hits, hperm, hfound⟩ := Found.scanSessions hlines hintime
    exact ⟨hits, _, hperm, hfound, htotal _ _ _ hintime, rfl⟩

end

/-- **The search says what matches**: when the time was enough, it counts all matches, and its results are
the newest of them, in descending order of their times, as many as were asked for. -/
theorem searchLogs_exact (language : SearchLanguage) (source : LogSource) (agentId : JsString)
    (query : LogQuery) (late : ℕ → Bool)
    (hlines : ∀ s ∈ source.listSessions agentId, ∀ line ∈ source.streamLines agentId s.sessionId,
      IsStringified line)
    (hintime : (searchLogs language source agentId query late).timedOut = false) :
    let result := searchLogs language source agentId query late
    let all := plainHits language source agentId query
    result.totalMatches = some all.length ∧
      (result.results.Pairwise fun a b => b.timestamp ≤ a.timestamp) ∧
      result.results.length = min query.limit all.length ∧
      (∃ rest, (result.results ++ rest).Perm all ∧
        ∀ hit ∈ result.results, ∀ other ∈ rest, other.timestamp ≤ hit.timestamp) ∧
      (canPrefilter (query.q.getD []) = true →
        ∀ s ∈ source.listSessions agentId, ∀ line ∈ source.streamLines agentId s.sessionId,
          ∀ entry content, Json.parse line = some entry → entry.str "content" = some content →
            (findMatch language content (query.q.getD []) none).isSome →
              (indexOf (language.caseTable.toLowerCase line)
                (language.caseTable.toLowerCase (query.q.getD [])) 0).isSome) := by
  intro result all
  obtain ⟨hits, scan, hperm, hscan, htotal, hresults⟩ := exists_found hlines hintime
  obtain ⟨hsorted, hlength, rest, hrest, hle⟩ := hscan.keeps.largest
  rw [← hresults] at hsorted hlength hrest hle
  refine ⟨?_, hsorted, ?_, ⟨rest, hrest.trans hperm, hle⟩, ?_⟩
  · rw [htotal, hscan.total, hperm.length_eq]
  · rw [hlength, hperm.length_eq]
  · intro hq s hs line hline entry content hparse hcontent hmatch
    obtain ⟨found, hfound⟩ := Option.isSome_iff_exists.1 hmatch
    obtain ⟨idx, hidx, -⟩ := Option.map_eq_some_iff.1 hfound
    have hin := indexOf_isSome_iff.1 (Option.isSome_iff_exists.2 ⟨idx, hidx⟩)
    exact indexOf_isSome_iff.2 (isInfix_line hq (hlines s hs line hline) hparse hcontent hin)

/-! ## A sample: the kelvin sign is a `k` in lower case -/

/-- Lower case of ASCII, of the kelvin sign and of the capital I with a dot, which becomes two. -/
def sampleLower (p : ℕ) : List ℕ :=
  if p = 0x212A then [107] else if p = 0x130 then [105, 0x307] else [if 65 ≤ p ∧ p ≤ 90 then p + 32 else p]

/-- The language, on the texts of the sample. -/
def sampleLanguage : SearchLanguage where
  caseTable :=
    { lower := sampleLower
      isFinalSigma := fun before behind => before ≠ [] && behind = []
      lower_ascii := fun p hp => by rw [sampleLower, if_neg (by omega), if_neg (by omega)]
      lower_surrogate := fun p hp hp' => by
        rw [sampleLower, if_neg (by omega), if_neg (by omega), if_neg (by omega)] }
  finiteNumber := fun literal => some (literal.1.foldl (fun n c => 10 * n + (c.toNat - 48)) 0 : ℕ)
  regExp := fun _ => none

def sampleEntry (id : String) (time : ℤ) (content : String) : Json :=
  .object [(js "id", .string (js id)), (js "timestamp", .ofInt time), (js "kind", .string (js "text")),
    (js "content", .string (js content))]

def sampleSource : LogSource where
  listSessions := fun _ => [⟨js "s1", 0⟩]
  readSessionsMeta := fun _ => []
  readEntries := fun _ _ => []
  streamLines := fun _ _ =>
    [(sampleEntry "log-1" 5 "the \"\u212a2\" by \u0130").text, (sampleEntry "log-2" 6 "no hill").text]

def sampleQuery : LogQuery where
  q := some (js "k2")
  regex := false
  before := none
  after := none
  session := none
  kinds := none
  tier := some .full
  limit := 20

theorem searchLogs_exact_kelvin :
    (searchLogs sampleLanguage sampleSource (js "a1") sampleQuery fun _ => false).totalMatches = some 1 :=
  (searchLogs_exact sampleLanguage sampleSource (js "a1") sampleQuery (fun _ => false)
    (fun _ _ _ hline => by
      rcases List.mem_cons.1 hline with rfl | hline
      · exact isStringified_text _
      · rw [List.mem_singleton.1 hline]
        exact isStringified_text _)
    (by decide +kernel)).1.trans (by decide +kernel)

end Isomux.LogSearch
