import Isomux.Logs.Transcripts
import Mathlib.Data.List.DropRight

set_option autoImplicit false

/-!
# Loading a transcript with a torn line

`loadLog` reads a transcript line by line, and a line that is no JSON makes it give up the whole
transcript. An append that was cut leaves such a line, unless only its line feed is missing, and the
next append is joined to what is there. So the torn line costs the complete lines too.

## Main results

* `Isomux.loadLog_lines` — complete lines are all read.
* `Isomux.torn_append_harmless_iff` — when nothing but the torn line is lost.
-/

namespace Isomux

open Disk

/-! ## The reader -/

def EXT_TO_MIME : List (JsString × JsString) :=
  [(js "jpg", js "image/jpeg"), (js "jpeg", js "image/jpeg"), (js "png", js "image/png"),
    (js "gif", js "image/gif"), (js "webp", js "image/webp"), (js "svg", js "image/svg+xml"),
    (js "pdf", js "application/pdf"), (js "txt", js "text/plain"), (js "md", js "text/markdown"),
    (js "json", js "application/json"), (js "csv", js "text/csv"), (js "xml", js "text/xml"),
    (js "html", js "text/html"), (js "css", js "text/css"), (js "yaml", js "text/yaml"),
    (js "yml", js "text/yaml"), (js "mp4", js "video/mp4"), (js "m4v", js "video/mp4"),
    (js "webm", js "video/webm"), (js "mov", js "video/quicktime"), (js "ogv", js "video/ogg"),
    (js "mp3", js "audio/mpeg"), (js "m4a", js "audio/mp4"), (js "aac", js "audio/aac"),
    (js "wav", js "audio/wav"), (js "ogg", js "audio/ogg"), (js "oga", js "audio/ogg"),
    (js "opus", js "audio/ogg"), (js "flac", js "audio/flac")]

def DEFAULT_MIME : JsString := js "application/octet-stream"

/-- The type of a file by its name. What every object inherits is found among the types too: a
function, which JSON leaves out, and an object without fields. -/
def mimeTypeForFilename (filename : JsString) : Option Json :=
  let suffix := (filename.reverse.takeWhile (· ≠ 46)).reverse
  let ext := JsString.toLowerCase suffix
  -- the last dot is missing, or the first unit
  if filename.length ≤ suffix.length + 1 then some (.string DEFAULT_MIME)
  else if ext = js "constructor" then none
  else if ext = js "__proto__" then some (.object [])
  else some (.string (((EXT_TO_MIME.find? (·.1 = ext)).map Prod.snd).getD DEFAULT_MIME))

def legacyAttachment (filename : JsString) : Json :=
  .object ([(js "filename", .string filename), (js "originalName", .string filename)] ++
    ((mimeTypeForFilename filename).map fun mime => (js "mediaType", mime)).toList ++
      [(js "size", .number ⟨js "0", by decide⟩)])

/-- The attachments of legacy images, which are strings. -/
def legacyAttachments : List Json → Option (List Json)
  | [] => some []
  | .string filename :: images => (legacyAttachments images).map (legacyAttachment filename :: ·)
  | _ :: _ => none

/-- `entry[name] = value`. -/
def setField (fields : LogEntry) (name : JsString) (value : Json) : LogEntry :=
  if fields.any fun f => f.1 = name then
    fields.map fun f => if f.1 = name then (name, value) else f
  else fields ++ [(name, value)]

/-- An entry with the images of old entries as attachments. It throws on `null`. -/
def convertImages : Json → Option Json
  | .null => none
  | .object fields =>
    match (Json.object fields).field "images" with
    | none => some (.object fields)
    | some images =>
      if images.isTruthy && !((Json.object fields).field "attachments").any (·.isTruthy) then
        match images with
        | .array names =>
          (legacyAttachments names).map fun attachments =>
            .object ((setField fields (js "attachments") (.array attachments)).filter
              fun f => f.1 ≠ js "images")
        | _ => none
      else some (.object fields)
  | entry => some entry

/-- A line of the transcript as an entry. It throws when the line is no JSON. -/
def loadLine (line : JsString) : Option Json := (Json.parse line).bind convertImages

/-- `loadLog`. Whatever throws, the transcript is empty then. -/
def loadLog (gunzip : Buffer → Option Buffer) (d : SessionFolder) : List Json :=
  match resolveTranscript d with
  | none => []
  | some logFile =>
    match readTranscriptSync gunzip d logFile with
    | none => []
    | some text =>
      let content := text.trim
      if content = [] then [] else ((content.splitOn 10).mapM loadLine).getD []

/-- `appendLog`: an append with all that it does, or none of it. -/
def appendLog (gunzip : Buffer → Option Buffer) (keptTime : ℚ → ℚ) (d : SessionFolder)
    (append : LogEntry × ℚ) : SessionFolder :=
  match appendLogOrThrow gunzip keptTime d append.1 append.2 with
  | none => d
  | some calls => calls.foldl (fun d call => call.run d) d

/-- An entry goes to the file unless it is ephemeral. -/
def isPersisted (entry : LogEntry) : Bool := !((Json.object entry).field "ephemeral").any (·.isTruthy)

/-- The type of an entry, as far as the reader looks at it: old entries have images, and these are
strings. -/
def IsLogEntry (entry : LogEntry) : Prop :=
  ∀ images, (Json.object entry).field "images" = some images →
    ∃ names : List JsString, images = .array (names.map .string)

def loaded (entry : LogEntry) : Json := (convertImages (.object entry)).getD .null

/-! ## Lines -/

/-- Texts, each with a line feed behind it. -/
def joinLines (texts : List JsString) : JsString := texts.flatMap (· ++ [10])

/-- A text in front of which the reader does not trim: it starts with a brace. -/
def StartsObject (text : JsString) : Prop := ∃ more, text = 123 :: more

lemma startsObject_text (fields : List (JsString × Json)) : StartsObject (Json.object fields).text :=
  ⟨_, rfl⟩

lemma splitOn_joinLines {texts : List JsString} (h : ∀ text ∈ texts, 10 ∉ text) (rest : JsString) :
    (joinLines texts ++ rest).splitOn 10 = texts ++ rest.splitOn 10 := by
  induction texts with
  | nil => rfl
  | cons text texts ih =>
    have hstep : joinLines (text :: texts) ++ rest = text ++ 10 :: (joinLines texts ++ rest) := by
      simp [joinLines]
    rw [hstep, List.splitOn_append_cons_self_of_not_mem (h text List.mem_cons_self),
      ih fun t ht => h t (List.mem_cons_of_mem _ ht), List.cons_append]

lemma rdropWhile_append_brace (front more : JsString) :
    List.rdropWhile isJsWhitespace (front ++ 123 :: more) =
      front ++ List.rdropWhile isJsWhitespace (123 :: more) := by
  induction more using List.reverseRecOn with
  | nil => rw [List.rdropWhile_concat_neg _ _ _ (by decide)]; rfl
  | append_singleton more c ih =>
    rw [show front ++ 123 :: (more ++ [c]) = (front ++ 123 :: more) ++ [c] by simp,
      show 123 :: (more ++ [c]) = (123 :: more) ++ [c] from rfl]
    by_cases hc : isJsWhitespace c = true
    · rw [List.rdropWhile_concat_pos _ _ _ hc, List.rdropWhile_concat_pos _ _ _ hc, ih]
    · rw [List.rdropWhile_concat_neg _ _ _ hc, List.rdropWhile_concat_neg _ _ _ hc,
        List.append_assoc]

lemma trim_joinLines {texts : List JsString} {last : JsString} (hlast : StartsObject last)
    (htexts : ∀ text ∈ texts, StartsObject text) :
    JsString.trim (joinLines texts ++ last) =
      joinLines texts ++ List.rdropWhile isJsWhitespace last := by
  obtain ⟨more, rfl⟩ := hlast
  have hhead : ∃ rest, joinLines texts ++ 123 :: more = 123 :: rest := by
    cases texts with
    | nil => exact ⟨more, rfl⟩
    | cons text texts =>
      obtain ⟨rest, hrest⟩ := htexts text List.mem_cons_self
      exact ⟨rest ++ [10] ++ joinLines texts ++ 123 :: more, by simp [joinLines, hrest]⟩
  have hfront : List.dropWhile isJsWhitespace (joinLines texts ++ 123 :: more) =
      joinLines texts ++ 123 :: more := by
    obtain ⟨rest, hrest⟩ := hhead
    rw [hrest, List.dropWhile_cons_of_neg (by decide)]
  rw [JsString.trim, hfront]
  exact rdropWhile_append_brace _ _

lemma rdropWhile_text (fields : List (JsString × Json)) {tail : JsString}
    (htail : tail = [] ∨ tail = [10]) :
    List.rdropWhile isJsWhitespace ((Json.object fields).text ++ tail) =
      (Json.object fields).text := by
  have hlast : (Json.object fields).text = (123 :: Json.fieldsText fields) ++ [125] := rfl
  rcases htail with rfl | rfl
  · rw [List.append_nil, hlast, List.rdropWhile_concat_neg _ _ _ (by decide)]
  · rw [List.rdropWhile_concat_pos _ _ _ (by decide), hlast,
      List.rdropWhile_concat_neg _ _ _ (by decide)]

/-! ## What is loaded -/

section Load

variable {gunzip : Buffer → Option Buffer} {d : SessionFolder} {file : StoredFile ℚ}
  {entries : List LogEntry} {entry : LogEntry}

lemma legacyAttachments_strings (names : List JsString) :
    legacyAttachments (names.map .string) = some (names.map legacyAttachment) := by
  induction names with
  | nil => rfl
  | cons name names ih => rw [List.map_cons, legacyAttachments, ih]; rfl

lemma convertImages_entry (h : IsLogEntry entry) :
    convertImages (.object entry) = some (loaded entry) := by
  have hsome : (convertImages (.object entry)).isSome := by
    unfold convertImages
    dsimp only
    split
    · rfl
    · rename_i images himages
      obtain ⟨names, rfl⟩ := h images himages
      dsimp only
      split_ifs
      · rw [legacyAttachments_strings]
        rfl
      · rfl
  obtain ⟨v, hv⟩ := Option.isSome_iff_exists.1 hsome
  rw [loaded, hv, Option.getD_some]

lemma loadLine_text (h : IsLogEntry entry) :
    loadLine (Json.object entry).text = some (loaded entry) := by
  rw [loadLine, Json.parse_text, Option.bind_some, convertImages_entry h]

lemma mapM_loadLine_texts (h : ∀ entry ∈ entries, IsLogEntry entry) :
    (entries.map fun entry => (Json.object entry).text).mapM loadLine =
      some (entries.map loaded) := by
  induction entries with
  | nil => rfl
  | cons entry entries ih =>
    rw [List.map_cons, List.mapM_cons, loadLine_text (h entry List.mem_cons_self),
      ih fun e he => h e (List.mem_cons_of_mem _ he)]
    rfl

lemma mapM_loadLine_eq_none {lines : List JsString} {line : JsString} (hmem : line ∈ lines)
    (h : Json.parse line = none) : lines.mapM loadLine = none := by
  induction lines with
  | nil => cases hmem
  | cons first lines ih =>
    rw [List.mapM_cons]
    rcases List.mem_cons.1 hmem with rfl | hmem
    · rw [loadLine, h]
      rfl
    · rw [ih hmem]
      cases loadLine first <;> rfl

lemma loadLog_plain {texts : List JsString} {last : JsString} (hfile : d.files .plain = some file)
    (hread : Buffer.toUtf8String file.bytes = joinLines texts ++ last) (hlast : StartsObject last)
    (htexts : ∀ text ∈ texts, StartsObject text ∧ 10 ∉ text) :
    loadLog gunzip d =
      ((texts ++ (List.rdropWhile isJsWhitespace last).splitOn 10).mapM loadLine).getD [] := by
  have htrim := trim_joinLines hlast fun text htext => (htexts text htext).1
  have hne : joinLines texts ++ List.rdropWhile isJsWhitespace last ≠ [] := by
    intro hnil
    obtain ⟨more, rfl⟩ := hlast
    have hall := List.rdropWhile_eq_nil_iff.1 (List.append_eq_nil_iff.1 hnil).2
    exact absurd (hall 123 List.mem_cons_self) (by decide)
  rw [loadLog, resolveTranscript, hfile, Option.isSome_some, if_pos rfl]
  dsimp only
  rw [readTranscriptSync, readTranscriptBytes, hfile, Option.bind_some, if_neg (by decide),
    Option.map_some]
  dsimp only
  rw [hread, htrim, if_neg hne, splitOn_joinLines fun text htext => (htexts text htext).2]

lemma texts_entries (entries : List LogEntry) :
    ∀ text ∈ entries.map fun entry => (Json.object entry).text, StartsObject text ∧ 10 ∉ text := by
  intro text htext
  obtain ⟨entry, -, rfl⟩ := List.mem_map.1 htext
  exact ⟨startsObject_text entry, lineFeed_not_mem _⟩

lemma toUtf8String_linesBytes_append (entries : List LogEntry) (rest : Buffer) :
    Buffer.toUtf8String (linesBytes entries ++ rest) =
      joinLines (entries.map fun entry => (Json.object entry).text) ++ rest.toUtf8String := by
  rw [linesBytes, toUtf8String_lines, joinLines, List.flatMap_map]

/-- **Complete lines are all loaded.** -/
theorem loadLog_lines (hentries : ∀ entry ∈ entries, IsLogEntry entry)
    (hfile : d.files .plain = some file) (hbytes : file.bytes = linesBytes entries) :
    loadLog gunzip d = entries.map loaded := by
  rcases List.eq_nil_or_concat entries with rfl | ⟨front, last, rfl⟩
  · have htext : Buffer.toUtf8String file.bytes = [] := by rw [hbytes]; rfl
    rw [loadLog, resolveTranscript, hfile, Option.isSome_some, if_pos rfl]
    dsimp only
    rw [readTranscriptSync, readTranscriptBytes, hfile, Option.bind_some, if_neg (by decide),
      Option.map_some, htext]
    rfl
  · rw [List.concat_eq_append] at *
    have hline : Buffer.toUtf8String (lineBytes last) = (Json.object last).text ++ [10] := by
      have hread := toUtf8String_lines [last] []
      simpa [show Buffer.toUtf8String [] = [] from rfl] using hread
    have hread : Buffer.toUtf8String file.bytes =
        joinLines (front.map fun entry => (Json.object entry).text) ++
          ((Json.object last).text ++ [10]) := by
      rw [hbytes, linesBytes_append, linesBytes_singleton, toUtf8String_linesBytes_append, hline]
    rw [loadLog_plain hfile hread ⟨_, rfl⟩ (texts_entries front), rdropWhile_text last (Or.inr rfl),
      List.splitOn_eq_singleton (lineFeed_not_mem _)]
    have hmap := mapM_loadLine_texts hentries
    rw [List.map_append, List.map_singleton] at hmap
    rw [hmap, Option.getD_some]

lemma appendLog_plain {keptTime : ℚ → ℚ} (hfile : d.files .plain = some file)
    (append : LogEntry × ℚ) :
    ∃ file', (appendLog gunzip keptTime d append).files .plain = some file' ∧
      file'.bytes = file.bytes ++ linesBytes ([append.1].filter isPersisted) := by
  unfold appendLog appendLogOrThrow
  split_ifs with hephemeral
  · refine ⟨file, hfile, ?_⟩
    rw [List.filter_cons_of_neg (by rw [isPersisted, hephemeral]; decide)]
    exact (List.append_nil _).symm
  · have hrun : ((FileCall.append append.1 append.2).run d).files .plain =
        some ⟨file.bytes ++ lineBytes append.1, append.2, true⟩ := by
      rw [FileCall.run, Op.run, hfile]
      exact Function.update_self TranscriptName.plain _ d.files
    rw [inflateTranscript, hfile, Option.isSome_some, if_pos rfl]
    refine ⟨_, hrun, ?_⟩
    rw [Bool.not_eq_true] at hephemeral
    rw [List.filter_cons_of_pos (by rw [isPersisted, hephemeral]; decide), List.filter_nil,
      linesBytes_singleton]

/-- The entries of appends that go to the file. -/
def appended (later : List (LogEntry × ℚ)) : List LogEntry :=
  (later.map Prod.fst).filter isPersisted

lemma appendLogs_plain {keptTime : ℚ → ℚ} (later : List (LogEntry × ℚ))
    (hfile : d.files .plain = some file) :
    ∃ file', (later.foldl (appendLog gunzip keptTime) d).files .plain = some file' ∧
      file'.bytes = file.bytes ++ linesBytes (appended later) := by
  induction later generalizing d file with
  | nil => exact ⟨file, hfile, (List.append_nil _).symm⟩
  | cons append later ih =>
    have hstep : ∃ next, (appendLog gunzip keptTime d append).files .plain = some next ∧
        next.bytes = file.bytes ++ linesBytes ([append.1].filter isPersisted) :=
      appendLog_plain hfile append
    obtain ⟨next, hnext, hnextBytes⟩ := hstep
    obtain ⟨last, hlast, hlastBytes⟩ := ih hnext
    refine ⟨last, hlast, ?_⟩
    have happended : appended (append :: later) = [append.1].filter isPersisted ++ appended later :=
      List.filter_append (p := isPersisted) [append.1] (later.map Prod.fst)
    rw [hlastBytes, hnextBytes, happended, linesBytes_append, List.append_assoc]

lemma loadLog_joined {text more : JsString} {next : LogEntry} (hfile : d.files .plain = some file)
    (hread : Buffer.toUtf8String file.bytes =
      joinLines (entries.map fun entry => (Json.object entry).text) ++
        (text ++ ((Json.object next).text ++ 10 :: more)))
    (hbrace : StartsObject text) (hfeed : 10 ∉ text)
    (htext : text = (Json.object entry).text ∨ (Json.readerBehind text).Inside)
    (hmore : more = [] ∨ StartsObject more) : loadLog gunzip d = [] := by
  rw [← List.append_assoc text] at hread
  have hlast : StartsObject (text ++ (Json.object next).text ++ 10 :: more) := by
    obtain ⟨rest, rfl⟩ := hbrace
    exact ⟨rest ++ (Json.object next).text ++ 10 :: more, rfl⟩
  have hline : text ++ (Json.object next).text ∈
      (List.rdropWhile isJsWhitespace (text ++ (Json.object next).text ++ 10 :: more)).splitOn 10 := by
    have hfeeds : 10 ∉ text ++ (Json.object next).text := fun h =>
      (List.mem_append.1 h).elim hfeed (lineFeed_not_mem _)
    rcases hmore with rfl | ⟨rest, rfl⟩
    · have hend : text ++ (Json.object next).text = (text ++ 123 :: Json.fieldsText next) ++ [125] := by
        rw [List.append_assoc]
        rfl
      rw [List.rdropWhile_concat_pos _ _ _ (by decide), hend,
        List.rdropWhile_concat_neg _ _ _ (by decide), ← hend, List.splitOn_eq_singleton hfeeds]
      exact List.mem_cons_self
    · rw [show text ++ (Json.object next).text ++ 10 :: 123 :: rest =
          (text ++ (Json.object next).text ++ [10]) ++ 123 :: rest by simp,
        rdropWhile_append_brace, List.append_assoc _ [10], List.singleton_append,
        List.splitOn_append_cons_self_of_not_mem hfeeds]
      exact List.mem_cons_self
  rw [loadLog_plain hfile hread hlast (texts_entries entries),
    mapM_loadLine_eq_none (List.mem_append_right _ hline) (parse_joined htext next),
    Option.getD_none]

lemma loadLog_torn {text : JsString} (hfile : d.files .plain = some file)
    (hread : Buffer.toUtf8String file.bytes =
      joinLines (entries.map fun entry => (Json.object entry).text) ++ text)
    (hbrace : StartsObject text) (hfeed : 10 ∉ text) (htext : (Json.readerBehind text).Inside) :
    loadLog gunzip d = [] := by
  obtain ⟨gone, hgone⟩ := List.rdropWhile_prefix isJsWhitespace (l := text)
  have hfeed' : 10 ∉ List.rdropWhile isJsWhitespace text := fun h =>
    hfeed (hgone ▸ List.mem_append_left gone h)
  -- what is left of the part is open as well
  have hinside : (Json.readerBehind (List.rdropWhile isJsWhitespace text)).Inside := by
    obtain ⟨more, rfl⟩ := hbrace
    cases hleft : List.rdropWhile isJsWhitespace (123 :: more) with
    | nil => exact absurd (List.rdropWhile_eq_nil_iff.1 hleft 123 List.mem_cons_self) (by decide)
    | cons c left =>
      rw [hleft] at hgone
      obtain rfl : c = 123 := (List.cons.inj hgone).1
      rw [← hgone] at htext
      exact inside_of_prefix htext
  rw [loadLog_plain hfile hread hbrace (texts_entries entries), List.splitOn_eq_singleton hfeed',
    mapM_loadLine_eq_none (List.mem_append_right _ List.mem_cons_self) (parse_torn hinside),
    Option.getD_none]

/-- **What a torn line costs.** The file of a session has complete lines and a part of one more, and
entries are appended to it. All the complete lines and all that was appended are loaded exactly when
nothing of the line was written, or nothing was appended behind it and it is whole or the first one.

**Proof sketch.** Where something is appended behind the part, the first line of it is joined to the
part, and the two are no JSON. Where nothing is, the part itself is the last line; it is trimmed, and
that is no JSON either, unless only the line feed was missing. In both cases nothing is loaded. -/
theorem torn_append_harmless_iff {keptTime : ℚ → ℚ} {torn : Buffer} {later : List (LogEntry × ℚ)}
    (hentries : ∀ entry ∈ entries, IsLogEntry entry) (hentry : IsLogEntry entry)
    (hlater : ∀ append ∈ later, IsLogEntry append.1) (hfile : d.files .plain = some file)
    (hbytes : file.bytes = linesBytes entries ++ torn) (hstart : torn <+: lineBytes entry)
    (hcut : torn ≠ lineBytes entry) :
    List.Sublist ((entries ++ appended later).map loaded)
        (loadLog gunzip (later.foldl (appendLog gunzip keptTime) d)) ↔
      torn = [] ∨ appended later = [] ∧
        (torn = (Json.object entry).text.toUtf8 ∨ entries = []) := by
  have hreach : ∃ file', (later.foldl (appendLog gunzip keptTime) d).files .plain = some file' ∧
      file'.bytes = file.bytes ++ linesBytes (appended later) := appendLogs_plain later hfile
  obtain ⟨file', hfile', hbytes'⟩ := hreach
  set d' := later.foldl (appendLog gunzip keptTime) d
  have happended : ∀ e ∈ appended later, IsLogEntry e := by
    intro e he
    obtain ⟨append, happend, rfl⟩ := List.mem_map.1 (List.mem_filter.1 he).1
    exact hlater append happend
  rw [hbytes, List.append_assoc] at hbytes'
  by_cases hnil : torn = []
  · -- nothing of the line was written
    have hall : ∀ e ∈ entries ++ appended later, IsLogEntry e := fun e he =>
      (List.mem_append.1 he).elim (hentries e) (happended e)
    rw [hnil, List.nil_append, ← linesBytes_append] at hbytes'
    exact iff_of_true (by rw [loadLog_lines hall hfile' hbytes']) (Or.inl hnil)
  obtain ⟨text, hbrace, hfeed, hreads, htext⟩ := exists_torn hstart hcut hnil
  have hread : Buffer.toUtf8String file'.bytes =
      joinLines (entries.map fun entry => (Json.object entry).text) ++
        (text ++ (linesBytes (appended later)).toUtf8String) := by
    rw [hbytes', toUtf8String_linesBytes_append]
    exact congrArg _ (hreads _ (startsPlain_lines _))
  cases hmore : appended later with
  | cons next rest =>
    -- the next line is joined to the part
    have hlines : Buffer.toUtf8String (linesBytes (appended later)) =
        (Json.object next).text ++ 10 :: Buffer.toUtf8String (linesBytes rest) := by
      rw [hmore, toUtf8String_linesBytes, toUtf8String_linesBytes, List.flatMap_cons,
        List.append_assoc, List.singleton_append]
    have hrest : Buffer.toUtf8String (linesBytes rest) = [] ∨
        StartsObject (Buffer.toUtf8String (linesBytes rest)) := by
      rw [toUtf8String_linesBytes]
      cases rest with
      | nil => exact Or.inl rfl
      | cons e rest => exact Or.inr ⟨_, rfl⟩
    rw [hlines] at hread
    rw [loadLog_joined hfile' hread hbrace hfeed (htext.imp And.left And.left) hrest]
    refine iff_of_false (fun h => ?_) (fun h => ?_)
    · have hempty := List.map_eq_nil_iff.1 (List.sublist_nil.1 h)
      exact nomatch (List.append_eq_nil_iff.1 hempty).2
    · exact h.elim hnil fun h => nomatch h.1
  | nil =>
    rw [hmore, show Buffer.toUtf8String (linesBytes []) = [] from rfl, List.append_nil] at hread
    rw [List.append_nil]
    rcases htext with ⟨rfl, hwhole⟩ | ⟨hinside, hpart⟩
    · -- only the line feed is missing
      have hall : ∀ e ∈ entries ++ [entry], IsLogEntry e := fun e he =>
        (List.mem_append.1 he).elim (hentries e) fun he => List.mem_singleton.1 he ▸ hentry
      have hmap := mapM_loadLine_texts hall
      have htail := rdropWhile_text entry (Or.inl rfl)
      rw [List.append_nil] at htail
      rw [List.map_append, List.map_singleton] at hmap
      rw [loadLog_plain hfile' hread hbrace (texts_entries entries), htail,
        List.splitOn_eq_singleton (lineFeed_not_mem _), hmap, Option.getD_some, List.map_append]
      exact iff_of_true (List.sublist_append_left _ _) (Or.inr ⟨rfl, Or.inl hwhole⟩)
    · rw [loadLog_torn hfile' hread hbrace hfeed hinside, List.sublist_nil, List.map_eq_nil_iff]
      exact ⟨fun h => Or.inr ⟨rfl, Or.inr h⟩, fun h =>
        (h.resolve_left hnil).2.resolve_left hpart⟩

theorem torn_append_loses_all :
    ¬∀ (gunzip : Buffer → Option Buffer) (keptTime : ℚ → ℚ) (d : SessionFolder)
      (file : StoredFile ℚ) (entries : List LogEntry) (entry : LogEntry) (torn : Buffer)
      (later : List (LogEntry × ℚ)), (∀ e ∈ entries, IsLogEntry e) → IsLogEntry entry →
      (∀ append ∈ later, IsLogEntry append.1) → d.files .plain = some file →
      file.bytes = linesBytes entries ++ torn → torn <+: lineBytes entry → torn ≠ lineBytes entry →
      List.Sublist ((entries ++ appended later).map loaded)
        (loadLog gunzip (later.foldl (appendLog gunzip keptTime) d)) := by
  intro h
  have htyped : IsLogEntry exampleEntry := by
    intro images himages
    exact nomatch himages
  have hlost := h (fun _ => none) id
    ⟨fun name => if name = .plain then some ⟨linesBytes [exampleEntry] ++ [123], 1, true⟩ else none, []⟩
    ⟨linesBytes [exampleEntry] ++ [123], 1, true⟩ [exampleEntry] exampleEntry [123] []
    (fun e he => List.mem_singleton.1 he ▸ htyped) htyped nofun rfl rfl (by decide +kernel)
    (by decide +kernel)
  have hnone : loadLog (fun _ => none) (⟨fun name => if name = .plain then
      some ⟨linesBytes [exampleEntry] ++ [123], 1, true⟩ else none, []⟩ : SessionFolder) = [] := by
    rfl
  rw [List.foldl_nil, hnone] at hlost
  exact nomatch hlost

theorem torn_append_harmless_iff_whole :
    List.Sublist (([exampleEntry] ++ appended []).map loaded)
        (loadLog (fun _ => none) (List.foldl (appendLog (fun _ => none) id)
          ⟨fun name => if name = .plain then
            some ⟨linesBytes [exampleEntry] ++ (Json.object exampleEntry).text.toUtf8, 1, true⟩
            else none, []⟩ [])) ↔
      (Json.object exampleEntry).text.toUtf8 = [] ∨ appended [] = [] ∧
        ((Json.object exampleEntry).text.toUtf8 = (Json.object exampleEntry).text.toUtf8 ∨
          [exampleEntry] = []) := by
  have htyped : IsLogEntry exampleEntry := by
    intro images himages
    exact nomatch himages
  exact torn_append_harmless_iff (fun e he => List.mem_singleton.1 he ▸ htyped) htyped nofun rfl rfl
    (by decide +kernel) (by decide +kernel)

end Load

end Isomux
