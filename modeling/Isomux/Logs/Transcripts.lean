import Isomux.Foundations.Disk
import Isomux.Runtime.JsonLines
import Mathlib.Data.Rat.Defs
import Mathlib.Logic.Relation

set_option autoImplicit false

/-!
# Transcripts, plain and compressed

The transcript of a session is a file of JSON lines, or the same bytes compressed. An append makes a
compressed transcript plain first. A compress reads the plain file, leaves the server to its work
while the bytes are packed, and replaces the file only if it is still the one that was read. Both
directions write the new file beside the old one, and remove the old one when the new one is on the
disk. When both are there, the plain one counts.

## Main results

* `Isomux.safe_inflateTranscript`, `Isomux.safe_commitCompressed` — the files are intact between any
  two operations of a call.
* `Isomux.transcript_intact` — the reader finds all the lines whose append was completed.
-/

namespace Isomux

open Disk

/-! ## The files of a session -/

/-- The name of a file: `<sessionId>.jsonl`, with `.gz` when it is compressed, and with `.tmp`. -/
structure TranscriptName where
  compressed : Bool
  tmp : Bool
  deriving DecidableEq

/-- `<sessionId>.jsonl`. -/
abbrev TranscriptName.plain : TranscriptName := ⟨false, false⟩

/-- `<sessionId>.jsonl.gz`. -/
abbrev TranscriptName.packed : TranscriptName := ⟨true, false⟩

/-- The files of a session. Times are in milliseconds. -/
abbrev SessionFolder := Folder TranscriptName ℚ

/-- An entry as `prepareLogEntry` left it. -/
abbrev LogEntry := List (JsString × Json)

structure TranscriptFile where
  path : TranscriptName
  compressed : Bool

structure TranscriptSource where
  size : ℕ
  mtimeMs : ℚ
  deriving DecidableEq

/-- A compressed transcript that was not written yet. -/
structure GzippedTranscript where
  source : TranscriptSource
  gz : Buffer

/-- One thing a call does: a file operation, or the `appendFileSync` of an entry. -/
inductive FileCall where
  | disk (op : Op TranscriptName ℚ)
  | append (entry : LogEntry) (now : ℚ)

def FileCall.run : FileCall → SessionFolder → SessionFolder
  | disk op, d => op.run d
  | append entry now, d => (Op.append .plain (lineBytes entry) now).run d

def FileCall.completes : FileCall → List LogEntry
  | disk _ => []
  | append entry _ => [entry]

section Calls

variable (gzip : Buffer → Buffer) (gunzip : Buffer → Option Buffer) (keptTime : ℚ → ℚ)

variable (d : SessionFolder)

def resolveTranscript : Option TranscriptFile :=
  if (d.files .plain).isSome then some ⟨.plain, false⟩
  else if (d.files .packed).isSome then some ⟨.packed, true⟩
  else none

/-- `readTranscriptBytes`. It throws when there is no such file, or it cannot be decompressed. -/
def readTranscriptBytes (file : TranscriptFile) : Option Buffer :=
  (d.files file.path).bind fun raw => if file.compressed then gunzip raw.bytes else some raw.bytes

def readTranscriptSync (file : TranscriptFile) : Option JsString :=
  (readTranscriptBytes gunzip d file).map Buffer.toUtf8String

/-- `writeDurably`. The loop over `writeSync` is one write, as a crash may leave anything of a file
that was not flushed. -/
def writeDurably (target : TranscriptName) (bytes : Buffer) (mtimeMs now : ℚ) :
    List (Op TranscriptName ℚ) :=
  let tmp : TranscriptName := ⟨target.compressed, true⟩
  [.remove tmp, .create tmp now, .write tmp bytes, .setTimes tmp (keptTime mtimeMs), .flush tmp,
    .rename tmp target, .flushFolder]

/-- `inflateTranscript`. It throws when the compressed file cannot be read. -/
def inflateTranscript (now : ℚ) : Option (List (Op TranscriptName ℚ)) :=
  if (d.files .plain).isSome then some []
  else
    match d.files .packed with
    | none => some []
    | some packed =>
      (readTranscriptBytes gunzip d ⟨.packed, true⟩).map fun bytes =>
        writeDurably keptTime .plain bytes packed.mtime now ++ [.remove .packed]

/-- `appendLogOrThrow`, up to the index of first messages. -/
def appendLogOrThrow (entry : LogEntry) (now : ℚ) : Option (List FileCall) :=
  if ((Json.object entry).field "ephemeral").any (·.isTruthy) then some []
  else (inflateTranscript gunzip keptTime d now).map fun ops => ops.map .disk ++ [.append entry now]

/-- `gzipTranscript`. It throws when there is no plain file. -/
def gzipTranscript : Option GzippedTranscript :=
  (d.files .plain).map fun file => ⟨⟨file.bytes.length, file.mtime⟩, gzip file.bytes⟩

/-- `commitCompressed`. It throws, with nothing done, when there is no plain file. -/
def commitCompressed (source : TranscriptSource) (gz : Buffer) (now : ℚ) :
    List (Op TranscriptName ℚ) :=
  match d.files .plain with
  | none => []
  | some file =>
    if (⟨file.bytes.length, file.mtime⟩ : TranscriptSource) ≠ source then []
    else writeDurably keptTime .packed gz source.mtimeMs now ++ [.remove .plain]

/-- The files of a session, what the call under way has still to do, what is being compressed, and the
entries whose append was completed. -/
structure SessionFiles where
  folder : SessionFolder
  pending : List FileCall
  gzipped : List GzippedTranscript
  completed : List LogEntry

def SessionFiles.fresh : SessionFiles := ⟨⟨fun _ => none, []⟩, [], [], []⟩

/-- What happens to the files of a session. A call does one operation after the other, and only
`gzipTranscript` leaves room for other calls. An operation may throw, and the temporary file may be
removed then. Between any two operations the server may crash. -/
inductive SessionFiles.Step : SessionFiles → SessionFiles → Prop where
  | append {s : SessionFiles} {calls : List FileCall} (entry : LogEntry) (now : ℚ)
      (hidle : s.pending = []) (h : appendLogOrThrow gunzip keptTime s.folder entry now = some calls) :
      Step s { s with pending := calls }
  | inflate {s : SessionFiles} {ops : List (Op TranscriptName ℚ)} (now : ℚ)
      (hidle : s.pending = []) (h : inflateTranscript gunzip keptTime s.folder now = some ops) :
      Step s { s with pending := ops.map .disk }
  | gzip {s : SessionFiles} {g : GzippedTranscript}
      (hidle : s.pending = []) (h : gzipTranscript gzip s.folder = some g) :
      Step s { s with gzipped := s.gzipped ++ [g] }
  | commit {s : SessionFiles} {g : GzippedTranscript} (now : ℚ)
      (hidle : s.pending = []) (h : g ∈ s.gzipped) :
      Step s { s with
        pending := (commitCompressed keptTime s.folder g.source g.gz now).map .disk }
  | next {s : SessionFiles} {call : FileCall} {rest : List FileCall}
      (h : s.pending = call :: rest) :
      Step s { s with
        folder := call.run s.folder
        pending := rest
        completed := s.completed ++ call.completes }
  | throws {s : SessionFiles} (cleanup : Option TranscriptName) (h : ∀ name ∈ cleanup, name.tmp = true) :
      Step s { s with pending := (cleanup.map fun name => .disk (.remove name)).toList }
  | crash {s : SessionFiles} {left : TranscriptName → Option (StoredFile ℚ)}
      (h : s.folder.Survives left) :
      Step s ⟨⟨left, []⟩, [], [], s.completed⟩

def SessionFiles.Reachable : SessionFiles → Prop :=
  Relation.ReflTransGen (SessionFiles.Step gzip gunzip keptTime) .fresh

end Calls

/-! ## What a crash leaves -/

def linesBytes (entries : List LogEntry) : Buffer := entries.flatMap lineBytes

/-- The file holds the bytes, and they are on the disk. -/
def HoldsBytes (content : Buffer) (f : StoredFile ℚ) : Prop := f.bytes = content ∧ f.flushed = true

/-- The file holds the bytes compressed, and they are on the disk. -/
def HoldsPacked (gunzip : Buffer → Option Buffer) (content : Buffer) (f : StoredFile ℚ) : Prop :=
  gunzip f.bytes = some content ∧ f.flushed = true

/-- Whatever a crash leaves holds the content: the plain file is there and has it, or the compressed
one is there and has it, or nothing was ever written. A plain file that is there always has it. -/
def Intact (gunzip : Buffer → Option Buffer) (content : Buffer) (d : SessionFolder) : Prop :=
  (∀ e, d.Possible .plain e → ∃ f ∈ e, HoldsBytes content f) ∨
  ((∀ e, d.Possible .plain e → ∀ f ∈ e, HoldsBytes content f) ∧
    ∀ e, d.Possible .packed e → ∃ f ∈ e, HoldsPacked gunzip content f) ∨
  (content = [] ∧ (∀ e, d.Possible .plain e → e = none) ∧ ∀ e, d.Possible .packed e → e = none)

/-- The files are intact before, between and behind the operations. -/
def Safe (gunzip : Buffer → Option Buffer) : List LogEntry → List FileCall → SessionFolder → Prop
  | entries, [], d => Intact gunzip (linesBytes entries) d
  | entries, call :: rest, d =>
    Intact gunzip (linesBytes entries) d ∧
      Safe gunzip (entries ++ call.completes) rest (call.run d)

section Intact

variable {gunzip : Buffer → Option Buffer} {content : Buffer} {d d' : SessionFolder}
  {entries : List LogEntry} {calls : List FileCall}

@[simp] lemma linesBytes_append (entries more : List LogEntry) :
    linesBytes (entries ++ more) = linesBytes entries ++ linesBytes more := List.flatMap_append ..

@[simp] lemma linesBytes_singleton (entry : LogEntry) : linesBytes [entry] = lineBytes entry :=
  List.flatMap_singleton ..

lemma Safe.intact (h : Safe gunzip entries calls d) : Intact gunzip (linesBytes entries) d := by
  cases calls with
  | nil => exact h
  | cons call rest => exact h.1

lemma Intact.of_possible (h : Intact gunzip content d)
    (hpossible : ∀ name : TranscriptName, name.tmp = false → ∀ e, d'.Possible name e → d.Possible name e) :
    Intact gunzip content d' := by
  have hplain := hpossible .plain rfl
  have hpacked := hpossible .packed rfl
  rcases h with h | ⟨h, h'⟩ | ⟨hnil, h, h'⟩
  · exact Or.inl fun e he => h e (hplain e he)
  · exact Or.inr (Or.inl ⟨fun e he => h e (hplain e he), fun e he => h' e (hpacked e he)⟩)
  · exact Or.inr (Or.inr ⟨hnil, fun e he => h e (hplain e he), fun e he => h' e (hpacked e he)⟩)

lemma Intact.plain (h : Intact gunzip content d) {f : StoredFile ℚ}
    (hfile : d.files .plain = some f) : HoldsBytes content f := by
  have hpossible : d.Possible .plain (some f) := Or.inl hfile
  rcases h with h | ⟨h, -⟩ | ⟨-, h, -⟩
  · obtain ⟨g, hg, hholds⟩ := h _ hpossible
    exact Option.mem_some_iff.1 hg ▸ hholds
  · exact h _ hpossible f rfl
  · exact absurd (h _ hpossible) (Option.some_ne_none f)

lemma Intact.packed (h : Intact gunzip content d) (hplain : d.files .plain = none)
    {f : StoredFile ℚ} (hfile : d.files .packed = some f) :
    (∀ e, d.Possible .plain e → ∀ f ∈ e, HoldsBytes content f) ∧
      (∀ e, d.Possible .packed e → ∃ f ∈ e, HoldsPacked gunzip content f) := by
  rcases h with h | h | ⟨-, -, h⟩
  · obtain ⟨g, hg, -⟩ := h none (Or.inl hplain)
    exact nomatch hg
  · exact h
  · exact absurd (h (some f) (Or.inl hfile)) (Option.some_ne_none f)

lemma Intact.content_eq_nil (h : Intact gunzip content d) (hplain : d.files .plain = none)
    (hpacked : d.files .packed = none) : content = [] := by
  rcases h with h | ⟨-, h⟩ | ⟨hnil, -⟩
  · obtain ⟨g, hg, -⟩ := h none (Or.inl hplain)
    exact nomatch hg
  · obtain ⟨g, hg, -⟩ := h none (Or.inl hpacked)
    exact nomatch hg
  · exact hnil

lemma Intact.crash (h : Intact gunzip content d) {left : TranscriptName → Option (StoredFile ℚ)}
    (hleft : d.Survives left) : Intact gunzip content ⟨left, []⟩ := by
  rcases h with h | ⟨h, h'⟩ | ⟨hnil, h, h'⟩
  · have hplain : d.Possible .plain (left .plain) := hleft.possible fun f hf => by
      obtain ⟨g, hg, hholds⟩ := h _ hf
      exact Option.mem_some_iff.1 hg ▸ hholds.2
    exact Or.inl fun e he => Folder.possible_settled.1 he ▸ h _ hplain
  · have hplain : d.Possible .plain (left .plain) := hleft.possible fun f hf => (h _ hf f rfl).2
    have hpacked : d.Possible .packed (left .packed) := hleft.possible fun f hf => by
      obtain ⟨g, hg, hholds⟩ := h' _ hf
      exact Option.mem_some_iff.1 hg ▸ hholds.2
    exact Or.inr (Or.inl ⟨fun e he => Folder.possible_settled.1 he ▸ h _ hplain,
      fun e he => Folder.possible_settled.1 he ▸ h' _ hpacked⟩)
  · have hplain : d.Possible .plain (left .plain) := hleft.possible fun f hf => nomatch h _ hf
    have hpacked : d.Possible .packed (left .packed) := hleft.possible fun f hf => nomatch h' _ hf
    exact Or.inr (Or.inr ⟨hnil, fun e he => Folder.possible_settled.1 he ▸ h _ hplain,
      fun e he => Folder.possible_settled.1 he ▸ h' _ hpacked⟩)

lemma Intact.run_tmp (h : Intact gunzip content d) {op : Op TranscriptName ℚ}
    (hop : ∀ name ∈ op.names, name.tmp = true) : Intact gunzip content (op.run d) :=
  h.of_possible fun name hname e he => op.possible_of_untouched
    (fun hmem => absurd (hop name hmem) (by rw [hname]; decide)) he

lemma Intact.append (h : Intact gunzip content d) (hpacked : d.files .plain = none →
    d.files .packed = none) (bytes : Buffer) (now : ℚ) :
    Intact gunzip (content ++ bytes) ((Op.append .plain bytes now).run d) := by
  refine Or.inl fun e he => ⟨_, Op.possible_append he, ?_, rfl⟩
  cases hplain : d.files .plain with
  | none => rw [h.content_eq_nil hplain (hpacked hplain), Option.elim_none]
  | some f => rw [Option.elim_some, (h.plain hplain).1]

lemma Safe.of_tmp {ops : List (Op TranscriptName ℚ)} (h : Intact gunzip (linesBytes entries) d)
    (hops : ∀ op ∈ ops, ∀ name ∈ op.names, name.tmp = true)
    (hrest : Safe gunzip entries calls (Op.runAll ops d)) :
    Safe gunzip entries (ops.map .disk ++ calls) d := by
  induction ops generalizing d with
  | nil => exact hrest
  | cons op ops ih =>
    refine ⟨h, ?_⟩
    rw [FileCall.completes, List.append_nil]
    exact ih (h.run_tmp (hops op List.mem_cons_self))
      (fun o ho => hops o (List.mem_cons_of_mem _ ho)) hrest

lemma Safe.disk {op : Op TranscriptName ℚ} (h : Intact gunzip (linesBytes entries) d)
    (hrest : Safe gunzip entries calls (op.run d)) : Safe gunzip entries (.disk op :: calls) d :=
  ⟨h, by rwa [FileCall.completes, List.append_nil]⟩

/-- `writeDurably` is safe when the files are intact with the new file under its name or not yet.
Behind it the new file is there for sure, and nothing else has changed. -/
lemma safe_writeDurably {keptTime : ℚ → ℚ} {target : TranscriptName} {bytes : Buffer}
    {mtimeMs now : ℚ} (htarget : target.tmp = false) (h : Intact gunzip (linesBytes entries) d)
    (hrenamed : ∀ d' : SessionFolder,
      (∀ e, d'.Possible target e → e = some ⟨bytes, keptTime mtimeMs, true⟩ ∨ d.Possible target e) →
      (∀ name : TranscriptName, name.tmp = false → name ≠ target →
        ∀ e, d'.Possible name e → d.Possible name e) →
      Intact gunzip (linesBytes entries) d')
    (hrest : ∀ d' : SessionFolder, Intact gunzip (linesBytes entries) d' →
      d'.files target = some ⟨bytes, keptTime mtimeMs, true⟩ →
      (∀ name : TranscriptName, name.tmp = false → name ≠ target → d'.files name = d.files name) →
      (∀ name e, d'.Possible name e → d'.files name = e) → Safe gunzip entries calls d') :
    Safe gunzip entries ((writeDurably keptTime target bytes mtimeMs now).map .disk ++ calls) d := by
  set tmp : TranscriptName := ⟨target.compressed, true⟩ with htmp
  let ops : List (Op TranscriptName ℚ) :=
    [.remove tmp, .create tmp now, .write tmp bytes, .setTimes tmp (keptTime mtimeMs), .flush tmp]
  have hops : ∀ op ∈ ops, op.names = [tmp] := by
    simp [ops, Op.names]
  have hnames : ∀ op ∈ ops, ∀ name ∈ op.names, name.tmp = true := by
    intro op hop name hname
    rw [hops op hop, List.mem_singleton] at hname
    rw [hname]
  have huntouched : ∀ name : TranscriptName, name.tmp = false → ∀ op ∈ ops, name ∉ op.names :=
    fun name hname op hop hmem => absurd (hnames op hop name hmem) (by rw [hname]; decide)
  have hpossible : ∀ name : TranscriptName, name.tmp = false → ∀ e,
      (Op.runAll ops d).Possible name e → d.Possible name e :=
    fun name hname e => Op.possible_runAll (huntouched name hname)
  have hfile : (Op.runAll ops d).files tmp = some ⟨bytes, keptTime mtimeMs, true⟩ := by
    simp [ops, Op.runAll, Op.run]
  have hne : target ≠ tmp := by
    intro heq
    rw [heq] at htarget
    exact nomatch htarget
  have hother : ∀ name : TranscriptName, name.tmp = false → name ≠ target →
      name ∉ (Op.rename (τ := ℚ) tmp target).names := by
    intro name hname htargetne hmem
    rcases List.mem_cons.1 hmem with rfl | hmem
    · exact nomatch hname
    · exact htargetne (List.mem_singleton.1 hmem)
  -- the rename, and the flush behind it
  have hbeside := hrenamed ((Op.rename tmp target).run (Op.runAll ops d))
    (fun e he => (Op.possible_rename hne he).imp (fun heq => heq.trans hfile) (hpossible _ htarget e))
    fun name hname htargetne e he =>
      hpossible name hname e (Op.possible_of_untouched _ (hother name hname htargetne) he)
  have hflushed : Safe gunzip entries calls
      (Op.flushFolder.run ((Op.rename tmp target).run (Op.runAll ops d))) := by
    refine hrest _ (hbeside.run_tmp nofun) ((Op.files_rename hne).trans hfile)
      (fun name hname htargetne => ?_) fun name e => Op.possible_flushFolder
    exact (Op.files_of_untouched _ (hother name hname htargetne)).trans
      (Op.files_runAll (huntouched name hname))
  have hall := Safe.of_tmp h hnames
    (Safe.disk (h.of_possible hpossible) (Safe.disk hbeside hflushed))
  exact hall

/-- `inflateTranscript` is safe, and behind it an append is. -/
theorem safe_inflateTranscript {keptTime : ℚ → ℚ} {now : ℚ} {ops : List (Op TranscriptName ℚ)}
    (h : Intact gunzip (linesBytes entries) d)
    (hops : inflateTranscript gunzip keptTime d now = some ops)
    (hrest : ∀ d' : SessionFolder, Intact gunzip (linesBytes entries) d' →
      (d'.files .plain = none → d'.files .packed = none) → Safe gunzip entries calls d') :
    Safe gunzip entries (ops.map .disk ++ calls) d := by
  unfold inflateTranscript at hops
  split_ifs at hops with hplain
  · obtain rfl := Option.some.inj hops
    exact hrest d h fun hnone => absurd hplain (by rw [hnone]; decide)
  · rw [Bool.not_eq_true, Option.isSome_eq_false_iff, Option.isNone_iff_eq_none] at hplain
    cases hpacked : d.files .packed with
    | none =>
      rw [hpacked] at hops
      obtain rfl := Option.some.inj hops
      exact hrest d h fun _ => hpacked
    | some packed =>
      obtain ⟨hplains, hpackeds⟩ := h.packed hplain hpacked
      have hbytes : gunzip packed.bytes = some (linesBytes entries) := by
        obtain ⟨f, hf, hholds⟩ := hpackeds _ (Or.inl hpacked)
        exact Option.mem_some_iff.1 hf ▸ hholds.1
      rw [hpacked] at hops
      simp only [readTranscriptBytes, hpacked, Option.bind_some, hbytes, if_true, Option.map_some,
        Option.some.injEq] at hops
      subst hops
      rw [List.map_append, List.append_assoc]
      refine safe_writeDurably rfl h (fun d' hrenamed hsame => ?_) fun d' h' hfile _ hsettled => ?_
      · refine Or.inr (Or.inl ⟨fun e he f hf => ?_, fun e he =>
          hpackeds e (hsame .packed rfl (by decide) e he)⟩)
        rcases hrenamed e he with rfl | he
        · rw [← Option.mem_some_iff.1 hf]
          exact ⟨rfl, rfl⟩
        · exact hplains e he f hf
      · -- the plain file is there for sure, and the compressed one goes
        have hthere : ∀ e, d'.Possible .plain e → ∃ f ∈ e, HoldsBytes (linesBytes entries) f :=
          fun e he => ⟨_, (hsettled .plain e he).symm.trans hfile, rfl, rfl⟩
        refine Safe.disk h' (hrest _ (Or.inl fun e he => ?_) fun hnone => ?_)
        · exact hthere e (Op.possible_of_untouched _ (by decide) he)
        · rw [Op.files_of_untouched _ (by decide), hfile] at hnone
          exact nomatch hnone

/-- `commitCompressed` is safe with the compressed lines. -/
theorem safe_commitCompressed {keptTime : ℚ → ℚ} {now : ℚ} {source : TranscriptSource} {gz : Buffer}
    (h : Intact gunzip (linesBytes entries) d)
    (hgz : source.size = (linesBytes entries).length → gunzip gz = some (linesBytes entries)) :
    Safe gunzip entries ((commitCompressed keptTime d source gz now).map .disk) d := by
  unfold commitCompressed
  cases hplain : d.files .plain with
  | none => exact h
  | some file =>
    dsimp only
    split_ifs with hsource
    · exact h
    · rw [not_not] at hsource
      have hbytes : gunzip gz = some (linesBytes entries) := by
        refine hgz ?_
        rw [← hsource, (h.plain hplain).1]
      rw [List.map_append]
      refine safe_writeDurably rfl h (fun d' hrenamed hsame => ?_) fun d' h' hfile hsame hsettled => ?_
      · rcases h with h | ⟨h, h'⟩ | ⟨-, h, -⟩
        · exact Or.inl fun e he => h e (hsame .plain rfl (by decide) e he)
        · refine Or.inr (Or.inl ⟨fun e he => h e (hsame .plain rfl (by decide) e he), fun e he => ?_⟩)
          rcases hrenamed e he with rfl | he
          · exact ⟨_, rfl, hbytes, rfl⟩
          · exact h' e he
        · exact nomatch (h _ (Or.inl hplain))
      · -- the compressed file is there for sure, and the plain one goes
        have hthere : d'.files .plain = some file := (hsame .plain rfl (by decide)).trans hplain
        refine Safe.disk h' (Or.inr (Or.inl ⟨fun e he f hf => ?_, fun e he => ?_⟩))
        · rcases Folder.possible_put he with rfl | he
          · exact nomatch hf
          · rw [← hsettled .plain e he, hthere, Option.mem_some_iff] at hf
            exact hf ▸ h.plain hplain
        · have he' := hsettled .packed e (Op.possible_of_untouched _ (by decide) he)
          exact ⟨_, he'.symm.trans hfile, hbytes, rfl⟩

end Intact

/-! ## Runs -/

/-- What holds of a session: the call under way is safe, and what is being compressed are lines that
were complete when it was read. -/
structure SessionFiles.Sound (gzip : Buffer → Buffer) (gunzip : Buffer → Option Buffer)
    (s : SessionFiles) : Prop where
  safe : Safe gunzip s.completed s.pending s.folder
  gzipped : ∀ g ∈ s.gzipped, ∃ front, front <+: s.completed ∧ g.gz = gzip (linesBytes front) ∧
    g.source.size = (linesBytes front).length

section Runs

variable {gzip : Buffer → Buffer} {gunzip : Buffer → Option Buffer} {keptTime : ℚ → ℚ}
  {s s' : SessionFiles}

lemma sound_fresh : SessionFiles.fresh.Sound gzip gunzip where
  safe := Or.inr (Or.inr ⟨rfl, fun _ he => (Folder.possible_settled.1 he).symm,
    fun _ he => (Folder.possible_settled.1 he).symm⟩)
  gzipped := nofun

lemma linesBytes_eq_of_prefix {front entries : List LogEntry} (h : front <+: entries)
    (hlength : (linesBytes front).length = (linesBytes entries).length) :
    linesBytes front = linesBytes entries := by
  obtain ⟨more, rfl⟩ := h
  rw [linesBytes_append]
  rw [linesBytes_append, List.length_append, Nat.left_eq_add, List.length_eq_zero_iff] at hlength
  rw [hlength, List.append_nil]

/-- **A session stays sound.** -/
theorem sound_step (hzip : ∀ data, gunzip (gzip data) = some data) (h : s.Sound gzip gunzip)
    (hstep : SessionFiles.Step gzip gunzip keptTime s s') : s'.Sound gzip gunzip := by
  have hintact := h.safe.intact
  cases hstep with
  | append entry now hidle hcalls =>
    refine ⟨?_, h.gzipped⟩
    unfold appendLogOrThrow at hcalls
    split_ifs at hcalls
    · obtain rfl := Option.some.inj hcalls
      exact hintact
    · obtain ⟨ops, hops, rfl⟩ := Option.map_eq_some_iff.1 hcalls
      refine safe_inflateTranscript hintact hops fun d' h' hpacked => ⟨h', ?_⟩
      have happended : Intact gunzip (linesBytes (s.completed ++ [entry]))
          ((FileCall.append entry now).run d') := by
        rw [linesBytes_append, linesBytes_singleton]
        exact h'.append hpacked (lineBytes entry) now
      exact happended
  | inflate now hidle hops =>
    have hsafe : Safe gunzip s.completed (_ ++ []) s.folder :=
      safe_inflateTranscript hintact hops fun d' h' _ => h'
    rw [List.append_nil] at hsafe
    exact ⟨hsafe, h.gzipped⟩
  | gzip hidle hgzip =>
    obtain ⟨file, hfile, rfl⟩ := Option.map_eq_some_iff.1 hgzip
    refine ⟨h.safe, fun g hg => ?_⟩
    rcases List.mem_append.1 hg with hg | hg
    · exact h.gzipped g hg
    · rw [List.mem_singleton.1 hg]
      exact ⟨s.completed, List.prefix_rfl, by rw [(hintact.plain hfile).1],
        by rw [(hintact.plain hfile).1]⟩
  | commit now hidle hg =>
    obtain ⟨front, hfront, hgz, hsize⟩ := h.gzipped _ hg
    refine ⟨safe_commitCompressed hintact fun hlength => ?_, h.gzipped⟩
    rw [hgz, hzip, linesBytes_eq_of_prefix hfront (hsize.symm.trans hlength)]
  | next hpending =>
    have hsafe := h.safe
    rw [hpending] at hsafe
    refine ⟨hsafe.2, fun g hg => ?_⟩
    obtain ⟨front, hfront, hrest⟩ := h.gzipped g hg
    exact ⟨front, hfront.trans (List.prefix_append _ _), hrest⟩
  | throws cleanup htmp =>
    refine ⟨?_, h.gzipped⟩
    cases cleanup with
    | none => exact hintact
    | some name =>
      refine Safe.disk hintact (hintact.run_tmp fun n hn => ?_)
      rw [List.mem_singleton.1 hn]
      exact htmp name rfl
  | crash hleft => exact ⟨hintact.crash hleft, nofun⟩

lemma sound_of_reachable (hzip : ∀ data, gunzip (gzip data) = some data)
    (h : SessionFiles.Reachable gzip gunzip keptTime s) : s.Sound gzip gunzip := by
  induction h with
  | refl => exact sound_fresh
  | tail _ hstep ih => exact sound_step hzip ih hstep

lemma toUtf8String_linesBytes (entries : List LogEntry) :
    (linesBytes entries).toUtf8String =
      entries.flatMap fun entry => (Json.object entry).text ++ [10] := by
  have hread := toUtf8String_lines entries []
  rwa [List.append_nil, show Buffer.toUtf8String [] = [] from rfl, List.append_nil] at hread

/-- **Compression loses no line.** Whatever calls were interleaved and wherever the server crashed,
also between two operations of a call, the reader finds exactly the lines whose append was completed,
and it takes a compressed file only where there is no plain one. -/
theorem transcript_intact (hzip : ∀ data, gunzip (gzip data) = some data)
    (h : SessionFiles.Reachable gzip gunzip keptTime s) :
    (match resolveTranscript s.folder with
      | some file => readTranscriptSync gunzip s.folder file =
          some (s.completed.flatMap fun entry => (Json.object entry).text ++ [10])
      | none => s.completed = []) ∧
    ∀ file, resolveTranscript s.folder = some file → file.compressed = true →
      s.folder.files .plain = none := by
  have hintact := (sound_of_reachable hzip h).safe.intact
  unfold resolveTranscript
  cases hplain : s.folder.files .plain with
  | some f =>
    rw [Option.isSome_some, if_pos rfl]
    refine ⟨?_, fun file hfile hcompressed => ?_⟩
    · dsimp only
      rw [readTranscriptSync, readTranscriptBytes, hplain, Option.bind_some, if_neg (by decide),
        (hintact.plain hplain).1, Option.map_some, toUtf8String_linesBytes]
    · rw [← Option.some.inj hfile] at hcompressed
      exact nomatch hcompressed
  | none =>
    rw [Option.isSome_none, if_neg (by decide)]
    refine ⟨?_, fun _ _ _ => rfl⟩
    cases hpacked : s.folder.files .packed with
    | some f =>
      rw [Option.isSome_some, if_pos rfl]
      obtain ⟨g, hg, hholds, -⟩ := (hintact.packed hplain hpacked).2 _ (Or.inl hpacked)
      rw [Option.mem_some_iff] at hg
      rw [← hg] at hholds
      dsimp only
      rw [readTranscriptSync, readTranscriptBytes, hpacked, Option.bind_some, if_pos rfl, hholds,
        Option.map_some, toUtf8String_linesBytes]
    | none =>
      rw [Option.isSome_none, if_neg (by decide)]
      have hnil := hintact.content_eq_nil hplain hpacked
      cases hentries : s.completed with
      | nil => rfl
      | cons entry entries =>
        obtain ⟨more, hmore⟩ := exists_lineBytes entry
        rw [hentries, linesBytes, List.flatMap_cons, hmore] at hnil
        exact nomatch hnil

def exampleEntry : LogEntry := [(js "id", .string (js "a"))]

def exampleGz : Buffer :=
  [31, 139, 8, 0, 0, 0, 0, 0, 0, 3, 171, 86, 202, 76, 81, 178, 82, 74, 84, 170, 229, 2, 0, 95, 178, 152,
    221, 11, 0, 0, 0]

/-- A compression that packs the line as `gzip` does. -/
def exampleGzip (data : Buffer) : Buffer :=
  if data = lineBytes exampleEntry then exampleGz else 0 :: data

def exampleGunzip (gz : Buffer) : Option Buffer :=
  if gz = exampleGz then some (lineBytes exampleEntry) else gz.tail?

theorem transcript_intact_both :
    ∃ s : SessionFiles, (s.folder.files .plain).isSome ∧ (s.folder.files .packed).isSome ∧
      s.completed = [exampleEntry] ∧
      (match resolveTranscript s.folder with
        | some file => readTranscriptSync exampleGunzip s.folder file =
            some (s.completed.flatMap fun entry => (Json.object entry).text ++ [10])
        | none => s.completed = []) ∧
      ∀ file, resolveTranscript s.folder = some file → file.compressed = true →
        s.folder.files .plain = none := by
  have hzip : ∀ data, exampleGunzip (exampleGzip data) = some data := by
    intro data
    unfold exampleGzip
    split_ifs with h
    · rw [h]
      rfl
    · rfl
  have happend : SessionFiles.Reachable exampleGzip exampleGunzip id _ :=
    (Relation.ReflTransGen.refl.tail (.append exampleEntry 1 rfl rfl)).tail (.next rfl)
  have hgzip := happend.tail (.gzip rfl rfl)
  have hcommit := hgzip.tail (.commit 2 rfl List.mem_cons_self)
  have hwritten := ((hcommit.tail (.next rfl)).tail (.next rfl)).tail (.next rfl)
  have hrenamed := ((hwritten.tail (.next rfl)).tail (.next rfl)).tail (.next rfl)
  have hcrash := hrenamed.tail (.crash (Folder.survives_files _))
  exact ⟨_, rfl, rfl, rfl, transcript_intact hzip hcrash⟩

end Runs

end Isomux
