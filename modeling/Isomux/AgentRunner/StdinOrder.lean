import Isomux.AgentRunner.StdinPlaces

set_option autoImplicit false

/-!
# The input of a process arrives once and in order

The bytes of both directions are those of the frames on the way, however they are cut into chunks.
So the places of the input are kept by every event of a connection, until the child is gone; then
nothing more is written.

## Main results

* `Isomux.AgentRunner.inOrder_step` — an event keeps the invariant.
* `Isomux.AgentRunner.stdin_in_order` — what holds of the input in every run.
-/

namespace Isomux.AgentRunner

variable {accepts : Buffer → Bool} {room : ℕ → Bool}

/-! ## The wires -/

/-- The request, as long as it is under way. -/
def Connection.lead (request : Buffer) (c : Connection) : List Frame :=
  if c.runner.started then [] else [⟨.json, request⟩]

/-- The bytes of both directions are those of the frames on the way. -/
structure Wired (request : Buffer) (c : Connection) (line back : List Frame) : Prop where
  toRunner : c.runner.pending ++ c.office.socket = (c.lead request ++ line).flatMap Frame.bytes
  quietRunner : c.office.socket = [] → c.lead request ++ line = []
  toOffice : c.office.pending ++ (c.toOffice ++ c.runner.queued.flatten) = back.flatMap Frame.bytes
  quietOffice : c.toOffice ++ c.runner.queued.flatten = [] → back = []
  fits : ∀ frame ∈ back, frame.Fits

/-- A connection on which the runner works. -/
structure Live (request : Buffer) (c : Connection) : Prop where
  drained : Drained c
  pumped : c.office.Pumped
  child : c.runner.child = c.runner.started
  fresh : c.runner.started = false → c.runner.stdinBlocked = false
  carries : ∃ line held back, Carries c line held back ∧ Wired request c line back

structure InOrder (request : Buffer) (c : Connection) : Prop where
  written : c.stdin.written.flatten <+: c.input
  ended : c.stdin.ended = true → c.EndsWithin c.stdin.written.flatten
  dead : c.runner.ended = true →
    c.runner.child = false ∧ (c.stdin.writable = false ∨ c.runner.stdinBlocked = false)
  live : c.runner.ended = false → Live request c

variable {request : Buffer}

variable {c : Connection} {line held back : List Frame} {office : RunnerStream}

lemma Carries.written_prefix
    (h : Carries c line held back) : c.stdin.written.flatten <+: c.input := by
  rw [← h.input, Connection.arrived, List.flatten_append, List.flatten_append, List.append_assoc,
    List.append_assoc]
  exact List.prefix_append _ _

lemma Live.inOrder (h : Live request c) (hended : c.runner.ended = false) :
    InOrder request c := by
  obtain ⟨line, held, back, hcarries, -⟩ := h.carries
  refine ⟨hcarries.written_prefix, hcarries.ended, fun hdead => ?_, fun _ => h⟩
  rw [hended] at hdead
  cases hdead

lemma flatMap_bytes_eq_nil {frames : List Frame} (h : frames.flatMap Frame.bytes = []) :
    frames = [] := by
  cases frames with
  | nil => rfl
  | cons frame frames =>
    have hlength := congrArg List.length h
    rw [List.flatMap_cons, List.length_append, length_bytes] at hlength
    exact absurd hlength (by simp)

lemma Wired.send {line sent back : List Frame}
    (h : Wired request c line back)
    (hsocket : office.socket = c.office.socket ++ sent.flatMap Frame.bytes)
    (hpending : office.pending = c.office.pending) :
    Wired request { c with office := office } (line ++ sent) back where
  __ := h
  toRunner := by
    show c.runner.pending ++ office.socket = (c.lead request ++ (line ++ sent)).flatMap Frame.bytes
    rw [hsocket, ← List.append_assoc, h.toRunner, ← List.flatMap_append, List.append_assoc]
  quietRunner := by
    intro hnil
    change office.socket = [] at hnil
    show c.lead request ++ (line ++ sent) = []
    rw [hsocket] at hnil
    obtain ⟨hold, hnew⟩ := List.append_eq_nil_iff.1 hnil
    rw [flatMap_bytes_eq_nil hnew, List.append_nil]
    exact h.quietRunner hold
  toOffice := by
    show office.pending ++ _ = _
    rw [hpending]
    exact h.toOffice

lemma Wired.live_of_sends
    (h : Wired request c line back) (hdrained : Drained c)
    (hchild : c.runner.child = c.runner.started)
    (hfresh : c.runner.started = false → c.runner.stdinBlocked = false)
    (hsends : Sends c office line held back) : Live request { c with office := office } := by
  obtain ⟨sent, rest, rfl, hcarries, hsocket, hpending, hpumped⟩ := hsends
  exact ⟨hdrained, hpumped, hchild, hfresh, line ++ sent, rest, back, hcarries,
    h.send hsocket hpending⟩

lemma Wired.of_same {c c' : Connection} {line back : List Frame} (h : Wired request c line back)
    (hwires : SameWires c c') : Wired request c' line back := by
  have hlead : c'.lead request = c.lead request := by
    rw [Connection.lead, Connection.lead, hwires.started]
  exact
    { h with
      toRunner := by
        rw [hlead, hwires.pending, hwires.office]
        exact h.toRunner
      quietRunner := by
        rw [hlead, hwires.office]
        exact h.quietRunner
      toOffice := by
        rw [hwires.office, hwires.toOffice, hwires.queued]
        exact h.toOffice
      quietOffice := by
        rw [hwires.toOffice, hwires.queued]
        exact h.quietOffice }

/-! ## What the events keep -/

/-- **A write of the office keeps the order.** -/
lemma Live.write (h : Live request c) (data : Buffer) :
    Live request { c with
      office := c.office.write data
      input := if c.office.closed then c.input else c.input ++ data } := by
  obtain ⟨line, held, back, hcarries, hwired⟩ := h.carries
  have hopen := hcarries.isOpen
  rw [hopen, if_neg nofun]
  by_cases hdata : data = []
  · subst hdata
    rw [RunnerStream.write_nil, List.append_nil]
    exact h
  · have hstdin : ∀ frame ∈ stdinFrames data, frame.Fits ∧ frame.endsInput = false := by
      intro frame hframe
      obtain ⟨chunk, hchunk, rfl⟩ := List.mem_map.1 hframe
      exact ⟨(length_of_mem_dataChunks hchunk).2, rfl⟩
    have hpush := @Carries.push line held back c hcarries (stdinFrames data) c.inputAtEnd
      (fun frame hframe => (hstdin frame hframe).1) (fun _ hfront => hfront) hcarries.asked
      fun frame hframe hend => by
        rw [(hstdin frame hframe).2] at hend
        cases hend
    rw [flatMap_input_stdinFrames] at hpush
    have hitems : (stdinFrames data).map Frame.item = (dataChunks data).map fun chunk =>
        (⟨(Frame.mk .stdin chunk).bytes, chunk.length⟩ : OutboxItem) := by
      rw [stdinFrames, List.map_map]
      rfl
    rw [RunnerStream.write_eq hopen data hdata, ← hitems]
    exact Wired.live_of_sends (c := { c with
        office := { c.office with outbox := c.office.outbox ++ (stdinFrames data).map Frame.item }
        input := c.input ++ data })
      { hwired with } h.drained h.child h.fresh hpush.pump

/-- **The request for the end keeps the order.** -/
lemma Live.stdinEnd (h : Live request c) :
    Live request { c with
      office := c.office.control .stdinEnd
      inputAtEnd := if c.office.closed then c.inputAtEnd else c.inputAtEnd.or (some c.input) } := by
  obtain ⟨hdrained, hpumped, hchild, hfresh, line, held, back, hcarries, hwired⟩ := h
  have hopen := hcarries.isOpen
  rw [hopen, if_neg nofun]
  have hpush := @Carries.push line held back c hcarries
    [⟨.json, ClientControl.stdinEnd.text⟩] (c.inputAtEnd.or (some c.input))
    (fun frame hframe => by
      rw [List.mem_singleton.1 hframe]
      exact fits_stdinEnd)
    (fun front hfront => by
      rw [hfront]
      rfl)
    (fun front hfront => by
      cases hasked : c.inputAtEnd with
      | none =>
        rw [hasked] at hfront
        obtain rfl := Option.some.inj hfront
        exact List.prefix_rfl
      | some first =>
        rw [hasked] at hfront
        obtain rfl := Option.some.inj hfront
        exact hcarries.asked first hasked)
    fun frame _ _ => by cases c.inputAtEnd <;> exact ⟨_, rfl⟩
  rw [RunnerStream.control_stdinEnd hopen]
  rw [show [(⟨.json, ClientControl.stdinEnd.text⟩ : Frame)].flatMap Frame.input = [] from rfl,
    List.append_nil] at hpush
  exact Wired.live_of_sends (c := { c with
      office := { c.office with
        outbox := c.office.outbox ++ [Frame.item ⟨.json, ClientControl.stdinEnd.text⟩] }
      inputAtEnd := c.inputAtEnd.or (some c.input) })
    { hwired with } hdrained hchild hfresh hpush.pump

/-- A frame without input overtakes those in the outbox. -/
lemma Carries.overtake {frame : Frame}
    (h : Carries c line held back) (hfits : frame.Fits) (hinput : frame.input = [])
    (hend : frame.endsInput = false) (socket : Buffer) :
    Carries { c with office := { c.office with socket := socket } } (line ++ [frame]) held back := by
  have hsame : ((line ++ [frame]) ++ held).flatMap Frame.input =
      (line ++ held).flatMap Frame.input := by
    simp [hinput]
  exact
    { h with
      fits := by
        intro f hf
        rw [List.append_assoc, List.mem_append, List.mem_append, List.mem_singleton] at hf
        rcases hf with hline | rfl | hheld
        · exact h.fits f (List.mem_append_left _ hline)
        · exact hfits
        · exact h.fits f (List.mem_append_right _ hheld)
      input := by
        rw [hsame]
        exact h.input
      count := by
        have hcount := h.count
        rw [List.flatMap_append, List.flatMap_singleton, hinput, List.append_nil]
        exact hcount
      ends := by
        intro before f after heq hf
        rw [List.append_assoc] at heq
        rcases List.append_eq_append_iff.1 heq with ⟨more, rfl, hrest⟩ | ⟨more, rfl, hrest⟩
        · cases more with
          | nil =>
            obtain ⟨rfl, -⟩ := List.cons.inj hrest
            rw [hend] at hf
            cases hf
          | cons first more =>
            obtain ⟨rfl, hheld⟩ := List.cons.inj hrest
            have hwithin := h.ends (line ++ more) f after (by
              rw [show held = more ++ f :: after from hheld, List.append_assoc]) hf
            rw [List.flatMap_append] at hwithin ⊢
            rw [List.flatMap_cons, hinput, List.nil_append]
            exact hwithin
        · cases more with
          | nil =>
            obtain ⟨rfl, -⟩ := List.cons.inj hrest
            rw [hend] at hf
            cases hf
          | cons first more =>
            obtain ⟨rfl, -⟩ := List.cons.inj hrest
            exact h.ends before f (more ++ held) (by simp) hf }

/-- **A signal of the office keeps the order.** -/
lemma Live.signal (h : Live request c) (name : JsString)
    (scope : Option SignalScope) :
    Live request { c with office := c.office.control (.signal name scope) } := by
  obtain ⟨line, held, back, hcarries, hwired⟩ := h.carries
  rw [RunnerStream.control_signal hcarries.isOpen]
  split_ifs with hfits
  · have hend : Frame.endsInput ⟨.json, (ClientControl.signal name scope).text⟩ = false := by
      simp [Frame.endsInput]
    refine { h with carries := ⟨_, held, back, hcarries.overtake hfits rfl hend _,
      hwired.send ?_ rfl⟩ }
    rw [List.flatMap_singleton]
  · exact h

/-- **A chunk that arrives at the runner keeps the order.**

**Proof sketch.** The decoder takes the first frames off the wire. When the request is still under
way, it is the first of them: it starts the process, or nothing more happens here. -/
lemma Live.arriveAtRunner (h : Live request c) (hended : c.runner.ended = false)
    (bytes : ℕ) (hrequest : (Frame.mk .json request).Fits) :
    InOrder request (c.arriveAtRunner accepts room bytes) := by
  obtain ⟨hdrained, hpumped, hchild, hfresh, line, held, back, hcarries, hwired⟩ := id h
  have hfits : ∀ frame ∈ c.lead request ++ line, frame.Fits := by
    intro frame hframe
    rcases List.mem_append.1 hframe with hlead | hline
    · rw [Connection.lead] at hlead
      split_ifs at hlead
      · cases hlead
      · rw [List.mem_singleton.1 hlead]
        exact hrequest
    · exact hcarries.fits frame (List.mem_append_left _ hline)
  obtain ⟨taken, later, left, hline, hdecode, hleft, hall⟩ :=
    readable.readFrames hfits (le_refl (c.runner.pending ++ c.office.socket.take bytes).length)
      (show (c.runner.pending ++ c.office.socket.take bytes) ++ c.office.socket.drop bytes =
        (c.lead request ++ line).flatMap Frame.bytes by
        rw [List.append_assoc, List.take_append_drop, hwired.toRunner])
  -- the connection whose decoder took the frames
  let d : Connection := { c with
    office := { c.office with socket := c.office.socket.drop bytes }
    runner := { c.runner with pending := left } }
  have harrive : c.arriveAtRunner accepts room bytes =
      taken.foldl (Connection.handleFrame accepts room) d := by
    have hgo : ¬(c.runner.ended && !c.runner.child) = true := by
      rw [hended]
      nofun
    unfold Connection.arriveAtRunner decode
    dsimp only
    rw [if_neg hgo, hdecode]
  rw [harrive]
  have hcarriesd : Carries d line held back := { hcarries with }
  have hwiredd (lead rest : List Frame) (hrest : later = lead ++ rest) (e : Connection)
      (hlead : e.lead request = lead) (hoffice : e.office = d.office)
      (hpending : e.runner.pending = left) (htoOffice : e.toOffice = c.toOffice)
      (hqueued : e.runner.queued = c.runner.queued) : Wired request e rest back := by
    refine ⟨?_, ?_, ?_, ?_, hwired.fits⟩
    · rw [hpending, hoffice, hlead, ← hrest]
      exact hleft
    · rw [hoffice, hlead, ← hrest]
      exact hall
    · rw [hoffice, htoOffice, hqueued]
      exact hwired.toOffice
    · rw [htoOffice, hqueued]
      exact hwired.quietOffice
  cases hstarted : c.runner.started with
  | true =>
    have hlead (e : Connection) (he : e.runner.started = true) : e.lead request = [] := by
      rw [Connection.lead, he]
      rfl
    rw [hlead c hstarted, List.nil_append] at hline
    rw [hline] at hcarriesd
    obtain ⟨hcarries', hdrained', hwires⟩ := @Carries.handleFrames _ accepts room _ _ _ _
      hcarriesd hdrained hstarted (hchild.trans hstarted)
    refine Live.inOrder ⟨hdrained', ?_, ?_, ?_, later, held, back, hcarries', ?_⟩
      (hwires.ended.trans hended)
    · rw [hwires.office]
      exact hpumped
    · rw [hwires.child, hwires.started]
      exact hchild
    · intro hfalse
      exact nomatch (hwires.started.symm.trans hfalse).symm.trans hstarted
    · exact (hwiredd [] later rfl d (hlead d hstarted) rfl rfl rfl rfl).of_same hwires
  | false =>
    have hlead : c.lead request = [⟨.json, request⟩] := by
      rw [Connection.lead, hstarted]
      rfl
    rw [hlead] at hline
    cases taken with
    | nil =>
      -- the request has not arrived
      exact Live.inOrder ⟨hdrained, hpumped, hchild, hfresh, line, held, back, hcarriesd,
        hwiredd _ line hline.symm d hlead rfl rfl rfl rfl⟩ hended
    | cons frame taken =>
      obtain ⟨rfl, hrest⟩ := List.cons.inj hline
      change line = taken ++ later at hrest
      rw [hrest] at hcarriesd
      have hnot : (!d.runner.started) = true := by
        show (!c.runner.started) = true
        rw [hstarted]
        rfl
      rw [List.foldl_cons, Connection.handleFrame, if_pos hnot]
      by_cases haccepts : accepts request = true
      · -- the request starts the process
        rw [if_pos (by simp [haccepts])]
        let e : Connection := { d with
          runner := { d.runner with
            started := true
            child := true } }
        have hcarriese : Carries e (taken ++ later) held back := { hcarriesd with }
        obtain ⟨hcarries', hdrained', hwires⟩ :=
          @Carries.handleFrames _ accepts room _ _ _ _ hcarriese hdrained rfl rfl
        refine Live.inOrder ⟨hdrained', ?_, ?_, ?_, later, held, back, hcarries',
          (hwiredd [] later rfl e rfl rfl rfl rfl rfl).of_same hwires⟩ (hwires.ended.trans hended)
        · rw [hwires.office]
          exact hpumped
        · rw [hwires.child, hwires.started]
        · intro hfalse
          exact nomatch hwires.started.symm.trans hfalse
      · -- the request starts nothing, and what follows it is dropped
        have hchildf : c.runner.child = false := hchild.trans hstarted
        let e : Connection := { d with
          runner := { d.runner with
            started := true
            ended := true } }
        rw [if_neg (by simp [haccepts])]
        show InOrder request (taken.foldl _ e)
        rw [handleFrames_dead (c := e) rfl hchildf]
        exact
          { written := hcarriesd.written_prefix
            ended := hcarriesd.ended
            dead := fun _ => ⟨hchildf, Or.inr (hfresh hstarted)⟩
            live := nofun }

/-- **A chunk that arrives at the office keeps the order.** -/
lemma Live.arriveAtOffice (h : Live request c) (bytes : ℕ) :
    Live request (c.arriveAtOffice bytes) := by
  obtain ⟨hdrained, hpumped, hchild, hfresh, line, held, back, hcarries, hwired⟩ := h
  obtain ⟨taken, later, left, rfl, hdecode, hleft, hall⟩ :=
    readable.readFrames hwired.fits (le_refl (c.office.pending ++ c.toOffice.take bytes).length)
      (show (c.office.pending ++ c.toOffice.take bytes) ++
          (c.toOffice.drop bytes ++ c.runner.queued.flatten) = back.flatMap Frame.bytes by
        rw [List.append_assoc, ← List.append_assoc (c.toOffice.take bytes),
          List.take_append_drop, hwired.toOffice])
  -- the connection whose decoder took the frames
  let d : Connection := { c with
    office := { c.office with pending := left }
    toOffice := c.toOffice.drop bytes }
  have harrive : c.arriveAtOffice bytes =
      { d with office := taken.foldl Connection.readReport d.office } := by
    unfold Connection.arriveAtOffice decode
    dsimp only
    rw [hdecode]
  have hsends : Sends d (taken.foldl Connection.readReport d.office) line held later :=
    Carries.readReports { hcarries with } hpumped
  have hwiredd : Wired request d line later :=
    { hwired with
      toOffice := hleft
      quietOffice := hall
      fits := fun frame hframe => hwired.fits frame (List.mem_append_right _ hframe) }
  rw [harrive]
  exact hwiredd.live_of_sends hdrained hchild hfresh hsends

lemma Wired.report {line back frames : List Frame} (h : Wired request c line back)
    (hfits : ∀ frame ∈ frames, frame.Fits) :
    Wired request { c with runner := { c.runner with
      queued := c.runner.queued ++ frames.map Frame.bytes } } line (back ++ frames) := by
  have hqueued : c.toOffice ++ (c.runner.queued ++ frames.map Frame.bytes).flatten =
      (c.toOffice ++ c.runner.queued.flatten) ++ frames.flatMap Frame.bytes := by
    rw [List.flatten_append, List.append_assoc, List.flatMap_def]
  exact
    { h with
      toOffice := by
        rw [hqueued, ← List.append_assoc, h.toOffice, List.flatMap_append]
      quietOffice := by
        intro hnil
        rw [hqueued] at hnil
        obtain ⟨hold, hnew⟩ := List.append_eq_nil_iff.1 hnil
        rw [h.quietOffice hold, flatMap_bytes_eq_nil hnew]
        rfl
      fits := by
        intro frame hframe
        rcases List.mem_append.1 hframe with hold | hnew
        · exact h.fits frame hold
        · exact hfits frame hnew }

lemma Live.send (h : Live request c) (hended : c.runner.ended = false)
    {frames : List Frame} (hfits : ∀ frame ∈ frames, frame.Fits)
    (hacked : ∀ frame ∈ frames, frame.acked = 0) :
    Live request { c with runner := c.runner.send (frames.map Frame.bytes) } := by
  obtain ⟨line, held, back, hcarries, hwired⟩ := h.carries
  have hsend : c.runner.send (frames.map Frame.bytes) =
      { c.runner with queued := c.runner.queued ++ frames.map Frame.bytes } := by
    rw [RunnerConnection.send, if_neg (by rw [hended]; nofun)]
  have hnone : (frames.map Frame.acked).sum = 0 := by
    refine List.sum_eq_zero fun n hn => ?_
    obtain ⟨frame, hframe, rfl⟩ := List.mem_map.1 hn
    exact hacked frame hframe
  rw [hsend]
  refine { h with carries := ⟨line, held, back ++ frames, ?_, hwired.report hfits⟩ }
  exact
    { hcarries with
      count := by
        rw [List.map_append, List.sum_append, hnone, Nat.add_zero]
        exact hcarries.count }

/-- **A write that is confirmed keeps the order**: its bytes are on the way back. -/
lemma Live.confirm (h : Live request c) (hended : c.runner.ended = false) :
    Live request c.confirm := by
  unfold Connection.confirm
  cases hunconfirmed : c.stdin.unconfirmed with
  | nil => exact h
  | cons chunk unconfirmed =>
    obtain ⟨line, held, back, hcarries, hwired⟩ := h.carries
    have hchunk : chunk.length ≤ MAX_FRAME_BYTES := by
      refine hcarries.chunks chunk (List.mem_append_right _ ?_)
      rw [hunconfirmed]
      exact List.mem_cons_self
    obtain ⟨frame, hframe⟩ : ∃ frame : Frame, frame =
        ⟨.json, (RunnerControl.stdinAck chunk.length).text⟩ := ⟨_, rfl⟩
    have hfits : frame.Fits := hframe ▸ fits_stdinAck hchunk
    have hacked : frame.acked = chunk.length := by
      rw [hframe, Frame.acked, if_pos rfl, stdinAckBytes_stdinAck]
      rfl
    have hencode : encodeFrame .json (RunnerControl.stdinAck chunk.length).text =
        some frame.bytes := by
      rw [hframe] at hfits ⊢
      exact if_pos hfits
    have hsend : c.runner.send [frame.bytes] =
        { c.runner with queued := c.runner.queued ++ [frame.bytes] } := by
      rw [RunnerConnection.send, if_neg (by rw [hended]; exact Bool.false_ne_true)]
    dsimp only
    rw [hencode]
    dsimp only
    rw [hsend]
    refine { h with carries := ⟨line, held, back ++ [frame], ?_,
      (hwired.report fun f hf => List.mem_singleton.1 hf ▸ hfits).of_same
        ⟨rfl, rfl, rfl, rfl, rfl, rfl, rfl, rfl, rfl⟩⟩ }
    exact
      { hcarries with
        chunks := by
          intro other hother
          refine hcarries.chunks other ?_
          rw [hunconfirmed]
          rcases List.mem_append.1 hother with hqueue | hrest
          · exact List.mem_append_left _ hqueue
          · exact List.mem_append_right _ (List.mem_cons_of_mem _ hrest)
        count := by
          have hcount := hcarries.count
          rw [hunconfirmed, List.flatten_cons, List.length_append] at hcount
          rw [List.map_append, List.sum_append, List.map_singleton, List.sum_singleton, hacked]
          show c.office.unackedStdin = (line.flatMap Frame.input).length +
            c.runner.stdinQueue.flatten.length + unconfirmed.flatten.length +
              c.stdin.failed.flatten.length + c.stdin.refused.flatten.length +
                ((back.map Frame.acked).sum + chunk.length)
          omega }

lemma Carries.fail (h : Carries c line held back) :
    Carries { c with stdin := c.stdin.fail } line held back where
  __ := h
  chunks := by
    intro chunk hchunk
    refine h.chunks chunk (List.mem_append_left _ ?_)
    simpa [ChildStdin.fail] using hchunk
  count := by
    have hcount := h.count
    simp only [ChildStdin.fail, List.flatten_append, List.length_append, List.flatten_nil,
      List.length_nil]
    omega
  refused := fun hne => ⟨(h.refused hne).1, by simp [ChildStdin.fail, ChildStdin.writable]⟩

lemma Live.fail (h : Live request c) :
    Live request { c with stdin := c.stdin.fail } := by
  obtain ⟨line, held, back, hcarries, hwired⟩ := h.carries
  exact { h with carries := ⟨line, held, back, hcarries.fail, { hwired with }⟩ }

lemma Live.drain (h : Live request c) : Live request (c.drain room) := by
  unfold Connection.drain
  split_ifs with hgo
  · rw [Bool.and_eq_true] at hgo
    obtain ⟨hdrained, hpumped, hchild, hfresh, line, held, back, hcarries, hwired⟩ := h
    have hnone : c.stdin.refused = [] := by
      by_contra hne
      rw [(hcarries.refused hne).2] at hgo
      cases hgo.2
    have hwires : SameWires c { c with
        runner := { c.runner with stdinBlocked := false } } :=
      ⟨rfl, rfl, rfl, rfl, rfl, rfl, rfl, rfl, rfl⟩
    have hfree : Carries { c with
        runner := { c.runner with stdinBlocked := false } } line held back :=
      hcarries.move hwires rfl rfl (fun _ hchunk => hchunk) (fun hflag => hflag) hcarries.ended
        fun hne => absurd hnone hne
    obtain ⟨hcarries', hdrained', hwires'⟩ := @Carries.pumpStdin _ _ _ _ room hfree
    have hall := hwires.trans hwires'
    refine ⟨hdrained', ?_, ?_, ?_, line, held, back, hcarries', hwired.of_same hall⟩
    · rw [hall.office]
      exact hpumped
    · rw [hall.child, hall.started]
      exact hchild
    · intro hstarted
      rw [hall.started] at hstarted
      rw [hfresh hstarted] at hgo
      cases hgo.1
  · exact h

lemma flushQueue_spec (room : ℕ) (queued : List Buffer) :
    (flushQueue room queued).1 ++ (flushQueue room queued).2.flatten = queued.flatten := by
  induction queued generalizing room with
  | nil => simp [flushQueue]
  | cons head queued ih =>
    unfold flushQueue
    split_ifs
    · rfl
    · rw [List.flatten_cons, ← List.append_assoc, List.take_append_drop, List.flatten_cons]
    · show head ++ (flushQueue (room - head.length) queued).1 ++ _ = _
      rw [List.append_assoc, ih, List.flatten_cons]

lemma Live.flush (h : Live request c) (bytes : ℕ) :
    Live request { c with
      toOffice := c.toOffice ++ (flushQueue bytes c.runner.queued).1
      runner := { c.runner with queued := (flushQueue bytes c.runner.queued).2 } } := by
  obtain ⟨line, held, back, hcarries, hwired⟩ := h.carries
  have hbytes : (c.toOffice ++ (flushQueue bytes c.runner.queued).1) ++
      (flushQueue bytes c.runner.queued).2.flatten = c.toOffice ++ c.runner.queued.flatten := by
    rw [List.append_assoc, flushQueue_spec]
  refine { h with carries := ⟨line, held, back, { hcarries with }, ?_⟩ }
  exact
    { hwired with
      toOffice := by
        rw [hbytes]
        exact hwired.toOffice
      quietOffice := by
        rw [hbytes]
        exact hwired.quietOffice }

lemma Live.output (h : Live request c) (hended : c.runner.ended = false)
    (type : FrameType) (data : Buffer) (htype : type ≠ .json) (frames : List Buffer)
    (hframes : encodeData type data = some frames) :
    Live request { c with runner := c.runner.send frames } := by
  rw [encodeData_eq] at hframes
  obtain rfl := Option.some.inj hframes
  have hsend := @Live.send _ _ h hended ((dataChunks data).map (Frame.mk type)) (by
      intro frame hframe
      obtain ⟨chunk, hchunk, rfl⟩ := List.mem_map.1 hframe
      exact (length_of_mem_dataChunks hchunk).2) (by
      intro frame hframe
      obtain ⟨chunk, -, rfl⟩ := List.mem_map.1 hframe
      rw [Frame.acked, if_neg htype])
  rw [List.map_map] at hsend
  exact hsend

lemma arriveAtOffice_runner (c : Connection) (bytes : ℕ) :
    (c.arriveAtOffice bytes).runner = c.runner := by
  unfold Connection.arriveAtOffice
  dsimp only
  split <;> rfl

lemma arriveAtOffice_stdin (c : Connection) (bytes : ℕ) :
    (c.arriveAtOffice bytes).stdin = c.stdin ∧ (c.arriveAtOffice bytes).input = c.input ∧
      (c.arriveAtOffice bytes).inputAtEnd = c.inputAtEnd := by
  unfold Connection.arriveAtOffice
  dsimp only
  split <;> exact ⟨rfl, rfl, rfl⟩

lemma send_ended (runner : RunnerConnection) (frames : List Buffer) :
    (runner.send frames).ended = runner.ended ∧ (runner.send frames).child = runner.child ∧
      (runner.send frames).stdinBlocked = runner.stdinBlocked := by
  unfold RunnerConnection.send
  split_ifs <;> exact ⟨rfl, rfl, rfl⟩

lemma InOrder.of_dead {c c' : Connection} (h : InOrder request c)
    (hwritten : c'.stdin.written = c.stdin.written) (hended : c'.stdin.ended = c.stdin.ended)
    (hinput : c.input <+: c'.input)
    (hasked : ∀ front, c.inputAtEnd = some front → c'.inputAtEnd = some front)
    (hdead : c'.runner.ended = true) (hchild : c'.runner.child = false)
    (hquiet : c'.stdin.writable = false ∨ c'.runner.stdinBlocked = false) :
    InOrder request c' where
  written := by
    rw [hwritten]
    exact h.written.trans hinput
  ended := by
    intro hflag
    rw [hended] at hflag
    obtain ⟨front, hfront, hprefix⟩ := h.ended hflag
    rw [hwritten]
    exact ⟨front, hasked front hfront, hprefix⟩
  dead := fun _ => ⟨hchild, hquiet⟩
  live := by
    intro hfalse
    rw [hdead] at hfalse
    cases hfalse

/-- An event keeps a connection that is over in order. -/
lemma InOrder.step_dead (h : InOrder request c) (hdead : c.runner.ended = true)
    (event : ConnectionEvent) : InOrder request (c.step accepts room event) := by
  obtain ⟨hchild, hquiet⟩ := h.dead hdead
  cases event with
  | write data =>
    refine h.of_dead rfl rfl ?_ (fun _ hfront => hfront) hdead hchild hquiet
    show c.input <+: if c.office.closed then c.input else c.input ++ data
    split_ifs
    · exact List.prefix_rfl
    · exact List.prefix_append _ _
  | control message =>
    refine h.of_dead rfl rfl List.prefix_rfl ?_ hdead hchild hquiet
    intro front hfront
    cases message with
    | signal name scope => exact hfront
    | stdinEnd =>
      show (if c.office.closed then c.inputAtEnd else c.inputAtEnd.or (some c.input)) = some front
      rw [hfront]
      split_ifs <;> rfl
  | toRunner bytes =>
    have hstep : c.step accepts room (.toRunner bytes) =
        { c with office := { c.office with socket := c.office.socket.drop bytes } } := by
      show c.arriveAtRunner accepts room bytes = _
      unfold Connection.arriveAtRunner
      dsimp only
      rw [if_pos (by rw [hdead, hchild]; rfl)]
    rw [hstep]
    exact h.of_dead rfl rfl List.prefix_rfl (fun _ hfront => hfront) hdead hchild hquiet
  | toOffice bytes =>
    have hrunner := arriveAtOffice_runner c bytes
    obtain ⟨hstdin, hinput, hasked⟩ := arriveAtOffice_stdin c bytes
    show InOrder request (c.arriveAtOffice bytes)
    refine h.of_dead (by rw [hstdin]) (by rw [hstdin]) (by rw [hinput]) (fun front hfront => ?_)
      (by rw [hrunner]; exact hdead) (by rw [hrunner]; exact hchild)
      (by rw [hrunner, hstdin]; exact hquiet)
    rw [hasked]
    exact hfront
  | written =>
    have hsend : ∀ frames, c.runner.send frames = c.runner := fun frames => by
      rw [RunnerConnection.send, if_pos hdead]
    show InOrder request c.confirm
    unfold Connection.confirm
    split
    · exact h
    · next chunk unconfirmed _ =>
      refine h.of_dead rfl rfl List.prefix_rfl (fun _ hfront => hfront) ?_ ?_ ?_
      · split
        · rw [hsend]
          exact hdead
        · exact hdead
      · split
        · rw [hsend]
          exact hchild
        · exact hchild
      · split
        · rw [hsend]
          exact hquiet
        · exact hquiet
  | failed =>
    exact h.of_dead rfl rfl List.prefix_rfl (fun _ hfront => hfront) hdead hchild
      (Or.inl (by simp [Connection.step, ChildStdin.fail, ChildStdin.writable]))
  | drain =>
    have hstep : c.step accepts room .drain = c := by
      show c.drain room = c
      unfold Connection.drain
      rw [if_neg]
      rcases hquiet with hclosed | hfree
      · rw [hclosed, Bool.and_false]
        exact Bool.false_ne_true
      · rw [hfree]
        exact Bool.false_ne_true
    rw [hstep]
    exact h
  | output type data =>
    have hstep : c.step accepts room (.output type data) = c := by
      show c.output type data = c
      unfold Connection.output
      rw [hchild]
    rw [hstep]
    exact h
  | spawned pid =>
    have hstep : c.step accepts room (.spawned pid) = c := by
      show c.spawned pid = c
      unfold Connection.spawned
      rw [hchild]
    rw [hstep]
    exact h
  | flush bytes =>
    exact h.of_dead rfl rfl List.prefix_rfl (fun _ hfront => hfront) hdead hchild hquiet
  | exit =>
    have hstep : c.step accepts room .exit = c := by
      show (if c.runner.child then _ else c) = c
      rw [hchild, if_neg Bool.false_ne_true]
    rw [hstep]
    exact h

lemma Live.exit (h : Live request c) (hended : c.runner.ended = false) :
    InOrder request { c with
      stdin := c.stdin.fail
      runner := { c.runner with
        child := false
        ended := true } } := by
  have hold := h.inOrder hended
  exact
    { hold with
      dead := fun _ => ⟨rfl, Or.inl (by simp [ChildStdin.fail, ChildStdin.writable])⟩
      live := nofun }

/-- **An event keeps the connection in order.** -/
theorem inOrder_step (hrequest : (Frame.mk .json request).Fits) (c : Connection)
    (event : ConnectionEvent) (h : InOrder request c) :
    InOrder request (c.step accepts room event) := by
  by_cases hended : c.runner.ended = false
  · have hlive := h.live hended
    cases event with
    | write data => exact (hlive.write data).inOrder hended
    | control message =>
      cases message with
      | stdinEnd => exact hlive.stdinEnd.inOrder hended
      | signal name scope => exact (hlive.signal name scope).inOrder hended
    | toRunner bytes => exact hlive.arriveAtRunner hended bytes hrequest
    | toOffice bytes =>
      refine (hlive.arriveAtOffice bytes).inOrder ?_
      rw [arriveAtOffice_runner]
      exact hended
    | written =>
      refine (hlive.confirm hended).inOrder ?_
      unfold Connection.confirm
      split
      · exact hended
      · dsimp only
        split
        · exact (send_ended _ _).1.trans hended
        · exact hended
    | failed => exact hlive.fail.inOrder hended
    | drain =>
      refine hlive.drain.inOrder ?_
      show (c.drain room).runner.ended = false
      unfold Connection.drain Connection.pumpStdin Connection.endQueue Connection.pumpQueue
      dsimp only
      split_ifs <;> exact hended
    | output type data =>
      show InOrder request (c.output type data)
      unfold Connection.output
      split
      · next heq =>
        exact (hlive.output hended .stdout data nofun _ heq).inOrder
          ((send_ended _ _).1.trans hended)
      · next heq =>
        exact (hlive.output hended .stderr data nofun _ heq).inOrder
          ((send_ended _ _).1.trans hended)
      · exact h
    | spawned pid =>
      show InOrder request (c.spawned pid)
      unfold Connection.spawned
      split
      · next frame _ heq =>
        rw [encodeFrame] at heq
        split_ifs at heq with hfits
        obtain rfl := Option.some.inj heq
        have hsend := @Live.send _ _ hlive hended
          [⟨.json, (RunnerControl.spawned pid).text⟩]
          (fun f hf => List.mem_singleton.1 hf ▸ hfits)
          (fun f hf => by
            rw [List.mem_singleton.1 hf, Frame.acked, if_pos rfl, stdinAckBytes_spawned]
            rfl)
        exact hsend.inOrder ((send_ended _ _).1.trans hended)
      · exact h
    | flush bytes => exact (hlive.flush bytes).inOrder hended
    | exit =>
      show InOrder request (if c.runner.child then _ else c)
      split_ifs
      · exact hlive.exit hended
      · exact h
  · rw [Bool.not_eq_false] at hended
    exact h.step_dead hended event

/-! ## What holds of the input -/

/-- The connection and the child run, every byte that was sent has arrived, and the pipe took what
it was given and has room. -/
structure Settled (c : Connection) : Prop where
  child : c.runner.child = true
  running : c.runner.ended = false
  toRunner : c.office.socket = []
  toOffice : c.toOffice = []
  queued : c.runner.queued = []
  room : c.runner.stdinBlocked = false
  confirmed : c.stdin.unconfirmed = []
  intact : c.stdin.failed = []

structure StdinInOrder (c : Connection) : Prop where
  written : c.stdin.written.flatten <+: c.input
  ended : c.stdin.ended = true → c.EndsWithin c.stdin.written.flatten
  endedBehind : c.stdin.ended = true → c.inputAtEnd = some c.input →
    c.stdin.written.flatten = c.input
  acknowledged : c.runner.ended = false → c.office.unackedStdin = 0 → c.office.outbox = []
  settled : Settled c → c.office.unackedStdin = 0 ∧ c.office.outbox = [] ∧
    c.stdin.written.flatten = c.input

lemma inOrder_start (request : Buffer) : InOrder request (.start request) := by
  refine Live.inOrder ⟨fun _ => rfl, nofun, rfl, fun _ => rfl, [], [], [], ?_, ?_⟩ rfl
  · exact
      { isOpen := rfl
        outbox := rfl
        fits := nofun
        chunks := nofun
        input := rfl
        asked := nofun
        count := rfl
        ends := by
          intro before frame after heq
          cases before <;> cases heq
        ending := nofun
        ended := nofun
        refused := fun hne => absurd rfl hne }
  · exact
      { toRunner := (List.append_nil _).symm
        quietRunner := by
          intro hnil
          have hlength := congrArg List.length hnil
          change (Frame.mk .json request).bytes.length = 0 at hlength
          rw [length_bytes] at hlength
          exact absurd hlength (by simp)
        toOffice := rfl
        quietOffice := fun _ => rfl
        fits := nofun }

lemma outbox_eq_nil (h : office.Pumped) (hzero : office.unackedStdin = 0) :
    office.outbox = [] := by
  cases houtbox : office.outbox with
  | nil => rfl
  | cons item outbox =>
    have hfull := (h item (by rw [houtbox]; rfl)).2
    rw [hzero] at hfull
    exact absurd hfull (by decide)

/-- **A connection that settles has delivered everything.** -/
lemma Live.settled (h : Live request c) (hsettled : Settled c) :
    c.office.unackedStdin = 0 ∧ c.office.outbox = [] ∧ c.stdin.written.flatten = c.input := by
  obtain ⟨hdrained, hpumped, hchild, -, line, held, back, hcarries, hwired⟩ := h
  have hline : line = [] := (List.append_eq_nil_iff.1 (hwired.quietRunner hsettled.toRunner)).2
  have hback : back = [] := hwired.quietOffice (by rw [hsettled.toOffice, hsettled.queued]; rfl)
  have hqueue := hdrained hsettled.room
  have hrefused : c.stdin.refused = [] := by
    by_contra hne
    have hblocked := (hcarries.refused hne).1
    rw [hsettled.room] at hblocked
    cases hblocked
  have hzero : c.office.unackedStdin = 0 := by
    rw [hcarries.count, hline, hback, hqueue, hrefused, hsettled.confirmed, hsettled.intact]
    rfl
  have houtbox := outbox_eq_nil hpumped hzero
  have hheld : held = [] := by
    rw [hcarries.outbox] at houtbox
    exact List.map_eq_nil_iff.1 houtbox
  refine ⟨hzero, houtbox, ?_⟩
  have hinput := hcarries.input
  rw [Connection.arrived, hline, hheld, hqueue, hrefused] at hinput
  simpa using hinput

/-- **The input of a process arrives once and in order**, whatever the order in which the office
writes and asks for the end, chunks of any size arrive on either side, writes are confirmed and the
pipe drains: at every moment the pipe was given a front of what the office wrote, it ends only
behind everything written before the end was asked for, and nothing stays in the outbox when the
connection settles. -/
theorem stdin_in_order (accepts : Buffer → Bool) (room : ℕ → Bool) (request : Buffer)
    (hrequest : (Frame.mk .json request).Fits) (events : List ConnectionEvent) :
    StdinInOrder (Machine.run (Connection.step accepts room) (.start request) events) := by
  have h : InOrder request (Machine.run (Connection.step accepts room) (.start request) events) :=
    Machine.run_invariant (fun c event hc => inOrder_step hrequest c event hc)
      (inOrder_start request)
  exact
    { h with
      endedBehind := by
        intro hended hasked
        obtain ⟨front, hfront, hprefix⟩ := h.ended hended
        rw [hasked] at hfront
        obtain rfl := Option.some.inj hfront
        exact h.written.eq_of_length_le hprefix.length_le
      acknowledged := fun hended hzero => outbox_eq_nil (h.live hended).pumped hzero
      settled := fun hsettled => (h.live hsettled.running).settled hsettled }

theorem stdin_in_order_full_pipe :
    StdinInOrder (Machine.run (Connection.step (fun _ => true) fun n => n = 0)
      (.start [123, 125])
      [.write [1, 2], .toRunner 9, .write [3], .control .stdinEnd, .toRunner 30, .written,
        .drain, .flush 20, .toOffice 20]) :=
  stdin_in_order _ _ _ (by simp [Frame.Fits, MAX_FRAME_BYTES]) _

end Isomux.AgentRunner
