import Isomux.AgentRunner.Connection

set_option autoImplicit false

/-!
# Where the input of a process is

What the office wrote is at every moment in four places, one behind the other: the chunks that the
pipe was given, the queue of the runner, the frames on the wire, and the outbox. The end of the
input has its place among them. The bytes in flight are counted once, on their way to the pipe or
back as an acknowledgement.

## Main results

* `Isomux.AgentRunner.Carries.pump` — the pump carries frames from the outbox to the wire.
* `Isomux.AgentRunner.Carries.handleFrame` — a frame that arrives takes its place in the runner.
* `Isomux.AgentRunner.Carries.readReport` — a report takes its bytes off those in flight.
-/

namespace Isomux.AgentRunner

/-! ## Frames -/

variable (frame : Frame)

def Frame.input : Buffer := if frame.type = .stdin then frame.payload else []

/-- Whether a frame is the end of the input. -/
def Frame.endsInput : Bool := frame.type = .json && isStdinEnd frame.payload

/-- The bytes that a frame of the runner acknowledges. -/
def Frame.acked : ℕ :=
  if frame.type = .json then (stdinAckBytes frame.payload).getD 0 else 0

/-- A frame of the office as it waits in the outbox. -/
def Frame.item : OutboxItem := ⟨frame.bytes, frame.input.length⟩

lemma inputBytes_map_item (frames : List Frame) :
    inputBytes (frames.map Frame.item) = (frames.flatMap Frame.input).length := by
  induction frames with
  | nil => rfl
  | cons frame frames ih =>
    rw [List.map_cons, inputBytes_cons, ih, List.flatMap_cons, List.length_append]
    rfl

def stdinFrames (data : Buffer) : List Frame := (dataChunks data).map (Frame.mk .stdin)

lemma flatMap_input_stdinFrames (data : Buffer) : (stdinFrames data).flatMap Frame.input = data := by
  rw [stdinFrames, List.flatMap_map]
  rw [show (dataChunks data).flatMap (fun chunk => (Frame.mk .stdin chunk).input) =
    (dataChunks data).flatten from List.flatMap_id']
  exact flatten_dataChunks data

def RunnerStream.Pumped (office : RunnerStream) : Prop :=
  ∀ item ∈ office.outbox.head?, item.stdinBytes ≠ 0 ∧ STDIN_WINDOW_BYTES ≤ office.unackedStdin

/-- **What the pump does to frames that wait.** -/
lemma pump_frames {office : RunnerStream} {held : List Frame}
    (houtbox : office.outbox = held.map Frame.item) :
    ∃ sent rest, held = sent ++ rest ∧
      office.pump = { office with
        unackedStdin := office.unackedStdin + (sent.flatMap Frame.input).length
        outbox := rest.map Frame.item
        socket := office.socket ++ sent.flatMap Frame.bytes } ∧ office.pump.Pumped := by
  obtain ⟨hsplit, hcount, hstop⟩ := pumpLoop_spec office.unackedStdin office.outbox
  obtain ⟨sent, rest, rfl, hsent, hrest⟩ :=
    List.map_eq_append_iff.1 (hsplit.trans houtbox).symm
  refine ⟨sent, rest, rfl, ?_, hstop⟩
  unfold RunnerStream.pump
  simp only [hcount, ← hsent, ← hrest, inputBytes_map_item, List.flatMap_map]
  rfl

/-! ## The places of the input -/

/-- What the pipe was given, and what waits for it in the runner. -/
def Connection.arrived (c : Connection) : Buffer :=
  (c.stdin.written ++ c.stdin.refused ++ c.runner.stdinQueue).flatten

/-- The office asked for the end, and had written no more than some bytes before. -/
def Connection.EndsWithin (c : Connection) (bytes : Buffer) : Prop :=
  ∃ front, c.inputAtEnd = some front ∧ front <+: bytes

variable {line held back : List Frame} {c : Connection}

lemma Connection.EndsWithin.mono {bytes more : Buffer} (h : c.EndsWithin bytes)
    (hmore : bytes <+: more) : c.EndsWithin more := by
  obtain ⟨front, hfront, hprefix⟩ := h
  exact ⟨front, hfront, hprefix.trans hmore⟩

/-- Where the input, its end and the bytes in flight are: `line` are the frames on the wire, `held`
those in the outbox, and `back` those on the way back. -/
structure Carries (c : Connection) (line held back : List Frame) : Prop where
  isOpen : c.office.closed = false
  outbox : c.office.outbox = held.map Frame.item
  fits : ∀ frame ∈ line ++ held, frame.Fits
  chunks : ∀ chunk ∈ c.runner.stdinQueue ++ c.stdin.unconfirmed,
    chunk.length ≤ MAX_FRAME_BYTES
  input : c.arrived ++ (line ++ held).flatMap Frame.input = c.input
  asked : ∀ front, c.inputAtEnd = some front → front <+: c.input
  count : c.office.unackedStdin = (line.flatMap Frame.input).length +
    c.runner.stdinQueue.flatten.length + c.stdin.unconfirmed.flatten.length +
      c.stdin.failed.flatten.length + c.stdin.refused.flatten.length + (back.map Frame.acked).sum
  ends : ∀ before frame after, line ++ held = before ++ frame :: after →
    frame.endsInput = true → c.EndsWithin (c.arrived ++ before.flatMap Frame.input)
  ending : c.runner.stdinEnd = true → c.EndsWithin c.arrived
  ended : c.stdin.ended = true → c.EndsWithin c.stdin.written.flatten
  refused : c.stdin.refused ≠ [] → c.runner.stdinBlocked = true ∧ c.stdin.writable = false

/-- The queue of the runner waits for the pipe only. -/
def Drained (c : Connection) : Prop := c.runner.stdinBlocked = false → c.runner.stdinQueue = []

/-- The office put some frames of the outbox on the wire, as many as the window allows. -/
def Sends (c : Connection) (office : RunnerStream) (line held back : List Frame) : Prop :=
  ∃ sent rest, held = sent ++ rest ∧
    Carries { c with office := office } (line ++ sent) rest back ∧
    office.socket = c.office.socket ++ sent.flatMap Frame.bytes ∧
    office.pending = c.office.pending ∧ office.Pumped

lemma Carries.pump (h : Carries c line held back) :
    Sends c c.office.pump line held back := by
  obtain ⟨sent, rest, rfl, hpump, hstop⟩ := pump_frames h.outbox
  refine ⟨sent, rest, rfl, ?_, ?_, ?_, hstop⟩
  · rw [hpump]
    exact
      { h with
        outbox := rfl
        fits := by
          rw [List.append_assoc]
          exact h.fits
        input := by
          rw [List.append_assoc]
          exact h.input
        count := by
          have hcount := h.count
          simp only [List.flatMap_append, List.length_append]
          omega
        ends := by
          rw [List.append_assoc]
          exact h.ends }
  · rw [hpump]
  · rw [hpump]

/-- New frames wait behind the others, and the input grows by what is in them. -/
lemma Carries.push (h : Carries c line held back)
    {frames : List Frame} {inputAtEnd : Option Buffer} (hfits : ∀ frame ∈ frames, frame.Fits)
    (hkeep : ∀ front, c.inputAtEnd = some front → inputAtEnd = some front)
    (hasked : ∀ front, inputAtEnd = some front → front <+: c.input)
    (hends : ∀ frame ∈ frames, frame.endsInput = true → ∃ front, inputAtEnd = some front) :
    Carries { c with
      office := { c.office with outbox := c.office.outbox ++ frames.map Frame.item }
      input := c.input ++ frames.flatMap Frame.input
      inputAtEnd := inputAtEnd } line (held ++ frames) back := by
  have hgrow : ∀ bytes, c.EndsWithin bytes →
      ∃ front, inputAtEnd = some front ∧ front <+: bytes := by
    rintro bytes ⟨front, hfront, hprefix⟩
    exact ⟨front, hkeep front hfront, hprefix⟩
  exact
    { h with
      outbox := by
        show c.office.outbox ++ _ = _
        rw [h.outbox, List.map_append]
      fits := by
        intro frame hframe
        rw [← List.append_assoc] at hframe
        rcases List.mem_append.1 hframe with hold | hnew
        · exact h.fits frame hold
        · exact hfits frame hnew
      input := by
        rw [← List.append_assoc, List.flatMap_append, ← List.append_assoc]
        exact congrArg (· ++ frames.flatMap Frame.input) h.input
      asked := fun front hfront => (hasked front hfront).trans (List.prefix_append _ _)
      ends := by
        intro before frame after heq hend
        rw [← List.append_assoc] at heq
        rcases List.append_eq_append_iff.1 heq with ⟨more, hbefore, hframes⟩ | ⟨more, hold, hafter⟩
        · -- the end is among the new frames
          obtain ⟨front, hfront⟩ := hends frame (by
            rw [hframes]
            exact List.mem_append_right _ List.mem_cons_self) hend
          refine ⟨front, hfront, ?_⟩
          show front <+: c.arrived ++ before.flatMap Frame.input
          rw [hbefore, List.flatMap_append, ← List.append_assoc, h.input]
          exact (hasked front hfront).trans (List.prefix_append _ _)
        · cases more with
          | nil =>
            -- the end is the first of the new frames
            rw [List.append_nil] at hold
            obtain ⟨front, hfront⟩ := hends frame (by
              rw [show frames = frame :: after from hafter.symm]
              exact List.mem_cons_self) hend
            refine ⟨front, hfront, ?_⟩
            show front <+: c.arrived ++ before.flatMap Frame.input
            rw [← hold, h.input]
            exact hasked front hfront
          | cons first more =>
            obtain ⟨rfl, -⟩ := List.cons.inj hafter
            exact hgrow _ (h.ends before frame more hold hend)
      ending := fun hflag => hgrow _ (h.ending hflag)
      ended := fun hended => hgrow _ (h.ended hended) }

/-! ## The runner -/

/-- What `pumpStdin` and `handleFrame` leave alone of a process that runs. -/
structure SameWires (c c' : Connection) : Prop where
  office : c'.office = c.office
  toOffice : c'.toOffice = c.toOffice
  input : c'.input = c.input
  inputAtEnd : c'.inputAtEnd = c.inputAtEnd
  pending : c'.runner.pending = c.runner.pending
  queued : c'.runner.queued = c.runner.queued
  ended : c'.runner.ended = c.runner.ended
  started : c'.runner.started = c.runner.started
  child : c'.runner.child = c.runner.child

lemma SameWires.refl (c : Connection) : SameWires c c := ⟨rfl, rfl, rfl, rfl, rfl, rfl, rfl, rfl, rfl⟩

lemma SameWires.trans {a b c : Connection} (h : SameWires a b) (h' : SameWires b c) :
    SameWires a c where
  office := h'.office.trans h.office
  toOffice := h'.toOffice.trans h.toOffice
  input := h'.input.trans h.input
  inputAtEnd := h'.inputAtEnd.trans h.inputAtEnd
  pending := h'.pending.trans h.pending
  queued := h'.queued.trans h.queued
  ended := h'.ended.trans h.ended
  started := h'.started.trans h.started
  child := h'.child.trans h.child

variable {accepts : Buffer → Bool} {room : ℕ → Bool}

/-- **What the queue does to a pipe that takes chunks**: it gives it the first chunks, and stops
with the others only for the lack of room. -/
lemma writeQueue_writable {stdin : ChildStdin} (h : stdin.writable = true) (queue : List Buffer) :
    ∃ took, queue = took ++ (writeQueue room stdin queue).2.1 ∧
      (writeQueue room stdin queue).1 = { stdin with
        written := stdin.written ++ took
        unconfirmed := stdin.unconfirmed ++ took } ∧
      ((writeQueue room stdin queue).2.2 = false → (writeQueue room stdin queue).2.1 = []) := by
  induction queue generalizing stdin with
  | nil =>
    refine ⟨[], rfl, ?_, fun _ => rfl⟩
    simp [writeQueue]
  | cons chunk queue ih =>
    have hwrite : stdin.write room chunk = ({ stdin with
        written := stdin.written ++ [chunk]
        unconfirmed := stdin.unconfirmed ++ [chunk] }, room stdin.written.length) := by
      rw [ChildStdin.write, if_pos h]
    unfold writeQueue
    rw [hwrite]
    split_ifs with hroom
    · obtain ⟨took, hqueue, hstdin, hstop⟩ := @ih { stdin with
        written := stdin.written ++ [chunk]
        unconfirmed := stdin.unconfirmed ++ [chunk] } h
      refine ⟨chunk :: took, ?_, ?_, hstop⟩
      · rw [List.cons_append, ← hqueue]
      · rw [hstdin]
        simp [List.append_assoc]
    · exact ⟨[chunk], rfl, rfl, nofun⟩

lemma writeQueue_not_writable {stdin : ChildStdin} (h : stdin.writable = false)
    (queue : List Buffer) :
    queue = [] ∧ writeQueue room stdin queue = (stdin, [], false) ∨
      ∃ chunk rest, queue = chunk :: rest ∧ writeQueue room stdin queue =
        ({ stdin with refused := stdin.refused ++ [chunk] }, rest, true) := by
  cases queue with
  | nil => exact Or.inl ⟨rfl, rfl⟩
  | cons chunk rest =>
    refine Or.inr ⟨chunk, rest, rfl, ?_⟩
    have hwrite : stdin.write room chunk =
        ({ stdin with refused := stdin.refused ++ [chunk] }, false) := by
      rw [ChildStdin.write, if_neg (by rw [h]; nofun)]
    unfold writeQueue
    rw [hwrite]
    rfl

/-- Chunks that only move between the runner and the pipe leave everything in its place. -/
lemma Carries.move {c c' : Connection} (h : Carries c line held back)
    (hwires : SameWires c c') (harrived : c'.arrived = c.arrived)
    (hcount : c'.runner.stdinQueue.flatten.length + c'.stdin.unconfirmed.flatten.length +
      c'.stdin.failed.flatten.length + c'.stdin.refused.flatten.length =
        c.runner.stdinQueue.flatten.length + c.stdin.unconfirmed.flatten.length +
          c.stdin.failed.flatten.length + c.stdin.refused.flatten.length)
    (hchunks : ∀ chunk ∈ c'.runner.stdinQueue ++ c'.stdin.unconfirmed,
      chunk ∈ c.runner.stdinQueue ++ c.stdin.unconfirmed)
    (hending : c'.runner.stdinEnd = true → c.runner.stdinEnd = true)
    (hended : c'.stdin.ended = true → c.EndsWithin c'.stdin.written.flatten)
    (hrefused : c'.stdin.refused ≠ [] →
      c'.runner.stdinBlocked = true ∧ c'.stdin.writable = false) :
    Carries c' line held back := by
  have hwithin : ∀ bytes, c.EndsWithin bytes → c'.EndsWithin bytes := by
    rintro bytes ⟨front, hfront, hprefix⟩
    exact ⟨front, hwires.inputAtEnd.trans hfront, hprefix⟩
  exact
    { isOpen := by
        rw [hwires.office]
        exact h.isOpen
      outbox := by
        rw [hwires.office]
        exact h.outbox
      fits := h.fits
      chunks := fun chunk hchunk => h.chunks chunk (hchunks chunk hchunk)
      input := by
        rw [harrived, hwires.input]
        exact h.input
      asked := by
        rw [hwires.inputAtEnd, hwires.input]
        exact h.asked
      count := by
        have hold := h.count
        rw [hwires.office]
        omega
      ends := by
        intro before frame after heq hend
        rw [harrived]
        exact hwithin _ (h.ends before frame after heq hend)
      ending := by
        intro hflag
        rw [harrived]
        exact hwithin _ (h.ending (hending hflag))
      ended := fun hflag => hwithin _ (hended hflag)
      refused := hrefused }

/-- The first half of `pumpStdin` keeps everything in its place. -/
lemma Carries.pumpQueue
    (h : Carries c line held back) :
    Carries (c.pumpQueue room) line held back ∧ Drained (c.pumpQueue room) ∧
      SameWires c (c.pumpQueue room) := by
  unfold Connection.pumpQueue
  split_ifs with hblocked
  · refine ⟨h, fun hfree => ?_, .refl c⟩
    rw [hblocked] at hfree
    cases hfree
  · have hnone : c.stdin.refused = [] := by
      by_contra hne
      exact hblocked (h.refused hne).1
    by_cases hwritable : c.stdin.writable = true
    · obtain ⟨took, hqueue, hstdin, hstop⟩ :=
        @writeQueue_writable room _ hwritable c.runner.stdinQueue
      have hwires : SameWires c { c with
          stdin := (writeQueue room c.stdin c.runner.stdinQueue).1
          runner := { c.runner with
            stdinQueue := (writeQueue room c.stdin c.runner.stdinQueue).2.1
            stdinBlocked := (writeQueue room c.stdin c.runner.stdinQueue).2.2 } } :=
        ⟨rfl, rfl, rfl, rfl, rfl, rfl, rfl, rfl, rfl⟩
      refine ⟨h.move hwires ?_ ?_ ?_ (fun hflag => hflag) ?_ ?_, hstop, hwires⟩
      · simp only [Connection.arrived, hstdin, hnone, List.append_nil]
        rw [List.append_assoc, ← hqueue]
      · have hlength := congrArg (fun queue => queue.flatten.length) hqueue
        simp only [hstdin, List.flatten_append, List.length_append] at hlength ⊢
        omega
      · intro chunk hchunk
        simp only [hstdin] at hchunk
        rw [hqueue]
        simp only [List.mem_append] at hchunk ⊢
        tauto
      · intro hended
        simp only [hstdin] at hended
        rw [ChildStdin.writable, hended] at hwritable
        cases hwritable
      · intro hne
        simp only [hstdin] at hne
        exact absurd hnone hne
    · rw [Bool.not_eq_true] at hwritable
      rcases @writeQueue_not_writable room _ hwritable c.runner.stdinQueue with
        ⟨hqueue, hwrite⟩ | ⟨chunk, rest, hqueue, hwrite⟩
      · rw [hwrite]
        have hwires : SameWires c { c with
            runner := { c.runner with
              stdinQueue := []
              stdinBlocked := false } } := ⟨rfl, rfl, rfl, rfl, rfl, rfl, rfl, rfl, rfl⟩
        refine ⟨h.move hwires ?_ ?_ ?_ (fun hflag => hflag) h.ended ?_, fun _ => rfl, hwires⟩
        · simp only [Connection.arrived, hqueue]
        · simp only [hqueue]
        · intro chunk hchunk
          rw [hqueue]
          exact hchunk
        · exact fun hne => absurd hnone hne
      · rw [hwrite]
        have hwires : SameWires c { c with
            stdin := { c.stdin with refused := c.stdin.refused ++ [chunk] }
            runner := { c.runner with
              stdinQueue := rest
              stdinBlocked := true } } := ⟨rfl, rfl, rfl, rfl, rfl, rfl, rfl, rfl, rfl⟩
        refine ⟨h.move hwires ?_ ?_ ?_ (fun hflag => hflag) h.ended ?_, nofun, hwires⟩
        · simp [Connection.arrived, hqueue]
        · simp only [hqueue, List.flatten_append, List.flatten_cons, List.flatten_nil,
            List.length_append, List.append_nil]
          omega
        · intro other hother
          rw [hqueue]
          exact List.mem_cons_of_mem _ hother
        · exact fun _ => ⟨rfl, hwritable⟩

lemma Carries.endQueue
    (h : Carries c line held back) (hdrained : Drained c) :
    Carries c.endQueue line held back ∧ Drained c.endQueue ∧ SameWires c c.endQueue := by
  unfold Connection.endQueue
  split_ifs with hend
  · simp only [Bool.and_eq_true, Bool.not_eq_true', List.isEmpty_iff] at hend
    obtain ⟨⟨hflag, hfree⟩, hqueue⟩ := hend
    have hnone : c.stdin.refused = [] := by
      by_contra hne
      rw [(h.refused hne).1] at hfree
      cases hfree
    have hwires : SameWires c { c with
        stdin := { c.stdin with ended := true }
        runner := { c.runner with stdinEnd := false } } :=
      ⟨rfl, rfl, rfl, rfl, rfl, rfl, rfl, rfl, rfl⟩
    refine ⟨h.move hwires rfl rfl (fun _ hchunk => hchunk) nofun ?_ ?_, hdrained, hwires⟩
    · intro _
      have hending := h.ending hflag
      rw [Connection.arrived, hnone, hqueue, List.append_nil, List.append_nil] at hending
      exact hending
    · exact fun hne => absurd hnone hne
  · exact ⟨h, hdrained, .refl c⟩

/-- **`pumpStdin` keeps everything in its place.** -/
lemma Carries.pumpStdin
    (h : Carries c line held back) :
    Carries (c.pumpStdin room) line held back ∧ Drained (c.pumpStdin room) ∧
      SameWires c (c.pumpStdin room) := by
  obtain ⟨hqueue, hdrained, hwires⟩ := @Carries.pumpQueue _ _ _ _ room h
  obtain ⟨hcarries, hdrained', hwires'⟩ := hqueue.endQueue hdrained
  exact ⟨hcarries, hdrained', hwires.trans hwires'⟩

lemma Carries.skip {frame : Frame}
    (h : Carries c (frame :: line) held back) (hinput : frame.input = []) :
    Carries c line held back where
  __ := h
  fits := fun f hf => h.fits f (List.mem_cons_of_mem _ hf)
  input := by
    have hold := h.input
    rw [List.cons_append, List.flatMap_cons, hinput, List.nil_append] at hold
    exact hold
  count := by
    have hold := h.count
    rw [List.flatMap_cons, hinput, List.nil_append] at hold
    exact hold
  ends := by
    intro before f after heq hend
    have hwithin := h.ends (frame :: before) f after (by
      rw [List.cons_append, heq, List.cons_append]) hend
    rw [List.flatMap_cons, hinput, List.nil_append] at hwithin
    exact hwithin

/-- **A frame that arrives takes its place in the runner.** -/
lemma Carries.handleFrame {frame : Frame}
    (h : Carries c (frame :: line) held back) (hdrained : Drained c)
    (hstarted : c.runner.started = true) (hchild : c.runner.child = true) :
    Carries (c.handleFrame accepts room frame) line held back ∧
      Drained (c.handleFrame accepts room frame) ∧
        SameWires c (c.handleFrame accepts room frame) := by
  have hpump : ∀ {c' : Connection}, Carries c' line held back → SameWires c c' →
      Carries (c'.pumpStdin room) line held back ∧ Drained (c'.pumpStdin room) ∧
        SameWires c (c'.pumpStdin room) := by
    intro c' hcarries hwires
    obtain ⟨hcarries', hdrained', hwires'⟩ := @Carries.pumpStdin _ _ _ _ room hcarries
    exact ⟨hcarries', hdrained', hwires.trans hwires'⟩
  unfold Connection.handleFrame
  rw [hstarted, hchild, if_neg nofun, if_neg nofun]
  cases htype : frame.type with
  | stdin =>
    have hframe : frame.input = frame.payload := by rw [Frame.input, if_pos htype]
    refine hpump ?_ ⟨rfl, rfl, rfl, rfl, rfl, rfl, rfl, rfl, rfl⟩
    have harrived : (c.stdin.written ++ c.stdin.refused ++
        (c.runner.stdinQueue ++ [frame.payload])).flatten = c.arrived ++ frame.input := by
      rw [← List.append_assoc, List.flatten_append, hframe]
      simp [Connection.arrived]
    exact
      { h with
        fits := fun f hf => h.fits f (List.mem_cons_of_mem _ hf)
        chunks := by
          intro chunk hchunk
          have hfits : frame.payload.length + 1 ≤ MAX_FRAME_BYTES :=
            h.fits frame List.mem_cons_self
          simp only [List.mem_append, List.mem_singleton] at hchunk
          rcases hchunk with (hqueue | rfl) | hunconfirmed
          · exact h.chunks chunk (List.mem_append_left _ hqueue)
          · exact Nat.le_of_succ_le hfits
          · exact h.chunks chunk (List.mem_append_right _ hunconfirmed)
        input := by
          have hold := h.input
          rw [List.cons_append, List.flatMap_cons, ← List.append_assoc] at hold
          rw [Connection.arrived, harrived]
          exact hold
        count := by
          have hold := h.count
          rw [List.flatMap_cons, List.length_append, hframe] at hold
          simp only [List.flatten_append, List.length_append, List.flatten_cons, List.flatten_nil,
            List.append_nil]
          omega
        ends := by
          intro before f after heq hend
          have hwithin := h.ends (frame :: before) f after (by
            rw [List.cons_append, heq, List.cons_append]) hend
          rw [List.flatMap_cons, ← List.append_assoc] at hwithin
          rw [Connection.arrived, harrived]
          exact hwithin
        ending := by
          intro hflag
          rw [Connection.arrived, harrived]
          exact (h.ending hflag).mono (List.prefix_append _ _) }
  | json =>
    have hskip : Carries c line held back :=
      h.skip (by rw [Frame.input, if_neg (by rw [htype]; nofun)])
    by_cases hend : isStdinEnd frame.payload = true
    · rw [if_pos hend]
      refine hpump ?_ ⟨rfl, rfl, rfl, rfl, rfl, rfl, rfl, rfl, rfl⟩
      have hfirst := h.ends [] frame (line ++ held) rfl (by simp [Frame.endsInput, htype, hend])
      rw [List.flatMap_nil, List.append_nil] at hfirst
      exact
        { hskip with
          ending := fun _ => hfirst }
    · rw [if_neg hend]
      exact ⟨hskip, hdrained, .refl c⟩
  | stdout | stderr =>
    exact ⟨h.skip (by rw [Frame.input, if_neg (by rw [htype]; nofun)]), hdrained, .refl c⟩

lemma Carries.handleFrames {frames line held back : List Frame}
    (h : Carries c (frames ++ line) held back) (hdrained : Drained c)
    (hstarted : c.runner.started = true) (hchild : c.runner.child = true) :
    Carries (frames.foldl (Connection.handleFrame accepts room) c) line held back ∧
      Drained (frames.foldl (Connection.handleFrame accepts room) c) ∧
        SameWires c (frames.foldl (Connection.handleFrame accepts room) c) := by
  induction frames generalizing c with
  | nil => exact ⟨h, hdrained, .refl c⟩
  | cons frame frames ih =>
    obtain ⟨hcarries, hdrained', hwires⟩ :=
      @Carries.handleFrame _ _ _ _ accepts room _ h hdrained hstarted hchild
    obtain ⟨hcarries', hdrained'', hwires'⟩ := ih hcarries hdrained'
      (hwires.started.trans hstarted) (hwires.child.trans hchild)
    exact ⟨hcarries', hdrained'', hwires.trans hwires'⟩

lemma handleFrames_dead (hstarted : c.runner.started = true)
    (hchild : c.runner.child = false) (frames : List Frame) :
    frames.foldl (Connection.handleFrame accepts room) c = c := by
  induction frames with
  | nil => rfl
  | cons frame frames ih =>
    have hone : c.handleFrame accepts room frame = c := by
      unfold Connection.handleFrame
      rw [hstarted, hchild]
      rfl
    rw [List.foldl_cons, hone, ih]

/-! ## The office -/

lemma Carries.sends_self
    (h : Carries c line held back) (hpumped : c.office.Pumped) :
    Sends c c.office line held back := by
  refine ⟨[], held, rfl, ?_, ?_, rfl, hpumped⟩
  · rw [List.append_nil]
    exact h
  · rw [List.flatMap_nil, List.append_nil]

/-- **A report of the runner takes its bytes off those in flight**, and the pump goes on. -/
lemma Carries.readReport {frame : Frame}
    (h : Carries c line held (frame :: back)) (hpumped : c.office.Pumped) :
    Sends c (Connection.readReport c.office frame) line held back := by
  have hcount := h.count
  rw [List.map_cons, List.sum_cons] at hcount
  have hnone : frame.acked = 0 → Connection.readReport c.office frame = c.office →
      Sends c (Connection.readReport c.office frame) line held back := by
    intro hacked heq
    rw [hacked, Nat.zero_add] at hcount
    rw [heq]
    exact Carries.sends_self { h with count := hcount } hpumped
  cases htype : frame.type with
  | json =>
    cases hread : stdinAckBytes frame.payload with
    | none =>
      refine hnone (by simp [Frame.acked, htype, hread]) ?_
      simp only [Connection.readReport, htype, hread]
    | some bytes =>
      have hreport : Connection.readReport c.office frame = c.office.acknowledge bytes := by
        simp only [Connection.readReport, htype, hread]
      have hacked : frame.acked = bytes := by simp [Frame.acked, htype, hread]
      by_cases hzero : bytes = 0
      · refine hnone (hacked.trans hzero) ?_
        rw [hreport, RunnerStream.acknowledge, if_pos hzero]
      · rw [hreport, RunnerStream.acknowledge, if_neg hzero]
        have hless : Carries { c with office := { c.office with
            unackedStdin := c.office.unackedStdin - bytes } } line held back :=
          { h with
            count := by
              show c.office.unackedStdin - bytes = (line.flatMap Frame.input).length +
                c.runner.stdinQueue.flatten.length + c.stdin.unconfirmed.flatten.length +
                  c.stdin.failed.flatten.length + c.stdin.refused.flatten.length +
                    (back.map Frame.acked).sum
              omega }
        exact hless.pump
  | stdin | stdout | stderr =>
    refine hnone (by simp [Frame.acked, htype]) ?_
    simp only [Connection.readReport, htype]

lemma Carries.readReports {frames line held back : List Frame}
    (h : Carries c line held (frames ++ back)) (hpumped : c.office.Pumped) :
    Sends c (frames.foldl Connection.readReport c.office) line held back := by
  induction frames generalizing c line held with
  | nil => exact h.sends_self hpumped
  | cons frame frames ih =>
    obtain ⟨sent, rest, rfl, hcarries, hsocket, hpending, hpumped'⟩ :=
      @Carries.readReport line held (frames ++ back) c frame h hpumped
    obtain ⟨sent', rest', rfl, hcarries', hsocket', hpending', hpumped''⟩ :=
      ih hcarries hpumped'
    refine ⟨sent ++ sent', rest', by rw [List.append_assoc], ?_, ?_, ?_, hpumped''⟩
    · rw [← List.append_assoc]
      exact hcarries'
    · rw [List.foldl_cons, hsocket', List.flatMap_append, ← List.append_assoc]
      exact congrArg (· ++ sent'.flatMap Frame.bytes) hsocket
    · exact hpending'.trans hpending

end Isomux.AgentRunner
