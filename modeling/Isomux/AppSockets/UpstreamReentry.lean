import Mathlib.Data.List.Nodup
import Isomux.AppSockets.UpstreamLifecycle

set_option autoImplicit false

/-!
# Handlers inside a write (`flush` and `finish` of `src/server/app-ws-upstream.ts`)

A socket may run the handlers of the connection before a call of `socket.write` returns. Then
`flush` runs inside `flush`, or `finish` inside it, while the outer loop still holds the old head of
the queue. The module models the part of the connection that these two touch, with sockets that do
anything in the course of a write, and says when the accounts of the queue survive.

The code never looks at the bytes, so these are of any type. With the place of each byte beside it a
byte that is handed over twice is seen.

## Main results

* `Isomux.WriteQueue.Settled.flushLoop`, `Isomux.WriteQueue.Settled.flushLoop_wrong` — one `flush`.
* `Isomux.reentrant_flush_iff` — the accounts are right exactly when no write is disturbed.
* `Isomux.AppUpstream.flush_writeQueue` — without handlers inside a write this is the connection's
  `flush`.
-/

namespace Isomux

/-! ## Sockets -/

mutual

/-- What a socket does over the writes of one `flush`, in their order. -/
inductive SocketScript where
  | stop
  /-- A write: the handlers that run inside it, and what it comes to. -/
  | write (inside : HandlerScript) (result : WriteResult) (rest : SocketScript)

/-- The handlers that a socket runs inside one write, in their order. -/
inductive HandlerScript where
  | done
  /-- The drain handler, and what the socket does over its writes. -/
  | drain (writes : SocketScript) (rest : HandlerScript)
  | close (rest : HandlerScript)

end

/-- How many bytes a write takes of those it is given; a write that throws takes none. -/
def WriteResult.count : WriteResult → ℕ
  | .threw _ => 0
  | .returned written => written.toNat

mutual

/-- Whether the writes of a `flush` take bytes or end an open connection that has frames in its
queue: the first write throws or takes bytes, or a handler inside it acts. -/
def SocketScript.acts : SocketScript → Bool
  | .stop => false
  | .write inside result _ =>
    match result with
    | .threw _ => true
    | .returned written => 0 < written || inside.acts

/-- Whether some of the handlers take bytes or end an open connection that has frames in its
queue. -/
def HandlerScript.acts : HandlerScript → Bool
  | .done => false
  | .drain writes rest => writes.acts || rest.acts
  | .close _ => true

end

/-! ## The queue -/

/-- The part of a connection that `flush` and `finish` touch. -/
structure WriteQueue (α : Type) where
  queue : List (List α)
  queuedBytesValue : ℤ
  closed : Bool
  finalizeWhenFlushed : Option UpstreamCloseEvent
  enqueued : List α
  taken : List α
  deriving DecidableEq

namespace WriteQueue

variable {α : Type}

def new : WriteQueue α := ⟨[], 0, false, none, [], []⟩

variable (s : WriteQueue α)

/-- `finish(event)`. The event is only for the handler. -/
def finish : WriteQueue α :=
  if s.closed then s
  else
    { s with closed := true, finalizeWhenFlushed := none, queue := [], queuedBytesValue := 0 }

/-- `this.queue[0] = frame`. -/
def setHead (frame : List α) : List (List α) → List (List α)
  | [] => [frame]
  | _ :: rest => frame :: rest

/-- What `flush` does when the queue is empty. -/
def flushed : WriteQueue α :=
  if s.finalizeWhenFlushed.isSome then { s with finalizeWhenFlushed := none }.finish else s

/-- The socket takes bytes of the head it was given. -/
def take (s : WriteQueue α) (head : List α) (result : WriteResult) : WriteQueue α :=
  { s with taken := s.taken ++ head.take result.count }

/-- `this.queue.shift(); this.queuedBytesValue -= head.length`. -/
def shift (head : List α) : WriteQueue α :=
  { s with queue := s.queue.tail, queuedBytesValue := s.queuedBytesValue - head.length }

/-- `this.queue[0] = head.subarray(written); this.queuedBytesValue -= written`. -/
def keepTail (head : List α) (written : ℤ) : WriteQueue α :=
  { s with queue := setHead (head.drop written.toNat) s.queue,
           queuedBytesValue := s.queuedBytesValue - written }

mutual

/-- The loop of `flush`. The loop goes on as long as the queue is not empty, whatever the handlers
inside a write did; the head that a write was given is the one from before the write. -/
def flushLoop : SocketScript → WriteQueue α → WriteQueue α
  | .stop, s =>
    match s.queue with
    | [] => s.flushed
    | _ :: _ => s
  | .write inside result rest, s =>
    match s.queue with
    | [] => s.flushed
    | head :: _ =>
      let s := runHandlers inside (s.take head result)
      match result with
      | .threw _ => s.finish
      | .returned written =>
        if head.length ≤ written then flushLoop rest (s.shift head)
        else if 0 < written then s.keepTail head written
        else s

/-- The handlers that run inside a write: `onDrain` is `flush`, the others end in `finish`. -/
def runHandlers : HandlerScript → WriteQueue α → WriteQueue α
  | .done, s => s
  | .drain writes rest, s => runHandlers rest (if s.closed then s else flushLoop writes s)
  | .close rest, s => runHandlers rest s.finish

end

/-- `flush()`. -/
def flush (script : SocketScript) : WriteQueue α :=
  if s.closed then s else flushLoop script s

inductive Event (α : Type) where
  /-- A frame that the ceiling lets in enters the queue, and `flush` runs. -/
  | enqueue (frame : List α) (script : SocketScript)
  | drain (script : SocketScript)
  /-- The answer to the peer's close frame is to be flushed before the end. -/
  | finalize (event : UpstreamCloseEvent)
  | finish

def Event.Nonempty (event : Event α) : Prop :=
  ∀ frame script, event = .enqueue frame script → frame ≠ []

def push (frame : List α) : WriteQueue α :=
  { s with queue := s.queue ++ [frame], queuedBytesValue := s.queuedBytesValue + frame.length,
           enqueued := s.enqueued ++ frame }

/-- One event. A closed connection takes no frames. -/
def step : Event α → WriteQueue α
  | .enqueue frame script => if s.closed then s else (s.push frame).flush script
  | .drain script => s.flush script
  | .finalize event => if s.closed then s else { s with finalizeWhenFlushed := some event }
  | .finish => s.finish

def run (events : List (Event α)) : WriteQueue α := events.foldl step s

/-! ## The accounts -/

/-- The accounts are right: the bytes that the socket took are a front part of those that entered
the queue, and the counter is the number of bytes in the queue. -/
structure Accounts (s : WriteQueue α) : Prop where
  bytes : s.taken <+: s.enqueued
  counter : s.queuedBytesValue = (s.queue.map List.length).sum

/-- The invariant between two calls of `flush`. -/
structure Settled (s : WriteQueue α) : Prop where
  pending : s.closed = false → s.taken ++ s.queue.flatten = s.enqueued
  counter : s.queuedBytesValue = (s.queue.map List.length).sum
  nonempty : ∀ frame ∈ s.queue, frame ≠ []
  dropped : s.closed = true → s.queue = [] ∧ s.finalizeWhenFlushed = none
  bytes : s.taken <+: s.enqueued

variable {s : WriteQueue α} {head : List α} {result : WriteResult} {tail : List (List α)}
  {event : Event α}

lemma Settled.accounts (h : s.Settled) : s.Accounts := ⟨h.bytes, h.counter⟩

/-! ## Writes that are disturbed -/

mutual

/-- No write of the `flush` that takes bytes has a handler inside it that acts. Inside a write that
takes none, a handler may act, and its own writes are not to be disturbed. -/
def undisturbed : SocketScript → WriteQueue α → Bool
  | .stop, _ => true
  | .write inside result rest, s =>
    match s.queue with
    | [] => true
    | head :: _ =>
      if 0 < result.count then
        !inside.acts &&
          (decide (result.count < head.length) || undisturbed rest ((s.take head result).shift head))
      else undisturbedHandlers inside s

/-- No write of these handlers that takes bytes has a handler inside it that acts. -/
def undisturbedHandlers : HandlerScript → WriteQueue α → Bool
  | .done, _ => true
  | .drain writes rest, s =>
    s.closed || (undisturbed writes s && undisturbedHandlers rest (flushLoop writes s))
  | .close _, _ => true

end

def Event.undisturbed (s : WriteQueue α) : Event α → Bool
  | .enqueue frame script => s.closed || WriteQueue.undisturbed script (s.push frame)
  | .drain script => s.closed || WriteQueue.undisturbed script s
  | .finalize _ => true
  | .finish => true

def undisturbedRun (s : WriteQueue α) : List (Event α) → Bool
  | [] => true
  | event :: events => event.undisturbed s && undisturbedRun (s.step event) events

/-! ## What every run keeps -/

/-- A property that what `flush` does to the queue keeps. -/
structure Stable (P : WriteQueue α → Prop) : Prop where
  take : ∀ s head result, P s → P (s.take head result)
  shift : ∀ s head, P s → P (s.shift head)
  keepTail : ∀ s head written, 0 < written → P s → P (s.keepTail head written)
  finish : ∀ s, P s → P s.finish
  unwait : ∀ s, P s → P { s with finalizeWhenFlushed := none }

lemma Stable.flushed {P : WriteQueue α → Prop} (h : Stable P) (hs : P s) :
    P s.flushed := by
  unfold WriteQueue.flushed
  split_ifs
  · exact h.finish _ (h.unwait s hs)
  · exact hs

mutual

lemma Stable.flushLoop {P : WriteQueue α → Prop} (h : Stable P) (script : SocketScript)
    {s : WriteQueue α} (hs : P s) : P (flushLoop script s) := by
  cases script with
  | stop =>
    rw [WriteQueue.flushLoop]
    split
    · exact h.flushed hs
    · exact hs
  | write inside result rest =>
    rw [WriteQueue.flushLoop]
    split
    · exact h.flushed hs
    · rename_i head tail hqueue
      have hinside := Stable.runHandlers h inside (h.take s head result hs)
      dsimp only
      split
      · exact h.finish _ hinside
      · rename_i written
        split_ifs with hall hsome
        · exact Stable.flushLoop h rest (h.shift _ head hinside)
        · exact h.keepTail _ head written hsome hinside
        · exact hinside

lemma Stable.runHandlers {P : WriteQueue α → Prop} (h : Stable P) (handlers : HandlerScript)
    {s : WriteQueue α} (hs : P s) : P (runHandlers handlers s) := by
  cases handlers with
  | done =>
    rw [WriteQueue.runHandlers]
    exact hs
  | drain writes rest =>
    rw [WriteQueue.runHandlers]
    split_ifs
    · exact Stable.runHandlers h rest hs
    · exact Stable.runHandlers h rest (Stable.flushLoop h writes hs)
  | close rest =>
    rw [WriteQueue.runHandlers]
    exact Stable.runHandlers h rest (h.finish s hs)

end

lemma stable_enqueued (bytes : List α) : Stable fun s : WriteQueue α => s.enqueued = bytes where
  take _ _ _ h := h
  shift _ _ h := h
  keepTail _ _ _ _ h := h
  finish s h := by
    unfold finish
    split_ifs <;> exact h
  unwait _ h := h

lemma stable_disordered : Stable fun s : WriteQueue α => ¬ s.taken <+: s.enqueued where
  take s head result h hprefix := h ((List.prefix_append _ _).trans hprefix)
  shift _ _ h := h
  keepTail _ _ _ _ h := h
  finish s h := by
    unfold finish
    split_ifs <;> exact h
  unwait _ h := h

lemma stable_counter (bound : ℤ) :
    Stable fun s : WriteQueue α => s.closed = true ∧ s.queuedBytesValue ≤ bound where
  take _ _ _ h := h
  shift s head h := ⟨h.1, by
    have := h.2
    simp only [shift]
    omega⟩
  keepTail s head written hpos h := ⟨h.1, by
    have := h.2
    simp only [keepTail]
    omega⟩
  finish s h := by
    rw [finish, if_pos h.1]
    exact h
  unwait _ h := h

/-- Bytes were handed over out of order, or the connection is closed and its counter is not over the
bound. -/
def Wrong (bound : ℤ) (s : WriteQueue α) : Prop :=
  (¬ s.taken <+: s.enqueued) ∨ s.closed = true ∧ s.queuedBytesValue ≤ bound

lemma stable_wrong (bound : ℤ) : Stable (Wrong (α := α) bound) where
  take s head result h := h.imp (stable_disordered.take s head result)
    ((stable_counter bound).take s head result)
  shift s head h := h.imp (stable_disordered.shift s head) ((stable_counter bound).shift s head)
  keepTail s head written hpos h := h.imp (stable_disordered.keepTail s head written hpos)
    ((stable_counter bound).keepTail s head written hpos)
  finish s h := h.imp (stable_disordered.finish s) ((stable_counter bound).finish s)
  unwait s h := h.imp (stable_disordered.unwait s) ((stable_counter bound).unwait s)

/-! ## Handlers that do not act -/

lemma take_of_count (h : result.count = 0) (s : WriteQueue α)
    (head : List α) : s.take head result = s := by
  rw [take, h, List.take_zero, List.append_nil]

mutual

lemma flushLoop_of_not_acts (script : SocketScript) {s : WriteQueue α} (hqueue : s.queue ≠ [])
    (hframes : ∀ frame ∈ s.queue, frame ≠ []) (h : script.acts = false) :
    flushLoop script s = s := by
  obtain ⟨head, tail, hcons⟩ := List.exists_cons_of_ne_nil hqueue
  cases script with
  | stop => rw [flushLoop, hcons]
  | write inside result rest =>
    cases result with
    | threw err => cases h
    | returned written =>
      rw [SocketScript.acts, Bool.or_eq_false_iff, decide_eq_false_iff_not] at h
      have hcount : (WriteResult.returned written).count = 0 := Int.toNat_of_nonpos (by omega)
      have hhead : head ≠ [] := hframes head (hcons ▸ List.mem_cons_self)
      have hlength := List.length_pos_iff.mpr hhead
      rw [flushLoop, hcons]
      dsimp only
      rw [take_of_count hcount, runHandlers_of_not_acts inside hqueue hframes h.2,
        if_neg (by omega), if_neg h.1]

lemma runHandlers_of_not_acts (handlers : HandlerScript) {s : WriteQueue α} (hqueue : s.queue ≠ [])
    (hframes : ∀ frame ∈ s.queue, frame ≠ []) (h : handlers.acts = false) :
    runHandlers handlers s = s := by
  cases handlers with
  | done => rw [runHandlers]
  | drain writes rest =>
    rw [HandlerScript.acts, Bool.or_eq_false_iff] at h
    rw [runHandlers, flushLoop_of_not_acts writes hqueue hframes h.1, ite_self,
      runHandlers_of_not_acts rest hqueue hframes h.2]
  | close rest => cases h

end

/-! ## Handlers that act inside a write that takes bytes -/

/-- A write that takes bytes of the head is running: the first byte of the head is taken, and the
head is still in front. -/
structure Running (s : WriteQueue α) (head : List α) : Prop where
  live : s.closed = false
  front : ∃ tail, s.queue = head :: tail
  nonempty : ∀ frame ∈ s.queue, frame ≠ []
  taken : ∃ first rest, head = first :: rest ∧ first ∈ s.taken
  labels : s.enqueued.Nodup

lemma Running.take_wrong (h : s.Running head)
    (hcount : 0 < result.count) : Wrong 0 (s.take head result) := by
  left
  intro hprefix
  obtain ⟨first, rest, rfl, hmem⟩ := h.taken
  have hnodup : (s.taken ++ (first :: rest).take result.count).Nodup :=
    h.labels.sublist hprefix.sublist
  have htwice : first ∈ (first :: rest).take result.count := by
    obtain ⟨n, hn⟩ := Nat.exists_eq_succ_of_ne_zero hcount.ne'
    rw [hn, List.take_succ_cons]
    exact List.mem_cons_self
  exact (List.nodup_append.mp hnodup).2.2 first hmem first htwice rfl

lemma finish_wrong (hlive : s.closed = false) : Wrong 0 s.finish := by
  right
  rw [finish, if_neg (by simp [hlive])]
  exact ⟨rfl, Int.le_refl 0⟩

mutual

/-- Writes that act inside a write that takes bytes are wrong. -/
lemma Running.flushLoop_wrong {s : WriteQueue α} {head : List α} (h : s.Running head)
    (script : SocketScript) (hacts : script.acts = true) : Wrong 0 (flushLoop script s) := by
  obtain ⟨tail, hqueue⟩ := h.front
  have hne : s.queue ≠ [] := by simp [hqueue]
  have hlength := List.length_pos_iff.mpr (h.nonempty head (hqueue ▸ List.mem_cons_self))
  have hstable := stable_wrong (α := α) 0
  cases script with
  | stop => cases hacts
  | write inside result rest =>
    rw [flushLoop, hqueue]
    dsimp only
    cases result with
    | threw err =>
      dsimp only
      rw [take_of_count rfl]
      cases hinside : inside.acts with
      | true => exact hstable.finish _ (Running.runHandlers_wrong h inside hinside)
      | false =>
        rw [runHandlers_of_not_acts inside hne h.nonempty hinside]
        exact finish_wrong h.live
    | returned written =>
      dsimp only
      by_cases hpositive : 0 < written
      · have hcount : 0 < (WriteResult.returned written).count := by
          rw [WriteResult.count]
          omega
        have hwrong := hstable.runHandlers inside (h.take_wrong hcount)
        rw [if_pos hpositive]
        split_ifs with hall
        · exact hstable.flushLoop rest (hstable.shift _ head hwrong)
        · exact hstable.keepTail _ head written hpositive hwrong
      · have hcount : (WriteResult.returned written).count = 0 := Int.toNat_of_nonpos (by omega)
        rw [SocketScript.acts, decide_eq_false hpositive, Bool.false_or] at hacts
        rw [take_of_count hcount, if_neg (by omega), if_neg hpositive]
        exact Running.runHandlers_wrong h inside hacts

lemma Running.runHandlers_wrong {s : WriteQueue α} {head : List α} (h : s.Running head)
    (handlers : HandlerScript) (hacts : handlers.acts = true) :
    Wrong 0 (runHandlers handlers s) := by
  obtain ⟨tail, hqueue⟩ := h.front
  have hne : s.queue ≠ [] := by simp [hqueue]
  have hstable := stable_wrong (α := α) 0
  cases handlers with
  | done => cases hacts
  | drain writes rest =>
    rw [runHandlers, if_neg (by simp [h.live])]
    cases hwrites : writes.acts with
    | true => exact hstable.runHandlers rest (Running.flushLoop_wrong h writes hwrites)
    | false =>
      rw [HandlerScript.acts, hwrites, Bool.false_or] at hacts
      rw [flushLoop_of_not_acts writes hne h.nonempty hwrites]
      exact Running.runHandlers_wrong h rest hacts
  | close rest =>
    rw [runHandlers]
    exact hstable.runHandlers rest (finish_wrong h.live)

end

/-! ## One flush -/

lemma Settled.finish (h : s.Settled) : s.finish.Settled := by
  unfold WriteQueue.finish
  split_ifs with hclosed
  · exact h
  · exact ⟨nofun, rfl, nofun, fun _ => ⟨rfl, rfl⟩, h.bytes⟩

lemma Settled.flushed (h : s.Settled) : s.flushed.Settled := by
  unfold WriteQueue.flushed
  split_ifs
  · refine Settled.finish ⟨h.pending, h.counter, h.nonempty, fun hclosed => ?_, h.bytes⟩
    exact ⟨(h.dropped hclosed).1, rfl⟩
  · exact h

lemma finish_closed : s.finish.closed = true := by
  unfold WriteQueue.finish
  split_ifs with hclosed
  · exact hclosed
  · rfl

lemma runHandlers_of_closed (handlers : HandlerScript)
    (hclosed : s.closed = true) : WriteQueue.runHandlers handlers s = s := by
  cases handlers with
  | done => rw [WriteQueue.runHandlers]
  | drain writes rest =>
    rw [WriteQueue.runHandlers, if_pos hclosed]
    exact runHandlers_of_closed rest hclosed
  | close rest =>
    rw [WriteQueue.runHandlers, WriteQueue.finish, if_pos hclosed]
    exact runHandlers_of_closed rest hclosed

lemma Settled.live (h : s.Settled)
    (hqueue : s.queue = head :: tail) : s.closed = false := by
  by_contra hclosed
  have hempty := (h.dropped (Bool.eq_true_of_not_eq_false hclosed)).1
  rw [hqueue] at hempty
  cases hempty

lemma Settled.shift (h : s.Settled)
    (hqueue : s.queue = head :: tail)
    (hall : head.length ≤ result.count) : ((s.take head result).shift head).Settled := by
  have hpending := h.pending (h.live hqueue)
  have hcounter := h.counter
  rw [hqueue, List.flatten_cons, ← List.append_assoc] at hpending
  rw [hqueue, List.map_cons, List.sum_cons] at hcounter
  refine ⟨fun _ => ?_, ?_, fun frame hframe => ?_, fun hclosed => ?_, ?_⟩
  · simp only [WriteQueue.shift, take, hqueue, List.tail_cons, List.take_of_length_le hall]
    exact hpending
  · simp only [WriteQueue.shift, take, hqueue, List.tail_cons]
    push_cast at hcounter ⊢
    omega
  · exact h.nonempty frame (List.mem_of_mem_tail hframe)
  · rw [show ((s.take head result).shift head).closed = s.closed from rfl, h.live hqueue] at hclosed
    cases hclosed
  · simp only [WriteQueue.shift, take, List.take_of_length_le hall]
    exact ⟨_, hpending⟩

lemma Settled.keepTail (h : s.Settled)
    (hqueue : s.queue = head :: tail) {written : ℤ} (hpositive : 0 < written)
    (hpart : written < head.length) :
    ((s.take head (.returned written)).keepTail head written).Settled := by
  have hpending := h.pending (h.live hqueue)
  have hcounter := h.counter
  rw [hqueue, List.flatten_cons] at hpending
  rw [hqueue, List.map_cons, List.sum_cons] at hcounter
  have hsplit : head.take written.toNat ++ (head.drop written.toNat ++ tail.flatten) =
      head ++ tail.flatten := by
    rw [← List.append_assoc, List.take_append_drop]
  refine ⟨fun _ => ?_, ?_, fun frame hframe => ?_, fun hclosed => ?_, ?_⟩
  · simp only [WriteQueue.keepTail, take, setHead, hqueue, WriteResult.count, List.flatten_cons]
    rw [List.append_assoc, hsplit]
    exact hpending
  · simp only [WriteQueue.keepTail, take, setHead, hqueue, List.map_cons, List.sum_cons,
      List.length_drop]
    push_cast at hcounter ⊢
    omega
  · simp only [WriteQueue.keepTail, take, setHead, hqueue] at hframe
    rcases List.mem_cons.mp hframe with rfl | hframe
    · rw [← List.length_pos_iff, List.length_drop]
      omega
    · exact h.nonempty frame (hqueue ▸ List.mem_cons_of_mem _ hframe)
  · rw [show ((s.take head (.returned written)).keepTail head written).closed = s.closed from rfl,
      h.live hqueue] at hclosed
    cases hclosed
  · simp only [WriteQueue.keepTail, take, WriteResult.count]
    exact ⟨head.drop written.toNat ++ tail.flatten, by rw [List.append_assoc, hsplit, hpending]⟩

mutual

/-- **A flush whose writes are not disturbed keeps the invariant.** -/
theorem Settled.flushLoop {s : WriteQueue α} (h : s.Settled) (script : SocketScript)
    (hundisturbed : undisturbed script s = true) : (flushLoop script s).Settled := by
  cases script with
  | stop =>
    rw [WriteQueue.flushLoop]
    split
    · exact h.flushed
    · exact h
  | write inside result rest =>
    rw [WriteQueue.flushLoop]
    cases hqueue : s.queue with
    | nil => exact h.flushed
    | cons head tail =>
      dsimp only
      rw [undisturbed, hqueue] at hundisturbed
      dsimp only at hundisturbed
      have hhead := List.length_pos_iff.mpr (h.nonempty head (hqueue ▸ List.mem_cons_self))
      by_cases hcount : 0 < result.count
      · rw [if_pos hcount, Bool.and_eq_true, Bool.not_eq_true', Bool.or_eq_true,
          decide_eq_true_eq] at hundisturbed
        have hframes : ∀ frame ∈ (s.take head result).queue, frame ≠ [] := h.nonempty
        have hne : (s.take head result).queue ≠ [] := by simp [take, hqueue]
        rw [runHandlers_of_not_acts inside hne hframes hundisturbed.1]
        cases result with
        | threw err => exact absurd hcount (Nat.lt_irrefl 0)
        | returned written =>
          dsimp only
          rw [WriteResult.count] at hcount hundisturbed
          by_cases hall : (head.length : ℤ) ≤ written
          · rw [if_pos hall]
            have hcount' : head.length ≤ (WriteResult.returned written).count := by
              rw [WriteResult.count]
              omega
            exact Settled.flushLoop (h.shift hqueue hcount') rest
              (hundisturbed.2.resolve_left (by omega))
          · rw [if_neg hall, if_pos (by omega)]
            exact h.keepTail hqueue (by omega) (by omega)
      · rw [if_neg hcount] at hundisturbed
        rw [take_of_count (by omega)]
        have hinside := Settled.runHandlers h inside hundisturbed
        cases result with
        | threw err => exact hinside.finish
        | returned written =>
          dsimp only
          rw [WriteResult.count] at hcount
          rw [if_neg (by omega), if_neg (by omega)]
          exact hinside

theorem Settled.runHandlers {s : WriteQueue α} (h : s.Settled) (handlers : HandlerScript)
    (hundisturbed : undisturbedHandlers handlers s = true) : (runHandlers handlers s).Settled := by
  cases handlers with
  | done =>
    rw [WriteQueue.runHandlers]
    exact h
  | drain writes rest =>
    rw [WriteQueue.runHandlers]
    rw [undisturbedHandlers, Bool.or_eq_true, Bool.and_eq_true] at hundisturbed
    cases hclosed : s.closed with
    | true =>
      rw [if_pos rfl, runHandlers_of_closed rest hclosed]
      exact h
    | false =>
      obtain ⟨hwrites, hrest⟩ := hundisturbed.resolve_left (by simp [hclosed])
      rw [if_neg Bool.false_ne_true]
      exact Settled.runHandlers (Settled.flushLoop h writes hwrites) rest hrest
  | close rest =>
    rw [WriteQueue.runHandlers, runHandlers_of_closed rest finish_closed]
    exact h.finish

end

lemma Wrong.shift (h : s.Wrong 0) (hhead : head ≠ []) :
    (s.shift head).Wrong (-1) := by
  have hlength := List.length_pos_iff.mpr hhead
  refine h.imp id fun hclosed => ⟨hclosed.1, ?_⟩
  have := hclosed.2
  simp only [WriteQueue.shift]
  omega

lemma Wrong.keepTail (h : s.Wrong 0) (head : List α) {written : ℤ}
    (hpositive : 0 < written) : (s.keepTail head written).Wrong (-1) := by
  refine h.imp id fun hclosed => ⟨hclosed.1, ?_⟩
  have := hclosed.2
  simp only [WriteQueue.keepTail]
  omega

lemma Settled.running (h : s.Settled) (hlabels : s.enqueued.Nodup)
    (hqueue : s.queue = head :: tail)
    (hcount : 0 < result.count) : (s.take head result).Running head where
  live := h.live hqueue
  front := ⟨tail, hqueue⟩
  nonempty := h.nonempty
  labels := hlabels
  taken := by
    obtain ⟨first, rest, rfl⟩ :=
      List.exists_cons_of_ne_nil (h.nonempty head (hqueue ▸ List.mem_cons_self))
    obtain ⟨n, hn⟩ := Nat.exists_eq_succ_of_ne_zero hcount.ne'
    refine ⟨first, rest, rfl, List.mem_append_right _ ?_⟩
    rw [hn, List.take_succ_cons]
    exact List.mem_cons_self

mutual

/-- **A flush with a disturbed write hands bytes over out of order, or leaves the counter
negative.** -/
theorem Settled.flushLoop_wrong {s : WriteQueue α} (h : s.Settled) (hlabels : s.enqueued.Nodup)
    (script : SocketScript) (hdisturbed : undisturbed script s = false) :
    (WriteQueue.flushLoop script s).Wrong (-1) := by
  cases script with
  | stop =>
    rw [undisturbed] at hdisturbed
    cases hdisturbed
  | write inside result rest =>
    rw [WriteQueue.flushLoop]
    rw [undisturbed] at hdisturbed
    cases hqueue : s.queue with
    | nil =>
      rw [hqueue] at hdisturbed
      cases hdisturbed
    | cons head tail =>
      rw [hqueue] at hdisturbed
      dsimp only at hdisturbed ⊢
      have hhead : head ≠ [] := h.nonempty head (hqueue ▸ List.mem_cons_self)
      by_cases hcount : 0 < result.count
      · rw [if_pos hcount, Bool.and_eq_false_iff, Bool.not_eq_false', Bool.or_eq_false_iff,
          decide_eq_false_iff_not] at hdisturbed
        cases result with
        | threw err => exact absurd hcount (Nat.lt_irrefl 0)
        | returned written =>
          have hpositive : 0 < written := by
            rw [WriteResult.count] at hcount
            omega
          cases hinside : inside.acts with
          | true =>
            -- The handlers find the old head in front, and the loop goes on with it after them.
            have hwrong := (h.running hlabels hqueue hcount).runHandlers_wrong inside hinside
            dsimp only
            rw [if_pos hpositive]
            split_ifs
            · exact (stable_wrong (-1)).flushLoop rest (hwrong.shift hhead)
            · exact hwrong.keepTail head hpositive
          | false =>
            obtain ⟨hall, hrest⟩ := hdisturbed.resolve_left (by simp [hinside])
            rw [WriteResult.count] at hall
            have hne : (s.take head (.returned written)).queue ≠ [] := by simp [take, hqueue]
            rw [runHandlers_of_not_acts inside hne h.nonempty hinside]
            dsimp only
            rw [if_pos (by omega)]
            exact Settled.flushLoop_wrong (h.shift hqueue (by rw [WriteResult.count]; omega))
              hlabels rest hrest
      · rw [if_neg hcount] at hdisturbed
        rw [take_of_count (by omega)]
        have hinside := Settled.runHandlers_wrong h hlabels inside hdisturbed
        cases result with
        | threw err => exact (stable_wrong (-1)).finish _ hinside
        | returned written =>
          have hlength := List.length_pos_iff.mpr hhead
          dsimp only
          rw [WriteResult.count] at hcount
          rw [if_neg (by omega), if_neg (by omega)]
          exact hinside

theorem Settled.runHandlers_wrong {s : WriteQueue α} (h : s.Settled) (hlabels : s.enqueued.Nodup)
    (handlers : HandlerScript) (hdisturbed : undisturbedHandlers handlers s = false) :
    (WriteQueue.runHandlers handlers s).Wrong (-1) := by
  cases handlers with
  | done | close rest =>
    rw [undisturbedHandlers] at hdisturbed
    cases hdisturbed
  | drain writes rest =>
    rw [undisturbedHandlers, Bool.or_eq_false_iff, Bool.and_eq_false_iff] at hdisturbed
    rw [WriteQueue.runHandlers, if_neg (by simp [hdisturbed.1])]
    cases hwrites : undisturbed writes s with
    | false =>
      exact (stable_wrong (-1)).runHandlers rest
        (Settled.flushLoop_wrong h hlabels writes hwrites)
    | true =>
      have hrest := hdisturbed.2.resolve_left (by simp [hwrites])
      have henqueued := (stable_enqueued s.enqueued).flushLoop writes rfl
      exact Settled.runHandlers_wrong (h.flushLoop writes hwrites) (henqueued ▸ hlabels) rest hrest

end

lemma Wrong.not_accounts (h : s.Wrong (-1)) : ¬ s.Accounts := by
  rintro ⟨hbytes, hcounter⟩
  rcases h with hprefix | ⟨-, hnegative⟩
  · exact hprefix hbytes
  · omega

/-! ## Runs -/

lemma new_settled : (new (α := α)).Settled := ⟨fun _ => rfl, rfl, nofun, nofun, List.nil_prefix⟩

lemma Settled.push (h : s.Settled) (hopen : s.closed = false) {frame : List α}
    (hframe : frame ≠ []) : (s.push frame).Settled := by
  have hpending := h.pending hopen
  refine ⟨fun _ => ?_, ?_, fun other hother => ?_, fun hclosed => ?_, ?_⟩
  · simp only [WriteQueue.push, List.flatten_append, List.flatten_singleton]
    rw [← List.append_assoc, hpending]
  · simp only [WriteQueue.push, List.map_append, List.sum_append, List.map_singleton,
      List.sum_singleton, h.counter]
    push_cast
    rfl
  · rcases List.mem_append.mp hother with hother | hother
    · exact h.nonempty other hother
    · rw [List.mem_singleton] at hother
      exact hother ▸ hframe
  · rw [show (s.push frame).closed = s.closed from rfl, hopen] at hclosed
    cases hclosed
  · exact h.bytes.trans (List.prefix_append _ _)

lemma Settled.step (h : s.Settled)
    (hframe : event.Nonempty)
    (hundisturbed : event.undisturbed s = true) : (s.step event).Settled := by
  cases event with
  | enqueue frame script =>
    rw [WriteQueue.step]
    cases hclosed : s.closed with
    | true => exact h
    | false =>
      rw [Event.undisturbed, hclosed, Bool.false_or] at hundisturbed
      rw [if_neg Bool.false_ne_true, flush, if_neg (by simp [WriteQueue.push, hclosed])]
      exact (h.push hclosed (hframe frame script rfl)).flushLoop script hundisturbed
  | drain script =>
    rw [WriteQueue.step, flush]
    cases hclosed : s.closed with
    | true => exact h
    | false =>
      rw [Event.undisturbed, hclosed, Bool.false_or] at hundisturbed
      exact h.flushLoop script hundisturbed
  | finalize event =>
    rw [WriteQueue.step]
    cases hclosed : s.closed with
    | true => exact h
    | false =>
      rw [if_neg Bool.false_ne_true]
      exact ⟨fun _ => h.pending hclosed, h.counter, h.nonempty, nofun, h.bytes⟩
  | finish => exact h.finish

lemma Settled.step_wrong (h : s.Settled)
    (hframe : event.Nonempty)
    (hlabels : (s.step event).enqueued.Nodup) (hdisturbed : event.undisturbed s = false) :
    ¬ (s.step event).Accounts := by
  cases event with
  | enqueue frame script =>
    rw [Event.undisturbed, Bool.or_eq_false_iff] at hdisturbed
    rw [WriteQueue.step, if_neg (by simp [hdisturbed.1]), flush,
      if_neg (by simp [WriteQueue.push, hdisturbed.1])] at hlabels ⊢
    rw [(stable_enqueued (s.push frame).enqueued).flushLoop script rfl] at hlabels
    have hpush := h.push hdisturbed.1 (hframe frame script rfl)
    exact (hpush.flushLoop_wrong hlabels script hdisturbed.2).not_accounts
  | drain script =>
    rw [Event.undisturbed, Bool.or_eq_false_iff] at hdisturbed
    rw [WriteQueue.step, flush, if_neg (by simp [hdisturbed.1])] at hlabels ⊢
    rw [(stable_enqueued s.enqueued).flushLoop script rfl] at hlabels
    exact (h.flushLoop_wrong hlabels script hdisturbed.2).not_accounts
  | finalize event => cases hdisturbed
  | finish => cases hdisturbed

/-! ## Labels -/

def map {β : Type} (f : α → β) (s : WriteQueue α) : WriteQueue β where
  queue := s.queue.map (List.map f)
  queuedBytesValue := s.queuedBytesValue
  closed := s.closed
  finalizeWhenFlushed := s.finalizeWhenFlushed
  enqueued := s.enqueued.map f
  taken := s.taken.map f

def Event.map {β : Type} (f : α → β) : Event α → Event β
  | .enqueue frame script => .enqueue (frame.map f) script
  | .drain script => .drain script
  | .finalize event => .finalize event
  | .finish => .finish

section map

variable {β : Type} (f : α → β) (s : WriteQueue α)

lemma map_finish : s.finish.map f = (s.map f).finish := by
  unfold WriteQueue.finish
  split_ifs with h h' h'
  · rfl
  · exact absurd h h'
  · exact absurd h' h
  · rfl

lemma map_flushed : s.flushed.map f = (s.map f).flushed := by
  unfold WriteQueue.flushed
  split_ifs with h h' h'
  · exact map_finish f _
  · exact absurd h h'
  · exact absurd h' h
  · rfl

lemma map_take (s : WriteQueue α) (head : List α) (result : WriteResult) :
    (s.take head result).map f = (s.map f).take (head.map f) result := by
  simp only [take, map, List.map_append, List.map_take]

lemma map_shift (head : List α) : (s.shift head).map f = (s.map f).shift (head.map f) := by
  simp only [WriteQueue.shift, map, List.map_tail, List.length_map]

lemma map_keepTail (head : List α) (written : ℤ) :
    (s.keepTail head written).map f = (s.map f).keepTail (head.map f) written := by
  cases hqueue : s.queue <;>
    simp only [WriteQueue.keepTail, map, setHead, hqueue, List.map_cons, List.map_nil, List.map_drop]

lemma map_push (frame : List α) : (s.push frame).map f = (s.map f).push (frame.map f) := by
  simp only [WriteQueue.push, map, List.map_append, List.map_singleton, List.length_map]

mutual

lemma map_flushLoop (script : SocketScript) (s : WriteQueue α) :
    (flushLoop script s).map f = flushLoop script (s.map f) := by
  have hmap : (s.map f).queue = s.queue.map (List.map f) := rfl
  cases script with
  | stop =>
    rw [flushLoop, flushLoop, hmap]
    cases s.queue with
    | nil => exact map_flushed f s
    | cons head tail => rfl
  | write inside result rest =>
    rw [flushLoop, flushLoop, hmap]
    cases s.queue with
    | nil => exact map_flushed f s
    | cons head tail =>
      rw [List.map_cons]
      dsimp only
      rw [← map_take f s head result, ← map_runHandlers inside, List.length_map]
      cases result with
      | threw err => exact map_finish f _
      | returned written =>
        dsimp only
        split_ifs
        · rw [map_flushLoop rest, map_shift]
        · exact map_keepTail f _ _ _
        · rfl

lemma map_runHandlers (handlers : HandlerScript) (s : WriteQueue α) :
    (runHandlers handlers s).map f = runHandlers handlers (s.map f) := by
  cases handlers with
  | done => rw [runHandlers, runHandlers]
  | drain writes rest =>
    rw [runHandlers, runHandlers, map_runHandlers rest, ← map_flushLoop writes]
    congr 1
    exact apply_ite (map f) _ _ _
  | close rest => rw [runHandlers, runHandlers, map_runHandlers rest, map_finish]

end

mutual

lemma undisturbed_map (script : SocketScript) (s : WriteQueue α) :
    undisturbed script (s.map f) = undisturbed script s := by
  have hmap : (s.map f).queue = s.queue.map (List.map f) := rfl
  cases script with
  | stop => rw [undisturbed, undisturbed]
  | write inside result rest =>
    rw [undisturbed, undisturbed, hmap]
    cases s.queue with
    | nil => rfl
    | cons head tail =>
      rw [List.map_cons]
      dsimp only
      rw [List.length_map, ← map_take, ← map_shift, undisturbed_map rest,
        undisturbedHandlers_map inside]

lemma undisturbedHandlers_map (handlers : HandlerScript) (s : WriteQueue α) :
    undisturbedHandlers handlers (s.map f) = undisturbedHandlers handlers s := by
  cases handlers with
  | done | close rest => rw [undisturbedHandlers, undisturbedHandlers]
  | drain writes rest =>
    rw [undisturbedHandlers, undisturbedHandlers, undisturbed_map writes, ← map_flushLoop,
      undisturbedHandlers_map rest]
    rfl

end

lemma map_step (event : Event α) : (s.step event).map f = (s.map f).step (event.map f) := by
  have hflush (s : WriteQueue α) (script : SocketScript) :
      (s.flush script).map f = (s.map f).flush script := by
    rw [flush, flush, ← map_flushLoop]
    exact apply_ite (map f) _ _ _
  cases event with
  | enqueue frame script =>
    rw [Event.map, WriteQueue.step, WriteQueue.step, ← map_push, ← hflush]
    exact apply_ite (map f) _ _ _
  | drain script => exact hflush s script
  | finalize event => exact apply_ite (map f) _ _ _
  | finish => exact map_finish f s

lemma Event.undisturbed_map (s : WriteQueue α) (event : Event α) :
    (event.map f).undisturbed (s.map f) = event.undisturbed s := by
  cases event with
  | enqueue frame script =>
    rw [Event.map, Event.undisturbed, Event.undisturbed, ← map_push, WriteQueue.undisturbed_map]
    rfl
  | drain script =>
    rw [Event.map, Event.undisturbed, Event.undisturbed, WriteQueue.undisturbed_map]
    rfl
  | finalize event => rfl
  | finish => rfl

lemma undisturbedRun_map (events : List (Event α)) :
    (s.map f).undisturbedRun (events.map (Event.map f)) = s.undisturbedRun events := by
  induction events generalizing s with
  | nil => rfl
  | cons event events ih =>
    rw [List.map_cons, undisturbedRun, undisturbedRun, Event.undisturbed_map, ← map_step, ih]

end map

def Event.length : Event α → ℕ
  | .enqueue frame _ => frame.length
  | _ => 0

/-- Each byte of an event with its place, counted from `n`. -/
def Event.label (n : ℕ) : Event α → Event (α × ℕ)
  | .enqueue frame script => .enqueue (frame.zipIdx n) script
  | .drain script => .drain script
  | .finalize event => .finalize event
  | .finish => .finish

/-- Each byte with its place among those of all frames, counted from `n`. -/
def labelled (n : ℕ) : List (Event α) → List (Event (α × ℕ))
  | [] => []
  | event :: events => event.label n :: labelled (n + event.length) events

lemma labelled_map (n : ℕ) (events : List (Event α)) :
    (labelled n events).map (Event.map Prod.fst) = events := by
  induction events generalizing n with
  | nil => rfl
  | cons event events ih =>
    rw [labelled, List.map_cons, ih]
    cases event <;> simp only [Event.label, Event.map, List.zipIdx_map_fst]

/-- The places of the bytes that were enqueued are different, and under `n`. -/
def Below (n : ℕ) (s : WriteQueue (α × ℕ)) : Prop :=
  s.enqueued.Nodup ∧ ∀ byte ∈ s.enqueued, byte.2 < n

lemma Below.push {n : ℕ} {s : WriteQueue (α × ℕ)} (h : s.Below n) (frame : List α) :
    (s.push (frame.zipIdx n)).Below (n + frame.length) := by
  have hplaces : ∀ byte ∈ frame.zipIdx n, n ≤ byte.2 ∧ byte.2 < n + frame.length := fun byte hbyte =>
    have hplace := List.mem_zipIdx hbyte
    ⟨hplace.1, hplace.2.1⟩
  refine ⟨List.nodup_append.mpr ⟨h.1, ?_, ?_⟩, fun byte hbyte => ?_⟩
  · refine List.Nodup.of_map Prod.snd ?_
    rw [List.zipIdx_map_snd]
    exact List.nodup_range'
  · rintro byte hbyte _ hother rfl
    exact absurd (h.2 byte hbyte) (Nat.not_lt.mpr (hplaces byte hother).1)
  · rcases List.mem_append.mp hbyte with hbyte | hbyte
    · exact (h.2 byte hbyte).trans_le (Nat.le_add_right _ _)
    · exact (hplaces byte hbyte).2

lemma flush_enqueued (s : WriteQueue α) (script : SocketScript) :
    (s.flush script).enqueued = s.enqueued := by
  unfold flush
  split_ifs
  · rfl
  · exact (stable_enqueued s.enqueued).flushLoop script rfl

lemma Below.step {n : ℕ} {s : WriteQueue (α × ℕ)} (h : s.Below n) (event : Event α) :
    (s.step (event.label n)).Below (n + event.length) := by
  have hlater (k : ℕ) : s.Below (n + k) :=
    ⟨h.1, fun byte hbyte => (h.2 byte hbyte).trans_le (Nat.le_add_right n k)⟩
  cases event with
  | enqueue frame script =>
    rw [Event.label, WriteQueue.step]
    split_ifs
    · exact hlater _
    · unfold Below
      rw [flush_enqueued]
      exact h.push frame
  | drain script =>
    unfold Below
    rw [Event.label, WriteQueue.step, flush_enqueued]
    exact h
  | finalize event =>
    rw [Event.label, WriteQueue.step]
    split_ifs <;> exact h
  | finish =>
    unfold Below
    rw [Event.label, WriteQueue.step, (stable_enqueued s.enqueued).finish s rfl]
    exact h

lemma Event.Nonempty.label (h : event.Nonempty) (n : ℕ) :
    (event.label n).Nonempty := by
  cases event with
  | enqueue frame script =>
    rintro _ _ ⟨⟩ hempty
    exact h frame script rfl (List.zipIdx_eq_nil_iff.mp hempty)
  | drain script => exact nofun
  | finalize event => exact nofun
  | finish => exact nofun

/-- The accounts are right all along a run exactly when no write of it is disturbed.

**Proof sketch.** Induction on the events. An event that is not disturbed leads to a settled
connection again; after the first one that is, the accounts are wrong. -/
theorem Settled.run_accounts_iff {n : ℕ} {s : WriteQueue (α × ℕ)} (h : s.Settled) (hn : s.Below n)
    (events : List (Event α)) (hframes : ∀ event ∈ events, event.Nonempty) :
    (∀ before, before <+: events → (s.run (labelled n before)).Accounts) ↔
      s.undisturbedRun (labelled n events) = true := by
  induction events generalizing s n with
  | nil =>
    refine ⟨fun _ => rfl, fun _ before hbefore => ?_⟩
    rw [List.prefix_nil.mp hbefore]
    exact h.accounts
  | cons event events ih =>
    have hframe := (hframes event List.mem_cons_self).label n
    have hrest := fun event' hevent' => hframes event' (List.mem_cons_of_mem event hevent')
    rw [labelled, undisturbedRun, Bool.and_eq_true]
    constructor
    · intro hall
      have hfirst : (event.label n).undisturbed s = true := by
        by_contra hdisturbed
        have hstep : (s.step (event.label n)).Accounts :=
          hall [event] (List.prefix_append [event] events)
        exact h.step_wrong hframe (hn.step event).1 (Bool.eq_false_of_not_eq_true hdisturbed) hstep
      have hsettled := h.step hframe hfirst
      refine ⟨hfirst, (ih hsettled (hn.step event) hrest).mp fun before hbefore => ?_⟩
      exact hall (event :: before) (List.cons_prefix_cons.mpr ⟨rfl, hbefore⟩)
    · rintro ⟨hfirst, hlast⟩ before hbefore
      have hsettled := h.step hframe hfirst
      rcases List.prefix_cons_iff.mp hbefore with rfl | ⟨before', rfl, hbefore'⟩
      · exact h.accounts
      · exact (ih hsettled (hn.step event) hrest).mpr hlast before' hbefore'

end WriteQueue

/-- **The accounts of the queue are right after every event exactly when no write that takes bytes
has a handler inside it that acts.** The bytes carry their places, so that one that is handed over
twice is seen; the condition does not look at them. -/
theorem reentrant_flush_iff {α : Type} (events : List (WriteQueue.Event α))
    (hframes : ∀ event ∈ events, event.Nonempty) :
    (∀ before, before <+: events → (WriteQueue.new.run (WriteQueue.labelled 0 before)).Accounts) ↔
      WriteQueue.new.undisturbedRun events = true := by
  have hnew : (WriteQueue.new (α := α × ℕ)).Below 0 := ⟨List.nodup_nil, nofun⟩
  rw [WriteQueue.new_settled.run_accounts_iff hnew events hframes]
  have hmap := WriteQueue.undisturbedRun_map Prod.fst (WriteQueue.new (α := α × ℕ))
    (WriteQueue.labelled 0 events)
  rw [WriteQueue.labelled_map] at hmap
  rw [← hmap]
  rfl

/-- The frame of the text `hi` under the masking key `1, 2, 3, 4`. -/
def hiFrame : Buffer := encodeTextFrame ⟨1, 2, 3, 4⟩ (js "hi")

/-- A write that takes the whole frame and runs these handlers before it returns. -/
def wholeWrite (inside : HandlerScript) : SocketScript := .write inside (.returned 8) .stop

theorem reentrant_flush_parts :
    (∀ before, before <+: [.enqueue hiFrame (.write (.drain (.write .done (.returned 3) .stop) .done)
        (.returned 0) .stop), .drain (.write .done (.returned 5) .stop)] →
      (WriteQueue.new.run (WriteQueue.labelled 0 before)).Accounts) ↔
      WriteQueue.new.undisturbedRun [.enqueue hiFrame (.write (.drain (.write .done (.returned 3) .stop)
        .done) (.returned 0) .stop), .drain (.write .done (.returned 5) .stop)] = true := by
  refine reentrant_flush_iff _ fun event hevent => ?_
  simp only [List.mem_cons, List.not_mem_nil, or_false] at hevent
  rcases hevent with rfl | rfl
  · rintro _ _ ⟨⟩
    decide
  · exact nofun

/-- With a drain inside the write the socket gets the frame twice, with a close inside it once; in
both runs the counter ends at `-8` with nothing in the queue. -/
theorem reentrant_flush_twice :
    (¬ (WriteQueue.new.run (WriteQueue.labelled 0
        [.enqueue hiFrame (wholeWrite (.drain (wholeWrite .done) .done))])).Accounts ∧
      (WriteQueue.new.run [.enqueue hiFrame (wholeWrite (.drain (wholeWrite .done) .done))]).taken =
        hiFrame ++ hiFrame ∧
      (WriteQueue.new.run [.enqueue hiFrame
        (wholeWrite (.drain (wholeWrite .done) .done))]).queuedBytesValue = -8) ∧
    (¬ (WriteQueue.new.run (WriteQueue.labelled 0
        [.enqueue hiFrame (wholeWrite (.close .done))])).Accounts ∧
      (WriteQueue.new.run [.enqueue hiFrame
        (wholeWrite (.close .done))]).queuedBytesValue = -8) := by
  refine ⟨⟨fun h => absurd h.counter (by decide), by decide, by decide⟩,
    fun h => absurd h.counter (by decide), by decide⟩

/-! ## Sockets that run no handlers -/

/-- The writes of a socket that runs no handlers inside them. -/
def SocketScript.quiet : List WriteResult → SocketScript
  | [] => .stop
  | result :: results => .write .done result (quiet results)

namespace WriteQueue

lemma undisturbed_quiet {α : Type} (results : List WriteResult) (s : WriteQueue α) :
    undisturbed (.quiet results) s = true := by
  induction results generalizing s with
  | nil => rw [SocketScript.quiet, undisturbed]
  | cons result results ih =>
    rw [SocketScript.quiet, undisturbed]
    cases s.queue with
    | nil => rfl
    | cons head tail =>
      dsimp only
      split_ifs
      · rw [ih, Bool.or_true]
        rfl
      · rw [undisturbedHandlers]

end WriteQueue

namespace AppUpstream

/-- The part of a connection that `flush` touches. -/
def writeQueue (s : AppUpstream) : WriteQueue UInt8 where
  queue := s.queue
  queuedBytesValue := s.queuedBytesValue
  closed := s.finished
  finalizeWhenFlushed := s.finalizeWhenFlushed
  enqueued := enqueuedBytes s.log
  taken := acceptedBytes s.log

lemma finish_writeQueue (s : AppUpstream) (event : UpstreamCloseEvent) :
    (s.finish event).writeQueue = s.writeQueue.finish := by
  unfold finish WriteQueue.finish
  split_ifs with h h' h'
  · rfl
  · exact absurd h h'
  · exact absurd h' h
  · simp [writeQueue, setState, emit, acceptedBytes, enqueuedBytes]

lemma wrote_writeQueue (s : AppUpstream) (bytes : Buffer) :
    (s.emit (.wrote bytes)).writeQueue =
      { s.writeQueue with taken := s.writeQueue.taken ++ bytes } := by
  simp [writeQueue, emit, acceptedBytes, enqueuedBytes]

/-- What the writes of a `flush` come to: the socket is asked for one after the other, and no more
behind one that throws or leaves something of the head. -/
def flushResults (env : UpstreamEnv) : List Buffer → List UpstreamEffect → List WriteResult
  | [], _ => []
  | head :: rest, log =>
    match env.write log head with
    | .threw err => [.threw err]
    | .returned written =>
      .returned written ::
        if head.length ≤ written then flushResults env rest (log ++ [.wrote head]) else []

/-- The loop of the connection is the loop with a socket that runs no handlers. -/
lemma flushQueue_writeQueue (env : UpstreamEnv) (q : List Buffer) (s : AppUpstream)
    (hq : s.queue = q) : (s.flushQueue env q).writeQueue =
      WriteQueue.flushLoop (.quiet (flushResults env q s.log)) s.writeQueue := by
  induction q generalizing s with
  | nil =>
    have hqueue : s.writeQueue.queue = [] := hq
    rw [flushResults, SocketScript.quiet, WriteQueue.flushLoop, hqueue, flushQueue]
    dsimp only
    rw [WriteQueue.flushed, show s.writeQueue.finalizeWhenFlushed = s.finalizeWhenFlushed from rfl]
    cases hwaiting : s.finalizeWhenFlushed with
    | none => rfl
    | some waiting => exact finish_writeQueue { s with finalizeWhenFlushed := none } waiting
  | cons head rest ih =>
    have hqueue : s.writeQueue.queue = head :: rest := hq
    rw [flushQueue, flushResults]
    cases hwrite : env.write s.log head with
    | threw err =>
      dsimp only
      rw [SocketScript.quiet, WriteQueue.flushLoop, hqueue]
      dsimp only
      rw [WriteQueue.runHandlers, WriteQueue.take_of_count rfl]
      exact finish_writeQueue s _
    | returned written =>
      dsimp only
      rw [SocketScript.quiet, WriteQueue.flushLoop, hqueue]
      dsimp only
      rw [WriteQueue.runHandlers]
      by_cases hall : (head.length : ℤ) ≤ written
      · -- The whole head goes out, and the loop goes on with the rest.
        let next : AppUpstream :=
          { s with queue := rest, queuedBytesValue := s.queuedBytesValue - head.length }
        have hstate : (next.emit (.wrote head)).writeQueue =
            (s.writeQueue.take head (.returned written)).shift head := by
          rw [wrote_writeQueue, WriteQueue.take, WriteQueue.shift, WriteResult.count,
            List.take_of_length_le (by omega)]
          simp [next, writeQueue, hq]
        rw [if_pos hall, if_pos hall, if_pos hall, ← hstate]
        exact ih (next.emit (.wrote head)) rfl
      · rw [if_neg hall, if_neg hall]
        by_cases hsome : 0 < written
        · rw [if_pos hsome, if_pos hsome, wrote_writeQueue]
          simp [WriteQueue.take, WriteQueue.keepTail, WriteQueue.setHead, WriteResult.count,
            writeQueue, hq]
        · have hcount : (WriteResult.returned written).count = 0 := Int.toNat_of_nonpos (by omega)
          rw [if_neg hsome, if_neg hsome, wrote_writeQueue, WriteQueue.take_of_count hcount,
            List.append_nil]

/-- **A `flush` whose socket runs no handlers inside its writes is the `flush` of the connection.** -/
theorem flush_writeQueue {limits : AppUpstreamLimits} {s : AppUpstream} (h : s.Sound limits)
    (env : UpstreamEnv) : (s.flush env).writeQueue =
      s.writeQueue.flush (.quiet (flushResults env s.queue s.log)) := by
  unfold flush WriteQueue.flush
  by_cases hclosed : s.state = .closed
  · have hfinished : s.writeQueue.closed = true := h.closed_iff.mp hclosed
    rw [if_pos hclosed, if_pos hfinished]
  · have hfinished : s.writeQueue.closed = false := h.finished_eq_false hclosed
    rw [if_neg hclosed, if_neg (by simp [hfinished])]
    exact flushQueue_writeQueue env s.queue s rfl

/-- **The two models of a flush.** In every state that a connection reaches, its `flush` is the flush
of the model with handlers, over the writes that the socket answers as it does here and without a
handler inside one of them; and none of them is disturbed. -/
theorem flush_undisturbed (env : UpstreamEnv) (limits : AppUpstreamLimits) (leftover : Buffer)
    (events : List UpstreamEvent) :
    let s := (new limits leftover).run env events
    let script := SocketScript.quiet (flushResults env s.queue s.log)
    (s.flush env).writeQueue = s.writeQueue.flush script ∧
      WriteQueue.undisturbed script s.writeQueue = true := by
  intro s script
  exact ⟨flush_writeQueue ((sound_new limits leftover).run env events) env,
    WriteQueue.undisturbed_quiet _ _⟩

end AppUpstream

end Isomux
