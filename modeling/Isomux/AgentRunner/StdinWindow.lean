import Isomux.AgentRunner.Client
import Isomux.Foundations.Machine

set_option autoImplicit false

/-!
# The input window of a runner connection

The pump compares the bytes in flight with the window before it adds a frame, whatever the size of
the frame. So the window holds exactly as long as no frame of the outbox straddles its end.

## Main results

* `Isomux.AgentRunner.stdin_window_iff` — the window holds along a run exactly when no event of it
  meets a frame that straddles the end.
* `Isomux.AgentRunner.stdin_window_overrun` — one large write overruns the window.
-/

namespace Isomux.AgentRunner

inductive StreamEvent where
  | write (data : Buffer)
  | control (message : ClientControl)
  | acknowledge (bytes : ℕ)
  | close

variable (s : RunnerStream)

def RunnerStream.step : StreamEvent → RunnerStream
  | .write data => s.write data
  | .control message => s.control message
  | .acknowledge bytes => s.acknowledge bytes
  | .close => s.close

/-- No frame straddles the end of the window: where a frame starts below the end, it ends at the end
or below it. The sizes are those of the frames that wait, in order. -/
def NoStraddle (unackedStdin : ℕ) (sizes : List ℕ) : Prop :=
  ∀ before size after, sizes = before ++ size :: after →
    unackedStdin + before.sum < STDIN_WINDOW_BYTES →
      unackedStdin + before.sum + size ≤ STDIN_WINDOW_BYTES

def RunnerStream.sizes : List ℕ := s.outbox.map (·.stdinBytes)

/-- What an event must not meet: a frame that straddles the end of the window among those that wait
and those that it adds, with the bytes in flight that it leaves. -/
def WindowFits : StreamEvent → Prop
  | .write data =>
    s.closed = false → data ≠ [] →
      NoStraddle s.unackedStdin (s.sizes ++ (dataChunks data).map List.length)
  | .control .stdinEnd => s.closed = false → NoStraddle s.unackedStdin s.sizes
  | .control (.signal _ _) => True
  | .acknowledge bytes => bytes ≠ 0 → NoStraddle (s.unackedStdin - bytes) s.sizes
  | .close => True

/-! ## The pump -/

lemma noStraddle_of_le {unackedStdin : ℕ} (h : STDIN_WINDOW_BYTES ≤ unackedStdin)
    (sizes : List ℕ) : NoStraddle unackedStdin sizes := by
  intro before size after _ hlt
  omega

lemma noStraddle_cons {unackedStdin size : ℕ} {sizes : List ℕ}
    (h : size = 0 ∨ unackedStdin < STDIN_WINDOW_BYTES)
    (hle : unackedStdin ≤ STDIN_WINDOW_BYTES) :
    NoStraddle unackedStdin (size :: sizes) ↔
      unackedStdin + size ≤ STDIN_WINDOW_BYTES ∧ NoStraddle (unackedStdin + size) sizes := by
  constructor
  · intro hall
    refine ⟨?_, fun before size' after heq hlt => ?_⟩
    · rcases h with rfl | hlt
      · exact hle
      · simpa using hall [] size sizes rfl (by simpa using hlt)
    · have hnext := hall (size :: before) size' after (by rw [heq]; rfl)
      rw [List.sum_cons, ← add_assoc] at hnext
      exact hnext hlt
  · rintro ⟨hfirst, hrest⟩ before size' after heq hlt
    cases before with
    | nil =>
      obtain ⟨rfl, -⟩ := List.cons.inj heq
      exact hfirst
    | cons first before =>
      obtain ⟨rfl, hsizes⟩ := List.cons.inj heq
      rw [List.sum_cons, ← add_assoc] at hlt ⊢
      exact hrest before size' after hsizes hlt

lemma le_pumpLoop (unackedStdin : ℕ) (outbox : List OutboxItem) :
    unackedStdin ≤ (pumpLoop unackedStdin outbox).2.1 := by
  obtain ⟨-, hcount, -⟩ := pumpLoop_spec unackedStdin outbox
  omega

/-- **The pump keeps the window exactly when no frame straddles its end.** -/
lemma pumpLoop_le_iff {unackedStdin : ℕ} (outbox : List OutboxItem)
    (hle : unackedStdin ≤ STDIN_WINDOW_BYTES) :
    (pumpLoop unackedStdin outbox).2.1 ≤ STDIN_WINDOW_BYTES ↔
      NoStraddle unackedStdin (outbox.map (·.stdinBytes)) := by
  induction outbox generalizing unackedStdin with
  | nil =>
    refine iff_of_true hle fun before size after heq => ?_
    rw [List.map_nil] at heq
    cases before <;> cases heq
  | cons item outbox ih =>
    rw [List.map_cons]
    unfold pumpLoop
    split_ifs with hgo
    · rw [noStraddle_cons hgo hle]
      by_cases hfits : unackedStdin + item.stdinBytes ≤ STDIN_WINDOW_BYTES
      · rw [and_iff_right hfits]
        exact ih hfits
      · -- the frame overruns the window, and the pump never takes bytes back
        have hover := le_pumpLoop (unackedStdin + item.stdinBytes) outbox
        refine iff_of_false ?_ fun hboth => hfits hboth.1
        show ¬(pumpLoop (unackedStdin + item.stdinBytes) outbox).2.1 ≤ STDIN_WINDOW_BYTES
        omega
    · rw [not_or, not_lt] at hgo
      exact iff_of_true hle (noStraddle_of_le hgo.2 _)

/-! ## The window -/

lemma noStraddle_append_zero {unackedStdin : ℕ} {sizes : List ℕ} :
    NoStraddle unackedStdin (sizes ++ [0]) ↔ NoStraddle unackedStdin sizes := by
  constructor
  · intro h before size after heq hlt
    exact h before size (after ++ [0]) (by rw [heq, List.append_assoc]; rfl) hlt
  · intro h before size after heq hlt
    rcases List.eq_nil_or_concat after with rfl | ⟨front, last, rfl⟩
    · obtain ⟨-, hlast⟩ := List.append_inj' heq rfl
      obtain rfl := (List.cons.inj hlast).1
      omega
    · have hsplit : sizes ++ [0] = (before ++ size :: front) ++ [last] := by
        rw [heq]
        simp
      exact h before size front (List.append_inj' hsplit rfl).1 hlt

/-- **An event keeps the window exactly when it fits.** -/
theorem stdin_window_step_iff (event : StreamEvent) (h : s.unackedStdin ≤ STDIN_WINDOW_BYTES) :
    (s.step event).unackedStdin ≤ STDIN_WINDOW_BYTES ↔ WindowFits s event := by
  cases event with
  | write data =>
    show (s.write data).unackedStdin ≤ _ ↔ (s.closed = false → data ≠ [] → _)
    by_cases hopen : s.closed = false
    · by_cases hdata : data = []
      · subst hdata
        rw [RunnerStream.write_nil]
        exact iff_of_true h fun _ hne => absurd rfl hne
      · have hiff := pumpLoop_le_iff (s.outbox ++ (dataChunks data).map fun chunk =>
          ⟨(Frame.mk .stdin chunk).bytes, chunk.length⟩) h
        rw [List.map_append, List.map_map] at hiff
        rw [RunnerStream.write_eq hopen data hdata]
        exact ⟨fun hfits _ _ => hiff.1 hfits, fun hfits => hiff.2 (hfits hopen hdata)⟩
    · rw [Bool.not_eq_false] at hopen
      rw [RunnerStream.write_closed hopen]
      refine iff_of_true h fun hfalse => ?_
      rw [hopen] at hfalse
      cases hfalse
  | control message =>
    cases message with
    | stdinEnd =>
      show (s.control .stdinEnd).unackedStdin ≤ _ ↔ (s.closed = false → _)
      by_cases hopen : s.closed = false
      · have hiff := pumpLoop_le_iff
          (s.outbox ++ [⟨(Frame.mk .json ClientControl.stdinEnd.text).bytes, 0⟩]) h
        rw [List.map_append, List.map_singleton, noStraddle_append_zero] at hiff
        rw [RunnerStream.control_stdinEnd hopen]
        exact ⟨fun hfits _ => hiff.1 hfits, fun hfits => hiff.2 (hfits hopen)⟩
      · rw [Bool.not_eq_false] at hopen
        rw [RunnerStream.control_closed hopen]
        refine iff_of_true h fun hfalse => ?_
        rw [hopen] at hfalse
        cases hfalse
    | signal name scope =>
      show (s.control (.signal name scope)).unackedStdin ≤ _ ↔ True
      refine iff_of_true ?_ trivial
      by_cases hopen : s.closed = false
      · rw [RunnerStream.control_signal hopen]
        split_ifs <;> exact h
      · rw [Bool.not_eq_false] at hopen
        rw [RunnerStream.control_closed hopen]
        exact h
  | acknowledge bytes =>
    show (s.acknowledge bytes).unackedStdin ≤ _ ↔ (bytes ≠ 0 → _)
    unfold RunnerStream.acknowledge
    split_ifs with hbytes
    · exact iff_of_true h fun hne => absurd hbytes hne
    · show (pumpLoop (s.unackedStdin - bytes) s.outbox).2.1 ≤ _ ↔ _
      rw [pumpLoop_le_iff _ (by omega)]
      exact ⟨fun hfits _ => hfits, fun hfits => hfits hbytes⟩
  | close => exact iff_of_true h trivial

/-- **The window holds along a run exactly when no event of it meets a frame that straddles the end
of the window.** -/
theorem stdin_window_iff (request : Buffer) (events : List StreamEvent) :
    (∀ n, (Machine.run RunnerStream.step (.start request) (events.take n)).unackedStdin ≤
      STDIN_WINDOW_BYTES) ↔
        Machine.Along RunnerStream.step WindowFits (.start request) events :=
  Machine.forall_take_iff_along stdin_window_step_iff (Nat.zero_le _)

lemma dataChunks_two {data : Buffer} (hmore : MAX_FRAME_BYTES - 1 < data.length)
    (hless : data.length ≤ 2 * (MAX_FRAME_BYTES - 1)) :
    dataChunks data = [data.take (MAX_FRAME_BYTES - 1), data.drop (MAX_FRAME_BYTES - 1)] := by
  have hdata : data ≠ [] := List.length_pos_iff.1 (by omega)
  have hdrop : data.drop (MAX_FRAME_BYTES - 1) ≠ [] := by
    rw [← List.length_pos_iff, List.length_drop]
    omega
  have hend : (data.drop (MAX_FRAME_BYTES - 1)).drop (MAX_FRAME_BYTES - 1) = [] := by
    rw [List.drop_drop]
    exact List.drop_of_length_le (by omega)
  have htake : (data.drop (MAX_FRAME_BYTES - 1)).take (MAX_FRAME_BYTES - 1) =
      data.drop (MAX_FRAME_BYTES - 1) := by
    rw [List.take_of_length_le]
    rw [List.length_drop]
    omega
  rw [dataChunks, if_neg hdata, dataChunks, if_neg hdrop, hend, htake, dataChunks, if_pos rfl]

/-- **One large write overruns the window**: two megabytes go out in two frames at once, for the
first of them leaves one byte of room. -/
theorem stdin_window_overrun :
    ¬∀ (request : Buffer) (events : List StreamEvent),
      (Machine.run RunnerStream.step (.start request) events).unackedStdin ≤
        STDIN_WINDOW_BYTES := by
  intro hall
  obtain ⟨data, hdata⟩ : ∃ data : Buffer, data.length = 2000000 :=
    ⟨List.replicate 2000000 0, List.length_replicate⟩
  have hne : data ≠ [] := List.length_pos_iff.1 (by omega)
  have hfits := (stdin_window_step_iff (.start []) (.write data) (Nat.zero_le _)).1
    (hall [] [.write data]) rfl hne
  rw [dataChunks_two (by rw [hdata]; decide) (by rw [hdata]; decide)] at hfits
  have hsecond := hfits [MAX_FRAME_BYTES - 1] (2000000 - (MAX_FRAME_BYTES - 1)) [] (by
    simp only [List.map_cons, List.map_nil, List.length_take, List.length_drop, hdata]
    rfl)
  revert hsecond
  decide

end Isomux.AgentRunner
