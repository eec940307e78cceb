import Mathlib.Data.List.Nodup
import Isomux.Runtime.Text

set_option autoImplicit false

/-!
# The target of an edit (`src/server/edit-target.ts`)

An edit goes back to a user message of the log, and the backend is asked to go back to its record of that
message. A message that was stopped before it was sent has no record. The log and the backend have nothing
in common but texts, so the code counts: the target has the record that has as many records of the same text
in front of it as the target has messages of that text in front of it in the log.

When one of these was stopped the count is wrong. Then the record of a later message of the same text is
taken for the one of the target, or a last message that has a record counts as not sent.

## Main results

* `Isomux.EditTarget.nthMatch_eq_some_iff` — the record that is found by counting.
* `Isomux.EditTarget.located_iff` — when the answer is right.
-/

namespace Isomux.EditTarget

structure EditLogUser where
  id : JsString
  text : JsString

structure EditBackendUser where
  index : ℕ
  text : JsString

inductive EditTargetLocation where
  | found (index : ℕ)
  | notSent
  | missing
  deriving DecidableEq

def nthMatch (text : JsString) : ℕ → List EditBackendUser → Option ℕ
  | _, [] => none
  | occurrence, user :: users =>
    if user.text ≠ text then (nthMatch text occurrence users).map (· + 1)
    else if occurrence = 0 then some 0
    else (nthMatch text (occurrence - 1) users).map (· + 1)

def logText (logUsers : List EditLogUser) (position : ℕ) : JsString :=
  (logUsers[position]?.map EditLogUser.text).getD []

def occurrenceBefore (logUsers : List EditLogUser) (position : ℕ) : ℕ :=
  (logUsers.take position).countP fun u => u.text = logText logUsers position

variable (backendUsers : List EditBackendUser)

/-- The record that a message of the log is matched with. -/
def matchOf (logUsers : List EditLogUser) (position : ℕ) : Option ℕ :=
  nthMatch (logText logUsers position) (occurrenceBefore logUsers position) backendUsers

/-- Whether the backend ends at the message in front of a message, but for empty texts. -/
def endsBefore (logUsers : List EditLogUser) (position : ℕ) : Bool :=
  let after := if position = 0 then some 0 else (matchOf backendUsers logUsers (position - 1)).map (· + 1)
  after.any fun after => (backendUsers.drop after).all fun u => u.text.trim = []

def locateEditTarget (logUsers : List EditLogUser) (targetId : JsString) : EditTargetLocation :=
  match logUsers.findIdx? fun u => u.id = targetId with
  | none => .missing
  | some t =>
    match (matchOf backendUsers logUsers t).bind (backendUsers[·]?) with
    | some user => .found user.index
    | none =>
      if t + 1 ≠ logUsers.length then .missing
      else if endsBefore backendUsers logUsers t then .notSent
      else .missing

/-! ## Histories -/

/-- What a backend has of the user messages of a log: records of some of them, in order and with their
texts, and empty messages between them. A record comes with the position of its message. -/
structure History (log : List EditLogUser) where
  messages : List (Option ℕ × EditBackendUser)
  records : ∀ m ∈ messages, ∀ t ∈ m.1, t < log.length ∧ m.2.text = logText log t
  empties : ∀ m ∈ messages, m.1 = none → m.2.text.trim = []
  order : (messages.filterMap Prod.fst).Pairwise (· < ·)
  indices : (messages.map fun m => m.2.index).Nodup

def History.users {log : List EditLogUser} (h : History log) : List EditBackendUser :=
  h.messages.map Prod.snd

def History.Recorded {log : List EditLogUser} (h : History log) (t : ℕ) : Prop :=
  ∃ m ∈ h.messages, m.1 = some t

/-- **The answer is right**: what is found is the record of the target, a target that counts as not sent has
no record, so that the edit keeps every record, and there is no other answer about an unknown target. -/
def History.Located {log : List EditLogUser} (h : History log) (targetId : JsString) : Prop :=
  match log.findIdx? (fun u => u.id = targetId), locateEditTarget h.users log targetId with
  | some t, .found index => ∃ m ∈ h.messages, m.1 = some t ∧ m.2.index = index
  | some t, .notSent => ¬h.Recorded t
  | none, answer => answer = .missing
  | _, .missing => True

def countText (text : JsString) (messages : List (Option ℕ × EditBackendUser)) : ℕ :=
  messages.countP fun m => m.2.text = text

/-- The count of a message of the log is right, or it finds nothing. -/
structure History.Counted {log : List EditLogUser} (h : History log) (t : ℕ) : Prop where
  /-- In front of the record there are as many messages of the text as in front of the message in the log.
  Or there are so few of them that no other record is found, and the backend does not seem to end in front
  of the last message. -/
  recorded : ∀ front m back, h.messages = front ++ m :: back → m.1 = some t →
    countText (logText log t) front = occurrenceBefore log t ∨
      (countText (logText log t) front + countText (logText log t) back < occurrenceBefore log t ∧
        ¬(t + 1 = log.length ∧ endsBefore h.users log t))
  /-- Without a record, there are no more messages of the text than in front of the message in the log. -/
  unrecorded : ¬h.Recorded t → countText (logText log t) h.messages ≤ occurrenceBefore log t

section

variable {log : List EditLogUser} {h : History log} {targetId text : JsString} {n i t : ℕ}

variable {users : List EditBackendUser}

/-- **The record that is found by counting** has the text, and as many of that text in front of it. -/
theorem nthMatch_eq_some_iff :
    nthMatch text n users = some i ↔ ∃ front user back, users = front ++ user :: back ∧
      front.length = i ∧ user.text = text ∧ (front.countP fun u => u.text = text) = n := by
  induction users generalizing n i with
  | nil => simp [nthMatch]
  | cons user users ih =>
    have hlater : ∀ {j : ℕ} (k : ℕ), (nthMatch text j users).map (· + 1) = some i →
        (if user.text = text then j + 1 else j) = k → ∃ front u back,
          user :: users = front ++ u :: back ∧ front.length = i ∧ u.text = text ∧
            (front.countP fun u => u.text = text) = k := by
      intro n k hmap hk
      obtain ⟨j, hj, rfl⟩ := Option.map_eq_some_iff.1 hmap
      obtain ⟨front, u, back, rfl, rfl, htext, hcount⟩ := ih.1 hj
      refine ⟨user :: front, u, back, rfl, rfl, htext, ?_⟩
      rw [List.countP_cons, hcount, ← hk]
      split_ifs <;> simp_all
    constructor
    · intro hmatch
      rw [nthMatch] at hmatch
      split_ifs at hmatch with hne hzero
      · exact hlater n hmatch (if_neg hne)
      · exact ⟨[], user, users, rfl, Option.some.inj hmatch, not_not.1 hne, hzero.symm⟩
      · refine hlater n hmatch ?_
        rw [if_pos (not_not.1 hne)]
        omega
    · rintro ⟨front, u, back, hsplit, rfl, htext, rfl⟩
      cases front with
      | nil =>
        obtain ⟨rfl, rfl⟩ := List.cons.inj hsplit
        rw [nthMatch, if_neg (not_not_intro htext), if_pos List.countP_nil]
        rfl
      | cons first front =>
        obtain ⟨rfl, rfl⟩ := List.cons.inj hsplit
        have hrest := ih.2 ⟨front, u, back, rfl, rfl, htext, rfl⟩
        rw [nthMatch]
        by_cases hfirst : user.text = text
        · rw [if_neg (not_not_intro hfirst), List.countP_cons_of_pos (by simpa using hfirst),
            if_neg (Nat.succ_ne_zero _), Nat.add_sub_cancel, hrest]
          rfl
        · rw [if_pos hfirst, List.countP_cons_of_neg (by simpa using hfirst), hrest]
          rfl

lemma nthMatch_eq_none_iff :
    nthMatch text n users = none ↔ (users.countP fun u => u.text = text) ≤ n := by
  induction users generalizing n with
  | nil => simp [nthMatch]
  | cons user users ih =>
    rw [nthMatch]
    by_cases hfirst : user.text = text
    · rw [if_neg (not_not_intro hfirst), List.countP_cons_of_pos (by simpa using hfirst)]
      split_ifs with hzero
      · simp [hzero]
      · rw [Option.map_eq_none_iff, ih]
        omega
    · rw [if_pos hfirst, List.countP_cons_of_neg (by simpa using hfirst), Option.map_eq_none_iff, ih]

lemma countP_users (messages : List (Option ℕ × EditBackendUser)) :
    ((messages.map Prod.snd).countP fun u => u.text = text) = countText text messages :=
  List.countP_map

lemma History.front_eq {front back : List (Option ℕ × EditBackendUser)} {m : Option ℕ × EditBackendUser}
    (hm : h.messages = front ++ m :: back) (ht : m.1 = some t) :
    front = h.messages.takeWhile fun x => x.1 ≠ some t := by
  have horder := h.order
  rw [hm, List.filterMap_append, List.filterMap_cons_some ht] at horder
  have hearlier : ∀ x ∈ front, (decide (x.1 ≠ some t)) = true := fun x hx => by
    refine decide_eq_true fun hxt => ?_
    have hlt := (List.pairwise_append.1 horder).2.2 t (List.mem_filterMap.2 ⟨x, hx, hxt⟩) t
      List.mem_cons_self
    exact Nat.lt_irrefl t hlt
  rw [hm, List.takeWhile_append_of_pos hearlier, List.takeWhile_cons_of_neg (by simp [ht]),
    List.append_nil]

lemma locateEditTarget_found
    (htarget : (log.findIdx? fun u => u.id = targetId) = some t) {front back : List EditBackendUser}
    {user : EditBackendUser} (hsplit : users = front ++ user :: back)
    (htext : user.text = logText log t)
    (hcount : (front.countP fun u => u.text = logText log t) = occurrenceBefore log t) :
    locateEditTarget users log targetId = .found user.index := by
  have hmatch : matchOf users log t = some front.length :=
    nthMatch_eq_some_iff.2 ⟨front, user, back, hsplit, rfl, htext, hcount⟩
  have hget : users[front.length]? = some user := by simp [hsplit]
  rw [locateEditTarget, htarget]
  dsimp only
  rw [hmatch, Option.bind_some, hget]

lemma locateEditTarget_none
    (htarget : (log.findIdx? fun u => u.id = targetId) = some t)
    (hcount : (users.countP fun u => u.text = logText log t) ≤ occurrenceBefore log t) :
    locateEditTarget users log targetId =
      if t + 1 = log.length ∧ endsBefore users log t then .notSent else .missing := by
  have hmatch : matchOf users log t = none := nthMatch_eq_none_iff.2 hcount
  rw [locateEditTarget, htarget]
  dsimp only
  rw [hmatch, Option.bind_none]
  dsimp only
  by_cases hlast : t + 1 = log.length
  · rw [if_neg (not_not_intro hlast)]
    by_cases hends : endsBefore users log t = true
    · rw [if_pos hends, if_pos ⟨hlast, hends⟩]
    · rw [if_neg hends, if_neg fun hand => hends hand.2]
  · rw [if_pos hlast, if_neg fun hand => hlast hand.1]

lemma History.eq_of_index {m m' : Option ℕ × EditBackendUser} (hm : m ∈ h.messages)
    (hm' : m' ∈ h.messages) (heq : m.2.index = m'.2.index) : m = m' :=
  List.inj_on_of_nodup_map h.indices hm hm' heq

lemma History.countText_split {front back : List (Option ℕ × EditBackendUser)}
    {m : Option ℕ × EditBackendUser} (hsplit : h.messages = front ++ m :: back) (ht : m.1 = some t) :
    countText (logText log t) h.messages =
      countText (logText log t) front + countText (logText log t) back + 1 := by
  have htext := (h.records m (hsplit ▸ List.mem_append_right _ List.mem_cons_self) t ht).2
  have hone := List.countP_cons_of_pos (p := fun x : Option ℕ × EditBackendUser => x.2.text = logText log t)
    (l := back) (decide_eq_true htext)
  rw [hsplit, countText, List.countP_append, hone, ← Nat.add_assoc]
  rfl

/-- **When the answer is right**, for every log, every history of it and every target.

**Proof sketch.** When the backend has enough messages of the text of the target, the one that is found is
at the count of the log, and the record of the target is at the count of the history. When it has not
enough, the only answer that may be wrong is that the target was not sent. -/
theorem located_iff (h : History log) (targetId : JsString) : h.Located targetId ↔
    ∀ t, (log.findIdx? fun u => u.id = targetId) = some t → h.Counted t := by
  cases htarget : log.findIdx? fun u => u.id = targetId with
  | none =>
    rw [History.Located, htarget, locateEditTarget, htarget]
    exact iff_of_true rfl nofun
  | some t =>
    have hone : (∀ t', some t = some t' → h.Counted t') ↔ h.Counted t :=
      ⟨fun hall => hall t rfl, fun hcounted t' ht => Option.some.inj ht ▸ hcounted⟩
    rw [hone, History.Located, htarget]
    by_cases henough : countText (logText log t) h.messages ≤ occurrenceBefore log t
    · -- nothing is found
      rw [locateEditTarget_none htarget (by rwa [History.users, countP_users])]
      by_cases hends : t + 1 = log.length ∧ endsBefore h.users log t
      · rw [if_pos hends]
        constructor
        · intro hnot
          refine ⟨fun front m back hsplit ht => absurd ⟨m, ?_, ht⟩ hnot, fun _ => henough⟩
          exact hsplit ▸ List.mem_append_right _ List.mem_cons_self
        · rintro hcounted ⟨m, hm, ht⟩
          obtain ⟨front, back, hsplit⟩ := List.append_of_mem hm
          have htotal := h.countText_split hsplit ht
          rcases hcounted.recorded front m back hsplit ht with hcount | ⟨-, hno⟩
          · omega
          · exact hno hends
      · rw [if_neg hends]
        refine iff_of_true trivial ⟨fun front m back hsplit ht => .inr ⟨?_, hends⟩, fun _ => henough⟩
        have htotal := h.countText_split hsplit ht
        omega
    · obtain ⟨i, hi⟩ := Option.ne_none_iff_exists'.1 fun hnone : matchOf h.users log t = none =>
        henough (by rw [← countP_users]; exact nthMatch_eq_none_iff.1 hnone)
      obtain ⟨front', user, back', hsplit', hlength, htext, hcount⟩ := nthMatch_eq_some_iff.1 hi
      rw [locateEditTarget_found htarget hsplit' htext hcount]
      obtain ⟨front, rest, hsplit, rfl, hrest⟩ := List.map_eq_append_iff.1 hsplit'
      obtain ⟨m, back, rfl, rfl, rfl⟩ := List.map_eq_cons_iff.1 hrest
      have hm : m ∈ h.messages := hsplit ▸ List.mem_append_right _ List.mem_cons_self
      rw [countP_users] at hcount
      constructor
      · rintro ⟨m', hm', ht, hindex⟩
        obtain rfl := h.eq_of_index hm' hm hindex
        refine ⟨fun front₁ m₁ back₁ hsplit₁ ht₁ => .inl ?_, fun hnot => absurd ⟨m', hm', ht⟩ hnot⟩
        rw [h.front_eq hsplit₁ ht₁, ← h.front_eq hsplit ht, hcount]
      · intro hcounted
        by_cases hrecorded : h.Recorded t
        · obtain ⟨m₁, hm₁, ht₁⟩ := hrecorded
          obtain ⟨front₁, back₁, hsplit₁⟩ := List.append_of_mem hm₁
          have htotal := h.countText_split hsplit₁ ht₁
          rcases hcounted.recorded front₁ m₁ back₁ hsplit₁ ht₁ with hcount₁ | ⟨hfew, -⟩
          · -- both records are at the same count
            have hi₁ : matchOf h.users log t = some front₁.length := by
              refine nthMatch_eq_some_iff.2 ⟨front₁.map Prod.snd, m₁.2, back₁.map Prod.snd, ?_,
                List.length_map _, (h.records m₁ hm₁ t ht₁).2, by rw [countP_users, hcount₁]⟩
              rw [History.users, hsplit₁, List.map_append, List.map_cons]
            have hsame : front₁.length = front.length :=
              (Option.some.inj (hi₁.symm.trans hi)).trans (hlength.symm.trans (List.length_map _))
            obtain ⟨-, htail⟩ := List.append_inj (hsplit₁.symm.trans hsplit) hsame
            exact ⟨m₁, hm₁, ht₁, by rw [(List.cons.inj htail).1]⟩
          · omega
        · exact absurd (hcounted.unrecorded hrecorded) henough

end

/-! ## A message that was stopped and sent again -/

def repeatedLog : List EditLogUser := [⟨js "a", js "go"⟩, ⟨js "b", js "go"⟩]

def stoppedHistory : History repeatedLog where
  messages := [(some 1, ⟨0, js "go"⟩)]
  records := by
    rintro m hm t ht
    obtain rfl := List.mem_singleton.1 hm
    obtain rfl := Option.mem_some_iff.1 ht
    decide
  empties := by
    rintro m hm hnone
    obtain rfl := List.mem_singleton.1 hm
    exact absurd hnone nofun
  order := List.pairwise_singleton _ _
  indices := List.nodup_singleton _

/-- **The record of the second message is taken for the first one's.** -/
theorem located_stopped :
    ¬∀ (log : List EditLogUser) (h : History log) (targetId : JsString), h.Located targetId := by
  intro hall
  obtain ⟨m, hm, ht, -⟩ : ∃ m ∈ stoppedHistory.messages, m.1 = some 0 ∧ m.2.index = 0 :=
    hall repeatedLog stoppedHistory (js "a")
  obtain rfl := List.mem_singleton.1 hm
  exact absurd ht (by decide)

/-- The second message has a record, and counts as not sent. -/
example : locateEditTarget stoppedHistory.users repeatedLog (js "b") = .notSent := by decide

end Isomux.EditTarget
