import Mathlib.Data.List.DropRight
import Mathlib.Logic.Function.Basic

/-!
# The session registry of the App Server

The server half of a resumable session (`protocol_edge/reliable_session.rs`): it accepts each client
frame once, numbers the server's messages and keeps them until the client acknowledges them.  Every
function here runs under the registry lock; what happens between two of them is left to the runs.

A session that was sent the messages `history` retains all but its first `dropped` ones, numbered
from one (`Retains`).

* `retains_enqueue`, `retains_acknowledge`: the operations keep that;
* `framesAfter_retained`, `checkedSession_dropped`: a cursor is answered with everything behind it,
  or with an error.
-/

namespace OpenAide.Session

variable {M : Type}

def MAX_SERVER_REPLAY_FRAMES : Nat := 1024

/-- One message of a session, numbered in its direction. -/
structure Frame (M : Type) where
  sequence : Nat
  message : M
  deriving DecidableEq

structure ReliableSession (M : Type) where
  connectionId : String
  lastClientSequence : Nat := 0
  nextServerSequence : Nat := 1
  serverFrames : List (Frame M) := []
  linkEpoch : Nat := 0

/-- The sessions by their identities. -/
def Registry (M : Type) : Type := String → Option (ReliableSession M)

/-- A pushing link's claim on a session. -/
structure AttachedLink where
  sessionId : String
  connectionId : String
  lastClientSequence : Nat
  epoch : Nat

inductive AttachError where
  | unknownSession | wrongConnection
  deriving DecidableEq

inductive AcceptClientFrame where
  | accepted | duplicate | gap (expected : Nat) | unknownSession | wrongConnection
  deriving DecidableEq

inductive PollError where
  | unknownSession | invalidAcknowledgement | replayExpired
  deriving DecidableEq

namespace Registry

def insert (r : Registry M) (sessionId : String) (session : ReliableSession M) : Registry M :=
  Function.update r sessionId (some session)

@[simp] theorem insert_self (r : Registry M) (sessionId : String) (session : ReliableSession M) :
    r.insert sessionId session sessionId = some session := Function.update_self ..

variable {sessionId : String}

theorem insert_of_ne (r : Registry M) {other : String} (h : other ≠ sessionId)
    (session : ReliableSession M) : r.insert sessionId session other = r other :=
  Function.update_of_ne h ..

/-- `open` (`reliable_session.rs:147`), given the new identity. -/
def «open» (r : Registry M) (connectionId sessionId : String) : Registry M :=
  r.insert sessionId { connectionId }

/-- `attach_link` (`reliable_session.rs:105`). -/
def attachLink (r : Registry M) (connectionId : String) (resume : Option String) (fresh : String) :
    Except AttachError AttachedLink × Registry M :=
  let (sessionId, r) := match resume with
    | some sessionId => (sessionId, r)
    | none => (fresh, r.open connectionId fresh)
  match r sessionId with
  | none => (.error .unknownSession, r)
  | some session =>
    if session.connectionId ≠ connectionId then (.error .wrongConnection, r)
    else
      let session := { session with linkEpoch := session.linkEpoch + 1 }
      (.ok {
          sessionId
          connectionId
          lastClientSequence := session.lastClientSequence
          epoch := session.linkEpoch },
        r.insert sessionId session)

theorem attachLink_resume {r : Registry M} {connectionId : String} {session : ReliableSession M}
    (hsession : r sessionId = some session) (hown : session.connectionId = connectionId)
    (fresh : String) :
    r.attachLink connectionId (some sessionId) fresh =
      (.ok ⟨sessionId, connectionId, session.lastClientSequence, session.linkEpoch + 1⟩,
        r.insert sessionId { session with linkEpoch := session.linkEpoch + 1 }) := by
  simp only [attachLink, hsession]
  rw [if_neg (not_not.mpr hown)]

theorem attachLink_new (r : Registry M) (connectionId fresh : String) :
    r.attachLink connectionId none fresh = (.ok ⟨fresh, connectionId, 0, 1⟩,
      (r.open connectionId fresh).insert fresh { connectionId, linkEpoch := 1 }) := by
  simp [attachLink, «open»]

/-- `link_is_current` (`reliable_session.rs:139`). -/
def linkIsCurrent (r : Registry M) (link : AttachedLink) : Bool :=
  (r link.sessionId).any (·.linkEpoch = link.epoch)

/-- `accept_client_frame` (`reliable_session.rs:178`), up to the release of the lock: an accepted
message is handed to the dispatcher afterwards. -/
def acceptClientFrame (r : Registry M) (sessionId connectionId : String) (sequence : Nat) :
    AcceptClientFrame × Registry M :=
  match r sessionId with
  | none => (.unknownSession, r)
  | some session =>
    if session.connectionId ≠ connectionId then (.wrongConnection, r)
    else if sequence ≤ session.lastClientSequence then (.duplicate, r)
    else if sequence ≠ session.lastClientSequence + 1 then
      (.gap (session.lastClientSequence + 1), r)
    else (.accepted, r.insert sessionId { session with lastClientSequence := sequence })

theorem acceptClientFrame_own {r : Registry M} {connectionId : String} {session : ReliableSession M}
    (hsession : r sessionId = some session) (hown : session.connectionId = connectionId)
    (sequence : Nat) :
    r.acceptClientFrame sessionId connectionId sequence =
      if sequence ≤ session.lastClientSequence then (.duplicate, r)
      else if sequence ≠ session.lastClientSequence + 1 then
        (.gap (session.lastClientSequence + 1), r)
      else (.accepted, r.insert sessionId { session with lastClientSequence := sequence }) := by
  unfold acceptClientFrame
  rw [hsession]
  simp only
  rw [if_neg (not_not.mpr hown)]

/-- The session with one more server message. -/
def enqueued (session : ReliableSession M) (message : M) : ReliableSession M :=
  let frames := session.serverFrames ++ [⟨session.nextServerSequence, message⟩]
  { session with
    nextServerSequence := session.nextServerSequence + 1
    serverFrames := if MAX_SERVER_REPLAY_FRAMES < frames.length then frames.tail else frames }

/-- `enqueue_server_message` (`reliable_session.rs:240`); `none` if there is no such session. -/
def enqueueServerMessage (r : Registry M) (sessionId : String) (message : M) :
    Option (Registry M) :=
  (r sessionId).map fun session => r.insert sessionId (enqueued session message)

/-- `checked_session` (`reliable_session.rs:306`). -/
def checkedSession (r : Registry M) (sessionId : String) (after : Nat) :
    Except PollError (ReliableSession M) :=
  match r sessionId with
  | none => .error .unknownSession
  | some session =>
    if session.nextServerSequence ≤ after then .error .invalidAcknowledgement
    else if session.serverFrames.head?.any (after + 1 < ·.sequence) then .error .replayExpired
    else .ok session

/-- `acknowledge` (`reliable_session.rs:276`). -/
def acknowledge (r : Registry M) (sessionId : String) (through : Nat) :
    Except PollError (Registry M) := do
  let session ← r.checkedSession sessionId through
  return r.insert sessionId { session with
    serverFrames := session.serverFrames.dropWhile (·.sequence ≤ through) }

/-- `frames_after` (`reliable_session.rs:290`).  `poll` is `acknowledge` and then this. -/
def framesAfter (r : Registry M) (sessionId : String) (after : Nat) :
    Except PollError (List (Frame M)) := do
  let session ← r.checkedSession sessionId after
  return session.serverFrames.filter (after < ·.sequence)

end Registry

/-! ## Numbered messages -/

/-- The messages as frames, numbered from `first` on. -/
def number (first : Nat) : List M → List (Frame M)
  | [] => []
  | message :: rest => ⟨first, message⟩ :: number (first + 1) rest

/-- The frame is the one of these messages that its number says. -/
def FrameOf (messages : List M) (frame : Frame M) : Prop :=
  0 < frame.sequence ∧ messages[frame.sequence - 1]? = some frame.message

section Number

variable {messages : List M} {frame : Frame M} {first : Nat}

theorem FrameOf.append (h : FrameOf messages frame) (more : List M) :
    FrameOf (messages ++ more) frame := by
  refine ⟨h.1, ?_⟩
  have hlt := (List.getElem?_eq_some_iff.mp h.2).1
  rw [List.getElem?_append_left hlt]
  exact h.2

theorem FrameOf.last (messages : List M) (message : M) :
    FrameOf (messages ++ [message]) ⟨messages.length + 1, message⟩ := by
  refine ⟨Nat.succ_pos _, ?_⟩
  simp

theorem FrameOf.take_succ (h : FrameOf messages frame) {n : Nat} (hnext : frame.sequence = n + 1) :
    messages.take (n + 1) = messages.take n ++ [frame.message] := by
  have hget := h.2
  rw [hnext, Nat.add_sub_cancel] at hget
  rw [List.take_add_one, hget]
  rfl

theorem number_append (first : Nat) (xs ys : List M) :
    number first (xs ++ ys) = number first xs ++ number (first + xs.length) ys := by
  induction xs generalizing first with
  | nil => rfl
  | cons x xs ih =>
    rw [List.cons_append, number, ih, number, List.cons_append, List.length_cons]
    congr 3
    omega

@[simp] theorem length_number (first : Nat) (messages : List M) :
    (number first messages).length = messages.length := by
  induction messages generalizing first with
  | nil => rfl
  | cons message rest ih => rw [number, List.length_cons, ih, List.length_cons]

theorem mem_number (h : frame ∈ number first messages) :
    first ≤ frame.sequence ∧ messages[frame.sequence - first]? = some frame.message := by
  induction messages generalizing first with
  | nil => cases h
  | cons message rest ih =>
    rcases List.mem_cons.mp h with rfl | hrest
    · simp
    · obtain ⟨hle, hget⟩ := ih hrest
      refine ⟨by omega, ?_⟩
      rw [show frame.sequence - first = frame.sequence - (first + 1) + 1 by omega]
      exact hget

theorem frameOf_of_mem_number {dropped : Nat}
    (h : frame ∈ number (dropped + 1) (messages.drop dropped)) : FrameOf messages frame := by
  obtain ⟨hle, hget⟩ := mem_number h
  refine ⟨by omega, ?_⟩
  rw [List.getElem?_drop] at hget
  rw [show frame.sequence - 1 = dropped + (frame.sequence - (dropped + 1)) by omega]
  exact hget

theorem mem_number_of_getElem? (first : Nat) {index : Nat} {message : M}
    (h : messages[index]? = some message) : ⟨first + index, message⟩ ∈ number first messages := by
  induction messages generalizing first index with
  | nil => simp at h
  | cons head rest ih =>
    cases index with
    | zero =>
      cases h
      exact List.mem_cons_self
    | succ index =>
      rw [number, show first + (index + 1) = first + 1 + index by omega]
      exact List.mem_cons_of_mem _ (ih (first + 1) h)

theorem mem_number_of_frameOf {dropped : Nat} (h : FrameOf messages frame)
    (hkept : dropped < frame.sequence) : frame ∈ number (dropped + 1) (messages.drop dropped) := by
  have hget : (messages.drop dropped)[frame.sequence - (dropped + 1)]? = some frame.message := by
    rw [List.getElem?_drop,
      show dropped + (frame.sequence - (dropped + 1)) = frame.sequence - 1 by omega]
    exact h.2
  have hmem := mem_number_of_getElem? (dropped + 1) hget
  rwa [show dropped + 1 + (frame.sequence - (dropped + 1)) = frame.sequence by omega] at hmem

theorem filter_number (first after : Nat) (messages : List M) :
    (number first messages).filter (after < ·.sequence) =
      number (max first (after + 1)) (messages.drop (after + 1 - first)) := by
  induction messages generalizing first with
  | nil => simp [number]
  | cons message rest ih =>
    rw [number, List.filter_cons, ih]
    by_cases hafter : after < first
    · rw [if_pos (by simpa using hafter), show after + 1 - first = 0 by omega,
        show after + 1 - (first + 1) = 0 by omega, List.drop_zero, List.drop_zero, number,
        Nat.max_eq_left (by omega), Nat.max_eq_left (by omega)]
    · rw [if_neg (by simpa using hafter), show after + 1 - first =
        after + 1 - (first + 1) + 1 by omega,
        List.drop_succ_cons, Nat.max_eq_right (by omega), Nat.max_eq_right (by omega)]

theorem dropWhile_number (first through : Nat) (messages : List M) :
    (number first messages).dropWhile (·.sequence ≤ through) =
      number (max first (through + 1)) (messages.drop (through + 1 - first)) := by
  induction messages generalizing first with
  | nil => simp [number]
  | cons message rest ih =>
    rw [number, List.dropWhile_cons]
    by_cases hthrough : first ≤ through
    · rw [if_pos (by simpa using hthrough), ih,
        show through + 1 - first = through + 1 - (first + 1) + 1 by omega, List.drop_succ_cons,
        Nat.max_eq_right (by omega), Nat.max_eq_right (by omega)]
    · rw [if_neg (by simpa using hthrough), show through + 1 - first = 0 by omega, List.drop_zero,
        number, Nat.max_eq_left (by omega)]

end Number

/-! ## What a session retains -/

/-- The session was sent `history` and retains all of it but the first `dropped` messages. -/
structure Retains (history : List M) (dropped : Nat) (session : ReliableSession M) : Prop where
  next : session.nextServerSequence = history.length + 1
  frames : session.serverFrames = number (dropped + 1) (history.drop dropped)
  dropped_le : dropped ≤ history.length

section Retains

open Registry

variable {history : List M} {dropped : Nat} {session : ReliableSession M} {r : Registry M}
  {sessionId : String}

theorem retains_open (connectionId : String) :
    Retains ([] : List M) 0 { connectionId } := ⟨rfl, rfl, Nat.le_refl 0⟩

theorem retains_enqueue (h : Retains history dropped session) (message : M) :
    Retains (history ++ [message])
      (if history.length - dropped < MAX_SERVER_REPLAY_FRAMES then dropped else dropped + 1)
      (enqueued session message) := by
  have hall : session.serverFrames ++ [⟨session.nextServerSequence, message⟩] =
      number (dropped + 1) ((history ++ [message]).drop dropped) := by
    rw [List.drop_append_of_le_length h.dropped_le, number_append, h.frames, h.next,
      List.length_drop]
    congr 3
    have := h.dropped_le
    omega
  have hlength : (number (dropped + 1) ((history ++ [message]).drop dropped)).length =
      history.length - dropped + 1 := by
    rw [length_number, List.length_drop, List.length_append, List.length_singleton]
    have := h.dropped_le
    omega
  have hle := h.dropped_le
  refine ⟨?_, ?_, ?_⟩
  · simp [enqueued, h.next]
  · simp only [enqueued, hall, hlength]
    by_cases hfull : history.length - dropped < MAX_SERVER_REPLAY_FRAMES
    · rw [if_pos hfull, if_neg (by omega)]
    · rw [if_neg hfull, if_pos (by omega)]
      have hlt : dropped < (history ++ [message]).length := by simp; omega
      rw [List.drop_eq_getElem_cons hlt, number, List.tail_cons]
  · rw [List.length_append, List.length_singleton]
    split <;> omega

variable {after : Nat}

theorem checkedSession_retained (h : Retains history dropped session)
    (hsession : r sessionId = some session) (hafter : after ≤ history.length)
    (hdropped : dropped ≤ after) : r.checkedSession sessionId after = .ok session := by
  have hfront : session.serverFrames.head?.any (after + 1 < ·.sequence) = false := by
    rw [h.frames]
    cases hrest : history.drop dropped with
    | nil => rfl
    | cons message rest => simpa [number] using hdropped
  simp only [checkedSession, hsession, h.next, hfront]
  rw [if_neg (by omega), if_neg (by simp)]

/-- **A cursor before the window is an error**, as long as something is retained. -/
theorem checkedSession_dropped (h : Retains history dropped session)
    (hsession : r sessionId = some session) (hdropped : after < dropped)
    (hretained : dropped < history.length) :
    r.checkedSession sessionId after = .error .replayExpired := by
  have hfront : session.serverFrames.head?.any (after + 1 < ·.sequence) = true := by
    rw [h.frames, List.drop_eq_getElem_cons hretained, number]
    simpa using hdropped
  simp only [checkedSession, hsession, h.next, hfront]
  rw [if_neg (by omega), if_pos trivial]

/-- **A cursor inside the window is answered with every message behind it.** -/
theorem framesAfter_retained (h : Retains history dropped session)
    (hsession : r sessionId = some session) (hafter : after ≤ history.length)
    (hdropped : dropped ≤ after) :
    r.framesAfter sessionId after = .ok (number (after + 1) (history.drop after)) := by
  rw [framesAfter, checkedSession_retained h hsession hafter hdropped]
  show Except.ok _ = _
  rw [h.frames, filter_number, List.drop_drop, Nat.max_eq_right (by omega)]
  congr 3
  omega

theorem frameOf_framesAfter (h : Retains history dropped session)
    (hsession : r sessionId = some session) {frames : List (Frame M)}
    (hframes : r.framesAfter sessionId after = .ok frames) :
    ∀ frame ∈ frames, FrameOf history frame := by
  have hfiltered : frames = session.serverFrames.filter (after < ·.sequence) := by
    unfold framesAfter checkedSession at hframes
    simp only [hsession] at hframes
    split at hframes
    · cases hframes
    · split at hframes
      · cases hframes
      · exact (Except.ok.inj hframes).symm
  intro frame hframe
  rw [hfiltered, h.frames] at hframe
  exact frameOf_of_mem_number (List.mem_of_mem_filter hframe)

theorem retains_acknowledge (h : Retains history dropped session)
    (hsession : r sessionId = some session) {through : Nat} {r' : Registry M}
    (hacknowledged : r.acknowledge sessionId through = .ok r') :
    ∃ session', r' = r.insert sessionId session' ∧
      Retains history (max dropped (min through history.length)) session' ∧
      session'.connectionId = session.connectionId ∧
      session'.lastClientSequence = session.lastClientSequence := by
  unfold acknowledge checkedSession at hacknowledged
  simp only [hsession] at hacknowledged
  split at hacknowledged
  · cases hacknowledged
  · rename_i hnext
    split at hacknowledged
    · cases hacknowledged
    · refine ⟨_, (Except.ok.inj hacknowledged).symm, ⟨h.next, ?_, ?_⟩, rfl, rfl⟩
      · have hthrough : through ≤ history.length := by
          rw [h.next] at hnext
          omega
        show session.serverFrames.dropWhile _ = _
        rw [h.frames, dropWhile_number, List.drop_drop, Nat.min_eq_left hthrough]
        congr 1
        · omega
        · congr 1
          omega
      · have := h.dropped_le
        omega

end Retains

end OpenAide.Session
