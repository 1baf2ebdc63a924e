import OpenAide.Session.Registry

/-!
# The client channel

The client half of a resumable session (`reliableSessionChannel.ts`): it numbers the messages it is
asked to send and keeps them until the server has them, takes the server's messages in their order,
and replaces a lost link.  The channel runs on one thread; every function here is one turn of it,
and returns what it asks of its links.

The fields behind `attempts` record what has passed: the messages the channel accepted to send,
those it passed to its listeners, and the errors it reported.

A `Turn` keeps the numbering and asks only for what the channel may ask: frames of the messages
sent, and cursors it has reached.
-/

namespace OpenAide.Session

variable {M : Type}

/-- `TransportLinkCloseKind` (`transportLink.ts`). -/
inductive CloseKind where
  | interrupted | sessionExpired | replayExpired | receiveStalled | rejected
  deriving DecidableEq

/-- `TransportLinkResume`: the session to resume and the cursor into its server messages. -/
structure Resume where
  sessionId : String
  receivedThrough : Nat
  deriving DecidableEq

/-- What the channel asks of its links, each known by its open attempt. -/
inductive Command (M : Type) where
  | openLink (attempt : Nat) (resume : Option Resume)
  | send (attempt : Nat) (frame : Frame M)
  | acknowledge (attempt : Nat) (through : Nat)
  | closeLink (attempt : Nat)
  /-- Every link the channel has opened or is opening. -/
  | abort

structure Channel (M : Type) where
  unacknowledged : List (Frame M) := []
  nextClientSequence : Nat := 1
  receivedThrough : Nat := 0
  /-- The attempt the installed link came from. -/
  link : Option Nat := none
  /-- The attempt whose events are still authoritative. -/
  currentAttempt : Option Nat := none
  session : Option String := none
  resuming : Bool := false
  /-- `resume` waits before its next attempt. -/
  waiting : Bool := false
  closed : Bool := false
  terminalError : Option CloseKind := none
  /-- The frame whose message the listeners are handling. -/
  applying : Option Nat := none
  attempts : Nat := 0
  sent : List M := []
  delivered : List M := []
  errors : List CloseKind := []

namespace Channel

def ended (c : Channel M) : Bool := c.closed || c.terminalError.isSome

def dropLink (c : Channel M) : Channel M × List (Command M) :=
  ({ c with link := none, currentAttempt := none }, c.link.toList.map .closeLink)

/-- `fail` (`reliableSessionChannel.ts:281`): the error listeners are told. -/
def fail (c : Channel M) (kind : CloseKind) : Channel M × List (Command M) :=
  if c.ended then (c, [])
  else
    let (c, commands) := dropLink { c with terminalError := some kind }
    ({ c with errors := c.errors ++ [kind] }, commands ++ [.abort])

/-- `open` (`reliableSessionChannel.ts:119`), up to its first `await`. -/
def «open» (c : Channel M) (resume : Option Resume) : Channel M × List (Command M) :=
  ({ c with currentAttempt := some c.attempts, attempts := c.attempts + 1 },
    [.openLink c.attempts resume])

/-- The head of the loop in `resume`. -/
def resumeLoop (c : Channel M) : Channel M × List (Command M) :=
  match c.session with
  | some sessionId =>
    if !c.ended && c.link.isNone then
      «open» { c with waiting := false } (some ⟨sessionId, c.receivedThrough⟩)
    else ({ c with resuming := false, waiting := false }, [])
  | none => ({ c with resuming := false, waiting := false }, [])

/-- `resume` (`reliableSessionChannel.ts:219`). -/
def resume (c : Channel M) : Channel M × List (Command M) :=
  if c.resuming then (c, []) else resumeLoop { c with resuming := true }

/-- `linkClosed` (`reliableSessionChannel.ts:200`). -/
def linkClosed (c : Channel M) (kind : CloseKind) : Channel M × List (Command M) :=
  let (c, dropped) := c.dropLink
  if c.ended then (c, dropped)
  else if kind ≠ .interrupted ∨ c.session = none then
    let (c, commands) := c.fail kind
    (c, dropped ++ commands)
  else
    let (c, commands) := c.resume
    (c, dropped ++ commands)

/-- `acknowledge` (`reliableSessionChannel.ts:196`). -/
def acknowledge (c : Channel M) (through : Nat) : Channel M :=
  { c with unacknowledged := c.unacknowledged.dropWhile (·.sequence ≤ through) }

/-- `receive` (`reliableSessionChannel.ts:178`), up to the return of the listeners. -/
def receive (c : Channel M) (frame : Frame M) : Channel M × List (Command M) :=
  if frame.sequence ≤ c.receivedThrough then (c, [])
  else if frame.sequence ≠ c.receivedThrough + 1 then c.linkClosed .interrupted
  else ({ c with delivered := c.delivered ++ [frame.message], applying := some frame.sequence }, [])

/-- The rest of `receive`; a listener that throws ends it before the cursor moves. -/
def applied (c : Channel M) (threw : Bool) : Channel M × List (Command M) :=
  match c.applying with
  | none => (c, [])
  | some sequence =>
    if threw then ({ c with applying := none }, [])
    else
      ({ c with applying := none, receivedThrough := sequence },
        c.link.toList.map (.acknowledge · sequence))

/-- `send`; `none` if it throws. -/
def send (c : Channel M) (message : M) : Option (Channel M × List (Command M)) :=
  if c.ended then none
  else
    let frame : Frame M := ⟨c.nextClientSequence, message⟩
    some ({ c with
      nextClientSequence := c.nextClientSequence + 1
      unacknowledged := c.unacknowledged ++ [frame]
      sent := c.sent ++ [message] }, c.link.toList.map (.send · frame))

def close (c : Channel M) : Channel M × List (Command M) :=
  if c.closed then (c, [])
  else
    let (c, commands) := dropLink { c with closed := true }
    (c, commands ++ [.abort])

/-- An open attempt that failed: the first one ends the channel, one of `resume` is tried again if
the link was merely lost. -/
def openFailed (c : Channel M) (attempt : Nat) (resume : Option Resume) (kind : CloseKind) :
    Channel M × List (Command M) :=
  let c := if c.currentAttempt = some attempt then { c with currentAttempt := none } else c
  match resume with
  | none => c.fail kind
  | some _ =>
    if c.ended then ({ c with resuming := false }, [])
    else if kind ≠ .interrupted then
      let (c, commands) := c.fail kind
      ({ c with resuming := false }, commands)
    else ({ c with waiting := true }, [])

/-- The rest of `open`, once the link is there: what the peer has is dropped, the rest is resent.  A
link lost in the middle of that loses the rest. -/
def opened (c : Channel M) (attempt : Nat) (resume : Option Resume) (sessionId : String)
    (peerReceivedThrough : Nat) : Channel M × List (Command M) :=
  if c.ended ∨ c.currentAttempt ≠ some attempt then
    let (c, commands) := c.openFailed attempt resume .interrupted
    (c, .closeLink attempt :: commands)
  else
    let c := { c with link := some attempt, session := some sessionId }.acknowledge
      peerReceivedThrough
    let settled : List (Command M) :=
      if (resume.map (·.receivedThrough)).getD 0 < c.receivedThrough then
        [.acknowledge attempt c.receivedThrough]
      else []
    let resent := c.unacknowledged.map (Command.send attempt)
    match resume with
    | none => (c, settled ++ resent)
    | some _ =>
      let (c, commands) := c.resumeLoop
      (c, settled ++ resent ++ commands)

end Channel

/-! ## Turns -/

/-- The numbering of a channel. -/
structure Numbered (c : Channel M) : Prop where
  next : c.nextClientSequence = c.sent.length + 1
  unacknowledged : ∀ frame ∈ c.unacknowledged, FrameOf c.sent frame
  applying : ∀ sequence, c.applying = some sequence → sequence = c.receivedThrough + 1
  fresh : c.session = none → c.receivedThrough = 0 ∧ c.applying = none

/-- A command other than to open a link, as the channel gives it: frames of the messages sent, and
cursors it has reached. -/
def Command.Quiet (c : Channel M) : Command M → Prop
  | .openLink _ _ => False
  | .send _ frame => FrameOf c.sent frame
  | .acknowledge _ through => through ≤ c.receivedThrough
  | .closeLink _ => True
  | .abort => True

/-- What the commands of a turn may be: quiet ones, and then a new link to the same session. -/
def Opens (c c' : Channel M) (commands : List (Command M)) : Prop :=
  ∃ quiet opening, commands = quiet ++ opening ∧ (∀ command ∈ quiet, command.Quiet c') ∧
    (opening = [] ∧ c'.attempts = c.attempts ∨
      ∃ resume, opening = [.openLink c.attempts resume] ∧ c'.attempts = c.attempts + 1 ∧
        (∀ r, resume = some r → c'.session = some r.sessionId ∧
          r.receivedThrough ≤ c'.receivedThrough) ∧
        (resume = none → c.attempts = 0))

/-- **A turn of the channel** that passes no message to the listeners: it keeps the numbering, the
session and the cursor, and asks only for what it may ask. -/
structure Turn (c c' : Channel M) (commands : List (Command M)) : Prop where
  numbered : Numbered c → Numbered c'
  sent : c.sent <+: c'.sent
  received : c'.receivedThrough = c.receivedThrough
  applying : c'.applying = c.applying
  delivered : c'.delivered = c.delivered
  session : c'.session = c.session
  opens : Opens c c' commands

section Turns

variable {c c' : Channel M} {commands : List (Command M)}

/-- Two channels that differ only in the state of their link. -/
structure Channel.Alike (c c' : Channel M) : Prop where
  unacknowledged : c'.unacknowledged = c.unacknowledged
  next : c'.nextClientSequence = c.nextClientSequence
  received : c'.receivedThrough = c.receivedThrough
  session : c'.session = c.session
  applying : c'.applying = c.applying
  attempts : c'.attempts = c.attempts
  sent : c'.sent = c.sent
  delivered : c'.delivered = c.delivered

theorem Channel.Alike.numbered (h : c.Alike c') (hnumbered : Numbered c) : Numbered c' := by
  refine ⟨?_, ?_, ?_, ?_⟩
  · rw [h.next, h.sent]
    exact hnumbered.next
  · rw [h.unacknowledged, h.sent]
    exact hnumbered.unacknowledged
  · rw [h.applying, h.received]
    exact hnumbered.applying
  · rw [h.session, h.received, h.applying]
    exact hnumbered.fresh

theorem Channel.Alike.turn (h : c.Alike c') (hquiet : ∀ command ∈ commands, command.Quiet c') :
    Turn c c' commands where
  numbered := h.numbered
  sent := h.sent ▸ List.prefix_rfl
  received := h.received
  applying := h.applying
  delivered := h.delivered
  session := h.session
  opens := ⟨commands, [], (List.append_nil _).symm, hquiet, .inl ⟨rfl, h.attempts⟩⟩

theorem Turn.refl (c : Channel M) : Turn c c [] :=
  Channel.Alike.turn ⟨rfl, rfl, rfl, rfl, rfl, rfl, rfl, rfl⟩ fun _ h => nomatch h

theorem Turn.after {c₁ : Channel M} (h : Turn c₁ c' commands) (halike : c.Alike c₁)
    (before : List (Command M)) (hclosing : ∀ command ∈ before, ∃ attempt,
      command = .closeLink attempt) : Turn c c' (before ++ commands) where
  numbered hnumbered := h.numbered (halike.numbered hnumbered)
  sent := halike.sent ▸ h.sent
  received := h.received.trans halike.received
  applying := h.applying.trans halike.applying
  delivered := h.delivered.trans halike.delivered
  session := h.session.trans halike.session
  opens := by
    obtain ⟨quiet, opening, rfl, hquiet, hopening⟩ := h.opens
    refine ⟨before ++ quiet, opening, (List.append_assoc ..).symm, ?_, ?_⟩
    · intro command hmem
      rcases List.mem_append.mp hmem with hbefore | hmem
      · obtain ⟨attempt, rfl⟩ := hclosing command hbefore
        trivial
      · exact hquiet command hmem
    · rw [← halike.attempts]
      exact hopening

theorem Turn.of_alike {c₁ : Channel M} (h : Turn c₁ c' commands) (halike : c.Alike c₁) :
    Turn c c' commands :=
  h.after halike [] fun _ hmem => nomatch hmem

theorem closing_map (links : List Nat) : ∀ command ∈ links.map (Command.closeLink (M := M)),
    ∃ attempt, command = .closeLink attempt := by
  intro command hmem
  obtain ⟨attempt, -, rfl⟩ := List.mem_map.mp hmem
  exact ⟨attempt, rfl⟩

theorem quiet_closing {before : List (Command M)} (hclosing : ∀ command ∈ before, ∃ attempt,
    command = .closeLink attempt) : ∀ command ∈ before ++ [.abort], command.Quiet c := by
  intro command hmem
  rcases List.mem_append.mp hmem with hmem | hmem
  · obtain ⟨attempt, rfl⟩ := hclosing command hmem
    trivial
  · rw [List.mem_singleton.mp hmem]
    trivial

theorem turn_fail (c : Channel M) (kind : CloseKind) : Turn c (c.fail kind).1 (c.fail kind).2 := by
  unfold Channel.fail
  split
  · exact .refl c
  · exact Channel.Alike.turn ⟨rfl, rfl, rfl, rfl, rfl, rfl, rfl, rfl⟩
      (quiet_closing (closing_map _))

theorem turn_open (c : Channel M) {resume : Option Resume}
    (hsession : ∀ r, resume = some r → c.session = some r.sessionId ∧
      r.receivedThrough ≤ c.receivedThrough) (hfirst : resume = none → c.attempts = 0) :
    Turn c (c.open resume).1 (c.open resume).2 where
  numbered h := ⟨h.next, h.unacknowledged, h.applying, h.fresh⟩
  sent := List.prefix_rfl
  received := rfl
  applying := rfl
  delivered := rfl
  session := rfl
  opens := ⟨[], _, rfl, nofun, .inr ⟨resume, rfl, rfl, hsession, hfirst⟩⟩

theorem turn_resumeLoop (c : Channel M) : Turn c c.resumeLoop.1 c.resumeLoop.2 := by
  unfold Channel.resumeLoop
  have hstop : Turn c { c with resuming := false, waiting := false } [] :=
    Channel.Alike.turn ⟨rfl, rfl, rfl, rfl, rfl, rfl, rfl, rfl⟩ fun _ h => nomatch h
  split
  · rename_i sessionId hsession
    split
    · refine Turn.of_alike (turn_open { c with waiting := false } ?_ (by simp))
        ⟨rfl, rfl, rfl, rfl, rfl, rfl, rfl, rfl⟩
      rintro _ ⟨⟩
      exact ⟨hsession, Nat.le_refl _⟩
    · exact hstop
  · exact hstop

theorem turn_resume (c : Channel M) : Turn c c.resume.1 c.resume.2 := by
  unfold Channel.resume
  split
  · exact .refl c
  · exact Turn.of_alike (turn_resumeLoop { c with resuming := true })
      ⟨rfl, rfl, rfl, rfl, rfl, rfl, rfl, rfl⟩

theorem alike_dropLink (c : Channel M) : c.Alike c.dropLink.1 :=
  ⟨rfl, rfl, rfl, rfl, rfl, rfl, rfl, rfl⟩

theorem turn_linkClosed (c : Channel M) (kind : CloseKind) :
    Turn c (c.linkClosed kind).1 (c.linkClosed kind).2 := by
  unfold Channel.linkClosed
  simp only
  split
  · refine (alike_dropLink c).turn fun command hmem => ?_
    obtain ⟨attempt, rfl⟩ := closing_map _ command hmem
    trivial
  · split
    · exact (turn_fail _ kind).after (alike_dropLink c) _ (closing_map _)
    · exact (turn_resume _).after (alike_dropLink c) _ (closing_map _)

theorem turn_close (c : Channel M) : Turn c c.close.1 c.close.2 := by
  unfold Channel.close
  split
  · exact .refl c
  · exact Channel.Alike.turn ⟨rfl, rfl, rfl, rfl, rfl, rfl, rfl, rfl⟩
      (quiet_closing (closing_map _))

theorem turn_openFailed (c : Channel M) (attempt : Nat) (resume : Option Resume)
    (kind : CloseKind) :
    Turn c (c.openFailed attempt resume kind).1 (c.openFailed attempt resume kind).2 := by
  unfold Channel.openFailed
  have halike : c.Alike (if c.currentAttempt = some attempt then { c with currentAttempt := none }
      else c) := by
    split <;> exact ⟨rfl, rfl, rfl, rfl, rfl, rfl, rfl, rfl⟩
  set c₁ := if c.currentAttempt = some attempt then { c with currentAttempt := none } else c
  refine Turn.of_alike ?_ halike
  cases resume with
  | none => exact turn_fail c₁ kind
  | some r =>
    simp only
    split
    · exact Channel.Alike.turn ⟨rfl, rfl, rfl, rfl, rfl, rfl, rfl, rfl⟩ fun _ h => nomatch h
    · split
      · obtain ⟨hnumbered, hsent, hreceived, happlying, hdelivered, hsession, hopens⟩ :=
          turn_fail c₁ kind
        refine ⟨fun h => ?_, hsent, hreceived, happlying, hdelivered, hsession, hopens⟩
        obtain ⟨hnext, hunacknowledged, happlying, hfresh⟩ := hnumbered h
        exact ⟨hnext, hunacknowledged, happlying, hfresh⟩
      · exact Channel.Alike.turn ⟨rfl, rfl, rfl, rfl, rfl, rfl, rfl, rfl⟩ fun _ h => nomatch h

theorem turn_opened {c : Channel M} (hnumbered : Numbered c) {attempt : Nat}
    (resume : Option Resume) (sessionId : String) (peerReceivedThrough : Nat)
    (hcurrent : ¬ (c.ended ∨ c.currentAttempt ≠ some attempt)) :
    Turn { c with session := some sessionId }
      (c.opened attempt resume sessionId peerReceivedThrough).1
      (c.opened attempt resume sessionId peerReceivedThrough).2 := by
  unfold Channel.opened
  rw [if_neg hcurrent]
  set c₂ := { c with link := some attempt, session := some sessionId }.acknowledge
    peerReceivedThrough
  have hunacknowledged : ∀ frame ∈ c₂.unacknowledged, FrameOf c.sent frame := fun frame hframe =>
    hnumbered.unacknowledged frame ((List.dropWhile_sublist _).subset hframe)
  have hturn : ∀ commands : List (Command M), (∀ command ∈ commands, command.Quiet c₂) →
      Turn { c with session := some sessionId } c₂ commands := fun commands hquiet =>
    ⟨fun _ => ⟨hnumbered.next, hunacknowledged, hnumbered.applying, nofun⟩,
      List.prefix_rfl, rfl, rfl, rfl, rfl, commands, [], (List.append_nil _).symm, hquiet,
      .inl ⟨rfl, rfl⟩⟩
  have hquiet : ∀ command ∈ (if (resume.map (·.receivedThrough)).getD 0 < c₂.receivedThrough then
      [.acknowledge attempt c₂.receivedThrough] else []) ++
        c₂.unacknowledged.map (Command.send attempt), command.Quiet c₂ := by
    intro command hmem
    rcases List.mem_append.mp hmem with hmem | hmem
    · split at hmem
      · rw [List.mem_singleton.mp hmem]
        exact Nat.le_refl _
      · cases hmem
    · obtain ⟨frame, hframe, rfl⟩ := List.mem_map.mp hmem
      exact hunacknowledged frame hframe
  cases resume with
  | none => exact hturn _ hquiet
  | some r =>
    have hloop : c₂.resumeLoop = ({ c₂ with resuming := false, waiting := false }, []) := by
      unfold Channel.resumeLoop
      rw [show c₂.session = some sessionId from rfl]
      simp only
      rw [if_neg]
      simp [show c₂.link = some attempt from rfl]
    simp only [hloop, List.append_nil]
    obtain ⟨hnumbered', hsent, hreceived, happlying, hdelivered, hsession, hopens⟩ :=
      hturn _ hquiet
    refine ⟨fun h => ?_, hsent, hreceived, happlying, hdelivered, hsession, hopens⟩
    obtain ⟨hnext, hunacknowledged, happlying, hfresh⟩ := hnumbered' h
    exact ⟨hnext, hunacknowledged, happlying, hfresh⟩

theorem receive_cases (c : Channel M) (frame : Frame M) :
    Turn c (c.receive frame).1 (c.receive frame).2 ∨
      frame.sequence = c.receivedThrough + 1 ∧ c.receive frame =
        ({ c with delivered := c.delivered ++ [frame.message], applying := some frame.sequence },
          []) := by
  unfold Channel.receive
  split
  · exact .inl (.refl c)
  · split
    · exact .inl (turn_linkClosed c .interrupted)
    · rename_i hnext
      exact .inr ⟨not_not.mp hnext, rfl⟩

theorem applied_cases (c : Channel M) (threw : Bool) :
    c.applying = none ∧ c.applied threw = (c, []) ∨
      threw = true ∧ c.applying.isSome ∧ c.applied threw = ({ c with applying := none }, []) ∨
      ∃ sequence, threw = false ∧ c.applying = some sequence ∧ c.applied threw =
        ({ c with applying := none, receivedThrough := sequence },
          c.link.toList.map (.acknowledge · sequence)) := by
  unfold Channel.applied
  cases happlying : c.applying with
  | none => exact .inl ⟨rfl, rfl⟩
  | some sequence =>
    cases threw with
    | true => exact .inr (.inl ⟨rfl, rfl, rfl⟩)
    | false => exact .inr (.inr ⟨sequence, rfl, rfl, rfl⟩)

theorem turn_send {c : Channel M} {message : M} {result : Channel M × List (Command M)}
    (hnumbered : Numbered c) (h : c.send message = some result) : Turn c result.1 result.2 := by
  unfold Channel.send at h
  split at h
  · cases h
  · cases h
    have hlast : FrameOf (c.sent ++ [message]) ⟨c.nextClientSequence, message⟩ := by
      rw [hnumbered.next]
      exact .last c.sent message
    refine ⟨fun _ => ⟨?_, ?_, hnumbered.applying, hnumbered.fresh⟩, List.prefix_append .., rfl, rfl,
      rfl, rfl, _, [], (List.append_nil _).symm, fun command hmem => ?_, .inl ⟨rfl, rfl⟩⟩
    · show c.nextClientSequence + 1 = (c.sent ++ [message]).length + 1
      rw [hnumbered.next, List.length_append, List.length_singleton]
    · intro frame hframe
      rcases List.mem_append.mp hframe with hframe | hframe
      · exact (hnumbered.unacknowledged frame hframe).append _
      · rw [List.mem_singleton.mp hframe]
        exact hlast
    · obtain ⟨attempt, -, rfl⟩ := List.mem_map.mp hmem
      exact hlast

end Turns

end OpenAide.Session
