import OpenAide.Session.Consistent

/-!
# What a session delivers

What the two ends of a session get of each other's messages, over every run: the client's messages
in the order the dispatcher is given them, and the server's messages in the order the listeners get
them.

* `dispatched_in_order`: **the dispatcher is given the first messages sent, in order**, as long as
  no frame is accepted while another waits to be handed on;
* `overtaken_frame`: without that the second message may be given first;
* `delivered_in_order`: **the listeners get the first messages enqueued, in order**, as long as none
  of them throws, and the client is told when a message it lacks is no longer retained;
* `message_passed_again`: a listener that throws gets its message again.
-/

namespace OpenAide.Session

open World

variable {M : Type}

/-! ## Runs of an event list -/

/-- The events one after another, each of them allowed and possible. -/
def World.run (cfg : Config M) (allowed : World M → Event M → Bool) :
    World M → List (Event M) → Option (World M)
  | w, [] => some w
  | w, event :: rest =>
    if allowed w event then (w.step cfg event).bind (run cfg allowed · rest) else none

variable {w : World M}

theorem reachable_run {cfg : Config M} {allowed : World M → Event M → Bool} {w' : World M}
    {events : List (Event M)} (h : Reachable cfg (fun w event => allowed w event) w)
    (hrun : w.run cfg allowed events = some w') :
    Reachable cfg (fun w event => allowed w event) w' := by
  induction events generalizing w with
  | nil =>
    cases hrun
    exact h
  | cons event rest ih =>
    rw [run] at hrun
    split at hrun
    · rename_i hallowed
      obtain ⟨w₁, hstep, hrun⟩ := Option.bind_eq_some_iff.mp hrun
      exact ih (.step event h hallowed hstep) hrun
    · cases hrun

variable {attempt : Nat}

/-! ## The client's messages -/

/-- **No frame is accepted while another waits to be handed on**: a frame that is the next of its
session arrives only when every frame accepted before has been handed on. -/
def World.unhurried (w : World M) : Event M → Bool
  | .deliver index _ =>
    match w.wire[index]? with
    | some (.upload _ sessionId frame) => w.threads.isEmpty ||
        !(w.registry sessionId).any (frame.sequence = ·.lastClientSequence + 1)
    | _ => true
  | _ => true

/-- What is accepted has been handed on, but for the frame that waits. -/
structure Handed (w : World M) : Prop where
  accepted : w.dispatched ++ w.threads.map (·.frame.message) = w.accepted
  single : w.threads.length ≤ 1

variable {w' : World M}

theorem Handed.same {w : World M} (h : Handed w) (hthreads : w'.threads = w.threads)
    (haccepted : w'.accepted = w.accepted) (hdispatched : w'.dispatched = w.dispatched) :
    Handed w' := by
  refine ⟨?_, ?_⟩
  · rw [hdispatched, hthreads, haccepted]
    exact h.accepted
  · rw [hthreads]
    exact h.single

theorem handed_step {event : Event M} (h : Handed w) (heffect : Effect w event w')
    (hunhurried : w.unhurried event) : Handed w' := by
  cases heffect with
  | quiet same idle => exact h.same same.threads same.accepted same.dispatched
  | accept thread arrived found next threads accepted dispatched enqueued idle =>
    have hempty : w.threads = [] := by
      simpa [unhurried, arrived, found, next] using hunhurried
    refine ⟨?_, ?_⟩
    · rw [dispatched, threads, accepted, ← h.accepted, hempty]
      simp
    · rw [threads, hempty]
      exact Nat.le_refl 1
  | @hand index ok _ thread waiting threads accepted dispatched enqueued idle =>
    obtain ⟨hindex, hthreads⟩ : index = 0 ∧ w.threads = [thread] := by
      have hsingle := h.single
      have hlt := (List.getElem?_eq_some_iff.mp waiting).1
      obtain ⟨first, hfirst⟩ := List.length_eq_one_iff.mp (show w.threads.length = 1 by omega)
      obtain rfl : index = 0 := by omega
      rw [hfirst] at waiting
      cases waiting
      exact ⟨rfl, hfirst⟩
    subst hindex
    refine ⟨?_, ?_⟩
    · rw [dispatched, threads, accepted, ← h.accepted, hthreads]
      simp
    · rw [threads, hthreads]
      exact Nat.zero_le 1
  | enqueue threads accepted dispatched enqueued idle => exact h.same threads accepted dispatched
  | pass same session enqueued idle next channel =>
    exact h.same same.threads same.accepted same.dispatched
  | apply same handled channel => exact h.same same.threads same.accepted same.dispatched

theorem handed_reachable {cfg : Config M}
    (h : Reachable cfg (fun w event => w.unhurried event) w) : Handed w := by
  induction h with
  | start => exact ⟨rfl, Nat.zero_le 1⟩
  | step event hreach hallowed hstep ih =>
    exact handed_step ih ((sound_step (consistent_reachable hreach) hstep).effect) hallowed

/-- **The client's messages, once each and in order**: in every run in which no frame is accepted
while another waits to be handed on, the messages given to the dispatcher are the first ones the
channel was asked to send. -/
theorem dispatched_in_order {cfg : Config M} {w : World M}
    (h : Reachable cfg (fun w event => w.unhurried event) w) : w.dispatched <+: w.channel.sent := by
  have hhanded : w.dispatched <+: w.accepted := ⟨_, (handed_reachable h).accepted⟩
  exact hhanded.trans (consistent_reachable h).accepted

/-- A client on WebSockets whose messages are numbers. -/
def socketClient : Config Nat := ⟨"client", .webSocket, fun _ => false⟩

/-- The first link opens to the session "s". -/
def greeting : List (Event Nat) := [.start, .deliver 0 "s", .bind 0, .deliver 1 "-"]

/-- Both messages go the whole way. -/
def twoMessages : List (Event Nat) :=
  greeting ++ [.send 1, .deliver 2 "-", .handOff 0 true, .send 2, .deliver 4 "-", .handOff 0 true]

theorem dispatched_in_order_two :
    ∃ w, run socketClient unhurried {} twoMessages = some w ∧ w.dispatched = [1, 2] ∧
      w.dispatched <+: w.channel.sent := by
  have hrun : (run socketClient unhurried {} twoMessages).any
      (·.dispatched = [1, 2]) := by
    decide +kernel
  obtain ⟨w, hrun, hdispatched⟩ := (Option.any_eq_true ..).mp hrun
  exact ⟨w, hrun, of_decide_eq_true hdispatched,
    dispatched_in_order (reachable_run .start hrun)⟩

/-- A frame is accepted, its link is lost before the frame is handed on, and the next frame comes by
the link that resumes: the second message is handed on first. -/
theorem overtaken_frame :
    (run socketClient (fun _ _ => true) {} (greeting ++
        [.send 1, .deliver 2 "-", .lose 0, .deliver 4 "-", .bind 1, .deliver 5 "-",
          .send 2, .deliver 6 "-", .handOff 1 true, .handOff 0 true])).any
      (fun w => w.channel.sent = [1, 2] ∧ w.dispatched = [2, 1]) := by
  decide +kernel

/-! ## The server's messages -/

/-- No listener throws. -/
def Event.calm : Event M → Bool
  | .applied threw => !threw
  | _ => true

/-- The listeners have been passed the first messages of the session, up to the cursor and, while
they handle it, the next one. -/
structure Passed (w : World M) : Prop where
  unopened : w.channel.session = none → w.channel.delivered = []
  first : ∀ sessionId, w.channel.session = some sessionId →
    w.channel.delivered <+: w.enqueued sessionId ∧
      w.channel.delivered.length =
        w.channel.receivedThrough + if w.channel.applying.isSome then 1 else 0

theorem Passed.idle {w : World M} (h : Passed w) (hnumbered : Numbered w.channel)
    (hidle : w.channel.Idle w'.channel)
    (henqueued : ∀ sessionId, w.enqueued sessionId <+: w'.enqueued sessionId) : Passed w' := by
  refine ⟨fun hnone => ?_, fun sessionId hsome => ?_⟩
  · rw [hidle.delivered]
    refine h.unopened ?_
    rcases hidle.session with hsession | hsession
    · exact hsession ▸ hnone
    · exact hsession
  · rw [hidle.delivered, hidle.received, hidle.applying]
    rcases hidle.session with hsession | hsession
    · obtain ⟨hinitial, hlength⟩ := h.first sessionId (hsession ▸ hsome)
      exact ⟨hinitial.trans (henqueued sessionId), hlength⟩
    · obtain ⟨hreceived, happlying⟩ := hnumbered.fresh hsession
      rw [h.unopened hsession, hreceived, happlying]
      exact ⟨List.nil_prefix, rfl⟩

theorem passed_step {event : Event M} (h : Passed w) (hnumbered : Numbered w.channel)
    (heffect : Effect w event w') (hcalm : event.calm) : Passed w' := by
  cases heffect with
  | quiet same idle => exact h.idle hnumbered idle fun _ => same.enqueued ▸ List.prefix_rfl
  | accept thread arrived found next threads accepted dispatched enqueued idle =>
    exact h.idle hnumbered idle fun _ => enqueued ▸ List.prefix_rfl
  | hand thread waiting threads accepted dispatched enqueued idle =>
    exact h.idle hnumbered idle fun _ => enqueued ▸ List.prefix_rfl
  | @enqueue sessionId message _ threads accepted dispatched enqueued idle =>
    refine h.idle hnumbered idle fun other => ?_
    rw [enqueued, Function.update_apply]
    split
    · rename_i heq
      exact heq ▸ List.prefix_append ..
    · exact List.prefix_rfl
  | @pass _ _ sessionId frame same session enqueued idle next channel =>
    refine ⟨fun hnone => ?_, fun other hsome => ?_⟩
    · rw [channel] at hnone
      cases session.symm.trans hnone
    · rw [channel] at hsome
      cases session.symm.trans hsome
      obtain ⟨hinitial, hlength⟩ := h.first sessionId session
      rw [idle] at hlength
      have htake := enqueued.take_succ next
      rw [← show w.channel.delivered.length = w.channel.receivedThrough from hlength,
        ← List.prefix_iff_eq_take.mp hinitial] at htake
      rw [same.enqueued, channel]
      refine ⟨htake ▸ List.take_prefix .., ?_⟩
      show (w.channel.delivered ++ [frame.message]).length = w.channel.receivedThrough + 1
      rw [List.length_append, List.length_singleton, hlength]
      rfl
  | @apply threw sequence _ same handled channel =>
    obtain rfl : threw = false := by simpa [Event.calm] using hcalm
    have hnext := hnumbered.applying sequence handled
    refine ⟨fun hnone => ?_, fun other hsome => ?_⟩
    · rw [channel] at hnone ⊢
      exact h.unopened hnone
    · rw [channel] at hsome ⊢
      rw [same.enqueued]
      obtain ⟨hinitial, hlength⟩ := h.first other hsome
      refine ⟨hinitial, ?_⟩
      show w.channel.delivered.length = sequence + 0
      rw [hlength, handled, hnext]
      rfl

theorem passed_reachable {cfg : Config M}
    (h : Reachable cfg (fun _ event => event.calm) w) : Passed w := by
  induction h with
  | start => exact ⟨fun _ => rfl, nofun⟩
  | step event hreach hallowed hstep ih =>
    have hconsistent := consistent_reachable hreach
    exact passed_step ih hconsistent.numbered ((sound_step hconsistent hstep).effect) hallowed

/-- A message the client has not come to is no longer retained. -/
def World.Lacks (w : World M) (sessionId : String) : Prop :=
  ∃ session, w.registry sessionId = some session ∧ ∃ frame, FrameOf (w.enqueued sessionId) frame ∧
    w.channel.receivedThrough < frame.sequence ∧ frame ∉ session.serverFrames

/-- The server answers a cursor with the error that it cannot go on from there, and does nothing
else: to an acknowledgement, to the cursor of a greeting or of a poll, and to a replay. -/
def World.RefusesReplay (w : World M) (attempt : Nat) (sessionId : String) (after : Nat) : Prop :=
  (∀ andThen, w.acknowledge attempt sessionId after andThen =
      w.put (.refused attempt .replayExpired)) ∧
    w.replay attempt sessionId after = w.put (.refused attempt .replayExpired)

section Lacking

variable {cfg : Config M} {w : World M} {sessionId : String}

theorem lacks_iff {session : ReliableSession M} {dropped : Nat}
    (hfound : w.registry sessionId = some session)
    (hretains : Retains (w.enqueued sessionId) dropped session) :
    w.Lacks sessionId ↔ w.channel.receivedThrough < dropped := by
  have hle := hretains.dropped_le
  constructor
  · rintro ⟨found, hfound', frame, hframe, hbehind, hmissing⟩
    cases hfound.symm.trans hfound'
    by_contra hkept
    refine hmissing ?_
    rw [hretains.frames]
    exact mem_number_of_frameOf hframe (by omega)
  · intro hdropped
    have hlt : w.channel.receivedThrough < (w.enqueued sessionId).length := by omega
    refine ⟨session, hfound,
      ⟨w.channel.receivedThrough + 1, (w.enqueued sessionId).get ⟨_, hlt⟩⟩, ⟨Nat.succ_pos _, ?_⟩,
      Nat.lt_succ_self _, fun hmem => ?_⟩
    · simp [List.getElem?_eq_getElem hlt]
    · rw [hretains.frames] at hmem
      have hfirst := (mem_number hmem).1
      simp only at hfirst
      omega

theorem refusesReplay_of_checked {after : Nat}
    (h : w.registry.checkedSession sessionId after = .error .replayExpired) (attempt : Nat) :
    w.RefusesReplay attempt sessionId after := by
  refine ⟨fun andThen => ?_, ?_⟩
  · unfold acknowledge Registry.acknowledge
    rw [h]
    rfl
  · unfold replay Registry.framesAfter
    rw [h]
    rfl

theorem refusesReplay_of_lacks (h : Consistent cfg w)
    (hsession : w.channel.session = some sessionId) (hlacks : w.Lacks sessionId) {after : Nat}
    (hafter : after ≤ w.channel.receivedThrough) (attempt : Nat) :
    w.RefusesReplay attempt sessionId after := by
  obtain ⟨session, hfound, hmine⟩ := h.known sessionId hsession
  obtain ⟨-, dropped, hretains, -, hdropped⟩ := h.sessions sessionId session hfound hmine
  have hlt := (lacks_iff hfound hretains).mp hlacks
  rw [cursor_of_session hsession] at hdropped
  have hmax : 0 < MAX_SERVER_REPLAY_FRAMES := by decide
  refine refusesReplay_of_checked (checkedSession_dropped hretains hfound ?_ ?_) attempt
  · omega
  · omega

theorem framesAfter_of_not_lacks (h : Consistent cfg w)
    (hsession : w.channel.session = some sessionId)
    (hreceived : w.channel.receivedThrough ≤ (w.enqueued sessionId).length)
    (hlacks : ¬ w.Lacks sessionId) :
    w.registry.framesAfter sessionId w.channel.receivedThrough =
      .ok (number (w.channel.receivedThrough + 1)
        ((w.enqueued sessionId).drop w.channel.receivedThrough)) := by
  obtain ⟨session, hfound, hmine⟩ := h.known sessionId hsession
  obtain ⟨-, dropped, hretains, -⟩ := h.sessions sessionId session hfound hmine
  have hkept := (lacks_iff hfound hretains).not.mp hlacks
  exact framesAfter_retained hretains hfound hreceived (by omega)

theorem not_lacks_of_le (h : Consistent cfg w) (hsession : w.channel.session = some sessionId)
    (hfits : (w.enqueued sessionId).length ≤
      w.channel.receivedThrough + MAX_SERVER_REPLAY_FRAMES) : ¬ w.Lacks sessionId := by
  obtain ⟨session, hfound, hmine⟩ := h.known sessionId hsession
  obtain ⟨-, dropped, hretains, -, hdropped⟩ := h.sessions sessionId session hfound hmine
  rw [lacks_iff hfound hretains]
  rw [cursor_of_session hsession] at hdropped
  omega

theorem errors_fail {c : Channel M} (hended : c.ended = false) (kind : CloseKind) :
    (c.fail kind).1.errors = c.errors ++ [kind] ∧ (c.fail kind).1.terminalError = some kind := by
  unfold Channel.fail
  rw [if_neg (by simp [hended])]
  exact ⟨rfl, rfl⟩

theorem refusal_reported {link : Link M} (hlive : w.live attempt = some link)
    (hcurrent : w.channel.currentAttempt = some attempt) (hended : w.channel.ended = false)
    (hidle : w.channel.applying = none) :
    ∃ w', w.clientReceives cfg (.refused attempt .replayExpired) = some w' ∧
      w'.channel.errors = w.channel.errors ++ [.replayExpired] ∧
      w'.channel.terminalError = some .replayExpired := by
  refine ⟨w.linkEnds cfg attempt link .replayExpired, ?_, ?_⟩
  · simp [clientReceives, hidle, hlive]
  · unfold linkEnds
    simp only
    split
    · rw [(same_turn cfg ..).2]
      show (w.channel.openFailed attempt link.resume .replayExpired).1.errors = _ ∧
        (w.channel.openFailed attempt link.resume .replayExpired).1.terminalError = _
      unfold Channel.openFailed
      rw [if_pos hcurrent]
      have hfail := errors_fail (c := { w.channel with currentAttempt := none }) hended
        .replayExpired
      cases link.resume with
      | none => exact hfail
      | some r =>
        simp only
        rw [if_neg (by simpa [Channel.ended] using hended), if_pos (by decide)]
        exact hfail
    · rw [if_pos (by exact hcurrent), (same_turn cfg ..).2]
      show (w.channel.linkClosed .replayExpired).1.errors = _ ∧
        (w.channel.linkClosed .replayExpired).1.terminalError = _
      unfold Channel.linkClosed
      simp only
      rw [if_neg (by simpa [Channel.ended, Channel.dropLink] using hended),
        if_pos (.inl (by decide))]
      exact errors_fail (c := w.channel.dropLink.1) hended .replayExpired

end Lacking

/-- **The server's messages, once each and in order**: in every run in which no listener throws, the
messages passed to the listeners are the first ones enqueued for the session.  While the messages
behind the client's cursor fit the window the cursor is answered with all of them; when one of them
is no longer retained, every cursor the client may give is refused with an error, which ends the
channel and is told to its error listeners. -/
theorem delivered_in_order {cfg : Config M} {w : World M}
    (h : Reachable cfg (fun _ event => event.calm) w) :
    (w.channel.session = none → w.channel.delivered = []) ∧
      ∀ sessionId, w.channel.session = some sessionId →
        w.channel.delivered <+: w.enqueued sessionId ∧
        ((w.enqueued sessionId).length ≤ w.channel.receivedThrough + MAX_SERVER_REPLAY_FRAMES →
          ¬ w.Lacks sessionId) ∧
        (¬ w.Lacks sessionId → w.registry.framesAfter sessionId w.channel.receivedThrough =
          .ok (number (w.channel.receivedThrough + 1)
            ((w.enqueued sessionId).drop w.channel.receivedThrough))) ∧
        (w.Lacks sessionId → ∀ attempt after, after ≤ w.channel.receivedThrough →
          w.RefusesReplay attempt sessionId after) ∧
        ∀ attempt link, w.live attempt = some link → w.channel.currentAttempt = some attempt →
          w.channel.ended = false → w.channel.applying = none →
          ∃ w', w.clientReceives cfg (.refused attempt .replayExpired) = some w' ∧
            w'.channel.errors = w.channel.errors ++ [.replayExpired] ∧
            w'.channel.terminalError = some .replayExpired := by
  have hconsistent := consistent_reachable h
  have hpassed := passed_reachable h
  refine ⟨hpassed.unopened, fun sessionId hsession => ?_⟩
  obtain ⟨hinitial, hlength⟩ := hpassed.first sessionId hsession
  have hreceived : w.channel.receivedThrough ≤ (w.enqueued sessionId).length := by
    have hle := hinitial.length_le
    omega
  exact ⟨hinitial, not_lacks_of_le hconsistent hsession,
    framesAfter_of_not_lacks hconsistent hsession hreceived,
    fun hlacks attempt after hafter =>
      refusesReplay_of_lacks hconsistent hsession hlacks hafter attempt,
    fun _ _ hlive hcurrent hended hidle => refusal_reported hlive hcurrent hended hidle⟩

/-- A client that polls. -/
def pollingClient : Config Nat := ⟨"client", .http, fun _ => false⟩

/-- The session "s" is opened, a message is enqueued and polled for, and the answer arrives. -/
def firstAnswer : List (Event Nat) :=
  [.start, .deliver 0 "s", .deliver 1 "-", .enqueue "s" 7, .poll 0, .deliver 2 "-", .answer 0,
    .deliver 3 "-"]

/-- Two more messages come with the second answer, and frames of both answers arrive again. -/
def secondAnswer : List (Event Nat) :=
  [.applied false, .enqueue "s" 8, .enqueue "s" 9, .poll 0, .deliver 4 "-", .answer 0,
    .deliver 3 "-", .deliver 5 "-", .applied false, .enqueue "s" 10, .deliver 5 "-", .deliver 6 "-",
    .applied false]

theorem delivered_in_order_repeated :
    ∃ w, run pollingClient (fun _ event => event.calm) {}
        (firstAnswer ++ secondAnswer) = some w ∧
      w.channel.delivered = [7, 8, 9] ∧ w.channel.session = some "s" ∧
      w.channel.delivered <+: w.enqueued "s" := by
  have hrun : (run pollingClient (fun _ event => event.calm) {}
      (firstAnswer ++ secondAnswer)).any
      fun w => w.channel.delivered = [7, 8, 9] ∧ w.channel.session = some "s" := by
    decide +kernel
  obtain ⟨w, hrun, hw⟩ := (Option.any_eq_true ..).mp hrun
  obtain ⟨hdelivered, hsession⟩ := of_decide_eq_true hw
  exact ⟨w, hrun, hdelivered, hsession,
    ((delivered_in_order (reachable_run .start hrun)).2 "s" hsession).1⟩

/-- A listener throws: the message is polled for again, and passed again. -/
theorem message_passed_again :
    (run pollingClient (fun _ _ => true) {} (firstAnswer ++
        [.applied true, .poll 0, .deliver 4 "-", .answer 0, .deliver 5 "-"])).any
      fun w => w.enqueued "s" = [7] ∧ w.channel.delivered = [7, 7] := by
  decide +kernel

end OpenAide.Session
