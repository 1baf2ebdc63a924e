import OpenAide.Session.Registry

/-!
# Polling one session

The calls a link makes on one session of the registry (`protocol_edge/reliable_session.rs:240-352`),
in any order and with any cursors: messages are enqueued, cursors acknowledged, and frames read with
`frames_after` or `poll`.

`checked_session` compares a cursor with the first frame retained only.  An acknowledgement of the
last message leaves no frame, and then any earlier cursor passes and is answered with no frames.

- `retains_calls`: whatever is called, the session retains the end of what it was sent;
- `framesAfter_cases`, `poll_cases`: the answers to a cursor, by where it stands;
- `exact_iff_of_cases`: **an answer hides no frame exactly when a frame is retained or the cursor is
  at the end.**
-/

namespace OpenAide.Session

open Registry

variable {M : Type}

/-- `poll` (`reliable_session.rs:266`): the answer, and the registry after it. -/
def Registry.poll (r : Registry M) (sessionId : String) (after : Nat) :
    Except PollError (List (Frame M)) × Registry M :=
  match r.acknowledge sessionId after with
  | .error error => (.error error, r)
  | .ok acknowledged => (acknowledged.framesAfter sessionId after, acknowledged)

/-! ## Calls -/

/-- The calls on a session.  `openOther` opens another one, under an identity of its own. -/
inductive Call (M : Type) where
  | openOther (connectionId otherId : String)
  | enqueueServerMessage (message : M)
  | acknowledge (through : Nat)
  | poll (after : Nat)
  | framesAfter (after : Nat)

namespace Call

/-- What a call leaves behind.  A refused one leaves the registry as it was. -/
def perform (sessionId : String) (r : Registry M) : Call M → Registry M
  | openOther connectionId otherId =>
    if otherId = sessionId then r else r.open connectionId otherId
  | enqueueServerMessage message => (r.enqueueServerMessage sessionId message).getD r
  | acknowledge through =>
    match r.acknowledge sessionId through with
    | .ok acknowledged => acknowledged
    | .error _ => r
  | poll after => (r.poll sessionId after).2
  | framesAfter _ => r

/-- The messages the calls enqueue, oldest first. -/
def messages : List (Call M) → List M
  | [] => []
  | enqueueServerMessage message :: rest => message :: messages rest
  | openOther _ _ :: rest | acknowledge _ :: rest | poll _ :: rest | framesAfter _ :: rest =>
    messages rest

theorem messages_append (calls more : List (Call M)) :
    messages (calls ++ more) = messages calls ++ messages more := by
  induction calls with
  | nil => rfl
  | cons call rest ih =>
    cases call with
    | enqueueServerMessage message => exact congrArg (message :: ·) ih
    | openOther connectionId otherId => exact ih
    | acknowledge through => exact ih
    | poll after => exact ih
    | framesAfter after => exact ih

end Call

/-- The registry after the session was opened and then called. -/
def called (r : Registry M) (connectionId sessionId : String) (calls : List (Call M)) :
    Registry M :=
  calls.foldl (Call.perform sessionId) (r.open connectionId sessionId)

/-! ## What is retained -/

/-- The session of the registry retains an end of `history`. -/
def Serves (r : Registry M) (sessionId : String) (history : List M) : Prop :=
  ∃ session dropped, r sessionId = some session ∧ Retains history dropped session

section Serves

variable {r : Registry M} {sessionId : String} {history : List M}

theorem serves_acknowledge (h : Serves r sessionId history) {through : Nat} {r' : Registry M}
    (hacknowledged : r.acknowledge sessionId through = .ok r') : Serves r' sessionId history := by
  obtain ⟨session, dropped, hsession, hretains⟩ := h
  obtain ⟨session', rfl, hretains', -, -⟩ := retains_acknowledge hretains hsession hacknowledged
  exact ⟨session', _, insert_self .., hretains'⟩

theorem serves_poll (h : Serves r sessionId history) (after : Nat) :
    Serves (r.poll sessionId after).2 sessionId history := by
  unfold Registry.poll
  cases hacknowledged : r.acknowledge sessionId after with
  | error error => exact h
  | ok r' => exact serves_acknowledge h hacknowledged

/-- One call. -/
theorem serves_perform (h : Serves r sessionId history) (call : Call M) :
    Serves (call.perform sessionId r) sessionId (history ++ Call.messages [call]) := by
  cases call with
  | openOther connectionId otherId =>
    rw [Call.messages, Call.messages, List.append_nil]
    show Serves (if otherId = sessionId then r else r.open connectionId otherId) sessionId history
    by_cases hother : otherId = sessionId
    · rw [if_pos hother]
      exact h
    · rw [if_neg hother]
      obtain ⟨session, dropped, hsession, hretains⟩ := h
      refine ⟨session, dropped, ?_, hretains⟩
      exact (insert_of_ne r (Ne.symm hother) _).trans hsession
  | enqueueServerMessage message =>
    obtain ⟨session, dropped, hsession, hretains⟩ := h
    have hperform : Call.perform sessionId r (.enqueueServerMessage message) =
        r.insert sessionId (enqueued session message) := by
      simp [Call.perform, enqueueServerMessage, hsession]
    rw [hperform]
    exact ⟨_, _, insert_self .., retains_enqueue hretains message⟩
  | acknowledge through =>
    rw [Call.messages, Call.messages, List.append_nil]
    show Serves (match r.acknowledge sessionId through with
      | .ok acknowledged => acknowledged
      | .error _ => r) sessionId history
    cases hacknowledged : r.acknowledge sessionId through with
    | error error => exact h
    | ok r' => exact serves_acknowledge h hacknowledged
  | poll after =>
    rw [Call.messages, Call.messages, List.append_nil]
    exact serves_poll h after
  | framesAfter after =>
    rw [Call.messages, Call.messages, List.append_nil]
    exact h

/-- **Whatever is called, the session retains the end of what it was sent.** -/
theorem retains_calls (r : Registry M) (connectionId sessionId : String) (calls : List (Call M)) :
    Serves (called r connectionId sessionId calls) sessionId (Call.messages calls) := by
  induction calls using List.reverseRecOn with
  | nil => exact ⟨_, 0, insert_self .., retains_open connectionId⟩
  | append_singleton calls call ih =>
    have hstep := serves_perform ih call
    rw [← Call.messages_append] at hstep
    simpa [called] using hstep

end Serves

/-! ## Answers -/

/-- The answer hides nothing: it is every message behind the cursor, numbered on from it, or an
error; and it is an error if one of those frames is no longer retained. -/
structure Exact (history : List M) (retained : List (Frame M)) (after : Nat)
    (answer : Except PollError (List (Frame M))) : Prop where
  complete : ∀ frames, answer = .ok frames → frames = number (after + 1) (history.drop after)
  refused : (∃ sequence, after < sequence ∧ sequence ≤ history.length ∧
    ∀ frame ∈ retained, frame.sequence ≠ sequence) → ∃ error, answer = .error error

variable {after : Nat}

theorem Exact.of_error {history : List M} {retained : List (Frame M)} {error : PollError} :
    Exact history retained after (.error error) where
  complete := nofun
  refused _ := ⟨error, rfl⟩

section Answers

variable {r : Registry M} {sessionId : String} {history : List M} {dropped : Nat}
  {session : ReliableSession M}

theorem mem_retained (h : Retains history dropped session) {sequence : Nat}
    (hdropped : dropped < sequence) (hlength : sequence ≤ history.length) :
    ∃ frame ∈ session.serverFrames, frame.sequence = sequence := by
  have hlt : sequence - 1 < history.length := by omega
  obtain ⟨message, hmessage⟩ : ∃ message, history[sequence - 1]? = some message :=
    ⟨_, List.getElem?_eq_getElem hlt⟩
  refine ⟨⟨sequence, message⟩, ?_, rfl⟩
  rw [h.frames]
  exact mem_number_of_frameOf ⟨Nat.zero_lt_of_lt hdropped, hmessage⟩ hdropped

theorem serverFrames_eq_nil_iff (h : Retains history dropped session) :
    session.serverFrames = [] ↔ dropped = history.length := by
  rw [← List.length_eq_zero_iff, h.frames, length_number, List.length_drop]
  have := h.dropped_le
  omega

theorem exact_retained (h : Retains history dropped session) (hdropped : dropped ≤ after) :
    Exact history session.serverFrames after (.ok (number (after + 1) (history.drop after))) := by
  refine ⟨fun frames hframes => (Except.ok.inj hframes).symm, ?_⟩
  rintro ⟨sequence, hafter, hlength, hmissing⟩
  obtain ⟨frame, hframe, hsequence⟩ := mem_retained h (by omega) hlength
  exact absurd hsequence (hmissing frame hframe)

theorem not_exact_nil {retained : List (Frame M)} (hafter : after < history.length) :
    ¬Exact history retained after (.ok []) := by
  intro h
  have hframes := h.complete [] rfl
  have hlength := congrArg List.length hframes
  rw [length_number, List.length_drop, List.length_nil] at hlength
  omega

/-- A cursor past the end. -/
theorem checkedSession_past (h : Retains history dropped session)
    (hsession : r sessionId = some session) (hafter : history.length < after) :
    r.checkedSession sessionId after = .error .invalidAcknowledgement := by
  simp only [checkedSession, hsession, h.next]
  rw [if_pos (by omega)]

theorem checkedSession_empty (h : Retains history history.length session)
    (hsession : r sessionId = some session) (hafter : after ≤ history.length) :
    r.checkedSession sessionId after = .ok session := by
  have hnone : session.serverFrames = [] := (serverFrames_eq_nil_iff h).mpr rfl
  simp only [checkedSession, hsession, h.next, hnone]
  rw [if_neg (by omega), if_neg (by simp)]

/-- **The answers of `frames_after`**: refused past the end and before the window, everything behind
a cursor in the window, and nothing for a cursor before an empty one. -/
theorem framesAfter_cases (h : Retains history dropped session)
    (hsession : r sessionId = some session) (after : Nat) :
    (∃ error, r.framesAfter sessionId after = .error error) ∧
        (history.length < after ∨ after < dropped ∧ dropped < history.length) ∨
      r.framesAfter sessionId after = .ok (number (after + 1) (history.drop after)) ∧
        dropped ≤ after ∧ after ≤ history.length ∨
      r.framesAfter sessionId after = .ok [] ∧ after < dropped ∧ dropped = history.length := by
  by_cases hpast : history.length < after
  · refine .inl ⟨⟨.invalidAcknowledgement, ?_⟩, .inl hpast⟩
    rw [framesAfter, checkedSession_past h hsession hpast]
    rfl
  by_cases hwindow : dropped ≤ after
  · exact .inr (.inl ⟨framesAfter_retained h hsession (by omega) hwindow, hwindow, by omega⟩)
  by_cases hretained : dropped < history.length
  · refine .inl ⟨⟨.replayExpired, ?_⟩, .inr ⟨by omega, hretained⟩⟩
    rw [framesAfter, checkedSession_dropped h hsession (by omega) hretained]
    rfl
  · have hall : dropped = history.length := Nat.le_antisymm h.dropped_le (by omega)
    subst hall
    refine .inr (.inr ⟨?_, by omega, rfl⟩)
    rw [framesAfter, checkedSession_empty h hsession (by omega)]
    show Except.ok (session.serverFrames.filter _) = _
    rw [(serverFrames_eq_nil_iff h).mpr rfl, List.filter_nil]

/-- **The answers of `poll`** are those of `frames_after`: the acknowledgement is refused for the
same cursors, and otherwise drops only what the cursor covers. -/
theorem poll_cases (h : Retains history dropped session)
    (hsession : r sessionId = some session) (after : Nat) :
    (∃ error, (r.poll sessionId after).1 = .error error) ∧
        (history.length < after ∨ after < dropped ∧ dropped < history.length) ∨
      (r.poll sessionId after).1 = .ok (number (after + 1) (history.drop after)) ∧
        dropped ≤ after ∧ after ≤ history.length ∨
      (r.poll sessionId after).1 = .ok [] ∧ after < dropped ∧ dropped = history.length := by
  unfold Registry.poll
  cases hacknowledged : r.acknowledge sessionId after with
  | error error =>
    refine .inl ⟨⟨error, rfl⟩, ?_⟩
    by_contra hinside
    rw [not_or] at hinside
    have hchecked : r.checkedSession sessionId after = .ok session := by
      by_cases hwindow : dropped ≤ after
      · exact checkedSession_retained h hsession (by omega) hwindow
      · have hall : dropped = history.length := by
          have := h.dropped_le
          omega
        subst hall
        exact checkedSession_empty h hsession (by omega)
    rw [acknowledge, hchecked] at hacknowledged
    cases hacknowledged
  | ok r' =>
    obtain ⟨session', rfl, hretains, -, -⟩ := retains_acknowledge h hsession hacknowledged
    -- The check passed, so the cursor is not past the end and not before a window with frames.
    have hchecked : ∃ checked, r.checkedSession sessionId after = .ok checked := by
      cases hcheck : r.checkedSession sessionId after with
      | error error =>
        rw [acknowledge, hcheck] at hacknowledged
        cases hacknowledged
      | ok checked => exact ⟨checked, rfl⟩
    obtain ⟨checked, hchecked⟩ := hchecked
    have hle : after ≤ history.length := by
      by_contra hpast
      rw [checkedSession_past h hsession (by omega)] at hchecked
      cases hchecked
    have hwindow : dropped ≤ after ∨ after < dropped ∧ dropped = history.length := by
      by_contra hbefore
      have hle := h.dropped_le
      rw [checkedSession_dropped h hsession (by omega) (by omega)] at hchecked
      cases hchecked
    rcases framesAfter_cases hretains (insert_self ..) after with
      ⟨-, hrefused⟩ | ⟨hanswer, hin, -⟩ | ⟨hanswer, hbefore, hall⟩
    · omega
    · rcases hwindow with hwindow | hwindow
      · exact .inr (.inl ⟨hanswer, hwindow, hle⟩)
      · omega
    · exact .inr (.inr ⟨hanswer, by omega, by omega⟩)

theorem exact_iff_of_cases (h : Retains history dropped session)
    {answer : Except PollError (List (Frame M))} (hcases : (∃ error, answer = .error error) ∧
        (history.length < after ∨ after < dropped ∧ dropped < history.length) ∨
      answer = .ok (number (after + 1) (history.drop after)) ∧
        dropped ≤ after ∧ after ≤ history.length ∨
      answer = .ok [] ∧ after < dropped ∧ dropped = history.length) :
    Exact history session.serverFrames after answer ↔
      (session.serverFrames = [] → session.nextServerSequence ≤ after + 1) := by
  rw [serverFrames_eq_nil_iff h, h.next]
  rcases hcases with ⟨⟨error, rfl⟩, hrefused⟩ | ⟨rfl, hwindow, hle⟩ | ⟨rfl, hbefore, hall⟩
  · exact iff_of_true .of_error fun hall => by omega
  · exact iff_of_true (exact_retained h hwindow) fun hall => by omega
  · refine iff_of_false (not_exact_nil (by omega)) fun hend => ?_
    have := hend hall
    omega

end Answers

/-- **A poll hides lost frames exactly when nothing is retained before its cursor's end.**  After
any calls, for any cursor, `frames_after` and `poll` answer exactly if and only if the session
retains a frame or the cursor has reached the last message. -/
theorem poll_hides_nothing_iff (r : Registry M) (connectionId sessionId : String)
    (calls : List (Call M)) (after : Nat) :
    ∃ session, called r connectionId sessionId calls sessionId = some session ∧
      (Exact (Call.messages calls) session.serverFrames after
          ((called r connectionId sessionId calls).framesAfter sessionId after) ↔
        (session.serverFrames = [] → session.nextServerSequence ≤ after + 1)) ∧
      (Exact (Call.messages calls) session.serverFrames after
          ((called r connectionId sessionId calls).poll sessionId after).1 ↔
        (session.serverFrames = [] → session.nextServerSequence ≤ after + 1)) := by
  obtain ⟨session, dropped, hsession, hretains⟩ := retains_calls r connectionId sessionId calls
  exact ⟨session, hsession, exact_iff_of_cases hretains (framesAfter_cases hretains hsession after),
    exact_iff_of_cases hretains (poll_cases hretains hsession after)⟩

/-- One message, acknowledged: the cursor before it is answered with nothing. -/
theorem acknowledged_message_hidden :
    let calls := [Call.enqueueServerMessage (), .acknowledge 1]
    let registry := called (fun _ => none) "connection" "session" calls
    ∃ session, registry "session" = some session ∧
      ¬Exact (Call.messages calls) session.serverFrames 0 (registry.framesAfter "session" 0) ∧
      ¬Exact (Call.messages calls) session.serverFrames 0 (registry.poll "session" 0).1 :=
  ⟨_, rfl, not_exact_nil (by decide), not_exact_nil (by decide)⟩

end OpenAide.Session
