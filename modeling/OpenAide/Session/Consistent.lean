import OpenAide.Session.System

/-!
# What every run keeps

`Consistent` relates the two halves of a session and all that is between them: every frame on its
way is a frame of the messages its sender was given, every cursor on its way has been reached, every
link leads to the one session of the channel, and the registry has accepted exactly the first
messages the channel was asked to send.

* `PacketOk.mono`, `SocketOk.mono`: what holds of a packet goes on holding (`Grows`);
* `consistent_turn`: turns of the channel;
* `Effect`: what one event can do to the messages, and nothing else;
* `sound_clientReceives`, `sound_serverReceives`: packets that arrive;
* `sound_step`, `consistent_reachable`: one event, and every run.
-/

namespace OpenAide.Session

open Registry
open World (command)

variable {M : Type}

/-! ## The invariant -/

/-- How far the client has come in a session. -/
def World.cursor (w : World M) (sessionId : String) : Nat :=
  if w.channel.session = some sessionId then w.channel.receivedThrough else 0

/-- The session exists and belongs to the client. -/
def World.Ours (cfg : Config M) (w : World M) (sessionId : String) : Prop :=
  ∃ session, w.registry sessionId = some session ∧ session.connectionId = cfg.connectionId

def PacketOk (cfg : Config M) (w : World M) : Packet M → Prop
  | .openSession attempt => ∃ link, w.links attempt = some link ∧ link.resume = none
  | .hello attempt resume receivedThrough =>
    (∃ link, w.links attempt = some link ∧ resume = link.resume.map (·.sessionId)) ∧
      (∀ sessionId, resume = some sessionId → w.channel.session = some sessionId) ∧
      (resume = none → receivedThrough = 0) ∧ receivedThrough ≤ w.channel.receivedThrough
  | .upload _ sessionId frame =>
    w.channel.session = some sessionId ∧ FrameOf w.channel.sent frame
  | .acknowledge _ sessionId through =>
    w.channel.session = some sessionId ∧ through ≤ w.channel.receivedThrough
  | .poll _ sessionId after =>
    w.channel.session = some sessionId ∧ after ≤ w.channel.receivedThrough
  | .ready attempt sessionId _ => w.Ours cfg sessionId ∧
      ∃ link, w.links attempt = some link ∧ ∀ r, link.resume = some r → sessionId = r.sessionId
  | .frame _ sessionId frame => FrameOf (w.enqueued sessionId) frame
  | .uploaded _ _ => True
  | .refused _ _ => True

structure SocketOk (cfg : Config M) (w : World M) (attempt : Nat) (socket : Socket) : Prop where
  ours : w.Ours cfg socket.attached.sessionId
  link : ∃ link, w.links attempt = some link ∧
    ∀ r, link.resume = some r → socket.attached.sessionId = r.sessionId
  greeted : socket.bound = false → socket.writtenThrough ≤ w.cursor socket.attached.sessionId
  pumped : socket.pumping = true → socket.bound = true

structure LinkOk (w : World M) (attempt : Nat) (link : Link M) : Prop where
  first : link.resume = none → attempt = 0
  resumes : ∀ r, link.resume = some r → w.channel.session = some r.sessionId
  named : link.ended = false → ∀ sessionId, link.sessionId = some sessionId →
    w.channel.session = some sessionId
  uploads : ∀ frame ∈ link.uploads, FrameOf w.channel.sent frame
  cursor : link.lastServerSequence ≤ w.channel.receivedThrough

/-- What was accepted is retained, or the client has it, or it was crowded out. -/
structure SessionOk (w : World M) (sessionId : String) (session : ReliableSession M) : Prop where
  accepted : session.lastClientSequence =
    if w.channel.session = some sessionId then w.accepted.length else 0
  retains : ∃ dropped, Retains (w.enqueued sessionId) dropped session ∧
    (w.enqueued sessionId).length ≤ dropped + MAX_SERVER_REPLAY_FRAMES ∧
    (dropped ≤ w.cursor sessionId ∨
      dropped + MAX_SERVER_REPLAY_FRAMES = (w.enqueued sessionId).length)

structure Consistent (cfg : Config M) (w : World M) : Prop where
  numbered : Numbered w.channel
  unopened : ∀ attempt, w.channel.attempts ≤ attempt → w.links attempt = none
  started : w.channel.session ≠ none → 0 < w.channel.attempts
  links : ∀ attempt link, w.links attempt = some link → LinkOk w attempt link
  /-- The first link is open, or over, once there is a session. -/
  settled : w.channel.session ≠ none → ∀ link, w.links 0 = some link → link.sessionId = none →
    link.ended = true
  packets : ∀ packet ∈ w.wire, PacketOk cfg w packet
  sockets : ∀ attempt socket, w.sockets attempt = some socket → SocketOk cfg w attempt socket
  polls : ∀ poll ∈ w.polls, w.Ours cfg poll.2.1
  sessions : ∀ sessionId session, w.registry sessionId = some session →
    session.connectionId = cfg.connectionId → SessionOk w sessionId session
  known : ∀ sessionId, w.channel.session = some sessionId → w.Ours cfg sessionId
  foreign : ∀ sessionId, ¬ w.Ours cfg sessionId → w.enqueued sessionId = []
  accepted : w.accepted <+: w.channel.sent
  unaccepted : w.channel.session = none → w.accepted = []

/-- The world only grows. -/
structure Grows (cfg : Config M) (w w' : World M) : Prop where
  session : ∀ sessionId, w.channel.session = some sessionId → w'.channel.session = some sessionId
  received : w.channel.receivedThrough ≤ w'.channel.receivedThrough
  sent : w.channel.sent <+: w'.channel.sent
  enqueued : ∀ sessionId, w.enqueued sessionId <+: w'.enqueued sessionId
  ours : ∀ sessionId, w.Ours cfg sessionId → w'.Ours cfg sessionId
  links : ∀ attempt link, w.links attempt = some link →
    ∃ link', w'.links attempt = some link' ∧ link'.resume = link.resume
  fresh : w.channel.session = none → w.channel.receivedThrough = 0

variable {frame : Frame M} {packet : Packet M} {socket : Socket}

section Growth

variable {cfg : Config M} {w w' : World M}

theorem FrameOf.of_initial {messages messages' : List M} (h : FrameOf messages frame)
    (hinitial : messages <+: messages') : FrameOf messages' frame := by
  obtain ⟨more, rfl⟩ := hinitial
  exact h.append more

theorem PacketOk.mono (h : PacketOk cfg w packet) (hgrows : Grows cfg w w') :
    PacketOk cfg w' packet := by
  cases packet with
  | openSession attempt =>
    obtain ⟨link, hlink, hresume⟩ := h
    obtain ⟨link', hlink', hsame⟩ := hgrows.links attempt link hlink
    exact ⟨link', hlink', hsame.trans hresume⟩
  | hello attempt resume receivedThrough =>
    obtain ⟨⟨link, hlink, hresume⟩, hsession, hnone, hreceived⟩ := h
    obtain ⟨link', hlink', hsame⟩ := hgrows.links attempt link hlink
    exact ⟨⟨link', hlink', by rw [hsame, hresume]⟩,
      fun sessionId hsome => hgrows.session _ (hsession sessionId hsome), hnone,
      hreceived.trans hgrows.received⟩
  | upload attempt sessionId frame =>
    exact ⟨hgrows.session _ h.1, h.2.of_initial hgrows.sent⟩
  | acknowledge attempt sessionId through =>
    exact ⟨hgrows.session _ h.1, h.2.trans hgrows.received⟩
  | poll attempt sessionId after => exact ⟨hgrows.session _ h.1, h.2.trans hgrows.received⟩
  | ready attempt sessionId receivedThrough =>
    obtain ⟨hours, link, hlink, hresume⟩ := h
    obtain ⟨link', hlink', hsame⟩ := hgrows.links attempt link hlink
    exact ⟨hgrows.ours _ hours, link', hlink', fun r hr => hresume r (hsame ▸ hr)⟩
  | frame attempt sessionId frame => exact h.of_initial (hgrows.enqueued sessionId)
  | uploaded attempt sequence => trivial
  | refused attempt kind => trivial

theorem Grows.cursor (h : Grows cfg w w') (sessionId : String) :
    w.cursor sessionId ≤ w'.cursor sessionId := by
  unfold World.cursor
  split
  · rename_i hsession
    rw [if_pos (h.session _ hsession)]
    exact h.received
  · exact Nat.zero_le _

theorem SocketOk.mono {attempt : Nat} (h : SocketOk cfg w attempt socket)
    (hgrows : Grows cfg w w') : SocketOk cfg w' attempt socket where
  ours := hgrows.ours _ h.ours
  link := by
    obtain ⟨link, hlink, hresume⟩ := h.link
    obtain ⟨link', hlink', hsame⟩ := hgrows.links attempt link hlink
    exact ⟨link', hlink', fun r hr => hresume r (hsame ▸ hr)⟩
  greeted hbound := (h.greeted hbound).trans (hgrows.cursor _)
  pumped := h.pumped

theorem LinkOk.mono {attempt : Nat} {link : Link M} (h : LinkOk w attempt link)
    (hgrows : Grows cfg w w') : LinkOk w' attempt link where
  first := h.first
  resumes r hr := hgrows.session _ (h.resumes r hr)
  named hended sessionId hname := hgrows.session _ (h.named hended sessionId hname)
  uploads frame hframe := (h.uploads frame hframe).of_initial hgrows.sent
  cursor := h.cursor.trans hgrows.received

end Growth

/-! ## Packets and links -/

section Links

variable {cfg : Config M} {w : World M}

variable {attempt : Nat} {link : Link M}

theorem live_iff :
    w.live attempt = some link ↔ w.links attempt = some link ∧ link.ended = false := by
  simp [World.live, Option.filter_eq_some_iff]

variable (h : Consistent cfg w)
include h

theorem Consistent.update {links : Nat → Option (Link M)}
    {wire : List (Packet M)} {sockets : Nat → Option Socket} {polls : List (Nat × String × Nat)}
    (hresume : ∀ attempt link, w.links attempt = some link →
      ∃ link', links attempt = some link' ∧ link'.resume = link.resume)
    (hunopened : ∀ attempt, w.channel.attempts ≤ attempt → links attempt = none)
    (hlinks : ∀ attempt link, links attempt = some link → LinkOk w attempt link)
    (hsettled : w.channel.session ≠ none → ∀ link, links 0 = some link → link.sessionId = none →
      link.ended = true)
    (hpackets : ∀ packet ∈ wire, PacketOk cfg w packet)
    (hsockets : ∀ attempt socket, sockets attempt = some socket → SocketOk cfg w attempt socket)
    (hpolls : ∀ poll ∈ polls, w.Ours cfg poll.2.1) (threads : List (Thread M))
    (dispatched : List M) :
    Consistent cfg { w with links, wire, sockets, polls, threads, dispatched } :=
  have hgrows : Grows cfg w { w with links, wire, sockets, polls, threads, dispatched } :=
    ⟨fun _ h => h, Nat.le_refl _, List.prefix_rfl, fun _ => List.prefix_rfl, fun _ h => h, hresume,
      fun hnone => (h.numbered.fresh hnone).1⟩
  { numbered := h.numbered
    unopened := hunopened
    started := h.started
    links := fun attempt link hlink => (hlinks attempt link hlink).mono hgrows
    settled := hsettled
    packets := fun packet hmem => (hpackets packet hmem).mono hgrows
    sockets := fun attempt socket hsocket => (hsockets attempt socket hsocket).mono hgrows
    polls := hpolls
    sessions := fun sessionId session hsession hours =>
      ⟨(h.sessions sessionId session hsession hours).accepted,
        (h.sessions sessionId session hsession hours).retains⟩
    known := h.known
    foreign := h.foreign
    accepted := h.accepted
    unaccepted := h.unaccepted }

theorem Consistent.aside {wire : List (Packet M)} {sockets : Nat → Option Socket}
    {polls : List (Nat × String × Nat)} (hpackets : ∀ packet ∈ wire, PacketOk cfg w packet)
    (hsockets : ∀ attempt socket, sockets attempt = some socket → SocketOk cfg w attempt socket)
    (hpolls : ∀ poll ∈ polls, w.Ours cfg poll.2.1) (threads : List (Thread M))
    (dispatched : List M) : Consistent cfg { w with wire, sockets, polls, threads, dispatched } :=
  h.update (fun _ link hlink => ⟨link, hlink, rfl⟩) h.unopened h.links h.settled hpackets hsockets
    hpolls threads dispatched

theorem Consistent.putAll {packets : List (Packet M)}
    (hpackets : ∀ packet ∈ packets, PacketOk cfg w packet) : Consistent cfg (w.putAll packets) :=
  h.aside (fun packet hmem => (List.mem_append.mp hmem).elim (h.packets packet) (hpackets packet))
    h.sockets h.polls w.threads w.dispatched

theorem Consistent.put (hpacket : PacketOk cfg w packet) : Consistent cfg (w.put packet) := by
  have hpackets : ∀ other ∈ [packet], PacketOk cfg w other := by simpa using hpacket
  exact h.putAll hpackets

theorem Consistent.putLink {link' : Link M} (hattempt : attempt < w.channel.attempts)
    (hresume : ∀ link, w.links attempt = some link → link'.resume = link.resume)
    (hok : LinkOk w attempt link')
    (hsettled : attempt = 0 → w.channel.session ≠ none → link'.sessionId = none →
      link'.ended = true) : Consistent cfg (w.setLink attempt link') := by
  refine h.update (fun other old hold => ?_) (fun other hother => ?_) (fun other found hfound => ?_)
    (fun hsession found hfound => ?_) h.packets h.sockets h.polls w.threads w.dispatched
  · rw [Function.update_apply]
    split
    · rename_i heq
      exact ⟨link', rfl, hresume old (heq ▸ hold)⟩
    · exact ⟨old, hold, rfl⟩
  · rw [Function.update_of_ne (by omega)]
    exact h.unopened other hother
  · rw [Function.update_apply] at hfound
    split at hfound
    · rename_i heq
      cases hfound
      exact heq ▸ hok
    · exact h.links other found hfound
  · rw [Function.update_apply] at hfound
    split at hfound
    · rename_i heq
      cases hfound
      exact hsettled heq.symm hsession
    · exact h.settled hsession found hfound

theorem Consistent.lt_attempts
    (hlink : w.links attempt = some link) : attempt < w.channel.attempts := by
  by_contra hle
  cases (h.unopened attempt (Nat.le_of_not_lt hle)).symm.trans hlink

theorem Consistent.setLink {link' : Link M} (hlink : w.links attempt = some link)
    (hresume : link'.resume = link.resume) (hok : LinkOk w attempt link')
    (hsettled : attempt = 0 → w.channel.session ≠ none → link'.sessionId = none →
      link'.ended = true) : Consistent cfg (w.setLink attempt link') :=
  h.putLink (h.lt_attempts hlink) (fun _ hold => by cases hlink.symm.trans hold; exact hresume) hok
    hsettled

theorem Consistent.of_live (hlive : w.live attempt = some link) :
    w.links attempt = some link ∧ link.ended = false ∧ LinkOk w attempt link := by
  obtain ⟨hlink, hended⟩ := live_iff.mp hlive
  exact ⟨hlink, hended, h.links attempt link hlink⟩

theorem Consistent.adjust (hlink : w.links attempt = some link) {uploads : List (Frame M)}
    {lastServerSequence : Nat} (huploads : ∀ frame ∈ uploads, FrameOf w.channel.sent frame)
    (hcursor : lastServerSequence ≤ w.channel.receivedThrough) :
    Consistent cfg (w.setLink attempt { link with uploads, lastServerSequence }) := by
  have hok := h.links attempt link hlink
  refine h.setLink hlink rfl ⟨hok.first, hok.resumes, hok.named, huploads, hcursor⟩ ?_
  rintro rfl hsession hunnamed
  exact h.settled hsession link hlink hunnamed

/-- A link that ends. -/
theorem Consistent.endLink
    (hlink : w.links attempt = some link) : Consistent cfg (w.setLink attempt link.end) := by
  have hok := h.links attempt link hlink
  exact h.setLink hlink rfl ⟨hok.first, hok.resumes, nofun, hok.uploads,
    hok.cursor⟩ fun _ _ _ => rfl

/-- Every link ends. -/
theorem Consistent.abort :
    Consistent cfg { w with links := fun attempt => (w.links attempt).map Link.end } := by
  refine h.update (fun attempt link hlink => ⟨link.end, by simp [hlink], rfl⟩)
    (fun attempt hattempt => by rw [h.unopened attempt hattempt]; rfl)
    (fun attempt link hlink => ?_)
    (fun _ link hlink _ => ?_) h.packets h.sockets h.polls w.threads w.dispatched
  · obtain ⟨old, hold, rfl⟩ := Option.map_eq_some_iff.mp hlink
    have hok := h.links attempt old hold
    exact ⟨hok.first, hok.resumes, nofun, hok.uploads, hok.cursor⟩
  · obtain ⟨old, -, rfl⟩ := Option.map_eq_some_iff.mp hlink
    rfl

/-- A new link. -/
theorem Consistent.openLink {resume : Option Resume}
    (hnone : w.links attempt = none) (hattempt : attempt < w.channel.attempts)
    (hresume : ∀ r, resume = some r → w.channel.session = some r.sessionId ∧
      r.receivedThrough ≤ w.channel.receivedThrough)
    (hfirst : resume = none → attempt = 0) (hnew : attempt = 0 → w.channel.session = none) :
    Consistent cfg (w.openLink cfg attempt resume) := by
  have hcursor : (resume.map (·.receivedThrough)).getD 0 ≤ w.channel.receivedThrough := by
    cases resume with
    | none => exact Nat.zero_le _
    | some r => exact (hresume r rfl).2
  set link : Link M := { resume, lastServerSequence := (resume.map (·.receivedThrough)).getD 0 }
  have hlinked : Consistent cfg (w.setLink attempt link) :=
    h.putLink hattempt (fun old hold => by cases hnone.symm.trans hold)
      ⟨hfirst, fun r hr => (hresume r hr).1, nofun,
        nofun, hcursor⟩
      fun hzero hsession => absurd (hnew hzero) hsession
  have hself : (w.setLink attempt link).links attempt = some link := Function.update_self ..
  unfold World.openLink
  simp only
  cases hcarrier : cfg.carrier with
  | http =>
    cases resume with
    | none => exact hlinked.put ⟨link, hself, rfl⟩
    | some r => exact hlinked
  | webSocket =>
    refine hlinked.put ⟨⟨link, hself, rfl⟩, ?_, ?_, hcursor⟩
    · intro sessionId hsome
      obtain ⟨r, rfl, rfl⟩ := Option.map_eq_some_iff.mp hsome
      exact (hresume r rfl).1
    · intro hsome
      rw [Option.map_eq_none_iff.mp hsome]
      rfl

end Links

/-! ## Turns -/

section Turns

variable {cfg : Config M} {w : World M} (h : Consistent cfg w)
include h

theorem Consistent.quiet {command : Command M}
    (hquiet : command.Quiet w.channel) : Consistent cfg (w.command cfg command) ∧
      (w.command cfg command).channel = w.channel ∧
      ∀ attempt, w.links attempt = none → (w.command cfg command).links attempt = none := by
  have hset : ∀ {attempt link} link', w.live attempt = some link →
      ∀ other, w.links other = none → (w.setLink attempt link').links other = none := by
    intro attempt link link' hlive other hnone
    simp only [World.setLink, Function.update_apply]
    split
    · rename_i heq
      rw [heq, (live_iff.mp hlive).1] at hnone
      cases hnone
    · exact hnone
  cases command with
  | openLink attempt resume => exact hquiet.elim
  | send attempt frame =>
    simp only [command]
    cases hlive : w.live attempt with
    | none => exact ⟨h, rfl, fun _ h => h⟩
    | some link =>
      obtain ⟨hlink, hended, hok⟩ := h.of_live hlive
      simp only [World.linkSend]
      split
      · refine ⟨h.adjust hlink (fun other hother => ?_) hok.cursor, rfl, hset _ hlive⟩
        rcases List.mem_append.mp hother with hold | hnew
        · exact hok.uploads other hold
        · rw [List.mem_singleton.mp hnew]
          exact hquiet
      · rename_i sessionId hcarrier hname
        exact ⟨h.put ⟨hok.named hended sessionId hname, hquiet⟩, rfl, fun _ h => h⟩
      · exact ⟨h, rfl, fun _ h => h⟩
  | acknowledge attempt through =>
    simp only [command]
    cases hlive : w.live attempt with
    | none => exact ⟨h, rfl, fun _ h => h⟩
    | some link =>
      obtain ⟨hlink, hended, hok⟩ := h.of_live hlive
      simp only [World.linkAcknowledge]
      split
      · exact ⟨h.adjust hlink hok.uploads (Nat.max_le.mpr ⟨hok.cursor, hquiet⟩), rfl, hset _ hlive⟩
      · rename_i sessionId hcarrier hname
        exact ⟨h.put ⟨hok.named hended sessionId hname, hquiet⟩, rfl, fun _ h => h⟩
      · exact ⟨h, rfl, fun _ h => h⟩
  | closeLink attempt =>
    simp only [command]
    cases hlive : w.live attempt with
    | none => exact ⟨h, rfl, fun _ h => h⟩
    | some link => exact ⟨h.endLink (live_iff.mp hlive).1, rfl, hset _ hlive⟩
  | abort =>
    refine ⟨h.abort, rfl, fun attempt hnone => ?_⟩
    show (w.links attempt).map Link.end = none
    rw [hnone]
    rfl

theorem Consistent.quietAll {commands : List (Command M)}
    (hquiet : ∀ command ∈ commands, command.Quiet w.channel) :
    Consistent cfg (commands.foldl (command cfg) w) ∧
      (commands.foldl (command cfg) w).channel = w.channel ∧
      ∀ attempt, w.links attempt = none →
        (commands.foldl (command cfg) w).links attempt = none := by
  induction commands generalizing w with
  | nil => exact ⟨h, rfl, fun _ h => h⟩
  | cons command rest ih =>
    obtain ⟨h₁, hchannel, hlinks⟩ := h.quiet (hquiet command List.mem_cons_self)
    obtain ⟨h₂, hchannel₂, hlinks₂⟩ := ih h₁ fun other hother => by
      rw [hchannel]
      exact hquiet other (List.mem_cons_of_mem _ hother)
    exact ⟨h₂, hchannel₂.trans hchannel, fun attempt hnone =>
      hlinks₂ attempt (hlinks attempt hnone)⟩

theorem Consistent.channel {c : Channel M} (hnumbered : Numbered c)
    (hsession : c.session = w.channel.session)
    (hreceived : w.channel.receivedThrough ≤ c.receivedThrough) (hsent : w.channel.sent <+: c.sent)
    (hattempts : w.channel.attempts ≤ c.attempts) : Consistent cfg { w with channel := c } := by
  have hgrows : Grows cfg w { w with channel := c } :=
    ⟨fun _ hsome => hsession.trans hsome, hreceived, hsent, fun _ => List.prefix_rfl, fun _ h => h,
      fun _ link hlink => ⟨link, hlink, rfl⟩, fun hnone => (h.numbered.fresh hnone).1⟩
  exact
    { numbered := hnumbered
      unopened := fun attempt hattempt => h.unopened attempt (hattempts.trans hattempt)
      started := fun hsome => lt_of_lt_of_le (h.started (hsession ▸ hsome)) hattempts
      links := fun attempt link hlink => (h.links attempt link hlink).mono hgrows
      settled := fun hsome => h.settled (hsession ▸ hsome)
      packets := fun packet hmem => (h.packets packet hmem).mono hgrows
      sockets := fun attempt socket hsocket => (h.sockets attempt socket hsocket).mono hgrows
      polls := fun poll hmem => hgrows.ours _ (h.polls poll hmem)
      sessions := by
        intro sessionId session hfound hours
        obtain ⟨haccepted, dropped, hretains, hlength, hdropped⟩ :=
          h.sessions sessionId session hfound hours
        refine ⟨?_, dropped, hretains, hlength,
          hdropped.imp_left fun hle => hle.trans (hgrows.cursor sessionId)⟩
        rw [haccepted]
        simp only [hsession]
      known := fun sessionId hsome => h.known sessionId (hsession ▸ hsome)
      foreign := h.foreign
      accepted := h.accepted.trans hsent
      unaccepted := fun hnone => h.unaccepted (hsession ▸ hnone) }

/-- **A turn of the channel** keeps the world consistent. -/
theorem consistent_turn {c : Channel M} {commands : List (Command M)}
    (hturn : Turn w.channel c commands) : Consistent cfg (w.turn cfg (c, commands)) := by
  obtain ⟨quiet, opening, rfl, hquiet, hopening⟩ := hturn.opens
  have hattempts : w.channel.attempts ≤ c.attempts := by
    rcases hopening with ⟨-, heq⟩ | ⟨resume, -, heq, -⟩ <;> omega
  have hmoved : Consistent cfg { w with channel := c } :=
    h.channel (hturn.numbered h.numbered) hturn.session (Nat.le_of_eq hturn.received.symm)
      hturn.sent hattempts
  obtain ⟨hdone, hchannel, hlinks⟩ := hmoved.quietAll hquiet
  show Consistent cfg ((quiet ++ opening).foldl (command cfg) { w with channel := c })
  rw [List.foldl_append]
  rcases hopening with ⟨rfl, -⟩ | ⟨resume, rfl, hnext, hresume, hfirst⟩
  · exact hdone
  · refine hdone.openLink ?_ ?_ ?_ hfirst ?_
    · exact hlinks _ (h.unopened _ (Nat.le_refl _))
    · rw [hchannel]
      show _ < c.attempts
      omega
    · rw [hchannel]
      exact hresume
    · intro hzero
      rw [hchannel]
      show c.session = none
      rw [hturn.session]
      by_contra hsome
      have := h.started hsome
      omega

end Turns

/-! ## What a step does to the messages -/

/-- The server's half is the same. -/
structure World.SameServer (w w' : World M) : Prop where
  threads : w'.threads = w.threads
  accepted : w'.accepted = w.accepted
  dispatched : w'.dispatched = w.dispatched
  enqueued : w'.enqueued = w.enqueued

section Turns

variable (cfg : Config M) {w w' w'' : World M}

theorem World.SameServer.refl (w : World M) : w.SameServer w := ⟨rfl, rfl, rfl, rfl⟩

theorem World.SameServer.trans (h : w.SameServer w') (h' : w'.SameServer w'') : w.SameServer w'' :=
  ⟨h'.threads.trans h.threads, h'.accepted.trans h.accepted, h'.dispatched.trans h.dispatched,
    h'.enqueued.trans h.enqueued⟩

theorem same_command (w : World M) (command : Command M) :
    w.SameServer (w.command cfg command) ∧ (w.command cfg command).channel = w.channel := by
  cases command with
  | openLink attempt resume =>
    simp only [command, World.openLink]
    split <;> exact ⟨⟨rfl, rfl, rfl, rfl⟩, rfl⟩
  | send attempt frame =>
    simp only [command, World.linkSend]
    split
    · split <;> exact ⟨⟨rfl, rfl, rfl, rfl⟩, rfl⟩
    · exact ⟨.refl w, rfl⟩
  | acknowledge attempt through =>
    simp only [command, World.linkAcknowledge]
    split
    · split <;> exact ⟨⟨rfl, rfl, rfl, rfl⟩, rfl⟩
    · exact ⟨.refl w, rfl⟩
  | closeLink attempt =>
    simp only [command]
    split
    · exact ⟨⟨rfl, rfl, rfl, rfl⟩, rfl⟩
    · exact ⟨.refl w, rfl⟩
  | abort => exact ⟨⟨rfl, rfl, rfl, rfl⟩, rfl⟩

theorem same_commands (w : World M) (commands : List (Command M)) :
    w.SameServer (commands.foldl (command cfg) w) ∧
      (commands.foldl (command cfg) w).channel = w.channel := by
  induction commands generalizing w with
  | nil => exact ⟨.refl w, rfl⟩
  | cons command rest ih =>
    obtain ⟨hsame, hchannel⟩ := same_command cfg w command
    obtain ⟨hrest, hchannel'⟩ := ih (w.command cfg command)
    exact ⟨hsame.trans hrest, hchannel'.trans hchannel⟩

theorem same_turn (w : World M) (result : Channel M × List (Command M)) :
    w.SameServer (w.turn cfg result) ∧ (w.turn cfg result).channel = result.1 := by
  obtain ⟨hsame, hchannel⟩ := same_commands cfg { w with channel := result.1 } result.2
  exact ⟨⟨hsame.threads, hsame.accepted, hsame.dispatched, hsame.enqueued⟩, hchannel⟩

end Turns

/-- The listeners' side of the channel is the same; a session, once there, stays. -/
structure Channel.Idle (c c' : Channel M) : Prop where
  delivered : c'.delivered = c.delivered
  received : c'.receivedThrough = c.receivedThrough
  applying : c'.applying = c.applying
  session : c'.session = c.session ∨ c.session = none

theorem Channel.Idle.refl (c : Channel M) : c.Idle c := ⟨rfl, rfl, rfl, .inl rfl⟩

/-- **What one event can do** to the messages of a session. -/
inductive Effect (w : World M) : Event M → World M → Prop where
  | quiet {event w'} (same : w.SameServer w') (idle : w.channel.Idle w'.channel) : Effect w event w'
  /-- A frame is accepted, the next one of its session. -/
  | accept {index : Nat} {fresh sessionId : String} {attempt : Nat} {session : ReliableSession M}
      {w'} (thread : Thread M)
      (arrived : w.wire[index]? = some (.upload attempt sessionId thread.frame))
      (found : w.registry sessionId = some session)
      (next : thread.frame.sequence = session.lastClientSequence + 1)
      (threads : w'.threads = w.threads ++ [thread])
      (accepted : w'.accepted = w.accepted ++ [thread.frame.message])
      (dispatched : w'.dispatched = w.dispatched) (enqueued : w'.enqueued = w.enqueued)
      (idle : w.channel.Idle w'.channel) : Effect w (.deliver index fresh) w'
  /-- A frame is handed on. -/
  | hand {index : Nat} {ok : Bool} {w'} (thread : Thread M)
      (waiting : w.threads[index]? = some thread)
      (threads : w'.threads = w.threads.eraseIdx index) (accepted : w'.accepted = w.accepted)
      (dispatched : w'.dispatched = w.dispatched ++ [thread.frame.message])
      (enqueued : w'.enqueued = w.enqueued) (idle : w.channel.Idle w'.channel) :
      Effect w (.handOff index ok) w'
  | enqueue {sessionId : String} {message : M} {w'} (threads : w'.threads = w.threads)
      (accepted : w'.accepted = w.accepted) (dispatched : w'.dispatched = w.dispatched)
      (enqueued : w'.enqueued =
        Function.update w.enqueued sessionId (w.enqueued sessionId ++ [message]))
      (idle : w.channel.Idle w'.channel) : Effect w (.enqueue sessionId message) w'
  /-- The next message is passed to the listeners. -/
  | pass {event w'} {sessionId : String} {frame : Frame M} (same : w.SameServer w')
      (session : w.channel.session = some sessionId)
      (enqueued : FrameOf (w.enqueued sessionId) frame) (idle : w.channel.applying = none)
      (next : frame.sequence = w.channel.receivedThrough + 1)
      (channel : w'.channel = { w.channel with
        delivered := w.channel.delivered ++ [frame.message], applying := some frame.sequence }) :
      Effect w event w'
  /-- The listeners return. -/
  | apply {threw : Bool} {sequence : Nat} {w'} (same : w.SameServer w')
      (handled : w.channel.applying = some sequence)
      (channel : w'.channel = if threw then { w.channel with applying := none }
        else { w.channel with applying := none, receivedThrough := sequence }) :
      Effect w (.applied threw) w'

/-- **What an event leads to**: a consistent world, and one of the effects. -/
structure Sound (cfg : Config M) (w : World M) (event : Event M) (w' : World M) : Prop where
  consistent : Consistent cfg w'
  effect : Effect w event w'

section Steps

variable {cfg : Config M} {w w₁ w' : World M} {event : Event M} {attempt : Nat}

theorem Sound.same (h : Consistent cfg w') (hsame : w.SameServer w')
    (hchannel : w'.channel = w.channel) : Sound cfg w event w' :=
  ⟨h, .quiet hsame (hchannel.symm ▸ .refl _)⟩

theorem Sound.put (h : Consistent cfg w) (hpacket : PacketOk cfg w packet) :
    Sound cfg w event (w.put packet) := .same (h.put hpacket) ⟨rfl, rfl, rfl, rfl⟩ rfl

theorem Sound.turn (h : Consistent cfg w₁) {c : Channel M} {commands : List (Command M)}
    (hturn : Turn w₁.channel c commands) (hsame : w.SameServer w₁)
    (hidle : w.channel.Idle w₁.channel) : Sound cfg w event (w₁.turn cfg (c, commands)) := by
  obtain ⟨hturned, hchannel⟩ := same_turn cfg w₁ (c, commands)
  refine ⟨consistent_turn h hturn, .quiet (hsame.trans hturned) ?_⟩
  rw [hchannel]
  exact ⟨hturn.delivered.trans hidle.delivered, hturn.received.trans hidle.received,
    hturn.applying.trans hidle.applying, hturn.session ▸ hidle.session⟩

end Steps

/-! ## The client receives -/

section Client

variable {cfg : Config M} {w w' : World M} {attempt : Nat} {link : Link M} {event : Event M}
  (h : Consistent cfg w)
include h

theorem Consistent.passed (hsession : w.channel.session ≠ none)
    (hnext : frame.sequence = w.channel.receivedThrough + 1) :
    Consistent cfg { w with channel := { w.channel with
      delivered := w.channel.delivered ++ [frame.message], applying := some frame.sequence } } := by
  refine h.channel ⟨h.numbered.next, h.numbered.unacknowledged, ?_, fun hnone => ?_⟩ rfl
    (Nat.le_refl _) List.prefix_rfl (Nat.le_refl _)
  · rintro sequence ⟨⟩
    exact hnext
  · exact absurd hnone hsession

theorem Consistent.acknowledged (sequence : Nat) :
    Consistent cfg { w with channel := w.channel.acknowledge sequence } :=
  h.channel ⟨h.numbered.next, fun frame hframe => h.numbered.unacknowledged frame
    ((List.dropWhile_sublist _).subset hframe), h.numbered.applying, h.numbered.fresh⟩ rfl
    (Nat.le_refl _) List.prefix_rfl (Nat.le_refl _)

section Live

variable (hlive : w.live attempt = some link)
include hlive

variable {sessionId : String}

theorem Consistent.opening (hunnamed : link.sessionId = none)
    (hresume : ∀ r, link.resume = some r → sessionId = r.sessionId) :
    w.channel.session = none ∧ attempt = 0 ∨ w.channel.session = some sessionId := by
  obtain ⟨hlink, hended, hok⟩ := h.of_live hlive
  cases hr : link.resume with
  | some r => exact .inr (by rw [hok.resumes r hr, hresume r hr])
  | none =>
    have hfirst := hok.first hr
    subst hfirst
    refine .inl ⟨?_, rfl⟩
    by_contra hsome
    rw [h.settled hsome link hlink hunnamed] at hended
    cases hended

theorem Consistent.learn (hunnamed : link.sessionId = none)
    (hresume : ∀ r, link.resume = some r → sessionId = r.sessionId) (hours : w.Ours cfg sessionId) :
    Consistent cfg { w.setLink attempt { link with sessionId := some sessionId } with
      channel := { w.channel with session := some sessionId } } := by
  obtain ⟨hlink, hended, hok⟩ := h.of_live hlive
  rcases h.opening hlive hunnamed hresume with ⟨hnone, rfl⟩ | hsome
  · -- the first link: no other one is open, and nothing has been accepted or received
    obtain ⟨hreceived, happlying⟩ := h.numbered.fresh hnone
    have haccepted := h.unaccepted hnone
    have hgrows : Grows cfg w { w.setLink 0 { link with sessionId := some sessionId } with
        channel := { w.channel with session := some sessionId } } := by
      refine ⟨fun _ hsome => ?_, Nat.le_refl _, List.prefix_rfl, fun _ => List.prefix_rfl,
        fun _ h => h, fun other old hold => ?_, fun hnone => (h.numbered.fresh hnone).1⟩
      · rw [hnone] at hsome
        cases hsome
      · simp only [World.setLink, Function.update_apply]
        split
        · rename_i heq
          subst heq
          rw [hlink] at hold
          cases hold
          exact ⟨_, rfl, rfl⟩
        · exact ⟨old, hold, rfl⟩
    refine
      { numbered := ⟨h.numbered.next, h.numbered.unacknowledged, h.numbered.applying,
          nofun⟩
        unopened := fun other hother => ?_
        started := fun _ => ?_
        links := fun other found hfound => ?_
        settled := fun _ found hfound hunnamed => ?_
        packets := fun packet hmem => (h.packets packet hmem).mono hgrows
        sockets := fun other socket hsocket => (h.sockets other socket hsocket).mono hgrows
        polls := fun poll hmem => hgrows.ours _ (h.polls poll hmem)
        sessions := fun other session hfound hmine => ?_
        known := ?_
        foreign := h.foreign
        accepted := h.accepted
        unaccepted := fun hn => nomatch hn }
    · have hopened := h.lt_attempts hlink
      exact (Function.update_of_ne (by simp only at hother; omega) ..).trans
        (h.unopened other hother)
    · exact h.lt_attempts hlink
    · simp only [World.setLink, Function.update_apply] at hfound
      split at hfound
      · rename_i heq
        subst heq
        cases hfound
        refine ⟨hok.first, fun r hr => ?_, fun _ name hname => hname, hok.uploads, hok.cursor⟩
        have hsession := hok.resumes r hr
        rw [hnone] at hsession
        cases hsession
      · exact (h.links other found hfound).mono hgrows
    · simp only [World.setLink, Function.update_apply] at hfound
      rw [if_pos trivial] at hfound
      cases hfound
      cases hunnamed
    · obtain ⟨hlast, dropped, hretains, hlength, hdropped⟩ := h.sessions other session hfound hmine
      refine ⟨?_, dropped, hretains, hlength,
        hdropped.imp_left fun hle => hle.trans (hgrows.cursor other)⟩
      rw [hlast, if_neg (by rw [hnone]; simp)]
      show 0 = if some sessionId = some other then w.accepted.length else 0
      rw [haccepted]
      split <;> rfl
    · rintro other ⟨⟩
      exact hours
  · -- a link to the session the channel has
    have hchannel : { w.channel with session := some sessionId } = w.channel := by rw [← hsome]
    rw [hchannel]
    refine h.setLink hlink rfl ⟨hok.first, hok.resumes, ?_, hok.uploads, hok.cursor⟩ ?_
    · rintro - name ⟨⟩
      exact hsome
    · rintro - - ⟨⟩

theorem sound_opened (hunnamed : link.sessionId = none)
    (hresume : ∀ r, link.resume = some r → sessionId = r.sessionId) (hours : w.Ours cfg sessionId)
    (peerReceivedThrough : Nat) :
    Sound cfg w event (w.opened cfg attempt link sessionId peerReceivedThrough) := by
  by_cases hunwanted : w.channel.ended ∨ w.channel.currentAttempt ≠ some attempt
  · -- the link is closed at once, whatever it was opened to
    obtain ⟨hlink, hended, hok⟩ := h.of_live hlive
    have hclosed : Consistent cfg
        (w.setLink attempt { link with sessionId := some sessionId, ended := true }) :=
      h.setLink hlink rfl ⟨hok.first, hok.resumes, nofun, hok.uploads,
        hok.cursor⟩ fun _ _ _ => rfl
    have heq : w.opened cfg attempt link sessionId peerReceivedThrough =
        World.turn cfg (w.setLink attempt { link with sessionId := some sessionId, ended := true })
          (w.channel.openFailed attempt link.resume .interrupted) := by
      unfold World.opened Channel.opened
      rw [if_pos hunwanted]
      simp only [World.turn, List.foldl_cons, command]
      have hopen : World.live { w.setLink attempt { link with sessionId := some sessionId } with
          channel := (w.channel.openFailed attempt link.resume .interrupted).1 } attempt =
          some { link with sessionId := some sessionId } :=
        live_iff.mpr ⟨Function.update_self .., hended⟩
      rw [hopen]
      simp only [World.setLink, Function.update_idem]
      rfl
    rw [heq]
    exact .turn hclosed (turn_openFailed w.channel attempt link.resume .interrupted)
      ⟨rfl, rfl, rfl, rfl⟩ (.refl _)
  · refine .turn (h.learn hlive hunnamed hresume hours)
      (turn_opened h.numbered link.resume sessionId peerReceivedThrough hunwanted)
      ⟨rfl, rfl, rfl, rfl⟩ ⟨rfl, rfl, rfl, ?_⟩
    rcases h.opening hlive hunnamed hresume with ⟨hnone, -⟩ | hsome
    · exact .inr hnone
    · exact .inl hsome.symm

theorem sound_linkEnds
    (kind : CloseKind) : Sound cfg w event (w.linkEnds cfg attempt link kind) := by
  have hended := h.endLink (live_iff.mp hlive).1
  unfold World.linkEnds
  simp only
  split
  · exact .turn hended (turn_openFailed _ attempt link.resume kind) ⟨rfl, rfl, rfl, rfl⟩ (.refl _)
  · split
    · exact .turn hended (turn_linkClosed _ kind) ⟨rfl, rfl, rfl, rfl⟩ (.refl _)
    · exact .same hended ⟨rfl, rfl, rfl, rfl⟩ rfl

theorem sound_receiveFrame (hframe : FrameOf (w.enqueued sessionId) frame)
    (hidle : w.channel.applying = none)
    (hstep : w.receiveFrame cfg attempt link sessionId frame = some w') : Sound cfg w event w' := by
  unfold World.receiveFrame at hstep
  split at hstep
  · cases hstep
  · rename_i hname
    split at hstep
    · cases hstep
      exact .same h (.refl w) rfl
    · split at hstep
      · cases hstep
        obtain ⟨hlink, hended⟩ := live_iff.mp hlive
        have hsession := (h.links attempt link hlink).named hended sessionId (not_not.mp hname)
        rcases receive_cases w.channel frame with hturn | ⟨hnext, heq⟩
        · exact .turn h hturn (.refl w) (.refl _)
        · rw [heq]
          exact ⟨h.passed (by simp [hsession]) hnext,
            .pass ⟨rfl, rfl, rfl, rfl⟩ hsession hframe hidle hnext rfl⟩
      · cases hstep
        exact .same h (.refl w) rfl

theorem sound_receiveUploaded {sequence : Nat}
    (hstep : w.receiveUploaded cfg attempt link sequence = some w') : Sound cfg w event w' := by
  obtain ⟨hlink, hended, hok⟩ := h.of_live hlive
  have hrest : Consistent cfg (w.setLink attempt { link with uploads := link.uploads.tail }) :=
    h.adjust hlink (fun frame hframe => hok.uploads frame (List.mem_of_mem_tail hframe)) hok.cursor
  unfold World.receiveUploaded at hstep
  simp only at hstep
  split at hstep
  · cases hstep
    split
    · exact ⟨h.acknowledged sequence, .quiet ⟨rfl, rfl, rfl, rfl⟩ ⟨rfl, rfl, rfl, .inl rfl⟩⟩
    · exact .same h (.refl w) rfl
  · split at hstep
    · cases hstep
      split
      · exact ⟨hrest.acknowledged sequence, .quiet ⟨rfl, rfl, rfl, rfl⟩ ⟨rfl, rfl, rfl, .inl rfl⟩⟩
      · exact .same hrest ⟨rfl, rfl, rfl, rfl⟩ rfl
    · cases hstep

end Live

/-- **A packet arrives at the client.** -/
theorem sound_clientReceives (hpacket : PacketOk cfg w packet)
    (hstep : w.clientReceives cfg packet = some w') : Sound cfg w event w' := by
  unfold World.clientReceives at hstep
  split at hstep
  · cases hstep
  · rename_i hidle
    cases packet <;> simp only [Option.bind_eq_bind, Option.bind_eq_some_iff, reduceCtorEq] at hstep
    case ready attempt sessionId receivedThrough =>
      obtain ⟨link, hlive, hstep⟩ := hstep
      split at hstep
      · cases hstep
      · rename_i hunnamed
        cases hstep
        obtain ⟨hours, found, hfound, hresume⟩ := hpacket
        rw [(live_iff.mp hlive).1] at hfound
        cases hfound
        exact sound_opened h hlive (by simpa using hunnamed) hresume hours _
    case frame attempt sessionId frame =>
      obtain ⟨link, hlive, hstep⟩ := hstep
      exact sound_receiveFrame h hlive hpacket (by simpa using hidle) hstep
    case uploaded attempt sequence =>
      obtain ⟨link, hlive, hstep⟩ := hstep
      exact sound_receiveUploaded h hlive hstep
    case refused attempt kind =>
      obtain ⟨link, hlive, hstep⟩ := hstep
      cases hstep
      exact sound_linkEnds h hlive kind

end Client

/-! ## The server receives -/

variable {attempt : Nat}

section Server

variable {cfg : Config M} {w w' : World M} {sessionId : String} {session : ReliableSession M}
  {event : Event M}

theorem cursor_of_session (hsession : w.channel.session = some sessionId) :
    w.cursor sessionId = w.channel.receivedThrough := if_pos hsession

variable (h : Consistent cfg w)
include h

theorem Consistent.insert (session : ReliableSession M) (enqueued : String → List M)
    (accepted : List M) (threads : List (Thread M))
    (hmine : session.connectionId = cfg.connectionId)
    (hothers : ∀ other, other ≠ sessionId → enqueued other = w.enqueued other)
    (hself : w.enqueued sessionId <+: enqueued sessionId) (hsent : accepted <+: w.channel.sent)
    (hlast : accepted = w.accepted ∨ w.channel.session = some sessionId)
    (hok : SessionOk { w with enqueued, accepted } sessionId session) :
    Consistent cfg { w with
      registry := w.registry.insert sessionId session, enqueued, accepted, threads } := by
  have hours : ∀ other, w.Ours cfg other ∨ other = sessionId →
      World.Ours cfg { w with registry := w.registry.insert sessionId session } other := by
    intro other hother
    by_cases heq : other = sessionId
    · exact ⟨session, heq ▸ insert_self .., hmine⟩
    · obtain ⟨old, hold, hconnection⟩ := hother.resolve_right heq
      exact ⟨old, (insert_of_ne _ heq _).trans hold, hconnection⟩
  have hgrows : Grows cfg w { w with
      registry := w.registry.insert sessionId session, enqueued, accepted, threads } := by
    refine ⟨fun _ h => h, Nat.le_refl _, List.prefix_rfl, fun other => ?_,
      fun other hother => hours other (.inl hother), fun _ link hlink => ⟨link, hlink, rfl⟩,
      fun hnone => (h.numbered.fresh hnone).1⟩
    by_cases heq : other = sessionId
    · exact heq ▸ hself
    · exact (hothers other heq).symm ▸ List.prefix_rfl
  refine
    { numbered := h.numbered
      unopened := h.unopened
      started := h.started
      links := fun attempt link hlink => (h.links attempt link hlink).mono hgrows
      settled := h.settled
      packets := fun packet hmem => (h.packets packet hmem).mono hgrows
      sockets := fun attempt socket hsocket => (h.sockets attempt socket hsocket).mono hgrows
      polls := fun poll hmem => hgrows.ours _ (h.polls poll hmem)
      sessions := fun other found hfound hconnection => ?_
      known := fun other hsome => hours other (.inl (h.known other hsome))
      foreign := fun other hforeign => ?_
      accepted := hsent
      unaccepted := fun hnone => ?_ }
  · by_cases heq : other = sessionId
    · subst heq
      cases (insert_self ..).symm.trans hfound
      exact ⟨hok.accepted, hok.retains⟩
    · have hfound := (insert_of_ne _ heq _).symm.trans hfound
      obtain ⟨hcount, dropped, hretains, hlength, hdropped⟩ :=
        h.sessions other found hfound hconnection
      refine ⟨?_, dropped, ?_, ?_, ?_⟩
      · rw [hcount]
        show (if w.channel.session = some other then w.accepted.length else 0) =
          if w.channel.session = some other then accepted.length else 0
        rcases hlast with rfl | hlast
        · rfl
        · rw [hlast, if_neg (by simpa using Ne.symm heq), if_neg (by simpa using Ne.symm heq)]
      · show Retains (enqueued other) dropped found
        rwa [hothers other heq]
      · show (enqueued other).length ≤ _
        rwa [hothers other heq]
      · show _ ∨ _ = (enqueued other).length
        rwa [hothers other heq]
  · show enqueued other = []
    have hne : other ≠ sessionId := fun heq => hforeign (hours other (.inr heq))
    rw [hothers other hne]
    exact h.foreign other fun hother => hforeign (hours other (.inl hother))
  · rcases hlast with rfl | hlast
    · exact h.unaccepted hnone
    · have hnone : w.channel.session = none := hnone
      rw [hlast] at hnone
      cases hnone

theorem Consistent.replace (hmine : session.connectionId = cfg.connectionId)
    (hok : SessionOk w sessionId session) :
    Consistent cfg { w with registry := w.registry.insert sessionId session } :=
  h.insert session w.enqueued w.accepted w.threads hmine (fun _ _ => rfl) List.prefix_rfl h.accepted
    (.inl rfl) ⟨hok.accepted, hok.retains⟩

/-- A new session. -/
theorem Consistent.open (hfresh : w.registry sessionId = none) :
    Consistent cfg { w with registry := w.registry.open cfg.connectionId sessionId } := by
  have hforeign : ¬ w.Ours cfg sessionId := by
    rintro ⟨found, hfound, -⟩
    rw [hfresh] at hfound
    cases hfound
  refine h.replace rfl ⟨?_, 0, ?_, ?_, .inl (Nat.zero_le _)⟩
  · rw [if_neg fun hsome => hforeign (h.known sessionId hsome)]
  · rw [h.foreign sessionId hforeign]
    exact retains_open _
  · rw [h.foreign sessionId hforeign]
    exact Nat.zero_le _

theorem Consistent.acknowledge (hours : w.Ours cfg sessionId) {through : Nat}
    (hthrough : through ≤ w.cursor sessionId) {registry : Registry M}
    (hacknowledged : w.registry.acknowledge sessionId through = .ok registry) :
    Consistent cfg { w with registry } := by
  obtain ⟨session, hsession, hmine⟩ := hours
  obtain ⟨hcount, dropped, hretains, hlength, hdropped⟩ :=
    h.sessions sessionId session hsession hmine
  obtain ⟨session', rfl, hretains', hconnection, hlast⟩ :=
    retains_acknowledge hretains hsession hacknowledged
  refine h.replace (hconnection.trans hmine) ⟨hlast.trans hcount, _, hretains', ?_, ?_⟩
  · omega
  · rcases hdropped with hdropped | hdropped
    · left
      omega
    · by_cases hle : dropped ≤ min through (w.enqueued sessionId).length
      · left
        omega
      · right
        omega

theorem sound_acknowledge (hours : w.Ours cfg sessionId) {through : Nat}
    (hthrough : through ≤ w.cursor sessionId) (attempt : Nat) {andThen : World M → World M}
    (hthen : ∀ registry, Consistent cfg { w with registry } →
      Sound cfg w event (andThen { w with registry })) :
    Sound cfg w event (w.acknowledge attempt sessionId through andThen) := by
  unfold World.acknowledge
  split
  · rename_i registry hok
    exact hthen registry (h.acknowledge hours hthrough hok)
  · exact .put h trivial

/-- **A client frame**: if it is accepted it is the next message the channel was asked to send. -/
theorem sound_receiveUpload {index : Nat} {fresh : String}
    (harrived : w.wire[index]? = some (.upload attempt sessionId frame)) :
    Sound cfg w (.deliver index fresh) (w.receiveUpload cfg attempt sessionId frame) := by
  obtain ⟨hsession, hframe⟩ := h.packets _ (List.mem_of_getElem? harrived)
  obtain ⟨session, hfound, hmine⟩ := h.known sessionId hsession
  obtain ⟨hcount, dropped, hretains, hlength, hdropped⟩ := h.sessions sessionId session hfound hmine
  rw [if_pos hsession] at hcount
  unfold World.receiveUpload
  rw [acceptClientFrame_own hfound hmine]
  by_cases hold : frame.sequence ≤ session.lastClientSequence
  · rw [if_pos hold]
    exact .put h trivial
  · by_cases hgap : frame.sequence = session.lastClientSequence + 1
    · rw [if_neg hold, if_neg (not_not.mpr hgap)]
      have hnext := h.insert { session with lastClientSequence := frame.sequence } w.enqueued
        (w.accepted ++ [frame.message]) (w.threads ++ [⟨attempt, frame,
          cfg.carrier = .webSocket || cfg.authenticates frame.message⟩]) hmine
        (fun _ _ => rfl) List.prefix_rfl ?sent (.inr hsession)
        ⟨?count, dropped, ⟨hretains.next, hretains.frames, hretains.dropped_le⟩, hlength, hdropped⟩
      case sent =>
        have htake := hframe.take_succ (hgap.trans (by rw [hcount]))
        rw [← List.prefix_iff_eq_take.mp h.accepted] at htake
        exact htake ▸ List.take_prefix ..
      case count =>
        show frame.sequence = if w.channel.session = some sessionId then
          (w.accepted ++ [frame.message]).length else 0
        rw [if_pos hsession, List.length_append, List.length_singleton, hgap, hcount]
      simp only
      split
      · exact ⟨hnext.put trivial,
          .accept ⟨attempt, frame, _⟩ harrived hfound hgap rfl rfl rfl rfl (.refl _)⟩
      · exact ⟨hnext, .accept ⟨attempt, frame, _⟩ harrived hfound hgap rfl rfl rfl rfl (.refl _)⟩
    · rw [if_neg hold, if_pos hgap]
      exact .put h trivial

theorem Consistent.setSocket (hok : SocketOk cfg w attempt socket) :
    Consistent cfg (w.setSocket attempt socket) := by
  refine h.aside h.packets (fun other found hfound => ?_) h.polls w.threads w.dispatched
  simp only [Function.update_apply] at hfound
  split at hfound
  · rename_i heq
    subst heq
    cases hfound
    exact hok
  · exact h.sockets other found hfound

theorem Consistent.attach (hfound : w.registry sessionId = some session)
    (hmine : session.connectionId = cfg.connectionId) (linkEpoch : Nat) :
    Consistent cfg
      { w with registry := w.registry.insert sessionId { session with linkEpoch } } := by
  obtain ⟨hcount, dropped, hretains, hrest⟩ := h.sessions sessionId session hfound hmine
  exact h.replace hmine
    ⟨hcount, dropped, ⟨hretains.next, hretains.frames, hretains.dropped_le⟩, hrest⟩

theorem sound_receiveHello {receivedThrough : Nat} {resume : Option String} {fresh : String}
    (hpacket : PacketOk cfg w (.hello attempt resume receivedThrough))
    (hfresh : w.registry fresh = none)
    (hstep : w.receiveHello cfg attempt resume receivedThrough fresh = some w') :
    Sound cfg w event w' := by
  obtain ⟨⟨link, hlink, hresume⟩, hsession, hzero, hreceived⟩ := hpacket
  unfold World.receiveHello at hstep
  split at hstep
  · cases hstep
  · cases resume with
    | none =>
      rw [attachLink_new] at hstep
      cases hstep
      have hnew := (h.open hfresh).attach (insert_self ..) rfl 1
      refine .same (hnew.setSocket ⟨⟨_, insert_self .., rfl⟩,
        ⟨link, hlink, fun r hr => ?_⟩, fun _ => ?_, nofun⟩) ⟨rfl, rfl, rfl, rfl⟩ rfl
      · rw [hr] at hresume
        cases hresume
      · rw [hzero rfl]
        exact Nat.zero_le _
    | some sessionId =>
      have hsession := hsession sessionId rfl
      obtain ⟨session, hfound, hmine⟩ := h.known sessionId hsession
      rw [attachLink_resume hfound hmine] at hstep
      cases hstep
      refine .same ((h.attach hfound hmine _).setSocket ⟨⟨_, insert_self .., hmine⟩,
        ⟨link, hlink, fun r hr => ?_⟩, fun _ => ?_, nofun⟩)
        ⟨rfl, rfl, rfl, rfl⟩ rfl
      · rw [hr] at hresume
        exact Option.some.inj hresume
      · show receivedThrough ≤ World.cursor _ sessionId
        rw [World.cursor, if_pos hsession]
        exact hreceived

/-- **A packet arrives at the server.** -/
theorem sound_serverReceives {index : Nat} {fresh : String}
    (harrived : w.wire[index]? = some packet)
    (hstep : w.serverReceives cfg packet fresh = some w') :
    Sound cfg w (.deliver index fresh) w' := by
  have hpacket := h.packets _ (List.mem_of_getElem? harrived)
  cases packet with
  | openSession attempt =>
    simp only [World.serverReceives] at hstep
    split at hstep
    · cases hstep
    · rename_i hfresh
      cases hstep
      obtain ⟨link, hlink, hresume⟩ := hpacket
      refine .same ((h.open (by simpa using hfresh)).put ⟨⟨_, insert_self .., rfl⟩, link,
        hlink, fun r hr => ?_⟩) ⟨rfl, rfl, rfl, rfl⟩ rfl
      rw [hresume] at hr
      cases hr
  | hello attempt resume receivedThrough =>
    simp only [World.serverReceives] at hstep
    split at hstep
    · cases hstep
    · rename_i hfresh
      exact sound_receiveHello h hpacket (by simpa using hfresh) hstep
  | upload attempt sessionId frame =>
    cases hstep
    exact sound_receiveUpload h harrived
  | acknowledge attempt sessionId through =>
    cases hstep
    exact sound_acknowledge h (h.known _ hpacket.1) (cursor_of_session hpacket.1 ▸ hpacket.2)
      attempt fun _ hdone => .same hdone ⟨rfl, rfl, rfl, rfl⟩ rfl
  | poll attempt sessionId after =>
    simp only [World.serverReceives] at hstep
    split at hstep
    · cases hstep
      refine sound_acknowledge h (h.known _ hpacket.1)
        (cursor_of_session hpacket.1 ▸ hpacket.2) attempt fun registry hdone => ?_
      refine .same (hdone.aside hdone.packets hdone.sockets (fun poll hmem => ?_) w.threads
        w.dispatched) ⟨rfl, rfl, rfl, rfl⟩ rfl
      rcases List.mem_append.mp hmem with hold | hnew
      · exact hdone.polls poll hold
      · rw [List.mem_singleton.mp hnew]
        exact hdone.known sessionId hpacket.1
    · cases hstep
      exact .put h trivial
  | _ => cases hstep

end Server

/-! ## Steps and runs -/

section Steps

variable {cfg : Config M} {w w₁ w' : World M} {sessionId : String} {event : Event M}

theorem sound_replay (h : Consistent cfg w₁) (hours : w₁.Ours cfg sessionId)
    (attempt after : Nat) (hsame : w.SameServer w₁) (hchannel : w₁.channel = w.channel) :
    Sound cfg w event (w₁.replay attempt sessionId after) := by
  obtain ⟨session, hfound, hmine⟩ := hours
  obtain ⟨-, dropped, hretains, -⟩ := h.sessions sessionId session hfound hmine
  unfold World.replay
  split
  · rename_i frames hframes
    refine .same (h.putAll fun packet hmem => ?_) (hsame.trans ⟨rfl, rfl, rfl, rfl⟩) hchannel
    obtain ⟨frame, hframe, rfl⟩ := List.mem_map.mp hmem
    exact frameOf_framesAfter hretains hfound hframes frame hframe
  · exact .same (h.put trivial) (hsame.trans ⟨rfl, rfl, rfl, rfl⟩) hchannel

theorem sound_handOff (h : Consistent cfg w) {index : Nat} {ok : Bool}
    (hstep : w.handOff cfg index ok = some w') : Sound cfg w (.handOff index ok) w' := by
  simp only [World.handOff, Option.bind_eq_bind, Option.bind_eq_some_iff] at hstep
  obtain ⟨thread, hthread, hstep⟩ := hstep
  have hdone := h.aside h.packets h.sockets h.polls (w.threads.eraseIdx index)
    (w.dispatched ++ [thread.frame.message])
  have hhand : ∀ {w'}, w'.threads = w.threads.eraseIdx index → w'.accepted = w.accepted →
      w'.dispatched = w.dispatched ++ [thread.frame.message] → w'.enqueued = w.enqueued →
      w'.channel = w.channel → Effect w (.handOff index ok) w' := fun ht ha hd he hc =>
    .hand thread hthread ht ha hd he (hc.symm ▸ .refl _)
  split at hstep
  · cases hstep
    split
    · exact ⟨hdone, hhand rfl rfl rfl rfl rfl⟩
    · exact ⟨hdone.put trivial, hhand rfl rfl rfl rfl rfl⟩
  · split at hstep
    · cases hstep
      exact ⟨hdone, hhand rfl rfl rfl rfl rfl⟩
    · cases hstep
      exact ⟨hdone.put trivial, hhand rfl rfl rfl rfl rfl⟩

theorem consistent_enqueue (h : Consistent cfg w) {session : ReliableSession M}
    (hfound : w.registry sessionId = some session) (hmine : session.connectionId = cfg.connectionId)
    (message : M) : Consistent cfg { w with
      registry := w.registry.insert sessionId (enqueued session message)
      enqueued := Function.update w.enqueued sessionId (w.enqueued sessionId ++ [message]) } := by
  obtain ⟨hcount, dropped, hretains, hlength, hdropped⟩ := h.sessions sessionId session hfound hmine
  have hle := hretains.dropped_le
  have hself : Function.update w.enqueued sessionId (w.enqueued sessionId ++ [message]) sessionId =
      w.enqueued sessionId ++ [message] := Function.update_self ..
  have hmore : (Function.update w.enqueued sessionId (w.enqueued sessionId ++ [message])
      sessionId).length = (w.enqueued sessionId).length + 1 := by
    rw [hself, List.length_append, List.length_singleton]
  -- the window was full, or nothing goes
  obtain ⟨dropped', hretains', hlength', hdropped'⟩ : ∃ dropped',
      Retains (w.enqueued sessionId ++ [message]) dropped' (enqueued session message) ∧
      (w.enqueued sessionId).length + 1 ≤ dropped' + MAX_SERVER_REPLAY_FRAMES ∧
      (dropped' ≤ w.cursor sessionId ∨
        dropped' + MAX_SERVER_REPLAY_FRAMES = (w.enqueued sessionId).length + 1) := by
    refine ⟨_, retains_enqueue hretains message, ?_, ?_⟩ <;> split <;> omega
  have hothers : ∀ other, other ≠ sessionId → Function.update w.enqueued sessionId
      (w.enqueued sessionId ++ [message]) other = w.enqueued other :=
    fun other hother => Function.update_of_ne hother ..
  generalize Function.update w.enqueued sessionId (w.enqueued sessionId ++ [message]) = enqueued
    at hself hmore hothers ⊢
  rw [← hself] at hretains'
  rw [← hmore] at hlength' hdropped'
  exact h.insert _ enqueued w.accepted w.threads hmine hothers (hself ▸ List.prefix_append ..)
    h.accepted (.inl rfl) ⟨hcount, dropped', hretains', hlength', hdropped'⟩

theorem sound_push (h : Consistent cfg w) (hsocket : w.sockets attempt = some socket)
    (hpumping : socket.pumping = true) : Sound cfg w event (w.push attempt socket) := by
  have hok := h.sockets attempt socket hsocket
  have hwritten : ∀ writtenThrough,
      SocketOk cfg w attempt { socket with writtenThrough, pumping := false } := by
    refine fun writtenThrough => ⟨hok.ours, hok.link, fun hbound => ?_, nofun⟩
    rw [show socket.bound = true from hok.pumped hpumping] at hbound
    cases hbound
  exact sound_replay (h.setSocket (hwritten _)) hok.ours attempt _ ⟨rfl, rfl, rfl, rfl⟩ rfl

theorem sound_bind (h : Consistent cfg w) (hsocket : w.sockets attempt = some socket)
    (hbound : socket.bound = false) :
    Sound cfg w event (w.acknowledge attempt socket.attached.sessionId
      socket.writtenThrough fun w => (w.setSocket attempt { socket with bound := true }).put
        (.ready attempt socket.attached.sessionId socket.attached.lastClientSequence)) := by
  have hok := h.sockets attempt socket hsocket
  refine sound_acknowledge h hok.ours (hok.greeted hbound) attempt fun registry hdone => ?_
  have hok := hdone.sockets attempt socket hsocket
  have hbound : SocketOk cfg { w with registry } attempt { socket with bound := true } :=
    ⟨hok.ours, hok.link, nofun, fun _ => rfl⟩
  exact .same ((hdone.setSocket hbound).put ⟨hok.ours, hok.link⟩) ⟨rfl, rfl, rfl, rfl⟩ rfl

theorem consistent_elsewhere (h : Consistent cfg w) {session : ReliableSession M}
    (hother : (w.registry sessionId).all (·.connectionId ≠ cfg.connectionId))
    (hsession : session.connectionId ≠ cfg.connectionId) :
    Consistent cfg { w with registry := w.registry.insert sessionId session } := by
  have hours : ∀ other,
      World.Ours cfg { w with registry := w.registry.insert sessionId session } other
      ↔ w.Ours cfg other := by
    intro other
    by_cases heq : other = sessionId
    · subst heq
      constructor
      · rintro ⟨found, hfound, hmine⟩
        cases (insert_self ..).symm.trans hfound
        exact absurd hmine hsession
      · rintro ⟨found, hfound, hmine⟩
        rw [hfound] at hother
        simp [hmine] at hother
    · unfold World.Ours
      simp only [insert_of_ne _ heq]
  have hgrows : Grows cfg w { w with registry := w.registry.insert sessionId session } :=
    ⟨fun _ h => h, Nat.le_refl _, List.prefix_rfl, fun _ => List.prefix_rfl,
      fun other => (hours other).mpr, fun _ link hlink => ⟨link, hlink, rfl⟩,
      fun hnone => (h.numbered.fresh hnone).1⟩
  exact
    { numbered := h.numbered
      unopened := h.unopened
      started := h.started
      links := fun attempt link hlink => (h.links attempt link hlink).mono hgrows
      settled := h.settled
      packets := fun packet hmem => (h.packets packet hmem).mono hgrows
      sockets := fun attempt socket hsocket => (h.sockets attempt socket hsocket).mono hgrows
      polls := fun poll hmem => hgrows.ours _ (h.polls poll hmem)
      sessions := by
        intro other found hfound hmine
        by_cases heq : other = sessionId
        · subst heq
          cases (insert_self ..).symm.trans hfound
          exact absurd hmine hsession
        · have hok := h.sessions other found ((insert_of_ne _ heq _).symm.trans hfound)
            hmine
          exact ⟨hok.accepted, hok.retains⟩
      known := fun other hsome => (hours other).mpr (h.known other hsome)
      foreign := fun other hforeign => h.foreign other fun h => hforeign ((hours other).mpr h)
      accepted := h.accepted
      unaccepted := h.unaccepted }

theorem sound_applied (h : Consistent cfg w) (threw : Bool) :
    Sound cfg w (.applied threw) (w.turn cfg (w.channel.applied threw)) := by
  obtain ⟨hsame, hchannel⟩ := same_turn cfg w (w.channel.applied threw)
  rcases applied_cases w.channel threw with
    ⟨-, heq⟩ | ⟨rfl, hsome, heq⟩ | ⟨sequence, rfl, happlying, heq⟩
  · rw [heq]
    exact .same h (.refl w) rfl
  · obtain ⟨sequence, happlying⟩ := Option.isSome_iff_exists.mp hsome
    refine ⟨?_, .apply hsame happlying (by rw [hchannel, heq]; rfl)⟩
    rw [heq]
    exact h.channel ⟨h.numbered.next, h.numbered.unacknowledged, nofun,
      fun hnone => ⟨(h.numbered.fresh hnone).1, rfl⟩⟩ rfl (Nat.le_refl _) List.prefix_rfl
      (Nat.le_refl _)
  · refine ⟨?_, .apply hsame happlying (by rw [hchannel, heq]; rfl)⟩
    have hnext := h.numbered.applying sequence happlying
    have hmoved : Consistent cfg { w with channel :=
        { w.channel with applying := none, receivedThrough := sequence } } := by
      refine h.channel ⟨h.numbered.next, h.numbered.unacknowledged, nofun,
        fun hnone => ?_⟩ rfl (by simp only; omega) List.prefix_rfl (Nat.le_refl _)
      rw [(h.numbered.fresh hnone).2] at happlying
      cases happlying
    rw [heq]
    refine (hmoved.quietAll fun command hmem => ?_).1
    obtain ⟨attempt, -, rfl⟩ := List.mem_map.mp hmem
    exact Nat.le_refl _

/-- **One event** keeps the world consistent and has one of the effects. -/
theorem sound_step (h : Consistent cfg w) (hstep : w.step cfg event = some w') :
    Sound cfg w event w' := by
  cases event <;> simp only [World.step, Option.bind_eq_bind, Option.bind_eq_some_iff] at hstep
  case start =>
    split at hstep
    · rename_i hfirst
      cases hstep
      exact .turn h (turn_open w.channel nofun fun _ => hfirst) (.refl w) (.refl _)
    · cases hstep
  case send message =>
    obtain ⟨result, hsend, hstep⟩ := hstep
    cases hstep
    exact .turn h (turn_send h.numbered hsend) (.refl w) (.refl _)
  case close =>
    cases hstep
    exact .turn h (turn_close w.channel) (.refl w) (.refl _)
  case retry =>
    split at hstep
    · cases hstep
      exact .turn h (turn_resumeLoop w.channel) (.refl w) (.refl _)
    · cases hstep
  case applied threw =>
    cases hstep
    exact sound_applied h threw
  case resumed attempt =>
    obtain ⟨link, hlive, r, hr, hstep⟩ := hstep
    split at hstep
    · rename_i hidle
      cases hstep
      have hsession := (h.links attempt link (live_iff.mp hlive).1).resumes r hr
      refine sound_opened h hlive hidle.2.1 (fun r' hr' => ?_) (h.known _ hsession) 0
      cases hr.symm.trans hr'
      rfl
    · cases hstep
  case post attempt =>
    obtain ⟨link, hlive, sessionId, hname, frame, hframe, hstep⟩ := hstep
    cases hstep
    obtain ⟨hlink, hended, hok⟩ := h.of_live hlive
    exact .put h
      ⟨hok.named hended sessionId hname, hok.uploads frame (List.mem_of_mem_head? hframe)⟩
  case poll attempt =>
    obtain ⟨link, hlive, sessionId, hname, hstep⟩ := hstep
    split at hstep
    · cases hstep
      obtain ⟨hlink, hended, hok⟩ := h.of_live hlive
      exact .put h ⟨hok.named hended sessionId hname, hok.cursor⟩
    · cases hstep
  case lose attempt =>
    obtain ⟨link, hlive, hstep⟩ := hstep
    cases hstep
    exact sound_linkEnds h hlive _
  case deliver index fresh =>
    obtain ⟨packet, hpacket, hstep⟩ := hstep
    cases hclient : w.clientReceives cfg packet with
    | some received =>
      rw [hclient] at hstep
      cases hstep
      exact sound_clientReceives h (h.packets packet (List.mem_of_getElem? hpacket)) hclient
    | none =>
      rw [hclient] at hstep
      exact sound_serverReceives h hpacket hstep
  case handOff index ok => exact sound_handOff h hstep
  case enqueue sessionId message =>
    split at hstep
    · rename_i hours
      simp only [enqueueServerMessage, Option.bind_eq_some_iff, Option.map_eq_some_iff]
        at hstep
      obtain ⟨registry, ⟨session, hfound, rfl⟩, hstep⟩ := hstep
      cases hstep
      exact ⟨consistent_enqueue h hfound (by simpa [hfound] using hours) message,
        .enqueue rfl rfl rfl rfl (.refl _)⟩
    · cases hstep
  case bind attempt =>
    obtain ⟨socket, hsocket, hstep⟩ := hstep
    split at hstep
    · cases hstep
    · rename_i hbound
      cases hstep
      exact sound_bind h hsocket (by simpa using hbound)
  case wake attempt =>
    obtain ⟨socket, hsocket, hstep⟩ := hstep
    split at hstep
    · cases hstep
    · rename_i hbound
      have hok := h.sockets attempt socket hsocket
      split at hstep
      · cases hstep
        exact .same (h.setSocket ⟨hok.ours, hok.link, hok.greeted, fun _ => by simpa using hbound⟩)
          ⟨rfl, rfl, rfl, rfl⟩ rfl
      · cases hstep
        exact .put h trivial
  case push attempt =>
    obtain ⟨socket, hsocket, hstep⟩ := hstep
    split at hstep
    · rename_i hpumping
      cases hstep
      exact sound_push h hsocket hpumping
    · cases hstep
  case answer index =>
    obtain ⟨⟨attempt, sessionId, after⟩, hpoll, hstep⟩ := hstep
    cases hstep
    have hpolls := h.polls _ (List.mem_of_getElem? hpoll)
    exact sound_replay (h.aside h.packets h.sockets
      (fun poll hmem => h.polls poll ((List.eraseIdx_sublist ..).subset hmem)) w.threads
      w.dispatched)
      hpolls attempt after ⟨rfl, rfl, rfl, rfl⟩ rfl
  case expire attempt =>
    split at hstep
    · cases hstep
      exact .put h trivial
    · cases hstep
  case elsewhere sessionId session =>
    split at hstep
    · rename_i hother
      cases hstep
      exact .same (consistent_elsewhere h hother.1 hother.2) ⟨rfl, rfl, rfl, rfl⟩ rfl
    · cases hstep

theorem consistent_start : Consistent cfg ({} : World M) where
  numbered := ⟨rfl, nofun, nofun, fun _ => ⟨rfl, rfl⟩⟩
  unopened _ _ := rfl
  started h := absurd rfl h
  links := nofun
  settled h := absurd rfl h
  packets := nofun
  sockets := nofun
  polls := nofun
  sessions := nofun
  known := nofun
  foreign _ _ := rfl
  accepted := List.nil_prefix
  unaccepted _ := rfl

/-- **Every run is consistent**, whatever is lost, repeated, delayed or superseded. -/
theorem consistent_reachable {allowed : World M → Event M → Prop} (h : Reachable cfg allowed w) :
    Consistent cfg w := by
  induction h with
  | start => exact consistent_start
  | step event _ _ hstep ih => exact (sound_step ih hstep).consistent

end Steps

end OpenAide.Session
