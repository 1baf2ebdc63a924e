import OpenAide.Session.Channel

/-!
# A session over links

One client channel, the links it opens one after another, the App Server's registry and the threads
that handle requests, and the network between them.  A link is an HTTP link (`httpTransportLink.ts`)
or a WebSocket (`webSocketTransportLink.ts`, `session_socket.rs`); the shell selects which.

The network keeps every packet ever put on it.  A packet may arrive at any later time, any number of
times, or never, whatever has become of its link: this covers lost, repeated and delayed requests,
answers lost after the server acted on them, and links that were superseded in flight.

A `step` is one turn of the client, or what one server thread does under one hold of the registry
lock.  Between accepting a frame and handing it to the dispatcher a thread holds no lock
(`threads`).
-/

namespace OpenAide.Session

variable {M : Type}

inductive Carrier where
  | http | webSocket
  deriving DecidableEq

/-- What the shell chose, and which messages the App Server dispatches on a thread of their own
(`is_agent_authenticate_request`). -/
structure Config (M : Type) where
  connectionId : String
  carrier : Carrier
  authenticates : M → Bool

/-- A link on the client side. -/
structure Link (M : Type) where
  resume : Option Resume
  /-- Known once the link is open. -/
  sessionId : Option String := none
  /-- HTTP: the frames not yet acknowledged, the first of them being posted. -/
  uploads : List (Frame M) := []
  /-- HTTP: the highest server sequence reported as applied. -/
  lastServerSequence : Nat
  ended : Bool := false

/-- A WebSocket on the server side. -/
structure Socket where
  attached : AttachedLink
  /-- The cursor of the hello, and then the last frame written. -/
  writtenThrough : Nat
  /-- The cursor of the hello is acknowledged and the client told so. -/
  bound : Bool := false
  /-- The pump has seen that its link is current and is about to write. -/
  pumping : Bool := false

/-- A server thread that has accepted a frame and has not handed it on yet. -/
structure Thread (M : Type) where
  attempt : Nat
  frame : Frame M
  /-- The frame is acknowledged already. -/
  answered : Bool

inductive Packet (M : Type) where
  -- to the server
  | openSession (attempt : Nat)
  | hello (attempt : Nat) (sessionId : Option String) (receivedThrough : Nat)
  | upload (attempt : Nat) (sessionId : String) (frame : Frame M)
  | acknowledge (attempt : Nat) (sessionId : String) (through : Nat)
  | poll (attempt : Nat) (sessionId : String) (after : Nat)
  -- to the client
  | ready (attempt : Nat) (sessionId : String) (receivedThrough : Nat)
  | frame (attempt : Nat) (sessionId : String) (frame : Frame M)
  | uploaded (attempt : Nat) (sequence : Nat)
  | refused (attempt : Nat) (kind : CloseKind)

structure World (M : Type) where
  channel : Channel M := {}
  links : Nat → Option (Link M) := fun _ => none
  registry : Registry M := fun _ => none
  sockets : Nat → Option Socket := fun _ => none
  /-- Polls that have acknowledged and not yet read: attempt, session and cursor. -/
  polls : List (Nat × String × Nat) := []
  threads : List (Thread M) := []
  wire : List (Packet M) := []
  /-- The client's messages in the order they were accepted, and in the order they were handed to
  the dispatcher. -/
  accepted : List M := []
  dispatched : List M := []
  /-- The messages enqueued for each session. -/
  enqueued : String → List M := fun _ => []

inductive Event (M : Type) where
  -- the client and its links
  | start
  | send (message : M)
  | close
  | retry
  /-- The listeners return from a message, or one of them throws. -/
  | applied (threw : Bool)
  /-- An HTTP link resumes without a request. -/
  | resumed (attempt : Nat)
  | post (attempt : Nat)
  | poll (attempt : Nat)
  /-- A link is lost, or gives up on a stalled receive. -/
  | lose (attempt : Nat)
  -- the network; a new session takes the fresh identity
  | deliver (index : Nat) (fresh : String)
  -- the server
  | handOff (index : Nat) (ok : Bool)
  | enqueue (sessionId : String) (message : M)
  | bind (attempt : Nat)
  | wake (attempt : Nat)
  | push (attempt : Nat)
  | answer (index : Nat)
  /-- The product client of the connection has expired. -/
  | expire (attempt : Nat)
  /-- A session of another connection. -/
  | elsewhere (sessionId : String) (session : ReliableSession M)

/-! ## The links -/

def World.put (w : World M) (packet : Packet M) : World M := { w with wire := w.wire ++ [packet] }

def World.putAll (w : World M) (packets : List (Packet M)) : World M :=
  { w with wire := w.wire ++ packets }

def World.setLink (w : World M) (attempt : Nat) (link : Link M) : World M :=
  { w with links := Function.update w.links attempt (some link) }

def World.setSocket (w : World M) (attempt : Nat) (socket : Socket) : World M :=
  { w with sockets := Function.update w.sockets attempt (some socket) }

def Link.end (link : Link M) : Link M := { link with ended := true }

section Commands

variable (cfg : Config M)

/-- Opening a link: an HTTP link that resumes needs no request of its own. -/
def World.openLink (w : World M) (attempt : Nat) (resume : Option Resume) : World M :=
  let cursor := (resume.map (·.receivedThrough)).getD 0
  let w := w.setLink attempt { resume, lastServerSequence := cursor }
  match cfg.carrier, resume with
  | .http, none => w.put (.openSession attempt)
  | .http, some _ => w
  | .webSocket, _ => w.put (.hello attempt (resume.map (·.sessionId)) cursor)

/-- `send` of a link: an HTTP link queues the frame, a WebSocket writes it. -/
def World.linkSend (w : World M) (attempt : Nat) (link : Link M) (frame : Frame M) : World M :=
  match cfg.carrier, link.sessionId with
  | .http, _ => w.setLink attempt { link with uploads := link.uploads ++ [frame] }
  | .webSocket, some sessionId => w.put (.upload attempt sessionId frame)
  | .webSocket, none => w

/-- `acknowledge` of a link; a WebSocket may coalesce what it writes. -/
def World.linkAcknowledge (w : World M) (attempt : Nat) (link : Link M) (through : Nat) : World M :=
  match cfg.carrier, link.sessionId with
  | .http, _ =>
    w.setLink attempt { link with lastServerSequence := max link.lastServerSequence through }
  | .webSocket, some sessionId => w.put (.acknowledge attempt sessionId through)
  | .webSocket, none => w

/-- The link of an attempt, unless it has ended. -/
def World.live (w : World M) (attempt : Nat) : Option (Link M) :=
  (w.links attempt).filter (!·.ended)

def World.command (w : World M) : Command M → World M
  | .openLink attempt resume => w.openLink cfg attempt resume
  | .send attempt frame =>
    match w.live attempt with
    | some link => w.linkSend cfg attempt link frame
    | none => w
  | .acknowledge attempt through =>
    match w.live attempt with
    | some link => w.linkAcknowledge cfg attempt link through
    | none => w
  | .closeLink attempt =>
    match w.live attempt with
    | some link => w.setLink attempt link.end
    | none => w
  | .abort => { w with links := fun attempt => (w.links attempt).map Link.end }

/-- A turn of the channel and what it asks of the links. -/
def World.turn (w : World M) (result : Channel M × List (Command M)) : World M :=
  result.2.foldl (World.command cfg) { w with channel := result.1 }

/-! ## The client receives -/

/-- The link is open. -/
def World.opened (w : World M) (attempt : Nat) (link : Link M) (sessionId : String)
    (peerReceivedThrough : Nat) : World M :=
  (w.setLink attempt { link with sessionId := some sessionId }).turn cfg
    (w.channel.opened attempt link.resume sessionId peerReceivedThrough)

/-- The link ends by itself, before or after it was open. -/
def World.linkEnds (w : World M) (attempt : Nat) (link : Link M) (kind : CloseKind) : World M :=
  let w := w.setLink attempt link.end
  if link.sessionId.isNone then w.turn cfg (w.channel.openFailed attempt link.resume kind)
  else if w.channel.currentAttempt = some attempt then w.turn cfg (w.channel.linkClosed kind)
  else w

/-- A server frame: the answer to the link's own poll, or pushed on its own socket. -/
def World.receiveFrame (w : World M) (attempt : Nat) (link : Link M) (sessionId : String)
    (frame : Frame M) : Option (World M) :=
  if link.sessionId ≠ some sessionId then none
  else if cfg.carrier = .http ∧ frame.sequence ≤ link.lastServerSequence then some w
  else if w.channel.currentAttempt = some attempt then some (w.turn cfg (w.channel.receive frame))
  else some w

/-- An upload is acknowledged: an HTTP link goes on with the next one. -/
def World.receiveUploaded (w : World M) (attempt : Nat) (link : Link M) (sequence : Nat) :
    Option (World M) :=
  let acknowledged (w : World M) : World M :=
    if w.channel.currentAttempt = some attempt then
      { w with channel := w.channel.acknowledge sequence }
    else w
  match cfg.carrier with
  | .webSocket => some (acknowledged w)
  | .http =>
    if link.uploads.head?.any (·.sequence = sequence) then
      some (acknowledged (w.setLink attempt { link with uploads := link.uploads.tail }))
    else none

/-- A packet arrives at the client, between two turns of it. -/
def World.clientReceives (w : World M) (packet : Packet M) : Option (World M) :=
  if w.channel.applying.isSome then none
  else match packet with
  | .ready attempt sessionId receivedThrough => do
    let link ← w.live attempt
    if link.sessionId.isSome then none
    else some (w.opened cfg attempt link sessionId receivedThrough)
  | .frame attempt sessionId frame => do
    w.receiveFrame cfg attempt (← w.live attempt) sessionId frame
  | .uploaded attempt sequence => do
    w.receiveUploaded cfg attempt (← w.live attempt) sequence
  | .refused attempt kind => do
    some (w.linkEnds cfg attempt (← w.live attempt) kind)
  | _ => none

end Commands

/-! ## The server receives -/

def CloseKind.ofPoll : PollError → CloseKind
  | .unknownSession => .sessionExpired
  | .invalidAcknowledgement => .rejected
  | .replayExpired => .replayExpired

def CloseKind.ofAttach : AttachError → CloseKind
  | .unknownSession => .sessionExpired
  | .wrongConnection => .rejected

section Server

variable (cfg : Config M)

/-- A client frame: accepted under the lock, and to be handed on by this thread.  A WebSocket
acknowledges it now; an HTTP request is answered when it is dispatched, an authentication at once.
-/
def World.receiveUpload (w : World M) (attempt : Nat) (sessionId : String) (frame : Frame M) :
    World M :=
  match w.registry.acceptClientFrame sessionId cfg.connectionId frame.sequence with
  | (.accepted, registry) =>
    let answered := cfg.carrier = .webSocket || cfg.authenticates frame.message
    let w := { w with
      registry
      threads := w.threads ++ [{ attempt, frame, answered }]
      accepted := w.accepted ++ [frame.message] }
    if answered then w.put (.uploaded attempt frame.sequence) else w
  | (.duplicate, _) => w.put (.uploaded attempt frame.sequence)
  | (.gap _, _) => w.put (.refused attempt .rejected)
  | (.unknownSession, _) => w.put (.refused attempt .sessionExpired)
  | (.wrongConnection, _) => w.put (.refused attempt .rejected)

/-- A hello; a socket reads one. -/
def World.receiveHello (w : World M) (attempt : Nat) (resume : Option String)
    (receivedThrough : Nat) (fresh : String) : Option (World M) :=
  if (w.sockets attempt).isSome then none
  else match w.registry.attachLink cfg.connectionId resume fresh with
  | (.ok attached, registry) =>
    some (World.setSocket { w with registry } attempt
      { attached, writtenThrough := receivedThrough })
  | (.error e, registry) => some (World.put { w with registry } (.refused attempt (.ofAttach e)))

/-- The registry takes an acknowledgement. -/
def World.acknowledge (w : World M) (attempt : Nat) (sessionId : String) (through : Nat)
    (andThen : World M → World M) : World M :=
  match w.registry.acknowledge sessionId through with
  | .ok registry => andThen { w with registry }
  | .error e => w.put (.refused attempt (.ofPoll e))

def World.serverReceives (w : World M) (packet : Packet M) (fresh : String) : Option (World M) :=
  match packet with
  | .openSession attempt =>
    if (w.registry fresh).isSome then none
    else some (World.put { w with registry := w.registry.open cfg.connectionId fresh }
      (.ready attempt fresh 0))
  | .hello attempt resume receivedThrough =>
    if (w.registry fresh).isSome then none
    else w.receiveHello cfg attempt resume receivedThrough fresh
  | .upload attempt sessionId frame => some (w.receiveUpload cfg attempt sessionId frame)
  | .acknowledge attempt sessionId through =>
    some (w.acknowledge attempt sessionId through id)
  | .poll attempt sessionId after =>
    if (w.registry sessionId).any (·.connectionId = cfg.connectionId) then
      some (w.acknowledge attempt sessionId after fun w =>
        { w with polls := w.polls ++ [(attempt, sessionId, after)] })
    else some (w.put (.refused attempt .sessionExpired))
  | _ => none

/-- The frames behind a cursor, or why there are none. -/
def World.replay (w : World M) (attempt : Nat) (sessionId : String) (after : Nat) : World M :=
  match w.registry.framesAfter sessionId after with
  | .ok frames => w.putAll (frames.map (.frame attempt sessionId))
  | .error e => w.put (.refused attempt (.ofPoll e))

/-- The dispatcher takes a message.  One whose envelope it rejects ends the link, unless it runs on
a thread of its own. -/
def World.handOff (w : World M) (index : Nat) (ok : Bool) : Option (World M) := do
  let thread ← w.threads[index]?
  let w := { w with
    threads := w.threads.eraseIdx index
    dispatched := w.dispatched ++ [thread.frame.message] }
  if ok then some (if thread.answered then w else w.put
    (.uploaded thread.attempt thread.frame.sequence))
  else if cfg.authenticates thread.frame.message then some w
  else some (w.put (.refused thread.attempt .rejected))

/-- The pump of a socket: the last frame it wrote is its cursor. -/
def World.push (w : World M) (attempt : Nat) (socket : Socket) : World M :=
  let written := match w.registry.framesAfter socket.attached.sessionId socket.writtenThrough with
    | .ok frames => (frames.getLast?.map (·.sequence)).getD socket.writtenThrough
    | .error _ => socket.writtenThrough
  (w.setSocket attempt { socket with writtenThrough := written, pumping := false }).replay attempt
    socket.attached.sessionId socket.writtenThrough

/-! ## Steps -/

/-- One event, if it can happen. -/
def World.step (w : World M) : Event M → Option (World M)
  | .start => if w.channel.attempts = 0 then some (w.turn cfg (w.channel.open none)) else none
  | .send message => do some (w.turn cfg (← w.channel.send message))
  | .close => some (w.turn cfg w.channel.close)
  | .retry =>
    if w.channel.waiting ∧ w.channel.applying = none then some (w.turn cfg w.channel.resumeLoop)
    else none
  | .applied threw => some (w.turn cfg (w.channel.applied threw))
  | .resumed attempt => do
    let link ← w.live attempt
    let resume ← link.resume
    if cfg.carrier = .http ∧ link.sessionId = none ∧ w.channel.applying = none then
      some (w.opened cfg attempt link resume.sessionId 0)
    else none
  | .post attempt => do
    let link ← w.live attempt
    let sessionId ← link.sessionId
    let frame ← link.uploads.head?
    some (w.put (.upload attempt sessionId frame))
  | .poll attempt => do
    let link ← w.live attempt
    let sessionId ← link.sessionId
    if cfg.carrier = .http then some (w.put (.poll attempt sessionId link.lastServerSequence))
    else none
  | .lose attempt => do
    let link ← w.live attempt
    let kind := if cfg.carrier = .http ∧
      link.sessionId.isSome then .receiveStalled else .interrupted
    some (w.linkEnds cfg attempt link kind)
  | .deliver index fresh => do
    let packet ← w.wire[index]?
    w.clientReceives cfg packet <|> w.serverReceives cfg packet fresh
  | .handOff index ok => w.handOff cfg index ok
  | .enqueue sessionId message =>
    if (w.registry sessionId).any (·.connectionId = cfg.connectionId) then do
      let registry ← w.registry.enqueueServerMessage sessionId message
      some { w with
        registry
        enqueued := Function.update w.enqueued sessionId (w.enqueued sessionId ++ [message]) }
    else none
  | .bind attempt => do
    let socket ← w.sockets attempt
    if socket.bound then none
    else some (w.acknowledge attempt socket.attached.sessionId socket.writtenThrough fun w =>
      (w.setSocket attempt { socket with bound := true }).put
        (.ready attempt socket.attached.sessionId socket.attached.lastClientSequence))
  | .wake attempt => do
    let socket ← w.sockets attempt
    if !socket.bound then none
    else if w.registry.linkIsCurrent socket.attached then
      some (w.setSocket attempt { socket with pumping := true })
    else some (w.put (.refused attempt .rejected))
  | .push attempt => do
    let socket ← w.sockets attempt
    if socket.pumping then some (w.push attempt socket) else none
  | .answer index => do
    let (attempt, sessionId, after) ← w.polls[index]?
    some (World.replay { w with polls := w.polls.eraseIdx index } attempt sessionId after)
  | .expire attempt =>
    if attempt < w.channel.attempts then some (w.put (.refused attempt .sessionExpired)) else none
  | .elsewhere sessionId session =>
    if (w.registry sessionId).all (·.connectionId ≠ cfg.connectionId) ∧
        session.connectionId ≠ cfg.connectionId then
      some { w with registry := w.registry.insert sessionId session }
    else none

/-- The states reached by events that are all allowed. -/
inductive Reachable (allowed : World M → Event M → Prop) : World M → Prop where
  | start : Reachable allowed {}
  | step {w w' : World M} (event : Event M) (h : Reachable allowed w) (hallowed : allowed w event)
      (hstep : w.step cfg event = some w') : Reachable allowed w'

end Server

end OpenAide.Session
