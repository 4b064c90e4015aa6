import WatchGate.Http.Reception
import WatchGate.Multiwatch.Dial
import WatchGate.Multiwatch.Session
import WatchGate.Multiwatch.Setup
import WatchGate.Network

/-!
# WatchGate: rehearsing a session

A rehearsal plays the client and the feeds of one session by a script, and lets
everything settle after each move. Feeds are named by the path they are dialed
at; the second of one path is `path#2`. What a move brings is an `Effect`: what
the client sees, and the feeds whose connection ended. `Rehearsal.play` is the
whole of it, from the dials to the end of the client's connection.

Each change of the session is one of `Session.step`, so a rehearsal shows states
that schedules lead to.
-/

namespace WatchGate.Multiwatch

open Http Socket

/-- A move of the client or of a feed, or the passing of time. -/
inductive Move
  /-- a feed answers its handshake -/
  | accept (name : String) (a : Answer)
  /-- a feed sends frames -/
  | send (name : String) (frames : Bytes)
  /-- a feed's connection is cut -/
  | drop (name : String)
  /-- the client sends frames -/
  | client (frames : Bytes)
  /-- the client's connection is cut -/
  | hangup
  /-- milliseconds pass -/
  | advance (ms : Nat)
  deriving Repr

/-- What the client sees on its connection. -/
inductive Sight
  | text (s : String)
  | pong (bs : Bytes)
  /-- a close frame that gives no reason -/
  | close
  /-- the end of the connection without a close frame -/
  | reset
  deriving DecidableEq, Repr

/-- What a move brings. -/
structure Effect where
  client : List Sight
  /-- the feeds whose connection ended, by name, less the one that cut it -/
  closed : List String
  /-- whether the move addressed what is not there -/
  skipped : Bool
  deriving DecidableEq, Repr

/-- The connection to a feed. -/
inductive Line
  /-- there is none, or none that sent a handshake -/
  | absent
  /-- the handshake is not answered -/
  | held
  | up (r : Reader)
  | down
  deriving DecidableEq, Repr

namespace Line

/-- Whether a connection stands. -/
def stands : Line → Bool
  | .held | .up _ => true
  | .absent | .down => false

end Line

/-- The other end of a feed. -/
structure Peer where
  name : String
  line : Line
  deriving DecidableEq, Repr

/-- What a session is rehearsed with. -/
structure Stagecraft where
  network : Network
  /-- paths whose dial fails at once -/
  undialable : List String
  /-- milliseconds after which a dial is given up -/
  dialTimeout : Nat
  /-- the greatest size of a feed's frames and messages -/
  feedMaxSize : Nat
  /-- the greatest size of the client's frames and messages -/
  clientMaxSize : Nat
  /-- how many frames the queue holds at least -/
  outboundBuffer : Nat
  deriving DecidableEq, Repr

/-- A session that is being rehearsed. -/
structure Rehearsal where
  session : Session
  /-- one for each feed, in order -/
  peers : List Peer
  /-- what the client sent that is not read -/
  reader : Reader
  /-- whether the client's connection stands -/
  connected : Bool
  /-- what the client was answered -/
  response : Option Response
  /-- whether the answer announces the end of the connection -/
  announces : Bool
  /-- the key of the client's handshake -/
  key : Bytes
  /-- the sub-protocols that were offered to the feeds -/
  offers : Option (List (List Char))
  /-- milliseconds since the request -/
  clock : Nat
  dialTimeout : Nat
  feedMaxSize : Nat

namespace Rehearsal

/-! ## The feeds -/

/-- The name of a feed behind others of its path. -/
def nameAfter (earlier : List String) (path : String) : String :=
  let n := earlier.count path
  if n = 0 then path else path ++ "#" ++ toString (n + 1)

/-- The names of feeds, by their paths. -/
def names (earlier : List String) : List String → List String
  | [] => []
  | path :: paths => nameAfter earlier path :: names (earlier ++ [path]) paths

/-- The place of a feed, and its connection. -/
def find? (r : Rehearsal) (name : String) : Option (Nat × Line) :=
  (r.peers.findIdx? (fun p => p.name == name)).bind
    (fun i => (r.peers[i]?).map (fun p => (i, p.line)))

/-- With the connection to a feed changed. -/
def setLine (r : Rehearsal) (i : Nat) (l : Line) : Rehearsal :=
  { r with peers := r.peers.modify i (fun p => { p with line := l }) }

/-- The names of the feeds whose connection stands. -/
def standing (r : Rehearsal) : List String :=
  (r.peers.filter (fun p => p.line.stands)).map (·.name)

/-- After events of the session. -/
def attempt (r : Rehearsal) (es : List Event) : Rehearsal :=
  { r with session := r.session.attempt es }

/-! ## Settling -/

/-- What the client sees of a session's end. -/
def farewell : Ending → List Sight
  | .clientClosed => [.reset]
  | .clientGone | .writeFailed | .notUpgraded => []
  | .clientFailed | .feedFailed _ | .feedsEnded | .dialsFailed => [.close]

/-- Whether the connection to a feed outlives what the session did. -/
def keeps (s : Session) (i : Nat) : Bool :=
  match s.phase, s.feeds[i]? with
  | .closed _, _ | .rejected, _ => false
  | _, some f =>
    match f.stage with
    | .dialing | .ready | .relaying => true
    | .refused | .finished _ | .noted _ => false
  | _, none => false

/-- Ends the connections that do not outlive what the session did. -/
def hangUpFeeds (r : Rehearsal) : Rehearsal :=
  { r with peers := r.peers.mapIdx (fun i p =>
      if p.line.stands && !keeps r.session i then { p with line := .down } else p) }

/-- Answers the client, once there is an answer. Only an answer with a body tells its length. -/
def respond (r : Rehearsal) (given : Nat → Headers) : Rehearsal :=
  match r.response, r.session.answer? r.key given with
  | none, some x =>
    let sent := if x.body.isEmpty then x else x.measured
    { r with response := some (sent.announcing r.announces) }
  | _, _ => r

/-- Answers a client whose dials have all failed. -/
def answerRejected (r : Rehearsal) : Rehearsal := r.respond (fun _ => .empty)

/-- The end of the client's connection, if the session is over, and what the client sees of it. -/
def leave (r : Rehearsal) : Rehearsal × List Sight :=
  match r.session.phase with
  | .closed why => if r.connected then ({ r with connected := false }, farewell why) else (r, [])
  | _ => (r, [])

/-- What follows from what the session did. The client sees the frames that it received. -/
def settle (before after : Rehearsal) (seen : List Sight) (cut : List String) :
    Rehearsal × Effect :=
  let frames := (after.session.delivered.drop before.session.delivered.length).map
    (fun x => Sight.text x.2)
  let (r, last) := (answerRejected (hangUpFeeds after)).leave
  let closed := (before.standing.filter (fun n => !r.standing.contains n && !cut.contains n))
  (r, ⟨seen ++ frames ++ last, closed.mergeSort (fun a b => !decide (b < a)), false⟩)

/-- A move that addresses what is not there. -/
def skip (r : Rehearsal) : Rehearsal × Effect := (r, ⟨[], [], true⟩)

/-! ## Moves -/

/-- What the session does behind the end of a dial. -/
def followUp (ok : Bool) : List Event := if ok then [.upgraded true] else [.drained]

/-- What the session does with the end of a dial. -/
def dialEvents (i : Nat) (ok : Bool) : List Event := .dialed i ok :: followUp ok

/-- What the session does with an item of a feed. -/
def itemEvents (i : Nat) (x : Item) : List Event :=
  [.read i x, .enqueue i, .take, .wrote true, .note i, .drained]

/-- A feed answers its handshake. -/
def accept (r : Rehearsal) (i : Nat) (a : Answer) : Rehearsal × Effect :=
  let ok := a.accepts r.offers
  let dialed := (r.attempt [.dialed i ok]).respond (fun _ => a.headers)
  let next := (dialed.attempt (followUp ok)).setLine i
    (if ok then .up (Reader.make .client r.feedMaxSize) else .down)
  settle r next [] []

/-- A feed's items arrive. -/
def arrive (r : Rehearsal) (i : Nat) (items : List Item) : Rehearsal :=
  r.attempt (items.flatMap (itemEvents i))

/-- A feed sends frames. -/
def send (r : Rehearsal) (i : Nat) (reader : Reader) (frames : Bytes) : Rehearsal × Effect :=
  let (readings, reader) := reader.feed frames
  settle r ((r.setLine i (.up reader)).arrive i (readings.map Item.ofReading)) [] []

/-- A feed's connection is cut. -/
def cut (r : Rehearsal) (i : Nat) (name : String) (line : Line) : Rehearsal × Effect :=
  let next := r.setLine i .down
  match line with
  | .held => settle r (next.attempt (dialEvents i false)) [] [name]
  | _ => settle r (next.arrive i [.failure]) [] [name]

/-- Whether the client may send frames. -/
def clientUp (r : Rehearsal) : Bool :=
  r.connected && r.session.phase = .running

/-- What the client sees of its own message: a ping is answered. -/
def reply (s : Session) : Item → List Sight
  | .ping bs => if s.atHead then [.pong bs] else []
  | _ => []

/-- The session reads from the client. -/
def hear (s : Session) : List Item → Session × List Sight
  | [] => (s, [])
  | x :: xs =>
    let (t, seen) := hear (s.attempt [.client x]) xs
    (t, reply s x ++ seen)

/-- The client sends frames. -/
def speak (r : Rehearsal) (frames : Bytes) : Rehearsal × Effect :=
  let (readings, reader) := r.reader.feed frames
  let (s, seen) := hear r.session (readings.map Item.ofReading)
  settle r { r with session := s, reader := reader } seen []

/-- The client's connection is cut. A request that is not answered is given up. -/
def hangup (r : Rehearsal) : Rehearsal × Effect :=
  if !r.connected then (r, ⟨[], [], false⟩)
  else
    let next := { r.attempt [.client .finish] with connected := false }
    match r.session.phase with
    | .opening | .upgrading _ =>
      settle r { next with session := { next.session with phase := .closed .notUpgraded } } [] []
    | _ => settle r next [] []

/-- Gives up the dials whose time is over. -/
def expire (r : Rehearsal) : Rehearsal :=
  if r.clock < r.dialTimeout then r
  else r.attempt ((List.range r.peers.length).flatMap (fun i => dialEvents i false))

/-- Time passes. -/
def advance (r : Rehearsal) (ms : Nat) : Rehearsal × Effect :=
  settle r (expire { r with clock := r.clock + ms }) [] []

/-- Makes a move. -/
def move (r : Rehearsal) : Move → Rehearsal × Effect
  | .accept name a =>
    match r.find? name with
    | some (i, .held) => r.accept i a
    | _ => r.skip
  | .send name frames =>
    match r.find? name with
    | some (i, .up reader) => r.send i reader frames
    | _ => r.skip
  | .drop name =>
    match r.find? name with
    | some (i, line) => if line.stands then r.cut i name line else r.skip
    | none => r.skip
  | .client frames => if r.clientUp then r.speak frames else r.skip
  | .hangup => r.hangup
  | .advance ms => r.advance ms

/-- Makes moves one after the other. -/
def moves (r : Rehearsal) : List Move → Rehearsal × List Effect
  | [] => (r, [])
  | m :: ms =>
    let (r, e) := r.move m
    let (r, es) := moves r ms
    (r, e :: es)

/-! ## From the request on -/

/-- Whether a feed receives a handshake. -/
def receives (c : Stagecraft) (sent : Option Headers) (t : Target) : Bool :=
  c.network = .reachable && sent.isSome && !c.undialable.contains t.url.path
    && c.dialTimeout ≠ 0

/-- The state in which the script of a request begins: dials that cannot succeed have failed. -/
def begin (c : Stagecraft) (request : Request) (l : Launch) : Rehearsal :=
  let sent := handshake? l.headers
  let paths := l.targets.map (fun t => t.url.path)
  let peers := (l.targets.zip (names [] paths)).map (fun x =>
    ⟨x.2, if receives c sent x.1 then .held else .absent⟩)
  let failing := (List.range l.targets.length).filter (fun i =>
    (l.targets[i]?).any (fun t => !receives c sent t))
  answerRejected
    { session := (l.session c.outboundBuffer).attempt
        (failing.flatMap (fun i => dialEvents i false))
      peers := peers
      reader := Reader.make .server c.clientMaxSize
      connected := true
      response := none
      announces := request.endsConnection
      key := l.key
      offers := offered l.headers
      clock := 0
      dialTimeout := c.dialTimeout
      feedMaxSize := c.feedMaxSize }

/-- A rehearsal of a request that was answered before anything was dialed. -/
def answered (c : Stagecraft) (r : Response) : Rehearsal :=
  { session := Session.initial 0 c.outboundBuffer 0
    peers := []
    reader := Reader.make .server c.clientMaxSize
    connected := true
    response := some r
    announces := false
    key := []
    offers := none
    clock := 0
    dialTimeout := c.dialTimeout
    feedMaxSize := c.feedMaxSize }

/-- The handshakes that the feeds received: what was asked for, and the headers. -/
def handshakes (c : Stagecraft) (l : Launch) : List (String × Headers) :=
  match handshake? l.headers with
  | none => []
  | some h =>
    let received : Headers :=
      ⟨h.toList.map (fun x => { x with value := Request.received x.value })⟩
    (l.targets.filter (receives c (some h))).map (fun t => (t.url.target, received))

/-- Plays a script to the end of the client's connection, which follows the last move. -/
def play (r : Rehearsal) (script : List Move) : Rehearsal × List Effect :=
  r.moves (script ++ [.hangup])

end Rehearsal

end WatchGate.Multiwatch
