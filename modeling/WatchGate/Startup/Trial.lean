import WatchGate.Multiwatch.Rehearsal
import WatchGate.Server
import WatchGate.Startup

/-!
# WatchGate: trying out the whole program

A trial starts the gateway as the command line does, puts requests to it one
after the other, each on a connection of its own, and stops it. Every feed that
is dialed accepts at once, sends one frame that names what it was asked for, and
closes. `Trial.run` tells how the program ended and what was seen of it.
-/

namespace WatchGate

open Http Multiwatch

/-- How a program ended. -/
inductive Exit
  | served
  | failed (e : Startup.Error)
  | usage (e : UsageError)
  deriving DecidableEq, Repr

namespace Exit

/-- The number that a program ends with. -/
def code : Exit → Nat
  | .served => 0
  | .failed _ => 1
  | .usage _ => 2

/-- What a program reports when it could not be started. -/
def message : Exit → Option String
  | .failed e => some e.message
  | .served | .usage _ => none

end Exit

/-- What is seen of a request. -/
structure Trial.Seen where
  response : Response
  /-- the frames that the client received -/
  frames : List String
  /-- the reviews that were posted -/
  reviews : List Cluster.Review
  /-- the handshakes that feeds received -/
  handshakes : List (String × Headers)
  probes : Probe.Tally
  sessions : Tally

/-- What is seen of a program. -/
structure Trial where
  exit : Exit
  seen : List Trial.Seen

namespace Trial

/-- The probes behind what was asked. -/
def reportOf (access : Access) : Call → Option (Identity × Probe.Report)
  | .rights kind ns name caller => some (caller, (access.rights kind ns name caller).report)
  | .watches caller => some (caller, (access.watches caller).report)
  | .url _ _ _ | .direct _ => none

/-- The reviews behind probes. -/
def reviewsOf (x : Identity × Probe.Report) : List Cluster.Review :=
  x.2.asked.map (Cluster.Review.make x.1)

/-- The session of a trial. -/
def stagecraft (o : Options) : Stagecraft :=
  ⟨.reachable, [], o.dialTimeout, o.maxMessageBytes, o.maxMessageBytes, o.outboundBuffer⟩

/-- The answer of every feed. -/
def answer : Answer :=
  ⟨101, ⟨[⟨"connection", Bytes.ofAscii "Upgrade"⟩, ⟨"upgrade", Bytes.ofAscii "websocket"⟩]⟩, true⟩

/-- What every feed sends: a text, and a close frame. -/
def announcement (text : String) : Bytes :=
  Socket.Frame.encode ⟨true, false, .text, false, Utf8.ofString text⟩
    ++ Socket.Frame.encode ⟨true, false, .close, false, []⟩

/-- The moves of the feeds. -/
def script (l : Launch) : List Move :=
  let names := Rehearsal.names [] (l.targets.map (fun t => t.url.path))
  names.map (fun n => .accept n answer)
    ++ (l.targets.zip names).map (fun x => .send x.2 (announcement x.1.url.target))

/-- The frames that a client received. -/
def framesOf (s : Session) : List String := s.delivered.map (·.2)

/-- Puts a request to the gateway. -/
def ask (o : Options) (access : Access) (g : Gateway) (r : Request) : Seen :=
  match r.receive with
  | .error e => ⟨e.response, [], [], [], .empty, .zero⟩
  | .ok r =>
    let h := g.handle r
    let reports := h.calls.filterMap (reportOf access)
    let reviews := reports.flatMap reviewsOf
    let probes := reports.foldl (fun t x => t.both x.2.tally) Probe.Tally.empty
    match h.next with
    | .reply _ => ⟨Server.answer r h, [], reviews, [], probes, .zero⟩
    | .launch l =>
      let (final, _) := (Rehearsal.begin (stagecraft o) r l).play (script l)
      ⟨final.response.getD Response.internalError, framesOf final.session, reviews,
        Rehearsal.handshakes (stagecraft o) l, probes, final.session.tally⟩

/-- Starts the program, and puts requests to it. -/
def run (network : Network) (k : Startup.Kubeconfig) (api : Cluster.Api)
    (files : String → Option Bytes) (args : List String) (requests : List Request) : Trial :=
  match Options.parse args with
  | .error e => ⟨.usage e, []⟩
  | .ok o =>
    let api := api.through network
    match Startup.discover o k api with
    | .error e => ⟨.failed e, []⟩
    | .ok catalog =>
      match Startup.director o files with
      | .error e => ⟨.failed e, []⟩
      | .ok director =>
        let access := api.access catalog (Startup.limits o)
        ⟨.served, requests.map (ask o access (Startup.gatewayOf o access director))⟩

end Trial

end WatchGate
