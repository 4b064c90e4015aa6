import WatchGate.Identity
import WatchGate.Multiwatch.Backend
import WatchGate.Multiwatch.Forwarding
import WatchGate.Multiwatch.Session
import WatchGate.Multiwatch.Upgrade
import WatchGate.WatchPlan

/-!
# WatchGate: setting up an aggregate watch

`Setup.prepare` takes a request up to the point where feeds are dialed. Its
checks come in a fixed order: the upgrade, the backend, the caller's watches, a
URL for every path. Every URL is asked for before anything is dialed. `Call`
lists what was asked of others on the way, and `Launch` what is to be dialed.
`Launch.session` dials it, and `Session.answer?` is what its client is answered.
-/

namespace WatchGate.Multiwatch

open Http

/-- Why a watch was not set up. -/
inductive SetupError
  | notUpgrade
  | noBackend
  | resolve (cause : String)
  | nothingToWatch
  | noUrl (path : String)
  | noFeeds
  deriving DecidableEq, Repr

namespace SetupError

/-- The text of an error, for the log. -/
def message : SetupError → String
  | .notUpgrade => "request is not a websocket upgrade"
  | .noBackend => "backend function is not defined"
  | .resolve cause => "failed to resolve watchable resources: " ++ cause
  | .nothingToWatch => "no resources are watchable"
  | .noUrl path => "no backend URL for " ++ path
  | .noFeeds => "no upstream watch could be established"

/-- The response to the client, which tells only the two failures of configuration apart. -/
def response : SetupError → Response
  | .notUpgrade => Response.text 400 "Bad Request"
  | .noBackend => Response.text 500 "Internal server error (code: 1)"
  | .noUrl _ => Response.text 500 "Internal server error (code: 2)"
  | .resolve _ | .nothingToWatch | .noFeeds => Response.internalError

end SetupError

/-- One thing that was asked of others. -/
inductive Call
  /-- the rights of a caller on a resource -/
  | rights (kind ns name : String) (caller : Identity)
  /-- the watches of a caller -/
  | watches (caller : Identity)
  /-- the URL of a path -/
  | url (path : String) (version : Nat) (answer : Option Uri)
  /-- more headers for these -/
  | direct (headers : Headers)
  deriving DecidableEq, Repr

/-- A feed to be dialed. -/
structure Target where
  kind : String
  ns : String
  url : Uri
  deriving DecidableEq, Repr

/-- A watch that is ready to dial its feeds. -/
structure Launch where
  /-- the key of the client's handshake -/
  key : Bytes
  targets : List Target
  /-- what goes with each dial -/
  headers : Headers
  /-- how many grants the plan was made of -/
  grants : Nat
  deriving DecidableEq, Repr

/-- What aggregate watches are served with. -/
structure Service where
  watches : Identity → Except String WatchPlan
  backend : Option Backend
  director : Option Director
  forwardedProto : Bytes

/-- A place to be watched. -/
structure Place where
  kind : String
  ns : String
  path : String
  deriving DecidableEq, Repr

/-- The places of a plan: kinds by name, namespaces in order of arrival. -/
def places (p : WatchPlan) : List Place :=
  p.toList.flatMap (fun w => w.paths.map (fun x => ⟨w.kind.name, x.1, x.2⟩))

/-- Asks for the URL of each place, up to the first that has none. -/
def resolve (b : Backend) (version : Nat) :
    List Place → List Call × Except SetupError (List Target)
  | [] => ([], .ok [])
  | p :: ps =>
    match b p.path version with
    | none => ([.url p.path version none], .error (.noUrl p.path))
    | some u =>
      let (calls, r) := resolve b version ps
      (.url p.path version (some u) :: calls, r.map (⟨p.kind, p.ns, u⟩ :: ·))

/-- The headers of each dial, and what was asked for them. -/
def dialHeaders (s : Service) (r : Request) : List Call × Headers :=
  let h := forward r.headers r.client s.forwardedProto
  match s.director with
  | none => ([], h)
  | some d => ([.direct h], h.appendAll (d r))

/-- Takes a request of a caller up to the dials. -/
def Service.prepare (s : Service) (r : Request) (caller : Identity) :
    List Call × Except SetupError Launch :=
  match clientKey? r.headers with
  | none => ([], .error .notUpgrade)
  | some key =>
    match s.backend with
    | none => ([], .error .noBackend)
    | some backend =>
      match s.watches caller with
      | .error cause => ([.watches caller], .error (.resolve cause))
      | .ok plan =>
        if plan.isEmpty then ([.watches caller], .error .nothingToWatch)
        else
          match resolve backend (resourceVersion r.uri) (places plan) with
          | (calls, .error e) => (.watches caller :: calls, .error e)
          | (calls, .ok targets) =>
            let (more, headers) := dialHeaders s r
            (.watches caller :: calls ++ more, .ok ⟨key, targets, headers, plan.grants⟩)

/-- The session that dials the feeds of a launch. -/
def Launch.session (l : Launch) (outboundBuffer : Nat) : Session :=
  .initial l.targets.length outboundBuffer l.grants

/-- What a session has to answer its client, by the headers with which feeds were accepted: the
first of them makes the client switch protocols, and without any the watch is not set up. -/
def Session.answer? (s : Session) (key : Bytes) (given : Nat → Headers) : Option Response :=
  match s.phase with
  | .upgrading i => some (switching key (given i))
  | .rejected => some SetupError.noFeeds.response
  | .opening | .running | .flushing _ | .closed _ => none

end WatchGate.Multiwatch
