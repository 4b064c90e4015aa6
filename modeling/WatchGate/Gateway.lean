import WatchGate.Credentials
import WatchGate.Multiwatch.Setup
import WatchGate.Multiwatch.Tally
import WatchGate.Rights

/-!
# WatchGate: the gateway

The gateway serves `GET /permissions` and `GET /multiwatch` to callers whose
headers identify them. `Gateway.handle` decides by the first check that fails:
the route, the identity, then those of the endpoint. It ends in a response, or
in a `Launch` of feeds, and lists what it asked of others on the way.
-/

namespace WatchGate

open Http Multiwatch

/-- What the gateway serves with. -/
structure Gateway where
  credentials : Credentials
  /-- the rights of a caller on a kind, in a namespace, on a name -/
  rights : String → String → String → Identity → Except String Rights
  service : Service

namespace Gateway

/-- How the handling of a request goes on. -/
inductive Next
  | reply (r : Response)
  | launch (l : Launch)
  deriving DecidableEq, Repr

/-- What was asked of others, in order, and how it goes on. -/
structure Handling where
  calls : List Call
  next : Next
  deriving DecidableEq, Repr

/-- Ends with a response, without asking anything. -/
def refuse (status : Nat) (body : String) : Handling :=
  ⟨[], .reply (Response.text status body)⟩

/-- The first value of a query parameter, empty when there is none. -/
def parameter (r : Request) (name : String) : String :=
  (r.uri.param name).getD ""

/-- Serves the rights of a caller. -/
def permissions (g : Gateway) (r : Request) (caller : Identity) : Handling :=
  let kind := parameter r "kind"
  if kind.isEmpty then refuse 400 "'kind' is required"
  else
    let ns := parameter r "namespace"
    let name := parameter r "name"
    let reply :=
      match g.rights kind ns name caller with
      | .ok rights => Response.json rights.text
      | .error _ => Response.internalError
    ⟨[.rights kind ns name caller], .reply reply⟩

/-- Serves an aggregate watch up to its dials. -/
def multiwatch (g : Gateway) (r : Request) (caller : Identity) : Handling :=
  match g.service.prepare r caller with
  | (calls, .ok launch) => ⟨calls, .launch launch⟩
  | (calls, .error e) => ⟨calls, .reply e.response⟩

/-- Handles a request. -/
def handle (g : Gateway) (r : Request) : Handling :=
  if r.method ≠ "GET" ∨ (r.uri.path ≠ "/permissions" ∧ r.uri.path ≠ "/multiwatch") then
    refuse 404 "Not Found"
  else
    match g.credentials.identify r.headers with
    | none => refuse 401 "Unauthorized"
    | some caller =>
      if r.uri.path = "/permissions" then g.permissions r caller else g.multiwatch r caller

/-- The response where every dial fails, and what the dials counted. -/
def Handling.refused (h : Handling) : Response × Tally :=
  match h.next with
  | .reply r => (r, .zero)
  | .launch l =>
    (SetupError.noFeeds.response, l.targets.foldl (fun t _ => t.dial false) .zero)

end Gateway

end WatchGate
