import WatchGate.Access
import WatchGate.Cluster.Discovery
import WatchGate.Cluster.Namespaces
import WatchGate.Cluster.Review
import WatchGate.Network

/-!
# WatchGate: the cluster's API

An `Api` is what the cluster answers: documents by path, and reviews, each after
a time. `Api.access` answers questions about callers from it: the authorizer puts
each question as a review, and an error of any kind is a failed probe.
-/

namespace WatchGate.Cluster

/-- What the cluster answers. -/
structure Api where
  /-- the document at a path -/
  get : String → Except Failure Reply
  /-- the answer to a review, and after how many milliseconds it comes -/
  post : Review → Except Failure Reply × Nat

namespace Failure

/-- The text of a failure. -/
def message : Failure → String
  | .refused _ reason => reason
  | .unreadable => "reply cannot be read"
  | .discovery cause => cause
  | .unwritable => "request cannot be written"
  | .unreachable => "connection refused"

end Failure

namespace Api

/-- A cluster that cannot be reached. -/
def unreachable : Api :=
  ⟨fun _ => .error .unreachable, fun _ => (.error .unreachable, 0)⟩

/-- What is seen of the cluster over a network. -/
def through (a : Api) : Network → Api
  | .reachable => a
  | .refusing => unreachable

/-- The authorizer's answer to a caller's question. -/
def decide (a : Api) (caller : Identity) (q : Question) : Probe.Answer :=
  let r := a.post (Review.make caller q)
  let verdict : Probe.Verdict :=
    match r.1.bind Review.answer with
    | .ok true => .allow
    | .ok false => .deny
    | .error _ => .error
  ⟨verdict, r.2⟩

/-- What the cluster answers when its namespaces are listed. -/
def namespaces (a : Api) : Except String (List String) :=
  match (a.get Namespaces.path).bind Namespaces.answer with
  | .ok names => .ok names
  | .error e => .error e.message

/-- Access as the cluster grants it. -/
def access (a : Api) (catalog : Catalog) (limits : Probe.Limits) : Access :=
  ⟨catalog, a.namespaces, a.decide, limits⟩

end Api

end WatchGate.Cluster
