import WatchGate.Cluster.Shape
import WatchGate.Json.Parser

/-!
# WatchGate: replies of the cluster's API

A reply is a status and a text. `Reply.read` makes a document of a reply that
succeeds and a `Failure` of any other: a failing reply states its own code and
reason in a document, or else the HTTP status counts.
-/

namespace WatchGate.Cluster

/-- A reply of the cluster's API. -/
structure Reply where
  status : Nat
  body : String
  deriving DecidableEq, Repr

/-- Why the cluster's API gave no answer. -/
inductive Failure
  /-- the API refused, with a code and a reason -/
  | refused (code : Nat) (reason : String)
  /-- the reply does not have the shape of an answer -/
  | unreadable
  /-- what the API says about its groups does not hold together -/
  | discovery (cause : String)
  /-- the request could not be written -/
  | unwritable
  /-- no connection could be made -/
  | unreachable
  deriving DecidableEq, Repr

namespace Failure

/-- The reason when a failing reply does not state one. -/
def unstated : String := "Failed to parse error data"

/-- The value of a member that may be given once. -/
def single? (fields : List (String × Json)) (name : String) : Option (Option Json) :=
  match Json.valuesOf fields name with
  | [] => some none
  | [v] => some (some v)
  | _ => none

/-- A text that may be missing, and is empty then. -/
def textOr? : Option Json → Option String
  | none => some ""
  | some v => v.text?

/-- The refusal of a status, a message, a reason and a code, which must all be of their types. -/
def ofParts? (status message reason code : Option Json) : Option Failure :=
  match status.bind Json.text?, textOr? message, textOr? reason,
    code.bind (Json.nat? Text.word16) with
  | some _, some _, some reason, some code => some (.refused code reason)
  | _, _, _, _ => none

/-- The code and the reason that a document states: a record of a status, a message, a reason and
a code, none of them twice, or the list of the four. -/
def ofDocument? : Json → Option Failure
  | .obj fields =>
    match single? fields "status", single? fields "message", single? fields "reason",
      single? fields "code" with
    | some status, some message, some reason, some code => ofParts? status message reason code
    | _, _, _, _ => none
  | .arr [status, message, reason, code] =>
    ofParts? (some status) (some message) (some reason) (some code)
  | _ => none

end Failure

namespace Reply

/-- Whether a reply failed. -/
def failed (r : Reply) : Bool := 400 ≤ r.status && r.status < 600

/-- The failure that a failing reply states, or its status. -/
def failure (r : Reply) : Failure :=
  ((Json.parse? r.body.toList).bind Failure.ofDocument?).getD (.refused r.status Failure.unstated)

/-- The document of a reply. -/
def document (r : Reply) : Except Failure Json :=
  if r.failed then .error r.failure
  else
    match Json.parse? r.body.toList with
    | some j => .ok j
    | none => .error .unreadable

/-- The document of a reply, of a shape. -/
def read (s : Shape) (r : Reply) : Except Failure Json :=
  match r.document with
  | .error e => .error e
  | .ok j => if s.fits j then .ok j else .error .unreadable

end Reply

/-- The text of a member, empty when missing. -/
def textOf (j : Json) (name : String) : String :=
  ((j.field? name).bind Json.text?).getD ""

/-- The truth of a member, false when missing. -/
def truthOf (j : Json) (name : String) : Bool :=
  ((j.field? name).bind Json.bool?).getD false

/-- The items of a member, none when missing. -/
def itemsOf (j : Json) (name : String) : List Json :=
  ((j.field? name).bind Json.items?).getD []

end WatchGate.Cluster
