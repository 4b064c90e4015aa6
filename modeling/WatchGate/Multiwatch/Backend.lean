import WatchGate.Http.Form
import WatchGate.Text.Decimal

/-!
# WatchGate: where watches are streamed from

A `Backend` says from which URL a path is watched, from a resource version on;
it may have none. `Backend.ofBase` keeps the authority of a base URL and dials
it with the WebSocket scheme that goes with the base's own.
-/

namespace WatchGate.Multiwatch

open Http

/-- The URL from which a path is watched, from a resource version on. -/
abbrev Backend := String → Nat → Option Uri

namespace Backend

/-- The query that asks for a watch from a resource version on. -/
def watchQuery (version : Nat) : String :=
  "?watch=true&resourceVersion=" ++ String.ofList (Text.digits version)

/-- The scheme by which a base is dialed. -/
def schemeFor (base : Uri) : String :=
  match base.scheme with
  | some "https" => "wss"
  | some "wss" => "wss"
  | _ => "ws"

/-- Streams from the authority of a base; a base without one has no URLs. -/
def ofBase (base : Uri) : Backend :=
  fun path version =>
    match base.authority with
    | none => none
    | some authority =>
      match pathAndQuery (path ++ watchQuery version).toList with
      | .ok pq => some (Uri.absolute (schemeFor base) authority pq)
      | .error _ => none

/-- Has no URL for some paths. -/
def without (b : Backend) (paths : List String) : Backend :=
  fun path version => if paths.contains path then none else b path version

end Backend

/-- The resource version that a request asks for; anything but a number of 64 bits counts as zero. -/
def resourceVersion (u : Uri) : Nat :=
  ((u.param "resourceVersion").bind (fun s => Text.unsigned? Text.word64 s.toList)).getD 0

end WatchGate.Multiwatch
