import WatchGate.Gateway
import WatchGate.Multiwatch.Session

/-!
# WatchGate: many watches at a time

All watches count in one tally. A `Watch` is a request that has come as far as its
dials, with its session; an `Ensemble` is all watches that were begun, with the tally
that they share. Whichever session takes a step takes it with the tally as the others
have left it. A request comes with the gateway as it answers at that time, so that
what a caller may watch can be more for one request than for another.

As with `Session.step`, nothing says which event comes next: a schedule is any list
of events, be it of one watch after the other or of all of them in turn.
-/

namespace WatchGate

open Http Multiwatch

/-- A request that is or was watched for. -/
structure Watch where
  /-- as it was when the request arrived -/
  gateway : Gateway
  request : Request
  /-- its own tally is a copy of the one that is shared, from its last step -/
  session : Session

/-- A request whose dials were given up before any of them succeeded. -/
def Watch.abandoned (w : Watch) : Watch :=
  { w with session := { w.session with phase := .closed .notUpgraded } }

/-- The watches of a program. -/
structure Ensemble where
  /-- in order of their beginnings -/
  watches : List Watch
  /-- what all of them have counted -/
  tally : Tally

namespace Ensemble

/-- Before any request. -/
def empty : Ensemble := ⟨[], .zero⟩

instance : Inhabited Ensemble := ⟨empty⟩

/-- What may happen next. Watches are named by their place in the list. -/
inductive Event
  /-- a request arrives -/
  | arrive (g : Gateway) (outboundBuffer : Nat) (r : Request)
  /-- a watch goes on -/
  | session (k : Nat) (e : Multiwatch.Event)
  /-- a client leaves before it is answered, and its dials are given up -/
  | abandon (k : Nat)

/-- What an event does, where it is enabled. -/
def step (s : Ensemble) : Event → Option Ensemble
  | .arrive g outboundBuffer r =>
    match (g.handle r).next with
    | .reply _ => some s
    | .launch l => some { s with watches := s.watches ++ [⟨g, r, l.session outboundBuffer⟩] }
  | .session k e =>
    (s.watches[k]?).bind fun w =>
      (Session.step { w.session with tally := s.tally } e).map fun t =>
        ⟨s.watches.set k { w with session := t }, t.tally⟩
  | .abandon k =>
    (s.watches[k]?).bind fun w =>
      if w.session.phase = .opening then
        some { s with watches := s.watches.set k w.abandoned }
      else none

/-- A schedule of events, each enabled where it happens. -/
def run (s : Ensemble) : List Event → Option Ensemble
  | [] => some s
  | e :: es => (s.step e).bind fun s => s.run es

end Ensemble

end WatchGate
