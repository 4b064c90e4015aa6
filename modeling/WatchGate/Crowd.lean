import WatchGate.Access
import WatchGate.Gateway
import WatchGate.Probe.Machine

/-!
# WatchGate: many requests at a time

Requests arrive while the questions about others are still being asked. A probe
knows whom it asks about from the prober that it holds a copy of, and it starts
other probes with the same copy. An `Inquiry` is a run of probes with their copies,
a `Crowd` all inquiries that were begun. What the authorizer is asked goes into one
log: the question, whom it is about by the copy of the probe that puts it, and the
place of the inquiry.

As with `Probe.step`, nothing says which event comes next: a schedule is any list
of events, be it of one inquiry after the other or of all of them in turn.
-/

namespace WatchGate

open Http Multiwatch

/-- What every probe holds a copy of. -/
structure Prober where
  caller : Identity
  /-- as they were listed for the request -/
  namespaces : List String
  deriving DecidableEq, Repr

/-- A run of probes on behalf of a request. -/
structure Inquiry where
  request : Request
  /-- the root questions -/
  questions : List Question
  /-- what the root starts probes with -/
  prober : Prober
  /-- what the live probes hold, in their order -/
  copies : List Prober
  state : Probe.State

namespace Inquiry

/-- An inquiry that has not asked anything. -/
def initial (a : Access) (r : Request) (p : Prober) (qs : List Question) : Inquiry :=
  ⟨r, qs, p, [], .initial (a.setting p.caller p.namespaces) qs⟩

/-- The prober of whoever an event is of: of the root, or of a probe. -/
def actor (x : Inquiry) : Probe.Event → Option Prober
  | .start | .close | .collect | .finish => some x.prober
  | .ask i | .settle i | .record i | .send i | .spread i | .retire i => x.copies[i]?

/-- The copies behind an event. -/
def copiesAfter (x : Inquiry) (p : Prober) : Probe.Event → List Prober
  | .start | .spread _ => x.copies ++ [p]
  | .retire i => x.copies.eraseIdx i
  | .close | .ask _ | .settle _ | .record _ | .send _ | .collect | .finish => x.copies

/-- What is put to the authorizer with an event, and about whom. -/
def puts (x : Inquiry) (p : Prober) : Probe.Event → List (Identity × Question)
  | .ask i => (x.state.tasks[i]?).toList.map fun t => (p.caller, t.question)
  | .start | .close | .settle _ | .record _ | .send _ | .spread _ | .retire _ | .collect
  | .finish => []

/-- What an event does, where it is enabled, and what it puts to the authorizer. -/
def step (a : Access) (x : Inquiry) (e : Probe.Event) :
    Option (Inquiry × List (Identity × Question)) :=
  (x.actor e).bind fun p =>
    (Probe.step (a.setting p.caller p.namespaces) x.state e).map fun st =>
      ({ x with copies := x.copiesAfter p e, state := st }, x.puts p e)

end Inquiry

/-- The inquiries of a gateway. -/
structure Crowd where
  /-- in order of their beginnings -/
  inquiries : List Inquiry
  /-- what was put to the authorizer, with the place of the inquiry -/
  log : List (Nat × Identity × Question)

namespace Crowd

/-- Before any request. -/
def empty : Crowd := ⟨[], []⟩

instance : Inhabited Crowd := ⟨empty⟩

/-- What may happen next. -/
inductive Event
  /-- a request arrives, and namespaces are listed for it -/
  | arrive (r : Request) (namespaces : Except String (List String))
  /-- an inquiry goes on -/
  | probe (k : Nat) (e : Probe.Event)

/-- Whom a call has questions about, and which. -/
def inquired (c : Catalog) : Call → Option (Identity × List Question)
  | .rights kind ns name caller => some (caller, Access.rightsQuestions c kind ns name)
  | .watches caller => some (caller, Access.watchQuestions c)
  | .url .. | .direct _ => none

/-- Begins the inquiries that the handling of a request calls for. -/
def arrive (g : Gateway) (a : Access) (s : Crowd) (r : Request) (namespaces : List String) : Crowd :=
  { s with inquiries := s.inquiries ++
      ((g.handle r).calls.filterMap (inquired a.catalog)).map fun x =>
        .initial a r ⟨x.1, namespaces⟩ x.2 }

/-- What an event does, where it is enabled. -/
def step (g : Gateway) (a : Access) (s : Crowd) : Event → Option Crowd
  | .arrive r (.ok namespaces) => some (s.arrive g a r namespaces)
  | .arrive _ (.error _) => some s
  | .probe k e =>
    (s.inquiries[k]?).bind fun x =>
      (x.step a e).map fun y => ⟨s.inquiries.set k y.1, s.log ++ y.2.map (Prod.mk k)⟩

/-- A schedule of events, each enabled where it happens. -/
def run (g : Gateway) (a : Access) (s : Crowd) : List Event → Option Crowd
  | [] => some s
  | e :: es => (s.step g a e).bind fun s => s.run g a es

end Crowd

end WatchGate
