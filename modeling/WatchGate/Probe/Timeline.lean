import WatchGate.Probe

/-!
# WatchGate: a run of probes against a clock

One schedule of a run, with times. Questions wait for a permit in a line, first
come first served, and take the permits that are free; the clock moves on only
when nothing can start, to the earliest end of a call; the calls that end at one
instant all end before others start, and what they owe goes to the end of the
line. Waiting for a permit takes none of a call's time.

`Report` holds what was asked and granted, the counters, the time taken, and two
peaks: of calls that hold a permit, and of calls begun and not seen to end. A
call that was given up at its timeout is never seen to end, so it counts in the
second peak from then on.
-/

namespace WatchGate.Probe

/-- A call in flight. -/
structure Call where
  question : Question
  /-- when its permit is given back -/
  ending : Nat
  deriving DecidableEq, Repr

/-- The state of a run at one instant. -/
structure Timeline where
  now : Nat
  /-- questions that wait for a permit -/
  line : List Question
  /-- calls in flight, in the order in which they started -/
  calls : List Call
  /-- how many calls were given up -/
  abandoned : Nat
  /-- the most calls that held a permit at once -/
  peak : Nat
  /-- the most calls that were begun and not seen to end -/
  openPeak : Nat
  /-- questions asked, the latest first -/
  asked : List Question
  /-- grants, the latest first -/
  grants : List Grant
  tally : Tally

/-- What a run came to. -/
structure Report where
  /-- the questions in the order in which they were asked -/
  asked : List Question
  /-- the grants in the order in which they came -/
  grants : List Grant
  tally : Tally
  elapsed : Nat
  peak : Nat
  openPeak : Nat
  /-- whether nothing was left; what goes on for ever is reported up to some instant -/
  ended : Bool

namespace Report

/-- The report of a run in which nothing was asked. -/
def empty : Report := ⟨[], [], .empty, 0, 0, 0, true⟩

end Report

namespace Timeline

/-- Before anything started. -/
def initial (qs : List Question) : Timeline :=
  ⟨0, qs, [], 0, 0, 0, [], [], .empty⟩

/-- Whether a call may start. -/
def hasRoom (s : Setting) (t : Timeline) : Bool :=
  match s.limits.slots with
  | none => true
  | some n => t.calls.length < n

/-- Takes the outcome of a question into account. -/
def settle (s : Setting) (t : Timeline) (q : Question) : Timeline :=
  let o := s.outcome q
  let t := { t with tally := t.tally.recordQuestion q o }
  match o with
  | .allowed => { t with grants := q.grant :: t.grants }
  | .denied => { t with line := t.line ++ s.children q }
  | .failed => t

/-- Starts the call of a question. A call that takes no time ends at once. -/
def start (s : Setting) (t : Timeline) (q : Question) : Timeline :=
  let t := { t with
    asked := q :: t.asked
    peak := max t.peak (t.calls.length + 1)
    openPeak := max t.openPeak (t.calls.length + 1 + t.abandoned) }
  if (s.decide q).delay = 0 then t.settle s q
  else { t with calls := t.calls ++ [⟨q, t.now + s.duration q⟩] }

/-- The earliest end of a call. -/
def nextEnd : List Call → Option Nat
  | [] => none
  | c :: cs =>
    match nextEnd cs with
    | some n => some (min c.ending n)
    | none => some c.ending

/-- Moves on to an instant and ends the calls that end then. -/
def advance (s : Setting) (t : Timeline) (instant : Nat) : Timeline :=
  let ended := t.calls.filter (fun c => c.ending = instant)
  let t := { t with
    now := instant
    calls := t.calls.filter (fun c => c.ending ≠ instant)
    abandoned := t.abandoned + (ended.filter (fun c => s.late c.question)).length }
  ended.foldl (fun t c => t.settle s c.question) t

/-- Starts what can start, then moves on to the next end, until nothing is left. -/
def go (s : Setting) : Nat → Timeline → Timeline
  | 0, t => t
  | fuel + 1, t =>
    match t.line with
    | q :: rest =>
      if t.hasRoom s then go s fuel (start s { t with line := rest } q)
      else
        match nextEnd t.calls with
        | some instant => go s fuel (t.advance s instant)
        | none => t
    | [] =>
      match nextEnd t.calls with
      | some instant => go s fuel (t.advance s instant)
      | none => t

/-- Enough turns for questions: each starts once and ends once, and so does each
of the questions that it may owe. -/
def turns (s : Setting) (qs : List Question) : Nat :=
  2 * qs.length * (1 + s.namespaces.length) + 1

/-- What a run came to. -/
def report (t : Timeline) : Report :=
  ⟨t.asked.reverse, t.grants.reverse, t.tally, t.now, t.peak, t.openPeak,
    t.line.isEmpty && t.calls.isEmpty⟩

end Timeline

/-- Runs the probes of some questions against a clock. -/
def Setting.report (s : Setting) (qs : List Question) : Report :=
  (Timeline.go s (Timeline.turns s qs) (Timeline.initial qs)).report

end WatchGate.Probe
