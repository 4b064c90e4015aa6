import WatchGate.Multiwatch.Relay
import WatchGate.Multiwatch.Tally

/-!
# WatchGate: a watch session

The feeds of one client as a machine. Dials end one by one; the first that
succeeds makes the client switch protocols, and the others join as they succeed.
Each feed relays on its own: it reads an item, waits for space in a bounded
queue, and reads on. The session does one thing at a time: write a frame from
the queue to the client, take note of a dial or of a feed's end, or read from the
client. When a feed fails, or nothing is left to relay or dial, it writes what
the queue holds and is over.

`Session.step` says what an event does where it is enabled, and nothing about
which event comes next: a schedule is any list of events, `Reachable` any state
that some schedule leads to.
-/

namespace WatchGate.Multiwatch

/-- Where a feed stands. -/
inductive Stage
  /-- its dial has not ended -/
  | dialing
  /-- its dial failed -/
  | refused
  /-- dialed; waits for the client to switch protocols -/
  | ready
  /-- relays -/
  | relaying
  /-- has ended, which the session has not taken note of -/
  | finished (f : Fate)
  /-- has ended, as the session knows -/
  | noted (f : Fate)
  deriving DecidableEq, Repr

/-- A feed of a session. -/
structure Feed where
  stage : Stage
  /-- the items read so far -/
  items : List Item
  /-- a frame that waits for space in the queue -/
  hand : Option String
  deriving DecidableEq, Repr

namespace Feed

/-- A feed that is being dialed. -/
def dialed : Feed := ⟨.dialing, [], none⟩

/-- Whether the session counts a feed among those that relay. -/
def isLeg (f : Feed) : Bool :=
  match f.stage with
  | .relaying | .finished _ => true
  | _ => false

/-- Whether a feed's dial has not ended. -/
def isDialing (f : Feed) : Bool := f.stage = .dialing

/-- After reading an item. -/
def take (f : Feed) (x : Item) : Feed :=
  match x.fate? with
  | some fate => { f with stage := .finished fate, items := f.items ++ [x] }
  | none => { f with items := f.items ++ [x], hand := x.payload? }

end Feed

/-- Why a session ended. -/
inductive Ending
  /-- the client did not switch protocols -/
  | notUpgraded
  /-- a write to the client failed -/
  | writeFailed
  /-- the client sent a close frame -/
  | clientClosed
  /-- the client could not be read -/
  | clientFailed
  /-- the client's connection ended -/
  | clientGone
  | feedFailed (i : Nat)
  /-- the last feed ended, and no dial was left -/
  | feedsEnded
  /-- the last dial failed, and no feed was left -/
  | dialsFailed
  deriving DecidableEq, Repr

/-- What a session is doing. -/
inductive Phase
  /-- waits for a dial that succeeds -/
  | opening
  /-- waits for the client to switch protocols -/
  | upgrading (first : Nat)
  | running
  /-- writes what the queue holds -/
  | flushing (why : Ending)
  | closed (why : Ending)
  /-- no dial succeeded -/
  | rejected
  deriving DecidableEq, Repr

/-- A session. -/
structure Session where
  feeds : List Feed
  /-- frames that wait to be written, each with the place of its feed -/
  queue : List (Nat × String)
  /-- how many frames the queue holds at most -/
  capacity : Nat
  /-- the frame that is being written -/
  writing : Option (Nat × String)
  /-- the frames that the client has received -/
  delivered : List (Nat × String)
  phase : Phase
  tally : Tally
  deriving DecidableEq, Repr

/-- What may happen next. Feeds are named by their place in the list. -/
inductive Event
  /-- a dial ends -/
  | dialed (i : Nat) (ok : Bool)
  /-- the client switches protocols, or fails to -/
  | upgraded (ok : Bool)
  /-- a feed reads an item -/
  | read (i : Nat) (x : Item)
  /-- a feed's task breaks down where it would read -/
  | crash (i : Nat)
  /-- a feed finds space in the queue -/
  | enqueue (i : Nat)
  /-- the session takes a frame from the queue -/
  | take
  /-- the frame is written, or cannot be -/
  | wrote (ok : Bool)
  /-- the session takes note of a feed's end -/
  | note (i : Nat)
  /-- the session reads from the client -/
  | client (x : Item)
  /-- the queue is empty at the end -/
  | drained
  deriving DecidableEq, Repr

namespace Session

/-- A session whose feeds are all being dialed. Its queue holds at least one frame. -/
def initial (feeds outboundBuffer grants : Nat) : Session :=
  { feeds := List.replicate feeds .dialed, queue := [], capacity := max (max outboundBuffer grants) 1,
    writing := none, delivered := [], phase := if feeds = 0 then .rejected else .opening,
    tally := .zero }

/-- How many feeds the session counts as relaying. -/
def legs (s : Session) : Nat := s.feeds.countP Feed.isLeg

/-- How many dials have not ended. -/
def dialing (s : Session) : Nat := s.feeds.countP Feed.isDialing

/-- Whether nothing is left to relay or to dial. -/
def idle (s : Session) : Bool := s.legs == 0 && s.dialing == 0

/-- Whether the session waits for the next thing to do. -/
def atHead (s : Session) : Bool := s.phase = .running && s.writing.isNone

/-- Whether feeds relay. -/
def alive (s : Session) : Bool :=
  match s.phase with
  | .running | .flushing _ => true
  | _ => false

/-- With a feed changed. -/
def setFeed (s : Session) (i : Nat) (f : Feed) : Session :=
  { s with feeds := s.feeds.set i f }

/-- Writes what the queue holds before it ends. -/
def flush (s : Session) (why : Ending) : Session := { s with phase := .flushing why }

/-- Ends a session that was running. -/
def finish (s : Session) (why : Ending) : Session :=
  { s with phase := .closed why, tally := s.tally.closed }

/-- After the end of a dial. -/
def afterDial (s : Session) (i : Nat) (f : Feed) (ok : Bool) : Option Session :=
  let counted := { s with tally := s.tally.dial ok }
  match s.phase with
  | .opening =>
    if ok then some { counted.setFeed i { f with stage := .ready } with phase := .upgrading i }
    else
      let t := counted.setFeed i { f with stage := .refused }
      some (if t.dialing = 0 then { t with phase := .rejected } else t)
  | .running =>
    if s.writing.isSome then none
    else if ok then some (counted.setFeed i { f with stage := .relaying })
    else
      let t := counted.setFeed i { f with stage := .refused }
      some (if t.idle then t.flush .dialsFailed else t)
  | _ => none

/-- After the client's switch of protocols. -/
def afterUpgrade (s : Session) (i : Nat) (ok : Bool) : Option Session :=
  match s.feeds[i]? with
  | none => none
  | some f =>
    if ok then
      some { s.setFeed i { f with stage := .relaying } with
        phase := .running, tally := s.tally.opened }
    else some { s with phase := .closed .notUpgraded }

/-- After a write. -/
def afterWrite (s : Session) (x : Nat × String) (ok : Bool) : Option Session :=
  let t := { s with writing := none }
  if ok then some { t with delivered := s.delivered ++ [x], tally := s.tally.relayed }
  else
    match s.phase with
    | .running => some (t.finish .writeFailed)
    | .flushing why => some (t.finish why)
    | _ => none

/-- After the end of a feed. -/
def afterNote (s : Session) (i : Nat) (f : Feed) (fate : Fate) : Session :=
  let t := s.setFeed i { f with stage := .noted fate }
  match fate with
  | .clean => if t.idle then t.flush .feedsEnded else t
  | .failed | .crashed => t.flush (.feedFailed i)

/-- After reading from the client. -/
def afterClient (s : Session) : Item → Session
  | .close => s.finish .clientClosed
  | .failure => s.finish .clientFailed
  | .finish => s.finish .clientGone
  | .text _ | .binary _ | .ping _ | .pong _ | .frame => s

/-- What an event does, where it is enabled. -/
def step (s : Session) : Event → Option Session
  | .dialed i ok =>
    match s.feeds[i]? with
    | some f => if f.isDialing then s.afterDial i f ok else none
    | none => none
  | .upgraded ok =>
    match s.phase with
    | .upgrading i => s.afterUpgrade i ok
    | _ => none
  | .read i x =>
    match s.feeds[i]? with
    | some f =>
      if s.alive ∧ f.stage = .relaying ∧ f.hand = none then some (s.setFeed i (f.take x)) else none
    | none => none
  | .crash i =>
    match s.feeds[i]? with
    | some f =>
      if s.alive ∧ f.stage = .relaying ∧ f.hand = none then
        some (s.setFeed i { f with stage := .finished .crashed })
      else none
    | none => none
  | .enqueue i =>
    match s.feeds[i]? with
    | some f =>
      match f.hand with
      | some p =>
        if s.alive ∧ s.queue.length < s.capacity then
          some { s.setFeed i { f with hand := none } with queue := s.queue ++ [(i, p)] }
        else none
      | none => none
    | none => none
  | .take =>
    match s.queue with
    | x :: xs =>
      if s.alive ∧ s.writing = none then some { s with queue := xs, writing := some x } else none
    | [] => none
  | .wrote ok =>
    match s.writing with
    | some x => s.afterWrite x ok
    | none => none
  | .note i =>
    match s.feeds[i]? with
    | some f =>
      match f.stage with
      | .finished fate => if s.atHead then some (s.afterNote i f fate) else none
      | _ => none
    | none => none
  | .client x => if s.atHead then some (s.afterClient x) else none
  | .drained =>
    match s.phase with
    | .flushing why =>
      if s.writing = none ∧ s.queue = [] then some (s.finish why) else none
    | _ => none

/-- A schedule of events, each enabled where it happens. -/
def run (s : Session) : List Event → Option Session
  | [] => some s
  | e :: es => (s.step e).bind (fun s => s.run es)

/-- The states that schedules lead to. -/
def Reachable (start s : Session) : Prop := ∃ es, start.run es = some s

/-- Does events one by one, passing over those that are not enabled. -/
def attempt (s : Session) (es : List Event) : Session :=
  es.foldl (fun s e => (s.step e).getD s) s

theorem run_append (s : Session) (as bs : List Event) :
    s.run (as ++ bs) = (s.run as).bind (fun s => s.run bs) := by
  induction as generalizing s with
  | nil => rfl
  | cons a as ih =>
    simp only [List.cons_append, run]
    cases s.step a with
    | none => rfl
    | some t => exact ih t

theorem Reachable.refl (s : Session) : Reachable s s := ⟨[], rfl⟩

theorem Reachable.step {start s t : Session} {e : Event} (h : Reachable start s)
    (he : s.step e = some t) : Reachable start t := by
  obtain ⟨es, hes⟩ := h
  exact ⟨es ++ [e], by rw [run_append, hes]; simp [run, he]⟩

/-- Events that are done one by one lead to reachable states only. -/
theorem Reachable.attempt {start s : Session} (h : Reachable start s) (es : List Event) :
    Reachable start (s.attempt es) := by
  induction es generalizing s with
  | nil => exact h
  | cons e es ih =>
    show Reachable start (((s.step e).getD s).attempt es)
    cases he : s.step e with
    | none => exact ih h
    | some t => exact ih (h.step he)

/-- What holds at first and is kept by each step holds in every reachable state. -/
theorem Reachable.induction {start s : Session} {P : Session → Prop} (h0 : P start)
    (hs : ∀ s e t, P s → s.step e = some t → P t) (h : Reachable start s) : P s := by
  obtain ⟨es, hes⟩ := h
  induction es generalizing start with
  | nil => simp only [run, Option.some.injEq] at hes; exact hes ▸ h0
  | cons e es ih =>
    simp only [run] at hes
    cases he : start.step e with
    | none => rw [he] at hes; simp at hes
    | some t => rw [he] at hes; exact ih (hs start e t h0 he) hes

end Session

end WatchGate.Multiwatch
