import WatchGate.Probe

/-!
# WatchGate: probes as concurrent tasks

A run of probes as a machine. The root hands each question to a task of its
own and then gives up its sender. A task waits for a permit, has its question
answered, gives the permit back, records the outcome, and then sends its grant
or starts one task for each namespace that it owes; a task owns a sender on the
grant channel for as long as it lives. The root collects grants until the
channel is empty and has no sender left.

`step` says what an event does where it is enabled, and nothing about which
event comes next: a schedule is any list of events, `Reachable` any state that
some schedule leads to. `finished` is the state that hands the grants over.
-/

namespace WatchGate.Probe

/-- Where a task stands. -/
inductive Phase
  /-- has no permit; its question is not asked -/
  | waiting
  /-- holds a permit; its question is with the authorizer -/
  | asking
  /-- the authorizer is done; the permit is given back, nothing is recorded -/
  | settled (o : Outcome)
  /-- allowed and recorded; the grant is not sent -/
  | granting
  /-- denied for the whole cluster and recorded; owes a task for each of these -/
  | spreading (owed : List Question)
  /-- has nothing left to do but to give up its sender -/
  | ending
  deriving DecidableEq, Repr

/-- A live probe. -/
structure Task where
  question : Question
  phase : Phase
  deriving DecidableEq, Repr

/-- The state of a run. -/
structure State where
  /-- questions that have no task yet -/
  roots : List Question
  /-- whether the root still owns its sender -/
  rootSender : Bool
  /-- the live probes; each owns a sender -/
  tasks : List Task
  /-- free permits, if calls are limited -/
  permits : Option Nat
  /-- grants sent and not collected -/
  channel : List Grant
  /-- grants collected -/
  grants : List Grant
  /-- whether the grants were handed over -/
  finished : Bool
  /-- the questions put to the authorizer -/
  asked : List Question
  tally : Tally
  deriving DecidableEq

/-- What may happen next. Tasks are named by their place in the list. -/
inductive Event
  /-- the root starts a task for its next question -/
  | start
  /-- the root gives up its sender -/
  | close
  /-- a task takes a permit and puts its question -/
  | ask (i : Nat)
  /-- the answer comes or is given up; the permit is given back -/
  | settle (i : Nat)
  /-- the outcome is recorded -/
  | record (i : Nat)
  /-- the grant is sent -/
  | send (i : Nat)
  /-- a task is started for the next namespace that is owed -/
  | spread (i : Nat)
  /-- a task ends and gives up its sender -/
  | retire (i : Nat)
  /-- the root collects a grant -/
  | collect
  /-- the channel is empty and has no sender: the grants are handed over -/
  | finish
  deriving DecidableEq, Repr

namespace State

/-- Before anything happened. -/
def initial (s : Setting) (qs : List Question) : State :=
  { roots := qs, rootSender := true, tasks := [], permits := s.limits.slots, channel := [],
    grants := [], finished := false, asked := [], tally := .empty }

/-- How many senders the grant channel has. -/
def senders (st : State) : Nat :=
  st.tasks.length + if st.rootSender then 1 else 0

/-- Whether a permit can be taken. -/
def hasPermit (st : State) : Bool :=
  match st.permits with
  | none => true
  | some n => 0 < n

/-- With one permit taken. -/
def takePermit (st : State) : State :=
  { st with permits := st.permits.map (· - 1) }

/-- With one permit given back. -/
def givePermit (st : State) : State :=
  { st with permits := st.permits.map (· + 1) }

/-- With the task at a place in another phase. -/
def setPhase (st : State) (i : Nat) (t : Task) (p : Phase) : State :=
  { st with tasks := st.tasks.set i { t with phase := p } }

end State

/-- The phase of a task behind its record. -/
def afterRecord (s : Setting) (q : Question) : Outcome → Phase
  | .allowed => .granting
  | .denied => if q.clusterWide then .spreading (s.children q) else .ending
  | .failed => .ending

/-- What an event does, where it is enabled. -/
def step (s : Setting) (st : State) : Event → Option State
  | .start =>
    match st.roots with
    | q :: qs =>
      if st.rootSender then
        some { st with roots := qs, tasks := st.tasks ++ [⟨q, .waiting⟩] }
      else none
    | [] => none
  | .close =>
    if st.roots.isEmpty ∧ st.rootSender then some { st with rootSender := false } else none
  | .ask i =>
    match st.tasks[i]? with
    | some t =>
      if t.phase = .waiting ∧ st.hasPermit then
        some { (st.takePermit.setPhase i t .asking) with asked := st.asked ++ [t.question] }
      else none
    | none => none
  | .settle i =>
    match st.tasks[i]? with
    | some t =>
      if t.phase = .asking then
        some (st.givePermit.setPhase i t (.settled (s.outcome t.question)))
      else none
    | none => none
  | .record i =>
    match st.tasks[i]? with
    | some t =>
      match t.phase with
      | .settled o =>
        some { (st.setPhase i t (afterRecord s t.question o)) with
          tally := st.tally.recordQuestion t.question o }
      | _ => none
    | none => none
  | .send i =>
    match st.tasks[i]? with
    | some t =>
      if t.phase = .granting then
        some { (st.setPhase i t .ending) with channel := st.channel ++ [t.question.grant] }
      else none
    | none => none
  | .spread i =>
    match st.tasks[i]? with
    | some t =>
      match t.phase with
      | .spreading (c :: cs) =>
        let st := st.setPhase i t (.spreading cs)
        some { st with tasks := st.tasks ++ [⟨c, .waiting⟩] }
      | _ => none
    | none => none
  | .retire i =>
    match st.tasks[i]? with
    | some t =>
      if t.phase = .ending ∨ t.phase = .spreading [] then
        some { st with tasks := st.tasks.eraseIdx i }
      else none
    | none => none
  | .collect =>
    match st.channel with
    | g :: gs => if st.finished then none else some { st with channel := gs, grants := st.grants ++ [g] }
    | [] => none
  | .finish =>
    if st.channel.isEmpty ∧ st.senders = 0 ∧ st.finished = false then
      some { st with finished := true }
    else none

/-- A schedule of events, each enabled where it happens. -/
def run (s : Setting) (st : State) : List Event → Option State
  | [] => some st
  | e :: es => (step s st e).bind (fun st => run s st es)

/-- The states that schedules lead to. -/
def Reachable (s : Setting) (qs : List Question) (st : State) : Prop :=
  ∃ es, run s (.initial s qs) es = some st

theorem run_append (s : Setting) (st : State) (as bs : List Event) :
    run s st (as ++ bs) = (run s st as).bind (fun st => run s st bs) := by
  induction as generalizing st with
  | nil => rfl
  | cons a as ih =>
    simp only [List.cons_append, run]
    cases step s st a with
    | none => rfl
    | some st' => exact ih st'

theorem Reachable.initial (s : Setting) (qs : List Question) :
    Reachable s qs (.initial s qs) :=
  ⟨[], rfl⟩

theorem Reachable.step {s : Setting} {qs : List Question} {st st' : State} {e : Event}
    (h : Reachable s qs st) (he : step s st e = some st') : Reachable s qs st' := by
  obtain ⟨es, hes⟩ := h
  exact ⟨es ++ [e], by rw [run_append, hes]; simp [run, he]⟩

/-- What holds at first and is kept by each step holds in every reachable state. -/
theorem Reachable.induction {s : Setting} {qs : List Question} {P : State → Prop}
    (h0 : P (.initial s qs)) (hs : ∀ st e st', P st → Probe.step s st e = some st' → P st')
    {st : State} (h : Reachable s qs st) : P st := by
  obtain ⟨es, hes⟩ := h
  have key : ∀ es st₀, P st₀ → run s st₀ es = some st → P st := by
    intro es
    induction es with
    | nil => intro st₀ h h'; simp only [run, Option.some.injEq] at h'; exact h' ▸ h
    | cons e es ih =>
      intro st₀ h h'
      simp only [run] at h'
      cases he : Probe.step s st₀ e with
      | none => rw [he] at h'; simp at h'
      | some st₁ =>
        rw [he] at h'
        exact ih st₁ (hs st₀ e st₁ h he) h'
  exact key es _ h0 hes

end WatchGate.Probe
