import WatchGate.Question

/-!
# WatchGate: probing

A probe puts one question to an authorizer. A question that is denied for the
whole cluster is put again for each namespace. `Probe.Setting` gathers what
fixes the outcome of every probe: the authorizer, the listed namespaces, and
the limits on time and on the number of calls in flight.

* `Setting.outcome` — what becomes of a question;
* `Setting.children` — the questions that a denial owes;
* `Tally` — the log of outcomes and fan-outs, and its counters.
-/

namespace WatchGate.Probe

/-- What an authorizer says. -/
inductive Verdict
  | allow
  | deny
  | error
  deriving DecidableEq, Repr

/-- What an authorizer says, and after how many milliseconds. -/
structure Answer where
  verdict : Verdict
  delay : Nat
  deriving DecidableEq, Repr

/-- What becomes of a question. -/
inductive Outcome
  | allowed
  | denied
  | failed
  deriving DecidableEq, Repr

namespace Outcome

/-- The word for an outcome. -/
def word : Outcome → String
  | .allowed => "allowed"
  | .denied => "denied"
  | .failed => "failed"

/-- The outcomes in order of their words. -/
def all : List Outcome := [.allowed, .denied, .failed]

end Outcome

/-- Limits on the questions of one run. -/
structure Limits where
  /-- how many milliseconds a call may take -/
  timeout : Nat
  /-- how many calls may be in flight; nothing and zero both mean any number -/
  permits : Option Nat
  deriving DecidableEq, Repr

namespace Limits

/-- Five seconds for each call, and any number of calls at once. -/
def standard : Limits := ⟨5000, none⟩

/-- How many permits there are, if calls are limited. -/
def slots (l : Limits) : Option Nat :=
  match l.permits with
  | some (n + 1) => some (n + 1)
  | _ => none

end Limits

/-- What fixes the outcome of every probe of one caller. -/
structure Setting where
  /-- the authorizer, for this caller -/
  decide : Question → Answer
  /-- the listed namespaces -/
  namespaces : List String
  limits : Limits

namespace Setting

/-- Whether the answer to a question comes too late. An answer at the very timeout is in time. -/
def late (s : Setting) (q : Question) : Bool :=
  s.limits.timeout < (s.decide q).delay

/-- What becomes of a question. An error and a late answer are no denial. -/
def outcome (s : Setting) (q : Question) : Outcome :=
  if s.late q then .failed
  else
    match (s.decide q).verdict with
    | .allow => .allowed
    | .deny => .denied
    | .error => .failed

/-- How long a question keeps its permit. -/
def duration (s : Setting) (q : Question) : Nat :=
  min (s.decide q).delay s.limits.timeout

/-- The questions that a denial owes: one for each namespace, if it was for the whole cluster. -/
def children (s : Setting) (q : Question) : List Question :=
  if q.clusterWide then s.namespaces.map q.inNamespace else []

end Setting

/-- The log of what probes came to: every count is a count of entries. -/
structure Tally where
  /-- the outcome of each question, with its verb -/
  outcomes : List (Verb × Outcome)
  /-- the verb of each cluster-wide denial that was put again in the namespaces -/
  fanouts : List Verb
  deriving DecidableEq, Repr

namespace Tally

/-- Nothing recorded. -/
def empty : Tally := ⟨[], []⟩

instance : Inhabited Tally := ⟨empty⟩

/-- Records an outcome. -/
def record (t : Tally) (v : Verb) (o : Outcome) : Tally :=
  { t with outcomes := (v, o) :: t.outcomes }

/-- Records a fan-out. -/
def recordFanout (t : Tally) (v : Verb) : Tally :=
  { t with fanouts := v :: t.fanouts }

/-- How many questions of a verb had an outcome. -/
def count (t : Tally) (v : Verb) (o : Outcome) : Nat :=
  t.outcomes.count (v, o)

/-- How many questions of a verb were put again in the namespaces. -/
def fanoutCount (t : Tally) (v : Verb) : Nat :=
  t.fanouts.count v

/-- The records of two runs together. -/
def both (a b : Tally) : Tally :=
  ⟨a.outcomes ++ b.outcomes, a.fanouts ++ b.fanouts⟩

/-- Records the outcome of a question, and its fan-out if it was denied for the whole cluster. -/
def recordQuestion (t : Tally) (q : Question) (o : Outcome) : Tally :=
  let t := t.record q.verb o
  if o = .denied ∧ q.clusterWide then t.recordFanout q.verb else t

/-- A sample line, if it has counted. -/
def sample (name labels : String) (n : Nat) : List String :=
  if n = 0 then [] else [name ++ "\x7b" ++ labels ++ "\x7d " ++ toString n]

/-- The sample lines in order. A series appears once it has counted. -/
def lines (t : Tally) (scope : String) : List String :=
  Verb.all.flatMap (fun v =>
      sample (scope ++ "fanouts_total") ("verb=\"" ++ v.word ++ "\"") (t.fanoutCount v))
    ++ Verb.all.flatMap (fun v => Outcome.all.flatMap (fun o =>
      sample (scope ++ "probes_total")
        ("verb=\"" ++ v.word ++ "\",result=\"" ++ o.word ++ "\"") (t.count v o)))

@[simp] theorem count_record (t : Tally) (v : Verb) (o : Outcome) (v' : Verb) (o' : Outcome) :
    (t.record v o).count v' o' = t.count v' o' + if v = v' ∧ o = o' then 1 else 0 := by
  simp only [count, record, List.count_cons, beq_iff_eq, Prod.mk.injEq]

@[simp] theorem count_recordFanout (t : Tally) (v v' : Verb) (o : Outcome) :
    (t.recordFanout v).count v' o = t.count v' o := rfl

@[simp] theorem fanoutCount_record (t : Tally) (v v' : Verb) (o : Outcome) :
    (t.record v o).fanoutCount v' = t.fanoutCount v' := rfl

@[simp] theorem fanoutCount_recordFanout (t : Tally) (v v' : Verb) :
    (t.recordFanout v).fanoutCount v' = t.fanoutCount v' + if v = v' then 1 else 0 := by
  simp only [fanoutCount, recordFanout, List.count_cons, beq_iff_eq]

end Tally

end WatchGate.Probe
