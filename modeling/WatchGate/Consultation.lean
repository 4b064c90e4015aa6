import WatchGate.Access
import WatchGate.Probe.Machine

/-!
# WatchGate: consulting access

An answer about a caller takes three stages. What is asked may be refused before
anything is looked up; then the namespaces are listed, whether they will be needed or
not; then probes put questions, and what they are granted is made into the answer. A
`Subject` is what is to be answered, and a `Consultation` one answer on its way, with
what it has done to others so far: how often it had the namespaces listed, what it put to
the authorizer and what it recorded.

As with `Probe.step`, nothing says which event comes next. `Access.answer` is the answer
of one schedule, and `Access.rights` and `Access.watches` are answers of this kind.
-/

namespace WatchGate

/-- What is to be answered about a caller. -/
structure Subject (α : Type) where
  /-- why it is refused before anything is looked up -/
  objection : Option Access.Error
  /-- the root questions -/
  questions : List Question
  /-- what is made of the grants -/
  conclude : List Grant → α

namespace Subject

/-- The rights on a resource. -/
def rights (c : Catalog) (kind ns name : String) : Subject Rights :=
  ⟨if kind.isEmpty then some .emptyKind else none, Access.rightsQuestions c kind ns name,
    Rights.ofGrants⟩

/-- What may be watched. -/
def watches (c : Catalog) : Subject WatchPlan :=
  ⟨none, Access.watchQuestions c, WatchPlan.ofGrants⟩

end Subject

/-- The answer of one schedule, with the run of probes that it came from. -/
def Access.answer {α : Type} (a : Access) (i : Identity) (x : Subject α) : Access.Survey α :=
  match x.objection with
  | some e => ⟨.error e, .empty⟩
  | none => a.survey i x.questions x.conclude

theorem Access.rights_eq_answer (a : Access) (kind ns name : String) (i : Identity) :
    a.rights kind ns name i = a.answer i (.rights a.catalog kind ns name) := by
  unfold Access.rights Access.answer Subject.rights
  split <;> rfl

theorem Access.watches_eq_answer (a : Access) (i : Identity) :
    a.watches i = a.answer i (.watches a.catalog) := rfl

/-- Where a consultation stands. -/
inductive Stage (α : Type)
  | begun
  /-- the namespaces are being listed -/
  | listing
  /-- the questions are being put over the namespaces that were listed -/
  | probing (namespaces : List String) (run : Probe.State)
  | answered (result : Except Access.Error α)

/-- An answer on its way. -/
structure Consultation (α : Type) where
  stage : Stage α
  /-- how often the namespaces were listed -/
  listings : Nat
  /-- the questions put to the authorizer -/
  asked : List Question
  /-- the outcomes and fan-outs that were recorded -/
  tally : Probe.Tally

namespace Consultation

/-- Before anything happened. -/
def initial {α : Type} : Consultation α := ⟨.begun, 0, [], .empty⟩

/-- What may happen next. -/
inductive Event
  /-- the subject is refused, or the cluster is asked for its namespaces -/
  | consider
  /-- the cluster answers, or fails to -/
  | listed
  /-- the probes go on -/
  | probe (e : Probe.Event)
  /-- the grants are handed over and made into an answer -/
  | conclude
  deriving DecidableEq, Repr

/-- What an event does, where it is enabled. -/
def step {α : Type} (a : Access) (i : Identity) (x : Subject α) (k : Consultation α) :
    Event → Option (Consultation α)
  | .consider =>
    match k.stage with
    | .begun =>
      match x.objection with
      | some e => some { k with stage := .answered (.error e) }
      | none => some { k with stage := .listing, listings := k.listings + 1 }
    | _ => none
  | .listed =>
    match k.stage with
    | .listing =>
      match a.namespaces with
      | .error cause => some { k with stage := .answered (.error (.listing cause)) }
      | .ok namespaces =>
        some { k with
          stage := .probing namespaces (.initial (a.setting i namespaces) x.questions) }
    | _ => none
  | .probe e =>
    match k.stage with
    | .probing namespaces st =>
      (Probe.step (a.setting i namespaces) st e).map fun st =>
        { k with stage := .probing namespaces st, asked := st.asked, tally := st.tally }
    | _ => none
  | .conclude =>
    match k.stage with
    | .probing _ st =>
      if st.finished then some { k with stage := .answered (.ok (x.conclude st.grants)) } else none
    | _ => none

/-- A schedule of events, each enabled where it happens. -/
def run {α : Type} (a : Access) (i : Identity) (x : Subject α) (k : Consultation α) :
    List Event → Option (Consultation α)
  | [] => some k
  | e :: es => (step a i x k e).bind fun k => run a i x k es

/-- The consultations that schedules lead to. -/
def Reachable {α : Type} (a : Access) (i : Identity) (x : Subject α) (k : Consultation α) : Prop :=
  ∃ es, run a i x .initial es = some k

end Consultation

end WatchGate
