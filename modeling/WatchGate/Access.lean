import WatchGate.Catalog
import WatchGate.Identity
import WatchGate.Probe.Timeline
import WatchGate.Rights
import WatchGate.WatchPlan

/-!
# WatchGate: access of a caller

Two questions about a caller are answered by runs of probes over the listed
namespaces: which rights the caller has on a resource (`Access.rights`), and
what the caller may watch (`Access.watches`). `rightsQuestions` and
`watchQuestions` are the root questions of the two; the runs themselves are
those of `Probe`.
-/

namespace WatchGate

/-- What access is answered from. -/
structure Access where
  catalog : Catalog
  /-- what the cluster answers when its namespaces are listed -/
  namespaces : Except String (List String)
  /-- the authorizer -/
  decide : Identity → Question → Probe.Answer
  limits : Probe.Limits

namespace Access

/-- Why access cannot be answered. -/
inductive Error
  | emptyKind
  | listing (cause : String)
  deriving DecidableEq, Repr

namespace Error

/-- The text of an error. -/
def message : Error → String
  | .emptyKind => "'kind' cannot be empty"
  | .listing cause => "failed to list namespaces: " ++ cause

end Error

/-- What is made of a run of probes, which has to end for it to be an answer. -/
structure Survey (α : Type) where
  result : Except Error α
  report : Probe.Report

/-- The answer, if there is one. -/
def Survey.answer? {α : Type} (x : Survey α) : Option (Except Error α) :=
  if x.report.ended then some x.result else none

theorem Survey.answer?_eq_some_iff {α : Type} {x : Survey α} {r : Except Error α} :
    x.answer? = some r ↔ x.report.ended = true ∧ x.result = r := by
  unfold Survey.answer?
  simp

/-- The setting of a caller's probes. -/
def setting (a : Access) (i : Identity) (namespaces : List String) : Probe.Setting :=
  ⟨a.decide i, namespaces, a.limits⟩

/-- The five questions about a resource. Logs and exec are asked about pods, whatever the kind. -/
def rightsQuestions (c : Catalog) (kind ns name : String) : List Question :=
  let k := c.resolve kind
  let pod := c.resolve "Pod"
  let resource (v : Verb) := ((Question.about k k.plural v).inNamespace ns).named name
  let onPods (s : String) := ((Question.about pod "pods" .get).inNamespace ns).onSubresource s
  [resource .get, resource .update, resource .delete, onPods "log", onPods "exec"]

/-- One question for each kind of the catalog. -/
def watchQuestions (c : Catalog) : List Question :=
  c.toList.map (fun k => Question.about k k.plural .watch)

/-- Puts questions over the listed namespaces and makes an answer of the grants. -/
def survey {α : Type} (a : Access) (i : Identity) (qs : List Question) (f : List Grant → α) :
    Survey α :=
  match a.namespaces with
  | .error cause => ⟨.error (.listing cause), .empty⟩
  | .ok namespaces =>
    let r := (a.setting i namespaces).report qs
    ⟨.ok (f r.grants), r⟩

/-- The rights of a caller on a resource. -/
def rights (a : Access) (kind ns name : String) (i : Identity) : Survey Rights :=
  if kind.isEmpty then ⟨.error .emptyKind, .empty⟩
  else a.survey i (rightsQuestions a.catalog kind ns name) Rights.ofGrants

/-- What a caller may watch. -/
def watches (a : Access) (i : Identity) : Survey WatchPlan :=
  a.survey i (watchQuestions a.catalog) WatchPlan.ofGrants

end Access

end WatchGate
