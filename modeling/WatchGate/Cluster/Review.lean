import WatchGate.Cluster.Reply
import WatchGate.Identity
import WatchGate.Question

/-!
# WatchGate: access reviews

A question about a caller is put to the cluster as a review. A `Review` holds
what the question asks and whom it is about; an empty namespace, subresource or
name is left out. `Review.allowed` reads the answer, and takes anything but an
explicit permission for a denial.
-/

namespace WatchGate.Cluster

/-- A question about a caller, as the cluster's API takes it. -/
structure Review where
  caller : Identity
  group : String
  resource : String
  verb : Verb
  ns : Option String
  subresource : Option String
  name : Option String
  deriving DecidableEq, Repr

namespace Review

/-- A text, unless it is empty. -/
def nonEmpty? (s : String) : Option String :=
  if s.isEmpty then none else some s

/-- The review of a caller's question. -/
def make (caller : Identity) (q : Question) : Review :=
  ⟨caller, q.kind.group, q.resource, q.verb, nonEmpty? q.ns, nonEmpty? q.subresource,
    nonEmpty? q.name⟩

/-- A member of a document, if there is a value. -/
def member (name : String) (value : Option String) : List (String × Json) :=
  value.toList.map (fun s => (name, .str s))

/-- What is asked. Any version of the resource is meant. -/
def attributes (r : Review) : Json :=
  .obj ([("group", .str r.group), ("resource", .str r.resource), ("verb", .str r.verb.word),
    ("version", .str "*")]
    ++ member "namespace" r.ns ++ member "subresource" r.subresource ++ member "name" r.name)

/-- Whom it is about, and what is asked. -/
def spec (r : Review) : Json :=
  .obj [("user", .str r.caller.user), ("groups", Json.ofStrings r.caller.groups),
    ("resourceAttributes", r.attributes)]

/-- The version of the API that takes reviews. -/
def version : String := "authorization.k8s.io/v1"

/-- The document that is posted. -/
def document (r : Review) : Json :=
  .obj [("apiVersion", .str version), ("kind", .str "SubjectAccessReview"), ("metadata", .obj []),
    ("spec", r.spec)]

/-- Where reviews are posted. -/
def path : String := "/apis/" ++ version ++ "/subjectaccessreviews?"

/-- A list of conditions on labels or fields. -/
def requirements : Shape :=
  .list (.record [("key", .text), ("operator", .text), ("values", .list .text)])

/-- The shape of an answered review. -/
def shape : Shape :=
  .typed version "SubjectAccessReview"
    [("metadata", .objectMeta),
      ("spec", .record [("extra", .map (.list .text)), ("groups", .list .text),
        ("nonResourceAttributes", .texts ["path", "verb"]),
        ("resourceAttributes", .record
          [("fieldSelector", .record [("rawSelector", .text), ("requirements", requirements)]),
            ("group", .text),
            ("labelSelector", .record [("rawSelector", .text), ("requirements", requirements)]),
            ("name", .text), ("namespace", .text), ("resource", .text), ("subresource", .text),
            ("verb", .text), ("version", .text)]),
        ("uid", .text), ("user", .text)]),
      ("status", .record [("allowed", .truth), ("denied", .truth), ("evaluationError", .text),
        ("reason", .text)])]

/-- Whether an answered review allows what was asked. -/
def allowed (answer : Json) : Bool :=
  match answer.field? "status" with
  | some status => truthOf status "allowed"
  | none => false

/-- The answer of a reply to a review. -/
def answer (r : Reply) : Except Failure Bool :=
  (r.read shape).map allowed

end Review

end WatchGate.Cluster
