import WatchGate.Kind

/-!
# WatchGate: questions about access, and grants

A `Question` is what is put to the authorizer: may the caller do this to that.
The empty namespace asks about the whole cluster. A `Grant` is what an allowed
question leaves behind.
-/

namespace WatchGate

/-- What a caller may want to do. -/
inductive Verb
  | get
  | update
  | delete
  | watch
  deriving DecidableEq, Repr

namespace Verb

/-- The word for a verb. -/
def word : Verb → String
  | .get => "get"
  | .update => "update"
  | .delete => "delete"
  | .watch => "watch"

/-- The verbs in order of their words. -/
def all : List Verb := [.delete, .get, .update, .watch]

/-- The verb of a word. -/
def ofWord? (s : String) : Option Verb :=
  all.find? (fun v => v.word == s)

theorem ofWord?_word (v : Verb) : ofWord? v.word = some v := by
  cases v <;> decide

end Verb

/-- One question for the authorizer. -/
structure Question where
  kind : Kind
  /-- the plural that is asked about -/
  resource : String
  verb : Verb
  /-- empty for the whole cluster -/
  ns : String
  /-- empty for the resource itself -/
  subresource : String
  /-- empty for any instance -/
  name : String
  deriving DecidableEq, Repr

/-- What an allowed question gives. -/
structure Grant where
  kind : Kind
  verb : Verb
  subresource : String
  /-- where the question was allowed; empty for the whole cluster -/
  ns : String
  deriving DecidableEq, Repr

namespace Question

/-- The question about any instance of a resource in the whole cluster. -/
def about (kind : Kind) (resource : String) (verb : Verb) : Question :=
  ⟨kind, resource, verb, "", "", ""⟩

/-- The same question in a namespace. -/
def inNamespace (q : Question) (ns : String) : Question := { q with ns }

/-- The same question about a subresource. -/
def onSubresource (q : Question) (s : String) : Question := { q with subresource := s }

/-- The same question about one instance. -/
def named (q : Question) (name : String) : Question := { q with name }

/-- Whether a question is about the whole cluster. -/
def clusterWide (q : Question) : Bool := q.ns.isEmpty

/-- What the question gives when it is allowed. -/
def grant (q : Question) : Grant := ⟨q.kind, q.verb, q.subresource, q.ns⟩

end Question

end WatchGate
