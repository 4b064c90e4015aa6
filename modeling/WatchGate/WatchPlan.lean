import WatchGate.NameMap
import WatchGate.Question

/-!
# WatchGate: what to watch

A `WatchPlan` folds grants into one entry for each kind. An entry without
namespaces is watched across the cluster and takes one connection; any other
entry takes one connection for each of its namespaces. A kind whose instances
have no namespace can only be watched across the cluster, so a grant for it in
a namespace is passed over.
-/

namespace WatchGate

/-- A kind to watch, and where. -/
structure Watched where
  kind : Kind
  /-- in order of arrival; none at all means the whole cluster -/
  namespaces : List String
  deriving DecidableEq, Repr

namespace Watched

/-- Whether the kind is watched across the cluster. -/
def clusterWide (w : Watched) : Bool := w.namespaces.isEmpty

/-- One namespace and path for each connection. -/
def paths (w : Watched) : List (String × String) :=
  if w.clusterWide then [("", w.kind.watchPath "")]
  else w.namespaces.map (fun ns => (ns, w.kind.watchPath ns))

/-- How many connections the kind takes. -/
def connections (w : Watched) : Nat := max w.namespaces.length 1

theorem length_paths (w : Watched) : w.paths.length = w.connections := by
  unfold paths connections clusterWide
  cases h : w.namespaces with
  | nil => simp
  | cons n ns => simp

end Watched

/-- Everything that a caller may watch. -/
structure WatchPlan where
  entries : NameMap Watched
  /-- how many grants were taken into account -/
  grants : Nat

namespace WatchPlan

/-- Nothing to watch. -/
def empty : WatchPlan := ⟨∅, 0⟩

instance : Inhabited WatchPlan := ⟨empty⟩

/-- Whether a grant says something that can be watched. -/
def admits (g : Grant) : Bool := g.kind.namespaced || g.ns.isEmpty

/-- An entry after one more grant; the first grant brings the kind. -/
def extend (g : Grant) (present : Option Watched) : Watched :=
  let w := present.getD ⟨g.kind, []⟩
  if g.ns.isEmpty then w else { w with namespaces := w.namespaces ++ [g.ns] }

/-- Takes a grant into account. -/
def add (p : WatchPlan) (g : Grant) : WatchPlan :=
  if admits g then ⟨p.entries.alter g.kind.name (extend g), p.grants + 1⟩ else p

/-- The plan that grants give. -/
def ofGrants (gs : List Grant) : WatchPlan :=
  gs.foldl add empty

/-- Whether there is nothing to watch. -/
def isEmpty (p : WatchPlan) : Bool := p.entries.entries.isEmpty

/-- What is watched, by name of the kind. -/
def toList (p : WatchPlan) : List Watched := p.entries.values

/-- How many connections the plan takes. -/
def connections (p : WatchPlan) : Nat := p.toList.foldr (fun w n => w.connections + n) 0

/-- The namespaces and paths of all connections: kinds by name, namespaces in order of arrival. -/
def paths (p : WatchPlan) : List (String × String) := p.toList.flatMap Watched.paths

theorem length_paths (p : WatchPlan) : p.paths.length = p.connections := by
  unfold paths connections
  induction p.toList with
  | nil => rfl
  | cons w ws ih => simp [Watched.length_paths, ih]

end WatchPlan

end WatchGate
