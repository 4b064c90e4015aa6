import WatchGate.Text

/-!
# WatchGate: kinds of resources

A `Kind` describes one type of resource that the cluster serves: its name, its
plural, the path under which its version is served, and whether its instances
live in a namespace. Two things are read off the path: the API group, and where
instances are watched.
-/

namespace WatchGate

/-- A type of resource. -/
structure Kind where
  /-- e.g. `Deployment` -/
  name : String
  /-- e.g. `deployments` -/
  plural : String
  /-- e.g. `apis/apps/v1`, with or without slashes at its ends -/
  base : String
  /-- whether instances live in a namespace -/
  namespaced : Bool
  deriving DecidableEq, Repr

namespace Kind

/-- What stands for a kind that nobody knows: every question about it is denied. -/
def unknown : Kind := ⟨"", "", "", false⟩

instance : Inhabited Kind := ⟨unknown⟩

/-- Drops slashes from both ends of a path. -/
def trimSlashes (cs : List Char) : List Char :=
  Text.stripBoth (· == '/') cs

/-- The beginning of the base path of every group but the core group. -/
def groupMark : List Char := ['a', 'p', 'i', 's', '/']

/-- A kind whose base path is stored without slashes at its ends. -/
def make (name plural base : String) (namespaced : Bool) : Kind :=
  ⟨name, plural, String.ofList (trimSlashes base.toList), namespaced⟩

/-- The API group: the segment behind `apis/` in the base path, and nothing for the core group. -/
def group (k : Kind) : String :=
  match Text.dropStart? groupMark (k.base.toList.dropWhile (· == '/')) with
  | some rest => String.ofList (rest.takeWhile (· != '/'))
  | none => ""

/-- The path under which the kind is watched in a namespace. The empty
namespace, and any namespace of a kind that has none, mean the whole cluster. -/
def watchPath (k : Kind) (ns : String) : String :=
  let base := String.ofList (trimSlashes k.base.toList)
  if k.namespaced && !ns.isEmpty then
    "/" ++ base ++ "/namespaces/" ++ ns ++ "/" ++ k.plural
  else "/" ++ base ++ "/" ++ k.plural

end Kind

end WatchGate
