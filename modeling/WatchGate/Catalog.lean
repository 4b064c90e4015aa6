import WatchGate.Kind
import WatchGate.NameMap

/-!
# WatchGate: the catalog of kinds

The kinds that the cluster is known to serve, each under its own name. Of two
kinds of one name the later one stays. A name that is not in the catalog
resolves to `Kind.unknown`.
-/

namespace WatchGate

/-- The known kinds by name. -/
structure Catalog where
  kinds : NameMap Kind

namespace Catalog

/-- The catalog without kinds. -/
def empty : Catalog := ⟨∅⟩

instance : Inhabited Catalog := ⟨empty⟩

/-- Adds a kind, in place of any of its name. -/
def insert (c : Catalog) (k : Kind) : Catalog :=
  ⟨c.kinds.insert k.name k⟩

/-- The catalog of a list of kinds, of which the last of a name stays. -/
def ofList (ks : List Kind) : Catalog :=
  ks.foldl insert empty

/-- The kind of a name, or `Kind.unknown`. -/
def resolve (c : Catalog) (name : String) : Kind :=
  (c.kinds.get? name).getD Kind.unknown

/-- Whether there is a kind of a name. -/
def contains (c : Catalog) (name : String) : Bool :=
  (c.kinds.get? name).isSome

/-- The kinds in order of their names. -/
def toList (c : Catalog) : List Kind :=
  c.kinds.values

/-- How many kinds there are. -/
def size (c : Catalog) : Nat :=
  c.kinds.size

/-- Whether there are no kinds. -/
def isEmpty (c : Catalog) : Bool :=
  c.kinds.entries.isEmpty

end Catalog

end WatchGate
