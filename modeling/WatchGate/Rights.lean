import WatchGate.Question

/-!
# WatchGate: the summary of rights

Five rights are reported about a resource. Each is held as soon as one grant
gives it; every other grant says nothing about them.
-/

namespace WatchGate

/-- What a caller may do with a resource. -/
structure Rights where
  get : Bool
  put : Bool
  delete : Bool
  logs : Bool
  exec : Bool
  deriving DecidableEq, Repr

namespace Rights

/-- No rights. -/
def nothing : Rights := ⟨false, false, false, false, false⟩

instance : Inhabited Rights := ⟨nothing⟩

/-- Takes a grant into account. -/
def record (r : Rights) (g : Grant) : Rights :=
  match g.subresource, g.verb with
  | "log", .get => { r with logs := true }
  | "exec", .get => { r with exec := true }
  | "", .get => { r with get := true }
  | "", .update => { r with put := true }
  | "", .delete => { r with delete := true }
  | _, _ => r

/-- The rights that grants give. -/
def ofGrants (gs : List Grant) : Rights :=
  gs.foldl record nothing

/-- The word for a truth value. -/
def truth (b : Bool) : String :=
  if b then "true" else "false"

/-- The summary as a JSON text, its fields in a fixed order. -/
def text (r : Rights) : String :=
  "\x7b\"get\":" ++ truth r.get ++ ",\"put\":" ++ truth r.put ++ ",\"delete\":" ++ truth r.delete
    ++ ",\"logs\":" ++ truth r.logs ++ ",\"exec\":" ++ truth r.exec ++ "\x7d"

end Rights

end WatchGate
