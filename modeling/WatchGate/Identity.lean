import WatchGate.Text.Quoted

/-!
# WatchGate: identities

The caller on whose behalf questions are asked: a user and the groups that the
user belongs to, in the order in which they were presented.
-/

namespace WatchGate

/-- An authenticated caller. -/
structure Identity where
  user : String
  groups : List String
  deriving DecidableEq, Repr

namespace Identity

instance : Inhabited Identity := ⟨⟨"", []⟩⟩

/-- The user, and the groups in quotes and brackets. -/
def display (i : Identity) : String :=
  i.user ++ " [" ++ String.ofList ((i.groups.map (fun g => Text.quote g.toList)).intersperse [',', ' ']).flatten ++ "]"

end Identity

end WatchGate
