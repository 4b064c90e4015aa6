import WatchGate.Json.Numeral

/-!
# WatchGate: JSON documents

The cluster's API speaks JSON. A document is a `Json`; whole numbers are kept
as integers and any other number as it was written, because a field that holds
a whole number refuses `1.0`. The readers look fields up and insist on a shape:
each of them answers `none` for a value of another shape.

A text may write strings that no text can hold, with half of a surrogate pair.
Such a string is `garbled`, and so is an object with a member of such a name. No
reader takes it, but it may stand where a value does not matter. `Json.held`
tells which values can be kept as a whole: nothing in them is garbled, no number
is out of range, and they are not nested too deeply.
-/

namespace WatchGate

/-- A JSON value. -/
inductive Json
  | null
  | bool (b : Bool)
  | number (n : Int)
  /-- a number with a fraction or an exponent, or a zero with a sign, as written -/
  | real (n : Json.Numeral)
  | str (s : String)
  | arr (items : List Json)
  /-- the fields in the order in which they were written -/
  | obj (fields : List (String × Json))
  /-- a value of a good form that no text can hold -/
  | garbled
  deriving Inhabited

namespace Json

/-- A whole number that is not negative. -/
def ofNat (n : Nat) : Json := .number (Int.ofNat n)

/-- A list of strings. -/
def ofStrings (xs : List String) : Json := .arr (xs.map .str)

/-- The value of a number. -/
def ofNumeral (n : Numeral) : Json :=
  match n.int? with
  | some i => .number i
  | none => .real n

/-- The fields of an object. -/
def fields? : Json → Option (List (String × Json))
  | .obj fs => some fs
  | _ => none

/-- The items of a list. -/
def items? : Json → Option (List Json)
  | .arr xs => some xs
  | _ => none

/-- The text of a string. -/
def text? : Json → Option String
  | .str s => some s
  | _ => none

/-- The value of a boolean. -/
def bool? : Json → Option Bool
  | .bool b => some b
  | _ => none

/-- The value of a whole number below `bound`. -/
def nat? (bound : Nat) : Json → Option Nat
  | .number n => if 0 ≤ n ∧ n.toNat < bound then some n.toNat else none
  | _ => none

/-- Whether a value is null. -/
def isNull : Json → Bool
  | .null => true
  | _ => false

/-- A field of an object; of a field given twice the last counts. -/
def field? (j : Json) (key : String) : Option Json :=
  match j with
  | .obj fs => (fs.reverse.find? (·.1 == key)).map (·.2)
  | _ => none

/-- The values of a name among the fields of an object, in order. -/
def valuesOf (fields : List (String × Json)) (key : String) : List Json :=
  (fields.filter (·.1 == key)).map (·.2)

/-! ## Values kept as a whole -/

/-- How many lists and objects may be open at once in what is kept of a document. -/
def maxDepth : Nat := 127

mutual

/-- Whether a value can be kept as a whole, with at most `depth` lists and objects open at once. -/
def held : Nat → Json → Bool
  | _, .garbled => false
  | _, .number n => (Numeral.ofInt n).inRange
  | _, .real n => n.inRange
  | depth + 1, .arr xs => heldItems depth xs
  | depth + 1, .obj fs => heldFields depth fs
  | 0, .arr _ | 0, .obj _ => false
  | _, .null | _, .bool _ | _, .str _ => true

/-- Whether the items of a list can be kept. -/
def heldItems : Nat → List Json → Bool
  | _, [] => true
  | depth, x :: xs => held depth x && heldItems depth xs

/-- Whether the fields of an object can be kept. -/
def heldFields : Nat → List (String × Json) → Bool
  | _, [] => true
  | depth, (_, v) :: fs => held depth v && heldFields depth fs

end

end Json

end WatchGate
