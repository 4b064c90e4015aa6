import WatchGate.Text.Decimal

/-!
# WatchGate: versions of an API group

The name of a version tells how mature it is: `v2` comes before `v2beta1`, which
comes before `v2alpha1`; of one maturity the larger numbers come first. Any
other name comes last, by name. `Version.first?` is the name that comes first in
a list.
-/

namespace WatchGate.Cluster

/-- What the name of a version tells. -/
inductive Version
  | stable (major : Nat)
  | beta (major : Nat) (minor : Option Nat)
  | alpha (major : Nat) (minor : Option Nat)
  | other (name : String)
  deriving DecidableEq, Repr

namespace Version

/-- The number at the end of a name; `some none` when there is none, `none` when it is not a number. -/
def minor? : List Char → Option (Option Nat)
  | [] => some none
  | cs => (Text.unsigned? Text.word32 cs).map some

/-- What follows the major number. -/
def stage? (major : Nat) : List Char → Option Version
  | [] => some (.stable major)
  | cs =>
    match Text.dropStart? "alpha".toList cs, Text.dropStart? "beta".toList cs with
    | some rest, _ => (minor? rest).map (.alpha major)
    | none, some rest => (minor? rest).map (.beta major)
    | none, none => none

/-- What a name that starts with a v and a number tells. -/
def parse? : List Char → Option Version
  | 'v' :: cs =>
    (Text.unsigned? Text.word32 (cs.takeWhile Char.isDigit)).bind
      (fun major => stage? major (cs.dropWhile Char.isDigit))
  | _ => none

/-- What a name tells. -/
def ofName (name : String) : Version :=
  (parse? name.toList).getD (.other name)

/-- How mature a version is. -/
def maturity : Version → Nat
  | .stable _ => 3
  | .beta _ _ => 2
  | .alpha _ _ => 1
  | .other _ => 0

/-- The numbers of a version, a missing minor number below all others. -/
def numbers : Version → Nat × Nat
  | .stable major => (major, 0)
  | .beta major minor | .alpha major minor =>
    (major, match minor with | some n => n + 1 | none => 0)
  | .other _ => (0, 0)

/-- The name of a version that tells nothing. -/
def remainder (v : Version) : String :=
  match v with
  | .other name => name
  | .stable _ | .beta _ _ | .alpha _ _ => ""

/-- Whether one version comes before another. -/
def before (a b : Version) : Bool :=
  if a.maturity ≠ b.maturity then b.maturity < a.maturity
  else if a.numbers.1 ≠ b.numbers.1 then b.numbers.1 < a.numbers.1
  else if a.numbers.2 ≠ b.numbers.2 then b.numbers.2 < a.numbers.2
  else a.remainder < b.remainder

/-- The name that comes first; of names that tell the same, the first listed. -/
def first? : List String → Option String
  | [] => none
  | name :: names =>
    match first? names with
    | none => some name
    | some best => if (ofName best).before (ofName name) then some best else some name

end Version

end WatchGate.Cluster
