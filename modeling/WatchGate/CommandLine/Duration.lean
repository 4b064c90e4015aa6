import WatchGate.Text.Decimal

/-!
# WatchGate: durations

A duration is written as a row of amounts, each a decimal number and a unit, such
as `1h30m` or `0.5s`. They add up. Plus signs and then minus signs in front of
the row do not count. A zero at the end needs no unit, and a row may be empty.
`Duration.parse?` reads a duration; blanks are no part of one.
-/

namespace WatchGate

/-- A length of time. A part of a nanosecond does not count. -/
structure Duration where
  nanoseconds : Nat
  deriving DecidableEq, Repr

namespace Duration

/-- So many milliseconds. -/
def ofMilliseconds (n : Nat) : Duration := ⟨n * 1000000⟩

/-- One more than the greatest number of nanoseconds: the seconds are a number of 64 bits. -/
def bound : Nat := Text.word64 * 1000000000

/-- The units with their nanoseconds. Microseconds are written in three ways: with the letter `u`,
with the micro sign, and with the Greek letter. -/
def units : List (List Char × Nat) :=
  [(['n', 's'], 1), (['u', 's'], 1000), ([Char.ofNat 0xb5, 's'], 1000),
    ([Char.ofNat 0x3bc, 's'], 1000), (['m', 's'], 1000000), (['s'], 1000000000),
    (['m'], 60 * 1000000000), (['h'], 60 * 60 * 1000000000)]

/-- Whether a character may stand in the number of an amount. All others may stand in the unit. -/
def inNumber (c : Char) : Bool :=
  c.isDigit || c == '.' || c == '+' || c == '-'

/-- A decimal number without a sign, in parts of `unit`: digits on one side of the point at least. -/
def unsignedAmount? (unit : Nat) (cs : List Char) : Option Nat :=
  let whole := cs.takeWhile (· ≠ '.')
  let fraction := (cs.dropWhile (· ≠ '.')).drop 1
  (Text.valueOf? (whole ++ fraction)).map (fun n => n * unit / Nat.pow 10 fraction.length)

/-- A decimal number in parts of `unit`. Below zero there is none. -/
def amount? (unit : Nat) : List Char → Option Nat
  | '+' :: cs => unsignedAmount? unit cs
  | '-' :: cs => (unsignedAmount? unit cs).filter (· = 0)
  | cs => unsignedAmount? unit cs

/-- What follows the first amount of a row. -/
def behindAmount (cs : List Char) : List Char :=
  (cs.dropWhile inNumber).dropWhile (fun c => !inNumber c)

/-- The first amount of a row, in nanoseconds. -/
def firstAmount? (cs : List Char) : Option Nat :=
  (units.lookup ((cs.dropWhile inNumber).takeWhile (fun c => !inNumber c))).bind
    (fun unit => amount? unit (cs.takeWhile inNumber))

/-- An amount is not empty. -/
theorem length_behindAmount_lt (c : Char) (cs : List Char) :
    (behindAmount (c :: cs)).length < (c :: cs).length := by
  by_cases hc : inNumber c
  · have hn := (List.dropWhile_sublist (l := cs) inNumber).length_le
    have hu := (List.dropWhile_sublist (l := cs.dropWhile inNumber) (fun c => !inNumber c)).length_le
    simp only [behindAmount, List.dropWhile_cons, hc, if_true, List.length_cons]
    omega
  · have hu := (List.dropWhile_sublist (l := cs) (fun c => !inNumber c)).length_le
    simp only [behindAmount, List.dropWhile_cons, hc, Bool.false_eq_true, if_false, Bool.not_false,
      if_true, List.length_cons]
    omega

/-- The sum of a row of amounts, in nanoseconds. -/
def sum? (row : List Char) : Option Nat :=
  match row with
  | [] | ['0'] => some 0
  | c :: cs =>
    (firstAmount? (c :: cs)).bind (fun n => (sum? (behindAmount (c :: cs))).map (n + ·))
termination_by row.length
decreasing_by exact length_behindAmount_lt c cs

/-- A row of amounts without the signs in front of it. -/
def dropSigns (cs : List Char) : List Char :=
  (cs.dropWhile (· = '+')).dropWhile (· = '-')

/-- The duration that a text writes. -/
def parse? (cs : List Char) : Option Duration :=
  match sum? (dropSigns cs) with
  | some n => if n < bound then some ⟨n⟩ else none
  | none => none

end Duration

end WatchGate
