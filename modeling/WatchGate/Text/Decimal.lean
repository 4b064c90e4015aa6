import WatchGate.Text

/-!
# WatchGate: decimal numbers

Unsigned numbers of a bounded width: one or more ASCII digits, with an optional
plus sign in front, below a bound. `digits` writes a number without leading
zeros, and `valueOf_digits` says that what is written reads back.
-/

namespace WatchGate.Text

/-- The value of a decimal digit. -/
def digitValue? (c : Char) : Option Nat :=
  if c.isDigit then some (c.toNat - '0'.toNat) else none

/-- Reads digits from left to right, after a part of value `acc`. -/
def readDigits (acc : Nat) : List Char → Option Nat
  | [] => some acc
  | c :: cs =>
    match digitValue? c with
    | some d => readDigits (acc * 10 + d) cs
    | none => none

/-- The value of one or more digits. -/
def valueOf? : List Char → Option Nat
  | [] => none
  | c :: cs => readDigits 0 (c :: cs)

/-- The digit that stands for `d` below ten. -/
def digitChar (d : Nat) : Char :=
  Char.ofNat ('0'.toNat + d)

/-- A number in decimal, without leading zeros. -/
def digits (n : Nat) : List Char :=
  if n < 10 then [digitChar n] else digits (n / 10) ++ [digitChar (n % 10)]

/-- One more than the largest number of 64 bits. -/
def word64 : Nat := 0x10000000000000000

/-- One more than the largest number of 32 bits. -/
def word32 : Nat := 0x100000000

/-- One more than the largest number of 16 bits. -/
def word16 : Nat := 0x10000

/-- Reads an unsigned number below `bound`: digits, after an optional plus sign. -/
def unsigned? (bound : Nat) (cs : List Char) : Option Nat :=
  let body :=
    match cs with
    | '+' :: rest => rest
    | _ => cs
  match valueOf? body with
  | some n => if n < bound then some n else none
  | none => none

theorem digitValue?_digitChar {d : Nat} (h : d < 10) : digitValue? (digitChar d) = some d := by
  match d, h with
  | 0, _ | 1, _ | 2, _ | 3, _ | 4, _ | 5, _ | 6, _ | 7, _ | 8, _ | 9, _ => decide

theorem readDigits_append (acc : Nat) (as bs : List Char) :
    readDigits acc (as ++ bs) = (readDigits acc as).bind (fun n => readDigits n bs) := by
  induction as generalizing acc with
  | nil => rfl
  | cons a as ih =>
    simp only [List.cons_append, readDigits]
    split
    · exact ih _
    · rfl

theorem readDigits_digits (n : Nat) : readDigits 0 (digits n) = some n := by
  induction n using Nat.strongRecOn with
  | _ n ih =>
    unfold digits
    split
    · next h => simp [readDigits, digitValue?_digitChar h]
    · next h =>
      rw [readDigits_append, ih (n / 10) (by omega)]
      simp only [Option.bind_some, readDigits, digitValue?_digitChar (show n % 10 < 10 by omega)]
      congr 1
      omega

theorem digits_ne_nil (n : Nat) : digits n ≠ [] := by
  unfold digits
  split <;> simp

theorem valueOf_digits (n : Nat) : valueOf? (digits n) = some n := by
  have h := readDigits_digits n
  cases hd : digits n with
  | nil => exact absurd hd (digits_ne_nil n)
  | cons c cs => rw [hd] at h; exact h

end WatchGate.Text
