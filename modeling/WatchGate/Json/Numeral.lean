import WatchGate.Text.Decimal

/-!
# WatchGate: numbers of JSON

A `Numeral` is a number as it is written: a sign, whole digits, a fraction and
an exponent. `Numeral.read` takes one off the front of a text and `text` writes
it back; `text_read` says that nothing is lost.

`Numeral.inRange` tells which numbers have a place among the floating-point
numbers of 64 bits. The digits count as a significand of 64 bits and a power of
ten, each of the two is taken to the nearest floating-point number, and so is
their product, which must not lie beyond the greatest one. Digits that the
significand has no room for do not count, and a number that is too small counts
as zero.
-/

namespace WatchGate.Json

/-- A number as it is written. -/
structure Numeral where
  minus : Bool
  whole : List Char
  /-- the digits behind the point, none when there is no point -/
  fraction : List Char
  /-- the letter of an exponent, and its sign -/
  mark : List Char
  /-- the digits of the exponent, none when there is no exponent -/
  exponent : List Char
  deriving DecidableEq, Repr

namespace Numeral

/-- The characters of a number. -/
def text (n : Numeral) : List Char :=
  (if n.minus then ['-'] else []) ++ n.whole
    ++ (if n.fraction.isEmpty then [] else '.' :: n.fraction) ++ n.mark ++ n.exponent

/-! ## Reading -/

/-- The digits at the front of a text, and what follows them. -/
def splitDigits (cs : List Char) : List Char × List Char :=
  (cs.takeWhile Char.isDigit, cs.dropWhile Char.isDigit)

/-- Digits that may stand for a whole part: a zero, or some that do not start with one. -/
def isWholePart : List Char → Bool
  | [] => false
  | ['0'] => true
  | d :: _ => d != '0'

/-- A sign at the front of a text, and what follows it. -/
def splitSign : List Char → List Char × List Char
  | '+' :: cs => (['+'], cs)
  | '-' :: cs => (['-'], cs)
  | cs => ([], cs)

/-- Reads an exponent, if there is one, behind the other parts of a number. -/
def readExponent (n : Numeral) : List Char → Option (Numeral × List Char)
  | [] => some (n, [])
  | c :: cs =>
    if c = 'e' ∨ c = 'E' then
      let (sign, cs) := splitSign cs
      let (ds, rest) := splitDigits cs
      if ds.isEmpty then none else some ({ n with mark := c :: sign, exponent := ds }, rest)
    else some (n, c :: cs)

/-- Reads a fraction, if there is one, behind the whole part, and then an exponent. -/
def readFraction (n : Numeral) : List Char → Option (Numeral × List Char)
  | '.' :: cs =>
    let (ds, rest) := splitDigits cs
    if ds.isEmpty then none else readExponent { n with fraction := ds } rest
  | cs => readExponent n cs

/-- Reads a number behind its sign. -/
def readUnsigned (minus : Bool) (cs : List Char) : Option (Numeral × List Char) :=
  let (ds, rest) := splitDigits cs
  if isWholePart ds then readFraction ⟨minus, ds, [], [], []⟩ rest else none

/-- Reads a number off the front of a text. -/
def read : List Char → Option (Numeral × List Char)
  | '-' :: cs => readUnsigned true cs
  | cs => readUnsigned false cs

theorem splitDigits_append (cs : List Char) : (splitDigits cs).1 ++ (splitDigits cs).2 = cs :=
  List.takeWhile_append_dropWhile

theorem splitSign_append (cs : List Char) : (splitSign cs).1 ++ (splitSign cs).2 = cs := by
  unfold splitSign
  split <;> rfl

/-- Reading an exponent loses nothing. -/
theorem text_readExponent {n m : Numeral} {cs rest : List Char} (hm : n.mark = [])
    (he : n.exponent = []) (h : readExponent n cs = some (m, rest)) :
    m.text ++ rest = n.text ++ cs := by
  cases cs with
  | nil =>
    simp only [readExponent, Option.some.injEq, Prod.mk.injEq] at h
    rw [h.1, h.2]
  | cons c cs =>
    by_cases hc : c = 'e' ∨ c = 'E'
    · have hs := splitSign_append cs
      have hd := splitDigits_append (splitSign cs).2
      by_cases hne : (splitDigits (splitSign cs).2).1.isEmpty
      · simp [readExponent, hc, hne] at h
      · simp only [readExponent, hc, hne, if_true, Bool.false_eq_true, if_false, Option.some.injEq,
          Prod.mk.injEq] at h
        obtain ⟨rfl, rfl⟩ := h
        simp [text, hm, he, hd, hs]
    · simp only [readExponent, hc, if_false, Option.some.injEq, Prod.mk.injEq] at h
      rw [h.1, h.2]

/-- Reading a fraction and an exponent loses nothing. -/
theorem text_readFraction {n m : Numeral} {cs rest : List Char} (hf : n.fraction = [])
    (hm : n.mark = []) (he : n.exponent = []) (h : readFraction n cs = some (m, rest)) :
    m.text ++ rest = n.text ++ cs := by
  unfold readFraction at h
  split at h
  · next cs =>
    have hd := splitDigits_append cs
    by_cases hne : (splitDigits cs).1.isEmpty
    · simp [hne] at h
    · simp only [hne, Bool.false_eq_true, if_false] at h
      have ht := @text_readExponent { n with fraction := (splitDigits cs).1 } m _ _ hm he h
      rw [ht]
      simp [text, hf, hm, he, hne, hd]
  · exact text_readExponent hm he h

/-- Reading a number behind its sign loses nothing. -/
theorem text_readUnsigned {minus : Bool} {n : Numeral} {cs rest : List Char}
    (h : readUnsigned minus cs = some (n, rest)) :
    n.text ++ rest = (if minus then ['-'] else []) ++ cs := by
  have hd := splitDigits_append cs
  by_cases hw : isWholePart (splitDigits cs).1
  · simp only [readUnsigned, hw, if_true] at h
    rw [text_readFraction rfl rfl rfl h]
    simp [text, hd]
  · simp [readUnsigned, hw] at h

/-- Reading a number loses nothing: its text and what follows it make up the whole. -/
theorem text_read {n : Numeral} {cs rest : List Char} (h : read cs = some (n, rest)) :
    n.text ++ rest = cs := by
  unfold read at h
  split at h
  · simpa using text_readUnsigned h
  · simpa using text_readUnsigned h

/-- The number without a fraction and an exponent of a whole number. -/
def ofInt (n : Int) : Numeral := ⟨n < 0, Text.digits n.natAbs, [], [], []⟩

/-- The whole number that is written; zero is whole only without a sign. -/
def int? (n : Numeral) : Option Int :=
  if n.fraction.isEmpty && n.exponent.isEmpty && !(n.minus && n.whole == ['0']) then
    (Text.valueOf? n.whole).map (fun v => if n.minus then -Int.ofNat v else Int.ofNat v)
  else none

/-! ## The range of floating-point numbers -/

/-- Adds digits to a significand as long as it has room; those left over come last. -/
def absorb (s : Nat) : List Char → Nat × List Char
  | [] => (s, [])
  | c :: cs =>
    let t := s * 10 + (c.toNat - '0'.toNat)
    if t < Text.word64 then absorb t cs else (s, c :: cs)

/-- The significand, and the power of ten that goes with it. -/
def scaled (n : Numeral) : Nat × Int :=
  let (s, extra) := absorb 0 n.whole
  let (t, unread) := absorb s n.fraction
  let behind : Int := (n.fraction.length - unread.length : Nat)
  let power : Int := ((Text.valueOf? n.exponent).getD 0 : Nat)
  (t, (extra.length : Int) - behind + (if n.mark.contains '-' then -power else power))

/-- A number to the nearest one of 53 binary digits and zeros behind them; a half goes to the even
neighbour. -/
def nearest (n : Nat) : Nat :=
  if n < 0x20000000000000 then n
  else
    let k := Nat.log2 n - 52
    let q := n >>> k
    let twice := 2 * (n - (q <<< k))
    let unit := 1 <<< k
    let up := unit < twice || (twice == unit && q % 2 == 1)
    (if up then q + 1 else q) <<< k

/-- The least number whose nearest neighbour is no floating-point number of 64 bits. -/
def beyond : Nat := 0x3fffffffffffff <<< 970

/-- The greatest power of ten among the floating-point numbers of 64 bits. -/
def maxPower : Nat := 308

/-- Whether a significand and a power of ten make a floating-point number. -/
def hasFloat (s : Nat) (power : Int) : Bool :=
  s == 0 || power < 0
    || (power ≤ maxPower && nearest s * nearest (Nat.pow 10 power.toNat) < beyond)

/-- Whether a number has a place among the floating-point numbers. -/
def inRange (n : Numeral) : Bool := hasFloat n.scaled.1 n.scaled.2

end Numeral

end WatchGate.Json
