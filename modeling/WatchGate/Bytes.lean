/-!
# WatchGate: bytes

Header values and frame payloads are lists of bytes. `Bytes.toHex` and
`Bytes.ofHex?` write and read two hexadecimal digits a byte.
-/

namespace WatchGate

/-- A string of bytes. -/
abbrev Bytes := List UInt8

namespace Bytes

/-- The hexadecimal digit of a value below sixteen, in lower case. -/
def hexDigit (n : Nat) : Char :=
  Char.ofNat (if n < 10 then 48 + n else 87 + n)

/-- The hexadecimal digits of a number, without leading zeros. -/
def hexDigits (n : Nat) : List Char :=
  if n < 16 then [hexDigit n] else hexDigits (n / 16) ++ [hexDigit (n % 16)]

/-- The value of a hexadecimal digit of either case. -/
def hexValue? (c : Char) : Option Nat :=
  if '0' ≤ c ∧ c ≤ '9' then some (c.toNat - 48)
  else if 'a' ≤ c ∧ c ≤ 'f' then some (c.toNat - 87)
  else if 'A' ≤ c ∧ c ≤ 'F' then some (c.toNat - 55)
  else none

/-- Two hexadecimal digits for each byte. -/
def toHex (bs : Bytes) : List Char :=
  bs.flatMap (fun b => [hexDigit (b.toNat / 16), hexDigit (b.toNat % 16)])

/-- Reads two hexadecimal digits for each byte. -/
def ofHex? : List Char → Option Bytes
  | [] => some []
  | [_] => none
  | a :: b :: rest =>
    match hexValue? a, hexValue? b, ofHex? rest with
    | some x, some y, some bs => some (UInt8.ofNat (16 * x + y) :: bs)
    | _, _, _ => none

/-- The bytes of a text of ASCII characters. -/
def ofAscii (s : String) : Bytes :=
  s.toList.map (fun c => UInt8.ofNat c.toNat)

/-- A number as `width` bytes, the most significant first. -/
def ofNatBig : Nat → Nat → Bytes
  | 0, _ => []
  | width + 1, n => ofNatBig width (n / 256) ++ [UInt8.ofNat (n % 256)]

/-- The number that bytes stand for, the most significant first. -/
def toNatBig (bs : Bytes) : Nat :=
  bs.foldl (fun acc b => acc * 256 + b.toNat) 0

end Bytes

end WatchGate
