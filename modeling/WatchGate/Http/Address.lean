import WatchGate.Bytes
import WatchGate.Text.Decimal

/-!
# WatchGate: IP addresses

An address of four bytes prints as four decimal numbers, an address of eight
groups as hexadecimal groups of which the longest run of zeros (two at least,
the first of equals) is left out; an address that embeds one of four bytes
prints that. `Endpoint` is an address with the number of a service on it.
-/

namespace WatchGate.Http

/-- An IP address. -/
inductive Ip
  | v4 (a b c d : UInt8)
  | v6 (a b c d e f g h : UInt16)
  deriving DecidableEq, Repr

namespace Ip

/-- Four decimal numbers with points between them. -/
def dotted (a b c d : Nat) : List Char :=
  Text.digits a ++ '.' :: Text.digits b ++ '.' :: Text.digits c ++ '.' :: Text.digits d

/-- Groups with colons between them. -/
def colons (gs : List Nat) : List Char :=
  ((gs.map Bytes.hexDigits).intersperse [':']).flatten

/-- How many zeros a list starts with. -/
def zeros (gs : List Nat) : Nat :=
  (gs.takeWhile (· == 0)).length

/-- Where the longest run of zeros starts, and how long it is; of runs of one
length the first counts. The list starts at place `i`. -/
def longestRun (i : Nat) : List Nat → Nat × Nat
  | [] => (0, 0)
  | g :: gs =>
    let later := longestRun (i + 1) gs
    let here := zeros (g :: gs)
    if here = 0 ∨ here < later.2 then later else (i, here)

/-- Eight groups, with the longest run of zeros left out. -/
def groups (gs : List Nat) : List Char :=
  let (start, length) := longestRun 0 gs
  if length < 2 then colons gs
  else colons (gs.take start) ++ [':', ':'] ++ colons (gs.drop (start + length))

/-- The text of an address. -/
def chars : Ip → List Char
  | .v4 a b c d => dotted a.toNat b.toNat c.toNat d.toNat
  | .v6 a b c d e f g h =>
    if a = 0 ∧ b = 0 ∧ c = 0 ∧ d = 0 ∧ e = 0 ∧ f = 0xffff then
      ':' :: ':' :: colons [0xffff] ++ ':' ::
        dotted (g.toNat / 256) (g.toNat % 256) (h.toNat / 256) (h.toNat % 256)
    else groups ([a, b, c, d, e, f, g, h].map UInt16.toNat)

/-- The text of an address, as a string. -/
def render (ip : Ip) : String := String.ofList ip.chars

/-! ## Reading -/

/-- A decimal number below 256 of up to three digits, without leading zeros. -/
def octet? (cs : List Char) : Option Nat :=
  match cs with
  | ['0'] => some 0
  | '0' :: _ => none
  | _ =>
    if cs.length ≤ 3 then
      match Text.valueOf? cs with
      | some n => if n < 256 then some n else none
      | none => none
    else none

/-- Four decimal numbers with points between them. -/
def octets? (cs : List Char) : Option (List Nat) :=
  match Text.pieces '.' cs with
  | [a, b, c, d] => [a, b, c, d].mapM octet?
  | _ => none

/-- A group of one to four hexadecimal digits. -/
def group? (cs : List Char) : Option Nat :=
  if cs.length = 0 ∨ 4 < cs.length then none
  else (cs.mapM Bytes.hexValue?).map (fun ds => ds.foldl (fun acc d => acc * 16 + d) 0)

/-- Groups between colons, of which the last may be four decimal numbers in the place of two. -/
def groupList? : List (List Char) → Option (List Nat)
  | [] => some []
  | [p] =>
    match group? p with
    | some g => some [g]
    | none =>
      match octets? p with
      | some [a, b, c, d] => some [a * 256 + b, c * 256 + d]
      | _ => none
  | p :: ps =>
    match group? p, groupList? ps with
    | some g, some gs => some (g :: gs)
    | _, _ => none

/-- Cuts at the first pair of colons, which is dropped. -/
def cutPair : List Char → Option (List Char × List Char)
  | ':' :: ':' :: rest => some ([], rest)
  | c :: rest => (cutPair rest).map (fun r => (c :: r.1, r.2))
  | [] => none

/-- The groups of one side of a pair of colons, which may be empty. -/
def side? (cs : List Char) : Option (List Nat) :=
  if cs.isEmpty then some [] else groupList? (Text.pieces ':' cs)

/-- An address of eight groups. -/
def ofGroups? (gs : List Nat) : Option Ip :=
  match gs.map UInt16.ofNat with
  | [a, b, c, d, e, f, g, h] => some (.v6 a b c d e f g h)
  | _ => none

/-- Reads an address of eight groups, of which a run of zeros may be left out. -/
def v6? (cs : List Char) : Option Ip :=
  match cutPair cs with
  | none => (groupList? (Text.pieces ':' cs)).bind ofGroups?
  | some (l, r) =>
    if l.contains '.' then none
    else
      match side? l, side? r with
      | some ls, some rs =>
        if ls.length + rs.length ≤ 7 then
          ofGroups? (ls ++ List.replicate (8 - ls.length - rs.length) 0 ++ rs)
        else none
      | _, _ => none

/-- Reads an address of four bytes. -/
def v4? (cs : List Char) : Option Ip :=
  match octets? cs with
  | some [a, b, c, d] =>
    some (.v4 (UInt8.ofNat a) (UInt8.ofNat b) (UInt8.ofNat c) (UInt8.ofNat d))
  | _ => none

end Ip

/-- An address with the number of a service on it. -/
structure Endpoint where
  ip : Ip
  service : Nat
  /-- the zone of a local address, zero for none -/
  zone : Nat
  deriving DecidableEq, Repr

namespace Endpoint

/-- Digits that write a number below a bound. -/
def number? (bound : Nat) (cs : List Char) : Option Nat :=
  match Text.valueOf? cs with
  | some n => if n < bound then some n else none
  | none => none

/-- Reads `address:number`, or `[address]:number` for an address of groups. -/
def parse? (cs : List Char) : Option Endpoint :=
  match cs with
  | '[' :: rest =>
    let inside := rest.takeWhile (· ≠ ']')
    let (address, zone) := Text.cutOnce '%' inside
    match rest.dropWhile (· ≠ ']') with
    | ']' :: ':' :: digits =>
      match Ip.v6? address, (if inside.contains '%' then number? Text.word32 zone else some 0),
          number? Text.word16 digits with
      | some ip, some z, some n => some ⟨ip, n, z⟩
      | _, _, _ => none
    | _ => none
  | _ =>
    let (address, digits) := Text.cutOnce ':' cs
    match Ip.v4? address, number? Text.word16 digits with
    | some ip, some n => some ⟨ip, n, 0⟩
    | _, _ => none

/-- The text of an endpoint. -/
def render (e : Endpoint) : String :=
  let n := String.ofList (Text.digits e.service)
  match e.ip with
  | .v4 .. => e.ip.render ++ ":" ++ n
  | .v6 .. =>
    let zone := if e.zone = 0 then "" else "%" ++ String.ofList (Text.digits e.zone)
    "[" ++ e.ip.render ++ zone ++ "]:" ++ n

end Endpoint

end WatchGate.Http
