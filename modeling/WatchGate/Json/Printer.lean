import WatchGate.Json
import WatchGate.Bytes

/-!
# WatchGate: JSON in compact form

One text for each document: no blanks, the fields of an object by key, quotes,
backslashes and control characters escaped and all else as it is. What is
garbled has no text and is written as null. `Json.sorted` puts values in the
order of their compact texts.
-/

namespace WatchGate.Json

/-- A control character as four hexadecimal digits. -/
def hexEscape (n : Nat) : List Char :=
  ['\\', 'u', '0', '0', Bytes.hexDigit (n / 16), Bytes.hexDigit (n % 16)]

/-- A character inside a quoted text. -/
def escapeChar (c : Char) : List Char :=
  if c = '\x22' then ['\\', '\x22']
  else if c = '\\' then ['\\', '\\']
  else if c = '\n' then ['\\', 'n']
  else if c = '\r' then ['\\', 'r']
  else if c = '\t' then ['\\', 't']
  else if c.toNat = 8 then ['\\', 'b']
  else if c.toNat = 12 then ['\\', 'f']
  else if c.toNat < 32 then hexEscape c.toNat
  else [c]

/-- A text in quotes. -/
def quote (s : String) : List Char :=
  '\x22' :: s.toList.flatMap escapeChar ++ ['\x22']

/-- Texts with commas between them. -/
def commas (xs : List (List Char)) : List Char :=
  (xs.intersperse [',']).flatten

/-- Keys in ascending order. -/
def byKey (xs : List (String × List Char)) : List (String × List Char) :=
  xs.mergeSort (fun a b => !decide (b.1 < a.1))

mutual

/-- The compact text of a value. -/
def compact : Json → List Char
  | .null => ['n', 'u', 'l', 'l']
  | .bool true => ['t', 'r', 'u', 'e']
  | .bool false => ['f', 'a', 'l', 's', 'e']
  | .number n => (toString n).toList
  | .real n => n.text
  | .str s => quote s
  | .garbled => ['n', 'u', 'l', 'l']
  | .arr xs => '[' :: commas (compactItems xs) ++ [']']
  | .obj fs =>
    '\x7b' :: commas ((byKey (compactFields fs)).map (fun f => quote f.1 ++ ':' :: f.2))
      ++ ['\x7d']

/-- The compact texts of the items of a list. -/
def compactItems : List Json → List (List Char)
  | [] => []
  | x :: xs => compact x :: compactItems xs

/-- The compact texts of the fields of an object. -/
def compactFields : List (String × Json) → List (String × List Char)
  | [] => []
  | (k, v) :: fs => (k, compact v) :: compactFields fs

end

/-- The compact text of a value, as a string. -/
def render (j : Json) : String :=
  String.ofList (compact j)

/-- Values in the order of their compact texts. -/
def sorted (xs : List Json) : List Json :=
  ((xs.map (fun j => (render j, j))).mergeSort (fun a b => !decide (b.1 < a.1))).map (·.2)

/-- Neighbours that print alike, once. -/
def collapse : List Json → List Json
  | [] => []
  | [x] => [x]
  | x :: y :: rest =>
    if render x = render y then collapse (y :: rest) else x :: collapse (y :: rest)

/-- The different values, in the order of their compact texts. -/
def distinct (xs : List Json) : List Json :=
  collapse (sorted xs)

end WatchGate.Json
