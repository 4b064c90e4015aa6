import WatchGate.Json
import WatchGate.Bytes

/-!
# WatchGate: the tokens of JSON

A document is a row of tokens with blanks between them: brackets, braces, commas
and colons, strings, and the other values that have no parts. `Token.scan?` cuts
a text into its tokens. It refuses control characters inside strings, escapes of
another form, and numbers with leading zeros. A string that holds half of a
surrogate pair is a token without a text.

Each token takes a character at least, so the length of the text is fuel enough.
-/

namespace WatchGate.Json

/-- A token. -/
inductive Token
  | openList
  | closeList
  | openObject
  | closeObject
  | comma
  | colon
  /-- a string, with its text if it has one -/
  | string (text : Option String)
  /-- any other value without parts -/
  | plain (v : Json)

namespace Token

/-- The characters that may stand between tokens. -/
def isSpace (c : Char) : Bool :=
  c == ' ' || c == '\n' || c == '\r' || c == '\t'

/-! ## Strings -/

/-- A character of a string, or one unit of two bytes written by number. -/
inductive Piece
  | char (c : Char)
  | unit (n : Nat)

/-- The number that four hexadecimal digits write. -/
def fourHex? (a b c d : Char) : Option Nat :=
  match Bytes.hexValue? a, Bytes.hexValue? b, Bytes.hexValue? c, Bytes.hexValue? d with
  | some w, some x, some y, some z => some (((w * 16 + x) * 16 + y) * 16 + z)
  | _, _, _, _ => none

/-- The character that stands behind a backslash. -/
def escaped? (c : Char) : Option Char :=
  if c = '\x22' ∨ c = '\\' ∨ c = '/' then some c
  else if c = 'b' then some '\x08'
  else if c = 'f' then some '\x0c'
  else if c = 'n' then some '\n'
  else if c = 'r' then some '\r'
  else if c = 't' then some '\t'
  else none

/-- Reads up to the closing quote; `read` holds the pieces so far, the last one first. -/
def pieces? (read : List Piece) : List Char → Option (List Piece × List Char)
  | [] => none
  | c :: cs =>
    if c = '\x22' then some (read.reverse, cs)
    else if c = '\\' then
      match cs with
      | 'u' :: h1 :: h2 :: h3 :: h4 :: rest =>
        match fourHex? h1 h2 h3 h4 with
        | some n => pieces? (.unit n :: read) rest
        | none => none
      | e :: rest =>
        match escaped? e with
        | some x => pieces? (.char x :: read) rest
        | none => none
      | [] => none
    else if c.toNat < 32 then none
    else pieces? (.char c :: read) cs

/-- The character of a surrogate pair. -/
def paired (high low : Nat) : Char :=
  Char.ofNat (0x10000 + (high - 0xd800) * 1024 + (low - 0xdc00))

/-- Joins surrogate pairs behind the characters of `read`, the last of which comes first. Half a
pair gives no text. -/
def join? (read : List Char) : List Piece → Option (List Char)
  | [] => some read.reverse
  | .char c :: ps => join? (c :: read) ps
  | .unit n :: ps =>
    if 0xd800 ≤ n ∧ n < 0xdc00 then
      match ps with
      | .unit m :: rest =>
        if 0xdc00 ≤ m ∧ m < 0xe000 then join? (paired n m :: read) rest else none
      | _ => none
    else if 0xdc00 ≤ n ∧ n < 0xe000 then none
    else join? (Char.ofNat n :: read) ps

/-- Reads a string behind its opening quote. -/
def string? (cs : List Char) : Option (Token × List Char) :=
  (pieces? [] cs).map (fun r => (.string ((join? [] r.1).map String.ofList), r.2))

/-! ## Rows of tokens -/

/-- The values that are written as words. -/
def words : List (String × Json) :=
  [("null", .null), ("true", .bool true), ("false", .bool false)]

/-- Reads a word or a number. -/
def plain? (cs : List Char) : Option (Token × List Char) :=
  match words.findSome? (fun w => (Text.dropStart? w.1.toList cs).map (fun r => (w.2, r))) with
  | some (v, rest) => some (.plain v, rest)
  | none => (Numeral.read cs).map (fun r => (.plain (ofNumeral r.1), r.2))

/-- Reads the token that starts with a character. -/
def next? (c : Char) (cs : List Char) : Option (Token × List Char) :=
  if c = '\x22' then string? cs
  else if c = '[' then some (.openList, cs)
  else if c = ']' then some (.closeList, cs)
  else if c = '\x7b' then some (.openObject, cs)
  else if c = '\x7d' then some (.closeObject, cs)
  else if c = ',' then some (.comma, cs)
  else if c = ':' then some (.colon, cs)
  else plain? (c :: cs)

/-- Cuts a text into tokens; `read` holds those so far, the last one first. -/
def scanFrom (read : List Token) : Nat → List Char → Option (List Token)
  | fuel, cs =>
    match cs.dropWhile isSpace, fuel with
    | [], _ => some read.reverse
    | _ :: _, 0 => none
    | c :: rest, fuel + 1 =>
      match next? c rest with
      | some (t, rest) => scanFrom (t :: read) fuel rest
      | none => none

/-- The tokens of a text. -/
def scan? (cs : List Char) : Option (List Token) := scanFrom [] cs.length cs

end Token

end WatchGate.Json
