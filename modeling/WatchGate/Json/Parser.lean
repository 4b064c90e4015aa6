import WatchGate.Json.Token

/-!
# WatchGate: reading JSON

`Json.parse?` reads one document that fills its text, up to blanks around it. It
goes through the tokens once: `Parser` holds what is open, innermost first, and
what may come next, and `Parser.step` takes one token into account. Lists and
objects may be nested as deeply as the text goes.
-/

namespace WatchGate.Json

/-- A list or an object that is open, with its latest part first. -/
inductive Open
  | list (items : List Json)
  | object (members : List (Option String × Json))
  /-- an object behind the name of a member -/
  | member (members : List (Option String × Json)) (name : Option String)

namespace Open

/-- The object of members, the latest first. It is garbled if a name is not a text. -/
def close (members : List (Option String × Json)) : Json :=
  match members.reverse.mapM (fun m => m.1.map (fun name => (name, m.2))) with
  | some fields => .obj fields
  | none => .garbled

end Open

/-- What may come next. -/
inductive Awaited
  | value
  /-- a value, or the end of a list without items -/
  | item
  | name
  /-- a name, or the end of an object without members -/
  | member
  | colon
  /-- a comma, or the end of what is open -/
  | separator
  deriving DecidableEq, Repr

/-- Where the reading of a document is. -/
inductive Parser
  | within (opened : List Open) (awaited : Awaited)
  | finished (v : Json)

namespace Parser

/-- Before the first token. -/
def start : Parser := .within [] .value

/-- Puts a value into what is open. -/
def place (opened : List Open) (v : Json) : Option Parser :=
  match opened with
  | [] => some (.finished v)
  | .list xs :: rest => some (.within (.list (v :: xs) :: rest) .separator)
  | .member ms name :: rest => some (.within (.object ((name, v) :: ms) :: rest) .separator)
  | .object _ :: _ => none

/-- Takes a token where a value may come. -/
def takeValue (opened : List Open) : Token → Option Parser
  | .openList => some (.within (.list [] :: opened) .item)
  | .openObject => some (.within (.object [] :: opened) .member)
  | .string (some s) => place opened (.str s)
  | .string none => place opened .garbled
  | .plain v => place opened v
  | .closeList | .closeObject | .comma | .colon => none

/-- Takes a token where a name may come. -/
def takeName (opened : List Open) : Token → Option Parser
  | .string name =>
    match opened with
    | .object ms :: rest => some (.within (.member ms name :: rest) .colon)
    | _ => none
  | _ => none

/-- Ends what is open. -/
def takeEnd (opened : List Open) : Token → Option Parser
  | .closeList =>
    match opened with
    | .list xs :: rest => place rest (.arr xs.reverse)
    | _ => none
  | .closeObject =>
    match opened with
    | .object ms :: rest => place rest (Open.close ms)
    | _ => none
  | _ => none

/-- Goes on behind a comma. -/
def takeComma : List Open → Option Parser
  | .list xs :: rest => some (.within (.list xs :: rest) .value)
  | .object ms :: rest => some (.within (.object ms :: rest) .name)
  | _ => none

/-- Takes a token into account. -/
def step (p : Parser) (t : Token) : Option Parser :=
  match p with
  | .finished _ => none
  | .within opened .value => takeValue opened t
  | .within opened .item => (takeEnd opened t).or (takeValue opened t)
  | .within opened .name => takeName opened t
  | .within opened .member => (takeEnd opened t).or (takeName opened t)
  | .within opened .colon =>
    match t with
    | .colon => some (.within opened .value)
    | _ => none
  | .within opened .separator =>
    match t with
    | .comma => takeComma opened
    | _ => takeEnd opened t

/-- The document that was read. -/
def document? : Parser → Option Json
  | .finished v => some v
  | .within _ _ => none

end Parser

/-- Reads one document that fills its text. -/
def parse? (cs : List Char) : Option Json :=
  ((Token.scan? cs).bind (fun ts => ts.foldlM Parser.step Parser.start)).bind Parser.document?

end WatchGate.Json
