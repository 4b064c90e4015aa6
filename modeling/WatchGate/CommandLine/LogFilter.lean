import WatchGate.Text.Alphanumeric
import WatchGate.Text.Decimal

/-!
# WatchGate: filters of log lines

A filter is a list of directives between commas. A directive is a target, or a
span in brackets with a target in front of it or without, and a level behind an
equals sign or none. The braces of a span hold a field, with a value or without,
which may be any text but an empty one. `LogFilter.accepts` says whether a text is
a filter.

Blanks may stand around a directive that sets no level. A level stands at the end
of its directive and may have no blanks around it, and none in front of the
directive either.
-/

namespace WatchGate.LogFilter

/-- The words for levels. -/
def levels : List String := ["error", "warn", "info", "debug", "trace", "off"]

/-- Whether characters are a level: a word in any case, a number up to five, or nothing. -/
def isLevel (cs : List Char) : Bool :=
  cs.isEmpty || (Text.unsigned? 6 cs).isSome
    || levels.any (fun w => Text.eqIgnoringCase w.toList cs)

/-- Whether a character may start a target. -/
def startsTarget (c : Char) : Bool :=
  c == '-' || c == ':' || c == '_' || Text.isAlphanumeric c

/-- What the form of a directive comes to. -/
inductive Form
  | refused
  /-- it sets no level -/
  | plain
  /-- it sets the level that stands behind the equals sign -/
  | leveled (level : List Char)
  deriving DecidableEq, Repr

/-- What follows a span: nothing, or a level. -/
def afterSpan : List Char → Form
  | [] => .plain
  | '=' :: cs => .leveled cs
  | _ => .refused

/-- Reads what is left of a field, up to its closing brace, and what follows it. -/
def fieldForm : List Char → Form
  | [] | ['\x7d'] => .refused
  | '\x7d' :: c :: cs => if c = ']' then afterSpan cs else .refused
  | _ :: cs => fieldForm cs

/-- Reads a span behind its bracket, and what follows it. -/
def spanForm : List Char → Form
  | [] => .refused
  | ']' :: cs => afterSpan cs
  | '\x7b' :: '\x7d' :: _ => .refused
  | '\x7b' :: cs => fieldForm cs
  | _ :: cs => spanForm cs

/-- Reads a target, and what follows it. -/
def targetForm : List Char → Form
  | [] => .plain
  | '=' :: cs => .leveled cs
  | '[' :: cs => spanForm cs
  | _ :: cs => targetForm cs

/-- The form of a directive without blanks around it. -/
def form : List Char → Form
  | [] => .refused
  | '[' :: cs => spanForm cs
  | c :: cs => if startsTarget c then targetForm cs else .refused

/-- Whether characters are a directive. -/
def acceptsDirective (cs : List Char) : Bool :=
  match form (Text.trim cs) with
  | .refused => false
  | .plain => true
  | .leveled level => Text.trim cs == cs && isLevel level

/-- Whether characters are a filter; directives of no characters say nothing. -/
def accepts (cs : List Char) : Bool :=
  ((Text.pieces ',' cs).filter (fun d => !d.isEmpty)).all acceptsDirective

end WatchGate.LogFilter
