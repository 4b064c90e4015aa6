import WatchGate.Http
import WatchGate.Identity

/-!
# WatchGate: who is calling

A trusted server in front of the gateway writes the caller's identity into two
headers. `Credentials.identify` reads them: the first user value must be text
and not blank; every group value that is text is cut at commas, and blank items
say nothing.
-/

namespace WatchGate

/-- The names of the headers that carry an identity. -/
structure Credentials where
  userHeader : String
  groupHeader : String
  deriving DecidableEq, Repr

namespace Credentials

/-- The names that are used unless others are asked for. -/
def standard : Credentials := ⟨"x-remote-user", "x-remote-group"⟩

/-- The groups that one value lists. -/
def groupsOf (cs : List Char) : List String :=
  (((Text.pieces ',' cs).map Text.trim).filter (fun g => !g.isEmpty)).map String.ofList

/-- The groups that values list, in order. -/
def groups (values : List (List Char)) : List String :=
  values.flatMap groupsOf

/-- The identity that headers carry. -/
def identify (c : Credentials) (h : Http.Headers) : Option Identity :=
  match (h.get? c.userHeader).bind Http.Header.text? with
  | none => none
  | some cs =>
    let user := Text.trim cs
    if user.isEmpty then none
    else some ⟨String.ofList user, groups (h.texts c.groupHeader)⟩

end Credentials

end WatchGate
