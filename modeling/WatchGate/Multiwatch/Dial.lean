import WatchGate.Http

/-!
# WatchGate: dialing a feed

A dial sends a handshake: its own headers, and the others that go with the dial,
which must all be text. `Answer.accepts` says whether the answer makes a feed: it
must switch to the WebSocket protocol, prove that it read the key, and name a
sub-protocol exactly if some were offered, and then one of those.
-/

namespace WatchGate.Multiwatch

open Http

/-- Why a dial failed. -/
inductive DialError
  | connect (url : Uri) (cause : String)
  /-- with the milliseconds after which it was given up -/
  | timeout (url : Uri) (ms : Nat)
  deriving DecidableEq, Repr

/-- How a dial ends: with the headers of the answer that makes a feed, or with an error. -/
abbrev Dialed := Except DialError Headers

/-- The headers that a handshake writes itself; others of these names are not sent. -/
def ownNames : List String :=
  ["host", "connection", "upgrade", "sec-websocket-version", "sec-websocket-key"]

/-- The headers of a handshake, less the two that name the host and the key. None if one of the
headers to be sent is not text. -/
def handshake? (h : Headers) : Option Headers :=
  let others := h.toList.filter (fun x => !ownNames.contains x.name)
  if others.all (fun x => (Header.text? x.value).isSome) then
    some ⟨[⟨"connection", Bytes.ofAscii "Upgrade"⟩, ⟨"upgrade", Bytes.ofAscii "websocket"⟩,
      ⟨"sec-websocket-version", Bytes.ofAscii "13"⟩] ++ others⟩
  else none

/-- The sub-protocols that the first value offers, if there is one. -/
def offered (h : Headers) : Option (List (List Char)) :=
  ((h.get? "sec-websocket-protocol").bind Header.text?).map
    (fun cs => (Text.pieces ',' cs).map Text.trim)

/-- An answer to a handshake. -/
structure Answer where
  status : Nat
  headers : Headers
  /-- whether it proves that the key was read -/
  keyRead : Bool
  deriving DecidableEq, Repr

namespace Answer

/-- Whether the first value of a name is a word, in any case. -/
def hasWord (a : Answer) (name word : String) : Bool :=
  ((a.headers.get? name).bind Header.text?).any (fun cs => Text.eqIgnoringCase cs word.toList)

/-- Whether the sub-protocol of an answer goes with what was offered. -/
def agrees (a : Answer) (offers : Option (List (List Char))) : Bool :=
  match a.headers.get? "sec-websocket-protocol", offers with
  | none, none => true
  | some v, some ps =>
    match Header.text? v with
    | some cs => ps.contains cs
    | none => false
  | _, _ => false

/-- Whether an answer makes a feed. -/
def accepts (a : Answer) (offers : Option (List (List Char))) : Bool :=
  a.status == 101 && a.hasWord "upgrade" "websocket" && a.hasWord "connection" "upgrade" && a.keyRead
    && a.agrees offers

end Answer

end WatchGate.Multiwatch
