import WatchGate.Bytes.Base64
import WatchGate.Bytes.Sha1
import WatchGate.Http

/-!
# WatchGate: upgrading a client to a WebSocket

`clientKey?` is the key of a request that asks for the upgrade, `acceptKey` the
proof that the key was read, and `switching` the response that accepts. What the
first feed negotiated goes into that response: its sub-protocol and a cookie.
-/

namespace WatchGate.Multiwatch

open Http

/-- Whether one of the items that a `connection` value lists asks for an upgrade. -/
def asksUpgrade (cs : List Char) : Bool :=
  (Text.pieces ',' cs).any (fun item => Text.eqIgnoringCase (Text.trim item) "upgrade".toList)

/-- Whether a value names the WebSocket protocol. -/
def namesWebSocket (cs : List Char) : Bool :=
  Text.eqIgnoringCase (Text.trim cs) "websocket".toList

/-- The key of a request that asks for a WebSocket of version 13. -/
def clientKey? (h : Headers) : Option Bytes :=
  if (h.texts "connection").any asksUpgrade
      && ((h.get? "upgrade").bind Header.text?).any namesWebSocket
      && h.get? "sec-websocket-version" == some (Bytes.ofAscii "13") then
    h.get? "sec-websocket-key"
  else none

/-- What is hashed behind the key. -/
def keySuffix : Bytes := Bytes.ofAscii "258EAFA5-E914-47DA-95CA-C5AB0DC85B11"

/-- The answer to a key. -/
def acceptKey (key : Bytes) : Bytes :=
  (Bytes.toBase64 (Bytes.Sha1.digest (key ++ keySuffix))).map (fun c => UInt8.ofNat c.toNat)

/-- With the first value that another set of headers has under a name, if it has one. -/
def copyFirst (name : String) (given h : Headers) : Headers :=
  match given.get? name with
  | some v => h.set name v
  | none => h

/-- The response that accepts an upgrade, after the response headers of the first feed. -/
def switching (key : Bytes) (first : Headers) : Response :=
  let own : Headers :=
    ⟨[⟨"connection", Bytes.ofAscii "Upgrade"⟩, ⟨"upgrade", Bytes.ofAscii "websocket"⟩,
      ⟨"sec-websocket-accept", acceptKey key⟩]⟩
  ⟨101, copyFirst "set-cookie" first (copyFirst "sec-websocket-protocol" first own), []⟩

end WatchGate.Multiwatch
