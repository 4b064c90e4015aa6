import WatchGate.Socket.Frame
import WatchGate.Text.Utf8

/-!
# WatchGate: reading messages from a socket

A `Reader` keeps what has arrived and not been read, and the message whose
fragments are being joined. `Reader.accept` says what a frame adds: a message,
nothing yet, or a failure, after which nothing is read. Frames of a client are
masked and those of a server are not; text is checked as its fragments arrive.
-/

namespace WatchGate.Socket

/-- A message. -/
inductive Message
  | text (s : String)
  | binary (bs : Bytes)
  | ping (bs : Bytes)
  | pong (bs : Bytes)
  /-- with a code and a reason, if it has any -/
  | close (why : Option (Nat × String))
  deriving DecidableEq, Repr

/-- Which end reads. -/
inductive Role
  | client
  | server
  deriving DecidableEq, Repr

/-- A message whose fragments are being joined. -/
structure Begun where
  isText : Bool
  payload : Bytes
  deriving DecidableEq, Repr

/-- The reading end of a socket. -/
structure Reader where
  role : Role
  /-- the greatest size of a frame and of a message -/
  maxSize : Nat
  /-- what has arrived and not been read -/
  arrived : Bytes
  begun : Option Begun
  deriving DecidableEq, Repr

/-- What a frame adds. -/
inductive Added
  | nothing (begun : Option Begun)
  | message (m : Message) (begun : Option Begun)
  | failure
  deriving DecidableEq, Repr

/-- What is read. -/
inductive Reading
  | message (m : Message)
  | failure
  deriving DecidableEq, Repr

namespace Reader

/-- Before anything has arrived. -/
def make (role : Role) (maxSize : Nat) : Reader := ⟨role, maxSize, [], none⟩

/-- The longest payload of a control frame. -/
def maxControl : Nat := 125

/-- The message of a complete payload. -/
def whole (isText : Bool) (payload : Bytes) : Option Message :=
  if isText then (Utf8.toString? payload).map .text else some (.binary payload)

/-- What the last fragment of a message adds. -/
def complete (isText : Bool) (payload : Bytes) : Added :=
  match whole isText payload with
  | some m => .message m none
  | none => .failure

/-- What a fragment of a message adds to what came before. -/
def fragment (maxSize : Nat) (final : Bool) (b : Begun) (payload : Bytes) : Added :=
  let joined := b.payload ++ payload
  if maxSize < joined.length then .failure
  else if b.isText && !Utf8.begins joined then .failure
  else if final then complete b.isText joined
  else .nothing (some ⟨b.isText, joined⟩)

/-- What a close frame says: nothing, or a code and a reason. -/
def closing : Bytes → Option (Option (Nat × String))
  | [] => some none
  | [_] => none
  | a :: b :: reason =>
    (Utf8.toString? reason).map (fun s => some (a.toNat * 256 + b.toNat, s))

/-- What a control frame adds. -/
def control (f : Frame) (begun : Option Begun) : Added :=
  if !f.final || maxControl < f.payload.length then .failure
  else
    match f.opcode with
    | .close =>
      match closing f.payload with
      | some why => .message (.close why) begun
      | none => .failure
    | .ping => .message (.ping f.payload) begun
    | _ => .message (.pong f.payload) begun

/-- What a data frame adds. -/
def data (maxSize : Nat) (f : Frame) : Option Begun → Added
  | none =>
    match f.opcode with
    | .continuation => .failure
    | o => fragment maxSize f.final ⟨o == .text, []⟩ f.payload
  | some b =>
    match f.opcode with
    | .continuation => fragment maxSize f.final b f.payload
    | _ => .failure

/-- What a frame adds. -/
def accept (r : Reader) (f : Frame) : Added :=
  if f.masked != (r.role == .server) then .failure
  else if f.reserved then .failure
  else if f.opcode.isControl then control f r.begun
  else data r.maxSize f r.begun

/-- Reads all messages of what has arrived, up to a failure. -/
def readAll (r : Reader) : List Reading × Reader :=
  match h : Frame.parse r.maxSize r.arrived with
  | .more => ([], r)
  | .bad => ([.failure], r)
  | .frame f rest =>
    have : rest.length < r.arrived.length := Frame.parse_rest_lt h
    match r.accept f with
    | .failure => ([.failure], r)
    | .nothing begun => readAll { r with arrived := rest, begun := begun }
    | .message m begun =>
      let (ms, r) := readAll { r with arrived := rest, begun := begun }
      (.message m :: ms, r)
termination_by r.arrived.length

/-- What more bytes bring. -/
def feed (r : Reader) (bs : Bytes) : List Reading × Reader :=
  readAll { r with arrived := r.arrived ++ bs }

end Reader

end WatchGate.Socket
