import WatchGate.Socket.Reader

/-!
# WatchGate: relaying a feed

A feed yields items. Texts go to the client as they are, binary messages if they
are UTF-8; all else is passed over. The first close, failure or end of the feed
is the last item that counts. `relay` is what a feed gives to the client, and how
it ended.
-/

namespace WatchGate.Multiwatch

/-- What a socket yields. -/
inductive Item
  | text (s : String)
  | binary (bs : Bytes)
  | ping (bs : Bytes)
  | pong (bs : Bytes)
  /-- a frame that belongs to no message -/
  | frame
  | close
  | failure
  /-- nothing more comes -/
  | finish
  deriving DecidableEq, Repr

/-- How a feed ended. -/
inductive Fate
  | clean
  | failed
  /-- the task that relays broke down -/
  | crashed
  deriving DecidableEq, Repr

namespace Item

/-- The item that a reading yields. -/
def ofReading : Socket.Reading → Item
  | .failure => .failure
  | .message (.text s) => .text s
  | .message (.binary bs) => .binary bs
  | .message (.ping bs) => .ping bs
  | .message (.pong bs) => .pong bs
  | .message (.close _) => .close

/-- What an item gives to the client. -/
def payload? : Item → Option String
  | .text s => some s
  | .binary bs => Utf8.toString? bs
  | _ => none

/-- How a feed ends with an item, if it does. -/
def fate? : Item → Option Fate
  | .close | .finish => some .clean
  | .failure => some .failed
  | _ => none

end Item

/-- What a feed gave to the client. -/
structure Relayed where
  frames : List String
  /-- how it ended, if it did -/
  fate : Option Fate
  deriving DecidableEq, Repr

/-- What a feed gives to the client. -/
def relay : List Item → Relayed
  | [] => ⟨[], none⟩
  | x :: xs =>
    match x.fate? with
    | some f => ⟨[], some f⟩
    | none =>
      let r := relay xs
      ⟨x.payload?.toList ++ r.frames, r.fate⟩

end WatchGate.Multiwatch
