import WatchGate.Bytes

/-!
# WatchGate: WebSocket frames

A frame is a piece of a message, or a control message of its own. `Frame.encode`
writes it; `Frame.parse` reads one from the front of what has arrived, within a
limit on its size. `parse_rest_lt` says that a frame that is read takes bytes.
-/

namespace WatchGate.Socket

/-- What a frame is. -/
inductive Opcode
  | continuation
  | text
  | binary
  | close
  | ping
  | pong
  deriving DecidableEq, Repr

namespace Opcode

/-- The number of an opcode. -/
def code : Opcode → Nat
  | .continuation => 0
  | .text => 1
  | .binary => 2
  | .close => 8
  | .ping => 9
  | .pong => 10

/-- The opcodes. -/
def all : List Opcode := [.continuation, .text, .binary, .close, .ping, .pong]

/-- The opcode of a number; all others are reserved. -/
def ofCode? (n : Nat) : Option Opcode :=
  all.find? (fun o => o.code == n)

theorem ofCode?_code (o : Opcode) : ofCode? o.code = some o := by
  cases o <;> decide

/-- Whether a frame is a control message. -/
def isControl (o : Opcode) : Bool := 8 ≤ o.code

end Opcode

/-- A frame, with its payload unmasked. -/
structure Frame where
  /-- whether it ends its message -/
  final : Bool
  /-- whether one of the reserved bits is set -/
  reserved : Bool
  opcode : Opcode
  masked : Bool
  payload : Bytes
  deriving DecidableEq, Repr

namespace Frame

/-- A bit of a byte, at its place. -/
def bit (b : Bool) (n : Nat) : Nat := if b then n else 0

/-- The length of a payload in the shortest of the three forms, with the mask bit in front. -/
def lengthField (masked : Bool) (n : Nat) : Bytes :=
  if n < 126 then [UInt8.ofNat (bit masked 128 + n)]
  else if n < 65536 then UInt8.ofNat (bit masked 128 + 126) :: Bytes.ofNatBig 2 n
  else UInt8.ofNat (bit masked 128 + 127) :: Bytes.ofNatBig 8 n

/-- A frame as bytes. A masked frame has a key of zeros. -/
def encode (f : Frame) : Bytes :=
  UInt8.ofNat (bit f.final 128 + bit f.reserved 64 + f.opcode.code)
    :: lengthField f.masked f.payload.length
    ++ (if f.masked then [0, 0, 0, 0] else []) ++ f.payload

/-- Combines bytes with a key that is repeated. -/
def unmask : Bytes → Bytes → Bytes
  | k :: ks, b :: bs => (b ^^^ k) :: unmask (ks ++ [k]) bs
  | _, bs => bs
termination_by _ bs => bs.length

/-- The first bytes of a number, and the rest. -/
def splitExactly (n : Nat) (bs : Bytes) : Option (Bytes × Bytes) :=
  if n ≤ bs.length then some (bs.take n, bs.drop n) else none

theorem splitExactly_length {n : Nat} {bs a r : Bytes} (h : splitExactly n bs = some (a, r)) :
    r.length ≤ bs.length := by
  unfold splitExactly at h
  split at h
  · simp only [Option.some.injEq, Prod.mk.injEq] at h
    rw [← h.2]
    simp
  · simp at h

/-- The length that the second byte and those behind it state, and the rest. -/
def readLength (n : Nat) (bs : Bytes) : Option (Nat × Bytes) :=
  if n = 126 then (splitExactly 2 bs).map (fun x => (Bytes.toNatBig x.1, x.2))
  else if n = 127 then (splitExactly 8 bs).map (fun x => (Bytes.toNatBig x.1, x.2))
  else some (n, bs)

theorem readLength_length {n len : Nat} {bs r : Bytes} (h : readLength n bs = some (len, r)) :
    r.length ≤ bs.length := by
  unfold readLength at h
  split at h
  · obtain ⟨⟨a, r'⟩, hx, he⟩ := Option.map_eq_some_iff.1 h
    simp only [Prod.mk.injEq] at he
    exact he.2 ▸ splitExactly_length hx
  · split at h
    · obtain ⟨⟨a, r'⟩, hx, he⟩ := Option.map_eq_some_iff.1 h
      simp only [Prod.mk.injEq] at he
      exact he.2 ▸ splitExactly_length hx
    · simp only [Option.some.injEq, Prod.mk.injEq] at h
      simp [h.2]

/-- What stands in front of what has arrived. -/
inductive Parsed
  /-- not a whole frame yet -/
  | more
  /-- nothing that may be read -/
  | bad
  | frame (f : Frame) (rest : Bytes)
  deriving DecidableEq, Repr

/-- Reads the payload of a frame whose key and length are known. -/
def parsePayload (first : Nat) (key : Option Bytes) (maxSize len : Nat) (bs : Bytes) : Parsed :=
  match Opcode.ofCode? (first % 16) with
  | none => .bad
  | some o =>
    if maxSize < len then .bad
    else
      match splitExactly len bs with
      | none => .more
      | some (payload, rest) =>
        .frame ⟨128 ≤ first, first / 16 % 8 ≠ 0, o, key.isSome, unmask (key.getD []) payload⟩ rest

/-- Reads a frame whose payload has at most `maxSize` bytes. -/
def parse (maxSize : Nat) : Bytes → Parsed
  | a :: b :: bs =>
    match readLength (b.toNat % 128) bs with
    | none => .more
    | some (len, bs) =>
      if b.toNat < 128 then parsePayload a.toNat none maxSize len bs
      else
        match splitExactly 4 bs with
        | none => .more
        | some (key, bs) => parsePayload a.toNat (some key) maxSize len bs
  | _ => .more

theorem parsePayload_rest_le {first maxSize len : Nat} {key : Option Bytes} {bs rest : Bytes}
    {f : Frame} (h : parsePayload first key maxSize len bs = .frame f rest) :
    rest.length ≤ bs.length := by
  unfold parsePayload at h
  split at h
  · simp at h
  · split at h
    · simp at h
    · split at h
      · simp at h
      · next hs =>
        simp only [Parsed.frame.injEq] at h
        exact h.2 ▸ splitExactly_length hs

/-- A frame that is read takes bytes. -/
theorem parse_rest_lt {maxSize : Nat} {bs rest : Bytes} {f : Frame}
    (h : parse maxSize bs = .frame f rest) : rest.length < bs.length := by
  unfold parse at h
  split at h
  · next a b bs =>
    split at h
    · simp at h
    · next len bs' hl =>
      have h1 := readLength_length hl
      split at h
      · have h2 := parsePayload_rest_le h
        simp only [List.length_cons]
        omega
      · split at h
        · simp at h
        · next key bs'' hk =>
          have h2 := splitExactly_length hk
          have h3 := parsePayload_rest_le h
          simp only [List.length_cons]
          omega
  · simp at h

end Frame

end WatchGate.Socket
