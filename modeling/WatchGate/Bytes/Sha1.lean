import WatchGate.Bytes

/-!
# WatchGate: SHA-1

The digest of twenty bytes that a WebSocket handshake answers with. The message
is padded to blocks of 64 bytes, each block is spread over 80 words, and 80
rounds mix the words into a state of five words.
-/

namespace WatchGate.Bytes.Sha1

/-- The five words of the state. -/
structure State where
  a : UInt32
  b : UInt32
  c : UInt32
  d : UInt32
  e : UInt32

/-- The state before the first block. -/
def start : State :=
  ⟨0x67452301, 0xefcdab89, 0x98badcfe, 0x10325476, 0xc3d2e1f0⟩

/-- Rotates a word to the left, for `k` from 1 to 31. -/
def rotate (k : UInt32) (x : UInt32) : UInt32 :=
  (x <<< k) ||| (x >>> (32 - k))

/-- Pads a message with a one bit, zeros and its length in bits. -/
def padded (bs : Bytes) : Bytes :=
  bs ++ 0x80 :: List.replicate ((119 - bs.length % 64) % 64) 0 ++ ofNatBig 8 (8 * bs.length)

/-- The words of a run of bytes, four bytes each. -/
def words : Bytes → List UInt32
  | a :: b :: c :: d :: rest => UInt32.ofNat (toNatBig [a, b, c, d]) :: words rest
  | _ => []

/-- Adds `k` words behind the last sixteen, which come latest first. -/
def spread : Nat → List UInt32 → List UInt32
  | 0, ws => ws
  | k + 1, ws =>
    let w (i : Nat) := ws.getD i 0
    spread k (rotate 1 (w 2 ^^^ w 7 ^^^ w 13 ^^^ w 15) :: ws)

/-- One round: `i` says which of four mixing functions and constants is used. -/
def round (s : State) (i : Nat) (w : UInt32) : State :=
  let (f, k) : UInt32 × UInt32 :=
    if i < 20 then ((s.b &&& s.c) ||| (~~~s.b &&& s.d), 0x5a827999)
    else if i < 40 then (s.b ^^^ s.c ^^^ s.d, 0x6ed9eba1)
    else if i < 60 then ((s.b &&& s.c) ||| (s.b &&& s.d) ||| (s.c &&& s.d), 0x8f1bbcdc)
    else (s.b ^^^ s.c ^^^ s.d, 0xca62c1d6)
  ⟨rotate 5 s.a + f + s.e + k + w, s.a, rotate 30 s.b, s.c, s.d⟩

/-- The rounds over words numbered from `i`. -/
def rounds (s : State) (i : Nat) : List UInt32 → State
  | [] => s
  | w :: ws => rounds (round s i w) (i + 1) ws

/-- One block of sixteen words. -/
def block (s : State) (ws : List UInt32) : State :=
  let t := rounds s 0 (spread 64 ws.reverse).reverse
  ⟨s.a + t.a, s.b + t.b, s.c + t.c, s.d + t.d, s.e + t.e⟩

/-- The blocks of a run of words, at most `k` of them. -/
def blocks (s : State) : Nat → List UInt32 → State
  | 0, _ => s
  | k + 1, ws => blocks (block s (ws.take 16)) k (ws.drop 16)

/-- The digest of a message. -/
def digest (bs : Bytes) : Bytes :=
  let p := padded bs
  let s := blocks start (p.length / 64) (words p)
  [s.a, s.b, s.c, s.d, s.e].flatMap (fun w => ofNatBig 4 w.toNat)

end WatchGate.Bytes.Sha1
