import WatchGate.Bytes

/-!
# WatchGate: UTF-8

`Utf8.encode` writes characters as bytes. Reading has two forms over one step
function, `Utf8.next`: `decode?` refuses any malformed part, `decodeLossy` puts
U+FFFD in the place of each maximal malformed part. A part ends before the
first byte that cannot continue it, so a truncated character is one part.
-/

namespace WatchGate.Utf8

/-- Characters as bytes. -/
def encode (cs : List Char) : Bytes :=
  cs.flatMap String.utf8EncodeChar

/-- A string as bytes. -/
def ofString (s : String) : Bytes :=
  encode s.toList

/-- What a lead byte announces. -/
structure Lead where
  /-- the bits of the character that the lead byte holds -/
  bits : Nat
  /-- the least byte that may come second -/
  lo : Nat
  /-- the greatest byte that may come second -/
  hi : Nat
  /-- how many continuation bytes follow the second byte -/
  more : Nat

/-- The lead bytes of characters beyond ASCII. Overlong forms, surrogates and
values beyond the last character are excluded by the range of the second byte. -/
def lead? (b : UInt8) : Option Lead :=
  let n := b.toNat
  if 0xc2 ≤ n ∧ n ≤ 0xdf then some ⟨n - 0xc0, 0x80, 0xbf, 0⟩
  else if n = 0xe0 then some ⟨0, 0xa0, 0xbf, 1⟩
  else if n = 0xed then some ⟨13, 0x80, 0x9f, 1⟩
  else if 0xe1 ≤ n ∧ n ≤ 0xef then some ⟨n - 0xe0, 0x80, 0xbf, 1⟩
  else if n = 0xf0 then some ⟨0, 0x90, 0xbf, 2⟩
  else if 0xf1 ≤ n ∧ n ≤ 0xf3 then some ⟨n - 0xf0, 0x80, 0xbf, 2⟩
  else if n = 0xf4 then some ⟨4, 0x80, 0x8f, 2⟩
  else none

/-- Reads `k` continuation bytes behind bits of value `acc`. The rest starts at
the first byte that does not continue the character. -/
def continued (acc : Nat) : Nat → Bytes → Option Nat × Bytes
  | 0, bs => (some acc, bs)
  | _ + 1, [] => (none, [])
  | k + 1, b :: bs =>
    if 0x80 ≤ b.toNat ∧ b.toNat ≤ 0xbf then continued (acc * 64 + (b.toNat - 0x80)) k bs
    else (none, b :: bs)

theorem continued_length (acc k : Nat) (bs : Bytes) : (continued acc k bs).2.length ≤ bs.length := by
  induction k generalizing acc bs with
  | zero => simp [continued]
  | succ k ih =>
    cases bs with
    | nil => simp [continued]
    | cons b bs =>
      unfold continued
      split
      · exact Nat.le_succ_of_le (ih _ bs)
      · simp

/-- Reads behind a first byte: a character, or `none` for a malformed part, and the rest. -/
def next (b : UInt8) (bs : Bytes) : Option Char × Bytes :=
  if b.toNat < 0x80 then (some (Char.ofNat b.toNat), bs)
  else
    match lead? b, bs with
    | some l, c :: rest =>
      if l.lo ≤ c.toNat ∧ c.toNat ≤ l.hi then
        let (n, rest) := continued (l.bits * 64 + (c.toNat - 0x80)) l.more rest
        (n.map Char.ofNat, rest)
      else (none, bs)
    | _, _ => (none, bs)

theorem next_length (b : UInt8) (bs : Bytes) : (next b bs).2.length ≤ bs.length := by
  unfold next
  split
  · simp
  · split
    · next l c rest _ =>
      split
      · have := continued_length (l.bits * 64 + (c.toNat - 0x80)) l.more rest
        simpa using Nat.le_succ_of_le this
      · simp
    · simp

/-- Reads bytes as characters, with `none` for each maximal malformed part. -/
def parts : Bytes → List (Option Char)
  | [] => []
  | b :: bs =>
    let r := next b bs
    r.1 :: parts r.2
termination_by bs => bs.length
decreasing_by
  have := next_length b bs
  simp only [List.length_cons]
  omega

/-- Whether bytes are well formed as far as they go: only the last character may be cut off. -/
def begins : Bytes → Bool
  | [] => true
  | b :: bs =>
    let r := next b bs
    match r.1 with
    | some _ => begins r.2
    | none => r.2.isEmpty && (lead? b).isSome
termination_by bs => bs.length
decreasing_by
  have := next_length b bs
  simp only [List.length_cons]
  omega

/-- The characters of well-formed bytes. -/
def decode? (bs : Bytes) : Option (List Char) :=
  (parts bs).mapM id

/-- The characters of bytes, with U+FFFD for each maximal malformed part. -/
def decodeLossy (bs : Bytes) : List Char :=
  (parts bs).map (·.getD (Char.ofNat 0xfffd))

/-- The string of well-formed bytes. -/
def toString? (bs : Bytes) : Option String :=
  (decode? bs).map String.ofList

end WatchGate.Utf8
