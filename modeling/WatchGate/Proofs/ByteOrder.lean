import Mathlib.Algebra.Ring.Nat
import WatchGate.Text.Utf8

/-!
# WatchGate — the order of texts is the order of their bytes

Texts are compared character by character, and elsewhere byte by byte. In UTF-8 the two
are one order. A character is written as a number to base 64 (`Utf8.spelled`): its last
digits are continuation bytes, and what is above them is added to a mark in the lead byte.
Two numbers with as many digits compare as their bytes do, since the bytes are their digits
from the highest on (`Utf8.spelled_lt`). And of two characters the one with more bytes is the
greater one and has the greater lead byte, since its mark lies above every lead byte of a
shorter one.

Main results:

* `Utf8.encodeChar_lt` — of two characters, the lesser has the lesser bytes, whatever
  follows.
* `Utf8.ofString_lt_iff` — a text is before another exactly if its bytes are.
-/

namespace WatchGate.Utf8

variable {n m mark k : Nat} {c d : Char} {as bs : List Char} {a b : String}

-- ---------------------------------------------------------------------------
-- Digits
-- ---------------------------------------------------------------------------

/-- A number with its last `k` digits to base 64 as continuation bytes, and what is above
them in a lead byte with a mark. -/
def spelled (mark : Nat) : Nat → Nat → Bytes
  | 0, n => [UInt8.ofNat (n + mark)]
  | k + 1, n => spelled mark k (n / 64) ++ [UInt8.ofNat (n % 64 + 0x80)]

theorem ofNat_lt_ofNat (h : n < m) (hm : m < 256) : UInt8.ofNat n < UInt8.ofNat m := by
  rw [UInt8.lt_iff_toNat_lt, UInt8.toNat_ofNat', UInt8.toNat_ofNat']
  omega

theorem exists_spelled_eq_cons (mark k n : Nat) :
    ∃ tail, spelled mark k n = UInt8.ofNat (n / 64 ^ k + mark) :: tail := by
  induction k generalizing n with
  | zero => exact ⟨[], by simp [spelled]⟩
  | succ k ih =>
    obtain ⟨tail, htail⟩ := ih (n / 64)
    refine ⟨tail ++ [UInt8.ofNat (n % 64 + 0x80)], ?_⟩
    rw [spelled, htail, Nat.div_div_eq_div_mul, Nat.pow_succ, Nat.mul_comm 64]
    rfl

/-- Of two numbers with as many digits, the lesser has the lesser bytes. -/
theorem spelled_lt (h : n < m) (hm : m / 64 ^ k + mark < 256) (xs ys : Bytes) :
    spelled mark k n ++ xs < spelled mark k m ++ ys := by
  induction k generalizing n m xs ys with
  | zero =>
    have hbyte : UInt8.ofNat (n + mark) < UInt8.ofNat (m + mark) :=
      ofNat_lt_ofNat (by omega) (by simpa using hm)
    exact List.cons_lt_cons_iff.mpr (.inl hbyte)
  | succ k ih =>
    have hrange : m / 64 / 64 ^ k + mark < 256 := by
      rwa [Nat.div_div_eq_div_mul, Nat.mul_comm, ← Nat.pow_succ]
    simp only [spelled, List.append_assoc, List.singleton_append]
    rcases Nat.lt_or_ge (n / 64) (m / 64) with hlt | hge
    · exact ih hlt hrange _ _
    · -- all digits are the same but the last
      have hsame : n / 64 = m / 64 := by omega
      have hbyte : UInt8.ofNat (n % 64 + 0x80) < UInt8.ofNat (m % 64 + 0x80) :=
        ofNat_lt_ofNat (by omega) (by omega)
      rw [hsame]
      exact List.append_left_lt (List.cons_lt_cons_iff.mpr (.inl hbyte))

-- ---------------------------------------------------------------------------
-- Characters
-- ---------------------------------------------------------------------------

/-- The marks of lead bytes, with the number of bytes behind them and the characters that
take as many. -/
inductive Marked (n : Nat) : Nat → Nat → Prop
  | one : n < 0x80 → Marked n 0 0
  | two : 0x80 ≤ n → n < 0x800 → Marked n 0xc0 1
  | three : 0x800 ≤ n → n < 0x10000 → Marked n 0xe0 2
  | four : 0x10000 ≤ n → n < 0x110000 → Marked n 0xf0 3

theorem toNat_val_lt (c : Char) : c.val.toNat < 0x110000 := by
  rcases c.valid with h | h
  · exact Nat.lt_trans h (by decide)
  · exact h.2

theorem exists_marked (c : Char) : ∃ mark k,
    Marked c.val.toNat mark k ∧ String.utf8EncodeChar c = spelled mark k c.val.toNat := by
  have hlt := toNat_val_lt c
  unfold String.utf8EncodeChar
  generalize c.val.toNat = n at hlt
  dsimp only
  split
  · next h1 => exact ⟨0, 0, .one (by omega), rfl⟩
  split
  · next h1 h2 =>
    refine ⟨0xc0, 1, .two (by omega) (by omega), ?_⟩
    have hlead : n / 64 % 32 = n / 64 := by omega
    rw [hlead]
    rfl
  split
  · next h1 h2 h3 =>
    refine ⟨0xe0, 2, .three (by omega) (by omega), ?_⟩
    have hlead : n / 4096 % 16 = n / 64 / 64 := by omega
    rw [hlead]
    rfl
  · next h1 h2 h3 =>
    refine ⟨0xf0, 3, .four (by omega) (by omega), ?_⟩
    have hlead : n / 262144 % 8 = n / 64 / 64 / 64 := by omega
    have hnext : n / 4096 % 64 = n / 64 / 64 % 64 := by omega
    rw [hlead, hnext]
    rfl

theorem Marked.lead_lt (h : Marked n mark k) : n / 64 ^ k + mark < 256 := by
  cases h <;> omega

/-- The greater of two characters has the greater lead byte, or as many bytes. -/
theorem Marked.lead_lt_or_same {mark' k' : Nat} (h : Marked n mark k) (h' : Marked m mark' k')
    (hlt : n < m) : n / 64 ^ k + mark < m / 64 ^ k' + mark' ∨ mark = mark' ∧ k = k' := by
  cases h <;> cases h' <;> omega

/-- Of two characters, the lesser has the lesser bytes, whatever follows. -/
theorem encodeChar_lt (h : c < d) (xs ys : Bytes) :
    String.utf8EncodeChar c ++ xs < String.utf8EncodeChar d ++ ys := by
  obtain ⟨mark, k, hc, hcs⟩ := exists_marked c
  obtain ⟨mark', k', hd, hds⟩ := exists_marked d
  rw [hcs, hds]
  rcases hc.lead_lt_or_same hd h with hlead | ⟨rfl, rfl⟩
  · obtain ⟨us, hus⟩ := exists_spelled_eq_cons mark k c.val.toNat
    obtain ⟨vs, hvs⟩ := exists_spelled_eq_cons mark' k' d.val.toNat
    rw [hus, hvs]
    exact List.cons_lt_cons_iff.mpr (.inl (ofNat_lt_ofNat hlead hd.lead_lt))
  · exact spelled_lt h hd.lead_lt xs ys

-- ---------------------------------------------------------------------------
-- Texts
-- ---------------------------------------------------------------------------

theorem encode_lt (h : as < bs) : encode as < encode bs := by
  induction as generalizing bs with
  | nil =>
    cases bs with
    | nil => exact absurd h (List.lt_irrefl [])
    | cons d ds =>
      obtain ⟨mark, k, -, hd⟩ := exists_marked d
      obtain ⟨tail, htail⟩ := exists_spelled_eq_cons mark k d.val.toNat
      have hbytes : encode (d :: ds) = String.utf8EncodeChar d ++ encode ds := List.flatMap_cons
      rw [hbytes, hd, htail]
      exact List.nil_lt_cons _ _
  | cons c cs ih =>
    cases bs with
    | nil => exact absurd h (List.not_lt_nil _)
    | cons d ds =>
      have hcs : encode (c :: cs) = String.utf8EncodeChar c ++ encode cs := List.flatMap_cons
      have hds : encode (d :: ds) = String.utf8EncodeChar d ++ encode ds := List.flatMap_cons
      rw [hcs, hds]
      rcases List.cons_lt_cons_iff.mp h with hlt | ⟨rfl, hrest⟩
      · exact encodeChar_lt hlt _ _
      · exact List.append_left_lt (ih hrest)

theorem ofString_lt (h : a < b) : ofString a < ofString b := encode_lt (String.lt_iff.mp h)

/-- A text is before another exactly if its bytes are before the other's. -/
theorem ofString_lt_iff : ofString a < ofString b ↔ a < b := by
  refine ⟨fun h => ?_, ofString_lt⟩
  -- texts in any other order would have their bytes in that order too
  rcases Std.lt_trichotomy a b with hlt | rfl | hgt
  · exact hlt
  · exact absurd h (List.lt_irrefl _)
  · exact absurd h (List.lt_asymm (ofString_lt hgt))

end WatchGate.Utf8
