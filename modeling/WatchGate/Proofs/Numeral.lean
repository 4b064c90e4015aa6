import WatchGate.Text.Decimal

/-!
# WatchGate — numbers as they are written

A numeral is one or more digits, with or without a plus sign in front, and stands
for their value. Leading zeros are allowed, so that a number has many numerals. The
one that `Text.digits` prints is that of the standard library.

Main results:

* `Text.unsigned?_eq_some_iff` — what is read is the value of a numeral, if it is
  below the bound.
* `Text.writes_digits` — what is printed is a numeral of the number.
-/

namespace WatchGate.Text

variable {cs ds : List Char} {c : Char} {n acc bound : Nat}

/-- Whether a text is a numeral of a number. -/
def Writes (cs : List Char) (n : Nat) : Prop :=
  ∃ ds, (cs = ds ∨ cs = '+' :: ds) ∧ ds ≠ [] ∧ (∀ c ∈ ds, c.isDigit = true) ∧
    Nat.ofDigitChars 10 ds 0 = n

-- ---------------------------------------------------------------------------
-- Reading
-- ---------------------------------------------------------------------------

theorem readDigits_eq_some_iff : readDigits acc ds = some n ↔
    (∀ c ∈ ds, c.isDigit = true) ∧ Nat.ofDigitChars 10 ds acc = n := by
  induction ds generalizing acc with
  | nil => simp [readDigits]
  | cons c ds ih =>
    unfold readDigits digitValue?
    rw [List.forall_mem_cons, Nat.ofDigitChars_cons, Nat.mul_comm 10 acc]
    cases hc : c.isDigit with
    | true => simp [ih]
    | false => simp

theorem valueOf?_eq_some_iff : valueOf? ds = some n ↔
    ds ≠ [] ∧ (∀ c ∈ ds, c.isDigit = true) ∧ Nat.ofDigitChars 10 ds 0 = n := by
  cases ds with
  | nil => simp [valueOf?]
  | cons c ds =>
    unfold valueOf?
    rw [readDigits_eq_some_iff]
    simp

theorem filter_lt_eq_some_iff {o : Option Nat} :
    o.filter (· < bound) = some n ↔ o = some n ∧ n < bound := by
  rw [Option.filter_eq_some_iff, decide_eq_true_eq]

theorem unsigned?_plus (bound : Nat) (ds : List Char) :
    unsigned? bound ('+' :: ds) = (valueOf? ds).filter (· < bound) := by
  simp only [unsigned?]
  cases valueOf? ds with
  | none => rfl
  | some n => by_cases hn : n < bound <;> simp [hn, Option.filter]

theorem unsigned?_of_no_sign (bound : Nat) (h : ∀ ds, cs ≠ '+' :: ds) :
    unsigned? bound cs = (valueOf? cs).filter (· < bound) := by
  unfold unsigned?
  split
  · next ds => exact absurd rfl (h ds)
  · dsimp only
    cases valueOf? cs with
    | none => rfl
    | some n => by_cases hn : n < bound <;> simp [hn, Option.filter]

/-- A numeral with a sign is a numeral behind it. -/
theorem writes_plus_iff : Writes ('+' :: ds) n ↔ valueOf? ds = some n := by
  rw [valueOf?_eq_some_iff]
  constructor
  · rintro ⟨ds', hds, h⟩
    rcases hds with rfl | hds
    · exact absurd (h.2.1 '+' List.mem_cons_self) (by decide)
    · obtain ⟨-, rfl⟩ := List.cons.inj hds
      exact h
  · intro h
    exact ⟨ds, .inr rfl, h⟩

theorem writes_iff_of_no_sign (hsign : ∀ ds, cs ≠ '+' :: ds) :
    Writes cs n ↔ valueOf? cs = some n := by
  rw [valueOf?_eq_some_iff]
  constructor
  · rintro ⟨ds, hds, h⟩
    rcases hds with rfl | hds
    · exact h
    · exact absurd hds (hsign ds)
  · intro h
    exact ⟨cs, .inl rfl, h⟩

/-- A text is read as a number below the bound if it is a numeral of it. -/
theorem unsigned?_eq_some_iff : unsigned? bound cs = some n ↔ Writes cs n ∧ n < bound := by
  by_cases hsign : ∃ ds, cs = '+' :: ds
  · obtain ⟨ds, rfl⟩ := hsign
    rw [unsigned?_plus, filter_lt_eq_some_iff, writes_plus_iff]
  · have hno : ∀ ds, cs ≠ '+' :: ds := not_exists.mp hsign
    rw [unsigned?_of_no_sign bound hno, filter_lt_eq_some_iff, writes_iff_of_no_sign hno]

-- ---------------------------------------------------------------------------
-- Printing
-- ---------------------------------------------------------------------------

theorem digitChar_eq (h : n < 10) : digitChar n = Nat.digitChar n := by
  match n, h with
  | 0, _ | 1, _ | 2, _ | 3, _ | 4, _ | 5, _ | 6, _ | 7, _ | 8, _ | 9, _ => rfl

theorem digits_eq_toDigits (n : Nat) : digits n = Nat.toDigits 10 n := by
  induction n using Nat.strongRecOn with
  | _ n ih =>
    rw [digits, Nat.toDigits_eq_if (by decide)]
    split
    · next h => rw [digitChar_eq h]
    · next h => rw [ih (n / 10) (by omega), digitChar_eq (Nat.mod_lt n (by decide))]

theorem ofList_digits (n : Nat) : String.ofList (digits n) = toString n := by
  rw [digits_eq_toDigits]
  rfl

theorem isDigit_of_mem_digits (h : c ∈ digits n) : c.isDigit = true := by
  rw [digits_eq_toDigits] at h
  exact Nat.isDigit_of_mem_toDigits (by decide) (by decide) h

theorem ascii_of_isDigit (h : c.isDigit = true) : c.toNat < 0x80 := by
  unfold Char.isDigit at h
  rw [Bool.and_eq_true, decide_eq_true_eq, decide_eq_true_eq] at h
  have hle : c.toNat ≤ 57 := UInt32.le_iff_toNat_le.mp h.2
  omega

theorem writes_digits (n : Nat) : Writes (digits n) n := by
  refine ⟨digits n, .inl rfl, digits_ne_nil n, fun c hc => isDigit_of_mem_digits hc, ?_⟩
  rw [digits_eq_toDigits]
  exact Nat.ofDigitChars_ten_toDigits

end WatchGate.Text
