import WatchGate.Multiwatch.Relay
import WatchGate.Proofs.Utf8

/-!
# WatchGate — relaying piece by piece

`relay` says what all the items of a feed give to a client. A session sees them
one after the other, so here is what `relay` says of a row that goes on:
`relay_append` cuts a row anywhere, and from it, what was given stays given
(`frames_mono`), and behind an end nothing changes any more (`relay_eq_of_ended`).

Taken as a whole, a row gives what its items give up to the first one that ends the
feed (`relay_cut`), and an item that gives nothing and ends nothing might as well not
be there (`relay_passed_over`).
-/

namespace WatchGate.Multiwatch

variable {xs ys : List Item} {x : Item} {a : Fate}

-- ---------------------------------------------------------------------------
-- One item
-- ---------------------------------------------------------------------------

namespace Item

/-- An item gives a text to the client that it is, or whose UTF-8 it holds. -/
theorem payload?_eq_some_iff {p : String} :
    x.payload? = some p ↔ x = .text p ∨ ∃ bs, x = .binary bs ∧ p.toUTF8 = bs.toByteArray := by
  cases x with
  | binary bs => simp [payload?, Utf8.toString?_eq_some_iff]
  | _ => simp [payload?]

/-- Whether a feed ends with an item. -/
def Ends (x : Item) : Prop := x = .close ∨ x = .failure ∨ x = .finish

theorem fate?_eq_none_iff : x.fate? = none ↔ ¬ x.Ends := by
  cases x <;> simp [fate?, Ends]

theorem fate?_eq_clean_iff : x.fate? = some .clean ↔ x = .close ∨ x = .finish := by
  cases x <;> simp [fate?]

theorem fate?_eq_failed_iff : x.fate? = some .failed ↔ x = .failure := by
  cases x <;> simp [fate?]

theorem fate?_ne_crashed : x.fate? ≠ some .crashed := by
  cases x <;> simp [fate?]

/-- A failure is told from the other ways to end. -/
theorem Ends.fate?_eq (h : x.Ends) :
    x.fate? = some (if x = .failure then .failed else .clean) := by
  rcases h with rfl | rfl | rfl <;> rfl

theorem ends_iff_exists_fate : x.Ends ↔ ∃ a, x.fate? = some a := by
  cases x <;> simp [fate?, Ends]

/-- What ends a feed gives nothing to the client. -/
theorem payload?_of_fate? (h : x.fate? = some a) : x.payload? = none := by
  cases x <;> first | rfl | cases h

end Item

-- ---------------------------------------------------------------------------
-- A row that goes on
-- ---------------------------------------------------------------------------

@[simp] theorem relay_nil : relay [] = ⟨[], none⟩ := rfl

theorem relay_cons_of_fate? (h : x.fate? = some a) : relay (x :: xs) = ⟨[], some a⟩ := by
  simp [relay, h]

theorem relay_cons_of_open (h : x.fate? = none) :
    relay (x :: xs) = ⟨x.payload?.toList ++ (relay xs).frames, (relay xs).fate⟩ := by
  simp [relay, h]

/-- Cut anywhere, a row gives what its first part gives and, unless that part
ends the feed, what the rest gives. -/
theorem relay_append (xs ys : List Item) : relay (xs ++ ys) =
    match (relay xs).fate with
    | some _ => relay xs
    | none => ⟨(relay xs).frames ++ (relay ys).frames, (relay ys).fate⟩ := by
  induction xs with
  | nil => rfl
  | cons x xs ih =>
    cases hx : x.fate? with
    | some a => simp [relay_cons_of_fate? hx]
    | none =>
      rw [List.cons_append, relay_cons_of_open hx, relay_cons_of_open hx, ih]
      cases h : (relay xs).fate <;> simp [h]

/-- One item more, where the feed has not ended. -/
theorem relay_concat (h : (relay xs).fate = none) (x : Item) :
    relay (xs ++ [x]) = ⟨(relay xs).frames ++ x.payload?.toList, x.fate?⟩ := by
  rw [relay_append, h]
  cases hx : x.fate? with
  | some a => simp [relay_cons_of_fate? hx, Item.payload?_of_fate? hx]
  | none =>
    rw [relay_cons_of_open hx, relay_nil, List.append_nil]

/-- Behind an end, nothing that follows counts. -/
theorem relay_eq_of_ended (hp : xs <+: ys) (h : (relay xs).fate = some a) :
    relay ys = relay xs := by
  obtain ⟨rest, rfl⟩ := hp
  rw [relay_append, h]

/-- What was given stays given. -/
theorem frames_mono (hp : xs <+: ys) : (relay xs).frames <+: (relay ys).frames := by
  cases h : (relay xs).fate with
  | some a =>
    exact ⟨[], by rw [relay_eq_of_ended hp h, List.append_nil]⟩
  | none =>
    obtain ⟨rest, rfl⟩ := hp
    rw [relay_append, h]
    exact List.prefix_append _ _

-- ---------------------------------------------------------------------------
-- A row and its end
-- ---------------------------------------------------------------------------

/-- Where nothing ends the feed, the client is given what each item gives. -/
theorem relay_of_open (h : ∀ x ∈ xs, ¬ x.Ends) : relay xs = ⟨xs.filterMap Item.payload?, none⟩ := by
  induction xs with
  | nil => rfl
  | cons x xs ih =>
    obtain ⟨hx, hxs⟩ := List.forall_mem_cons.mp h
    rw [relay_cons_of_open (Item.fate?_eq_none_iff.mpr hx), ih hxs]
    cases hp : x.payload? <;> simp [hp]

/-- A feed gives what its items give in front of the first one that ends it, and ends
as this one says, whatever comes behind. -/
theorem relay_cut (h : ∀ y ∈ xs, ¬ y.Ends) (hx : x.Ends) :
    relay (xs ++ x :: ys) = ⟨xs.filterMap Item.payload?, x.fate?⟩ := by
  obtain ⟨a, ha⟩ := Item.ends_iff_exists_fate.mp hx
  rw [relay_append, relay_of_open h, relay_cons_of_fate? ha, ha]
  simp

/-- An item that gives nothing and ends nothing is passed over. -/
theorem relay_passed_over (hx : ¬ x.Ends) (hp : x.payload? = none) :
    relay (xs ++ x :: ys) = relay (xs ++ ys) := by
  have hskip : relay (x :: ys) = relay ys := by
    rw [relay_cons_of_open (Item.fate?_eq_none_iff.mpr hx), hp]
    rfl
  rw [relay_append, relay_append, hskip]

/-- Every row has no item that ends the feed, or a first one. -/
theorem open_or_cut (xs : List Item) : (∀ x ∈ xs, ¬ x.Ends) ∨
    ∃ before x after, xs = before ++ x :: after ∧ (∀ y ∈ before, ¬ y.Ends) ∧ x.Ends := by
  induction xs with
  | nil => exact .inl nofun
  | cons x xs ih =>
    by_cases hx : x.Ends
    · exact .inr ⟨[], x, xs, rfl, nofun, hx⟩
    · rcases ih with hxs | ⟨before, y, after, rfl, hbefore, hy⟩
      · exact .inl (List.forall_mem_cons.mpr ⟨hx, hxs⟩)
      · exact .inr ⟨x :: before, y, after, rfl, List.forall_mem_cons.mpr ⟨hx, hbefore⟩, hy⟩

theorem fate_eq_none_iff : (relay xs).fate = none ↔ ∀ x ∈ xs, ¬ x.Ends := by
  refine ⟨fun h => ?_, fun h => by rw [relay_of_open h]⟩
  rcases open_or_cut xs with hxs | ⟨before, x, after, rfl, hbefore, hx⟩
  · exact hxs
  · rw [relay_cut hbefore hx] at h
    exact absurd hx (Item.fate?_eq_none_iff.mp h)

theorem fate_eq_some_iff : (relay xs).fate = some a ↔ ∃ before x after,
    xs = before ++ x :: after ∧ (∀ y ∈ before, ¬ y.Ends) ∧ x.fate? = some a := by
  constructor
  · intro h
    rcases open_or_cut xs with hxs | ⟨before, x, after, rfl, hbefore, hx⟩
    · rw [relay_of_open hxs] at h
      cases h
    · rw [relay_cut hbefore hx] at h
      exact ⟨before, x, after, rfl, hbefore, h⟩
  · rintro ⟨before, x, after, rfl, hbefore, hx⟩
    rw [relay_cut hbefore (Item.ends_iff_exists_fate.mpr ⟨a, hx⟩)]
    exact hx

end WatchGate.Multiwatch
