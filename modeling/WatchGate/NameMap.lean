/-!
# WatchGate: values by name

A `NameMap` holds at most one value for each name, in ascending order of the
names (character by character, which is also the order of their UTF-8 bytes).
Order and uniqueness are one invariant of the type: each name is strictly below
the names behind it.

* `alter` makes the value under a name from the one that is there, if any;
* `get?_alter_self` and `get?_alter_of_ne` say what it does to a look-up, and
  these two are all that later proofs need of its recursion.
-/

namespace WatchGate

/-- Each name is strictly below the names behind it. -/
abbrev Ascending {α : Type} (xs : List (String × α)) : Prop :=
  xs.Pairwise (fun a b => a.1 < b.1)

namespace NameMap

variable {α : Type}

/-- Makes the value under `k` from the present one, in a list in ascending order. -/
def alterEntries (k : String) (f : Option α → α) : List (String × α) → List (String × α)
  | [] => [(k, f none)]
  | (n, v) :: rest =>
    if k < n then (k, f none) :: (n, v) :: rest
    else if k = n then (k, f (some v)) :: rest
    else (n, v) :: alterEntries k f rest

/-- The first value under a name. -/
def look (k : String) : List (String × α) → Option α
  | [] => none
  | (n, v) :: rest => if n = k then some v else look k rest

theorem mem_alterEntries {k : String} {f : Option α → α} {xs : List (String × α)}
    {p : String × α} (h : p ∈ alterEntries k f xs) : p.1 = k ∨ p ∈ xs := by
  induction xs with
  | nil => simp only [alterEntries, List.mem_singleton] at h; exact Or.inl (by rw [h])
  | cons x xs ih =>
    obtain ⟨n, v⟩ := x
    unfold alterEntries at h
    split at h
    · rcases List.mem_cons.1 h with rfl | h
      · exact Or.inl rfl
      · exact Or.inr h
    · split at h
      · rcases List.mem_cons.1 h with rfl | h
        · exact Or.inl rfl
        · exact Or.inr (List.mem_cons_of_mem _ h)
      · rcases List.mem_cons.1 h with rfl | h
        · exact Or.inr List.mem_cons_self
        · rcases ih h with h | h
          · exact Or.inl h
          · exact Or.inr (List.mem_cons_of_mem _ h)

theorem ascending_alterEntries {xs : List (String × α)} (h : Ascending xs) (k : String)
    (f : Option α → α) : Ascending (alterEntries k f xs) := by
  induction xs with
  | nil => simp [alterEntries]
  | cons x xs ih =>
    obtain ⟨n, v⟩ := x
    have hx := List.pairwise_cons.1 h
    unfold alterEntries
    split
    · next hk =>
      refine List.pairwise_cons.2 ⟨fun p hp => ?_, h⟩
      rcases List.mem_cons.1 hp with rfl | hp
      · exact hk
      · exact String.lt_trans hk (hx.1 p hp)
    · split
      · next hk => subst hk; exact List.pairwise_cons.2 ⟨hx.1, hx.2⟩
      · next hlt hne =>
        refine List.pairwise_cons.2 ⟨fun p hp => ?_, ih hx.2⟩
        rcases mem_alterEntries hp with hp | hp
        · rw [hp]
          apply Classical.byContradiction
          intro hn
          exact hne (String.le_antisymm (String.not_lt.1 hn) (String.not_lt.1 hlt))
        · exact hx.1 p hp

theorem look_eq_none_of_lt {k : String} {xs : List (String × α)}
    (h : ∀ p ∈ xs, k < p.1) : look k xs = none := by
  induction xs with
  | nil => rfl
  | cons x xs ih =>
    have hx := h x List.mem_cons_self
    unfold look
    rw [if_neg (fun e => String.lt_irrefl k (by rw [e] at hx; exact hx))]
    exact ih (fun p hp => h p (List.mem_cons_of_mem _ hp))

theorem look_alterEntries_self {xs : List (String × α)} (h : Ascending xs) (k : String)
    (f : Option α → α) : look k (alterEntries k f xs) = some (f (look k xs)) := by
  induction xs with
  | nil => simp [alterEntries, look]
  | cons x xs ih =>
    obtain ⟨n, v⟩ := x
    have hx := List.pairwise_cons.1 h
    unfold alterEntries
    split
    · next hk =>
      have hn : look k ((n, v) :: xs) = none := look_eq_none_of_lt (fun p hp => by
        rcases List.mem_cons.1 hp with rfl | hp
        · exact hk
        · exact String.lt_trans hk (hx.1 p hp))
      rw [hn]; simp [look]
    · split
      · next hk => subst hk; simp [look]
      · next hne => simp [look, Ne.symm hne, ih hx.2]

theorem look_alterEntries_of_ne {xs : List (String × α)} {k m : String} (hm : m ≠ k)
    (f : Option α → α) : look m (alterEntries k f xs) = look m xs := by
  induction xs with
  | nil => simp [alterEntries, look, Ne.symm hm]
  | cons x xs ih =>
    obtain ⟨n, v⟩ := x
    unfold alterEntries
    split
    · simp [look, Ne.symm hm]
    · split
      · next hk => subst hk; simp [look, Ne.symm hm]
      · simp [look, ih]

end NameMap

/-- Values by name, in ascending order of the names. -/
structure NameMap (α : Type) where
  /-- the names and their values -/
  entries : List (String × α)
  /-- each name is strictly below the names behind it -/
  ascending : Ascending entries

namespace NameMap

variable {α : Type}

/-- No names. -/
def empty : NameMap α := ⟨[], List.Pairwise.nil⟩

instance : EmptyCollection (NameMap α) := ⟨empty⟩

instance : Inhabited (NameMap α) := ⟨empty⟩

/-- Makes the value under a name from the present one, if there is one. -/
def alter (m : NameMap α) (k : String) (f : Option α → α) : NameMap α :=
  ⟨alterEntries k f m.entries, ascending_alterEntries m.ascending k f⟩

/-- Puts a value under a name, in place of any that is there. -/
def insert (m : NameMap α) (k : String) (v : α) : NameMap α :=
  m.alter k (fun _ => v)

/-- The value under a name. -/
def get? (m : NameMap α) (k : String) : Option α :=
  look k m.entries

/-- The values in order of their names. -/
def values (m : NameMap α) : List α :=
  m.entries.map (·.2)

/-- The names in order. -/
def names (m : NameMap α) : List String :=
  m.entries.map (·.1)

/-- How many names there are. -/
def size (m : NameMap α) : Nat :=
  m.entries.length

@[simp] theorem get?_empty (k : String) : (empty : NameMap α).get? k = none := rfl

@[simp] theorem get?_alter_self (m : NameMap α) (k : String) (f : Option α → α) :
    (m.alter k f).get? k = some (f (m.get? k)) :=
  look_alterEntries_self m.ascending k f

theorem get?_alter_of_ne (m : NameMap α) {k n : String} (h : n ≠ k) (f : Option α → α) :
    (m.alter k f).get? n = m.get? n :=
  look_alterEntries_of_ne h f

end NameMap

end WatchGate
