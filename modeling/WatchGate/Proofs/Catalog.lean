import Mathlib.Algebra.Ring.Nat
import Mathlib.Data.List.Dedup
import Mathlib.Data.List.Induction
import Mathlib.Data.List.Sort
import WatchGate.Catalog

/-!
# WatchGate — what is in a map of names and in a catalog

A `NameMap` is looked up by `get?` and walked in order by `values`. Since its
names ascend, the two agree: an entry is in the list if and only if it is what
the look-up finds. A catalog adds that each kind stands under its own name, so
its kinds are told apart by their names alone.

Main results:

* `NameMap.get?_eq_some_iff` — what is looked up is what is listed.
* `NameMap.eq_of_get?` — maps in which the same is looked up are equal.
* `NameMap.sum_alter` — a sum over the values, after one of them changed.
* `Catalog.get?_insert` — what one insertion does to each look-up.
* `Catalog.Named.mem_toList_iff` and `Catalog.Named.nodup_names` — the kinds of
  a catalog are those that their names lead to, each once.
* `Catalog.named_ofList` — every catalog of a list of kinds is `Named`.
-/

namespace WatchGate

namespace NameMap

variable {α : Type}

-- ---------------------------------------------------------------------------
-- Look-ups and entries
-- ---------------------------------------------------------------------------

theorem look_eq_some_iff {xs : List (String × α)} (h : Ascending xs) {n : String} {v : α} :
    look n xs = some v ↔ (n, v) ∈ xs := by
  induction xs with
  | nil => simp [look]
  | cons x xs ih =>
    obtain ⟨m, u⟩ := x
    obtain ⟨hlt, hxs⟩ := List.pairwise_cons.mp h
    unfold look
    by_cases hm : m = n
    · subst hm
      -- further names are above this one, so it has no second entry
      have hnot : (m, v) ∉ xs := fun hv => String.lt_irrefl m (hlt _ hv)
      simp [hnot, eq_comm]
    · rw [if_neg hm, ih hxs]
      simp [Ne.symm hm]

/-- What is looked up is what is listed. -/
theorem get?_eq_some_iff {m : NameMap α} {n : String} {v : α} :
    m.get? n = some v ↔ (n, v) ∈ m.entries :=
  look_eq_some_iff m.ascending

/-- A value is listed if some name leads to it. -/
theorem mem_values_iff {m : NameMap α} {v : α} : v ∈ m.values ↔ ∃ n, m.get? n = some v := by
  unfold values
  constructor
  · intro h
    obtain ⟨⟨n, u⟩, hu, rfl⟩ := List.mem_map.mp h
    exact ⟨n, get?_eq_some_iff.mpr hu⟩
  · rintro ⟨n, h⟩
    exact List.mem_map.mpr ⟨(n, v), get?_eq_some_iff.mp h, rfl⟩

theorem mem_names_iff {m : NameMap α} {n : String} :
    n ∈ m.names ↔ (m.get? n).isSome = true := by
  unfold names
  rw [List.mem_map, Option.isSome_iff_exists]
  constructor
  · rintro ⟨⟨k, v⟩, hv, rfl⟩
    exact ⟨v, get?_eq_some_iff.mpr hv⟩
  · rintro ⟨v, hv⟩
    exact ⟨(n, v), get?_eq_some_iff.mp hv, rfl⟩

theorem nodup_names (m : NameMap α) : m.names.Nodup := by
  unfold names
  rw [List.Nodup, List.pairwise_map]
  refine m.ascending.imp ?_
  intro a b hab he
  rw [he] at hab
  exact String.lt_irrefl _ hab

theorem pairwise_names (m : NameMap α) : m.names.Pairwise (· < ·) :=
  List.pairwise_map.mpr m.ascending

/-- The values are what the names lead to, in their order. -/
theorem values_eq_filterMap (m : NameMap α) : m.values = m.names.filterMap m.get? := by
  unfold values names
  rw [List.filterMap_map]
  exact (List.filterMap_eq_map_iff_forall_eq_some.mpr fun x hx => get?_eq_some_iff.mpr hx).symm

-- ---------------------------------------------------------------------------
-- What look-ups determine
-- ---------------------------------------------------------------------------

/-- Two maps that have values under the same names have the same names in the same order. -/
theorem names_eq_of_isSome {m m' : NameMap α} (h : ∀ n, (m.get? n).isSome = (m'.get? n).isSome) :
    m.names = m'.names := by
  refine m.pairwise_names.eq_of_mem_iff m'.pairwise_names fun n => ?_
  rw [mem_names_iff, mem_names_iff, h]

/-- Maps in which the same is looked up are equal. -/
theorem eq_of_get? {m m' : NameMap α} (h : ∀ n, m.get? n = m'.get? n) : m = m' := by
  have hirrefl : Std.Irrefl fun a b : String × α => a.1 < b.1 := ⟨fun a => String.lt_irrefl a.1⟩
  have hanti : Std.Antisymm fun a b : String × α => a.1 < b.1 :=
    ⟨fun a b hab hba => absurd hba (String.lt_asymm hab)⟩
  have hentries : m.entries = m'.entries := by
    refine m.ascending.eq_of_mem_iff m'.ascending fun x => ?_
    rw [← get?_eq_some_iff, ← get?_eq_some_iff, h]
  obtain ⟨entries, _⟩ := m
  obtain ⟨entries', _⟩ := m'
  obtain rfl : entries = entries' := hentries
  rfl

/-- There are as many values as names in any list of the names that have one. -/
theorem size_eq_dedup {m : NameMap α} {names : List String}
    (h : ∀ n, (m.get? n).isSome = true ↔ n ∈ names) : m.size = names.dedup.length := by
  have hperm : m.names.Perm names.dedup := by
    rw [List.perm_ext_iff_of_nodup m.nodup_names (List.nodup_dedup _)]
    intro n
    rw [List.mem_dedup, mem_names_iff, h]
  rw [← hperm.length_eq]
  exact (List.length_map _).symm

-- ---------------------------------------------------------------------------
-- Sums over the values
-- ---------------------------------------------------------------------------

/-- The sum of a weight over the values. -/
def sum (w : α → Nat) (m : NameMap α) : Nat := (m.values.map w).sum

theorem sum_alterEntries (w : α → Nat) {xs : List (String × α)} (h : Ascending xs) (n : String)
    (f : Option α → α) :
    ((alterEntries n f xs).map fun x => w x.2).sum + (look n xs).elim 0 w =
      (xs.map fun x => w x.2).sum + w (f (look n xs)) := by
  induction xs with
  | nil => simp [alterEntries, look]
  | cons x xs ih =>
    obtain ⟨m, u⟩ := x
    obtain ⟨hlt, hxs⟩ := List.pairwise_cons.mp h
    unfold alterEntries
    split
    · next hn =>
      have hnone : look n ((m, u) :: xs) = none := by
        refine look_eq_none_of_lt fun p hp => ?_
        rcases List.mem_cons.mp hp with rfl | hp
        · exact hn
        · exact String.lt_trans hn (hlt p hp)
      simp only [hnone, List.map_cons, List.sum_cons, Option.elim_none]
      omega
    · split
      · next hn =>
        subst hn
        simp only [look, if_true, List.map_cons, List.sum_cons, Option.elim_some]
        omega
      · next hn =>
        have hrest := ih hxs
        simp only [look, if_neg (Ne.symm hn), List.map_cons, List.sum_cons]
        omega

/-- Only the value under the name is exchanged. -/
theorem sum_alter (w : α → Nat) (m : NameMap α) (n : String) (f : Option α → α) :
    (m.alter n f).sum w + (m.get? n).elim 0 w = m.sum w + w (f (m.get? n)) := by
  unfold sum values
  rw [List.map_map, List.map_map]
  exact sum_alterEntries w m.ascending n f

end NameMap

namespace Catalog

variable {c : Catalog}

-- ---------------------------------------------------------------------------
-- Insertion
-- ---------------------------------------------------------------------------

/-- A kind that is inserted is found under its name, and nothing changes under others. -/
theorem get?_insert (c : Catalog) (k : Kind) (n : String) :
    (c.insert k).kinds.get? n = if k.name = n then some k else c.kinds.get? n := by
  unfold insert NameMap.insert
  split
  · next hn => rw [← hn, NameMap.get?_alter_self]
  · next hn => rw [NameMap.get?_alter_of_ne _ (Ne.symm hn)]

theorem ofList_concat (ks : List Kind) (k : Kind) : ofList (ks ++ [k]) = (ofList ks).insert k := by
  unfold ofList
  rw [List.foldl_append]
  rfl

-- ---------------------------------------------------------------------------
-- Kinds under their own names
-- ---------------------------------------------------------------------------

/-- Every kind stands under its own name. -/
def Named (c : Catalog) : Prop := ∀ n k, c.kinds.get? n = some k → k.name = n

theorem named_empty : empty.Named := by
  intro n k h
  cases h

theorem Named.insert (h : c.Named) (k : Kind) : (c.insert k).Named := by
  intro n k' hk
  rw [get?_insert] at hk
  split at hk
  · next hn =>
    cases hk
    exact hn
  · exact h n k' hk

theorem named_ofList (ks : List Kind) : (ofList ks).Named := by
  induction ks using List.reverseRecOn with
  | nil => exact named_empty
  | append_singleton ks k ih =>
    rw [ofList_concat]
    exact ih.insert k

/-- A kind is in the catalog if its name leads to it. -/
theorem Named.mem_toList_iff (h : c.Named) {k : Kind} :
    k ∈ c.toList ↔ c.kinds.get? k.name = some k := by
  unfold toList
  rw [NameMap.mem_values_iff]
  constructor
  · rintro ⟨n, hn⟩
    rw [h n k hn]
    exact hn
  · exact fun hk => ⟨k.name, hk⟩

/-- The kinds are listed in the order of their names. -/
theorem Named.names_toList (h : c.Named) : c.toList.map Kind.name = c.kinds.names := by
  unfold toList NameMap.values NameMap.names
  rw [List.map_map]
  refine List.map_congr_left ?_
  rintro ⟨n, k⟩ hk
  exact h n k (NameMap.get?_eq_some_iff.mpr hk)

theorem Named.pairwise_toList (h : c.Named) : c.toList.Pairwise fun a b => a.name < b.name := by
  rw [← List.pairwise_map, h.names_toList]
  exact c.kinds.pairwise_names

/-- No two kinds of a catalog have one name. -/
theorem Named.nodup_names (h : c.Named) : (c.toList.map Kind.name).Nodup := by
  rw [h.names_toList]
  exact c.kinds.nodup_names

/-- Of one name no kind is listed but the one that the name leads to. -/
theorem Named.filter_toList (h : c.Named) (n : String) :
    (c.toList.filter fun k => k.name = n) = (c.kinds.get? n).toList := by
  have hmem : ∀ k, k ∈ (c.toList.filter fun k => k.name = n) ↔ c.kinds.get? n = some k := by
    intro k
    rw [List.mem_filter, h.mem_toList_iff, decide_eq_true_eq]
    constructor
    · rintro ⟨hk, rfl⟩
      exact hk
    · intro hk
      obtain rfl := h n k hk
      exact ⟨hk, rfl⟩
  cases hn : c.kinds.get? n with
  | none =>
    rw [hn] at hmem
    refine List.eq_nil_iff_forall_not_mem.mpr fun k hk => ?_
    cases (hmem k).mp hk
  | some k =>
    have hnodup : (c.toList.filter fun k => k.name = n).Nodup := h.nodup_names.of_map.filter _
    have hperm : (c.toList.filter fun k => k.name = n).Perm [k] := by
      rw [List.perm_ext_iff_of_nodup hnodup (List.nodup_singleton k)]
      intro k'
      rw [hmem, hn, List.mem_singleton, Option.some.injEq, eq_comm]
    exact List.perm_singleton.mp hperm

end Catalog

end WatchGate
