import WatchGate.Proofs.ByteOrder
import WatchGate.Proofs.Catalog

/-!
# WatchGate — what stays in a catalog

A catalog comes about by kinds that are put into it, from a list at once or one by one
(`Catalog.Filled`). Of two kinds of one name the later one stays, wherever its name comes
in the order, so that a look-up finds the last kind of the name (`Catalog.get?_ofList`).
All else follows from two facts on catalogs, in whatever way they have come about: each
kind stands under its own name, and a catalog is determined by its look-ups.

Kinds are listed in the order of their names, which is that of the names' bytes.

Main results:

* `Catalog.get?_ofList` — under a name there is the last kind of this name.
* `Catalog.Filled.eq_ofList` — it makes no difference how the kinds are put in.
* `Catalog.last_stays` — what a catalog answers, and on what it depends.
-/

namespace WatchGate.Catalog

variable {c c' : Catalog} {k : Kind} {ks ks' : List Kind} {n : String}

-- ---------------------------------------------------------------------------
-- The last kind of a name
-- ---------------------------------------------------------------------------

/-- The last kind of a name in a list. -/
def last? (ks : List Kind) (n : String) : Option Kind :=
  (ks.filter fun k => k.name = n).getLast?

theorem last?_concat (ks : List Kind) (k : Kind) (n : String) :
    last? (ks ++ [k]) n = if k.name = n then some k else last? ks n := by
  unfold last?
  rw [List.filter_append]
  by_cases hn : k.name = n <;> simp [hn]

theorem isSome_last?_iff : (last? ks n).isSome = true ↔ ∃ k ∈ ks, k.name = n := by
  unfold last?
  rw [List.getLast?_isSome, Ne, List.filter_eq_nil_iff]
  simp

/-- Under a name there is the last kind of this name. -/
theorem get?_ofList (ks : List Kind) (n : String) : (ofList ks).kinds.get? n = last? ks n := by
  induction ks using List.reverseRecOn with
  | nil => rfl
  | append_singleton ks k ih => rw [ofList_concat, get?_insert, last?_concat, ih]

theorem ofList_eq_iff : ofList ks = ofList ks' ↔ ∀ n, last? ks n = last? ks' n := by
  constructor
  · intro h n
    rw [← get?_ofList, ← get?_ofList, h]
  · intro h
    have hkinds : (ofList ks).kinds = (ofList ks').kinds :=
      NameMap.eq_of_get? fun n => by rw [get?_ofList, get?_ofList, h]
    exact congrArg Catalog.mk hkinds

-- ---------------------------------------------------------------------------
-- Catalogs that are filled
-- ---------------------------------------------------------------------------

/-- How a catalog comes about, with the kinds that have been put into it in their order. -/
inductive Filled : Catalog → List Kind → Prop
  | empty : Filled empty []
  | collected (ks : List Kind) : Filled (ofList ks) ks
  | inserted {c : Catalog} {ks : List Kind} (h : Filled c ks) (k : Kind) :
    Filled (c.insert k) (ks ++ [k])

/-- It makes no difference how the kinds are put in. -/
theorem Filled.eq_ofList (h : Filled c ks) : c = ofList ks := by
  induction h with
  | empty => rfl
  | collected ks => rfl
  | inserted h k ih => rw [ih, ofList_concat]

theorem contains_ofList : (ofList ks).contains n = true ↔ ∃ k ∈ ks, k.name = n := by
  unfold contains
  rw [get?_ofList, isSome_last?_iff]

theorem size_ofList (ks : List Kind) : (ofList ks).size = (ks.map Kind.name).dedup.length := by
  refine NameMap.size_eq_dedup fun n => ?_
  rw [get?_ofList, isSome_last?_iff, List.mem_map]

theorem isEmpty_ofList : (ofList ks).isEmpty = true ↔ ks = [] := by
  have hsize : (ofList ks).isEmpty = true ↔ (ofList ks).size = 0 := by
    unfold isEmpty size NameMap.size
    rw [List.isEmpty_iff, List.length_eq_zero_iff]
  rw [hsize, size_ofList, List.length_eq_zero_iff, List.dedup_eq_nil, List.map_eq_nil_iff]

/-- What a catalog answers into which kinds have been put. -/
structure KeepsLast (c : Catalog) (ks : List Kind) : Prop where
  /-- a name leads to the last kind of this name, if there is one -/
  resolve : ∀ n, c.resolve n = (last? ks n).getD Kind.unknown
  contains : ∀ n, c.contains n = true ↔ ∃ k ∈ ks, k.name = n
  /-- of each name the last kind is listed and no other, and of other names none -/
  listed : ∀ n, (c.toList.filter fun k => k.name = n) = (last? ks n).toList
  /-- byte by byte the names ascend -/
  ascending : c.toList.Pairwise fun a b => Utf8.ofString a.name < Utf8.ofString b.name
  length : c.toList.length = c.size
  /-- there are as many kinds as names -/
  size : c.size = (ks.map Kind.name).dedup.length
  isEmpty : c.isEmpty = true ↔ ks = []

theorem keepsLast_ofList (ks : List Kind) : (ofList ks).KeepsLast ks where
  resolve n := by rw [Catalog.resolve, get?_ofList]
  contains n := contains_ofList
  listed n := by rw [(named_ofList ks).filter_toList, get?_ofList]
  ascending := (named_ofList ks).pairwise_toList.imp Utf8.ofString_lt_iff.mpr
  length := List.length_map _
  size := size_ofList ks
  isEmpty := isEmpty_ofList

/--
**The last kind of a name stays.** Whatever kinds have been put into a catalog from the
empty one on, at once or one by one: a name leads to the last kind of this name, or to
`Kind.unknown` if there was none, and this kind is listed once, among names that ascend in
their bytes. There are as many kinds as different names. And two catalogs are one and the
same, whatever they are asked or have put into them further on, exactly if every name had
the same last kind.
-/
theorem last_stays (c : Catalog) (ks : List Kind) (h : Filled c ks) :
    c.KeepsLast ks ∧
    ∀ c' ks', Filled c' ks' → (c = c' ↔ ∀ n, last? ks n = last? ks' n) := by
  obtain rfl := h.eq_ofList
  refine ⟨keepsLast_ofList ks, fun c' ks' h' => ?_⟩
  obtain rfl := h'.eq_ofList
  exact ofList_eq_iff

/-- A kind of pods, another of the same name, and one that comes before them. -/
def podsTwice : List Kind :=
  [⟨"Pod", "pods", "api/v1", true⟩, ⟨"Node", "nodes", "api/v1", false⟩,
    ⟨"Pod", "podlets", "apis/podlets/v1", true⟩]

/-- The third replaces the first, whether it is put in by itself or was there from the start. -/
theorem podsTwice_stays :
    let c := (ofList (podsTwice.take 2)).insert ⟨"Pod", "podlets", "apis/podlets/v1", true⟩
    Filled c podsTwice ∧ Filled (ofList (podsTwice.drop 1)) (podsTwice.drop 1) ∧
    (c.resolve "Pod").plural = "podlets" ∧ c.resolve "Widget" = Kind.unknown ∧ c.size = 2 ∧
    (c.toList.filter fun k => k.name = "Pod").length = 1 ∧ c = ofList (podsTwice.drop 1) := by
  intro c
  have hfilled : Filled c podsTwice := .inserted (.collected (podsTwice.take 2)) _
  have hlater : Filled (ofList (podsTwice.drop 1)) (podsTwice.drop 1) := .collected _
  obtain ⟨hkeeps, hsame⟩ := last_stays c podsTwice hfilled
  have hlast : ∀ n, last? podsTwice n = last? (podsTwice.drop 1) n := by
    intro n
    unfold last? podsTwice
    by_cases hpod : "Pod" = n <;> by_cases hnode : "Node" = n <;> simp [hpod, hnode]
  refine ⟨hfilled, hlater, ?_, (hkeeps.resolve "Widget").trans (by decide),
    hkeeps.size.trans (by decide), ?_, (hsame _ _ hlater).mpr hlast⟩
  · rw [hkeeps.resolve "Pod"]
    decide
  · rw [hkeeps.listed "Pod"]
    decide

end WatchGate.Catalog
