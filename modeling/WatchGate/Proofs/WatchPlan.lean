import Mathlib.Data.List.Induction
import WatchGate.Proofs.Catalog
import WatchGate.WatchPlan

/-!
# WatchGate — what a plan says about its grants

A `WatchPlan` is a fold: each grant that is admitted opens the entry of its
kind or adds a namespace to it. Here the fold is undone. The entry under a name
depends on the admitted grants of that name alone, and `entryOf` reads it off
them; the counter is the number of admitted grants, and those of them that name
a namespace are the namespaces of all entries together.

Main results:

* `get?_ofGrants` — the entry under a name, from the grants of that name.
* `namespaces_of_entryOf` and `kind_of_entryOf` — what an entry holds.
* `grants_ofGrants` and `sum_ofGrants` — the counter, and the namespaces of all
  entries.
-/

namespace WatchGate.WatchPlan

/-- Whether a grant counts for the entry under a name. -/
def about (n : String) (g : Grant) : Bool := admits g && g.kind.name == n

/-- The entry that the grants of one name give: the kind that the first one
brings, and the namespaces that have a name, in order. -/
def entryOf : List Grant → Option Watched
  | [] => none
  | g :: gs => some ⟨g.kind, ((g :: gs).map Grant.ns).filter (!·.isEmpty)⟩

-- ---------------------------------------------------------------------------
-- Entries
-- ---------------------------------------------------------------------------

theorem entryOf_eq_none_iff {gs : List Grant} : entryOf gs = none ↔ gs = [] := by
  cases gs <;> simp [entryOf]

theorem namespaces_of_entryOf {gs : List Grant} {w : Watched} (h : entryOf gs = some w) :
    w.namespaces = (gs.map Grant.ns).filter (!·.isEmpty) := by
  cases gs with
  | nil => cases h
  | cons g gs => cases h; rfl

theorem kind_of_entryOf {gs : List Grant} {w : Watched} (h : entryOf gs = some w) :
    ∃ g ∈ gs, w.kind = g.kind := by
  cases gs with
  | nil => cases h
  | cons g gs => cases h; exact ⟨g, List.mem_cons_self, rfl⟩

/-- One more grant extends the entry as `WatchPlan.add` does. -/
theorem entryOf_append (gs : List Grant) (g : Grant) :
    entryOf (gs ++ [g]) = some (extend g (entryOf gs)) := by
  cases gs with
  | nil => cases hg : g.ns.isEmpty <;> simp [entryOf, extend, hg]
  | cons g' gs =>
    simp only [entryOf, List.cons_append]
    rw [← List.cons_append, List.map_append, List.filter_append]
    cases hg : g.ns.isEmpty <;> simp [extend, hg]

-- ---------------------------------------------------------------------------
-- The fold
-- ---------------------------------------------------------------------------

theorem ofGrants_append (gs : List Grant) (g : Grant) :
    ofGrants (gs ++ [g]) = (ofGrants gs).add g := by
  unfold ofGrants
  rw [List.foldl_append]
  rfl

theorem add_of_admits {g : Grant} (h : admits g = true) (p : WatchPlan) :
    p.add g = ⟨p.entries.alter g.kind.name (extend g), p.grants + 1⟩ := by
  simp [add, h]

theorem add_of_not_admits {g : Grant} (h : admits g = false) (p : WatchPlan) : p.add g = p := by
  simp [add, h]

/-- The entry under a name is made of the grants that count for it. -/
theorem get?_ofGrants (gs : List Grant) (n : String) :
    (ofGrants gs).entries.get? n = entryOf (gs.filter (about n)) := by
  induction gs using List.reverseRecOn with
  | nil => rfl
  | append_singleton gs g ih =>
    rw [ofGrants_append, List.filter_append]
    cases ha : admits g with
    | false =>
      have hg : about n g = false := by simp [about, ha]
      rw [add_of_not_admits ha, ih]
      simp [hg]
    | true =>
      rw [add_of_admits ha]
      by_cases hn : g.kind.name = n
      · -- the grant extends this very entry
        have hg : about n g = true := by simp [about, ha, hn]
        have hone : [g].filter (about n) = [g] := by simp [hg]
        rw [hone, entryOf_append, ← ih, ← hn]
        exact NameMap.get?_alter_self _ _ _
      · -- it goes into another one, which the look-up passes by
        have hg : about n g = false := by simp [about, hn]
        have hother := NameMap.get?_alter_of_ne (ofGrants gs).entries (Ne.symm hn) (extend g)
        rw [hother, ih]
        simp [hg]

/-- Every admitted grant is counted, and no other. -/
theorem grants_ofGrants (gs : List Grant) : (ofGrants gs).grants = gs.countP admits := by
  induction gs using List.reverseRecOn with
  | nil => rfl
  | append_singleton gs g ih =>
    rw [ofGrants_append, List.countP_append]
    cases ha : admits g with
    | false => simp [add_of_not_admits ha, ih, ha]
    | true => simp [add_of_admits ha, ih, ha]

/-- The namespaces in an entry that took one more grant. -/
theorem length_extend (g : Grant) (present : Option Watched) :
    (extend g present).namespaces.length =
      present.elim 0 (·.namespaces.length) + if g.ns.isEmpty then 0 else 1 := by
  cases hg : g.ns.isEmpty <;> cases present <;> simp [extend, hg]

/-- The namespaces of all entries are the admitted grants that name one. -/
theorem sum_ofGrants (gs : List Grant) :
    (ofGrants gs).entries.sum (·.namespaces.length) =
      gs.countP fun g => admits g && !g.ns.isEmpty := by
  induction gs using List.reverseRecOn with
  | nil => rfl
  | append_singleton gs g ih =>
    rw [ofGrants_append, List.countP_append, ← ih]
    cases ha : admits g with
    | false => simp [add_of_not_admits ha, ha]
    | true =>
      -- one entry is exchanged for another that is longer by the grant's namespace, if it has one
      have hsum := NameMap.sum_alter (·.namespaces.length) (ofGrants gs).entries g.kind.name
        (extend g)
      rw [length_extend] at hsum
      rw [add_of_admits ha]
      cases hg : g.ns.isEmpty with
      | true =>
        simp only [hg, if_true] at hsum
        simp only [ha, hg, List.countP_singleton, Bool.not_true, Bool.and_false,
          Bool.false_eq_true, if_false]
        omega
      | false =>
        simp only [hg, Bool.false_eq_true, if_false] at hsum
        simp only [ha, hg, List.countP_singleton, Bool.not_false, Bool.and_true, if_true]
        omega

end WatchGate.WatchPlan
