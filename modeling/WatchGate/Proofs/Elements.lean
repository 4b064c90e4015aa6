import WatchGate.Proofs.Hops
import WatchGate.Proofs.Scheme

/-!
# WatchGate — lists in values

The value of a header may be a list with commas between its items, and the list may go
on in the next value of the same name. Where it is broken into values does not show in
the items, empty ones apart (`Text.filter_pieces_glue`), and the blanks around an item
are dropped, whatever they are (`Text.trim_blanks`).

Main results:

* `Text.trimmed_trim`, `Text.Trimmed.trim_eq` — what is left when blanks are dropped.
* `Text.lower_trim` — letters keep their case or lose it, and blanks are the same.
* `Text.filter_items_of_glue_eq` — values that read the same when joined list the same.
-/

namespace WatchGate

namespace Text

-- ---------------------------------------------------------------------------
-- Blanks around a text
-- ---------------------------------------------------------------------------

section Trim

variable {cs core l r : List Char} {c : Char}

/-- A text that has no blank at either end. -/
structure Trimmed (cs : List Char) : Prop where
  head : ∀ c, cs.head? = some c → isBlank c = false
  last : ∀ c, cs.getLast? = some c → isBlank c = false

/-- Whether a text is made of spaces and tabs. -/
def Spacing (cs : List Char) : Prop := ∀ c ∈ cs, c = ' ' ∨ c = '\t'

theorem Spacing.isBlank (h : Spacing cs) : ∀ c ∈ cs, isBlank c = true := by
  intro c hc
  rcases h c hc with rfl | rfl
  · decide
  · decide

theorem Spacing.isTextChar (h : Spacing cs) : ∀ c ∈ cs, Http.Header.isTextChar c = true := by
  intro c hc
  rcases h c hc with rfl | rfl
  · decide
  · decide

theorem Spacing.comma_not_mem (h : Spacing cs) : ',' ∉ cs := by
  intro hc
  exact absurd (h ',' hc) (by decide)

/-- Whatever blanks there are around a text, they are dropped. -/
theorem trim_blanks (hl : ∀ c ∈ l, isBlank c = true) (hr : ∀ c ∈ r, isBlank c = true) :
    trim (l ++ core ++ r) = trim core :=
  stripBoth_around hl hr

theorem mem_of_mem_trim (h : c ∈ trim cs) : c ∈ cs := by
  obtain ⟨l, r, hcs, -, -⟩ := exists_eq_stripBoth isBlank cs
  rw [hcs]
  exact List.mem_append_left _ (List.mem_append_right _ h)

theorem trim_eq_nil_iff : trim cs = [] ↔ ∀ c ∈ cs, isBlank c = true := stripBoth_eq_nil_iff

theorem trimmed_trim (cs : List Char) : Trimmed (trim cs) :=
  ⟨(middle_stripBoth isBlank cs).head, (middle_stripBoth isBlank cs).last⟩

theorem Trimmed.trim_eq (h : Trimmed cs) : trim cs = cs := stripBoth_eq_self h.head h.last

/-- The case of a letter does not make it a blank. -/
theorem isBlank_toLower (c : Char) : isBlank c.toLower = isBlank c := by
  rcases Nat.lt_or_ge c.toNat 0x80 with hc | hc
  · exact Http.char_ascii (P := fun c => isBlank c.toLower = isBlank c) (by decide) hc
  · rw [toLower_of_not_ascii hc]

theorem lower_trim (cs : List Char) : lower (trim cs) = trim (lower cs) := by
  have hblank : isBlank ∘ Char.toLower = isBlank := funext isBlank_toLower
  have hdrop : ∀ ds : List Char,
      (ds.map Char.toLower).dropWhile isBlank = (ds.dropWhile isBlank).map Char.toLower := by
    intro ds
    rw [List.dropWhile_map, hblank]
  unfold lower trim stripBoth
  rw [hdrop, ← List.map_reverse, hdrop, List.map_reverse]

end Trim

-- ---------------------------------------------------------------------------
-- Lists that are broken into values
-- ---------------------------------------------------------------------------

section Lists

variable {α : Type} [DecidableEq α] {sep : α} {ps qs : List (List α)} {q : List α → Bool}

theorem pieces_glue_eq_flatMap (hne : ps ≠ []) :
    pieces sep (glue [sep] ps) = ps.flatMap (pieces sep) := by
  induction ps with
  | nil => exact absurd rfl hne
  | cons p ps ih =>
    cases ps with
    | nil => simp [glue]
    | cons q qs =>
      have hrest := ih (List.cons_ne_nil q qs)
      have hglue : glue [sep] (p :: q :: qs) = p ++ sep :: glue [sep] (q :: qs) :=
        List.append_assoc ..
      rw [hglue, pieces_append, hrest]
      rfl

/-- Joined values list what each of them lists. Without any value there is an empty item. -/
theorem filter_pieces_glue (hq : q [] = false) :
    (pieces sep (glue [sep] ps)).filter q = (ps.flatMap (pieces sep)).filter q := by
  cases ps with
  | nil =>
    show [[]].filter q = []
    rw [List.filter_cons_of_neg (by simp [hq]), List.filter_nil]
  | cons p ps => rw [pieces_glue_eq_flatMap (List.cons_ne_nil p ps)]

/-- Values that read the same when joined list the same. -/
theorem filter_items_of_glue_eq (hq : q [] = false) (h : glue [sep] ps = glue [sep] qs) :
    (ps.flatMap (pieces sep)).filter q = (qs.flatMap (pieces sep)).filter q := by
  rw [← filter_pieces_glue hq, ← filter_pieces_glue hq, h]

/-- Items that hold no separator are listed one by one. -/
theorem filter_pieces_glue_self (hq : q [] = false) (h : ∀ p ∈ ps, sep ∉ p) :
    (pieces sep (glue [sep] ps)).filter q = ps.filter q := by
  have hself : ps.flatMap (pieces sep) = ps := by
    calc ps.flatMap (pieces sep) = ps.flatMap fun p => [p] :=
          List.flatMap_congr fun p hp => pieces_of_not_mem (h p hp)
      _ = ps := List.flatMap_singleton' ps
  rw [filter_pieces_glue hq, hself]

end Lists

end Text

end WatchGate
