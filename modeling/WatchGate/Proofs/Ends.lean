import Mathlib.Data.List.TakeWhile
import WatchGate.Text

/-!
# WatchGate — the two ends of a text

`Text.stripBoth` drops the characters of a kind from the front, turns the text around and
drops them once more. What it leaves can be said without the turning: the text is cut into
three, the outer parts hold nothing but such characters, and the middle has none at either
end. The outer parts need not be the only ones (of a text that is all slashes any cut will
do), but the middle is.

Main results:

* `Text.stripBoth_around` — whatever is put around a text is dropped.
* `Text.middle_iff` — there is one middle, and it is what is left of the text.
* `Text.stripBoth_stripBoth` — nothing more is dropped the second time.
-/

namespace WatchGate.Text

variable {p : Char → Bool} {cs core l r : List Char} {c : Char}

-- ---------------------------------------------------------------------------
-- What is dropped
-- ---------------------------------------------------------------------------

theorem dropWhile_reverse_append (hr : ∀ c ∈ r, p c = true) :
    ((cs ++ r).reverse).dropWhile p = cs.reverse.dropWhile p := by
  rw [List.reverse_append, List.dropWhile_append_of_pos]
  intro c hc
  exact hr c (List.mem_reverse.mp hc)

theorem stripBoth_append (hr : ∀ c ∈ r, p c = true) : stripBoth p (cs ++ r) = stripBoth p cs := by
  have hnil : r.dropWhile p = [] := List.dropWhile_eq_nil_iff.mpr hr
  unfold stripBoth
  rw [List.dropWhile_append]
  -- where everything is dropped from the front, nothing is left for the end
  cases hcs : cs.dropWhile p with
  | nil =>
    rw [List.isEmpty_nil, if_pos rfl, hnil]
  | cons d ds =>
    rw [List.isEmpty_cons, if_neg (by decide), dropWhile_reverse_append hr]

/-- Whatever characters of the kind there are around a text, they are dropped. -/
theorem stripBoth_around (hl : ∀ c ∈ l, p c = true) (hr : ∀ c ∈ r, p c = true) :
    stripBoth p (l ++ core ++ r) = stripBoth p core := by
  rw [stripBoth_append hr]
  unfold stripBoth
  rw [List.dropWhile_append_of_pos hl]

theorem stripBoth_eq_self (hhead : ∀ c, cs.head? = some c → p c = false)
    (hlast : ∀ c, cs.getLast? = some c → p c = false) : stripBoth p cs = cs := by
  have hdrop : ∀ ds : List Char, (∀ c, ds.head? = some c → p c = false) → ds.dropWhile p = ds := by
    intro ds hds
    cases ds with
    | nil => rfl
    | cons d ds => exact List.dropWhile_cons_of_neg (by simp [hds d rfl])
  have hrev : ∀ c, cs.reverse.head? = some c → p c = false := by
    intro c hc
    rw [List.head?_reverse] at hc
    exact hlast c hc
  unfold stripBoth
  rw [hdrop cs hhead, hdrop cs.reverse hrev, List.reverse_reverse]

-- ---------------------------------------------------------------------------
-- What is left
-- ---------------------------------------------------------------------------

/-- Nothing but characters of the kind is dropped. -/
theorem exists_eq_stripBoth (p : Char → Bool) (cs : List Char) : ∃ l r,
    cs = l ++ stripBoth p cs ++ r ∧ (∀ c ∈ l, p c = true) ∧ ∀ c ∈ r, p c = true := by
  have htake : ∀ ds : List Char, ∀ c ∈ ds.takeWhile p, p c = true := by
    intro ds
    exact List.all_eq_true.mp List.all_takeWhile
  have hsplit : ∀ ds : List Char, ds = (ds.reverse.dropWhile p).reverse ++
      (ds.reverse.takeWhile p).reverse := by
    intro ds
    rw [← List.reverse_append, List.takeWhile_append_dropWhile, List.reverse_reverse]
  refine ⟨cs.takeWhile p, ((cs.dropWhile p).reverse.takeWhile p).reverse, ?_, htake cs, ?_⟩
  · unfold stripBoth
    rw [List.append_assoc, ← hsplit, List.takeWhile_append_dropWhile]
  · intro c hc
    exact htake _ c (List.mem_reverse.mp hc)

theorem stripBoth_eq_nil_iff : stripBoth p cs = [] ↔ ∀ c ∈ cs, p c = true := by
  constructor
  · intro h
    obtain ⟨l, r, hcs, hl, hr⟩ := exists_eq_stripBoth p cs
    rw [h, List.append_nil] at hcs
    rw [hcs, List.forall_mem_append]
    exact ⟨hl, hr⟩
  · intro h
    rw [← List.nil_append cs, stripBoth_append h]
    rfl

theorem of_head?_dropWhile {ds : List Char} (h : (ds.dropWhile p).head? = some c) :
    p c = false := by
  have hhead := List.head?_dropWhile_not p ds
  rw [h] at hhead
  simpa using hhead

/-- What lies between two ends that hold characters of a kind, as far as these reach. -/
structure Middle (p : Char → Bool) (cs core : List Char) : Prop where
  cut : ∃ l r, cs = l ++ core ++ r ∧ (∀ c ∈ l, p c = true) ∧ ∀ c ∈ r, p c = true
  head : ∀ c, core.head? = some c → p c = false
  last : ∀ c, core.getLast? = some c → p c = false

theorem middle_stripBoth (p : Char → Bool) (cs : List Char) : Middle p cs (stripBoth p cs) := by
  constructor
  case cut => exact exists_eq_stripBoth p cs
  case last =>
    intro c hc
    unfold stripBoth at hc
    rw [List.getLast?_reverse] at hc
    exact of_head?_dropWhile hc
  case head =>
    intro c hc
    -- what is dropped from the end leaves the first character where it is, if there is one
    have hfront : cs.dropWhile p =
        stripBoth p cs ++ ((cs.dropWhile p).reverse.takeWhile p).reverse := by
      unfold stripBoth
      rw [← List.reverse_append, List.takeWhile_append_dropWhile, List.reverse_reverse]
    have hfirst : (cs.dropWhile p).head? = some c := by
      rw [hfront, List.head?_append, hc]
      rfl
    exact of_head?_dropWhile hfirst

theorem Middle.stripBoth_eq (h : Middle p cs core) : stripBoth p cs = core := by
  obtain ⟨l, r, hcs, hl, hr⟩ := h.cut
  rw [hcs, stripBoth_around hl hr, stripBoth_eq_self h.head h.last]

/-- A text has one middle. -/
theorem middle_iff : Middle p cs core ↔ core = stripBoth p cs := by
  constructor
  · exact fun h => h.stripBoth_eq.symm
  · rintro rfl
    exact middle_stripBoth p cs

theorem stripBoth_stripBoth (p : Char → Bool) (cs : List Char) :
    stripBoth p (stripBoth p cs) = stripBoth p cs :=
  stripBoth_eq_self (middle_stripBoth p cs).head (middle_stripBoth p cs).last

end WatchGate.Text
