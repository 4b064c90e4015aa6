/-!
# WatchGate: text as lists of characters

Names, header values and queries are cut up character by character. The
functions here work on lists, so that each of them is a short recursion; those
that cut and join serve characters and bytes alike:

* `Text.isBlank` is the Unicode property White_Space, `Text.trim` drops blanks
  from both ends, `Text.stripBoth` drops one given character from both ends;
* `Text.pieces` cuts at a separator and `Text.glue` puts the pieces back;
  `glue_pieces` says nothing is lost, `pieces_ne_nil` that there is always a
  piece;
* `Text.cutOnce` cuts at the first separator only;
* `Text.eqIgnoringCase` compares with ASCII letters folded.
-/

namespace WatchGate.Text

/-- The characters of the Unicode property White_Space. -/
def isBlank (c : Char) : Bool :=
  let n := c.toNat
  (9 ≤ n && n ≤ 13) || n == 0x20 || n == 0x85 || n == 0xa0 || n == 0x1680 ||
    (0x2000 ≤ n && n ≤ 0x200a) || n == 0x2028 || n == 0x2029 || n == 0x202f ||
    n == 0x205f || n == 0x3000

/-- Drops the characters of a kind from both ends. -/
def stripBoth (p : Char → Bool) (cs : List Char) : List Char :=
  ((cs.dropWhile p).reverse.dropWhile p).reverse

/-- Drops blanks from both ends. -/
def trim (cs : List Char) : List Char :=
  stripBoth isBlank cs

variable {α : Type} [DecidableEq α]

/-- The pieces of a sequence between the occurrences of a separator. -/
def pieces (sep : α) : List α → List (List α)
  | [] => [[]]
  | c :: cs =>
    if c = sep then [] :: pieces sep cs
    else
      match pieces sep cs with
      | [] => [[c]]
      | p :: ps => (c :: p) :: ps

/-- Puts pieces together with a separator between neighbours. -/
def glue {α : Type} (sep : List α) : List (List α) → List α
  | [] => []
  | [p] => p
  | p :: q :: ps => p ++ sep ++ glue sep (q :: ps)

theorem pieces_ne_nil (sep : α) (cs : List α) : pieces sep cs ≠ [] := by
  cases cs with
  | nil => simp [pieces]
  | cons c cs =>
    unfold pieces
    split
    · simp
    · split <;> simp

/-- Cutting at a separator loses nothing. -/
theorem glue_pieces (sep : α) (cs : List α) : glue [sep] (pieces sep cs) = cs := by
  induction cs with
  | nil => rfl
  | cons c cs ih =>
    unfold pieces
    split
    · next h =>
      cases hp : pieces sep cs with
      | nil => exact absurd hp (pieces_ne_nil sep cs)
      | cons p ps => rw [hp] at ih; simp [glue, ih, h]
    · cases hp : pieces sep cs with
      | nil => exact absurd hp (pieces_ne_nil sep cs)
      | cons p ps =>
        rw [hp] at ih
        cases ps with
        | nil => simpa [glue] using ih
        | cons q qs => simpa [glue] using ih

/-- No piece holds the separator. -/
theorem sep_notMem_pieces (sep : α) (cs : List α) :
    ∀ p ∈ pieces sep cs, sep ∉ p := by
  induction cs with
  | nil => simp [pieces]
  | cons c cs ih =>
    unfold pieces
    split
    · intro p hp
      rcases List.mem_cons.1 hp with rfl | hp
      · simp
      · exact ih p hp
    · next hc =>
      split
      · intro p hp
        simp only [List.mem_singleton] at hp
        subst hp
        simpa using Ne.symm hc
      · next q qs hq =>
        intro p hp
        rcases List.mem_cons.1 hp with rfl | hp
        · have := ih q (by simp [hq])
          simp [Ne.symm hc, this]
        · exact ih p (by simp [hq, hp])

/-- Cuts a sequence at the first separator, which is dropped; without one the second half is empty. -/
def cutOnce (sep : α) (cs : List α) : List α × List α :=
  (cs.takeWhile (· ≠ sep), (cs.dropWhile (· ≠ sep)).drop 1)

/-- ASCII letters in lower case, all else as it is. -/
def lower (cs : List Char) : List Char :=
  cs.map Char.toLower

/-- Equality of texts in which the case of ASCII letters does not count. -/
def eqIgnoringCase (a b : List Char) : Bool :=
  lower a == lower b

/-- Drops a given beginning, if the text has it. -/
def dropStart? : List Char → List Char → Option (List Char)
  | [], cs => some cs
  | _ :: _, [] => none
  | a :: as, c :: cs => if a = c then dropStart? as cs else none

theorem dropStart?_eq_some_iff {s cs r : List Char} :
    dropStart? s cs = some r ↔ cs = s ++ r := by
  induction s generalizing cs with
  | nil => simp [dropStart?, eq_comm]
  | cons a as ih =>
    cases cs with
    | nil => simp [dropStart?]
    | cons c cs =>
      by_cases h : a = c
      · simp [dropStart?, h, ih]
      · simp [dropStart?, h, Ne.symm h]

end WatchGate.Text
