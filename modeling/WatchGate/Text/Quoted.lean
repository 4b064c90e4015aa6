import WatchGate.Bytes
import WatchGate.Text
import WatchGate.Text.Printable

/-!
# WatchGate: quoted text

A text between quotation marks in which a quotation mark, a backslash and what
is not printable are escaped, so that the text ends where its quotation mark
stands and no line is broken by it: `quoteChar_eq_self_iff` says which characters
stand as they are. `Text.unmarked` drops the quotation marks at both ends of a
text.
-/

namespace WatchGate.Text

/-- A character inside quotation marks. -/
def quoteChar (c : Char) : List Char :=
  if c = '\x22' then ['\\', '\x22']
  else if c = '\\' then ['\\', '\\']
  else if c = '\t' then ['\\', 't']
  else if c = '\n' then ['\\', 'n']
  else if c = '\r' then ['\\', 'r']
  else if c.toNat = 0 then ['\\', '0']
  else if isPrintable c then [c]
  else ['\\', 'u', '\x7b'] ++ Bytes.hexDigits c.toNat ++ ['\x7d']

/-- A text between quotation marks. -/
def quote (cs : List Char) : List Char :=
  '\x22' :: cs.flatMap quoteChar ++ ['\x22']

/-- Drops the quotation marks at both ends, however many there are. -/
def unmarked (cs : List Char) : List Char :=
  stripBoth (· == '\x22') cs

/-! ## What stands as it is -/

/-- A character stands as it is if it is printable and no mark of quoting. -/
theorem quoteChar_eq_self_iff (c : Char) :
    quoteChar c = [c] ↔ isPrintable c ∧ c ≠ '\x22' ∧ c ≠ '\\' := by
  have ht : isPrintable '\t' = false := by decide
  have hn : isPrintable '\n' = false := by decide
  have hr : isPrintable '\r' = false := by decide
  unfold quoteChar
  split
  · next h => simp [h]
  split
  · next h => simp [h]
  split
  · next h => simp [h, ht]
  split
  · next h => simp [h, hn]
  split
  · next h => simp [h, hr]
  split
  · next h => simp [isPrintable, h]
  split
  · next hq hb _ _ _ _ hp => simp [hp, hq, hb]
  · next hp => simp [hp]

/-- A text of which each character stands as it is stands between its quotation marks as it is. -/
theorem quote_eq_of_printable {cs : List Char}
    (h : ∀ c ∈ cs, isPrintable c ∧ c ≠ '\x22' ∧ c ≠ '\\') :
    quote cs = '\x22' :: cs ++ ['\x22'] := by
  have hs : cs.flatMap quoteChar = cs := by
    induction cs with
    | nil => rfl
    | cons c cs ih =>
      rw [List.flatMap_cons, (quoteChar_eq_self_iff c).2 (h c List.mem_cons_self),
        ih (fun d hd => h d (List.mem_cons_of_mem c hd)), List.singleton_append]
  rw [quote, hs]

end WatchGate.Text
