import WatchGate.Bytes
import WatchGate.Text

/-!
# WatchGate: HTTP headers

A header is a name in lower case and a value of bytes. `Headers` keeps headers
in the order in which they were appended, so the values of one name keep their
order. A value is text only if each of its bytes is a visible ASCII character, a
space or a tab; bytes beyond ASCII are legal in a value that is no text.
-/

namespace WatchGate.Http

/-- A header. -/
structure Header where
  /-- in lower case -/
  name : String
  value : Bytes
  deriving DecidableEq, Repr

namespace Header

/-- The marks that a token may hold besides letters and digits. -/
def tokenMarks : List Char :=
  ['!', '#', '$', '%', '&', '\x27', '*', '+', '-', '.', '^', '_', '\x60', '|', '~']

/-- Whether a byte may stand in a token. -/
def isTokenByte (b : UInt8) : Bool :=
  let c := Char.ofNat b.toNat
  b.toNat < 0x80 && (c.isAlphanum || tokenMarks.contains c)

/-- Whether bytes are a token: a method or the name of a header. -/
def isToken (bs : Bytes) : Bool :=
  !bs.isEmpty && bs.all isTokenByte

/-- The most bytes of a name. -/
def maxNameBytes : Nat := 0xffff

/-- The name that bytes write, in lower case. -/
def name? (bs : Bytes) : Option String :=
  if isToken bs && bs.length ≤ maxNameBytes then
    some (String.ofList (bs.map (fun b => (Char.ofNat b.toNat).toLower)))
  else none

/-- Whether bytes may be a value: no controls but the tab. -/
def isValue (bs : Bytes) : Bool :=
  bs.all (fun b => (0x20 ≤ b.toNat && b.toNat ≠ 0x7f) || b.toNat = 9)

/-- Whether a byte may stand in a value that is text. -/
def isTextByte (b : UInt8) : Bool :=
  (0x20 ≤ b.toNat && b.toNat < 0x7f) || b.toNat = 9

/-- A byte of a value between quotation marks. -/
def quoteByte (b : UInt8) : List Char :=
  if b.toNat = 0x22 then ['\\', '\x22']
  else if isTextByte b then [Char.ofNat b.toNat]
  else ['\\', 'x'] ++ Bytes.hexDigits b.toNat

/-- A value between quotation marks. A backslash stands for itself. -/
def quote (bs : Bytes) : List Char :=
  '\x22' :: bs.flatMap quoteByte ++ ['\x22']

/-- The text of a value, if it is text. -/
def text? (bs : Bytes) : Option (List Char) :=
  if bs.all isTextByte then some (bs.map (fun b => Char.ofNat b.toNat)) else none

end Header

/-- Headers in the order in which they were appended. -/
structure Headers where
  toList : List Header
  deriving DecidableEq, Repr

namespace Headers

/-- No headers. -/
def empty : Headers := ⟨[]⟩

instance : Inhabited Headers := ⟨empty⟩

/-- Appends a header behind all others. -/
def append (h : Headers) (name : String) (value : Bytes) : Headers :=
  ⟨h.toList ++ [⟨name, value⟩]⟩

/-- Appends headers in order. -/
def appendAll (h : Headers) (more : List Header) : Headers :=
  ⟨h.toList ++ more⟩

/-- The values of a name in order. -/
def all (h : Headers) (name : String) : List Bytes :=
  (h.toList.filter (fun x => x.name = name)).map (·.value)

/-- The first value of a name. -/
def get? (h : Headers) (name : String) : Option Bytes :=
  (h.all name).head?

/-- Without the values of a name. -/
def erase (h : Headers) (name : String) : Headers :=
  ⟨h.toList.filter (fun x => x.name ≠ name)⟩

/-- With one value of a name, in place of all others. -/
def set (h : Headers) (name : String) (value : Bytes) : Headers :=
  (h.erase name).append name value

/-- The texts among the values of a name. -/
def texts (h : Headers) (name : String) : List (List Char) :=
  (h.all name).filterMap Header.text?

/-- The headers by name; the values of one name keep their order. -/
def sorted (h : Headers) : List Header :=
  h.toList.mergeSort (fun a b => !decide (b.name < a.name))

@[simp] theorem all_empty (name : String) : empty.all name = [] := rfl

@[simp] theorem all_append_self (h : Headers) (name : String) (value : Bytes) :
    (h.append name value).all name = h.all name ++ [value] := by
  simp [all, append, List.filter_append]

theorem all_append_of_ne (h : Headers) {name other : String} (hn : name ≠ other) (value : Bytes) :
    (h.append name value).all other = h.all other := by
  simp [all, append, List.filter_append, hn]

@[simp] theorem all_erase_self (h : Headers) (name : String) : (h.erase name).all name = [] := by
  simp [all, erase, List.filter_filter]

theorem all_erase_of_ne (h : Headers) {name other : String} (hn : name ≠ other) :
    (h.erase name).all other = h.all other := by
  unfold all erase
  congr 1
  rw [List.filter_filter]
  refine List.filter_congr (fun x _ => ?_)
  by_cases hx : x.name = other
  · simp [hx, Ne.symm hn]
  · simp [hx]

@[simp] theorem all_set_self (h : Headers) (name : String) (value : Bytes) :
    (h.set name value).all name = [value] := by
  simp [set]

theorem all_set_of_ne (h : Headers) {name other : String} (hn : name ≠ other) (value : Bytes) :
    (h.set name value).all other = h.all other := by
  rw [set, all_append_of_ne _ hn, all_erase_of_ne _ hn]

theorem all_of_append (xs ys : List Header) (name : String) :
    Headers.all ⟨xs ++ ys⟩ name = Headers.all ⟨xs⟩ name ++ Headers.all ⟨ys⟩ name := by
  simp [Headers.all]

/-- A block of headers of one name has its values under this name. -/
theorem all_of_block (values : List Bytes) (name other : String) :
    Headers.all ⟨values.map fun v => ⟨name, v⟩⟩ other = if name = other then values else [] := by
  unfold Headers.all
  split
  · next h => simp [List.filter_map, Function.comp_def, h]
  · next h => simp [List.filter_map, Function.comp_def, h]

theorem all_of_single (name : String) (value : Bytes) (other : String) :
    Headers.all ⟨[⟨name, value⟩]⟩ other = if name = other then [value] else [] :=
  all_of_block [value] name other

end Headers

end WatchGate.Http
