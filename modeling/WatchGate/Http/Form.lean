import WatchGate.Http.Uri
import WatchGate.Text.Utf8

/-!
# WatchGate: form-encoded queries

A query is a list of pieces between ampersands; empty pieces say nothing. In a
piece the first equals sign parts name and value, a plus sign is a space, `%XX`
is a byte, and a percent sign that is not followed by two hexadecimal digits
stands for itself. The bytes of a name or value are then read as UTF-8, with
U+FFFD for each malformed part.
-/

namespace WatchGate.Http.Form

/-- A byte as the character of its code. -/
def asChar (b : UInt8) : Char := Char.ofNat b.toNat

/-- Undoes percent signs. -/
def percentDecode : Bytes → Bytes
  | [] => []
  | b :: x :: y :: rest =>
    if b = 37 then
      match Bytes.hexValue? (asChar x), Bytes.hexValue? (asChar y) with
      | some hi, some lo => UInt8.ofNat (16 * hi + lo) :: percentDecode rest
      | _, _ => b :: percentDecode (x :: y :: rest)
    else b :: percentDecode (x :: y :: rest)
  | b :: rest => b :: percentDecode rest

/-- A plus sign is a space. -/
def plusToSpace (bs : Bytes) : Bytes :=
  bs.map (fun b => if b = 43 then 32 else b)

/-- The text that the bytes of a name or value write. -/
def component (bs : Bytes) : String :=
  String.ofList (Utf8.decodeLossy (percentDecode (plusToSpace bs)))

/-- The name and value of a piece. -/
def pair (bs : Bytes) : String × String :=
  let (name, value) := Text.cutOnce 61 bs
  (component name, component value)

/-- The names and values of a query in order. -/
def pairs (bs : Bytes) : List (String × String) :=
  ((Text.pieces 38 bs).filter (fun p => !p.isEmpty)).map pair

end WatchGate.Http.Form

namespace WatchGate.Http.Uri

/-- The first value of a name in the query of a URI. -/
def param (u : Uri) (name : String) : Option String :=
  match u.query with
  | none => none
  | some q => ((Form.pairs (Utf8.ofString q)).find? (fun p => p.1 = name)).map (·.2)

end WatchGate.Http.Uri
