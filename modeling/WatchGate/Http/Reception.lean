import WatchGate.Http

/-!
# WatchGate: receiving requests over a connection

A request that comes over a connection is looked at before it is handled. Its
head must not be too long, and what its headers say of the length of its body
must hold together: a length is a row of digits, and the same each time it is
given; a transfer coding in front of it takes its place, and ends in chunks.
`Request.receive` refuses any other request, and drops the blanks around values.

A client may ask for the end of the connection behind the answer. The answer
then says so too, and so does every refusal. Nobody reads a body, so one that is
to follow ends the connection without a word.
-/

namespace WatchGate.Http

/-- Why a request is refused before it is handled. -/
inductive Refusal
  | malformed
  | tooLarge
  deriving DecidableEq, Repr

namespace Response

/-- With the announcement that the connection ends, if it does. -/
def announcing (x : Response) (ends : Bool) : Response :=
  if ends then { x with headers := x.headers.set "connection" (Bytes.ofAscii "close") } else x

end Response

namespace Refusal

/-- The status of a refusal. -/
def status : Refusal → Nat
  | .malformed => 400
  | .tooLarge => 431

/-- The answer to a request that is refused. The connection ends behind it. -/
def response (e : Refusal) : Response :=
  (Response.measured ⟨e.status, .empty, []⟩).announcing true

end Refusal

/-- What the headers read so far say of the body. -/
structure Framing where
  length : Option Nat
  /-- whether the last transfer coding is chunked, if there is one -/
  chunked : Option Bool
  deriving DecidableEq, Repr

namespace Framing

/-- Before the first header. -/
def unknown : Framing := ⟨none, none⟩

/-- The greatest length of a body; the two greatest numbers of 64 bits are none. -/
def maxLength : Nat := 0xfffffffffffffffd

/-- The number that a value writes in digits. -/
def length? (v : Bytes) : Option Nat :=
  match Text.valueOf? (v.map (fun b => Char.ofNat b.toNat)) with
  | some n => if n < Text.word64 then some n else none
  | none => none

/-- Whether the last item of a value is the chunked coding. -/
def endsChunked (v : Bytes) : Bool :=
  ((Header.text? v).bind (fun cs => (Text.pieces ',' cs).getLast?)).any
    (fun item => Text.eqIgnoringCase (Text.trim item) "chunked".toList)

/-- Takes a length into account. -/
def seeLength (f : Framing) (v : Bytes) : Except Refusal Framing :=
  match length? v, f.length with
  | none, _ => .error .malformed
  | some n, some m => if m = n then .ok f else .error .malformed
  | some n, none => if n ≤ maxLength then .ok { f with length := some n } else .error .tooLarge

/-- Takes a header into account. -/
def see (f : Framing) (h : Header) : Except Refusal Framing :=
  if h.name = "transfer-encoding" then .ok { f with chunked := some (endsChunked h.value) }
  else if h.name = "content-length" ∧ f.chunked = none then f.seeLength h.value
  else .ok f

/-- What headers say of a body, if it holds together. -/
def ofHeaders (h : Headers) : Except Refusal Framing :=
  match h.toList.foldlM see unknown with
  | .error e => .error e
  | .ok f => if f.chunked = some false then .error .malformed else .ok f

/-- Whether a body is to follow. -/
def awaitsBody (f : Framing) : Bool :=
  f.chunked == some true || f.length.any (fun n => 0 < n)

end Framing

namespace Request

/-- The most headers of a request. -/
def maxHeaders : Nat := 100

/-- The room for a head at first, in bytes. -/
def firstRoom : Nat := 8192

/-- The most bytes of a request's head. The room for a head is made larger by twice as much each
time, five times. -/
def maxHeadBytes : Nat := firstRoom * (1 + 2 + 4 + 8 + 16 + 32)

/-- How many bytes the head of a request takes: its line, a line for each header with all its blanks,
and an empty one. -/
def headBytes (r : Request) : Nat :=
  r.headers.toList.foldr
    (fun h n => h.name.utf8ByteSize + h.value.length + 4 + n)
    (r.method.utf8ByteSize + r.uri.render.utf8ByteSize + 14)

/-- Whether a request asks for the end of its connection behind the answer. -/
def endsConnection (r : Request) : Bool :=
  (r.headers.texts "connection").any
    (fun cs => (Text.pieces ',' cs).any
      (fun item => Text.eqIgnoringCase (Text.trim item) "close".toList))

/-- Whether a body is to follow a request. -/
def awaitsBody (r : Request) : Bool :=
  match Framing.ofHeaders r.headers with
  | .ok f => f.awaitsBody
  | .error _ => false

/-- A request as it is received over a connection, unless it is refused. -/
def receive (r : Request) : Except Refusal Request :=
  let s := r.overConnection
  if maxHeaders < s.headers.toList.length ∨ maxHeadBytes < r.headBytes then .error .tooLarge
  else (Framing.ofHeaders s.headers).map (fun _ => s)

/-- What is received has no more headers than a request may have. -/
theorem length_le_of_receive {r s : Request} (h : r.receive = .ok s) :
    s.headers.toList.length ≤ maxHeaders := by
  unfold receive at h
  dsimp only at h
  split at h
  · simp at h
  · next hn =>
    cases hf : Framing.ofHeaders r.overConnection.headers with
    | error e => simp [hf, Except.map] at h
    | ok f =>
      simp only [hf, Except.map, Except.ok.injEq] at h
      subst h
      omega

end Request

namespace Response

/-- As it is sent over a connection in answer to a request. -/
def answering (x : Response) (r : Request) : Response :=
  (x.sent r.method).announcing r.endsConnection

end Response

end WatchGate.Http
