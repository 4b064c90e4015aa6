import WatchGate.Http.Address
import WatchGate.Http.Form
import WatchGate.Http.Header

/-!
# WatchGate: requests and responses

A request keeps its method as written, since methods are told apart by case.
`Request.make` checks the parts of a request in order: method, URI, headers.
Responses of the gateway are short texts, or a JSON document.
-/

namespace WatchGate.Http

/-- What is wrong with the parts of a request. -/
inductive Malformed
  | method
  | uri (e : UriError)
  | headerName
  | headerValue
  deriving DecidableEq, Repr

namespace Malformed

/-- The text of an error. -/
def message : Malformed → String
  | .method => "invalid HTTP method"
  | .uri e => e.message
  | .headerName => "invalid HTTP header name"
  | .headerValue => "failed to parse header value"

end Malformed

/-- A request, with the address that it came from. -/
structure Request where
  method : String
  uri : Uri
  headers : Headers
  client : Ip
  deriving DecidableEq, Repr

/-- A response. -/
structure Response where
  status : Nat
  headers : Headers
  body : Bytes
  deriving DecidableEq, Repr

namespace Header

/-- The name that bytes write, or an error. -/
def nameOf (bs : Bytes) : Except Malformed String :=
  match name? bs with
  | some n => .ok n
  | none => .error .headerName

/-- The value that bytes write, or an error. -/
def valueOf (bs : Bytes) : Except Malformed Bytes :=
  if isValue bs then .ok bs else .error .headerValue

/-- The header of a name and a value. -/
def make (name value : Bytes) : Except Malformed Header := do
  let n ← nameOf name
  let v ← valueOf value
  pure ⟨n, v⟩

end Header

namespace Request

/-- The request of a method, a URI and headers. -/
def make (method uri : String) (headers : List (Bytes × Bytes)) (client : Ip) :
    Except Malformed Request := do
  if !Header.isToken (Utf8.ofString method) then .error .method
  let u ←
    match Uri.parse uri with
    | .ok u => .ok u
    | .error e => .error (.uri e)
  let hs ← headers.mapM (fun h => Header.make h.1 h.2)
  pure ⟨method, u, ⟨hs⟩, client⟩

/-- A value as it is received over a connection, without blanks around it. -/
def received (v : Bytes) : Bytes :=
  let isBlank : UInt8 → Bool := fun b => b = 0x20 || b = 9
  ((v.dropWhile isBlank).reverse.dropWhile isBlank).reverse

/-- A request as it is received over a connection. -/
def overConnection (r : Request) : Request :=
  { r with headers := ⟨r.headers.toList.map (fun h => { h with value := received h.value })⟩ }

end Request

namespace Response

/-- A response of plain text. -/
def text (status : Nat) (body : String) : Response :=
  ⟨status, ⟨[⟨"content-type", Bytes.ofAscii "text/plain; charset=utf-8"⟩]⟩, Utf8.ofString body⟩

/-- A response that holds a JSON document. -/
def json (body : String) : Response :=
  ⟨200, ⟨[⟨"content-type", Bytes.ofAscii "application/json"⟩]⟩, Utf8.ofString body⟩

/-- What is said of any failure whose cause is not shown. -/
def internalError : Response := text 500 "Internal Server Error"

/-- With the length of its body among its headers, as it is sent over a connection. -/
def measured (r : Response) : Response :=
  { r with headers := r.headers.set "content-length" (Bytes.ofAscii (toString r.body.length)) }

/-- As it is sent over a connection in answer to a method; `HEAD` asks for no body. -/
def sent (r : Response) (method : String) : Response :=
  if method = "HEAD" then { r.measured with body := [] } else r.measured

end Response

end WatchGate.Http
