import WatchGate.Http

/-!
# WatchGate: what a feed is told about the client

The headers that go with each dial are built from few of the client's: the first
origin, all offered sub-protocols, all cookies, and the chain of addresses that
the request came through, to which the client's own is added. Nothing else of
the request has any effect on them.
-/

namespace WatchGate.Multiwatch

open Http

/-- The chain of addresses: what the text values of the request list, and the client itself. -/
def forwardedFor (h : Headers) (client : Ip) : List Char :=
  Text.glue [',', ' '] (h.texts "x-forwarded-for" ++ [client.chars])

/-- Characters of ASCII as bytes. -/
def asciiBytes (cs : List Char) : Bytes :=
  cs.map (fun c => UInt8.ofNat c.toNat)

/-- The header that holds the chain; there is none if the chain may not be a value. -/
def hops (h : Headers) (client : Ip) : List Header :=
  let value := Utf8.encode (forwardedFor h client)
  if Header.isValue value then [⟨"x-forwarded-for", value⟩] else []

/-- The headers that go with each dial. -/
def forward (h : Headers) (client : Ip) (proto : Bytes) : Headers :=
  ⟨((h.get? "origin").toList.map (fun v => ⟨"origin", v⟩))
    ++ (h.all "sec-websocket-protocol").map (fun v => ⟨"sec-websocket-protocol", v⟩)
    ++ (h.all "cookie").map (fun v => ⟨"cookie", v⟩)
    ++ hops h client ++ [⟨"x-forwarded-proto", proto⟩]⟩

/-- Adds headers to those of a dial, from the client's request. -/
abbrev Director := Request → List Header

/-- Adds a bearer token. -/
def bearer (token : Bytes) : Director :=
  fun _ => [⟨"authorization", Bytes.ofAscii "Bearer " ++ token⟩]

end WatchGate.Multiwatch
