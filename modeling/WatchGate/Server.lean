import WatchGate.Gateway
import WatchGate.Http.Reception
import WatchGate.Network

/-!
# WatchGate: serving connections

Requests come over connections that are opened when they are first used and kept
until a request asks for their end, is refused or is to have a body. A server
that drains accepts no more connections and goes on serving those it has.
`Server.serve` answers requests in order; dials fail, whatever they are for.
-/

namespace WatchGate

open Http Multiwatch

/-- A request on a connection. -/
structure Delivery where
  connection : Nat
  /-- whether the server is told to drain first -/
  drain : Bool
  request : Request
  deriving DecidableEq, Repr

/-- What a client gets for a request. -/
inductive Receipt
  | response (r : Response)
  /-- the connection could not be made -/
  | refused
  /-- the connection had ended -/
  | ended
  deriving DecidableEq, Repr

/-- The connections of a server. -/
structure Server where
  opened : List Nat
  ended : List Nat
  draining : Bool
  deriving DecidableEq, Repr

namespace Server

/-- A server without connections. -/
def start : Server := ⟨[], [], false⟩

/-- What is sent in answer to a request. -/
def answer (r : Request) (h : Gateway.Handling) : Response := h.refused.1.answering r

/-- Whether a new connection is made. -/
def accepts (s : Server) (network : Network) : Bool :=
  network = .reachable && !s.draining

/-- Without a connection that has ended. -/
def close (s : Server) (connection : Nat) : Server := { s with ended := connection :: s.ended }

/-- Answers a request on a connection that is open. -/
def respond (s : Server) (g : Gateway) (d : Delivery) : Server × List Call × Receipt :=
  match d.request.receive with
  | .error e => (s.close d.connection, [], .response e.response)
  | .ok r =>
    let h := g.handle r
    (if r.endsConnection || r.awaitsBody then s.close d.connection else s, h.calls,
      .response (answer r h))

/-- Answers a request. -/
def deliver (s : Server) (network : Network) (g : Gateway) (d : Delivery) :
    Server × List Call × Receipt :=
  let s := if d.drain then { s with draining := true } else s
  if s.ended.contains d.connection then (s, [], .ended)
  else if s.opened.contains d.connection then s.respond g d
  else if s.accepts network then
    { s with opened := d.connection :: s.opened }.respond g d
  else (s, [], .refused)

/-- Answers requests in order: the server at the end, what was asked of others, and the answers. -/
def serve (s : Server) (network : Network) (g : Gateway) :
    List Delivery → Server × List Call × List Receipt
  | [] => (s, [], [])
  | d :: ds =>
    let (s, calls, answer) := s.deliver network g d
    let (s, moreCalls, answers) := serve s network g ds
    (s, calls ++ moreCalls, answer :: answers)

end Server

end WatchGate
