/-!
# WatchGate: whether connections can be made

The gateway dials feeds, and clients and the cluster's API are reached over
connections. A `Network` says whether an attempt to connect gets through.
-/

namespace WatchGate

/-- What becomes of attempts to connect. -/
inductive Network
  /-- they reach the peer -/
  | reachable
  /-- each is refused at once -/
  | refusing
  deriving DecidableEq, Repr

end WatchGate
