/-!
# WatchGate: counters of watch sessions

What aggregate watches have counted: sessions opened and open, dials by result,
and frames written to clients.
-/

namespace WatchGate.Multiwatch

/-- The counters. -/
structure Tally where
  sessions : Nat
  active : Nat
  dialed : Nat
  refused : Nat
  frames : Nat
  deriving DecidableEq, Repr

namespace Tally

/-- Nothing counted. -/
def zero : Tally := ⟨0, 0, 0, 0, 0⟩

instance : Inhabited Tally := ⟨zero⟩

/-- Counts a dial. -/
def dial (t : Tally) (ok : Bool) : Tally :=
  if ok then { t with dialed := t.dialed + 1 } else { t with refused := t.refused + 1 }

/-- Counts a session that opens. -/
def opened (t : Tally) : Tally := { t with sessions := t.sessions + 1, active := t.active + 1 }

/-- Counts a session that ends. -/
def closed (t : Tally) : Tally := { t with active := t.active - 1 }

/-- Counts a frame written to a client. -/
def relayed (t : Tally) : Tally := { t with frames := t.frames + 1 }

/-- The counts of two runs together. -/
def both (a b : Tally) : Tally :=
  ⟨a.sessions + b.sessions, a.active + b.active, a.dialed + b.dialed, a.refused + b.refused,
    a.frames + b.frames⟩

/-- The sample line of a counter that always appears. -/
def plain (name : String) (n : Nat) : String := name ++ " " ++ toString n

/-- The sample line of a dial counter, once it has counted. -/
def dials (scope result : String) (n : Nat) : List String :=
  if n = 0 then []
  else [scope ++ "upstream_dials_total\x7bresult=\"" ++ result ++ "\"\x7d " ++ toString n]

/-- The sample lines in order. -/
def lines (t : Tally) (scope : String) : List String :=
  [plain (scope ++ "frames_relayed_total") t.frames, plain (scope ++ "sessions_active") t.active,
    plain (scope ++ "sessions_total") t.sessions]
    ++ dials scope "failed" t.refused ++ dials scope "ok" t.dialed

end Tally

end WatchGate.Multiwatch
