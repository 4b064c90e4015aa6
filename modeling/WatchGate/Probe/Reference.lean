import WatchGate.Probe

/-!
# WatchGate: probing one question after the other

The sequential account of a run: each question is put once, and a denial for
the whole cluster is followed by the question for each namespace. No limit on
concurrency is mentioned here, and every schedule of `Probe.Machine` asks and
grants the same up to order.
-/

namespace WatchGate.Probe.Setting

/-- The questions that one root question puts. -/
def asked (s : Setting) (q : Question) : List Question :=
  match s.outcome q with
  | .denied => q :: s.children q
  | _ => [q]

/-- The grant of a question on its own, without its namespaces. -/
def ownGrants (s : Setting) (q : Question) : List Grant :=
  match s.outcome q with
  | .allowed => [q.grant]
  | _ => []

/-- The grants of one root question. -/
def granted (s : Setting) (q : Question) : List Grant :=
  match s.outcome q with
  | .denied => (s.children q).flatMap s.ownGrants
  | _ => s.ownGrants q

/-- The questions that root questions put. -/
def allAsked (s : Setting) (qs : List Question) : List Question := qs.flatMap s.asked

/-- The grants of root questions. -/
def allGranted (s : Setting) (qs : List Question) : List Grant := qs.flatMap s.granted

end WatchGate.Probe.Setting
