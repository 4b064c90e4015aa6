import WatchGate.Identity
import WatchGate.Probe

/-!
# WatchGate: policies

An authorizer given by rules. The first rule whose conditions all hold decides,
after its delay, and after thirty years at the latest; where none holds the
fallback decides at once.
-/

namespace WatchGate

/-- A rule. A condition that is missing holds. -/
structure Rule where
  verdict : Probe.Verdict
  delay : Nat
  verb : Option (List String)
  kind : Option (List String)
  group : Option (List String)
  resource : Option (List String)
  subresource : Option (List String)
  ns : Option (List String)
  name : Option (List String)
  user : Option (List String)
  /-- a group that the caller must be in -/
  member : Option String

/-- Rules in order, and what decides without them. -/
structure Policy where
  rules : List Rule
  fallback : Probe.Verdict

namespace Policy

/-- Whether a value is one of those asked for, if any are. -/
def admits (wanted : Option (List String)) (value : String) : Bool :=
  match wanted with
  | none => true
  | some vs => vs.contains value

/-- Whether all conditions of a rule hold. -/
def holds (r : Rule) (i : Identity) (q : Question) : Bool :=
  admits r.verb q.verb.word && admits r.kind q.kind.name && admits r.group q.kind.group
    && admits r.resource q.resource && admits r.subresource q.subresource && admits r.ns q.ns
    && admits r.name q.name && admits r.user i.user
    && (match r.member with
        | none => true
        | some g => i.groups.contains g)

/-- The longest time that a rule takes, in milliseconds: thirty years of 365 days. -/
def longestDelay : Nat := 30 * 365 * 24 * 60 * 60 * 1000

/-- What the policy says to a question of a caller. -/
def decide (p : Policy) (i : Identity) (q : Question) : Probe.Answer :=
  match p.rules.find? (fun r => holds r i q) with
  | some r => ⟨r.verdict, min r.delay longestDelay⟩
  | none => ⟨p.fallback, 0⟩

end Policy

end WatchGate
