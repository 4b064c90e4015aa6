import WatchGate.Proofs.Rights

/-!
# WatchGate — what a summary of rights depends on

Grants are taken into account one by one, as they come. Each of them counts for the
pair of its verb and its subresource, and a summary only ever gains: `Rights.both` puts
two summaries together, and to record a grant is to put the grant's own summary to what
is there (`record_eq_both`). So neither the order nor a repetition can matter, and of
a list of grants nothing is left but which pairs are among them
(`ofGrants_eq_giving`).

Five pairs are reported on. A grant for any other pair, such as one to watch, or one to
update a subresource, has a summary with nothing in it.

Main results:

* `ofGrants_eq_giving` — a summary is read off the set of pairs.
* `ofGrants_append` — the summary of two lists is both summaries together.
* `summary_of_pairs` — what each right depends on, and what no right depends on.
-/

namespace WatchGate

/-- What a grant counts for. -/
def Grant.pair (g : Grant) : Verb × String := (g.verb, g.subresource)

namespace Rights

variable {r : Rights} {g : Grant} {gs hs : List Grant}

-- ---------------------------------------------------------------------------
-- Summaries together
-- ---------------------------------------------------------------------------

/-- Two summaries together: a right that is in either of them. -/
def both (a b : Rights) : Rights where
  get := a.get || b.get
  put := a.put || b.put
  delete := a.delete || b.delete
  logs := a.logs || b.logs
  exec := a.exec || b.exec

theorem both_nothing (r : Rights) : r.both nothing = r := by
  simp [both, nothing]

theorem both_self (r : Rights) : r.both r = r := by
  simp [both]

theorem both_right_comm (a b c : Rights) : (a.both b).both c = (a.both c).both b := by
  simp [both, Bool.or_right_comm]

theorem both_assoc (a b c : Rights) : (a.both b).both c = a.both (b.both c) := by
  simp [both, Bool.or_assoc]

-- ---------------------------------------------------------------------------
-- Summaries of pairs
-- ---------------------------------------------------------------------------

/-- The summary of a set of pairs. -/
def giving (among : Verb × String → Bool) : Rights where
  get := among (.get, "")
  put := among (.update, "")
  delete := among (.delete, "")
  logs := among (.get, "log")
  exec := among (.get, "exec")

/-- The pairs that are reported on. -/
def reported : List (Verb × String) :=
  [(.get, ""), (.update, ""), (.delete, ""), (.get, "log"), (.get, "exec")]

theorem any_isFor (gs : List Grant) (v : Verb) (sub : String) :
    gs.any (Grant.isFor v sub) = decide ((v, sub) ∈ gs.map Grant.pair) := by
  rw [Bool.eq_iff_iff]
  simp [Grant.isFor, Grant.pair]

/-- A summary is read off the set of pairs that grants count for. -/
theorem ofGrants_eq_giving (gs : List Grant) :
    ofGrants gs = giving fun x => decide (x ∈ gs.map Grant.pair) := by
  rw [ofGrants_eq]
  simp only [any_isFor]
  rfl

theorem ofGrants_append (gs hs : List Grant) :
    ofGrants (gs ++ hs) = (ofGrants gs).both (ofGrants hs) := by
  simp only [ofGrants_eq, both, List.any_append]

/-- To record a grant is to put its own summary to what is there. -/
theorem record_eq_both (r : Rights) (g : Grant) : r.record g = r.both (ofGrants [g]) := by
  rw [record_eq, ofGrants_eq]
  simp [both]

/-- Two lists of grants for the same pairs have one summary. -/
theorem ofGrants_of_pairs (h : ∀ x, x ∈ gs.map Grant.pair ↔ x ∈ hs.map Grant.pair) :
    ofGrants gs = ofGrants hs := by
  rw [ofGrants_eq_giving, ofGrants_eq_giving]
  simp only [h]

/-- Nothing comes of a grant exactly if its pair is none of the five. -/
theorem ofGrants_single_eq_nothing_iff : ofGrants [g] = nothing ↔ g.pair ∉ reported := by
  simp [ofGrants_eq_giving, giving, nothing, reported, eq_comm]

/-- A grant changes no summary exactly if nothing comes of it. -/
theorem record_eq_self_iff : (∀ r : Rights, r.record g = r) ↔ g.pair ∉ reported := by
  rw [← ofGrants_single_eq_nothing_iff]
  constructor
  · intro h
    exact h nothing
  · intro h r
    rw [record_eq_both, h, both_nothing]

theorem record_record_self (r : Rights) (g : Grant) : (r.record g).record g = r.record g := by
  simp only [record_eq_both]
  rw [both_assoc, both_self]

theorem record_right_comm (r : Rights) (g h : Grant) :
    (r.record g).record h = (r.record h).record g := by
  simp only [record_eq_both]
  exact both_right_comm _ _ _

theorem ofGrants_insert (h : g.pair ∉ reported) (gs hs : List Grant) :
    ofGrants (gs ++ g :: hs) = ofGrants (gs ++ hs) := by
  have hnothing : ofGrants [g] = nothing := ofGrants_single_eq_nothing_iff.mpr h
  calc ofGrants (gs ++ g :: hs)
      = ((ofGrants gs).both (ofGrants [g])).both (ofGrants hs) := by
        rw [← ofGrants_append, ← ofGrants_append, List.append_assoc, List.singleton_append]
    _ = (ofGrants gs).both (ofGrants hs) := by rw [hnothing, both_nothing]
    _ = ofGrants (gs ++ hs) := (ofGrants_append gs hs).symm

/-- A right is in a summary if one of the grants is for its pair. -/
theorem any_isFor_eq_true_iff (gs : List Grant) (v : Verb) (sub : String) :
    gs.any (Grant.isFor v sub) = true ↔ ∃ g ∈ gs, g.verb = v ∧ g.subresource = sub := by
  simp [Grant.isFor]

-- ---------------------------------------------------------------------------
-- What a summary depends on
-- ---------------------------------------------------------------------------

/--
**A summary of rights depends on the set of pairs that were granted.** For all lists of
grants: each right is there exactly if a grant is for its verb on its subresource, and
a grant changes nothing, whatever is there already, exactly if it is for none of the
five pairs. Lists of grants for the same pairs have one summary, whatever their order,
their repetitions, their kinds and their namespaces, and the summary of one list behind
another is that of both together. It makes no difference which of two grants is
recorded first, or whether one is recorded once more.
-/
theorem summary_of_pairs :
    (∀ gs : List Grant,
      ((ofGrants gs).get = true ↔ ∃ g ∈ gs, g.verb = .get ∧ g.subresource = "") ∧
      ((ofGrants gs).put = true ↔ ∃ g ∈ gs, g.verb = .update ∧ g.subresource = "") ∧
      ((ofGrants gs).delete = true ↔ ∃ g ∈ gs, g.verb = .delete ∧ g.subresource = "") ∧
      ((ofGrants gs).logs = true ↔ ∃ g ∈ gs, g.verb = .get ∧ g.subresource = "log") ∧
      ((ofGrants gs).exec = true ↔ ∃ g ∈ gs, g.verb = .get ∧ g.subresource = "exec")) ∧
    (∀ g : Grant, (∀ r : Rights, r.record g = r) ↔ g.pair ∉ reported) ∧
    (∀ (g : Grant) (gs hs : List Grant), g.pair ∉ reported →
      ofGrants (gs ++ g :: hs) = ofGrants (gs ++ hs)) ∧
    (∀ gs hs : List Grant, (∀ x, x ∈ gs.map Grant.pair ↔ x ∈ hs.map Grant.pair) →
      ofGrants gs = ofGrants hs) ∧
    (∀ gs hs : List Grant, ofGrants (gs ++ hs) = (ofGrants gs).both (ofGrants hs)) ∧
    ∀ (r : Rights) (g h : Grant),
      (r.record g).record h = (r.record h).record g ∧ (r.record g).record g = r.record g := by
  refine ⟨fun gs => ?_, fun g => record_eq_self_iff, fun g gs hs h => ofGrants_insert h gs hs,
    fun gs hs => ofGrants_of_pairs, ofGrants_append,
    fun r g h => ⟨record_right_comm r g h, record_record_self r g⟩⟩
  rw [ofGrants_eq]
  exact ⟨any_isFor_eq_true_iff gs _ _, any_isFor_eq_true_iff gs _ _, any_isFor_eq_true_iff gs _ _,
    any_isFor_eq_true_iff gs _ _, any_isFor_eq_true_iff gs _ _⟩

/-- A kind, for grants of which it makes no difference. -/
def anyKind : Kind := ⟨"Deployment", "deployments", "apis/apps/v1", true⟩

/-- Grants as they came from two namespaces. -/
def scatteredGrants : List Grant :=
  [⟨Kind.unknown, .get, "log", "team-a"⟩, ⟨anyKind, .update, "", "team-a"⟩,
    ⟨Kind.unknown, .get, "log", "team-b"⟩]

/-- Grants across the cluster. -/
def wholeGrants : List Grant := [⟨anyKind, .update, "", ""⟩, ⟨Kind.unknown, .get, "log", ""⟩]

/-- They are for the same two pairs; that something may be watched besides, or its
status updated, is not reported. -/
theorem scatteredGrants_summary :
    (∀ x, x ∈ scatteredGrants.map Grant.pair ↔ x ∈ wholeGrants.map Grant.pair) ∧
    (⟨anyKind, .update, "status", ""⟩ : Grant).pair ∉ reported ∧
    ofGrants scatteredGrants = ofGrants wholeGrants ∧
    ofGrants (scatteredGrants ++ ⟨anyKind, .update, "status", ""⟩ :: wholeGrants) =
      ⟨false, true, false, true, false⟩ := by
  have hsame : ∀ x, x ∈ scatteredGrants.map Grant.pair ↔ x ∈ wholeGrants.map Grant.pair := by
    intro x
    simp only [scatteredGrants, wholeGrants, Grant.pair, List.map_cons, List.map_nil,
      List.mem_cons, List.not_mem_nil, or_false]
    tauto
  have hstatus : (⟨anyKind, .update, "status", ""⟩ : Grant).pair ∉ reported := by decide
  obtain ⟨-, -, hother, hpairs, -⟩ := summary_of_pairs
  refine ⟨hsame, hstatus, hpairs _ _ hsame, ?_⟩
  rw [hother _ _ _ hstatus]
  decide

end Rights

end WatchGate
