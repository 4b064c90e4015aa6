import WatchGate.Proofs.Probe.Turns

/-!
# WatchGate — every schedule comes to the same

The tasks of a run take permits, are answered and end in any order, and the
limit on calls in flight decides which orders there are. Neither shows in what
is asked and granted: `schedule_independence` puts the pieces of the theory of
`Probe.Moves`, `Balance`, `Progress` and `Turns` together.

* `Setting.asked_eq_delay` and `Setting.granted_eq_delay` — the sequential
  account said by verdicts and delays.
* `schedule_independence` — under every limit, every schedule can be led to an
  end, all ends hold what the sequential account holds, and the run against a
  clock is one of them.
-/

namespace WatchGate.Probe

variable {s : Setting} {qs : List Question}

-- ---------------------------------------------------------------------------
-- The sequential account, by verdicts and delays
-- ---------------------------------------------------------------------------

/-- What one question puts: itself, and if it is denied in time for the whole
cluster, what the same question puts in each namespace. -/
theorem Setting.asked_eq_delay (hn : s.Named) (q : Question) :
    s.asked q = q ::
      if (s.decide q).verdict = .deny ∧ (s.decide q).delay ≤ s.limits.timeout ∧ q.ns = "" then
        s.namespaces.flatMap fun n => s.asked (q.inNamespace n)
      else [] := by
  rw [Setting.asked_eq hn]
  simp only [Setting.outcome_eq_denied_iff, Question.clusterWide, String.isEmpty_iff, and_assoc]

/-- What one question is granted, by its verdict and delay. -/
theorem Setting.granted_eq_delay (hn : s.Named) (q : Question) :
    s.granted q =
      if s.limits.timeout < (s.decide q).delay then []
      else match (s.decide q).verdict with
        | .allow => [q.grant]
        | .error => []
        | .deny =>
          if q.ns = "" then s.namespaces.flatMap fun n => s.granted (q.inNamespace n) else [] := by
  rw [Setting.granted_eq hn]
  unfold Setting.outcome Setting.late Question.clusterWide
  by_cases hl : s.limits.timeout < (s.decide q).delay
  · simp [hl]
  · cases (s.decide q).verdict <;> simp [hl]

-- ---------------------------------------------------------------------------
-- Schedules under any limit
-- ---------------------------------------------------------------------------

/-- The same probes under another limit on calls in flight. -/
def Setting.withPermits (s : Setting) (permits : Option Nat) : Setting :=
  { s with limits := { s.limits with permits } }

/-- The limit on calls in flight plays no part in the sequential account. -/
theorem allAsked_withPermits (s : Setting) (permits : Option Nat) (qs : List Question) :
    (s.withPermits permits).allAsked qs = s.allAsked qs := rfl

theorem allGranted_withPermits (s : Setting) (permits : Option Nat) (qs : List Question) :
    (s.withPermits permits).allGranted qs = s.allGranted qs := rfl

/--
**Schedule independence.** The first two parts fix the sequential account of a
question by recursion: it is put once, a timely allowance is granted where it
was asked, errors and late answers leave nothing behind, and a timely denial for
the whole cluster is followed by the account of the same question in each
namespace. Then, under every limit on calls in flight, whatever schedule has
happened so far can be led to an end; wherever a schedule ends, the questions
put and the grants returned are those of the account up to order; and the run
against a clock ends as one of these schedules does.
-/
theorem schedule_independence (s : Setting) (qs : List Question)
    (hn : ∀ n ∈ s.namespaces, n ≠ "") :
    (∀ q, s.asked q = q ::
      if (s.decide q).verdict = .deny ∧ (s.decide q).delay ≤ s.limits.timeout ∧ q.ns = "" then
        s.namespaces.flatMap fun n => s.asked (q.inNamespace n)
      else []) ∧
    (∀ q, s.granted q =
      if s.limits.timeout < (s.decide q).delay then []
      else match (s.decide q).verdict with
        | .allow => [q.grant]
        | .error => []
        | .deny =>
          if q.ns = "" then s.namespaces.flatMap fun n => s.granted (q.inNamespace n)
          else []) ∧
    ∀ permits : Option Nat,
      (∀ st, Reachable (s.withPermits permits) qs st →
        ∃ es st', run (s.withPermits permits) st es = some st' ∧ st'.finished = true) ∧
      (∀ st, Reachable (s.withPermits permits) qs st → st.finished = true →
        st.asked.Perm (qs.flatMap s.asked) ∧ st.grants.Perm (qs.flatMap s.granted)) ∧
      ∃ st, Reachable (s.withPermits permits) qs st ∧ st.finished = true ∧
        st.asked = ((s.withPermits permits).report qs).asked ∧
        st.grants = ((s.withPermits permits).report qs).grants := by
  refine ⟨s.asked_eq_delay hn, s.granted_eq_delay hn, fun permits => ⟨?_, ?_, ?_⟩⟩
  all_goals have hn' : (s.withPermits permits).Named := hn
  · intro st h
    exact h.exists_finish hn'
  · intro st h hf
    have hasked := h.asked_perm_allAsked hn' hf
    have hgrants := h.grants_perm_allGranted hn' hf
    rw [allAsked_withPermits] at hasked
    rw [allGranted_withPermits] at hgrants
    exact ⟨hasked, hgrants⟩
  · obtain ⟨st, hr, hf, hasked, hgrants, -⟩ := Setting.exists_finished hn' qs
    exact ⟨st, hr, hf, hasked, hgrants⟩

-- ---------------------------------------------------------------------------
-- A cluster of three teams
-- ---------------------------------------------------------------------------

/-- May the caller watch pods anywhere. -/
def watchPods : Question := .about ⟨"Pod", "pods", "api/v1", true⟩ "pods" .watch

/-- Pods may be watched nowhere at large and in one team's namespace, which is
listed twice. The second team's allowance comes too late, and the third team's
answer is an error. -/
def threeTeams : Setting where
  decide q :=
    if q.ns = "" then ⟨.deny, 5⟩
    else if q.ns = "team-a" then ⟨.allow, 1⟩
    else if q.ns = "team-b" then ⟨.allow, 6⟩
    else ⟨.error, 0⟩
  namespaces := ["team-a", "team-b", "team-c", "team-a"]
  limits := ⟨5, some 1⟩

/-- Five questions and two grants, in every order and under every limit. -/
theorem threeTeams_schedules :
    (∀ n ∈ threeTeams.namespaces, n ≠ "") ∧
    ∀ permits st, Reachable (threeTeams.withPermits permits) [watchPods] st → st.finished = true →
      st.asked.length = 5 ∧
      st.grants.Perm [(watchPods.inNamespace "team-a").grant,
        (watchPods.inNamespace "team-a").grant] := by
  have hn : ∀ n ∈ threeTeams.namespaces, n ≠ "" := by decide
  refine ⟨hn, fun permits st h hf => ?_⟩
  obtain ⟨hasked, hgrants⟩ := ((schedule_independence threeTeams [watchPods] hn).2.2 permits).2.1
    st h hf
  exact ⟨hasked.length_eq.trans (by decide), hgrants⟩

end WatchGate.Probe
