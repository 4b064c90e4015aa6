import WatchGate.Proofs.Probe.Barrier
import WatchGate.Proofs.Probe.Progress

/-!
# WatchGate — how probing comes to its end

`Probe.Progress` shows that a run goes on and stops. Here it is said what this
comes to. A probe waits for nothing but a permit, and the probe that has it needs
nobody to give it back, so probes never wait for one another in a ring. Only the
probe of a root question starts others, one for each namespace, which fixes how
many steps a schedule may take and how many questions it puts.

Main results:

* `Reachable.unblocks` — what a probe waits for, and who can end the wait.
* `no_endless_schedule` — the effort of a run sinks with every step.
* `owed_shape` — the addresses of probes are those of roots and of their children.
* `probing_completes` — these together, for every schedule.
-/

namespace WatchGate.Probe

variable {s : Setting} {qs : List Question} {st st' : State} {e : Event}

-- ---------------------------------------------------------------------------
-- Waiting
-- ---------------------------------------------------------------------------

/-- Whether a probe has no step of its own. -/
def Blocked (s : Setting) (st : State) (i : Nat) : Prop :=
  ∀ e, e.place? = some i → step s st e = none

theorem Blocked.no_move {i : Nat} (h : Blocked s st i) (he : e.place? = some i) :
    ¬ Move s st e st' := by
  intro hm
  have hstep := step_of_move hm
  rw [h e he] at hstep
  cases hstep

/-- A probe that is blocked waits for a permit. Another probe has one, can give it
back in its next step, and the first can take it then. -/
theorem Reachable.unblocks (h : Reachable s qs st) {i : Nat} {t : Task}
    (ht : st.tasks[i]? = some t) (hb : Blocked s st i) :
    t.phase = .waiting ∧ ∃ j next, j ≠ i ∧ Probe.step s st (.settle j) = some next ∧
      (Probe.step s next (.ask i)).isSome := by
  have hw : t.phase = .waiting := by
    by_contra hw
    obtain ⟨e, st', he, hm⟩ := exists_move_of_task ht hw
    exact hb.no_move he hm
  refine ⟨hw, ?_⟩
  obtain ⟨q, p⟩ := t
  obtain rfl : p = .waiting := hw
  have hp : st.hasPermit = false := by
    by_contra hp
    exact hb.no_move rfl (.ask ht (by simpa using hp))
  obtain ⟨j, q', hj⟩ := exists_holder h.permits_kept hp
  have hne : j ≠ i := by
    rintro rfl
    rw [ht] at hj
    cases hj
  refine ⟨j, _, hne, step_of_move (.settle hj), ?_⟩
  -- the permit is free again, and the first probe has not moved
  have hfree : State.hasPermit { st with
      permits := st.permits.map (· + 1)
      tasks := st.tasks.set j ⟨q', .settled (s.outcome q')⟩ } = true := by
    cases hs : st.permits with
    | none => simp [State.hasPermit]
    | some n => simp [State.hasPermit]
  have hi : (st.tasks.set j ⟨q', .settled (s.outcome q')⟩)[i]? = some ⟨q, .waiting⟩ := by
    rw [List.getElem?_set_ne hne, ht]
  rw [step_of_move (.ask hi hfree)]
  rfl

theorem Reachable.no_move (h : Reachable s qs st) (hf : st.finished = true) :
    ¬ Move s st e st' := by
  intro hm
  have hc := h.closed
  cases hm with
  | start hr ho => simp [hc.sender hf] at ho
  | close hr ho => simp [hc.sender hf] at ho
  | ask ht hp => exact hc.not_finished ht hf
  | settle ht => exact hc.not_finished ht hf
  | record ht => exact hc.not_finished ht hf
  | send ht => exact hc.not_finished ht hf
  | spread ht => exact hc.not_finished ht hf
  | retire ht hp => exact hc.not_finished ht hf
  | collect hg hn => simp [hf] at hn
  | finish hg ht ho hn => simp [hf] at hn

-- ---------------------------------------------------------------------------
-- Length
-- ---------------------------------------------------------------------------

/-- A root question takes seven steps, and a root question about the whole
cluster seven more for each namespace. -/
theorem ahead_eq (s : Setting) (qs : List Question) :
    s.ahead qs = 7 * (qs.length + s.namespaces.length * qs.countP Question.clusterWide) := by
  induction qs with
  | nil => rfl
  | cons q qs ih =>
    rw [ahead_cons, ih, Setting.fan, Setting.children]
    cases hq : q.clusterWide with
    | true =>
      rw [if_pos rfl, List.length_map, List.countP_cons_of_pos hq, List.length_cons, Nat.mul_succ]
      omega
    | false =>
      rw [if_neg Bool.false_ne_true, List.countP_cons_of_neg (by simp [hq]), List.length_cons,
        List.length_nil]
      omega

theorem effort_initial (s : Setting) (qs : List Question) :
    (State.initial s qs).effort s = s.ahead qs + 2 := rfl

/-- No schedule goes on for ever, wherever it begins. -/
theorem no_endless_schedule (hn : s.Named) (states : Nat → State) (events : Nat → Event) :
    ¬ ∀ k, step s (states k) (events k) = some (states (k + 1)) := by
  intro hsteps
  have hsinks : ∀ k, k + (states k).effort s ≤ (states 0).effort s := by
    intro k
    induction k with
    | zero => omega
    | succ k ih =>
      have hless := (move_of_step (hsteps k)).effort_lt hn
      omega
  have hlast := hsinks ((states 0).effort s + 1)
  omega

-- ---------------------------------------------------------------------------
-- Depth
-- ---------------------------------------------------------------------------

/-- A probe is that of a root question, or it was started by one and owes nothing. -/
theorem owed_shape (hn : s.Named) {a : Address} {q : Question} (h : Owed s qs a q) :
    (∃ k, a = [k] ∧ qs[k]? = some q) ∨ (∃ j k, a = [j, k] ∧ q.clusterWide = false) := by
  induction h with
  | root hk => exact Or.inl ⟨_, rfl, hk⟩
  | @child a q j n hown hd hq hj ih =>
    rcases ih with ⟨k, rfl, -⟩ | ⟨j', k, rfl, hno⟩
    · refine Or.inr ⟨j, k, rfl, ?_⟩
      have hname := hn n (List.mem_of_getElem? hj)
      simpa [Question.clusterWide, Question.inNamespace] using hname
    · rw [hq] at hno
      cases hno

theorem Registered.exists_owed {r : Register} (h : Registered s qs st r) {a : Address}
    (ha : a ∈ r.registered) : ∃ q, Owed s qs a q := by
  rcases List.mem_append.mp (h.perm.mem_iff.mp ha) with hended | hlive
  · obtain ⟨q, hq⟩ := h.ended a hended
    exact ⟨q, hq.owed⟩
  · obtain ⟨i, hi⟩ := List.mem_iff_getElem?.mp hlive
    have hlt := (List.getElem?_eq_some_iff.mp hi).1
    rw [h.length] at hlt
    exact ⟨_, (h.live i a _ hi (List.getElem?_eq_getElem hlt)).owed⟩

/-- A probe that starts another is that of a root question. -/
theorem Registered.root_of_spread {r : Register} (hn : s.Named) (h : Registered s qs st r)
    {i : Nat} {q c : Question} {owed : List Question}
    (ht : st.tasks[i]? = some ⟨q, .spreading (c :: owed)⟩) :
    ∃ k, r.live[i]? = some [k] ∧ qs[k]? = some q := by
  obtain ⟨a, ha⟩ := h.exists_address ht
  have hl := h.live i a _ ha ht
  obtain ⟨done, hdone⟩ := hl.sound
  rcases owed_shape hn hl.owed with ⟨k, rfl, hk⟩ | ⟨j, k, -, hno⟩
  · exact ⟨k, ha, hk⟩
  · -- a question in a namespace owes no others
    have hnil : s.owes q = [] := by
      unfold Setting.owes
      rw [Setting.children_eq_nil hno]
      exact ite_self _
    rw [hnil] at hdone
    simp at hdone

/-- Every denial for the whole cluster is followed by a question in each namespace. -/
theorem length_flatMap_owes (s : Setting) (qs : List Question) :
    (qs.flatMap s.owes).length = s.namespaces.length *
      qs.countP fun q => s.outcome q = .denied ∧ q.clusterWide = true := by
  induction qs with
  | nil => rfl
  | cons q qs ih =>
    rw [List.flatMap_cons, List.length_append, ih, List.countP_cons, Setting.owes, Setting.children]
    by_cases hd : s.outcome q = .denied
    · cases hq : q.clusterWide with
      | true =>
        simp only [hd, if_true, List.length_map, and_self, decide_true, Nat.mul_succ]
        omega
      | false => simp [hd]
    · simp [hd]

-- ---------------------------------------------------------------------------
-- Schedules
-- ---------------------------------------------------------------------------

/-- How a schedule stands to the end of its run. -/
structure Completes (s : Setting) (qs : List Question) (es : List Event) (st : State)
    (r : Register) : Prop where
  /-- a run has a next step for as long as it is not finished -/
  goes_on : st.finished = false → ∃ e next, step s st e = some next
  stays : st.finished = true → ∀ e, step s st e = none
  /-- while there are probes, one of them has a step of its own -/
  probes : st.tasks ≠ [] → ∃ i, ¬ Blocked s st i
  /-- a probe that has none waits for the permit of another, which gives it back in its next step -/
  waits : ∀ (i : Nat) t, st.tasks[i]? = some t → Blocked s st i → t.phase = .waiting ∧
    ∃ j next, j ≠ i ∧ step s st (.settle j) = some next ∧ (step s next (.ask i)).isSome
  length : es.length + st.effort s ≤
    7 * (qs.length + s.namespaces.length * qs.countP Question.clusterWide) + 2
  ends : ∃ rest last, run s st rest = some last ∧ last.finished = true
  /-- a finished run has put each root question, and each that was denied in time for the whole
  cluster in every namespace -/
  asked : st.finished = true → st.asked.length = qs.length + s.namespaces.length *
    qs.countP fun q =>
      (s.decide q).verdict = .deny ∧ (s.decide q).delay ≤ s.limits.timeout ∧ q.ns = ""
  /-- probes are those of root questions and those that they started -/
  depth : ∀ a ∈ r.registered, a.length = 1 ∨ a.length = 2
  /-- and only the probe of a root question starts another -/
  spreads : ∀ i next, step s st (.spread i) = some next →
    ∃ k q owed, r.live[i]? = some [k] ∧ qs[k]? = some q ∧
      st.tasks[i]? = some ⟨q, .spreading owed⟩

/--
**Probing ends.** Where every namespace has a name, for every list of questions,
every limit on calls and every authorizer: each step takes something off the
effort of a run, so that no schedule goes on for ever; and wherever a schedule
leads, the run is finished or has a next step, with no set of probes waiting for
one another. A finished run has put `n + k * f` questions for `n` root questions,
`k` namespaces and `f` denials for the whole cluster, and none of its probes was
started by one that was started by another.
-/
theorem probing_completes (s : Setting) (qs : List Question)
    (hn : ∀ n ∈ s.namespaces, n ≠ "") :
    (∀ st e st', step s st e = some st' → st'.effort s < st.effort s) ∧
    (∀ (states : Nat → State) (events : Nat → Event),
      ¬ ∀ k, step s (states k) (events k) = some (states (k + 1))) ∧
    ∀ es st, run s (.initial s qs) es = some st → Completes s qs es st (register s qs es) := by
  refine ⟨fun st e st' he => (move_of_step he).effort_lt hn, no_endless_schedule hn,
    fun es st h => ?_⟩
  have hreach : Reachable s qs st := ⟨es, h⟩
  have hr : Registered s qs st (register s qs es) := registered_of_run h
  constructor
  case goes_on =>
    intro hf
    obtain ⟨e, next, hm⟩ := hreach.exists_move hf
    exact ⟨e, next, step_of_move hm⟩
  case stays =>
    intro hf e
    rw [Option.eq_none_iff_forall_ne_some]
    intro next he
    exact hreach.no_move hf (move_of_step he)
  case probes =>
    intro ht
    obtain ⟨i, e, next, he, hm⟩ := exists_move_of_tasks hreach.permits_kept ht
    exact ⟨i, fun hb => hb.no_move he hm⟩
  case waits =>
    intro i t ht hb
    exact hreach.unblocks ht hb
  case length =>
    have hlength := length_le_effort hn h
    rw [effort_initial, ahead_eq] at hlength
    exact hlength
  case ends => exact hreach.exists_finish hn
  case asked =>
    intro hf
    have hperm := hreach.asked_perm_owes hn hf
    rw [hperm.length_eq, List.length_append, length_flatMap_owes]
    simp only [Setting.outcome_eq_denied_iff, Question.clusterWide, String.isEmpty_iff, and_assoc]
  case depth =>
    intro a ha
    obtain ⟨q, howed⟩ := hr.exists_owed ha
    rcases owed_shape hn howed with ⟨k, rfl, -⟩ | ⟨j, k, rfl, -⟩
    · exact Or.inl rfl
    · exact Or.inr rfl
  case spreads =>
    intro i next he
    cases move_of_step he with
    | @spread _ q c owed ht =>
      obtain ⟨k, hk, hq⟩ := hr.root_of_spread hn ht
      exact ⟨k, q, c :: owed, hk, hq, ht⟩

/-- With one permit, one question that is denied at large and two teams. -/
theorem twoTeams_completes :
    (∀ n ∈ twoTeams.namespaces, n ≠ "") ∧
    ∃ st, run twoTeams (.initial twoTeams [readSecrets]) earlyChild = some st ∧
      st.asked.length = 3 ∧ earlyChild.length + st.effort twoTeams ≤ 23 := by
  have hn : ∀ n ∈ twoTeams.namespaces, n ≠ "" := by decide
  have hdone : (run twoTeams (.initial twoTeams [readSecrets]) earlyChild).map State.finished =
      some true := by decide +kernel
  obtain ⟨st, hrun, hf⟩ := Option.map_eq_some_iff.mp hdone
  have hcompletes := (probing_completes twoTeams [readSecrets] hn).2.2 earlyChild st hrun
  exact ⟨hn, st, hrun, hcompletes.asked hf, hcompletes.length⟩

end WatchGate.Probe
