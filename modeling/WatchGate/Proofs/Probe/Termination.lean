import WatchGate.Proofs.Probe.Completion
import WatchGate.Proofs.Probe.Turns

/-!
# WatchGate — which runs come to an end

A denial for the whole cluster is followed by the question for each namespace. In a
namespace without a name that is the same question, which is denied again, and so
without end (`Setting.Recurs`). There is no other way for a run to go on for ever. If
each namespace has a name, what is put again is not about the whole cluster. If no
question of a run is denied for the whole cluster, the namespaces do not matter, and the
run is one over no namespaces at all (`Spared.step_eq`).

Main results:

* `Reachable.exists_finish_of_not_recurs` — every schedule can be led to the end of its run.
* `Setting.exists_rank` — and comes to it, since each step takes something off.
* `Setting.Recurs.not_finished` — a run with a question that recurs is never finished.
* `Setting.ended_iff` — the clock's report tells the two apart.
-/

namespace WatchGate.Probe

variable {s : Setting} {qs : List Question} {q : Question} {st st' : State} {e : Event}

/-- One of the questions is put again in a namespace without a name, and denied again. -/
def Setting.Recurs (s : Setting) (qs : List Question) : Prop :=
  "" ∈ s.namespaces ∧ ∃ q ∈ qs, q.clusterWide = true ∧ s.outcome q = .denied

/-- None of the questions is denied for the whole cluster. -/
def Setting.Spares (s : Setting) (qs : List Question) : Prop :=
  ∀ q ∈ qs, q.clusterWide = true → s.outcome q ≠ .denied

theorem Setting.named_or_spares (h : ¬ s.Recurs qs) : s.Named ∨ s.Spares qs := by
  by_cases hn : "" ∈ s.namespaces
  · exact .inr fun q hq hw hd => h ⟨hn, q, hq, hw, hd⟩
  · refine .inl fun n hmem hempty => hn ?_
    rw [← hempty]
    exact hmem

theorem Setting.Spares.clusterWide (hs : s.Spares qs) (hq : q ∈ qs) (hd : s.outcome q = .denied) :
    q.clusterWide = false :=
  Bool.eq_false_iff.mpr fun hw => hs q hq hw hd

/-- The same authorizer and limits, over no namespaces. -/
def Setting.bare (s : Setting) : Setting := { s with namespaces := [] }

theorem Setting.named_bare (s : Setting) : s.bare.Named := nofun

-- ---------------------------------------------------------------------------
-- Runs that owe nothing
-- ---------------------------------------------------------------------------

/-- A probe of one of the questions, after which no other is owed. -/
structure Task.Spared (qs : List Question) (t : Task) : Prop where
  question : t.question ∈ qs
  denied : t.phase = .settled .denied → t.question.clusterWide = false
  owed : ∀ owed, t.phase ≠ .spreading owed

/-- All probes of a run are. -/
structure Spared (qs : List Question) (st : State) : Prop where
  roots : ∀ q ∈ st.roots, q ∈ qs
  tasks : ∀ t ∈ st.tasks, t.Spared qs

theorem Spared.task (h : Spared qs st) {i : Nat} {t : Task} (ht : st.tasks[i]? = some t) :
    t.Spared qs := h.tasks t (List.mem_of_getElem? ht)

/-- A task in whose phase nothing is denied or owed. -/
theorem Task.Spared.of_phase {p : Phase} (hq : q ∈ qs) (hd : p ≠ .settled .denied)
    (ho : ∀ owed, p ≠ .spreading owed) : Task.Spared qs ⟨q, p⟩ :=
  ⟨hq, fun hp => absurd hp hd, ho⟩

/-- Whatever is recorded, no other task is owed. -/
theorem Task.Spared.afterRecord_eq {o : Outcome} (h : Task.Spared qs ⟨q, .settled o⟩)
    (s : Setting) : afterRecord s q o = if o = .allowed then .granting else .ending := by
  cases o with
  | allowed => rfl
  | failed => rfl
  | denied =>
    have hw : q.clusterWide = false := h.denied rfl
    simp [afterRecord, hw]

theorem Spared.set (h : Spared qs st) {i : Nat} {u : Task} (hu : u.Spared qs) :
    ∀ t ∈ st.tasks.set i u, t.Spared qs := by
  intro t ht
  rcases List.mem_or_eq_of_mem_set ht with ht | rfl
  · exact h.tasks t ht
  · exact hu

theorem Spared.move (h : Spared qs st) (hs : s.Spares qs) (hm : Move s st e st') :
    Spared qs st' := by
  cases hm with
  | @start q rest hr ho =>
    have hroots := h.roots
    rw [hr, List.forall_mem_cons] at hroots
    refine ⟨hroots.2, ?_⟩
    rw [List.forall_mem_append, List.forall_mem_singleton]
    exact ⟨h.tasks, .of_phase hroots.1 (by simp) (by simp)⟩
  | close hr ho => exact ⟨h.roots, h.tasks⟩
  | ask ht hp => exact ⟨h.roots, h.set (.of_phase (h.task ht).question (by simp) (by simp))⟩
  | @settle i q ht =>
    have hq : q ∈ qs := (h.task ht).question
    refine ⟨h.roots, h.set ⟨hq, fun hdenied => ?_, by simp⟩⟩
    exact hs.clusterWide hq (Phase.settled.inj hdenied)
  | @record i q o ht =>
    rw [(h.task ht).afterRecord_eq s]
    exact ⟨h.roots, h.set (.of_phase (h.task ht).question (by split <;> simp) (by split <;> simp))⟩
  | send ht => exact ⟨h.roots, h.set (.of_phase (h.task ht).question (by simp) (by simp))⟩
  | spread ht => exact absurd rfl ((h.task ht).owed _)
  | retire ht hp => exact ⟨h.roots, fun t ht' => h.tasks t (List.mem_of_mem_eraseIdx ht')⟩
  | collect hc hf => exact ⟨h.roots, h.tasks⟩
  | finish hc ht ho hf => exact ⟨h.roots, h.tasks⟩

theorem spared_initial (s : Setting) (qs : List Question) :
    Spared qs (.initial s qs) := ⟨fun _ hq => hq, nofun⟩

theorem Reachable.spared (h : Reachable s qs st) (hs : s.Spares qs) : Spared qs st :=
  h.invariant (P := Spared qs) (spared_initial s qs) fun _ _ _ hst hm => hst.move hs hm

/-- Where nothing is owed, nothing matters but the outcomes. -/
theorem Spared.move_of_outcome {s' : Setting} (h : Spared qs st) (ho : s'.outcome = s.outcome)
    (hm : Move s st e st') : Move s' st e st' := by
  cases hm with
  | start hr hs => exact .start hr hs
  | close hr hs => exact .close hr hs
  | ask ht hp => exact .ask ht hp
  | settle ht =>
    rw [← ho]
    exact .settle ht
  | @record i q o ht =>
    rw [(h.task ht).afterRecord_eq s, ← (h.task ht).afterRecord_eq s']
    exact .record ht
  | send ht => exact .send ht
  | spread ht => exact .spread ht
  | retire ht hp => exact .retire ht hp
  | collect hc hf => exact .collect hc hf
  | finish hc ht hs hf => exact .finish hc ht hs hf

theorem Spared.step_eq (h : Spared qs st) (e : Event) : step s st e = step s.bare st e := by
  refine Option.ext fun st' => ?_
  rw [step_eq_some_iff, step_eq_some_iff]
  exact ⟨h.move_of_outcome rfl, h.move_of_outcome rfl⟩

theorem Spared.run_eq (h : Spared qs st) (hs : s.Spares qs) (es : List Event) :
    run s st es = run s.bare st es := by
  induction es generalizing st with
  | nil => rfl
  | cons e es ih =>
    rw [run, run, ← h.step_eq e]
    cases he : step s st e with
    | none => rfl
    | some st₁ => exact ih (h.move hs (move_of_step he))

theorem Reachable.bare (h : Reachable s qs st) (hs : s.Spares qs) : Reachable s.bare qs st := by
  obtain ⟨es, hes⟩ := h
  rw [(spared_initial s qs).run_eq hs] at hes
  exact ⟨es, hes⟩

-- ---------------------------------------------------------------------------
-- The end of a run
-- ---------------------------------------------------------------------------

/-- Every schedule can be led to the end of its run. -/
theorem Reachable.exists_finish_of_not_recurs (h : Reachable s qs st) (hr : ¬ s.Recurs qs) :
    ∃ es st', run s st es = some st' ∧ st'.finished = true := by
  rcases Setting.named_or_spares hr with hn | hs
  · exact h.exists_finish hn
  · obtain ⟨es, st', hes, hf⟩ := (h.bare hs).exists_finish s.named_bare
    rw [← (h.spared hs).run_eq hs] at hes
    exact ⟨es, st', hes, hf⟩

/-- Each step of a run takes something off. -/
theorem Setting.exists_rank (hr : ¬ s.Recurs qs) :
    ∃ rank : State → Nat, ∀ st e st', Reachable s qs st → step s st e = some st' →
      rank st' < rank st := by
  rcases named_or_spares hr with hn | hs
  · exact ⟨State.effort s, fun st e st' _ he => (move_of_step he).effort_lt hn⟩
  · refine ⟨State.effort s.bare, fun st e st' h he => ?_⟩
    rw [(h.spared hs).step_eq] at he
    exact (move_of_step he).effort_lt s.named_bare

-- ---------------------------------------------------------------------------
-- Runs without end
-- ---------------------------------------------------------------------------

/-- A question that recurs is owed when it is denied. -/
theorem Setting.mem_owes_self (hn : "" ∈ s.namespaces) (hw : q.clusterWide = true)
    (hd : s.outcome q = .denied) : q ∈ s.owes q := by
  have hq : q.inNamespace "" = q := by
    have hns : q.ns = "" := String.isEmpty_iff.mp hw
    unfold Question.inNamespace
    rw [← hns]
  have hmem : q.inNamespace "" ∈ s.namespaces.map q.inNamespace := List.mem_map_of_mem hn
  rw [hq] at hmem
  unfold owes children
  rwa [if_pos hd, if_pos hw]

theorem count_le_count_flatMap {f : Question → List Question} (hq : q ∈ f q)
    (asked : List Question) : asked.count q ≤ (asked.flatMap f).count q := by
  induction asked with
  | nil => exact Nat.le_refl _
  | cons c asked ih =>
    rw [List.flatMap_cons, List.count_append, List.count_cons]
    split
    · next hc =>
      have hpos : 0 < (f c).count q := by
        rw [eq_of_beq hc]
        exact List.count_pos_iff.mpr hq
      omega
    · omega

/-- A run with a question that recurs is never finished. -/
theorem Setting.Recurs.not_finished (hr : s.Recurs qs) (h : Reachable s qs st) :
    st.finished = false := by
  obtain ⟨hn, q, hq, hw, hd⟩ := hr
  refine Bool.eq_false_iff.mpr fun hf => ?_
  -- each time that the question is asked it is owed once more, besides the first time
  have hcount := (h.asked_perm hf).count_eq q
  rw [List.count_append] at hcount
  have hroot : 0 < qs.count q := List.count_pos_iff.mpr hq
  have howed := count_le_count_flatMap (mem_owes_self hn hw hd) st.asked
  omega

/-- And it always goes on. -/
theorem Setting.Recurs.exists_step (hr : s.Recurs qs) (h : Reachable s qs st) :
    ∃ e st', step s st e = some st' := by
  obtain ⟨e, st', hm⟩ := h.exists_move (hr.not_finished h)
  exact ⟨e, st', step_of_move hm⟩

-- ---------------------------------------------------------------------------
-- The clock
-- ---------------------------------------------------------------------------

/-- The questions that are still in line or with the authorizer are those of the run. -/
structure Timeline.Within (qs : List Question) (t : Timeline) : Prop where
  line : ∀ q ∈ t.line, q ∈ qs
  calls : ∀ c ∈ t.calls, c.question ∈ qs

section Clock

variable {t : Timeline}

theorem Setting.Spares.owes_eq_nil (hs : s.Spares qs) (hq : q ∈ qs) : s.owes q = [] := by
  unfold Setting.owes
  split
  · next hd => exact Setting.children_eq_nil (hs.clusterWide hq hd)
  · rfl

theorem Setting.Spares.settle_eq (hs : s.Spares qs) (hq : q ∈ qs) (t : Timeline) :
    t.settle s q = t.settle s.bare q := by
  have ho : s.bare.outcome q = s.outcome q := rfl
  unfold Timeline.settle
  rw [ho]
  cases hd : s.outcome q with
  | allowed => rfl
  | failed => rfl
  | denied =>
    have hw : q.clusterWide = false := hs.clusterWide hq hd
    simp only [Setting.children_eq_nil hw]

theorem Setting.Spares.settle_all_eq (hs : s.Spares qs) (due : List Call)
    (hdue : ∀ c ∈ due, c.question ∈ qs) (t : Timeline) :
    due.foldl (fun t c => t.settle s c.question) t =
      due.foldl (fun t c => t.settle s.bare c.question) t := by
  induction due generalizing t with
  | nil => rfl
  | cons c due ih =>
    rw [List.forall_mem_cons] at hdue
    rw [List.foldl_cons, List.foldl_cons, hs.settle_eq hdue.1]
    exact ih hdue.2 _

theorem Timeline.Within.advance_eq (h : t.Within qs) (hs : s.Spares qs) (instant : Nat) :
    t.advance s instant = t.advance s.bare instant :=
  hs.settle_all_eq _ (fun c hc => h.calls c (List.mem_of_mem_filter hc)) _

theorem Timeline.Within.advance (h : t.Within qs) (hs : s.Spares qs) (instant : Nat) :
    (t.advance s instant).Within qs := by
  have hjoining : t.joining s instant = [] := by
    refine List.flatMap_eq_nil_iff.mpr fun c hc => ?_
    exact hs.owes_eq_nil (h.calls c (List.mem_of_mem_filter hc))
  refine ⟨?_, ?_⟩
  · rw [advance_line, hjoining, List.append_nil]
    exact h.line
  · rw [advance_calls]
    exact fun c hc => h.calls c (List.mem_of_mem_filter hc)

theorem Setting.Spares.start_eq (hs : s.Spares qs) (hq : q ∈ qs) (t : Timeline) :
    t.start s q = t.start s.bare q := by
  unfold Timeline.start
  simp only [hs.settle_eq hq]
  rfl

theorem Timeline.Within.start (h : t.Within qs) (hs : s.Spares qs) (hq : q ∈ qs) :
    (t.start s q).Within qs := by
  by_cases hd : (s.decide q).delay = 0
  · refine ⟨?_, ?_⟩
    · unfold Timeline.start
      dsimp only
      rw [if_pos hd, settle_line, hs.owes_eq_nil hq, List.append_nil]
      exact h.line
    · rw [start_calls_of_no_delay s t hd]
      exact h.calls
  · rw [start_eq_of_delay s t hd]
    refine ⟨h.line, ?_⟩
    rw [List.forall_mem_append, List.forall_mem_singleton]
    exact ⟨h.calls, hq⟩

/-- Where nothing is owed, the clock goes as over no namespaces. -/
theorem Timeline.Within.go_eq (h : t.Within qs) (hs : s.Spares qs) (fuel : Nat) :
    Timeline.go s fuel t = Timeline.go s.bare fuel t := by
  have hroom : ∀ t : Timeline, t.hasRoom s.bare = t.hasRoom s := fun _ => rfl
  induction fuel generalizing t with
  | zero => rfl
  | succ fuel ih =>
    unfold Timeline.go
    split
    · next q rest hline =>
      have hin := h.line
      rw [hline, List.forall_mem_cons] at hin
      have hrest : { t with line := rest }.Within qs := ⟨hin.2, h.calls⟩
      rw [hroom, ← hs.start_eq hin.1, ih (hrest.start hs hin.1)]
      refine ite_congr rfl (fun _ => rfl) fun _ => ?_
      split
      · rw [← h.advance_eq hs, ih (h.advance hs _)]
      · rfl
    · split
      · rw [← h.advance_eq hs, ih (h.advance hs _)]
      · rfl

end Clock

/-- The clock stops with nothing left. -/
theorem Setting.done_of_not_recurs (hr : ¬ s.Recurs qs) :
    (Timeline.go s (Timeline.turns s qs) (.initial qs)).Done := by
  rcases named_or_spares hr with hn | hs
  · exact go_done hn (potential_initial_le s qs)
  · -- without namespaces there are fewer turns to take
    have hturns : Timeline.turns s.bare qs ≤ Timeline.turns s qs := by
      unfold Timeline.turns
      exact Nat.succ_le_succ (Nat.mul_le_mul_left _ (Nat.le_add_right 1 _))
    have hwithin : (Timeline.initial qs).Within qs := ⟨fun _ hq => hq, nofun⟩
    rw [hwithin.go_eq hs]
    exact go_done s.named_bare ((potential_initial_le s.bare qs).trans hturns)

theorem Setting.ended_iff_done (s : Setting) (qs : List Question) :
    (s.report qs).ended = true ↔ (Timeline.go s (Timeline.turns s qs) (.initial qs)).Done := by
  unfold report Timeline.report Timeline.Done
  rw [Bool.and_eq_true, List.isEmpty_iff, List.isEmpty_iff]

/-- The report of a run against a clock that has ended is that of a finished run. -/
theorem Setting.exists_finished_of_ended (h : (s.report qs).ended = true) :
    ∃ st, Reachable s qs st ∧ st.finished = true ∧ st.asked = (s.report qs).asked ∧
      st.grants = (s.report qs).grants ∧ st.tally = (s.report qs).tally :=
  s.exists_finished_of_done qs ((s.ended_iff_done qs).mp h)

/-- A run has ended for the clock unless it goes on for ever. -/
theorem Setting.ended_iff (s : Setting) (qs : List Question) :
    (s.report qs).ended = true ↔ ¬ s.Recurs qs := by
  constructor
  · intro hended hr
    obtain ⟨st, h, hf, -⟩ := exists_finished_of_ended hended
    exact Bool.false_ne_true ((hr.not_finished h).symm.trans hf)
  · exact fun hr => (s.ended_iff_done qs).mpr (done_of_not_recurs hr)

end WatchGate.Probe
