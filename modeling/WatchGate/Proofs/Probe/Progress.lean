import WatchGate.Proofs.Probe.Balance

/-!
# WatchGate — a run of probes comes to its end

Two things could keep a run from its end: every probe could wait for a permit
that none gives back, or denials could start probes for ever. Neither happens.
Permits are kept (`Reachable.permits_kept`): where a call is limited, the free
permits and the tasks that hold one are always as many as there were at first,
so a task that waits in vain waits for one that can go on. And where every
namespace has a name, each move takes something off `State.effort`, which
charges a question for its own moves and, if it is about the whole cluster, for
those of one probe in each namespace.

Main results:

* `exists_move_of_tasks` — while there are probes, one of them can go on.
* `Reachable.exists_move` — a run that is not finished can go on.
* `length_le_effort` — no schedule is longer than the effort it starts with.
* `Reachable.exists_finish` — every schedule can be led to the end.
-/

namespace WatchGate.Probe

variable {s : Setting} {qs : List Question} {st st' : State} {e : Event}

-- ---------------------------------------------------------------------------
-- Permits
-- ---------------------------------------------------------------------------

/-- How many permits a task holds: one, while its question is with the authorizer. -/
def Task.held (t : Task) : Nat := if t.phase = .asking then 1 else 0

/-- Free permits and held ones are as many as there are, if calls are limited. -/
def PermitsKept (s : Setting) (st : State) : Prop :=
  match s.limits.slots with
  | none => st.permits = none
  | some n => ∃ free, st.permits = some free ∧ free + total Task.held st.tasks = n

/-- Permits are kept if what becomes free is what tasks give back. -/
theorem PermitsKept.of_total (h : PermitsKept s st) (hp : st'.permits = st.permits)
    (ht : total Task.held st'.tasks = total Task.held st.tasks) : PermitsKept s st' := by
  unfold PermitsKept at h ⊢
  split at h
  · exact hp.trans h
  · obtain ⟨free, hfree, hsum⟩ := h
    exact ⟨free, hp.trans hfree, by rw [ht, hsum]⟩

theorem held_afterRecord (s : Setting) (q : Question) (o : Outcome) :
    Task.held ⟨q, afterRecord s q o⟩ = 0 := by
  cases o with
  | allowed => rfl
  | failed => rfl
  | denied => cases hq : q.clusterWide <;> simp [Task.held, afterRecord, hq]

theorem PermitsKept.move (h : PermitsKept s st) (hm : Move s st e st') : PermitsKept s st' := by
  cases hm with
  | @start q rest hr ho =>
    have hnew : Task.held ⟨q, .waiting⟩ = 0 := rfl
    exact h.of_total rfl (by simp [hnew])
  | close hr ho => exact h.of_total rfl rfl
  | @ask i q ht hp =>
    have hset := total_set (f := Task.held) ht ⟨q, .asking⟩
    have hold : Task.held ⟨q, .waiting⟩ = 0 := rfl
    have hnew : Task.held ⟨q, .asking⟩ = 1 := rfl
    unfold PermitsKept at h ⊢
    split at h
    · simp [h]
    · obtain ⟨free, hfree, hsum⟩ := h
      have hpos : 0 < free := by simpa [State.hasPermit, hfree] using hp
      exact ⟨free - 1, by simp [hfree], by dsimp only; omega⟩
  | @settle i q ht =>
    have hset := total_set (f := Task.held) ht ⟨q, .settled (s.outcome q)⟩
    have hold : Task.held ⟨q, .asking⟩ = 1 := rfl
    have hnew : Task.held ⟨q, .settled (s.outcome q)⟩ = 0 := rfl
    unfold PermitsKept at h ⊢
    split at h
    · simp [h]
    · obtain ⟨free, hfree, hsum⟩ := h
      exact ⟨free + 1, by simp [hfree], by dsimp only; omega⟩
  | @record i q o ht =>
    have hset := total_set (f := Task.held) ht ⟨q, afterRecord s q o⟩
    have hold : Task.held ⟨q, .settled o⟩ = 0 := rfl
    have hnew := held_afterRecord s q o
    exact h.of_total rfl (by dsimp only; omega)
  | @send i q ht =>
    have hset := total_set (f := Task.held) ht ⟨q, .ending⟩
    have hold : Task.held ⟨q, .granting⟩ = 0 := rfl
    have hnew : Task.held ⟨q, .ending⟩ = 0 := rfl
    exact h.of_total rfl (by dsimp only; omega)
  | @spread i q c owed ht =>
    have hset := total_set (f := Task.held) ht ⟨q, .spreading owed⟩
    have hold : Task.held ⟨q, .spreading (c :: owed)⟩ = 0 := rfl
    have hnew : Task.held ⟨q, .spreading owed⟩ = 0 := rfl
    have hchild : Task.held ⟨c, .waiting⟩ = 0 := rfl
    refine h.of_total rfl ?_
    simp only [total_append, total_cons, total_nil]
    omega
  | @retire i t ht hp =>
    have herase := total_eraseIdx (f := Task.held) ht
    have hold : t.held = 0 := by rcases hp with hp | hp <;> simp [Task.held, hp]
    exact h.of_total rfl (by dsimp only; omega)
  | collect hc hf => exact h.of_total rfl rfl
  | finish hc ht ho hf => exact h.of_total rfl rfl

theorem Reachable.permits_kept (h : Reachable s qs st) : PermitsKept s st := by
  refine h.invariant ?_ fun st e st' hk hm => hk.move hm
  unfold PermitsKept
  split
  · next hs => exact hs
  · next n hs => exact ⟨n, hs, rfl⟩

/-- A limit on calls is a limit of one at least. -/
theorem slots_pos {l : Limits} {n : Nat} (h : l.slots = some n) : 0 < n := by
  unfold Limits.slots at h
  split at h
  · simp only [Option.some.injEq] at h
    omega
  · cases h

-- ---------------------------------------------------------------------------
-- No run is stuck
-- ---------------------------------------------------------------------------

/-- A task that does not wait can go on at once. -/
theorem exists_move_of_task {i : Nat} {t : Task} (ht : st.tasks[i]? = some t)
    (hp : t.phase ≠ .waiting) : ∃ e st', e.place? = some i ∧ Move s st e st' := by
  obtain ⟨q, p⟩ := t
  cases p with
  | waiting => exact absurd rfl hp
  | asking => exact ⟨.settle i, _, rfl, .settle ht⟩
  | settled o => exact ⟨.record i, _, rfl, .record ht⟩
  | granting => exact ⟨.send i, _, rfl, .send ht⟩
  | spreading owed =>
    cases owed with
    | nil => exact ⟨.retire i, _, rfl, .retire ht (Or.inr rfl)⟩
    | cons c owed => exact ⟨.spread i, _, rfl, .spread ht⟩
  | ending => exact ⟨.retire i, _, rfl, .retire ht (Or.inl rfl)⟩

/-- Where no permit is free, a task has one. -/
theorem exists_holder (hk : PermitsKept s st) (hp : st.hasPermit = false) :
    ∃ (j : Nat) (q : Question), st.tasks[j]? = some ⟨q, .asking⟩ := by
  unfold PermitsKept at hk
  split at hk
  · simp [State.hasPermit, hk] at hp
  · next n hs =>
    obtain ⟨free, hfree, hsum⟩ := hk
    have hzero : free = 0 := by simpa [State.hasPermit, hfree] using hp
    -- all permits are held, and there is one at least
    have hpos : 0 < total Task.held st.tasks := by
      have := slots_pos hs
      omega
    obtain ⟨j, ⟨q, p⟩, hj, hheld⟩ := exists_of_total_pos hpos
    refine ⟨j, q, ?_⟩
    unfold Task.held at hheld
    split at hheld
    · next hasking =>
      obtain rfl : p = .asking := hasking
      exact hj
    · cases hheld

/-- While there are tasks, one of them can go on: a task that waits gets a permit,
or another one has it and can give it back. -/
theorem exists_move_of_tasks (hk : PermitsKept s st) (ht : st.tasks ≠ []) :
    ∃ i e st', e.place? = some i ∧ Move s st e st' := by
  cases hts : st.tasks with
  | nil => exact absurd hts ht
  | cons t ts =>
    have h0 : st.tasks[0]? = some t := by
      rw [hts]
      rfl
    obtain ⟨q, p⟩ := t
    by_cases hw : p = .waiting
    · subst hw
      cases hp : st.hasPermit with
      | true => exact ⟨0, .ask 0, _, rfl, .ask h0 hp⟩
      | false =>
        obtain ⟨j, q', hj⟩ := exists_holder hk hp
        exact ⟨j, exists_move_of_task hj nofun⟩
    · exact ⟨0, exists_move_of_task h0 hw⟩

/-- A run that is not finished can go on, whatever its schedule has done so far. -/
theorem Reachable.exists_move (h : Reachable s qs st) (hf : st.finished = false) :
    ∃ e st', Move s st e st' := by
  cases ht : st.tasks with
  | cons t ts =>
    obtain ⟨i, e, st', -, hm⟩ := exists_move_of_tasks h.permits_kept (by simp [ht])
    exact ⟨e, st', hm⟩
  | nil =>
    cases ho : st.rootSender with
    | true =>
      cases hr : st.roots with
      | nil => exact ⟨_, _, .close hr ho⟩
      | cons q rest => exact ⟨_, _, .start hr ho⟩
    | false =>
      cases hc : st.channel with
      | nil => exact ⟨_, _, .finish hc ht ho hf⟩
      | cons g rest => exact ⟨_, _, .collect hc hf⟩

-- ---------------------------------------------------------------------------
-- No run goes on for ever
-- ---------------------------------------------------------------------------

/-- What a fan-out may take: seven moves for each child, from its start to the
collection of its grant. -/
def Setting.fan (s : Setting) (q : Question) : Nat := 7 * (s.children q).length

/-- What questions take that have no task yet. -/
def Setting.ahead (s : Setting) (qs : List Question) : Nat :=
  (qs.map fun q => 7 + s.fan q).sum

/-- What a task may still take. -/
def Task.effort (s : Setting) (t : Task) : Nat :=
  match t.phase with
  | .waiting => 6 + s.fan t.question
  | .asking => 5 + s.fan t.question
  | .settled _ => 4 + s.fan t.question
  | .granting => 3
  | .spreading owed => 1 + s.ahead owed
  | .ending => 1

/-- What a run may still take. -/
def State.effort (s : Setting) (st : State) : Nat :=
  s.ahead st.roots + (if st.rootSender then 1 else 0) + total (Task.effort s) st.tasks
    + st.channel.length + if st.finished then 0 else 1

@[simp] theorem ahead_nil (s : Setting) : s.ahead [] = 0 := rfl

@[simp] theorem ahead_cons (s : Setting) (q : Question) (qs : List Question) :
    s.ahead (q :: qs) = 7 + s.fan q + s.ahead qs := by
  simp [Setting.ahead]

/-- The fan-out of a question takes what was laid aside for it. -/
theorem ahead_children (hn : s.Named) (q : Question) : s.ahead (s.children q) = s.fan q := by
  have hcharge : ∀ c ∈ s.children q, 7 + s.fan c = 7 := by
    intro c hc
    rw [Setting.fan, Setting.children_eq_nil (clusterWide_of_mem_children hn hc)]
    rfl
  rw [Setting.ahead, List.map_congr_left hcharge, Setting.fan]
  simp [Nat.mul_comm]

theorem effort_afterRecord (hn : s.Named) (q : Question) (o : Outcome) :
    Task.effort s ⟨q, afterRecord s q o⟩ < Task.effort s ⟨q, .settled o⟩ := by
  cases o with
  | allowed => show 3 < 4 + s.fan q; omega
  | failed => show 1 < 4 + s.fan q; omega
  | denied =>
    cases hq : q.clusterWide with
    | true =>
      simp only [afterRecord, hq, if_true, Task.effort, ahead_children hn]
      omega
    | false =>
      simp only [afterRecord, hq, Bool.false_eq_true, if_false, Task.effort]
      omega

/-- Every move takes something off the effort. -/
theorem Move.effort_lt (hn : s.Named) (hm : Move s st e st') : st'.effort s < st.effort s := by
  unfold State.effort
  cases hm with
  | @start q rest hr ho =>
    have hnew : Task.effort s ⟨q, .waiting⟩ = 6 + s.fan q := rfl
    simp only [hr, ahead_cons, total_append, total_cons, total_nil]
    omega
  | close hr ho =>
    simp only [ho, if_true, Bool.false_eq_true, if_false]
    omega
  | @ask i q ht hp =>
    have hset := total_set (f := Task.effort s) ht ⟨q, .asking⟩
    have hold : Task.effort s ⟨q, .waiting⟩ = 6 + s.fan q := rfl
    have hnew : Task.effort s ⟨q, .asking⟩ = 5 + s.fan q := rfl
    dsimp only
    omega
  | @settle i q ht =>
    have hset := total_set (f := Task.effort s) ht ⟨q, .settled (s.outcome q)⟩
    have hold : Task.effort s ⟨q, .asking⟩ = 5 + s.fan q := rfl
    have hnew : Task.effort s ⟨q, .settled (s.outcome q)⟩ = 4 + s.fan q := rfl
    dsimp only
    omega
  | @record i q o ht =>
    have hset := total_set (f := Task.effort s) ht ⟨q, afterRecord s q o⟩
    have hless := effort_afterRecord hn q o
    dsimp only
    omega
  | @send i q ht =>
    -- the grant in the channel has still to be collected
    have hset := total_set (f := Task.effort s) ht ⟨q, .ending⟩
    have hold : Task.effort s ⟨q, .granting⟩ = 3 := rfl
    have hnew : Task.effort s ⟨q, .ending⟩ = 1 := rfl
    simp only [List.length_append, List.length_singleton]
    omega
  | @spread i q c owed ht =>
    have hset := total_set (f := Task.effort s) ht ⟨q, .spreading owed⟩
    have hold : Task.effort s ⟨q, .spreading (c :: owed)⟩ = 1 + s.ahead (c :: owed) := rfl
    have hnew : Task.effort s ⟨q, .spreading owed⟩ = 1 + s.ahead owed := rfl
    have hchild : Task.effort s ⟨c, .waiting⟩ = 6 + s.fan c := rfl
    simp only [total_append, total_cons, total_nil, ahead_cons] at *
    omega
  | @retire i t ht hp =>
    have herase := total_eraseIdx (f := Task.effort s) ht
    have hold : t.effort s = 1 := by rcases hp with hp | hp <;> simp [Task.effort, hp]
    dsimp only
    omega
  | collect hc hf =>
    simp only [hc, List.length_cons]
    omega
  | finish hc ht ho hf =>
    simp only [hf, Bool.false_eq_true, if_false, if_true]
    omega

/-- No schedule is longer than the effort that it starts with. -/
theorem length_le_effort (hn : s.Named) {es : List Event} (h : run s st es = some st') :
    es.length + st'.effort s ≤ st.effort s := by
  induction es generalizing st with
  | nil =>
    simp only [run, Option.some.injEq] at h
    subst h
    simp
  | cons e es ih =>
    simp only [run, Option.bind_eq_some_iff] at h
    obtain ⟨st₁, he, hes⟩ := h
    have hless := (move_of_step he).effort_lt hn
    have hrest := ih hes
    rw [List.length_cons]
    omega

/-- Every schedule can be led to the end of the run. -/
theorem Reachable.exists_finish (hn : s.Named) (h : Reachable s qs st) :
    ∃ es st', run s st es = some st' ∧ st'.finished = true := by
  induction hk : st.effort s using Nat.strongRecOn generalizing st with
  | _ k ih =>
    cases hf : st.finished with
    | true => exact ⟨[], st, rfl, hf⟩
    | false =>
      obtain ⟨e, st₁, hm⟩ := h.exists_move hf
      have hless := hm.effort_lt hn
      obtain ⟨es, st', hes, hdone⟩ := ih (st₁.effort s) (by omega) (h.move hm) rfl
      refine ⟨e :: es, st', ?_, hdone⟩
      rw [run, step_of_move hm]
      exact hes

end WatchGate.Probe
