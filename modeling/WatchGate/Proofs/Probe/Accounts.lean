import WatchGate.Proofs.Probe.Barrier

/-!
# WatchGate — the account of a run of probes

The counters of a verb say how its probes came out. A probe is recorded once, and a
denial for the whole cluster is recorded together with the probes that it owes, so
that for each verb what is recorded and what is not recorded yet balance with the
root questions and the fan-outs at any time. `Accounted` is this balance, and says
which answers and grants of the register the counters stand for.

Between the record of an allowance and its grant a probe does not wait. Steps may
come between the two all the same, and then the counter is ahead of the channel by
the tasks that are `granting`. `act` leaves nothing between them: it is a step from one
wait to the next as far as allowances go, and where acts lead no task is granting.

Main result: `accounts_kept`.
-/

namespace WatchGate.Probe

variable {s : Setting} {qs : List Question} {st st' : State} {e : Event} {r : Register} {v : Verb}

-- ---------------------------------------------------------------------------
-- Counters
-- ---------------------------------------------------------------------------

namespace Tally

@[simp] theorem count_recordQuestion (t : Tally) (q : Question) (o o' : Outcome) (v : Verb) :
    (t.recordQuestion q o).count v o' = t.count v o' + if q.verb = v ∧ o = o' then 1 else 0 := by
  unfold recordQuestion
  dsimp only
  split
  · rw [count_recordFanout, count_record]
  · rw [count_record]

@[simp] theorem fanoutCount_recordQuestion (t : Tally) (q : Question) (o : Outcome) (v : Verb) :
    (t.recordQuestion q o).fanoutCount v = t.fanoutCount v +
      if q.verb = v ∧ q.clusterWide = true ∧ o = .denied then 1 else 0 := by
  unfold recordQuestion
  dsimp only
  split
  · next h => simp [h]
  · next h =>
    have hn : ¬ (q.verb = v ∧ q.clusterWide = true ∧ o = .denied) := fun hc => h ⟨hc.2.2, hc.2.1⟩
    simp [hn]

/-- A question has one outcome of the three. -/
theorem one_outcome (p : Prop) [Decidable p] (o : Outcome) :
    (if p ∧ o = .allowed then 1 else 0) + (if p ∧ o = .denied then 1 else 0) +
      (if p ∧ o = .failed then 1 else 0) = if p then 1 else 0 := by
  by_cases hp : p
  · cases o <;> simp [hp]
  · simp [hp]

end Tally

-- ---------------------------------------------------------------------------
-- Shares of a verb
-- ---------------------------------------------------------------------------

/-- How many questions are of a verb. -/
def asksOf (v : Verb) (qs : List Question) : Nat := qs.countP (·.verb = v)

/-- How many probes of a verb a task still has to record, its own and those that it owes. -/
def Task.unrecorded (v : Verb) (t : Task) : Nat :=
  match t.phase with
  | .waiting | .asking | .settled _ => asksOf v [t.question]
  | .spreading owed => asksOf v owed
  | .granting | .ending => 0

/-- How many grants of a verb are recorded with a task and not sent. -/
def Task.granting (v : Verb) (t : Task) : Nat :=
  match t.phase with
  | .granting => asksOf v [t.question]
  | .waiting | .asking | .settled _ | .spreading _ | .ending => 0

/-- How many probes of a verb have no outcome yet: those of root questions and those in
namespaces, whether they have a task or are still owed one. -/
def State.unrecorded (v : Verb) (st : State) : Nat :=
  asksOf v st.roots + total (Task.unrecorded v) st.tasks

theorem asksOf_singleton (v : Verb) (q : Question) :
    asksOf v [q] = if q.verb = v then 1 else 0 := by
  simp [asksOf, List.countP_cons]

theorem asksOf_cons (v : Verb) (q : Question) (qs : List Question) :
    asksOf v (q :: qs) = asksOf v [q] + asksOf v qs := by
  unfold asksOf
  rw [← List.countP_append]
  rfl

/-- A question that is put again in the namespaces keeps its verb. -/
theorem asksOf_children (s : Setting) {q : Question} (hq : q.clusterWide = true) (v : Verb) :
    asksOf v (s.children q) = s.namespaces.length * asksOf v [q] := by
  unfold Setting.children
  rw [if_pos hq, asksOf_singleton]
  unfold asksOf
  rw [List.countP_map]
  by_cases hv : q.verb = v
  · simp [Function.comp_def, Question.inNamespace, hv]
  · simp [Function.comp_def, Question.inNamespace, hv]

/-- Behind its record a task has to record what it owes, if it owes anything. -/
theorem unrecorded_afterRecord (s : Setting) (q : Question) (o : Outcome) (v : Verb) :
    Task.unrecorded v ⟨q, afterRecord s q o⟩ = s.namespaces.length *
      if q.verb = v ∧ q.clusterWide = true ∧ o = .denied then 1 else 0 := by
  cases o with
  | allowed => simp [afterRecord, Task.unrecorded]
  | failed => simp [afterRecord, Task.unrecorded]
  | denied =>
    cases hq : q.clusterWide with
    | false => simp [afterRecord, Task.unrecorded, hq]
    | true =>
      have hshare := asksOf_children s hq v
      rw [asksOf_singleton] at hshare
      simpa [afterRecord, Task.unrecorded, hq] using hshare

theorem granting_afterRecord (s : Setting) (q : Question) (o : Outcome) (v : Verb) :
    Task.granting v ⟨q, afterRecord s q o⟩ =
      if q.verb = v ∧ o = .allowed then 1 else 0 := by
  cases o with
  | allowed => simp [afterRecord, Task.granting, asksOf_singleton]
  | failed => simp [afterRecord, Task.granting]
  | denied => cases hq : q.clusterWide <;> simp [afterRecord, Task.granting, hq]

/-- A task that may end has nothing left to record or to send. -/
theorem shares_of_ending {t : Task} (h : t.phase = .ending ∨ t.phase = .spreading []) (v : Verb) :
    t.unrecorded v = 0 ∧ t.granting v = 0 := by
  rcases h with h | h <;> simp [Task.unrecorded, Task.granting, asksOf, h]

-- ---------------------------------------------------------------------------
-- The account
-- ---------------------------------------------------------------------------

/-- The counters of a state, with the register of how it was come to. -/
structure Accounted (s : Setting) (qs : List Question) (st : State) (r : Register) : Prop where
  /-- what is recorded and what is not balances with the root questions and the fan-outs -/
  balance : ∀ v, st.tally.count v .allowed + st.tally.count v .denied + st.tally.count v .failed +
    st.unrecorded v = qs.countP (·.verb = v) + s.namespaces.length * st.tally.fanoutCount v
  /-- each counter counts the answers of its verb and its outcome -/
  answers : ∀ v o, st.tally.count v o =
    r.answers.countP fun x => x.question.verb = v ∧ x.outcome = o
  /-- fan-outs are the denials of their verb for the whole cluster -/
  fanouts : ∀ v, st.tally.fanoutCount v =
    r.answers.countP fun x => x.question.verb = v ∧ x.question.clusterWide ∧ x.outcome = .denied
  /-- an allowance is sent as a grant, or its task is about to send it -/
  grants : ∀ v, st.tally.count v .allowed =
    r.sent.countP (·.verb = v) + total (Task.granting v) st.tasks
  sound : ∀ x ∈ r.answers, x.outcome = s.outcome x.question

/-- Answers and grants are noted where they are recorded and sent. -/
theorem Register.note_kept (r : Register) (s : Setting) (st : State) (hrecord : ∀ i, e ≠ .record i)
    (hsend : ∀ i, e ≠ .send i) :
    (r.note s st e).answers = r.answers ∧ (r.note s st e).sent = r.sent := by
  cases e with
  | record i => exact absurd rfl (hrecord i)
  | send i => exact absurd rfl (hsend i)
  | spread i | retire i =>
    unfold Register.note
    dsimp only
    split <;> exact ⟨rfl, rfl⟩
  | start | close | ask i | settle i | collect | finish => exact ⟨rfl, rfl⟩

namespace Accounted

theorem initial (s : Setting) (qs : List Question) :
    Accounted s qs (.initial s qs) .empty where
  balance v := by simp [State.initial, State.unrecorded, Tally.empty, Tally.count,
    Tally.fanoutCount, asksOf]
  answers v o := rfl
  fanouts v := rfl
  grants v := rfl
  sound x h := by simp [Register.empty] at h

/-- What changes neither the counters nor what is to be recorded or sent keeps the account. -/
theorem of_same (h : Accounted s qs st r) {r' : Register} (htally : st'.tally = st.tally)
    (hopen : ∀ v, st'.unrecorded v = st.unrecorded v)
    (hgranting : ∀ v, total (Task.granting v) st'.tasks = total (Task.granting v) st.tasks)
    (hanswers : r'.answers = r.answers) (hsent : r'.sent = r.sent) : Accounted s qs st' r' where
  balance v := by rw [htally, hopen, h.balance]
  answers v o := by rw [htally, hanswers, h.answers]
  fanouts v := by rw [htally, hanswers, h.fanouts]
  grants v := by rw [htally, hsent, hgranting, h.grants]
  sound := by rw [hanswers]; exact h.sound

/-- A task that changes at its place and has as much to record and to send keeps the account. -/
theorem of_set (h : Accounted s qs st r) {i : Nat} {t : Task} (ht : st.tasks[i]? = some t)
    (t' : Task) (hopen : ∀ v, t'.unrecorded v = t.unrecorded v)
    (hgranting : ∀ v, t'.granting v = t.granting v)
    {permits : Option Nat} {asked : List Question} :
    Accounted s qs { st with permits, asked, tasks := st.tasks.set i t' } r :=
  h.of_same rfl (fun v => congrArg (asksOf v st.roots + ·) (total_set_of_eq ht t' (hopen v)))
    (fun v => total_set_of_eq ht t' (hgranting v)) rfl rfl

theorem record (h : Accounted s qs st r) (hr : Registered s qs st r) {i : Nat} {q : Question}
    {o : Outcome} (ht : st.tasks[i]? = some ⟨q, .settled o⟩) :
    Accounted s qs { st with
      tasks := st.tasks.set i ⟨q, afterRecord s q o⟩
      tally := st.tally.recordQuestion q o } (r.note s st (.record i)) := by
  obtain ⟨a, ha⟩ := hr.exists_address ht
  have ho : o = s.outcome q := (hr.live i a _ ha ht).sound
  have hnote : r.note s st (.record i) = { r with answers := r.answers ++ [⟨a, q, o⟩] } := by
    simp [Register.note, ht, ha]
  rw [hnote]
  constructor
  case balance =>
    intro v
    have hbefore := h.balance v
    have hset := total_set (f := Task.unrecorded v) ht ⟨q, afterRecord s q o⟩
    have hold : Task.unrecorded v ⟨q, .settled o⟩ = if q.verb = v then 1 else 0 :=
      asksOf_singleton v q
    have hone := Tally.one_outcome (q.verb = v) o
    -- what the task owes now is what one more fan-out adds on the right
    rw [unrecorded_afterRecord] at hset
    simp only [Tally.count_recordQuestion, Tally.fanoutCount_recordQuestion, Nat.mul_add]
    unfold State.unrecorded at hbefore ⊢
    dsimp only
    omega
  case answers =>
    intro v o'
    simp only [Tally.count_recordQuestion, List.countP_append, List.countP_singleton, h.answers,
      decide_eq_true_eq]
  case fanouts =>
    intro v
    simp only [Tally.fanoutCount_recordQuestion, List.countP_append, List.countP_singleton,
      h.fanouts, decide_eq_true_eq]
  case grants =>
    intro v
    have hbefore := h.grants v
    have hset := total_set (f := Task.granting v) ht ⟨q, afterRecord s q o⟩
    have hold : Task.granting v ⟨q, .settled o⟩ = 0 := rfl
    rw [granting_afterRecord] at hset
    rw [Tally.count_recordQuestion]
    dsimp only
    omega
  case sound =>
    intro x hx
    rcases List.mem_append.mp hx with hx | hx
    · exact h.sound x hx
    · rw [List.mem_singleton.mp hx]
      exact ho

theorem send (h : Accounted s qs st r) {i : Nat} {q : Question}
    (ht : st.tasks[i]? = some ⟨q, .granting⟩) :
    Accounted s qs { st with
      tasks := st.tasks.set i ⟨q, .ending⟩
      channel := st.channel ++ [q.grant] } (r.note s st (.send i)) := by
  have hnote : r.note s st (.send i) = { r with sent := r.sent ++ [q.grant] } := by
    simp [Register.note, ht]
  rw [hnote]
  refine ⟨fun v => ?_, h.answers, h.fanouts, fun v => ?_, h.sound⟩
  · have hsame := total_set_of_eq (f := Task.unrecorded v) ht ⟨q, .ending⟩ rfl
    rw [← h.balance v]
    simp only [State.unrecorded, hsame]
  · -- the grant leaves its task, and is of the verb of its question
    have hbefore := h.grants v
    have hset := total_set (f := Task.granting v) ht ⟨q, .ending⟩
    have hold : Task.granting v ⟨q, .granting⟩ = if q.verb = v then 1 else 0 :=
      asksOf_singleton v q
    have hnew : Task.granting v ⟨q, .ending⟩ = 0 := rfl
    simp only [List.countP_append, List.countP_singleton, Question.grant, decide_eq_true_eq]
    omega

theorem move (h : Accounted s qs st r) (hr : Registered s qs st r) (hm : Move s st e st') :
    Accounted s qs st' (r.note s st e) := by
  cases hm with
  | @start q rest hroots ho =>
    refine h.of_same rfl (fun v => ?_) (fun v => ?_) rfl rfl
    · have hcons := asksOf_cons v q rest
      have hnew : Task.unrecorded v ⟨q, .waiting⟩ = asksOf v [q] := rfl
      simp only [State.unrecorded, hroots, total_append, total_cons, total_nil]
      omega
    · simp [Task.granting]
  | close hroots ho => exact h.of_same rfl (fun v => rfl) (fun v => rfl) rfl rfl
  | @ask i q ht hp => exact h.of_set ht ⟨q, .asking⟩ (fun v => rfl) (fun v => rfl)
  | @settle i q ht =>
    exact h.of_set ht ⟨q, .settled (s.outcome q)⟩ (fun v => rfl) (fun v => rfl)
  | record ht => exact h.record hr ht
  | send ht => exact h.send ht
  | @spread i q c owed ht =>
    -- the probe leaves the task that owes it and has one of its own
    have hnote := r.note_kept s st (e := .spread i) nofun nofun
    refine h.of_same rfl (fun v => ?_) (fun v => ?_) hnote.1 hnote.2
    · have hset := total_set (f := Task.unrecorded v) ht ⟨q, .spreading owed⟩
      have hold : Task.unrecorded v ⟨q, .spreading (c :: owed)⟩ = asksOf v [c] + asksOf v owed :=
        asksOf_cons v c owed
      have hleft : Task.unrecorded v ⟨q, .spreading owed⟩ = asksOf v owed := rfl
      have hnew : Task.unrecorded v ⟨c, .waiting⟩ = asksOf v [c] := rfl
      simp only [State.unrecorded, total_append, total_cons, total_nil]
      omega
    · have hnew : Task.granting v ⟨c, .waiting⟩ = 0 := rfl
      simp only [total_append, total_cons, total_nil, hnew, Nat.add_zero]
      exact total_set_of_eq ht _ rfl
  | @retire i t ht hp =>
    have hnote := r.note_kept s st (e := .retire i) nofun nofun
    refine h.of_same rfl (fun v => ?_) (fun v => ?_) hnote.1 hnote.2
    · have herase := total_eraseIdx (f := Task.unrecorded v) ht
      have hzero := (shares_of_ending hp v).1
      simp only [State.unrecorded]
      omega
    · have herase := total_eraseIdx (f := Task.granting v) ht
      have hzero := (shares_of_ending hp v).2
      dsimp only
      omega
  | collect hc hf => exact h.of_same rfl (fun v => rfl) (fun v => rfl) rfl rfl
  | finish hc ht ho hf => exact h.of_same rfl (fun v => rfl) (fun v => rfl) rfl rfl

theorem along (h : Accounted s qs st r) (hr : Registered s qs st r) {es : List Event}
    (hrun : run s st es = some st') : Accounted s qs st' (r.along s st es) := by
  induction es generalizing st r with
  | nil =>
    simp only [run, Option.some.injEq] at hrun
    subst hrun
    exact h
  | cons e es ih =>
    simp only [run, Option.bind_eq_some_iff] at hrun
    obtain ⟨next, he, hes⟩ := hrun
    have hm := move_of_step he
    have hrest := ih (h.move hr hm) (hr.move hm) hes
    simpa [Register.along, he] using hrest

/-- Only denials are put again in the namespaces. -/
theorem fanouts_le (h : Accounted s qs st r) (v : Verb) :
    st.tally.fanoutCount v ≤ st.tally.count v .denied := by
  rw [h.fanouts, h.answers]
  refine List.countP_mono_left fun x _ hx => ?_
  simp only [decide_eq_true_eq] at hx ⊢
  exact ⟨hx.1, hx.2.2⟩

/-- Every answer is counted once under its verb. -/
theorem answers_sum (h : Accounted s qs st r) (v : Verb) :
    st.tally.count v .allowed + st.tally.count v .denied + st.tally.count v .failed =
      asksOf v (r.answers.map Answered.question) := by
  rw [h.answers, h.answers, h.answers]
  induction r.answers with
  | nil => rfl
  | cons x xs ih =>
    have hone := Tally.one_outcome (x.question.verb = v) x.outcome
    rw [List.map_cons, asksOf_cons, asksOf_singleton, ← ih]
    simp only [List.countP_cons, decide_eq_true_eq]
    omega

end Accounted

theorem accounted_of_run {es : List Event} (h : run s (.initial s qs) es = some st) :
    Accounted s qs st (register s qs es) :=
  (Accounted.initial s qs).along (registered_initial s qs) h

-- ---------------------------------------------------------------------------
-- From one wait to the next
-- ---------------------------------------------------------------------------

/-- An event of the machine, where the record of an allowance takes its grant along. -/
def act (s : Setting) (st : State) : Event → Option State
  | .record i => (step s st (.record i)).map fun next => (step s next (.send i)).getD next
  | .send _ => none
  | e => step s st e

/-- A schedule of acts. -/
def acts (s : Setting) (st : State) : List Event → Option State
  | [] => some st
  | e :: es => (act s st e).bind fun next => acts s next es

/-- No task has a grant that it could send at once. -/
def Quiet (st : State) : Prop := ∀ t ∈ st.tasks, t.phase ≠ .granting

theorem Quiet.of_set (h : Quiet st) {i : Nat} {t : Task} (ht : t.phase ≠ .granting) :
    ∀ u ∈ st.tasks.set i t, u.phase ≠ .granting := by
  intro u hu
  rcases List.mem_or_eq_of_mem_set hu with hu | rfl
  · exact h u hu
  · exact ht

theorem quiet_concat {tasks : List Task} (h : ∀ u ∈ tasks, u.phase ≠ .granting) {q : Question} :
    ∀ u ∈ tasks ++ [⟨q, .waiting⟩], u.phase ≠ .granting := by
  intro u hu
  rcases List.mem_append.mp hu with hu | hu
  · exact h u hu
  · rw [List.mem_singleton.mp hu]
    exact nofun

theorem Quiet.total_eq_zero (h : Quiet st) (v : Verb) : total (Task.granting v) st.tasks = 0 := by
  by_contra hpos
  obtain ⟨i, t, ht, hshare⟩ := exists_of_total_pos (Nat.pos_of_ne_zero hpos)
  have hphase := h t (List.mem_of_getElem? ht)
  unfold Task.granting at hshare
  split at hshare
  · next hg => exact hphase hg
  all_goals omega

/-- An act is a step that leaves no grant behind its record, or a record and its grant. -/
theorem moves_of_act (h : act s st e = some st') :
    (Move s st e st' ∧ ∀ i, e = .record i → step s st' (.send i) = none) ∨
      ∃ i next, Move s st (.record i) next ∧ Move s next (.send i) st' := by
  cases e with
  | record i =>
    obtain ⟨next, hnext, rfl⟩ := Option.map_eq_some_iff.mp h
    have hm := move_of_step hnext
    cases hsend : step s next (.send i) with
    | none =>
      refine .inl ⟨hm, fun j hj => ?_⟩
      obtain rfl := Event.record.inj hj
      exact hsend
    | some sent => exact .inr ⟨i, next, hm, move_of_step hsend⟩
  | send i => cases h
  | start | close | collect | finish | ask _ | settle _ | spread _ | retire _ =>
    exact .inl ⟨move_of_step (by exact h), nofun⟩

/-- A step leaves no grant to be sent, unless it is a record. -/
theorem Quiet.move (h : Quiet st) (hm : Move s st e st')
    (hnone : ∀ i, e = .record i → step s st' (.send i) = none) : Quiet st' := by
  cases hm with
  | start => exact quiet_concat h
  | spread =>
    refine quiet_concat (h.of_set ?_)
    exact nofun
  | @record i q o ht =>
    -- a grant behind the record could be sent at once
    refine h.of_set fun hg => ?_
    have hplace : (st.tasks.set i ⟨q, afterRecord s q o⟩)[i]? = some ⟨q, .granting⟩ := by
      rw [List.getElem?_set_self (List.getElem?_eq_some_iff.mp ht).1]
      exact congrArg (fun p => some (Task.mk q p)) hg
    have hsend : ∃ next, Move s { st with
        tasks := st.tasks.set i ⟨q, afterRecord s q o⟩
        tally := st.tally.recordQuestion q o } (.send i) next := ⟨_, .send hplace⟩
    obtain ⟨next, hsend⟩ := hsend
    exact absurd ((hnone i rfl).symm.trans (step_of_move hsend)) nofun
  | close | collect | finish => exact h
  | ask | settle | send => exact h.of_set nofun
  | retire => exact fun u hu => h u (List.mem_of_mem_eraseIdx hu)

theorem Quiet.act (h : Quiet st) (he : act s st e = some st') : Quiet st' := by
  rcases moves_of_act he with ⟨hm, hnone⟩ | ⟨i, next, hrecord, hsend⟩
  · exact h.move hm hnone
  · -- the task is set twice at its place
    cases hrecord with
    | @record _ q o ht =>
      cases hsend with
      | send ht' =>
        dsimp only
        rw [List.set_set]
        exact h.of_set nofun

theorem Reachable.act (h : Reachable s qs st) (he : act s st e = some st') :
    Reachable s qs st' := by
  rcases moves_of_act he with ⟨hm, -⟩ | ⟨i, next, hrecord, hsend⟩
  · exact h.move hm
  · exact (h.move hrecord).move hsend

theorem quiet_of_acts {es : List Event} (hreach : Reachable s qs st) (h : Quiet st)
    (hacts : acts s st es = some st') : Reachable s qs st' ∧ Quiet st' := by
  induction es generalizing st with
  | nil =>
    simp only [acts, Option.some.injEq] at hacts
    subst hacts
    exact ⟨hreach, h⟩
  | cons e es ih =>
    simp only [acts, Option.bind_eq_some_iff] at hacts
    obtain ⟨next, he, hes⟩ := hacts
    exact ih (hreach.act he) (h.act he) hes

-- ---------------------------------------------------------------------------
-- Both together
-- ---------------------------------------------------------------------------

/--
**The counters account for the probes.** Wherever a schedule leads, and for each verb:
what is recorded as allowed, denied and failed and what is not recorded yet are
together as many as the root questions and one for each namespace and fan-out;
fan-outs are the denials for the whole cluster, and no more than the denials; and
what is recorded as allowed has been sent as a grant, unless its task is between
the two. When the grants are handed over they are as many as were recorded, and
every question that was put is recorded.

Where nothing comes between a record and its grant, what is recorded as allowed is
at any time what has been sent: the grants in the channel and those collected.
-/
theorem accounts_kept (s : Setting) (qs : List Question) :
    (∀ es st, run s (.initial s qs) es = some st →
      Accounted s qs st (register s qs es) ∧
      (register s qs es).sent = st.grants ++ st.channel ∧
      (∀ v, st.tally.fanoutCount v ≤ st.tally.count v .denied) ∧
      (st.finished = true → ∀ v,
        st.tally.count v .allowed = st.grants.countP (·.verb = v) ∧
        st.tally.count v .allowed + st.tally.count v .denied + st.tally.count v .failed =
          st.asked.countP (·.verb = v))) ∧
    ∀ es st, acts s (.initial s qs) es = some st → Reachable s qs st ∧
      ∀ v, st.tally.count v .allowed = (st.grants ++ st.channel).countP (·.verb = v) := by
  constructor
  · intro es st h
    have hr := registered_of_run h
    have ha := accounted_of_run h
    have hc : Closed st := Reachable.closed ⟨es, h⟩
    refine ⟨ha, hr.sent.symm, ha.fanouts_le, fun hf v => ⟨?_, ?_⟩⟩
    · have hgrants := ha.grants v
      rw [← hr.sent, hc.channel hf, hc.tasks hf, List.append_nil, total_nil] at hgrants
      exact hgrants
    · have hperm : st.asked.Perm ((register s qs es).answers.map Answered.question) := by
        rw [List.perm_iff_count]
        intro x
        rw [hr.asked, hc.tasks hf, total_nil, Nat.add_zero]
      rw [ha.answers_sum]
      exact (hperm.countP_eq _).symm
  · intro es st h
    -- with no task granting, the counter and the channel agree
    have hstart : Quiet (.initial s qs) := nofun
    obtain ⟨hreach, hquiet⟩ := quiet_of_acts (.initial s qs) hstart h
    obtain ⟨before, hbefore⟩ := hreach
    refine ⟨⟨before, hbefore⟩, fun v => ?_⟩
    rw [(accounted_of_run hbefore).grants v, ← (registered_of_run hbefore).sent,
      hquiet.total_eq_zero, Nat.add_zero]

/-- One team's probe is recorded with its grant, and the other's is still owed. -/
def firstChild : List Event :=
  [.start, .close, .ask 0, .settle 0, .record 0, .spread 0, .ask 1, .settle 1, .record 1]

/-- The account is balanced before the second team's probe has begun, and at the end. -/
theorem twoTeams_accounts :
    (∃ st, run twoTeams (.initial twoTeams [readSecrets]) earlyChild = some st ∧
      st.tally.count .get .allowed = st.grants.countP (·.verb = .get) ∧
      st.asked.countP (·.verb = .get) = 3) ∧
    ∃ st, acts twoTeams (.initial twoTeams [readSecrets]) firstChild = some st ∧
      st.unrecorded .get = 1 ∧ st.tally.count .get .allowed = 1 ∧
      (st.grants ++ st.channel).countP (·.verb = .get) = 1 := by
  have hall : (run twoTeams (.initial twoTeams [readSecrets]) earlyChild).map (fun st =>
      (st.finished, st.tally.count .get .allowed + st.tally.count .get .denied +
        st.tally.count .get .failed)) = some (true, 3) := by decide +kernel
  have hpart : (acts twoTeams (.initial twoTeams [readSecrets]) firstChild).map (fun st =>
      (st.unrecorded .get, st.tally.count .get .allowed)) = some (1, 1) := by decide +kernel
  obtain ⟨hruns, hacts⟩ := accounts_kept twoTeams [readSecrets]
  constructor
  · obtain ⟨st, hrun, heq⟩ := Option.map_eq_some_iff.mp hall
    obtain ⟨-, -, -, hend⟩ := hruns earlyChild st hrun
    obtain ⟨hallowed, hasked⟩ := hend (congrArg Prod.fst heq) .get
    exact ⟨st, hrun, hallowed, hasked.symm.trans (congrArg Prod.snd heq)⟩
  · obtain ⟨st, hrun, heq⟩ := Option.map_eq_some_iff.mp hpart
    obtain ⟨-, hallowed⟩ := hacts firstChild st hrun
    have hone : st.tally.count .get .allowed = 1 := congrArg Prod.snd heq
    exact ⟨st, hrun, congrArg Prod.fst heq, hone, (hallowed .get).symm.trans hone⟩

end WatchGate.Probe
