import Mathlib.Data.List.Perm.Basic
import WatchGate.Probe.Reference
import WatchGate.Proofs.Probe.Moves

/-!
# WatchGate — what a run of probes asks and grants

Tasks take permits, run and end in any order, and new ones join while others
are on their way. What no order changes are two balances. A question that was
not put yet is at the root, with a task that waits, or owed by a task; a grant
that was not collected yet is in the channel or promised by a task. `pending`
and `promised` say what a task holds of each in every phase, and `Balanced`
says that nothing is lost and nothing is counted twice.

At the end all that is held is gone, so what was asked is fixed by itself: it
is the root questions and what the asked questions owe. For namespaces that
have a name this has one solution, the sequential account of
`Probe.Reference`.

Main results:

* `Reachable.asked_perm` and `Reachable.grants_perm` — a finished run asked the
  root questions and what their denials owe, and collected the grants of what
  it asked. Any list of namespaces.
* `Reachable.asked_perm_allAsked` and `Reachable.grants_perm_allGranted` — the
  same as the sequential account, where every namespace has a name.
* `Setting.asked_eq` and `Setting.granted_eq` — the recursion that the
  sequential account is a solution of.
-/

namespace WatchGate.Probe

variable {s : Setting} {qs : List Question} {st st' : State} {e : Event}

-- ---------------------------------------------------------------------------
-- What a task holds
-- ---------------------------------------------------------------------------

/-- The questions that follow from putting a question. -/
def Setting.owes (s : Setting) (q : Question) : List Question :=
  if s.outcome q = .denied then s.children q else []

/-- The questions that a task has still to put or to hand on. -/
def Task.pending (s : Setting) (t : Task) : List Question :=
  match t.phase with
  | .waiting => [t.question]
  | .asking => s.owes t.question
  | .settled o => if o = .denied then s.children t.question else []
  | .spreading owed => owed
  | .granting | .ending => []

/-- The grants that a task has still to send. -/
def Task.promised (s : Setting) (t : Task) : List Grant :=
  match t.phase with
  | .asking => s.ownGrants t.question
  | .settled o => if o = .allowed then [t.question.grant] else []
  | .granting => [t.question.grant]
  | .waiting | .spreading _ | .ending => []

/-- A question is allowed by an allowance that is in time. -/
theorem Setting.outcome_eq_allowed_iff {q : Question} : s.outcome q = .allowed ↔
    (s.decide q).verdict = .allow ∧ (s.decide q).delay ≤ s.limits.timeout := by
  unfold Setting.outcome Setting.late
  rw [← Nat.not_lt]
  by_cases hl : s.limits.timeout < (s.decide q).delay
  · simp [hl]
  · cases (s.decide q).verdict <;> simp [hl]

/-- And denied by a denial that is in time. -/
theorem Setting.outcome_eq_denied_iff {q : Question} : s.outcome q = .denied ↔
    (s.decide q).verdict = .deny ∧ (s.decide q).delay ≤ s.limits.timeout := by
  unfold Setting.outcome Setting.late
  rw [← Nat.not_lt]
  by_cases hl : s.limits.timeout < (s.decide q).delay
  · simp [hl]
  · cases (s.decide q).verdict <;> simp [hl]

section Phases

variable (s : Setting) (q : Question) (o : Outcome) (owed : List Question)

@[simp] theorem pending_waiting : Task.pending s ⟨q, .waiting⟩ = [q] := rfl

@[simp] theorem pending_asking : Task.pending s ⟨q, .asking⟩ = s.owes q := rfl

@[simp] theorem pending_settled :
    Task.pending s ⟨q, .settled o⟩ = if o = .denied then s.children q else [] := rfl

@[simp] theorem pending_granting : Task.pending s ⟨q, .granting⟩ = [] := rfl

@[simp] theorem pending_spreading : Task.pending s ⟨q, .spreading owed⟩ = owed := rfl

@[simp] theorem pending_ending : Task.pending s ⟨q, .ending⟩ = [] := rfl

@[simp] theorem promised_waiting : Task.promised s ⟨q, .waiting⟩ = [] := rfl

@[simp] theorem promised_asking : Task.promised s ⟨q, .asking⟩ = s.ownGrants q := rfl

@[simp] theorem promised_settled :
    Task.promised s ⟨q, .settled o⟩ = if o = .allowed then [q.grant] else [] := rfl

@[simp] theorem promised_granting : Task.promised s ⟨q, .granting⟩ = [q.grant] := rfl

@[simp] theorem promised_spreading : Task.promised s ⟨q, .spreading owed⟩ = [] := rfl

@[simp] theorem promised_ending : Task.promised s ⟨q, .ending⟩ = [] := rfl

end Phases

theorem Setting.ownGrants_eq (s : Setting) (q : Question) :
    s.ownGrants q = if s.outcome q = .allowed then [q.grant] else [] := by
  unfold Setting.ownGrants
  cases s.outcome q <;> simp

/-- A denial in a namespace owes nothing. -/
theorem Setting.children_eq_nil {q : Question} (h : q.clusterWide = false) :
    s.children q = [] := by
  simp [Setting.children, h]

/-- To record an outcome changes nothing about what a task has still to hand on. -/
theorem pending_afterRecord (s : Setting) (q : Question) (o : Outcome) :
    Task.pending s ⟨q, afterRecord s q o⟩ = Task.pending s ⟨q, .settled o⟩ := by
  cases o with
  | allowed => rfl
  | failed => rfl
  | denied =>
    cases hq : q.clusterWide with
    | true => simp [afterRecord, hq]
    | false => simp [afterRecord, hq, Setting.children_eq_nil hq]

/-- Nor about what it has still to send. -/
theorem promised_afterRecord (s : Setting) (q : Question) (o : Outcome) :
    Task.promised s ⟨q, afterRecord s q o⟩ = Task.promised s ⟨q, .settled o⟩ := by
  cases o with
  | allowed => rfl
  | failed => rfl
  | denied => cases hq : q.clusterWide <;> simp [afterRecord, hq]

/-- Nothing is pending or promised with a task that may end. -/
theorem pending_of_ending {t : Task} (h : t.phase = .ending ∨ t.phase = .spreading []) :
    t.pending s = [] ∧ t.promised s = [] := by
  rcases h with h | h <;> simp [Task.pending, Task.promised, h]

-- ---------------------------------------------------------------------------
-- The balances
-- ---------------------------------------------------------------------------

/-- How often a question is pending with a task. -/
def Task.pendingCount (s : Setting) (x : Question) (t : Task) : Nat := (t.pending s).count x

/-- How often a grant is promised by a task. -/
def Task.promisedCount (s : Setting) (g : Grant) (t : Task) : Nat := (t.promised s).count g

/-- Nothing is lost and nothing is counted twice, neither of the questions nor
of the grants. -/
structure Balanced (s : Setting) (qs : List Question) (st : State) : Prop where
  questions : ∀ x, st.roots.count x + total (Task.pendingCount s x) st.tasks + st.asked.count x
    = qs.count x + (st.asked.flatMap s.owes).count x
  grants : ∀ g, total (Task.promisedCount s g) st.tasks + st.channel.count g + st.grants.count g
    = (st.asked.flatMap s.ownGrants).count g

/-- A task that changes at its place, puts questions and sends grants keeps both
balances if it does so for itself: what it put it held before, and holds what
follows from it; what it sent it had promised, unless it promises it only now. -/
theorem Balanced.exchange (hb : Balanced s qs st) {i : Nat} {t : Task}
    (ht : st.tasks[i]? = some t) (t' : Task) (put : List Question) (sent : List Grant)
    (permits : Option Nat) (tally : Tally)
    (hp : ∀ x, t'.pendingCount s x + put.count x =
      t.pendingCount s x + (put.flatMap s.owes).count x)
    (hg : ∀ g, t'.promisedCount s g + sent.count g =
      t.promisedCount s g + (put.flatMap s.ownGrants).count g) :
    Balanced s qs { st with
      permits, tally
      tasks := st.tasks.set i t'
      asked := st.asked ++ put
      channel := st.channel ++ sent } := by
  constructor
  · intro x
    have hx := hb.questions x
    have hset := total_set (f := Task.pendingCount s x) ht t'
    have hown := hp x
    simp only [List.flatMap_append, List.count_append]
    omega
  · intro g
    have hx := hb.grants g
    have hset := total_set (f := Task.promisedCount s g) ht t'
    have hown := hg g
    simp only [List.flatMap_append, List.count_append]
    omega

/-- A task that changes and holds as much as before leaves both balances alone. -/
theorem Balanced.of_set (hb : Balanced s qs st) {i : Nat} {t t' : Task}
    (ht : st.tasks[i]? = some t) (hp : t'.pending s = t.pending s)
    (hg : t'.promised s = t.promised s) {permits : Option Nat} {tally : Tally} :
    Balanced s qs { st with permits, tally, tasks := st.tasks.set i t' } := by
  have hsame := hb.exchange ht t' [] [] permits tally (fun x => by simp [Task.pendingCount, hp])
    (fun g => by simp [Task.promisedCount, hg])
  simpa only [List.append_nil] using hsame

/-- A probe that joins brings its question and no grant. -/
theorem Balanced.join {roots : List Question} {tasks : List Task} {q : Question}
    (hq : ∀ x, roots.count x + total (Task.pendingCount s x) tasks + [q].count x =
      st.roots.count x + total (Task.pendingCount s x) st.tasks)
    (hg : ∀ g, total (Task.promisedCount s g) tasks = total (Task.promisedCount s g) st.tasks)
    (hb : Balanced s qs st) :
    Balanced s qs { st with roots, tasks := tasks ++ [⟨q, .waiting⟩] } := by
  constructor
  · intro x
    have hx := hb.questions x
    have hfrom := hq x
    have hnew : Task.pendingCount s x ⟨q, .waiting⟩ = [q].count x := rfl
    simp only [total_append, total_cons, total_nil]
    omega
  · intro g
    have hx := hb.grants g
    have hsame := hg g
    have hnew : Task.promisedCount s g ⟨q, .waiting⟩ = 0 := rfl
    simp only [total_append, total_cons, total_nil]
    omega

theorem Balanced.move (hb : Balanced s qs st) (hm : Move s st e st') : Balanced s qs st' := by
  cases hm with
  | @start q rest hr ho =>
    -- the question leaves the root
    refine .join (fun x => ?_) (fun g => rfl) hb
    rw [hr]
    simp only [List.count_cons, List.count_nil]
    omega
  | close hr ho => exact ⟨hb.questions, hb.grants⟩
  | @ask i q ht hp =>
    -- the question is asked, and the task holds what follows from it
    have hask := hb.exchange ht ⟨q, .asking⟩ [q] [] (st.permits.map (· - 1)) st.tally
      (fun x => by simp [Task.pendingCount, Nat.add_comm]) (fun g => by simp [Task.promisedCount])
    simpa only [List.append_nil] using hask
  | @settle i q ht =>
    have hq : Task.pending s ⟨q, .settled (s.outcome q)⟩ = Task.pending s ⟨q, .asking⟩ := rfl
    have hg : Task.promised s ⟨q, .settled (s.outcome q)⟩ = Task.promised s ⟨q, .asking⟩ := by
      rw [promised_settled, promised_asking, Setting.ownGrants_eq]
    exact hb.of_set ht hq hg
  | @record i q o ht =>
    exact hb.of_set ht (pending_afterRecord s q o) (promised_afterRecord s q o)
  | @send i q ht =>
    -- the grant goes from the task into the channel
    have hsend := hb.exchange ht ⟨q, .ending⟩ [] [q.grant] st.permits st.tally
      (fun x => by simp [Task.pendingCount]) (fun g => by simp [Task.promisedCount])
    simpa only [List.append_nil] using hsend
  | @spread i q c owed ht =>
    -- the question leaves the task that owes it
    refine .join (fun x => ?_) (fun g => ?_) hb
    · have hset := total_set (f := Task.pendingCount s x) ht ⟨q, .spreading owed⟩
      have hold : Task.pendingCount s x ⟨q, .spreading (c :: owed)⟩ = (c :: owed).count x := rfl
      have hnew : Task.pendingCount s x ⟨q, .spreading owed⟩ = owed.count x := rfl
      simp only [List.count_cons, List.count_nil] at *
      omega
    · have hset := total_set (f := Task.promisedCount s g) ht ⟨q, .spreading owed⟩
      have hold : Task.promisedCount s g ⟨q, .spreading (c :: owed)⟩ = 0 := rfl
      have hnew : Task.promisedCount s g ⟨q, .spreading owed⟩ = 0 := rfl
      omega
  | @retire i t ht hp =>
    obtain ⟨hq, hg⟩ := pending_of_ending (s := s) hp
    constructor
    · intro x
      have hx := hb.questions x
      have herase := total_eraseIdx (f := Task.pendingCount s x) ht
      have hold : t.pendingCount s x = 0 := by rw [Task.pendingCount, hq]; rfl
      dsimp only
      omega
    · intro g
      have hx := hb.grants g
      have herase := total_eraseIdx (f := Task.promisedCount s g) ht
      have hold : t.promisedCount s g = 0 := by rw [Task.promisedCount, hg]; rfl
      dsimp only
      omega
  | @collect g' rest hc hf =>
    -- from the channel to the root
    refine ⟨hb.questions, ?_⟩
    intro g
    have hx := hb.grants g
    rw [hc] at hx
    simp only [List.count_append, List.count_cons, List.count_nil] at *
    omega
  | finish hc ht ho hf => exact ⟨hb.questions, hb.grants⟩

theorem Reachable.balanced (h : Reachable s qs st) : Balanced s qs st := by
  refine h.invariant ⟨?_, ?_⟩ fun st e st' hb hm => hb.move hm
  · intro x
    simp [State.initial]
  · intro g
    simp [State.initial]

/-- A grant that was sent is that of a question that was put and allowed. -/
theorem Reachable.exists_asked (h : Reachable s qs st) {g : Grant}
    (hg : g ∈ st.channel ++ st.grants) : ∃ q ∈ st.asked, s.outcome q = .allowed ∧ q.grant = g := by
  have hpos : 0 < st.channel.count g + st.grants.count g := by
    rw [← List.count_append]
    exact List.count_pos_iff.mpr hg
  have hbalance := h.balanced.grants g
  have hmem : g ∈ st.asked.flatMap s.ownGrants := by
    rw [← List.count_pos_iff]
    omega
  obtain ⟨q, hq, hown⟩ := List.mem_flatMap.mp hmem
  rw [Setting.ownGrants_eq] at hown
  split at hown
  · next ha => exact ⟨q, hq, ha, (List.mem_singleton.mp hown).symm⟩
  · cases hown

-- ---------------------------------------------------------------------------
-- Finished runs
-- ---------------------------------------------------------------------------

/-- A finished run asked the root questions and what its own questions owe. -/
theorem Reachable.asked_perm (h : Reachable s qs st) (hf : st.finished = true) :
    st.asked.Perm (qs ++ st.asked.flatMap s.owes) := by
  have hc := h.closed
  rw [List.perm_iff_count]
  intro x
  have hx := h.balanced.questions x
  rw [hc.roots (hc.sender hf), hc.tasks hf] at hx
  simp only [List.count_nil, total_nil] at hx
  rw [List.count_append]
  omega

/-- A finished run collected the grants of what it asked, and nothing else. -/
theorem Reachable.grants_perm (h : Reachable s qs st) (hf : st.finished = true) :
    st.grants.Perm (st.asked.flatMap s.ownGrants) := by
  have hc := h.closed
  rw [List.perm_iff_count]
  intro g
  have hg := h.balanced.grants g
  rw [hc.tasks hf, hc.channel hf] at hg
  simp only [List.count_nil, total_nil] at hg
  omega

-- ---------------------------------------------------------------------------
-- The sequential account
-- ---------------------------------------------------------------------------

/-- Every namespace that is listed has a name. -/
def Setting.Named (s : Setting) : Prop := ∀ n ∈ s.namespaces, n ≠ ""

/-- A question that was moved to a namespace with a name is not about the whole cluster. -/
theorem clusterWide_of_mem_children (hn : s.Named) {q c : Question} (h : c ∈ s.children q) :
    c.clusterWide = false := by
  unfold Setting.children at h
  split at h
  · obtain ⟨n, hm, rfl⟩ := List.mem_map.mp h
    have := hn n hm
    simpa [Question.clusterWide, Question.inNamespace] using this
  · cases h

/-- Where every namespace has a name, what is owed owes nothing. -/
theorem owes_of_mem_owes (hn : s.Named) {q c : Question} (h : c ∈ s.owes q) : s.owes c = [] := by
  unfold Setting.owes at h ⊢
  split at h
  · rw [Setting.children_eq_nil (clusterWide_of_mem_children hn h)]
    exact ite_self _
  · cases h

theorem Setting.asked_eq_cons (s : Setting) (q : Question) : s.asked q = q :: s.owes q := by
  unfold Setting.asked Setting.owes
  cases s.outcome q <;> simp

theorem Setting.granted_eq_flatMap (s : Setting) (q : Question) :
    s.granted q = (s.asked q).flatMap s.ownGrants := by
  rw [Setting.asked_eq_cons]
  cases h : s.outcome q <;> simp [Setting.granted, Setting.owes, Setting.ownGrants, h]

theorem Setting.mem_children_iff {q c : Question} :
    c ∈ s.children q ↔ q.ns = "" ∧ ∃ n ∈ s.namespaces, q.inNamespace n = c := by
  unfold Setting.children Question.clusterWide
  split
  · next h => simp [String.isEmpty_iff.mp h]
  · next h => simp [mt String.isEmpty_iff.mpr h]

/-- A grant comes from the question, or from the same one in a namespace. -/
theorem Setting.mem_granted_iff {q : Question} {g : Grant} : g ∈ s.granted q ↔
    (s.outcome q = .allowed ∧ g = q.grant) ∨
      (s.outcome q = .denied ∧ ∃ c ∈ s.children q, s.outcome c = .allowed ∧ g = c.grant) := by
  rw [Setting.granted_eq_flatMap, Setting.asked_eq_cons, Setting.owes, List.mem_flatMap]
  simp only [Setting.ownGrants_eq, List.mem_cons]
  cases h : s.outcome q <;> simp [h]

/-- The root questions and what they owe are all that a finished run asked. -/
theorem Reachable.asked_perm_owes (hn : s.Named) (h : Reachable s qs st)
    (hf : st.finished = true) : st.asked.Perm (qs ++ qs.flatMap s.owes) := by
  have hp := h.asked_perm hf
  -- what is owed owes nothing, so one turn of the recursion is enough
  have hnil : (st.asked.flatMap s.owes).flatMap s.owes = [] := by
    rw [List.flatMap_eq_nil_iff]
    intro c hc
    obtain ⟨q, -, hq⟩ := List.mem_flatMap.mp hc
    exact owes_of_mem_owes hn hq
  have howed : (st.asked.flatMap s.owes).Perm (qs.flatMap s.owes) := by
    have := hp.flatMap_right s.owes
    rwa [List.flatMap_append, hnil, List.append_nil] at this
  exact hp.trans (howed.append_left qs)

/-- The questions that a finished run asked are those of the sequential account. -/
theorem Reachable.asked_perm_allAsked (hn : s.Named) (h : Reachable s qs st)
    (hf : st.finished = true) : st.asked.Perm (s.allAsked qs) := by
  have hall : s.allAsked qs = qs.flatMap fun q => q :: s.owes q := by
    unfold Setting.allAsked
    congr 1
    funext q
    exact s.asked_eq_cons q
  rw [hall]
  have hone := List.map_append_flatMap_perm qs id s.owes
  rw [List.map_id] at hone
  exact (h.asked_perm_owes hn hf).trans hone

/-- The grants that a finished run collected are those of the sequential account. -/
theorem Reachable.grants_perm_allGranted (hn : s.Named) (h : Reachable s qs st)
    (hf : st.finished = true) : st.grants.Perm (s.allGranted qs) := by
  have hall : s.allGranted qs = (s.allAsked qs).flatMap s.ownGrants := by
    unfold Setting.allGranted Setting.allAsked
    rw [List.flatMap_assoc]
    congr 1
    funext q
    exact s.granted_eq_flatMap q
  rw [hall]
  exact (h.grants_perm hf).trans ((h.asked_perm_allAsked hn hf).flatMap_right _)

/-- The questions of a root question, by recursion: a denial for the whole
cluster is followed by the questions of each namespace. -/
theorem Setting.asked_eq (hn : s.Named) (q : Question) :
    s.asked q = q :: if s.outcome q = .denied ∧ q.clusterWide then
      s.namespaces.flatMap fun n => s.asked (q.inNamespace n) else [] := by
  rw [Setting.asked_eq_cons]
  unfold Setting.owes Setting.children
  by_cases hd : s.outcome q = .denied
  · cases hq : q.clusterWide with
    | false => simp [hd]
    | true =>
      have hone : ∀ n ∈ s.namespaces, s.asked (q.inNamespace n) = [q.inNamespace n] := by
        intro n hm
        have hc : q.inNamespace n ∈ s.owes q := by
          simpa [Setting.owes, Setting.children, hd, hq] using ⟨n, hm, rfl⟩
        rw [Setting.asked_eq_cons, owes_of_mem_owes hn hc]
      simp only [hd, if_true, and_self, List.cons.injEq, true_and]
      rw [List.flatMap_congr hone, List.map_eq_flatMap]
  · simp [hd]

/-- The grants of a root question, by the same recursion. -/
theorem Setting.granted_eq (hn : s.Named) (q : Question) :
    s.granted q = match s.outcome q with
      | .allowed => [q.grant]
      | .failed => []
      | .denied =>
        if q.clusterWide then s.namespaces.flatMap fun n => s.granted (q.inNamespace n)
        else [] := by
  cases h : s.outcome q with
  | allowed => simp [Setting.granted, Setting.ownGrants, h]
  | failed => simp [Setting.granted, Setting.ownGrants, h]
  | denied =>
    rw [Setting.granted_eq_flatMap, Setting.asked_eq hn q]
    have hown : s.ownGrants q = [] := by simp [Setting.ownGrants, h]
    cases hq : q.clusterWide with
    | false => simp [hown]
    | true =>
      simp only [h, and_self, if_true, List.flatMap_cons, hown, List.nil_append,
        List.flatMap_assoc, Setting.granted_eq_flatMap]

end WatchGate.Probe
