import Mathlib.Algebra.BigOperators.Group.List.Basic
import Mathlib.Tactic.Ring
import WatchGate.Probe.Timeline
import WatchGate.Proofs.Probe.Progress

/-!
# WatchGate — the machine beside a clock

`Setting.report` runs probes against a clock: the line of questions, the calls
in flight and the instants at which they end decide what happens next. Here
what the clock does is found among the moves of `Probe.Machine`. `Stands` says
how a state of the machine matches an instant: the questions in line are its
tasks that wait, and the calls in flight its tasks that ask. When calls end at
one instant the clock drops them all before it takes account of the first, so
`Stands` keeps the calls that are over for the clock and not yet for the
machine apart.

A start and an advance of the clock are each led to by moves (`Leads`), and
`Timeline.potential` shows that the turns are enough for the clock to come to a
stop.

Main results:

* `exists_stands`, `Stands.start` and `Stands.advance` — the machine can stand
  beside the clock at first, and stay beside it.
* `go_done` — the clock stops with nothing in line and no call in flight.
-/

namespace WatchGate.Probe

variable {s : Setting} {qs : List Question} {st st' : State}

-- ---------------------------------------------------------------------------
-- Some schedule from one state to another
-- ---------------------------------------------------------------------------

/-- Some schedule leads from one state to another. -/
def Leads (s : Setting) (st st' : State) : Prop := ∃ es, run s st es = some st'

theorem Leads.refl (s : Setting) (st : State) : Leads s st st := ⟨[], rfl⟩

theorem Leads.trans {st₁ st₂ st₃ : State} (h : Leads s st₁ st₂) (h' : Leads s st₂ st₃) :
    Leads s st₁ st₃ := by
  obtain ⟨es, hes⟩ := h
  obtain ⟨es', hes'⟩ := h'
  refine ⟨es ++ es', ?_⟩
  rw [run_append, hes]
  exact hes'

theorem Move.leads {e : Event} (hm : Move s st e st') : Leads s st st' :=
  ⟨[e], by rw [run, step_of_move hm]; rfl⟩

/-- A task has a place, where it can be exchanged for another or taken out. -/
theorem exists_place {ts rest : List Task} {t : Task} (h : ts.Perm (t :: rest)) :
    ∃ i : Nat, ts[i]? = some t ∧ (∀ t', (ts.set i t').Perm (t' :: rest)) ∧
      (ts.eraseIdx i).Perm rest := by
  have hm : t ∈ ts := h.mem_iff.mpr List.mem_cons_self
  obtain ⟨i, hi, ht⟩ := List.mem_iff_getElem.mp hm
  have herase : (ts.eraseIdx i).Perm rest := by
    have hpick := List.getElem_cons_eraseIdx_perm hi
    rw [ht] at hpick
    exact (hpick.trans h).cons_inv
  refine ⟨i, List.getElem?_eq_some_iff.mpr ⟨hi, ht⟩, fun t' => ?_, herase⟩
  exact (List.set_perm_cons_eraseIdx hi t').trans (herase.cons t')

/-- A probe that has no permit yet. -/
abbrev Task.waiting (q : Question) : Task := ⟨q, .waiting⟩

/-- A probe whose question is with the authorizer. -/
abbrev Task.asking (q : Question) : Task := ⟨q, .asking⟩

/-- A task that may end, ends. -/
theorem leads_retire {rest : List Task} {t : Task} (h : st.tasks.Perm (t :: rest))
    (hp : t.phase = .ending ∨ t.phase = .spreading []) :
    ∃ ts, Leads s st { st with tasks := ts } ∧ ts.Perm rest := by
  obtain ⟨i, hi, -, herase⟩ := exists_place h
  exact ⟨_, (Move.retire hi hp).leads, herase⟩

/-- A task that owes questions hands them all on and ends. -/
theorem leads_spread {rest : List Task} {q : Question} {owed : List Question}
    (h : st.tasks.Perm (⟨q, .spreading owed⟩ :: rest)) :
    ∃ ts, Leads s st { st with tasks := ts } ∧ ts.Perm (rest ++ owed.map .waiting) := by
  induction owed generalizing st rest with
  | nil =>
    obtain ⟨ts, hl, hts⟩ := leads_retire (s := s) h (Or.inr rfl)
    exact ⟨ts, hl, by simpa using hts⟩
  | cons c owed ih =>
    obtain ⟨i, hi, hset, -⟩ := exists_place h
    have hm := Move.spread (s := s) hi
    have hnext : (st.tasks.set i ⟨q, .spreading owed⟩ ++ [Task.waiting c]).Perm
        (⟨q, .spreading owed⟩ :: (rest ++ [Task.waiting c])) :=
      (hset _).append_right _
    obtain ⟨ts, hl, hts⟩ := @ih { st with
      tasks := st.tasks.set i ⟨q, .spreading owed⟩ ++ [Task.waiting c] } _ hnext
    refine ⟨ts, hm.leads.trans hl, ?_⟩
    simpa using hts

/-- A recorded allowance is sent and collected, a recorded denial handed on. -/
theorem leads_of_recorded {rest : List Task} {q : Question}
    (h : st.tasks.Perm (⟨q, afterRecord s q (s.outcome q)⟩ :: rest)) (hc : st.channel = [])
    (hf : st.finished = false) :
    ∃ ts, Leads s st { st with tasks := ts, grants := st.grants ++ s.ownGrants q } ∧
      ts.Perm (rest ++ (s.owes q).map .waiting) := by
  have hown := s.ownGrants_eq q
  cases ho : s.outcome q with
  | allowed =>
    have howes : s.owes q = [] := by simp [Setting.owes, ho]
    rw [ho] at h hown
    obtain ⟨i, hi, hset, -⟩ := exists_place h
    have hsend := (Move.send (s := s) hi).leads
    rw [hc] at hsend
    have hcollect := (@Move.collect s { st with
      tasks := st.tasks.set i ⟨q, .ending⟩, channel := [q.grant] } q.grant [] rfl hf).leads
    obtain ⟨ts, hend, hts⟩ := @leads_retire s { st with
      tasks := st.tasks.set i ⟨q, .ending⟩, channel := [], grants := st.grants ++ [q.grant] } rest _
      (hset ⟨q, .ending⟩) (Or.inl rfl)
    refine ⟨ts, ?_, by simpa [howes] using hts⟩
    have hempty : ({ st with tasks := ts, grants := st.grants ++ [q.grant] } : State) =
        { st with tasks := ts, channel := [], grants := st.grants ++ [q.grant] } := by
      simp [hc]
    rw [hown, if_pos rfl, hempty]
    exact hsend.trans (hcollect.trans hend)
  | failed =>
    have howes : s.owes q = [] := by simp [Setting.owes, ho]
    rw [ho] at h hown
    obtain ⟨ts, hl, hts⟩ := leads_retire (s := s) h (Or.inl rfl)
    exact ⟨ts, by simpa [hown] using hl, by simpa [howes] using hts⟩
  | denied =>
    have howes : s.owes q = s.children q := by simp [Setting.owes, ho]
    rw [ho] at h hown
    cases hq : q.clusterWide with
    | true =>
      have hphase : afterRecord s q .denied = .spreading (s.children q) := by
        simp [afterRecord, hq]
      rw [hphase] at h
      obtain ⟨ts, hl, hts⟩ := leads_spread (s := s) h
      exact ⟨ts, by simpa [hown] using hl, by rwa [howes]⟩
    | false =>
      have hphase : afterRecord s q .denied = .ending := by simp [afterRecord, hq]
      rw [hphase] at h
      obtain ⟨ts, hl, hts⟩ := leads_retire (s := s) h (Or.inl rfl)
      refine ⟨ts, by simpa [hown] using hl, ?_⟩
      simpa [howes, Setting.children_eq_nil hq] using hts

/-- The authorizer is done with a question: its permit comes back, its outcome
is recorded, and its grant is collected or its questions are in line. -/
theorem leads_settle {rest : List Task} {q : Question}
    (h : st.tasks.Perm (.asking q :: rest)) (hc : st.channel = []) (hf : st.finished = false) :
    ∃ ts, Leads s st { st with
        permits := st.permits.map (· + 1)
        tasks := ts
        grants := st.grants ++ s.ownGrants q
        tally := st.tally.recordQuestion q (s.outcome q) } ∧
      ts.Perm (rest ++ (s.owes q).map .waiting) := by
  obtain ⟨i, hi, hset, -⟩ := exists_place h
  have hsettle := (Move.settle (s := s) hi).leads
  obtain ⟨j, hj, hset', -⟩ := exists_place (hset ⟨q, .settled (s.outcome q)⟩)
  have hrecord : Leads s { st with
      permits := st.permits.map (· + 1)
      tasks := st.tasks.set i ⟨q, .settled (s.outcome q)⟩ } _ :=
    (Move.record hj).leads
  have hrecorded := hset' ⟨q, afterRecord s q (s.outcome q)⟩
  obtain ⟨ts, hl, hts⟩ := @leads_of_recorded s { st with
    permits := st.permits.map (· + 1)
    tasks := (st.tasks.set i ⟨q, .settled (s.outcome q)⟩).set j
      ⟨q, afterRecord s q (s.outcome q)⟩
    tally := st.tally.recordQuestion q (s.outcome q) } rest q hrecorded hc hf
  exact ⟨ts, hsettle.trans (hrecord.trans hl), hts⟩

-- ---------------------------------------------------------------------------
-- The machine beside the clock
-- ---------------------------------------------------------------------------

/-- How a state of the machine matches an instant of the clock. The calls in
`due` have ended for the clock; the machine has still to settle them. -/
structure Stands (s : Setting) (t : Timeline) (due : List Call) (st : State) : Prop where
  roots : st.roots = []
  rootSender : st.rootSender = false
  tasks : st.tasks.Perm
    ((due ++ t.calls).map (fun c => .asking c.question) ++ t.line.map .waiting)
  permits : st.permits = s.limits.slots.map (· - (due ++ t.calls).length)
  room : ∀ n, s.limits.slots = some n → (due ++ t.calls).length ≤ n
  channel : st.channel = []
  finished : st.finished = false
  asked : st.asked = t.asked.reverse
  grants : st.grants = t.grants.reverse
  tally : st.tally = t.tally

section Settle

variable (s : Setting) (t : Timeline) (q : Question)

@[simp] theorem settle_line : (t.settle s q).line = t.line ++ s.owes q := by
  unfold Timeline.settle Setting.owes
  cases s.outcome q <;> simp

@[simp] theorem settle_calls : (t.settle s q).calls = t.calls := by
  unfold Timeline.settle
  cases s.outcome q <;> rfl

@[simp] theorem settle_asked : (t.settle s q).asked = t.asked := by
  unfold Timeline.settle
  cases s.outcome q <;> rfl

@[simp] theorem settle_grants : (t.settle s q).grants = s.ownGrants q ++ t.grants := by
  unfold Timeline.settle Setting.ownGrants
  cases s.outcome q <;> simp

@[simp] theorem settle_tally :
    (t.settle s q).tally = t.tally.recordQuestion q (s.outcome q) := by
  unfold Timeline.settle
  cases s.outcome q <;> rfl

end Settle

/-- A question has one grant of its own at most. -/
theorem reverse_ownGrants (s : Setting) (q : Question) :
    (s.ownGrants q).reverse = s.ownGrants q := by
  rw [Setting.ownGrants_eq]
  split <;> rfl

/-- A call that is over for the clock is settled by the machine. -/
theorem Stands.settle {t : Timeline} {c : Call} {due : List Call}
    (h : Stands s t (c :: due) st) :
    ∃ st', Leads s st st' ∧ Stands s (t.settle s c.question) due st' := by
  have htasks := h.tasks
  simp only [List.cons_append, List.map_cons] at htasks
  obtain ⟨ts, hl, hts⟩ := leads_settle (s := s) htasks h.channel h.finished
  refine ⟨_, hl, ?_⟩
  constructor
  case roots => exact h.roots
  case rootSender => exact h.rootSender
  case tasks => simpa using hts
  case permits =>
    -- there was room for the call, so its permit is one of those counted
    have hpermits := h.permits
    have hroom := h.room
    cases hs : s.limits.slots with
    | none => simp [hpermits, hs]
    | some n =>
      have := hroom n hs
      simp only [List.cons_append, List.length_cons] at this hpermits
      simp only [hpermits, hs, Option.map_some, settle_calls, Option.some.injEq]
      omega
  case room =>
    intro n hs
    have := h.room n hs
    simp only [List.cons_append, List.length_cons, settle_calls] at this ⊢
    omega
  case channel => exact h.channel
  case finished => exact h.finished
  case asked => simpa using h.asked
  case grants =>
    simp only [settle_grants, List.reverse_append, reverse_ownGrants, h.grants]
  case tally => simp only [settle_tally, h.tally]

/-- All calls that are over for the clock are settled, one after the other. -/
theorem Stands.settle_all {t : Timeline} {due : List Call} (h : Stands s t due st) :
    ∃ st', Leads s st st' ∧
      Stands s (due.foldl (fun t c => t.settle s c.question) t) [] st' := by
  induction due generalizing t st with
  | nil => exact ⟨st, .refl s st, h⟩
  | cons c due ih =>
    obtain ⟨st₁, hl₁, h₁⟩ := h.settle
    obtain ⟨st₂, hl₂, h₂⟩ := ih h₁
    exact ⟨st₂, hl₁.trans hl₂, h₂⟩

/-- A question that a call has room for is put. -/
theorem Stands.ask {t : Timeline} {q : Question} {rest : List Question} {c : Call}
    (h : Stands s t [] st) (hline : t.line = q :: rest) (hroom : t.hasRoom s = true)
    (hc : c.question = q) (peak openPeak : Nat) :
    ∃ st', Leads s st st' ∧
      Stands s { t with line := rest, asked := q :: t.asked, peak, openPeak } [c] st' := by
  have htasks := h.tasks
  rw [hline, List.nil_append] at htasks
  have hfirst : st.tasks.Perm (.waiting q ::
      (t.calls.map (fun c => Task.asking c.question) ++ rest.map .waiting)) :=
    htasks.trans List.perm_middle
  obtain ⟨i, hi, hset, -⟩ := exists_place hfirst
  have hpermit : st.hasPermit = true := by
    have hpermits := h.permits
    unfold Timeline.hasRoom at hroom
    cases hs : s.limits.slots with
    | none => simp [State.hasPermit, hpermits, hs]
    | some n => simpa [State.hasPermit, hpermits, hs, Nat.sub_pos_iff_lt] using hroom
  refine ⟨_, (Move.ask hi hpermit).leads, ?_⟩
  constructor
  case roots => exact h.roots
  case rootSender => exact h.rootSender
  case tasks => simpa [hc] using hset (.asking q)
  case permits =>
    have hpermits := h.permits
    cases hs : s.limits.slots with
    | none => simp [hpermits, hs]
    | some n =>
      simp only [hpermits, hs, Option.map_some, List.nil_append, List.length_append,
        List.length_singleton, Option.some.injEq]
      omega
  case room =>
    intro n hs
    unfold Timeline.hasRoom at hroom
    rw [hs] at hroom
    simpa [Nat.add_comm, Nat.succ_le_iff] using hroom
  case channel => exact h.channel
  case finished => exact h.finished
  case asked => simp [h.asked]
  case grants => exact h.grants
  case tally => exact h.tally

/-- Which of the calls are over for the clock makes no difference to the machine. -/
theorem Stands.of_perm {t t' : Timeline} {due due' : List Call} (h : Stands s t due st)
    (hcalls : (due ++ t.calls).Perm (due' ++ t'.calls)) (hline : t'.line = t.line)
    (hasked : t'.asked = t.asked) (hgrants : t'.grants = t.grants) (htally : t'.tally = t.tally) :
    Stands s t' due' st := by
  have hlen := hcalls.length_eq
  constructor
  case roots => exact h.roots
  case rootSender => exact h.rootSender
  case tasks =>
    rw [hline]
    exact h.tasks.trans ((hcalls.map _).append_right _)
  case permits => rw [← hlen]; exact h.permits
  case room => rw [← hlen]; exact h.room
  case channel => exact h.channel
  case finished => exact h.finished
  case asked => rw [hasked]; exact h.asked
  case grants => rw [hgrants]; exact h.grants
  case tally => rw [htally]; exact h.tally

/-- The clock starts a call. -/
theorem Stands.start {t : Timeline} {q : Question} {rest : List Question}
    (h : Stands s t [] st) (hline : t.line = q :: rest) (hroom : t.hasRoom s = true) :
    ∃ st', Leads s st st' ∧ Stands s (Timeline.start s { t with line := rest } q) [] st' := by
  obtain ⟨st₁, hl₁, h₁⟩ := h.ask (c := ⟨q, t.now + s.duration q⟩) hline hroom rfl
    (max t.peak (t.calls.length + 1)) (max t.openPeak (t.calls.length + 1 + t.abandoned))
  unfold Timeline.start
  by_cases hd : (s.decide q).delay = 0
  · -- a call that takes no time is over at once
    obtain ⟨st₂, hl₂, h₂⟩ := h₁.settle
    refine ⟨st₂, hl₁.trans hl₂, ?_⟩
    simpa only [hd, if_true] using h₂
  · refine ⟨st₁, hl₁, ?_⟩
    simp only [hd, if_false]
    exact h₁.of_perm List.perm_append_comm rfl rfl rfl rfl

/-- The clock moves on to an instant, at which calls end. -/
theorem Stands.advance {t : Timeline} (h : Stands s t [] st) (instant : Nat) :
    ∃ st', Leads s st st' ∧ Stands s (t.advance s instant) [] st' := by
  unfold Timeline.advance
  dsimp only
  refine Stands.settle_all (h.of_perm ?_ rfl rfl rfl rfl)
  have := List.filter_append_perm (fun c : Call => decide (c.ending = instant)) t.calls
  simpa using this.symm

-- ---------------------------------------------------------------------------
-- The clock stops
-- ---------------------------------------------------------------------------

/-- The turns that a question in line takes, with those of its children. -/
def Setting.turns (s : Setting) (q : Question) : Nat := 2 + 2 * (s.children q).length

/-- The turns that are left: a question in line starts and ends, a call in flight ends. -/
def Timeline.potential (s : Setting) (t : Timeline) : Nat :=
  (t.line.map s.turns).sum + (t.calls.map fun c => s.turns c.question - 1).sum

theorem potential_settle (hn : s.Named) (t : Timeline) (q : Question) :
    (t.settle s q).potential s + 2 ≤ t.potential s + s.turns q := by
  have howes : ((s.owes q).map s.turns).sum = 2 * (s.owes q).length := by
    have htwo : ∀ c ∈ s.owes q, s.turns c = 2 := by
      intro c hc
      have hchild : c ∈ s.children q := by
        unfold Setting.owes at hc
        split at hc
        · exact hc
        · cases hc
      rw [Setting.turns, Setting.children_eq_nil (clusterWide_of_mem_children hn hchild)]
      rfl
    rw [List.map_congr_left htwo]
    simp [Nat.mul_comm]
  have hlen : (s.owes q).length ≤ (s.children q).length := by
    unfold Setting.owes
    split
    · exact le_rfl
    · exact Nat.zero_le _
  unfold Timeline.potential Setting.turns at *
  simp only [settle_line, settle_calls, List.map_append, List.sum_append]
  omega

/-- To settle calls that are over takes as much off as they had left. -/
theorem potential_settle_all (hn : s.Named) (t : Timeline) (due : List Call) :
    (due.foldl (fun t c => t.settle s c.question) t).potential s + due.length
      ≤ t.potential s + (due.map fun c => s.turns c.question - 1).sum := by
  induction due generalizing t with
  | nil => exact le_rfl
  | cons c due ih =>
    have hfirst := potential_settle hn t c.question
    have hrest := ih (t.settle s c.question)
    have hpos : 2 ≤ s.turns c.question := Nat.le_add_right ..
    simp only [List.foldl_cons, List.map_cons, List.sum_cons, List.length_cons]
    omega

/-- A start takes a turn, whether the call ends at once or is in flight behind it. -/
theorem potential_start_lt (hn : s.Named) {t : Timeline} {q : Question} {rest : List Question}
    (hline : t.line = q :: rest) :
    (Timeline.start s { t with line := rest } q).potential s < t.potential s := by
  have hpos : 2 ≤ s.turns q := Nat.le_add_right ..
  have hall : t.potential s =
      s.turns q + ((rest.map s.turns).sum + (t.calls.map fun c => s.turns c.question - 1).sum) := by
    simp only [Timeline.potential, hline, List.map_cons, List.sum_cons]
    omega
  have hatOnce : ∀ t' : Timeline, t'.line = rest → t'.calls = t.calls →
      (t'.settle s q).potential s < t.potential s := by
    intro t' hl hc
    have hsettle := potential_settle hn t' q
    have hleft : t'.potential s =
        (rest.map s.turns).sum + (t.calls.map fun c => s.turns c.question - 1).sum := by
      rw [Timeline.potential, hl, hc]
    omega
  unfold Timeline.start
  by_cases hd : (s.decide q).delay = 0
  · simp only [hd, if_true]
    exact hatOnce _ rfl rfl
  · simp only [hd, if_false]
    rw [hall]
    simp only [Timeline.potential, List.map_append, List.sum_append, List.map_singleton,
      List.sum_singleton]
    omega

/-- To settle some of the calls in flight takes a turn at least. -/
theorem potential_settle_all_lt (hn : s.Named) {t t' : Timeline} {due : List Call}
    (hline : t'.line = t.line) (hcalls : (due ++ t'.calls).Perm t.calls) (hsome : 0 < due.length) :
    (due.foldl (fun t c => t.settle s c.question) t').potential s < t.potential s := by
  have hsettle := potential_settle_all hn t' due
  have hsum := (hcalls.map fun c => s.turns c.question - 1).sum_eq
  rw [List.map_append, List.sum_append] at hsum
  have hleft : t'.potential s =
      (t.line.map s.turns).sum + (t'.calls.map fun c => s.turns c.question - 1).sum := by
    rw [Timeline.potential, hline]
  have hall : t.potential s =
    (t.line.map s.turns).sum + (t.calls.map fun c => s.turns c.question - 1).sum := rfl
  omega

theorem potential_advance_lt (hn : s.Named) {t : Timeline} {c : Call} (hc : c ∈ t.calls) :
    (t.advance s c.ending).potential s < t.potential s := by
  unfold Timeline.advance
  dsimp only
  refine potential_settle_all_lt hn rfl ?_ ?_
  · have := List.filter_append_perm (fun d : Call => decide (d.ending = c.ending)) t.calls
    simpa using this
  · exact List.length_pos_of_mem (List.mem_filter.mpr ⟨hc, by simp⟩)

theorem nextEnd_eq_none {calls : List Call} (h : Timeline.nextEnd calls = none) : calls = [] := by
  cases calls with
  | nil => rfl
  | cons c cs =>
    unfold Timeline.nextEnd at h
    split at h <;> cases h

/-- The next end is the end of some call. -/
theorem exists_of_nextEnd {calls : List Call} {n : Nat} (h : Timeline.nextEnd calls = some n) :
    ∃ c ∈ calls, c.ending = n := by
  induction calls generalizing n with
  | nil => cases h
  | cons c cs ih =>
    unfold Timeline.nextEnd at h
    split at h
    · next m hm =>
      cases h
      rcases Nat.le_total c.ending m with hle | hle
      · exact ⟨c, List.mem_cons_self, (Nat.min_eq_left hle).symm⟩
      · obtain ⟨d, hd, he⟩ := ih hm
        exact ⟨d, List.mem_cons_of_mem _ hd, by rw [Nat.min_eq_right hle, he]⟩
    · cases h
      exact ⟨c, List.mem_cons_self, rfl⟩

/-- The clock stops with nothing in line and no call in flight. -/
theorem go_done (hn : s.Named) {t : Timeline} {fuel : Nat} (h : t.potential s ≤ fuel) :
    (Timeline.go s fuel t).line = [] ∧ (Timeline.go s fuel t).calls = [] := by
  induction fuel generalizing t with
  | zero =>
    -- nothing is left of what could take a turn
    have hzero : t.potential s = 0 := by omega
    unfold Timeline.potential at hzero
    constructor
    · cases hline : t.line with
      | nil => exact hline
      | cons q rest =>
        rw [hline, List.map_cons, List.sum_cons, Setting.turns] at hzero
        omega
    · cases hcalls : t.calls with
      | nil => exact hcalls
      | cons c cs =>
        rw [hcalls, List.map_cons, List.sum_cons, Setting.turns] at hzero
        omega
  | succ fuel ih =>
    unfold Timeline.go
    split
    · next q rest hline =>
      split
      · have := potential_start_lt hn hline
        exact ih (by omega)
      · next hroom =>
        split
        · next instant hnext =>
          obtain ⟨c, hc, rfl⟩ := exists_of_nextEnd hnext
          have := potential_advance_lt hn hc
          exact ih (by omega)
        · next hnext =>
          -- there is room while no call is in flight
          have hcalls := nextEnd_eq_none hnext
          unfold Timeline.hasRoom at hroom
          split at hroom
          · simp at hroom
          · next n hs =>
            have := slots_pos hs
            simp only [hcalls, List.length_nil, decide_eq_true_eq] at hroom
            omega
    · next hline =>
      split
      · next instant hnext =>
        obtain ⟨c, hc, rfl⟩ := exists_of_nextEnd hnext
        have := potential_advance_lt hn hc
        exact ih (by omega)
      · next hnext => exact ⟨hline, nextEnd_eq_none hnext⟩

/-- There are turns enough for the root questions. -/
theorem potential_initial_le (s : Setting) (qs : List Question) :
    (Timeline.initial qs).potential s ≤ Timeline.turns s qs := by
  have hone : ∀ q, s.turns q ≤ 2 * (1 + s.namespaces.length) := by
    intro q
    unfold Setting.turns Setting.children
    split
    · rw [List.length_map]
      omega
    · rw [List.length_nil]
      omega
  have hsum : (qs.map s.turns).sum ≤ 2 * qs.length * (1 + s.namespaces.length) := by
    induction qs with
    | nil => simp
    | cons q qs ih =>
      have := hone q
      rw [List.map_cons, List.sum_cons, List.length_cons]
      calc s.turns q + (qs.map s.turns).sum
          ≤ 2 * (1 + s.namespaces.length) + 2 * qs.length * (1 + s.namespaces.length) := by omega
        _ = 2 * (qs.length + 1) * (1 + s.namespaces.length) := by ring
  unfold Timeline.turns
  show (qs.map s.turns).sum + 0 ≤ _
  omega

-- ---------------------------------------------------------------------------
-- The root questions
-- ---------------------------------------------------------------------------

/-- The root hands out its questions and gives up its sender. -/
theorem exists_stands (s : Setting) (qs : List Question) :
    ∃ st, Reachable s qs st ∧ Stands s (.initial qs) [] st := by
  have hstart : ∀ roots done, Leads s
      { State.initial s qs with roots, tasks := List.map Task.waiting done }
      { State.initial s qs with
        roots := [], rootSender := false, tasks := (done ++ roots).map .waiting } := by
    intro roots
    induction roots with
    | nil =>
      intro done
      rw [List.append_nil]
      exact (Move.close rfl rfl).leads
    | cons q rest ih =>
      intro done
      have hrest := ih (done ++ [q])
      rw [List.map_append, List.append_assoc] at hrest
      exact (Move.start rfl rfl).leads.trans hrest
  obtain ⟨es, hes⟩ := hstart qs []
  refine ⟨_, ⟨es, hes⟩, ?_⟩
  constructor
  case tasks => exact .refl _
  case permits => cases hs : s.limits.slots <;> simp [State.initial, Timeline.initial, hs]
  case room => exact fun n _ => Nat.zero_le n
  all_goals rfl

end WatchGate.Probe
