import Mathlib.Logic.Relation
import WatchGate.Proofs.Probe.Accounts
import WatchGate.Proofs.Probe.Clock

/-!
# WatchGate — the turns of a clock

`Timeline.go` settles what the rules leave open: root questions stand in line as
they are listed, and calls that end together hand on what they owe in the order
in which they started. `Turn` is one turn of a clock that leaves both open. A
question at the head of the line starts if there is room; where none can start
the clock moves to the next end, and what is owed then joins the line in any
order. `Timeline.Runs` holds of the instants that such turns lead to from the
root questions in any order.

Every turn takes something off `Timeline.potential`, and what a clock does some
schedule does, so that its runs end as finished schedules. `Counted` says what
counters and given-up calls come to at every instant.

Main results:

* `runs_go` — `Timeline.go` is one of the runs.
* `Turn.potential_lt` and `exists_done` — a clock stops, with nothing left.
* `Timeline.Runs.exists_finished` — where it stops, a schedule finishes.
* `Setting.exists_finished` — the report holds what a finished run asked, granted
  and recorded.
* `Timeline.Runs.calls_le_peak` and `Timeline.Runs.exists_peak` — the peak is the
  most calls at any instant.
* `Timeline.Runs.counted` — what the counters hold on the way.
-/

namespace WatchGate.Probe

variable {s : Setting} {qs : List Question} {t t' : Timeline}

-- ---------------------------------------------------------------------------
-- What a clock changes when calls end
-- ---------------------------------------------------------------------------

section Settle

variable (s : Setting) (t : Timeline) (q : Question)

@[simp] theorem settle_now : (t.settle s q).now = t.now := by
  unfold Timeline.settle
  cases s.outcome q <;> rfl

@[simp] theorem settle_peak : (t.settle s q).peak = t.peak := by
  unfold Timeline.settle
  cases s.outcome q <;> rfl

@[simp] theorem settle_abandoned : (t.settle s q).abandoned = t.abandoned := by
  unfold Timeline.settle
  cases s.outcome q <;> rfl

end Settle

/-- What no settlement changes, none of many changes. -/
theorem settle_all_of_settle {α : Type} (f : Timeline → α) (hf : ∀ t q, f (t.settle s q) = f t)
    (due : List Call) : f (due.foldl (fun t c => t.settle s c.question) t) = f t := by
  induction due generalizing t with
  | nil => rfl
  | cons c due ih => exact ih.trans (hf t c.question)

theorem settle_all_line (due : List Call) :
    (due.foldl (fun t c => t.settle s c.question) t).line =
      t.line ++ due.flatMap fun c => s.owes c.question := by
  induction due generalizing t with
  | nil => simp
  | cons c due ih => simp [ih]

theorem settle_all_count (due : List Call) (v : Verb) (o : Outcome) :
    (due.foldl (fun t c => t.settle s c.question) t).tally.count v o = t.tally.count v o +
      due.countP fun c => c.question.verb = v ∧ s.outcome c.question = o := by
  induction due generalizing t with
  | nil => rfl
  | cons c due ih =>
    rw [List.foldl_cons, ih, settle_tally, Tally.count_recordQuestion, List.countP_cons]
    simp only [decide_eq_true_eq]
    omega

/-- The calls that end at an instant. -/
def Timeline.ending (t : Timeline) (instant : Nat) : List Call :=
  t.calls.filter fun c => c.ending = instant

/-- What the calls that end at an instant owe. -/
def Timeline.joining (s : Setting) (t : Timeline) (instant : Nat) : List Question :=
  (t.ending instant).flatMap fun c => s.owes c.question

section Advance

variable (s : Setting) (t : Timeline) (instant : Nat)

@[simp] theorem advance_now : (t.advance s instant).now = instant :=
  settle_all_of_settle Timeline.now (settle_now s) _

@[simp] theorem advance_line :
    (t.advance s instant).line = t.line ++ t.joining s instant :=
  settle_all_line _

theorem advance_calls :
    (t.advance s instant).calls = t.calls.filter fun c => c.ending ≠ instant :=
  settle_all_of_settle Timeline.calls (settle_calls s) _

@[simp] theorem advance_abandoned : (t.advance s instant).abandoned =
    t.abandoned + (t.ending instant).countP fun c => s.late c.question := by
  rw [List.countP_eq_length_filter]
  exact settle_all_of_settle Timeline.abandoned (settle_abandoned s) _

@[simp] theorem advance_peak : (t.advance s instant).peak = t.peak :=
  settle_all_of_settle Timeline.peak (settle_peak s) _

@[simp] theorem advance_asked : (t.advance s instant).asked = t.asked :=
  settle_all_of_settle Timeline.asked (settle_asked s) _

theorem advance_count (v : Verb) (o : Outcome) :
    (t.advance s instant).tally.count v o = t.tally.count v o +
      (t.ending instant).countP fun c => c.question.verb = v ∧ s.outcome c.question = o :=
  settle_all_count _ v o

/-- Of the calls in flight some end at an instant and the others do not. -/
theorem countP_calls_advance (p : Call → Bool) :
    (t.ending instant).countP p + (t.advance s instant).calls.countP p = t.calls.countP p := by
  have hsplit := List.filter_append_perm (fun c : Call => decide (c.ending = instant)) t.calls
  rw [advance_calls, ← List.countP_append]
  simpa [Timeline.ending] using hsplit.countP_eq p

end Advance

section Start

variable (s : Setting) (t : Timeline) (q : Question)

@[simp] theorem start_peak : (t.start s q).peak = max t.peak (t.calls.length + 1) := by
  unfold Timeline.start
  dsimp only
  split <;> simp

@[simp] theorem start_asked : (t.start s q).asked = q :: t.asked := by
  unfold Timeline.start
  dsimp only
  split <;> simp

variable {q}

/-- A call that takes time is in flight behind its start. -/
theorem start_eq_of_delay (h : (s.decide q).delay ≠ 0) : t.start s q = { t with
    asked := q :: t.asked
    peak := max t.peak (t.calls.length + 1)
    openPeak := max t.openPeak (t.calls.length + 1 + t.abandoned)
    calls := t.calls ++ [⟨q, t.now + s.duration q⟩] } :=
  if_neg h

/-- And one that takes none is not. -/
theorem start_calls_of_no_delay (h : (s.decide q).delay = 0) : (t.start s q).calls = t.calls := by
  unfold Timeline.start
  dsimp only
  rw [if_pos h, settle_calls]

end Start

-- ---------------------------------------------------------------------------
-- Turns
-- ---------------------------------------------------------------------------

/-- One turn of a clock. What is owed at an instant joins the line in any order. -/
inductive Turn (s : Setting) : Timeline → Timeline → Prop
  | start {t : Timeline} {q : Question} {rest : List Question}
      (hline : t.line = q :: rest) (hroom : t.hasRoom s = true) :
      Turn s t (Timeline.start s { t with line := rest } q)
  | advance {t : Timeline} {instant : Nat} {joined : List Question}
      (hstuck : t.line = [] ∨ t.hasRoom s = false)
      (hnext : Timeline.nextEnd t.calls = some instant)
      (hjoined : joined.Perm (t.joining s instant)) :
      Turn s t { t.advance s instant with line := t.line ++ joined }

/-- What turns lead to. -/
abbrev Turns (s : Setting) : Timeline → Timeline → Prop := Relation.ReflTransGen (Turn s)

/-- Nothing is in line and no call in flight. -/
def Timeline.Done (t : Timeline) : Prop := t.line = [] ∧ t.calls = []

/-- The instants that a clock comes to, from the root questions in any order. -/
def Timeline.Runs (s : Setting) (qs : List Question) (t : Timeline) : Prop :=
  ∃ line : List Question, line.Perm qs ∧ Turns s (.initial line) t

/-- The clock that keeps the order in which calls started turns so. -/
theorem Turn.of_advance {instant : Nat} (hstuck : t.line = [] ∨ t.hasRoom s = false)
    (hnext : Timeline.nextEnd t.calls = some instant) : Turn s t (t.advance s instant) := by
  have h := Turn.advance hstuck hnext (List.Perm.refl _)
  rwa [← advance_line] at h

/-- What `Timeline.go` does is turns. -/
theorem turns_go (s : Setting) (fuel : Nat) (t : Timeline) :
    Turns s t (Timeline.go s fuel t) := by
  induction fuel generalizing t with
  | zero => exact .refl
  | succ fuel ih =>
    unfold Timeline.go
    split
    · next q rest hline =>
      split
      · next hroom => exact .head (.start hline hroom) (ih _)
      · next hroom =>
        split
        · next hnext => exact .head (.of_advance (.inr (by simpa using hroom)) hnext) (ih _)
        · exact .refl
    · next hline =>
      split
      · next hnext => exact .head (.of_advance (.inl hline) hnext) (ih _)
      · exact .refl

theorem runs_go (s : Setting) (qs : List Question) (fuel : Nat) :
    Timeline.Runs s qs (Timeline.go s fuel (.initial qs)) :=
  ⟨qs, .refl qs, turns_go s fuel _⟩

-- ---------------------------------------------------------------------------
-- A clock stops
-- ---------------------------------------------------------------------------

/-- In which order questions stand in line makes no difference to what is left. -/
theorem potential_line_perm {line : List Question} (h : t.line.Perm line) :
    { t with line }.potential s = t.potential s :=
  congrArg (· + _) (h.symm.map s.turns).sum_eq

theorem Turn.potential_lt (hn : s.Named) (h : Turn s t t') : t'.potential s < t.potential s := by
  cases h with
  | start hline hroom => exact potential_start_lt hn hline
  | @advance instant joined hstuck hnext hjoined =>
    obtain ⟨c, hc, rfl⟩ := exists_of_nextEnd hnext
    have hperm : (t.advance s c.ending).line.Perm (t.line ++ joined) := by
      rw [advance_line]
      exact hjoined.symm.append_left _
    rw [potential_line_perm hperm]
    exact potential_advance_lt hn hc

/-- From every instant a clock can go on until nothing is left. -/
theorem exists_done (hn : s.Named) (t : Timeline) : ∃ t', Turns s t t' ∧ t'.Done :=
  ⟨_, turns_go s (t.potential s) t, go_done hn le_rfl⟩

-- ---------------------------------------------------------------------------
-- What a clock does, some schedule does
-- ---------------------------------------------------------------------------

theorem Stands.line_perm {due : List Call} {st : State} {line : List Question}
    (h : Stands s t due st) (hline : t.line.Perm line) : Stands s { t with line } due st where
  roots := h.roots
  rootSender := h.rootSender
  tasks := h.tasks.trans ((hline.map _).append_left _)
  permits := h.permits
  room := h.room
  channel := h.channel
  finished := h.finished
  asked := h.asked
  grants := h.grants
  tally := h.tally

theorem Stands.turn {st : State} (h : Stands s t [] st) (ht : Turn s t t') :
    ∃ st', Leads s st st' ∧ Stands s t' [] st' := by
  cases ht with
  | start hline hroom => exact h.start hline hroom
  | @advance instant joined hstuck hnext hjoined =>
    obtain ⟨st', hl, h'⟩ := h.advance instant
    refine ⟨st', hl, h'.line_perm ?_⟩
    rw [advance_line]
    exact hjoined.symm.append_left _

theorem Stands.turns {st : State} (h : Stands s t [] st) (ht : Turns s t t') :
    ∃ st', Leads s st st' ∧ Stands s t' [] st' := by
  induction ht with
  | refl => exact ⟨st, .refl s st, h⟩
  | tail _ hturn ih =>
    obtain ⟨st₁, hl₁, h₁⟩ := ih
    obtain ⟨st₂, hl₂, h₂⟩ := h₁.turn hturn
    exact ⟨st₂, hl₁.trans hl₂, h₂⟩

/-- Where a clock stops with nothing left, a schedule has finished. -/
theorem Timeline.Runs.exists_finished (h : t.Runs s qs) (hdone : t.Done) :
    ∃ st, Reachable s qs st ∧ st.finished = true ∧ st.asked = t.asked.reverse ∧
      st.grants = t.grants.reverse ∧ st.tally = t.tally := by
  obtain ⟨line, hline, hturns⟩ := h
  obtain ⟨st₀, hr, h₀⟩ := exists_stands s qs
  obtain ⟨st, ⟨es, hes⟩, hst⟩ := (h₀.line_perm hline.symm).turns hturns
  have htasks : st.tasks = [] := by
    have := hst.tasks
    rw [hdone.1, hdone.2] at this
    exact this.eq_nil
  have hm := Move.finish (s := s) hst.channel htasks hst.rootSender hst.finished
  exact ⟨_, (hr.extend hes).move hm, rfl, hst.asked, hst.grants, hst.tally⟩

/-- A clock that stops with nothing left has gone through a finished run. -/
theorem Setting.exists_finished_of_done (s : Setting) (qs : List Question)
    (hdone : (Timeline.go s (Timeline.turns s qs) (.initial qs)).Done) :
    ∃ st, Reachable s qs st ∧ st.finished = true ∧ st.asked = (s.report qs).asked ∧
      st.grants = (s.report qs).grants ∧ st.tally = (s.report qs).tally :=
  (runs_go s qs _).exists_finished hdone

/-- The report of a run against a clock holds what a finished run asked, granted and recorded. -/
theorem Setting.exists_finished (hn : s.Named) (qs : List Question) :
    ∃ st, Reachable s qs st ∧ st.finished = true ∧ st.asked = (s.report qs).asked ∧
      st.grants = (s.report qs).grants ∧ st.tally = (s.report qs).tally :=
  s.exists_finished_of_done qs (go_done hn (potential_initial_le s qs))

-- ---------------------------------------------------------------------------
-- The most calls at once
-- ---------------------------------------------------------------------------

theorem Timeline.Runs.turn (h : t.Runs s qs) (ht : Turn s t t') : t'.Runs s qs := by
  obtain ⟨line, hline, hturns⟩ := h
  exact ⟨line, hline, hturns.tail ht⟩

/-- What holds at first and is kept by every turn holds on every run. -/
theorem Timeline.Runs.induction {P : Timeline → Prop} (h0 : ∀ line : List Question,
    line.Perm qs → P (.initial line))
    (hturn : ∀ t t', t.Runs s qs → P t → Turn s t t' → P t') (h : t.Runs s qs) : P t := by
  obtain ⟨line, hline, hturns⟩ := h
  induction hturns with
  | refl => exact h0 line hline
  | tail hturns ht ih => exact hturn _ _ ⟨line, hline, hturns⟩ ih ht

theorem Turn.peak_le (h : Turn s t t') : t.peak ≤ t'.peak := by
  cases h with
  | start hline hroom =>
    rw [start_peak]
    exact le_max_left _ _
  | advance hstuck hnext hjoined => exact (advance_peak s t _).ge

theorem peak_le_of_turns (h : Turns s t t') : t.peak ≤ t'.peak := by
  induction h with
  | refl => exact le_rfl
  | tail _ ht ih => exact ih.trans ht.peak_le

/-- At no instant there are more calls than the peak. -/
theorem Timeline.Runs.calls_le_peak (h : t.Runs s qs) : t.calls.length ≤ t.peak := by
  refine h.induction (P := fun t => t.calls.length ≤ t.peak) (fun _ _ => le_rfl)
    fun t t' _ hle ht => ?_
  cases ht with
  | @start q rest hline hroom =>
    rw [start_peak]
    by_cases hd : (s.decide q).delay = 0
    · rw [start_calls_of_no_delay s _ hd]
      exact hle.trans (le_max_left _ _)
    · rw [start_eq_of_delay s _ hd]
      simp
  | @advance instant joined hstuck hnext hjoined =>
    show (t.advance s instant).calls.length ≤ (t.advance s instant).peak
    rw [advance_calls, advance_peak]
    exact (List.length_filter_le _ _).trans hle

/-- And at some instant there are as many, if all that was asked takes time. -/
theorem Timeline.Runs.exists_peak (h : t.Runs s qs)
    (hdelay : ∀ q ∈ t.asked, (s.decide q).delay ≠ 0) :
    ∃ top : Timeline, top.Runs s qs ∧ Turns s top t ∧ top.calls.length = t.peak := by
  refine h.induction (P := fun t => (∀ q ∈ t.asked, (s.decide q).delay ≠ 0) →
    ∃ top : Timeline, top.Runs s qs ∧ Turns s top t ∧ top.calls.length = t.peak)
    (fun line hline _ => ⟨_, ⟨line, hline, .refl⟩, .refl, rfl⟩) (fun t t' hr ih ht hdelay => ?_)
    hdelay
  have hr' := hr.turn ht
  have htwice := ht
  cases ht with
  | @start q rest hline hroom =>
    rw [start_asked] at hdelay
    have hd : (s.decide q).delay ≠ 0 := hdelay q List.mem_cons_self
    obtain ⟨top, htop, hturns, hlen⟩ := ih fun x hx => hdelay x (List.mem_cons_of_mem _ hx)
    rw [start_peak]
    rcases Nat.le_total (t.calls.length + 1) t.peak with hle | hge
    · exact ⟨top, htop, hturns.tail htwice, hlen.trans (max_eq_left hle).symm⟩
    · refine ⟨_, hr', .refl, ?_⟩
      rw [start_eq_of_delay s _ hd]
      simpa using hge
  | @advance instant joined hstuck hnext hjoined =>
    obtain ⟨top, htop, hturns, hlen⟩ := ih fun x hx => hdelay x (by simpa using hx)
    exact ⟨top, htop, hturns.tail htwice, hlen.trans (advance_peak s t instant).symm⟩

-- ---------------------------------------------------------------------------
-- Counters on the way
-- ---------------------------------------------------------------------------

/-- What is asked is in flight or counted, and given up if it is late. -/
structure Counted (s : Setting) (t : Timeline) : Prop where
  abandoned : t.abandoned + (t.calls.countP fun c => s.late c.question) = t.asked.countP s.late
  tally : ∀ v o, t.tally.count v o +
      (t.calls.countP fun c => c.question.verb = v ∧ s.outcome c.question = o) =
    t.asked.countP fun q => q.verb = v ∧ s.outcome q = o

theorem Counted.start (h : Counted s t) {q : Question} {rest : List Question} :
    Counted s (Timeline.start s { t with line := rest } q) := by
  unfold Timeline.start
  by_cases hd : (s.decide q).delay = 0
  · -- a call that takes no time is in time
    have hlate : s.late q = false := by simp [Setting.late, hd]
    simp only [hd, if_true]
    constructor
    · simpa [hlate] using h.abandoned
    · intro v o
      have := h.tally v o
      simp only [settle_tally, settle_calls, settle_asked, Tally.count_recordQuestion,
        List.countP_cons, decide_eq_true_eq]
      omega
  · simp only [hd, if_false]
    constructor
    · have := h.abandoned
      simp only [List.countP_append, List.countP_cons, List.countP_nil]
      omega
    · intro v o
      have := h.tally v o
      simp only [List.countP_append, List.countP_cons, List.countP_nil]
      omega

theorem Counted.advance (h : Counted s t) (instant : Nat) (line : List Question) :
    Counted s { t.advance s instant with line } := by
  constructor
  · have hsplit := countP_calls_advance s t instant fun c => s.late c.question
    have := h.abandoned
    dsimp only
    rw [advance_abandoned, advance_asked]
    omega
  · intro v o
    have hsplit := countP_calls_advance s t instant
      fun c => c.question.verb = v ∧ s.outcome c.question = o
    have := h.tally v o
    dsimp only
    rw [advance_count, advance_asked]
    omega

theorem Counted.turn (h : Counted s t) (ht : Turn s t t') : Counted s t' := by
  cases ht with
  | start hline hroom => exact h.start
  | advance hstuck hnext hjoined => exact h.advance _ _

theorem Timeline.Runs.counted (h : t.Runs s qs) : Counted s t :=
  h.induction (P := Counted s) (fun _ _ => ⟨rfl, fun _ _ => rfl⟩) fun _ _ _ hc ht => hc.turn ht

end WatchGate.Probe
