import Mathlib.Algebra.Order.Floor.Div
import WatchGate.Proofs.Probe.Completion
import WatchGate.Proofs.Probe.Permits
import WatchGate.Proofs.Probe.Schedules
import WatchGate.Proofs.Probe.Turns

/-!
# WatchGate — probes in waves

Where every answer takes the same time, calls keep step: those that start
together end together, and the next ones start then. A run is a row of waves, and
all that matters of a wave is how many questions stand in line and how many these
will owe. `Waves` says this in numbers. Which of the questions in line owe others
is left open, and so is how many of those owed join after a wave, but for one
thing: a wave that takes the whole line leaves nothing owed. Two waves at most
are then not full, the one that takes the last root question and the last one.

`InStep` holds of an instant at which calls keep step, and `Waves.of_turns` finds
the waves in the turns of a clock. Without a limit there is a limit all the same,
which no run comes to.

Main results:

* `Waves.lt_length` and `Waves.widest_eq` — how many waves there are, and how
  wide they get.
* `Waves.of_turns` — every run is made of waves.
* `calls_in_waves` — what calls and time come to, under every limit.
-/

namespace WatchGate.Probe

variable {s : Setting} {qs : List Question} {t t' : Timeline}

-- ---------------------------------------------------------------------------
-- Waves in numbers
-- ---------------------------------------------------------------------------

/-- The sizes of the waves that a limit of `c` makes of `line` questions, of which
`owed` others follow. -/
inductive Waves (c : Nat) : Nat → Nat → List Nat → Prop
  | done : Waves c 0 0 []
  | wave {line owed joined : Nat} {sizes : List Nat} (hline : 0 < line) (hjoined : joined ≤ owed)
      (hall : line ≤ c → joined = owed)
      (hrest : Waves c (line - min c line + joined) (owed - joined) sizes) :
      Waves c line owed (min c line :: sizes)

/-- The size of the widest wave. -/
def widest (sizes : List Nat) : Nat := sizes.foldr max 0

@[simp] theorem widest_nil : widest [] = 0 := rfl

@[simp] theorem widest_cons (k : Nat) (sizes : List Nat) :
    widest (k :: sizes) = max k (widest sizes) := rfl

namespace Waves

variable {c line owed : Nat} {sizes : List Nat}

/-- With nothing in line there are no waves. -/
theorem eq_nil (h : Waves c 0 owed sizes) : owed = 0 ∧ sizes = [] := by
  cases h with
  | done => exact ⟨rfl, rfl⟩
  | wave hline => exact absurd hline (Nat.lt_irrefl 0)

/-- No wave is wider than the limit. -/
theorem le_length (h : Waves c line owed sizes) : line + owed ≤ c * sizes.length := by
  induction h with
  | done => exact Nat.zero_le _
  | wave hline hjoined hall hrest ih =>
    rw [List.length_cons, Nat.mul_succ]
    omega

/-- Where nothing is owed, only the last wave is not full. -/
theorem length_lt_of_none_owed (hc : 0 < c) (h : Waves c line 0 sizes) :
    c * sizes.length < line + c := by
  generalize ho : 0 = owed at h
  induction h with
  | done => simpa using hc
  | @wave line owed joined sizes hline hjoined hall hrest ih =>
    rw [List.length_cons, Nat.mul_succ]
    rcases Nat.lt_or_ge line c with hlt | hge
    · -- the line is taken, and no wave follows
      have hzero : line - min c line + joined = 0 := by omega
      rw [hzero] at hrest
      rw [hrest.eq_nil.2]
      simpa using hline
    · have := ih (by omega)
      omega

/-- In all two waves may be partly empty. -/
theorem length_lt (hc : 0 < c) (h : Waves c line owed sizes) :
    c * sizes.length < line + owed + 2 * c := by
  induction h with
  | done => simpa using hc
  | @wave line owed joined sizes hline hjoined hall hrest ih =>
    rw [List.length_cons, Nat.mul_succ]
    rcases Nat.lt_or_ge line c with hlt | hge
    · -- what was owed is in line now, and owes nothing
      obtain rfl : joined = owed := hall hlt.le
      rw [Nat.sub_self] at hrest
      have := hrest.length_lt_of_none_owed hc
      omega
    · omega

/-- How many waves there are. -/
theorem length_bounds (hc : 0 < c) (h : Waves c line owed sizes) :
    (line + owed) ⌈/⌉ c ≤ sizes.length ∧ sizes.length ≤ (line + owed) ⌈/⌉ c + 1 := by
  refine ⟨(ceilDiv_le_iff_le_mul hc).mpr h.le_length, ?_⟩
  have hceil : line + owed ≤ c * ((line + owed) ⌈/⌉ c) := (ceilDiv_le_iff_le_mul hc).mp le_rfl
  have hlt : c * sizes.length < c * ((line + owed) ⌈/⌉ c + 2) :=
    calc c * sizes.length
        < line + owed + 2 * c := h.length_lt hc
      _ ≤ c * ((line + owed) ⌈/⌉ c) + 2 * c := by omega
      _ = c * ((line + owed) ⌈/⌉ c + 2) := by ring
  exact Nat.le_of_lt_succ (Nat.lt_of_mul_lt_mul_left hlt)

/-- How wide the waves get: the first is as wide as the line, and if it takes the
whole line then the next is as wide as what was owed. -/
theorem widest_eq (h : Waves c line owed sizes) : widest sizes = min c (max line owed) := by
  induction h with
  | done => simp
  | @wave line owed joined sizes hline hjoined hall hrest ih =>
    rw [widest_cons, ih]
    rcases Nat.lt_or_ge line c with hlt | hge
    · have := hall hlt.le
      omega
    · omega

/-- The wave that begins is no wider than the widest. -/
theorem first_le_widest (h : Waves c line owed sizes) : min c line ≤ widest sizes := by
  rw [h.widest_eq]
  omega

/-- A limit that nothing comes to leaves one wave, and one for what is owed. -/
theorem length_of_fits (h : Waves c line owed sizes) (hline : 0 < line) (hl : line ≤ c)
    (ho : owed ≤ c) : sizes.length = if owed = 0 then 1 else 2 := by
  -- a wave that takes the whole line and is owed nothing is the last
  have hlast : ∀ {line sizes}, Waves c line 0 sizes → 0 < line → line ≤ c → sizes.length = 1 := by
    intro line sizes h hpos hle
    cases h with
    | done => exact absurd hpos (Nat.lt_irrefl 0)
    | @wave _ _ joined sizes _ hjoined _ hrest =>
      have hzero : line - min c line + joined = 0 := by omega
      rw [hzero] at hrest
      rw [List.length_cons, hrest.eq_nil.2]
      rfl
  cases h with
  | done => exact absurd hline (Nat.lt_irrefl 0)
  | @wave _ _ joined sizes _ _ hall hrest =>
    obtain rfl : joined = owed := hall hl
    have hnext : line - min c line + joined = joined := by omega
    rw [hnext, Nat.sub_self] at hrest
    split
    · next hzero =>
      subst hzero
      rw [List.length_cons, hrest.eq_nil.2]
      rfl
    · next hpos =>
      rw [List.length_cons, hlast hrest (Nat.pos_of_ne_zero hpos) ho]

end Waves

-- ---------------------------------------------------------------------------
-- Calls that keep step
-- ---------------------------------------------------------------------------

/-- How many questions follow from others. -/
def Setting.debt (s : Setting) (qs : List Question) : Nat := (qs.flatMap s.owes).length

@[simp] theorem debt_append (s : Setting) (as bs : List Question) :
    s.debt (as ++ bs) = s.debt as + s.debt bs := by
  simp only [Setting.debt, List.flatMap_append, List.length_append]

theorem debt_perm {as bs : List Question} (h : as.Perm bs) : s.debt as = s.debt bs :=
  (h.flatMap_right s.owes).length_eq

theorem debt_eq_zero {as : List Question} (h : ∀ q ∈ as, s.owes q = []) : s.debt as = 0 :=
  List.length_eq_zero_iff.mpr (List.flatMap_eq_nil_iff.mpr h)

/-- A question takes `d`, and so does each that it owes, which owes none. -/
structure Setting.Even (s : Setting) (d : Nat) (q : Question) : Prop where
  delay : (s.decide q).delay = d
  owed : ∀ x ∈ s.owes q, (s.decide x).delay = d ∧ s.owes x = []

theorem Setting.Even.of_mem_owes {d : Nat} {q x : Question} (h : s.Even d q) (hx : x ∈ s.owes q) :
    s.Even d x where
  delay := (h.owed x hx).1
  owed y hy := by
    rw [(h.owed x hx).2] at hy
    cases hy

/-- What even questions owe is even and owes nothing. -/
theorem even_of_mem_flatMap {d : Nat} {as : List Question} (h : ∀ q ∈ as, s.Even d q)
    {x : Question} (hx : x ∈ as.flatMap s.owes) : s.Even d x ∧ s.owes x = [] := by
  obtain ⟨q, hq, hx⟩ := List.mem_flatMap.mp hx
  exact ⟨(h q hq).of_mem_owes hx, ((h q hq).owed x hx).2⟩

/-- Room for `c` calls, as far as instants with no more than `most` calls go. -/
def Setting.RoomFor (s : Setting) (c most : Nat) : Prop :=
  ∀ t : Timeline, t.calls.length ≤ most → (t.hasRoom s = true ↔ t.calls.length < c)

theorem roomFor_of_slots {c : Nat} (h : s.limits.slots = some c) (most : Nat) :
    s.RoomFor c most := by
  intro t _
  simp only [Timeline.hasRoom, h, decide_eq_true_eq]

theorem roomFor_of_none (h : s.limits.slots = none) (most : Nat) : s.RoomFor (most + 1) most := by
  intro t ht
  simp only [Timeline.hasRoom, h, true_iff]
  omega

/-- The questions in flight and in line. -/
def Timeline.due (t : Timeline) : List Question := t.calls.map Call.question ++ t.line

theorem length_due (t : Timeline) : t.due.length = t.calls.length + t.line.length := by
  simp [Timeline.due]

/-- An instant at which calls keep step, in a run of at most `most` questions. -/
structure InStep (s : Setting) (d c most : Nat) (t : Timeline) : Prop where
  even : ∀ q ∈ t.due, s.Even d q
  ends : ∀ x ∈ t.calls, x.ending = t.now + min d s.limits.timeout
  room : t.calls.length ≤ c
  peak : t.calls.length ≤ t.peak
  most : t.due.length + s.debt t.due ≤ most

section InStep

variable {d c most : Nat}

theorem InStep.calls_le (h : InStep s d c most t) : t.calls.length ≤ most := by
  have hmost := h.most
  have hlen := length_due t
  omega

/-- What a start does among calls that keep step. -/
structure StartsInStep (s : Setting) (d c most : Nat) (t t' : Timeline) : Prop where
  inStep : InStep s d c most t'
  due : t'.due = t.due
  now : t'.now = t.now
  peak : t'.peak = max t.peak (t.calls.length + 1)
  within : t.calls.length + 1 ≤ min c t.due.length

theorem InStep.start (hd : 1 ≤ d) (hroomFor : s.RoomFor c most)
    (h : InStep s d c most t) {q : Question} {rest : List Question} (hline : t.line = q :: rest)
    (hroom : t.hasRoom s = true) :
    StartsInStep s d c most t (Timeline.start s { t with line := rest } q) := by
  have hlt : t.calls.length < c := (hroomFor t h.calls_le).mp hroom
  have heven : s.Even d q := h.even q (by simp [Timeline.due, hline])
  have hdelay : (s.decide q).delay ≠ 0 := by
    rw [heven.delay]
    omega
  rw [start_eq_of_delay s _ hdelay]
  have hdue : (t.calls ++ [Call.mk q (t.now + s.duration q)]).map Call.question ++ rest =
      t.due := by
    simp [Timeline.due, hline]
  refine ⟨⟨?_, ?_, ?_, ?_, ?_⟩, hdue, rfl, rfl, ?_⟩
  · intro x hx
    exact h.even x (hdue ▸ hx)
  · intro x hx
    rcases List.mem_append.mp hx with hx | hx
    · exact h.ends x hx
    · rw [List.mem_singleton.mp hx, Setting.duration, heven.delay]
  · simp only [List.length_append, List.length_singleton]
    omega
  · simp
  · have := h.most
    rwa [← hdue] at this
  · rw [length_due, hline, List.length_cons]
    omega

/-- The calls in flight all end at the next end, and nothing else is left of the wave. -/
theorem InStep.ending_eq {instant : Nat} (h : InStep s d c most t)
    (hnext : Timeline.nextEnd t.calls = some instant) :
    instant = t.now + min d s.limits.timeout ∧ t.ending instant = t.calls ∧
      (t.advance s instant).calls = [] := by
  obtain ⟨first, hfirst, hend⟩ := exists_of_nextEnd hnext
  have hinstant : instant = t.now + min d s.limits.timeout := hend.symm.trans (h.ends first hfirst)
  have hall : ∀ x ∈ t.calls, x.ending = instant := fun x hx => (h.ends x hx).trans hinstant.symm
  refine ⟨hinstant, List.filter_eq_self.mpr fun x hx => decide_eq_true (hall x hx), ?_⟩
  rw [advance_calls, List.filter_eq_nil_iff]
  intro x hx
  simpa using hall x hx

/-- Where nothing can start, the line is taken or there are as many calls as there may be. -/
theorem InStep.full (hroomFor : s.RoomFor c most) (h : InStep s d c most t)
    (hstuck : t.line = [] ∨ t.hasRoom s = false) : t.line = [] ∨ t.calls.length = c := by
  refine hstuck.imp_right fun hno => ?_
  have hle := h.room
  have hge : ¬ t.calls.length < c := by
    rw [← hroomFor t h.calls_le, hno]
    exact Bool.false_ne_true
  omega

/-- What the end of a wave does. -/
structure EndsInStep (s : Setting) (d c most : Nat) (t t' : Timeline) : Prop where
  inStep : InStep s d c most t'
  now : t'.now = t.now + min d s.limits.timeout
  peak : t'.peak = t.peak
  size : t.calls.length = min c t.due.length
  some : 0 < t.due.length
  wave : ∃ joined ≤ s.debt t.due, (t.due.length ≤ c → joined = s.debt t.due) ∧
    t'.due.length = t.due.length - min c t.due.length + joined ∧
    s.debt t'.due = s.debt t.due - joined

theorem InStep.advance {instant : Nat} (hroomFor : s.RoomFor c most)
    (h : InStep s d c most t) (hstuck : t.line = [] ∨ t.hasRoom s = false)
    (hnext : Timeline.nextEnd t.calls = some instant) {joined : List Question}
    (hjoined : joined.Perm (t.joining s instant)) :
    EndsInStep s d c most t { t.advance s instant with line := t.line ++ joined } := by
  obtain ⟨hinstant, hending, hcalls⟩ := h.ending_eq hnext
  rw [Timeline.joining, hending, ← List.flatMap_map] at hjoined
  have hpos : 0 < t.calls.length := by
    obtain ⟨first, hfirst, -⟩ := exists_of_nextEnd hnext
    exact List.length_pos_of_mem hfirst
  -- what joins is what the calls owed, and owes nothing
  have hlength : joined.length = s.debt (t.calls.map Call.question) := hjoined.length_eq
  have heven : ∀ x ∈ joined, s.Even d x ∧ s.owes x = [] := fun x hx =>
    even_of_mem_flatMap (fun q hq => h.even q (List.mem_append_left _ hq)) (hjoined.mem_iff.mp hx)
  have hnone : s.debt joined = 0 := debt_eq_zero fun x hx => (heven x hx).2
  -- a line that is taken owes nothing
  have hline : t.line = [] ∧ t.line.length = 0 ∧ s.debt t.line = 0 ∨ t.calls.length = c :=
    (h.full hroomFor hstuck).imp_left fun hnil => ⟨hnil, by rw [hnil]; exact ⟨rfl, rfl⟩⟩
  have hlen := length_due t
  have hdebt : s.debt t.due = joined.length + s.debt t.line := by
    rw [Timeline.due, debt_append, hlength]
  have hmost := h.most
  have hroom := h.room
  have hnow := advance_now s t instant
  have hpeak := advance_peak s t instant
  generalize t.advance s instant = next at hcalls hnow hpeak ⊢
  have hdue : Timeline.due { next with line := t.line ++ joined } = t.line ++ joined := by
    simp [Timeline.due, hcalls]
  have hdueLen : (t.line ++ joined).length = t.line.length + joined.length := List.length_append
  have hdueDebt : s.debt (t.line ++ joined) = s.debt t.line := by rw [debt_append, hnone]; rfl
  constructor
  case inStep =>
    refine ⟨?_, by simp [hcalls], by simp [hcalls], by simp [hcalls], by rw [hdue]; omega⟩
    rw [hdue]
    intro x hx
    rcases List.mem_append.mp hx with hx | hx
    · exact h.even x (List.mem_append_right _ hx)
    · exact (heven x hx).1
  case now => exact hnow.trans hinstant
  case peak => exact hpeak
  case size => omega
  case some => omega
  case wave =>
    refine ⟨joined.length, by omega, fun hle => ?_, by rw [hdue]; omega, by rw [hdue]; omega⟩
    rcases hline with ⟨-, -, hzero⟩ | hfull
    · omega
    · -- the calls are all that was due
      have hnil : t.line = [] := List.length_eq_zero_iff.mp (by omega)
      rw [hdebt, hnil]
      rfl

/-- A run whose calls keep step is made of waves. -/
theorem Waves.of_turns (hd : 1 ≤ d) (hroomFor : s.RoomFor c most)
    (h : Turns s t t') (hdone : t'.Done) (hin : InStep s d c most t) :
    ∃ sizes, Waves c t.due.length (s.debt t.due) sizes ∧
      t'.now = t.now + sizes.length * min d s.limits.timeout ∧
      t'.peak = max t.peak (widest sizes) := by
  induction h using Relation.ReflTransGen.head_induction_on with
  | refl =>
    have hdue : t'.due = [] := by simp [Timeline.due, hdone.1, hdone.2]
    rw [hdue]
    exact ⟨[], .done, by simp, by simp⟩
  | @head t next hturn _ ih =>
    cases hturn with
    | start hline hroom =>
      -- a start is within the wave that begins
      have hs := hin.start hd hroomFor hline hroom
      obtain ⟨sizes, hw, hnow, hpeak⟩ := ih hs.inStep
      rw [hs.due] at hw
      refine ⟨sizes, hw, by rw [hnow, hs.now], ?_⟩
      have hfirst := hw.first_le_widest
      have hwithin := hs.within
      rw [hpeak, hs.peak]
      omega
    | advance hstuck hnext hjoined =>
      -- the wave ends, with as many calls as there was room for
      have he := hin.advance hroomFor hstuck hnext hjoined
      obtain ⟨sizes, hw, hnow, hpeak⟩ := ih he.inStep
      obtain ⟨joined, hle, hall, hlen, hdebt⟩ := he.wave
      rw [hlen, hdebt] at hw
      refine ⟨_, .wave he.some hle hall hw, ?_, ?_⟩
      · rw [hnow, he.now, List.length_cons]
        ring
      · have hreached := hin.peak
        have hsize := he.size
        rw [hpeak, he.peak, widest_cons]
        omega

end InStep

-- ---------------------------------------------------------------------------
-- Calls and time
-- ---------------------------------------------------------------------------

/-- How many questions follow from root questions that are denied for the whole
cluster, where every answer takes `d`. -/
def Setting.fannedOut (s : Setting) (d : Nat) (qs : List Question) : Nat :=
  if d ≤ s.limits.timeout then
    s.namespaces.length * qs.countP fun q => (s.decide q).verdict = .deny ∧ q.ns = ""
  else 0

theorem debt_eq_fannedOut {d : Nat} (hdelay : ∀ q ∈ qs, (s.decide q).delay = d) :
    s.debt qs = s.fannedOut d qs := by
  have hdenied : ∀ q ∈ qs, (s.outcome q = .denied ∧ q.clusterWide = true ↔
      d ≤ s.limits.timeout ∧ (s.decide q).verdict = .deny ∧ q.ns = "") := by
    intro q hq
    rw [Setting.outcome_eq_denied_iff, hdelay q hq, Question.clusterWide, String.isEmpty_iff]
    tauto
  have hcount : (qs.countP fun q => s.outcome q = .denied ∧ q.clusterWide = true) = qs.countP
      fun q => d ≤ s.limits.timeout ∧ (s.decide q).verdict = .deny ∧ q.ns = "" :=
    List.countP_congr fun q hq => by simpa only [decide_eq_true_eq] using hdenied q hq
  rw [Setting.debt, length_flatMap_owes, Setting.fannedOut, hcount]
  split
  · next hle => simp [hle]
  · next hlt => simp [hlt]

/-- Where every question of a run takes `d`, calls keep step. -/
theorem even_of_delay {d : Nat} (hn : s.Named)
    (hdelay : ∀ q ∈ s.allAsked qs, (s.decide q).delay = d) {q : Question} (hq : q ∈ qs) :
    s.Even d q where
  delay := hdelay q (List.mem_flatMap.mpr ⟨q, hq, by simp [Setting.asked_eq_cons]⟩)
  owed x hx :=
    ⟨hdelay x (List.mem_flatMap.mpr ⟨q, hq, by simp [Setting.asked_eq_cons, hx]⟩),
      owes_of_mem_owes hn hx⟩

/-- From the root questions in any order, a run is made of waves. -/
theorem Timeline.Runs.exists_waves {d c : Nat} (hd : 1 ≤ d)
    (hroomFor : s.RoomFor c (qs.length + s.debt qs)) (heven : ∀ q ∈ qs, s.Even d q)
    (h : t.Runs s qs) (hdone : t.Done) :
    ∃ sizes, Waves c qs.length (s.debt qs) sizes ∧
      t.now = sizes.length * min d s.limits.timeout ∧ t.peak = widest sizes := by
  obtain ⟨line, hline, hturns⟩ := h
  have hin : InStep s d c (qs.length + s.debt qs) (.initial line) := by
    refine ⟨fun q hq => heven q (hline.mem_iff.mp hq), fun x hx => absurd hx List.not_mem_nil,
      Nat.zero_le _, Nat.zero_le _, ?_⟩
    rw [← hline.length_eq, ← debt_perm hline]
    exact le_rfl
  obtain ⟨sizes, hw, hnow, hpeak⟩ := Waves.of_turns hd hroomFor hturns hdone hin
  refine ⟨sizes, ?_, ?_, ?_⟩
  · rw [← hline.length_eq, ← debt_perm hline]
    exact hw
  · rw [hnow]
    exact Nat.zero_add _
  · rw [hpeak]
    exact Nat.zero_max _

theorem Setting.outcome_eq_failed_iff {q : Question} : s.outcome q = .failed ↔
    s.limits.timeout < (s.decide q).delay ∨ (s.decide q).verdict = .error := by
  rw [s.outcome_eq_delay q]
  by_cases hl : s.limits.timeout < (s.decide q).delay
  · simp [hl]
  · cases (s.decide q).verdict <;> simp [hl]

/-- How a run comes out in which every answer takes `d`. -/
structure Paced (s : Setting) (qs : List Question) (d : Nat) (t : Timeline) : Prop where
  /-- the peak is the most calls that were in flight at an instant on the way -/
  peak_le : ∀ before : Timeline, before.Runs s qs → Turns s before t →
    before.calls.length ≤ t.peak
  peak_reached : ∃ before : Timeline, before.Runs s qs ∧ Turns s before t ∧
    before.calls.length = t.peak
  /-- under a limit there are as many calls at once as it lets through, and as many waves as it
  takes to let all through, or one more -/
  limited : ∀ c, s.limits.permits = some c → 0 < c →
    t.peak = min c (max qs.length (s.fannedOut d qs)) ∧
    ∃ w, t.now = w * min d s.limits.timeout ∧
      (qs.length + s.fannedOut d qs) ⌈/⌉ c ≤ w ∧ w ≤ (qs.length + s.fannedOut d qs) ⌈/⌉ c + 1
  /-- without one the root questions are one wave, and what follows from them is another -/
  unlimited : s.limits.permits = none ∨ s.limits.permits = some 0 →
    t.peak = max qs.length (s.fannedOut d qs) ∧
    t.now = (if s.fannedOut d qs = 0 then 1 else 2) * min d s.limits.timeout
  /-- some schedule asks, grants and records the same -/
  schedule : ∃ st, Reachable s qs st ∧ st.finished = true ∧ st.asked = t.asked.reverse ∧
    st.grants = t.grants.reverse ∧ st.tally = t.tally
  asked : t.asked.Perm (s.allAsked qs)
  /-- no call is given up for the time that it waited -/
  abandoned : t.abandoned = if s.limits.timeout < d then qs.length else 0
  failed : ∀ v, t.tally.count v .failed = t.asked.countP
    fun q => q.verb = v ∧ (s.limits.timeout < d ∨ (s.decide q).verdict = .error)

/--
**Calls in waves.** Every namespace has a name, there are root questions, and
every answer takes the same time `d`, which is not zero. A clock from the root
questions in any order, where what is owed at an instant joins the line in any
order, stops after so many turns at most as there are in its potential, and the
run of `Setting.report` is one of its runs. Wherever it stops, `n` root questions
have been asked and `k` that followed from denials for the whole cluster. Under a
limit of `c` the calls at once came to the least of `c` and the greater of `n`
and `k`, and the time to a whole number of waves, which is `(n + k) / c` rounded
up or one more. Without a limit the calls at once came to the greater of `n` and
`k`, and the time to two waves, or one if nothing followed. The time for which a
question waits for its permit gives up no call and fails no question.
-/
theorem calls_in_waves (s : Setting) (qs : List Question) (d : Nat)
    (hn : ∀ n ∈ s.namespaces, n ≠ "") (hqs : qs ≠ []) (hd : 1 ≤ d)
    (hdelay : ∀ q ∈ s.allAsked qs, (s.decide q).delay = d) :
    (∃ t : Timeline, t.Runs s qs ∧ t.Done ∧ s.report qs = t.report) ∧
    (∀ t t', Turn s t t' → t'.potential s < t.potential s) ∧
    (∀ t : Timeline, t.Runs s qs → ∃ t', Turns s t t' ∧ t'.Done) ∧
    ∀ t : Timeline, t.Runs s qs → t.Done → Paced s qs d t := by
  have hgo := go_done hn (potential_initial_le s qs)
  refine ⟨⟨_, runs_go s qs _, hgo, rfl⟩, fun t t' h => h.potential_lt hn,
    fun t _ => exists_done hn t, fun t h hdone => ?_⟩
  have heven : ∀ q ∈ qs, s.Even d q := fun q hq => even_of_delay hn hdelay hq
  have hdebt : s.debt qs = s.fannedOut d qs := debt_eq_fannedOut fun q hq => (heven q hq).delay
  obtain ⟨st, hr, hf, hasked, hgrants, htally⟩ := h.exists_finished hdone
  have hperm : t.asked.Perm (s.allAsked qs) := by
    have := hr.asked_perm_allAsked hn hf
    rw [hasked] at this
    exact (List.reverse_perm _).symm.trans this
  have hdelayed : ∀ q ∈ t.asked, (s.decide q).delay = d :=
    fun q hq => hdelay q (hperm.mem_iff.mp hq)
  constructor
  case peak_le =>
    intro before hbefore hturns
    exact hbefore.calls_le_peak.trans (peak_le_of_turns hturns)
  case peak_reached =>
    refine h.exists_peak fun q hq => ?_
    rw [hdelayed q hq]
    omega
  case limited =>
    intro c hpermits hc
    obtain ⟨sizes, hw, hnow, hpeak⟩ :=
      h.exists_waves hd (roomFor_of_slots (slots_of_pos hc hpermits) _) heven hdone
    rw [hdebt] at hw
    exact ⟨hpeak.trans hw.widest_eq, sizes.length, hnow, hw.length_bounds hc⟩
  case unlimited =>
    intro hpermits
    have hslots : s.limits.slots = none := by
      rcases hpermits with hp | hp <;> simp [Limits.slots, hp]
    obtain ⟨sizes, hw, hnow, hpeak⟩ := h.exists_waves hd (roomFor_of_none hslots _) heven hdone
    rw [hdebt] at hw
    have hpos : 0 < qs.length := List.length_pos_iff.mpr hqs
    refine ⟨?_, ?_⟩
    · rw [hpeak, hw.widest_eq]
      omega
    · rw [hnow, hw.length_of_fits hpos (by omega) (by omega)]
  case schedule => exact ⟨st, hr, hf, hasked, hgrants, htally⟩
  case asked => exact hperm
  case abandoned =>
    have hcount := h.counted.abandoned
    rw [hdone.2, List.countP_nil, Nat.add_zero] at hcount
    have hlate : ∀ q ∈ t.asked, s.late q = decide (s.limits.timeout < d) := by
      intro q hq
      rw [Setting.late, hdelayed q hq]
    rw [hcount, List.countP_congr fun q hq => by rw [hlate q hq]]
    split
    · next hlt =>
      -- every question is late, and none follows
      have howes := (hr.asked_perm_owes hn hf).length_eq
      have hzero : s.fannedOut d qs = 0 := if_neg (Nat.not_le.mpr hlt)
      rw [hasked, List.length_reverse, List.length_append] at howes
      simpa [hlt] using howes.trans (congrArg (qs.length + ·) (hdebt.trans hzero))
    · next hge => simp [hge]
  case failed =>
    intro v
    have hcount := h.counted.tally v .failed
    rw [hdone.2, List.countP_nil, Nat.add_zero] at hcount
    rw [hcount]
    refine List.countP_congr fun q hq => ?_
    rw [decide_eq_true_eq, decide_eq_true_eq, Setting.outcome_eq_failed_iff, hdelayed q hq]

/-- Pods may be watched in three teams' namespaces and not at large, every answer
takes all the time that it may, and two calls may be in flight. -/
def slowTeams : Setting where
  decide q := ⟨if q.ns = "" then .deny else .allow, 5⟩
  namespaces := ["team-a", "team-b", "team-c"]
  limits := ⟨5, some 2⟩

/-- Four calls in two waves or three: as nothing can start beside the root question, there are
three. -/
theorem slowTeams_waves :
    ((∀ n ∈ slowTeams.namespaces, n ≠ "") ∧ [watchPods] ≠ [] ∧
      ∀ q ∈ slowTeams.allAsked [watchPods], (slowTeams.decide q).delay = 5) ∧
    (slowTeams.report [watchPods]).elapsed = 3 * 5 ∧
    ∀ t : Timeline, t.Runs slowTeams [watchPods] → t.Done →
      t.peak = 2 ∧ (∃ w, t.now = w * 5 ∧ 2 ≤ w ∧ w ≤ 3) ∧ t.abandoned = 0 := by
  have hn : ∀ n ∈ slowTeams.namespaces, n ≠ "" := by decide
  have hdelay : ∀ q ∈ slowTeams.allAsked [watchPods], (slowTeams.decide q).delay = 5 :=
    fun _ _ => rfl
  refine ⟨⟨hn, by decide, hdelay⟩, by decide +kernel, fun t h hdone => ?_⟩
  have hpaced := (calls_in_waves slowTeams [watchPods] 5 hn (by decide) (by decide) hdelay).2.2.2
    t h hdone
  obtain ⟨hpeak, w, hnow, hge, hle⟩ := hpaced.limited 2 rfl (by decide)
  have hceil : ([watchPods].length + slowTeams.fannedOut 5 [watchPods]) ⌈/⌉ 2 = 2 := by
    decide +kernel
  rw [hceil] at hge hle
  exact ⟨hpeak.trans (by decide +kernel), ⟨w, hnow, hge, hle⟩, hpaced.abandoned⟩

end WatchGate.Probe
