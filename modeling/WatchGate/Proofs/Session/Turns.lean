import Mathlib.Data.List.Induction
import WatchGate.Multiwatch.Session

/-!
# WatchGate — the turns of a watch session

`Session.step` takes an event and says whether it may happen. `Turn` says the
same the other way round: one constructor for each thing that may come of an
event, with the condition under which it comes and the state that it leaves. A
dial that fails and a feed that closes each come to one of two things, and which
one hangs on the other feeds: `Deserted` says of a place that nothing is awaited
of any other.

Whatever is proved about sessions is proved by cases on `Turn`, so that `step` is
opened here and nowhere else. Schedules are read from their end: `run_induction`
hands on the events that led to a state together with the state.

Main results:

* `step_eq_some_iff` — `step` and `Turn` agree.
* `run_induction` — what holds at first and is kept by every turn holds behind
  every schedule.
-/

namespace WatchGate.Multiwatch

/-- Whether a session waits for anything of a feed: for its dial, or for its
frames and its end. -/
def Feed.isAwaited (f : Feed) : Bool := f.isLeg || f.isDialing

/-- How a session ends with an item of its client, if it does. -/
def Item.ending? : Item → Option Ending
  | .close => some .clientClosed
  | .failure => some .clientFailed
  | .finish => some .clientGone
  | .text _ | .binary _ | .ping _ | .pong _ | .frame => none

namespace Session

-- ---------------------------------------------------------------------------
-- The other feeds
-- ---------------------------------------------------------------------------

/-- Nothing is awaited of any feed but the one at a place. -/
def Deserted (s : Session) (i : Nat) : Prop :=
  ∀ j g, j ≠ i → s.feeds[j]? = some g → g.isAwaited = false

section Others

variable {s : Session} {i : Nat} {f g : Feed}

theorem countP_set_eq_zero_iff {α : Type} {p : α → Bool} {xs : List α} {x : α}
    (hi : i < xs.length) (hx : p x = false) :
    (xs.set i x).countP p = 0 ↔ ∀ j y, j ≠ i → xs[j]? = some y → p y = false := by
  rw [List.countP_eq_zero]
  constructor
  · intro h j y hj hy
    have hmem : y ∈ xs.set i x := by
      refine List.mem_iff_getElem?.mpr ⟨j, ?_⟩
      rwa [List.getElem?_set_ne (Ne.symm hj)]
    simpa using h y hmem
  · intro h y hy
    obtain ⟨j, hj⟩ := List.mem_iff_getElem?.mp hy
    by_cases hij : i = j
    · rw [← hij, List.getElem?_set_self hi, Option.some.injEq] at hj
      simp [← hj, hx]
    · rw [List.getElem?_set_ne hij] at hj
      simp [h j y (Ne.symm hij) hj]

theorem lt_length_of_feed (hf : s.feeds[i]? = some f) : i < s.feeds.length :=
  (List.getElem?_eq_some_iff.mp hf).1

/-- With nothing awaited of a feed any more, a session is idle when it was
deserted but for this feed. -/
theorem idle_setFeed_iff (hf : s.feeds[i]? = some f) (hg : g.isAwaited = false) :
    (s.setFeed i g).idle = true ↔ s.Deserted i := by
  have hi := lt_length_of_feed hf
  rw [Feed.isAwaited, Bool.or_eq_false_iff] at hg
  unfold Session.idle Session.legs Session.dialing Session.setFeed Deserted
  simp only [Bool.and_eq_true, beq_iff_eq]
  rw [countP_set_eq_zero_iff hi hg.1, countP_set_eq_zero_iff hi hg.2]
  simp only [Feed.isAwaited, Bool.or_eq_false_iff]
  constructor
  · rintro ⟨hl, hd⟩ j y hj hy
    exact ⟨hl j y hj hy, hd j y hj hy⟩
  · intro h
    exact ⟨fun j y hj hy => (h j y hj hy).1, fun j y hj hy => (h j y hj hy).2⟩

theorem dialing_setFeed_eq_zero_iff (hf : s.feeds[i]? = some f) (hg : g.isDialing = false) :
    (s.setFeed i g).dialing = 0 ↔
      ∀ j y, j ≠ i → s.feeds[j]? = some y → y.isDialing = false :=
  countP_set_eq_zero_iff (lt_length_of_feed hf) hg

theorem isDialing_iff : f.isDialing = true ↔ f.stage = .dialing := by
  simp [Feed.isDialing]

theorem atHead_iff : s.atHead = true ↔ s.phase = .running ∧ s.writing = none := by
  simp [Session.atHead]

end Others

-- ---------------------------------------------------------------------------
-- Turns
-- ---------------------------------------------------------------------------

/-- What may come of an event, and the state that it leads to. -/
inductive Turn (s : Session) : Event → Session → Prop
  /-- the first dial to succeed -/
  | opened {i f} (hp : s.phase = .opening) (hf : s.feeds[i]? = some f) (hd : f.stage = .dialing) :
      Turn s (.dialed i true) { s with
        feeds := s.feeds.set i { f with stage := .ready }
        phase := .upgrading i
        tally := s.tally.dial true }
  | refused {i f} (hp : s.phase = .opening) (hf : s.feeds[i]? = some f) (hd : f.stage = .dialing)
      (hn : ∃ j g, j ≠ i ∧ s.feeds[j]? = some g ∧ g.isDialing = true) :
      Turn s (.dialed i false) { s with
        feeds := s.feeds.set i { f with stage := .refused }
        tally := s.tally.dial false }
  /-- no dial has succeeded -/
  | rejected {i f} (hp : s.phase = .opening) (hf : s.feeds[i]? = some f) (hd : f.stage = .dialing)
      (hn : ∀ j g, j ≠ i → s.feeds[j]? = some g → g.isDialing = false) :
      Turn s (.dialed i false) { s with
        feeds := s.feeds.set i { f with stage := .refused }
        phase := .rejected
        tally := s.tally.dial false }
  /-- a dial that succeeds later -/
  | joined {i f} (hp : s.phase = .running) (hw : s.writing = none)
      (hf : s.feeds[i]? = some f) (hd : f.stage = .dialing) :
      Turn s (.dialed i true) { s with
        feeds := s.feeds.set i { f with stage := .relaying }
        tally := s.tally.dial true }
  | missed {i f} (hp : s.phase = .running) (hw : s.writing = none)
      (hf : s.feeds[i]? = some f) (hd : f.stage = .dialing) (hn : ¬ s.Deserted i) :
      Turn s (.dialed i false) { s with
        feeds := s.feeds.set i { f with stage := .refused }
        tally := s.tally.dial false }
  /-- the last dial fails, and no feed is left -/
  | missedLast {i f} (hp : s.phase = .running) (hw : s.writing = none)
      (hf : s.feeds[i]? = some f) (hd : f.stage = .dialing) (hn : s.Deserted i) :
      Turn s (.dialed i false) { s with
        feeds := s.feeds.set i { f with stage := .refused }
        phase := .flushing .dialsFailed
        tally := s.tally.dial false }
  | upgraded {i f} (hp : s.phase = .upgrading i) (hf : s.feeds[i]? = some f) :
      Turn s (.upgraded true) { s with
        feeds := s.feeds.set i { f with stage := .relaying }
        phase := .running
        tally := s.tally.opened }
  | notUpgraded {i f} (hp : s.phase = .upgrading i) (hf : s.feeds[i]? = some f) :
      Turn s (.upgraded false) { s with phase := .closed .notUpgraded }
  | read {i f x} (ha : s.alive = true) (hf : s.feeds[i]? = some f) (hr : f.stage = .relaying)
      (hh : f.hand = none) :
      Turn s (.read i x) { s with feeds := s.feeds.set i (f.take x) }
  | crash {i f} (ha : s.alive = true) (hf : s.feeds[i]? = some f) (hr : f.stage = .relaying)
      (hh : f.hand = none) :
      Turn s (.crash i) { s with feeds := s.feeds.set i { f with stage := .finished .crashed } }
  | enqueue {i f p} (ha : s.alive = true) (hf : s.feeds[i]? = some f) (hh : f.hand = some p)
      (hq : s.queue.length < s.capacity) :
      Turn s (.enqueue i) { s with
        feeds := s.feeds.set i { f with hand := none }
        queue := s.queue ++ [(i, p)] }
  | take {x rest} (ha : s.alive = true) (hw : s.writing = none) (hq : s.queue = x :: rest) :
      Turn s .take { s with queue := rest, writing := some x }
  | wrote {x} (hw : s.writing = some x) :
      Turn s (.wrote true) { s with
        writing := none
        delivered := s.delivered ++ [x]
        tally := s.tally.relayed }
  /-- a write fails -/
  | lost {x} (hw : s.writing = some x) (hp : s.phase = .running) :
      Turn s (.wrote false) { s with
        writing := none
        phase := .closed .writeFailed
        tally := s.tally.closed }
  /-- a write fails while the session writes what the queue holds -/
  | cut {x why} (hw : s.writing = some x) (hp : s.phase = .flushing why) :
      Turn s (.wrote false) { s with
        writing := none
        phase := .closed why
        tally := s.tally.closed }
  /-- a feed has closed -/
  | noted {i f} (hp : s.phase = .running) (hw : s.writing = none) (hf : s.feeds[i]? = some f)
      (hs : f.stage = .finished .clean) (hn : ¬ s.Deserted i) :
      Turn s (.note i) { s with feeds := s.feeds.set i { f with stage := .noted .clean } }
  /-- the last feed has closed, and no dial is left -/
  | notedLast {i f} (hp : s.phase = .running) (hw : s.writing = none) (hf : s.feeds[i]? = some f)
      (hs : f.stage = .finished .clean) (hn : s.Deserted i) :
      Turn s (.note i) { s with
        feeds := s.feeds.set i { f with stage := .noted .clean }
        phase := .flushing .feedsEnded }
  /-- a feed has failed -/
  | failed {i f fate} (hp : s.phase = .running) (hw : s.writing = none)
      (hf : s.feeds[i]? = some f) (hs : f.stage = .finished fate) (hc : fate ≠ .clean) :
      Turn s (.note i) { s with
        feeds := s.feeds.set i { f with stage := .noted fate }
        phase := .flushing (.feedFailed i) }
  | heard {x} (hp : s.phase = .running) (hw : s.writing = none) (hx : x.ending? = none) :
      Turn s (.client x) s
  /-- the client is gone -/
  | left {x why} (hp : s.phase = .running) (hw : s.writing = none) (hx : x.ending? = some why) :
      Turn s (.client x) { s with phase := .closed why, tally := s.tally.closed }
  | drained {why} (hp : s.phase = .flushing why) (hw : s.writing = none) (hq : s.queue = []) :
      Turn s .drained { s with phase := .closed why, tally := s.tally.closed }

variable {start s t : Session} {e : Event} {es : List Event} {i : Nat} {f : Feed}

theorem afterDial_turn {ok : Bool} (hf : s.feeds[i]? = some f) (hd : f.stage = .dialing)
    (h : s.afterDial i f ok = some t) : Turn s (.dialed i ok) t := by
  unfold Session.afterDial at h
  split at h
  · next hp =>
    cases ok with
    | true =>
      simp only [if_true, Option.some.injEq] at h
      subst h
      exact .opened hp hf hd
    | false =>
      -- with no dial left the client is rejected: no feed has begun to relay
      simp only [Bool.false_eq_true, if_false, Option.some.injEq] at h
      have hzero := dialing_setFeed_eq_zero_iff (g := { f with stage := .refused }) hf rfl
      split at h
      · next hn =>
        subst h
        exact .rejected hp hf hd (hzero.mp hn)
      · next hn =>
        subst h
        have hsome : ∃ j g, j ≠ i ∧ s.feeds[j]? = some g ∧ g.isDialing = true := by
          have hnot := mt hzero.mpr hn
          push Not at hnot
          simpa using hnot
        exact .refused hp hf hd hsome
  · next hp =>
    split at h
    · cases h
    · next hw =>
      have hw : s.writing = none := by simpa using hw
      cases ok with
      | true =>
        simp only [if_true, Option.some.injEq] at h
        subst h
        exact .joined hp hw hf hd
      | false =>
        -- here feeds that relay count as well
        simp only [Bool.false_eq_true, if_false, Option.some.injEq] at h
        have hidle := idle_setFeed_iff (g := { f with stage := .refused }) hf rfl
        split at h
        · next hn =>
          subst h
          exact .missedLast hp hw hf hd (hidle.mp hn)
        · next hn =>
          subst h
          exact .missed hp hw hf hd (mt hidle.mpr hn)
  · cases h

theorem afterNote_turn {fate : Fate} (hh : s.atHead = true) (hf : s.feeds[i]? = some f)
    (hs : f.stage = .finished fate) : Turn s (.note i) (s.afterNote i f fate) := by
  obtain ⟨hp, hw⟩ := atHead_iff.mp hh
  unfold Session.afterNote
  cases fate with
  | clean =>
    have hidle := idle_setFeed_iff (g := { f with stage := .noted .clean }) hf rfl
    simp only
    split
    · next hn => exact .notedLast hp hw hf hs (hidle.mp hn)
    · next hn => exact .noted hp hw hf hs (mt hidle.mpr hn)
  | failed => exact .failed hp hw hf hs nofun
  | crashed => exact .failed hp hw hf hs nofun

theorem turn_of_step (h : s.step e = some t) : Turn s e t := by
  cases e with
  | dialed i ok =>
    cases hf : s.feeds[i]? with
    | none => simp [Session.step, hf] at h
    | some f =>
      simp only [Session.step, hf] at h
      split at h
      · next hd => exact afterDial_turn hf (isDialing_iff.mp hd) h
      · cases h
  | upgraded ok =>
    simp only [Session.step] at h
    split at h
    · next i hp =>
      cases hf : s.feeds[i]? with
      | none => simp [Session.afterUpgrade, hf] at h
      | some f =>
        cases ok with
        | true =>
          simp only [Session.afterUpgrade, hf, if_true, Option.some.injEq] at h
          subst h
          exact .upgraded hp hf
        | false =>
          simp only [Session.afterUpgrade, hf, Bool.false_eq_true, if_false,
            Option.some.injEq] at h
          subst h
          exact .notUpgraded hp hf
    · cases h
  | read i x =>
    cases hf : s.feeds[i]? with
    | none => simp [Session.step, hf] at h
    | some f =>
      simp only [Session.step, hf] at h
      split at h
      · next hc =>
        cases h
        exact .read hc.1 hf hc.2.1 hc.2.2
      · cases h
  | crash i =>
    cases hf : s.feeds[i]? with
    | none => simp [Session.step, hf] at h
    | some f =>
      simp only [Session.step, hf] at h
      split at h
      · next hc =>
        cases h
        exact .crash hc.1 hf hc.2.1 hc.2.2
      · cases h
  | enqueue i =>
    cases hf : s.feeds[i]? with
    | none => simp [Session.step, hf] at h
    | some f =>
      cases hh : f.hand with
      | none => simp [Session.step, hf, hh] at h
      | some p =>
        simp only [Session.step, hf, hh] at h
        split at h
        · next hc =>
          cases h
          exact .enqueue hc.1 hf hh hc.2
        · cases h
  | take =>
    cases hq : s.queue with
    | nil => simp [Session.step, hq] at h
    | cons x rest =>
      simp only [Session.step, hq] at h
      split at h
      · next hc =>
        cases h
        exact .take hc.1 hc.2 hq
      · cases h
  | wrote ok =>
    cases hw : s.writing with
    | none => simp [Session.step, hw] at h
    | some x =>
      cases ok with
      | true =>
        simp only [Session.step, hw, Session.afterWrite, if_true, Option.some.injEq] at h
        subst h
        exact .wrote hw
      | false =>
        simp only [Session.step, hw, Session.afterWrite, Bool.false_eq_true, if_false] at h
        split at h
        · next hp => cases h; exact .lost hw hp
        · next hp => cases h; exact .cut hw hp
        · cases h
  | note i =>
    cases hf : s.feeds[i]? with
    | none => simp [Session.step, hf] at h
    | some f =>
      simp only [Session.step, hf] at h
      split at h
      · next hs =>
        split at h
        · next hh => cases h; exact afterNote_turn hh hf hs
        · cases h
      · cases h
  | client x =>
    simp only [Session.step] at h
    split at h
    · next hh =>
      obtain ⟨hp, hw⟩ := atHead_iff.mp hh
      cases h
      cases x with
      | close => exact .left hp hw rfl
      | failure => exact .left hp hw rfl
      | finish => exact .left hp hw rfl
      | _ => exact .heard hp hw rfl
    · cases h
  | drained =>
    simp only [Session.step] at h
    split at h
    · next hp =>
      split at h
      · next hc => cases h; exact .drained hp hc.1 hc.2
      · cases h
    · cases h

theorem step_dialed (hf : s.feeds[i]? = some f) (hd : f.stage = .dialing) (ok : Bool) :
    s.step (.dialed i ok) = s.afterDial i f ok := by
  simp [Session.step, hf, isDialing_iff.mpr hd]

theorem step_note {fate : Fate} (hp : s.phase = .running) (hw : s.writing = none)
    (hf : s.feeds[i]? = some f) (hs : f.stage = .finished fate) :
    s.step (.note i) = some (s.afterNote i f fate) := by
  simp [Session.step, hf, hs, atHead_iff.mpr ⟨hp, hw⟩]

theorem step_of_turn (h : Turn s e t) : s.step e = some t := by
  cases h with
  | opened hp hf hd =>
    rw [step_dialed hf hd]
    simp [Session.afterDial, hp, setFeed]
  | @refused i f hp hf hd hn =>
    have hzero := dialing_setFeed_eq_zero_iff (g := { f with stage := .refused }) hf rfl
    have hsome : ¬ (s.setFeed i { f with stage := .refused }).dialing = 0 := by
      obtain ⟨j, g, hj, hg, hy⟩ := hn
      exact fun hz => by simp [hzero.mp hz j g hj hg] at hy
    rw [step_dialed hf hd]
    simp only [Session.afterDial, hp, Bool.false_eq_true, if_false]
    exact congrArg some (if_neg hsome)
  | @rejected i f hp hf hd hn =>
    have hzero := dialing_setFeed_eq_zero_iff (g := { f with stage := .refused }) hf rfl
    rw [step_dialed hf hd]
    simp only [Session.afterDial, hp, Bool.false_eq_true, if_false]
    exact congrArg some (if_pos (hzero.mpr hn))
  | joined hp hw hf hd =>
    rw [step_dialed hf hd]
    simp [Session.afterDial, hp, hw, setFeed]
  | @missed i f hp hw hf hd hn =>
    have hidle := idle_setFeed_iff (g := { f with stage := .refused }) hf rfl
    rw [step_dialed hf hd]
    simp only [Session.afterDial, hp, hw, Option.isSome_none, Bool.false_eq_true, if_false]
    exact congrArg some (if_neg (mt hidle.mp hn))
  | @missedLast i f hp hw hf hd hn =>
    have hidle := idle_setFeed_iff (g := { f with stage := .refused }) hf rfl
    rw [step_dialed hf hd]
    simp only [Session.afterDial, hp, hw, Option.isSome_none, Bool.false_eq_true, if_false]
    exact congrArg some (if_pos (hidle.mpr hn))
  | upgraded hp hf => simp [Session.step, Session.afterUpgrade, hp, hf, setFeed]
  | notUpgraded hp hf => simp [Session.step, Session.afterUpgrade, hp, hf]
  | read ha hf hr hh => simp [Session.step, ha, hf, hr, hh, setFeed]
  | crash ha hf hr hh => simp [Session.step, ha, hf, hr, hh, setFeed]
  | enqueue ha hf hh hq => simp [Session.step, ha, hf, hh, hq, setFeed]
  | take ha hw hq => simp [Session.step, ha, hw, hq]
  | wrote hw => simp [Session.step, Session.afterWrite, hw]
  | lost hw hp => simp [Session.step, Session.afterWrite, finish, hw, hp]
  | cut hw hp => simp [Session.step, Session.afterWrite, finish, hw, hp]
  | @noted i f hp hw hf hs hn =>
    have hidle := idle_setFeed_iff (g := { f with stage := .noted .clean }) hf rfl
    rw [step_note hp hw hf hs]
    exact congrArg some (if_neg (mt hidle.mp hn))
  | @notedLast i f hp hw hf hs hn =>
    have hidle := idle_setFeed_iff (g := { f with stage := .noted .clean }) hf rfl
    rw [step_note hp hw hf hs]
    exact congrArg some (if_pos (hidle.mpr hn))
  | @failed i f fate hp hw hf hs hc =>
    rw [step_note hp hw hf hs]
    cases fate with
    | clean => exact absurd rfl hc
    | failed => rfl
    | crashed => rfl
  | @heard x hp hw hx =>
    simp only [Session.step, atHead_iff.mpr ⟨hp, hw⟩, if_true, Option.some.injEq]
    cases x <;> first | rfl | cases hx
  | @left x why hp hw hx =>
    simp only [Session.step, atHead_iff.mpr ⟨hp, hw⟩, if_true, Option.some.injEq]
    cases x <;> cases hx <;> rfl
  | drained hp hw hq => simp [Session.step, hp, hw, hq, finish]

/-- An event leads from one state to another exactly when it is a turn between them. -/
theorem step_eq_some_iff : s.step e = some t ↔ Turn s e t :=
  ⟨turn_of_step, step_of_turn⟩

-- ---------------------------------------------------------------------------
-- Schedules
-- ---------------------------------------------------------------------------

theorem run_concat_iff :
    start.run (es ++ [e]) = some t ↔ ∃ s, start.run es = some s ∧ Turn s e t := by
  rw [run_append, Option.bind_eq_some_iff]
  refine exists_congr fun s => and_congr_right fun _ => ?_
  rw [← step_eq_some_iff]
  cases h : s.step e <;> simp [Session.run, h]

theorem run_cons_of_turn {r : Session} (ht : Turn s e t) (h : t.run es = some r) :
    s.run (e :: es) = some r := by
  simp [Session.run, step_of_turn ht, h]

theorem run_trans {r : Session} {fs : List Event} (h : s.run es = some r)
    (h' : r.run fs = some t) : s.run (es ++ fs) = some t := by
  rw [run_append, h]
  exact h'

/-- What holds at first and is kept by every turn holds behind every schedule. -/
theorem run_induction {P : List Event → Session → Prop} (h0 : P [] start)
    (hm : ∀ es s e t, start.run es = some s → P es s → Turn s e t → P (es ++ [e]) t)
    (h : start.run es = some s) : P es s := by
  induction es using List.reverseRecOn generalizing s with
  | nil =>
    simp only [Session.run, Option.some.injEq] at h
    exact h ▸ h0
  | append_singleton es e ih =>
    obtain ⟨r, hr, ht⟩ := run_concat_iff.mp h
    exact hm es r e s hr (ih hr) ht

end Session

end WatchGate.Multiwatch
