import Mathlib.Data.List.Basic
import WatchGate.Proofs.Session.Stages

/-!
# WatchGate — how long a session runs

A session that runs awaits something of a feed: a dial, frames or an end
(`awaited_of_run`). Each turn that takes a feed from those that are awaited looks
at the others first, and where nothing is left it is the turn that ends the
running.

`Leaves` names what ends it, with the state in which it comes: a write that
fails, a client that goes, a feed that fails, and the end of the last feed or
dial. Nothing else does, and none of these is passed over (`leaves_iff`). A
session that has left does not run again, so over a schedule the same holds with
"at some point" (`left_iff`), and what its queue holds can be written
(`can_close`).

Main result: `lasts_of_run`.
-/

namespace WatchGate.Multiwatch.Session

/-- What ends the running of a session. -/
inductive Leaves (s : Session) : Event → Prop
  /-- a write to the client fails -/
  | lost {x} (hw : s.writing = some x) : Leaves s (.wrote false)
  /-- the client closes, cannot be read, or its connection ends -/
  | left {x why} (hw : s.writing = none) (hx : x.ending? = some why) : Leaves s (.client x)
  /-- a feed has failed, or its task has broken down -/
  | failed {i f a} (hw : s.writing = none) (hf : s.feeds[i]? = some f)
      (hs : f.stage = .finished a) (ha : a ≠ .clean) : Leaves s (.note i)
  /-- a feed has closed, and no feed and no dial is left -/
  | closed {i f} (hw : s.writing = none) (hf : s.feeds[i]? = some f)
      (hs : f.stage = .finished .clean) (hn : s.Deserted i) : Leaves s (.note i)
  /-- a dial fails, and no feed and no dial is left -/
  | missed {i f} (hw : s.writing = none) (hf : s.feeds[i]? = some f) (hd : f.stage = .dialing)
      (hn : s.Deserted i) : Leaves s (.dialed i false)

/-- What befalls one feed of a session that runs on. -/
inductive Stays (s : Session) (i : Nat) : Event → Prop
  /-- the feed reads an item, be it its end -/
  | read {f x} (hf : s.feeds[i]? = some f) (hr : f.stage = .relaying) (hh : f.hand = none) :
      Stays s i (.read i x)
  /-- the feed has closed, and another feed or dial is left -/
  | closed {f} (hf : s.feeds[i]? = some f) (hs : f.stage = .finished .clean)
      (hn : ¬ s.Deserted i) : Stays s i (.note i)
  /-- its dial fails, and another feed or dial is left -/
  | missed {f} (hf : s.feeds[i]? = some f) (hd : f.stage = .dialing) (hn : ¬ s.Deserted i) :
      Stays s i (.dialed i false)
  /-- its dial succeeds -/
  | joined {f} (hf : s.feeds[i]? = some f) (hd : f.stage = .dialing) :
      Stays s i (.dialed i true)

/-- Sessions that differ in one feed and in what is counted at most. -/
structure Spares (i : Nat) (s t : Session) : Prop where
  others : ∀ j, j ≠ i → t.feeds[j]? = s.feeds[j]?
  queue : t.queue = s.queue
  capacity : t.capacity = s.capacity
  writing : t.writing = s.writing
  delivered : t.delivered = s.delivered
  phase : t.phase = s.phase

/-- A session that runs for as long as it should. -/
structure Lasts (s : Session) : Prop where
  /-- a feed relays, or a dial has not ended -/
  awaits : 0 < s.legs ∨ 0 < s.dialing
  /-- what may happen next and ends the running -/
  leaves : ∀ e, Leaves s e ↔ ∃ t, s.step e = some t ∧ t.phase ≠ .running
  /-- behind a schedule the session has left if it had to at some point of it -/
  left : ∀ es t, s.run es = some t → (t.phase ≠ .running ↔
    ∃ as e bs r, es = as ++ e :: bs ∧ s.run as = some r ∧ r.phase = .running ∧ Leaves r e)
  /-- and then it can be over -/
  ends : ∀ es t, s.run es = some t → t.phase ≠ .running →
    ∃ fs u why, t.run fs = some u ∧ u.phase = .closed why
  /-- what befalls one feed does nothing to the others -/
  stays : s.atHead = true → ∀ i e, Stays s i e → ∃ t, s.step e = some t ∧ Spares i s t
  /-- what a client sends, as long as it stays, does nothing at all -/
  heard : s.atHead = true → ∀ x : Item, x.ending? = none → s.step (.client x) = some s

variable {start s t : Session} {e : Event} {es : List Event} {i : Nat} {f g : Feed}
  {n outboundBuffer grants : Nat}

-- ---------------------------------------------------------------------------
-- Something is awaited
-- ---------------------------------------------------------------------------

/-- Something is awaited of one of the feeds. -/
def Awaited (fs : List Feed) : Prop := ∃ f ∈ fs, f.isAwaited = true

theorem awaited_iff : Awaited s.feeds ↔ 0 < s.legs ∨ 0 < s.dialing := by
  unfold Awaited legs dialing
  simp only [List.countP_pos_iff, Feed.isAwaited, Bool.or_eq_true]
  constructor
  · rintro ⟨f, hf, hl | hd⟩
    · exact .inl ⟨f, hf, hl⟩
    · exact .inr ⟨f, hf, hd⟩
  · rintro (⟨f, hf, hl⟩ | ⟨f, hf, hd⟩)
    · exact ⟨f, hf, .inl hl⟩
    · exact ⟨f, hf, .inr hd⟩

/-- Whatever becomes of a feed, the others are still awaited. -/
theorem awaited_of_not_deserted (hn : ¬ s.Deserted i) : Awaited (s.feeds.set i g) := by
  unfold Deserted at hn
  push Not at hn
  obtain ⟨j, h, hj, hh, ha⟩ := hn
  refine ⟨h, List.mem_iff_getElem?.mpr ⟨j, ?_⟩, by simpa using ha⟩
  rwa [List.getElem?_set_ne (Ne.symm hj)]

theorem awaited_of_set (hf : s.feeds[i]? = some f) (ha : g.isAwaited = true) :
    Awaited (s.feeds.set i g) :=
  ⟨g, List.mem_set (lt_length_of_feed hf) g, ha⟩

theorem isAwaited_take (hr : f.stage = .relaying) (x : Item) : (f.take x).isAwaited = true := by
  unfold Feed.take
  split <;> simp [Feed.isAwaited, Feed.isLeg, hr]

/-- A session that runs on awaits something behind every turn. -/
theorem Turn.awaited (ht : Turn s e t) (h : s.phase = .running → Awaited s.feeds)
    (hp : t.phase = .running) : Awaited t.feeds := by
  cases ht with
  | upgraded _ hf => exact awaited_of_set hf rfl
  | joined _ _ hf => exact awaited_of_set hf rfl
  | missed _ _ _ _ hn | noted _ _ _ _ hn => exact awaited_of_not_deserted hn
  | read _ hf hr => exact awaited_of_set hf (isAwaited_take hr _)
  | crash _ hf => exact awaited_of_set hf rfl
  | @enqueue i f p _ hf hh =>
    -- a feed that holds a frame is awaited no less without it
    obtain ⟨g, hg, ha⟩ := h hp
    obtain ⟨j, hj⟩ := List.mem_iff_getElem?.mp hg
    by_cases hij : i = j
    · subst hij
      cases hf.symm.trans hj
      exact awaited_of_set hf ha
    · exact ⟨g, List.mem_iff_getElem?.mpr ⟨j, by rwa [List.getElem?_set_ne hij]⟩, ha⟩
  | take | wrote | heard => exact h hp
  | refused hp' => cases hp'.symm.trans hp
  | opened | rejected | missedLast | notUpgraded | lost | cut | notedLast | failed | left
  | drained => cases hp

theorem awaited_of_run (h : (initial n outboundBuffer grants).run es = some s)
    (hp : s.phase = .running) : Awaited s.feeds := by
  refine run_induction (P := fun _ s => s.phase = .running → Awaited s.feeds) ?_ ?_ h hp
  · intro hp
    simp only [initial] at hp
    split at hp <;> cases hp
  · exact fun _ _ _ _ _ ha ht => ht.awaited ha

-- ---------------------------------------------------------------------------
-- Turns of a session that runs
-- ---------------------------------------------------------------------------

/-- A session that runs leaves with an event exactly when it has to. -/
theorem leaves_iff (hp : s.phase = .running) :
    Leaves s e ↔ ∃ t, s.step e = some t ∧ t.phase ≠ .running := by
  constructor
  · intro h
    cases h with
    | lost hw => exact ⟨_, step_of_turn (.lost hw hp), nofun⟩
    | left hw hx => exact ⟨_, step_of_turn (.left hp hw hx), nofun⟩
    | failed hw hf hs ha => exact ⟨_, step_of_turn (.failed hp hw hf hs ha), nofun⟩
    | closed hw hf hs hn => exact ⟨_, step_of_turn (.notedLast hp hw hf hs hn), nofun⟩
    | missed hw hf hd hn => exact ⟨_, step_of_turn (.missedLast hp hw hf hd hn), nofun⟩
  · rintro ⟨t, hstep, hne⟩
    cases turn_of_step hstep with
    | lost hw => exact .lost hw
    | left _ hw hx => exact .left hw hx
    | failed _ hw hf hs ha => exact .failed hw hf hs ha
    | notedLast _ hw hf hs hn => exact .closed hw hf hs hn
    | missedLast _ hw hf hd hn => exact .missed hw hf hd hn
    | upgraded => exact absurd rfl hne
    | joined | missed | noted | read | crash | enqueue | take | wrote | heard =>
      exact absurd hp hne
    | opened hp' | refused hp' | rejected hp' | notUpgraded hp' | drained hp' =>
      cases hp'.symm.trans hp
    | cut _ hp' => cases hp'.symm.trans hp

/-- What befalls one feed of a session that runs on is possible, and does nothing to
the others. -/
theorem spares_of_stays (hh : s.atHead = true) (h : Stays s i e) :
    ∃ t, s.step e = some t ∧ Spares i s t := by
  obtain ⟨hp, hw⟩ := atHead_iff.mp hh
  have hothers : ∀ g j, j ≠ i → (s.feeds.set i g)[j]? = s.feeds[j]? :=
    fun g j hj => List.getElem?_set_ne (Ne.symm hj)
  cases h with
  | read hf hr hh =>
    have halive : s.alive = true := alive_iff.mpr (.inl hp)
    exact ⟨_, step_of_turn (.read halive hf hr hh), hothers _, rfl, rfl, rfl, rfl, rfl⟩
  | closed hf hs hn =>
    exact ⟨_, step_of_turn (.noted hp hw hf hs hn), hothers _, rfl, rfl, rfl, rfl, rfl⟩
  | missed hf hd hn =>
    exact ⟨_, step_of_turn (.missed hp hw hf hd hn), hothers _, rfl, rfl, rfl, rfl, rfl⟩
  | joined hf hd =>
    exact ⟨_, step_of_turn (.joined hp hw hf hd), hothers _, rfl, rfl, rfl, rfl, rfl⟩

-- ---------------------------------------------------------------------------
-- Schedules of a session that runs
-- ---------------------------------------------------------------------------

theorem Turn.alive (h : Turn s e t) (ha : s.alive = true) : t.alive = true ∨ t.Over := by
  cases h with
  | opened hp | refused hp | rejected hp => exact absurd ha (not_alive_of_early (.inl hp))
  | notUpgraded hp => exact absurd ha (not_alive_of_early (.inr ⟨_, hp⟩))
  | upgraded | missedLast | notedLast | failed => exact .inl rfl
  | joined | missed | read | crash | enqueue | take | wrote | noted | heard => exact .inl ha
  | lost | cut | left | drained => exact .inr ⟨_, rfl⟩

theorem alive_or_over_of_run (hc : Coherent s) (ha : s.alive = true) (h : s.run es = some t) :
    t.alive = true ∨ t.Over := by
  refine run_induction (P := fun _ t => t.alive = true ∨ t.Over) (.inl ha) ?_ h
  intro es r e t hrun hr ht
  exact ht.alive (hr.resolve_right ((hc.run hrun).not_over ht))

/-- Behind a schedule a session that ran has left exactly when it had to at some
point of it. -/
theorem left_iff (hc : Coherent s) (hp : s.phase = .running) (h : s.run es = some t) :
    t.phase ≠ .running ↔
      ∃ as e bs r, es = as ++ e :: bs ∧ s.run as = some r ∧ r.phase = .running ∧ Leaves r e := by
  refine run_induction (P := fun es t => t.phase ≠ .running ↔
    ∃ as e bs r, es = as ++ e :: bs ∧ s.run as = some r ∧ r.phase = .running ∧ Leaves r e)
    ?_ ?_ h
  · refine iff_of_false (fun hne => hne hp) ?_
    rintro ⟨as, e, bs, r, hsplit, -⟩
    simp at hsplit
  · intro es r e t hrun ih ht
    have halive := (alive_or_over_of_run hc (alive_iff.mpr (.inl hp)) hrun).resolve_right
      ((hc.run hrun).not_over ht)
    rcases alive_iff.mp halive with hr | ⟨why, hr⟩
    · constructor
      · intro hne
        have hl : Leaves r e := (leaves_iff hr).mpr ⟨t, step_of_turn ht, hne⟩
        exact ⟨es, e, [], r, rfl, hrun, hr, hl⟩
      · rintro ⟨as, e', bs, q, hsplit, hq, hqr, hl⟩
        rcases List.eq_nil_or_concat' bs with rfl | ⟨bs', e'', rfl⟩
        · -- the last event is the one
          obtain ⟨rfl, he⟩ := List.append_inj' hsplit rfl
          cases he
          cases hrun.symm.trans hq
          obtain ⟨t', ht', hne⟩ := (leaves_iff hr).mp hl
          cases ht'.symm.trans (step_of_turn ht)
          exact hne
        · -- an earlier one would have ended the running before
          have hback : as ++ e' :: (bs' ++ [e'']) = (as ++ e' :: bs') ++ [e''] := by simp
          obtain ⟨hes, -⟩ := List.append_inj' (hsplit.trans hback) rfl
          exact absurd hr (ih.mpr ⟨as, e', bs', q, hes, hq, hqr, hl⟩)
    · refine iff_of_true ?_ ?_
      · rcases ht.flushing hr with h | h <;> rw [h] <;> nofun
      · obtain ⟨as, e', bs, q, hes, hq⟩ := ih.mp (by rw [hr]; nofun)
        exact ⟨as, e', bs ++ [e], q, by rw [hes]; simp, hq⟩

-- ---------------------------------------------------------------------------
-- The end
-- ---------------------------------------------------------------------------

theorem clear_queue (ha : s.alive = true) (hw : s.writing = none) :
    ∃ es counted, (∀ e ∈ es, e = .take ∨ e = .wrote true) ∧ s.run es = some { s with
      queue := [], delivered := s.delivered ++ s.queue, tally := counted } := by
  induction hq : s.queue generalizing s with
  | nil =>
    refine ⟨[], s.tally, nofun, ?_⟩
    rw [List.append_nil, ← hq]
    rfl
  | cons x rest ih =>
    have htake : Turn s .take { s with queue := rest, writing := some x } := .take ha hw hq
    have hwrote := Turn.wrote (s := { s with queue := rest, writing := some x }) rfl
    obtain ⟨es, counted, hes, hrun⟩ := ih (s := { s with
      queue := rest, writing := none, delivered := s.delivered ++ [x],
      tally := s.tally.relayed }) ha rfl rfl
    refine ⟨.take :: .wrote true :: es, counted, ?_, ?_⟩
    · simpa using hes
    · rw [run_cons_of_turn htake (run_cons_of_turn hwrote hrun), hw]
      simp

/-- A session can write all that its queue holds. -/
theorem can_clear (ha : s.alive = true) :
    ∃ es counted, (∀ e ∈ es, e = .take ∨ e = .wrote true) ∧ s.run es = some { s with
      queue := [], writing := none, delivered := s.delivered ++ s.writing.toList ++ s.queue,
      tally := counted } := by
  cases hw : s.writing with
  | none =>
    obtain ⟨es, counted, hes, hrun⟩ := clear_queue ha hw
    refine ⟨es, counted, hes, ?_⟩
    rw [hrun, hw]
    simp
  | some x =>
    have hwrote := Turn.wrote hw
    obtain ⟨es, counted, hes, hrun⟩ := clear_queue (s := { s with
      writing := none, delivered := s.delivered ++ [x], tally := s.tally.relayed }) ha rfl
    refine ⟨.wrote true :: es, counted, ?_, ?_⟩
    · simpa using hes
    · rw [run_cons_of_turn hwrote hrun]
      rfl

/-- A session that writes what its queue holds can write all of it and be over. -/
theorem can_drain {why : Ending} (hp : s.phase = .flushing why) :
    ∃ es t, (∀ e ∈ es, e = .take ∨ e = .wrote true ∨ e = .drained) ∧ s.run es = some t ∧
      t.phase = .closed why := by
  obtain ⟨es, counted, hes, hrun⟩ := can_clear (alive_iff.mpr (.inr ⟨why, hp⟩))
  have hdrained := Turn.drained (s := { s with
    queue := [], writing := none, delivered := s.delivered ++ s.writing.toList ++ s.queue,
    tally := counted }) hp rfl rfl
  refine ⟨es ++ [.drained], _, fun e he => ?_, run_concat_iff.mpr ⟨_, hrun, hdrained⟩, rfl⟩
  rcases List.mem_append.mp he with he | he
  · exact (hes e he).imp_right .inl
  · exact .inr (.inr (List.mem_singleton.mp he))

theorem can_close (h : s.alive = true ∨ s.Over) (hn : s.phase ≠ .running) :
    ∃ es t why, s.run es = some t ∧ t.phase = .closed why := by
  rcases h with ha | ⟨why, hw⟩
  · obtain ⟨why, hp⟩ := (alive_iff.mp ha).resolve_left hn
    obtain ⟨es, t, -, hes, ht⟩ := can_drain hp
    exact ⟨es, t, why, hes, ht⟩
  · exact ⟨[], s, why, rfl, hw⟩

-- ---------------------------------------------------------------------------
-- Lifetime
-- ---------------------------------------------------------------------------

/--
**A session runs exactly as long as it should.** Whatever has happened to a session
of any number of feeds: as long as it runs it awaits a feed or a dial, it leaves
with a failing write, with its client, with a feed that fails and with the last
feed or dial, and with nothing else.
-/
theorem lasts_of_run (n outboundBuffer grants : Nat) (es : List Event) (s : Session)
    (h : (initial n outboundBuffer grants).run es = some s) (hp : s.phase = .running) :
    s.Lasts := by
  have hcoherent := coherent_of_run h
  exact {
    awaits := awaited_iff.mp (awaited_of_run h hp)
    leaves := fun e => leaves_iff hp
    left := fun fs t ht => left_iff hcoherent hp ht
    ends := fun fs t ht hn =>
      can_close (alive_or_over_of_run hcoherent (alive_iff.mpr (.inl hp)) ht) hn
    stays := fun hh i e he => spares_of_stays hh he
    heard := fun hh x hx =>
      step_of_turn (.heard (atHead_iff.mp hh).1 (atHead_iff.mp hh).2 hx) }

/-- The only feed that was dialed so far closes while the other dial is under way. -/
def earlyClose : List Event := [.dialed 0 true, .upgraded true, .read 0 .close]

/-- The session then: it waits for the dial that is left. -/
def dialLeft : Session where
  feeds := [⟨.finished .clean, [.close], none⟩, .dialed]
  queue := []
  capacity := 1
  writing := none
  delivered := []
  phase := .running
  tally := ⟨1, 1, 1, 0, 0⟩

theorem earlyClose_lasts :
    (initial 2 1 1).run earlyClose = some dialLeft ∧ dialLeft.phase = .running ∧
      dialLeft.Lasts := by
  have hrun : (initial 2 1 1).run earlyClose = some dialLeft := by decide +kernel
  exact ⟨hrun, rfl, lasts_of_run 2 1 1 earlyClose dialLeft hrun rfl⟩

end WatchGate.Multiwatch.Session
