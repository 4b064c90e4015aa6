import Mathlib.Logic.Function.Basic
import WatchGate.Proofs.Session.Order

/-!
# WatchGate — the frames of a feed that has ended are delivered

The end of a feed and the frames that it queued reach a session by two ways, and
the end may come first. Nothing is lost by it, as long as every way out of the
session writes what the queue holds: with no failing write and a client that
stays, a session that is over has nothing in its queue and nothing in writing
(`queue_of_over`). A feed whose end was noted holds no frame either, so all that
was read from it is with the client.

When the last feed closes or the last dial fails, nothing is awaited any more
(`Concluded`). Then every feed that was dialed has closed and was read to its end,
and what the client has is an interleaving of all that these feeds give.

Main results:

* `interleaves_iff` — a row of tagged frames interleaves rows exactly when under
  each tag it holds the tag's row.
* `queue_of_over` — an undisturbed session leaves nothing behind.
* `ended_feeds_delivered` — what this means for the feeds that ended.
-/

namespace WatchGate.Multiwatch

-- ---------------------------------------------------------------------------
-- Interleavings
-- ---------------------------------------------------------------------------

/-- A row of tagged frames interleaves rows of frames, one for each tag: every
frame is the next one of the row of its tag, and in the end no row has any left. -/
inductive Interleaves : (Nat → List String) → List (Nat × String) → Prop
  | done {rows} (h : ∀ i, rows i = []) : Interleaves rows []
  | next {rows i p rest xs} (hi : rows i = p :: rest)
      (h : Interleaves (Function.update rows i rest) xs) : Interleaves rows ((i, p) :: xs)

/-- An interleaving is a row that holds each of the rows under its tag. -/
theorem interleaves_iff {rows : Nat → List String} {xs : List (Nat × String)} :
    Interleaves rows xs ↔ ∀ i, framesOf i xs = rows i := by
  constructor
  · intro h
    induction h with
    | done h => exact fun i => (h i).symm
    | @next rows i p rest xs hi h ih =>
      intro j
      have hj := ih j
      rw [framesOf_cons]
      by_cases hij : i = j
      · subst hij
        rw [Function.update_self] at hj
        rw [framesOf_self, hj, hi]
        rfl
      · rw [Function.update_of_ne (Ne.symm hij)] at hj
        rw [framesOf_ne hij, hj]
        rfl
  · intro h
    induction xs generalizing rows with
    | nil => exact .done fun i => (h i).symm
    | cons x xs ih =>
      obtain ⟨i, p⟩ := x
      have hi : rows i = p :: framesOf i xs := by
        rw [← h i, framesOf_cons, framesOf_self]
        rfl
      refine .next hi (ih fun j => ?_)
      by_cases hij : i = j
      · subst hij
        rw [Function.update_self]
      · rw [Function.update_of_ne (Ne.symm hij), ← h j, framesOf_cons, framesOf_ne hij]
        rfl

namespace Session

variable {s t : Session} {e : Event} {es : List Event} {i : Nat} {f g : Feed} {why : Ending}
  {a : Fate} {n outboundBuffer grants : Nat}

-- ---------------------------------------------------------------------------
-- Ways out of a session
-- ---------------------------------------------------------------------------

/-- With no failing write and a client that stays, a session that is over has
nothing left to write. -/
theorem queue_of_over (h : (initial n outboundBuffer grants).run es = some s)
    (hl : .wrote false ∉ es) (hc : ∀ x, .client x ∈ es → x.ending? = none) (ho : s.Over) :
    s.queue = [] ∧ s.writing = none := by
  refine run_induction (P := fun es s => .wrote false ∉ es →
    (∀ x, .client x ∈ es → x.ending? = none) → s.Over → s.queue = [] ∧ s.writing = none)
    ?_ ?_ h hl hc ho
  · exact fun _ _ _ => ⟨rfl, rfl⟩
  · rintro es s e t hrun - ht hl hc ⟨why, hw⟩
    have hcoherent := coherent_of_run hrun
    have hopen := hcoherent.not_over ht
    cases ht with
    | drained _ hn hq => exact ⟨hq, hn⟩
    | @notUpgraded i f hp =>
      -- before feeds relay there is nothing to write
      have hearly := not_alive_of_early (s := s) (.inr ⟨i, hp⟩)
      constructor
      · by_contra hq
        exact (hcoherent.queue hq).elim hearly hopen
      · by_contra hn
        exact hearly (hcoherent.writing hn)
    | lost | cut => exact absurd (List.mem_append_right _ (List.mem_singleton.mpr rfl)) hl
    | @left x why' _ _ hx =>
      have hstays := hc x (List.mem_append_right _ (List.mem_singleton.mpr rfl))
      cases hx.symm.trans hstays
    | opened | rejected | missedLast | upgraded | notedLast | failed => cases hw
    | refused | joined | missed | read | crash | enqueue | take | wrote | noted | heard =>
      exact absurd ⟨why, hw⟩ hopen

-- ---------------------------------------------------------------------------
-- Feeds whose end was noted
-- ---------------------------------------------------------------------------

theorem noted_change {e : Event} (hc : Feed.Change i e f g) (hn : f.stage = .noted a) :
    g.stage = .noted a := by
  cases hc with
  | enqueued => exact hn
  | ready h | refused h | joined h | switched h | read h | crashed h | noted h =>
    cases h.symm.trans hn

/-- The end of a feed is noted for good. -/
theorem noted_of_run (h : (initial n outboundBuffer grants).run es = some s)
    (hn : .note i ∈ es) : ∃ f a, s.feeds[i]? = some f ∧ f.stage = .noted a := by
  refine run_induction (P := fun es s => .note i ∈ es →
    ∃ f a, s.feeds[i]? = some f ∧ f.stage = .noted a) nofun ?_ h hn
  intro es s e t hrun ih ht hn
  rcases List.mem_append.mp hn with hn | hn
  · obtain ⟨f, a, hf, ha⟩ := ih hn
    obtain ⟨g, hg, rfl | hchange⟩ := ht.feed_behind (coherent_of_run hrun) hf
    · exact ⟨g, a, hg, ha⟩
    · exact ⟨g, a, hg, noted_change hchange ha⟩
  · rw [← List.mem_singleton.mp hn] at ht
    cases ht with
    | noted _ _ hf | notedLast _ _ hf | failed _ _ hf =>
      exact ⟨_, _, List.getElem?_set_self (lt_length_of_feed hf), rfl⟩

/-- All that was read from a feed whose end was noted is with the client. -/
theorem received_of_noted (h : (initial n outboundBuffer grants).run es = some s)
    (hl : .wrote false ∉ es) (hc : ∀ x, .client x ∈ es → x.ending? = none) (ho : s.Over)
    (hf : s.feeds[i]? = some f) (ha : f.stage = .noted a) :
    framesOf i s.delivered = (reads i es).filterMap Item.payload? := by
  obtain ⟨hq, hn⟩ := queue_of_over h hl hc ho
  have hhand : f.hand = none := (sound_of_run h hf).hand_eq_none (by rw [ha]; nofun)
  rw [← pathOf_of_run h hl i]
  simp [pathOf, hq, hn, handOf, readOff_of_feed hf, hhand]

-- ---------------------------------------------------------------------------
-- Sessions that ran out of feeds
-- ---------------------------------------------------------------------------

/-- What the reason of an end says about the feeds: a feed that failed is the
reason, and behind the last feed or dial nothing is awaited. -/
structure Concluded (s : Session) : Prop where
  failed : ∀ (i : Nat) (f : Feed) a, s.feeds[i]? = some f → f.stage = .noted a → a ≠ .clean →
    s.phase = .flushing (.feedFailed i) ∨ s.phase = .closed (.feedFailed i)
  idle : ∀ why, s.phase = .flushing why ∨ s.phase = .closed why →
    why = .feedsEnded ∨ why = .dialsFailed →
    ∀ (i : Nat) (f : Feed), s.feeds[i]? = some f → f.isAwaited = false

/-- Of a feed of which nothing is awaited nothing will be, unless it is ready. -/
theorem isAwaited_change (hc : Feed.Change i e f g) (hf : f.isAwaited = false)
    (hr : f.stage ≠ .ready) : g.isAwaited = false := by
  have hstage : f.stage ≠ .dialing ∧ f.stage ≠ .relaying ∧ ∀ a, f.stage ≠ .finished a := by
    refine ⟨?_, ?_, fun a => ?_⟩ <;> intro h <;>
      simp [Feed.isAwaited, Feed.isLeg, Feed.isDialing, h] at hf
  cases hc with
  | ready h | refused h | joined h => exact absurd h hstage.1
  | switched h => exact absurd h hr
  | read h | crashed h => exact absurd h hstage.2.1
  | enqueued => exact hf
  | noted h => exact absurd h (hstage.2.2 _)

theorem Concluded.failed_turn (hd : Concluded s) (hc : Coherent s) (ht : Turn s e t) {j : Nat}
    (hf : t.feeds[j]? = some f) (ha : f.stage = .noted a) (hne : a ≠ .clean) :
    t.phase = .flushing (.feedFailed j) ∨ t.phase = .closed (.feedFailed j) := by
  have hkept : ∀ f', s.feeds[j]? = some f' → f'.stage = .noted a →
      t.phase = .flushing (.feedFailed j) ∨ t.phase = .closed (.feedFailed j) := by
    intro f' hf' ha'
    rcases hd.failed j f' a hf' ha' hne with hp | hp
    · exact ht.flushing hp
    · exact absurd ⟨_, hp⟩ (hc.not_over ht)
  obtain ⟨f', hf', rfl | hchange⟩ := ht.feed_before hc hf
  · exact hkept f hf' ha
  · cases hchange with
    | ready | refused | joined | switched | crashed => cases ha
    | @read _ x hr =>
      unfold Feed.take at ha
      split at ha
      · cases ha
      · cases hr.symm.trans ha
    | enqueued => exact hkept f' hf' ha
    | noted hs =>
      -- a feed that has just ended, and not by closing
      cases ha
      cases ht with
      | noted _ _ hk hs' | notedLast _ _ hk hs' =>
        cases hk.symm.trans hf'
        cases hs'.symm.trans hs
        exact absurd rfl hne
      | failed => exact .inl rfl

theorem Concluded.idle_turn (hd : Concluded s) (hc : Coherent s) (ht : Turn s e t)
    (hp : t.phase = .flushing why ∨ t.phase = .closed why)
    (hw : why = .feedsEnded ∨ why = .dialsFailed) {j : Nat} (hf : t.feeds[j]? = some f) :
    f.isAwaited = false := by
  have hopen := hc.not_over ht
  by_cases hfl : ∃ why', s.phase = .flushing why'
  · -- the reason is an old one, and no feed that is not awaited becomes so
    obtain ⟨why', hp'⟩ := hfl
    have hsame : why' = why := by
      rcases ht.flushing hp' with h | h <;> rcases hp with hp | hp <;> cases h.symm.trans hp <;> rfl
    subst hsame
    have hidle := hd.idle why' (.inl hp') hw
    obtain ⟨f', hf', rfl | hchange⟩ := ht.feed_before hc hf
    · exact hidle j f hf'
    · exact isAwaited_change hchange (hidle j f' hf')
        (hc.stage_ne_ready hopen (by simp [hp']) hf')
  · -- the reason came with this turn
    have hother : t.phase = s.phase → f.isAwaited = false := by
      intro hsame
      rw [hsame] at hp
      rcases hp with hp | hp
      · exact absurd ⟨_, hp⟩ hfl
      · exact absurd ⟨_, hp⟩ hopen
    cases ht with
    | missedLast _ _ _ _ hn | notedLast _ _ _ _ hn =>
      rcases feed_of_set hf with ⟨-, rfl⟩ | ⟨hne, hf⟩
      · rfl
      · exact hn j f hne hf
    | refused | joined | missed | read | crash | enqueue | take | wrote | noted | heard =>
      exact hother rfl
    | opened | rejected | upgraded => rcases hp with hp | hp <;> cases hp
    | notUpgraded | failed | lost =>
      rcases hp with hp | hp <;> cases hp
      rcases hw with hw | hw <;> cases hw
    | cut _ hp' | drained hp' => exact absurd ⟨_, hp'⟩ hfl
    | @left x why' _ _ hx =>
      rcases hp with hp | hp <;> cases hp
      cases x <;> cases hx <;> rcases hw with hw | hw <;> cases hw

theorem concluded_of_run (h : (initial n outboundBuffer grants).run es = some s) :
    Concluded s := by
  refine run_induction (P := fun _ s => Concluded s) ⟨?_, ?_⟩ ?_ h
  · intro i f a hf ha
    rw [feed_initial hf] at ha
    cases ha
  · intro why hp
    simp only [initial] at hp
    split at hp <;> rcases hp with hp | hp <;> cases hp
  · intro es s e t hrun hd ht
    have hc := coherent_of_run hrun
    exact ⟨fun _ _ _ hf ha hne => hd.failed_turn hc ht hf ha hne,
      fun _ hp hw _ _ hf => hd.idle_turn hc ht hp hw hf⟩

/-- When a session ran out of feeds, a feed that was dialed has closed. -/
theorem closed_of_dialed (h : (initial n outboundBuffer grants).run es = some s)
    (hp : s.phase = .closed why) (hw : why = .feedsEnded ∨ why = .dialsFailed)
    (hf : s.feeds[i]? = some f) (hd : f.wasDialed = true) : f.stage = .noted .clean := by
  have hconcluded := concluded_of_run h
  have hidle := hconcluded.idle why (.inr hp) hw i f hf
  cases hs : f.stage with
  | dialing | refused => simp [Feed.wasDialed, hs] at hd
  | relaying | finished => simp [Feed.isAwaited, Feed.isLeg, hs] at hidle
  | ready =>
    rcases (coherent_of_run h).ready i f hf hs with h | h <;> cases h.symm.trans hp
    rcases hw with hw | hw <;> cases hw
  | noted a =>
    by_contra hne
    have hne : a ≠ .clean := fun h => hne (by rw [h])
    rcases hconcluded.failed i f a hf hs hne with h | h <;> cases h.symm.trans hp
    rcases hw with hw | hw <;> cases hw

-- ---------------------------------------------------------------------------
-- Delivery
-- ---------------------------------------------------------------------------

/--
**No frame of a feed that has ended is lost.** For every schedule in which no
write fails and the client neither fails nor closes, be it by a close frame or by
ending its connection, and behind which the session is over: of each feed whose
end the session has noted, the client has all frames that were read. If it was the
last feed that closed, or the last dial that failed, the client has an interleaving
of all that the dialed feeds give.
-/
theorem ended_feeds_delivered (n outboundBuffer grants : Nat) (es : List Event) (s : Session)
    (why : Ending) (h : (initial n outboundBuffer grants).run es = some s)
    (hl : .wrote false ∉ es) (hc : ∀ x, .client x ∈ es → x.ending? = none)
    (ho : s.phase = .closed why) (sent : Nat → List Item) (hsent : ∀ i, reads i es <+: sent i) :
    (∀ i, .note i ∈ es → framesOf i s.delivered = (reads i es).filterMap Item.payload?) ∧
    (why = .feedsEnded ∨ why = .dialsFailed → Interleaves
      (fun i => if .dialed i true ∈ es then (relay (sent i)).frames else []) s.delivered) := by
  have hover : s.Over := ⟨why, ho⟩
  refine ⟨fun i hn => ?_, fun hw => interleaves_iff.mpr fun i => ?_⟩
  · obtain ⟨f, a, hf, ha⟩ := noted_of_run h hn
    exact received_of_noted h hl hc hover hf ha
  · split
    · next hdial =>
      obtain ⟨f, hf, hd⟩ := (dialed_iff_of_run h i).mp hdial
      have hnoted := closed_of_dialed h ho hw hf hd
      have hsound := sound_of_run h hf
      have hitems : f.items = reads i es := by
        rw [← itemsOf_of_run h, itemsOf, readOff_of_feed hf]
      -- the feed closed, so nothing that it sent was left unread
      have hfate : (relay f.items).fate = some .clean := by
        rcases hsound.ended .clean (.inr hnoted) with hcrash | hfate
        · cases hcrash
        · exact hfate
      have hall : relay (sent i) = relay f.items :=
        relay_eq_of_ended (hitems ▸ hsent i) hfate
      rw [received_of_noted h hl hc hover hf hnoted, hall, hsound.frames, hitems]
    · next hdial =>
      have hempty : reads i es = [] := by
        by_contra hr
        exact hdial (dialed_of_read h hr)
      have hprefix := delivered_begins_reads h i
      rw [hempty] at hprefix
      exact List.prefix_nil.mp hprefix

-- ---------------------------------------------------------------------------
-- Two feeds that close
-- ---------------------------------------------------------------------------

/-- The first feed sends two texts and ends; the second sends a frame and closes,
and what it has behind that does not count. -/
def twoClosings : Nat → List Item
  | 0 => [.text "a", .text "b", .finish]
  | 1 => [.binary [0x78], .close, .text "c"]
  | _ => []

/-- Both ends are noted before the frames in front of them are written. -/
def closings : List Event :=
  [.dialed 0 true, .upgraded true, .dialed 1 true, .read 0 (.text "a"), .enqueue 0,
    .read 1 (.binary [0x78]), .enqueue 1, .read 1 .close, .note 1, .client (.ping []),
    .read 0 (.text "b"), .take, .wrote true, .enqueue 0, .read 0 .finish, .note 0,
    .take, .wrote true, .take, .wrote true, .drained]

/-- The session then. -/
def bothClosed : Session where
  feeds := [⟨.noted .clean, [.text "a", .text "b", .finish], none⟩,
    ⟨.noted .clean, [.binary [0x78], .close], none⟩]
  queue := []
  capacity := 2
  writing := none
  delivered := [(0, "a"), (1, "x"), (0, "b")]
  phase := .closed .feedsEnded
  tally := ⟨1, 0, 2, 0, 3⟩

/-- The client has all three frames, each feed's in their order. -/
theorem closings_delivered :
    (initial 2 2 1).run closings = some bothClosed ∧ .wrote false ∉ closings ∧
    (∀ x, .client x ∈ closings → x.ending? = none) ∧ (∀ i, reads i closings <+: twoClosings i) ∧
    (∀ i, .note i ∈ closings →
      framesOf i bothClosed.delivered = (reads i closings).filterMap Item.payload?) ∧
    Interleaves (fun i => if .dialed i true ∈ closings then (relay (twoClosings i)).frames else [])
      [(0, "a"), (1, "x"), (0, "b")] := by
  have hrun : (initial 2 2 1).run closings = some bothClosed := by decide +kernel
  have hwrites : .wrote false ∉ closings := by decide
  have hstays : ∀ x, .client x ∈ closings → x.ending? = none := by
    intro x hx
    simp only [closings, List.mem_cons, reduceCtorEq, Event.client.injEq, false_or,
      List.not_mem_nil, or_false] at hx
    rw [hx]
    rfl
  have hsent : ∀ i, reads i closings <+: twoClosings i := by
    intro i
    match i with
    | 0 => decide
    | 1 => decide
    | _ + 2 => exact List.prefix_rfl
  obtain ⟨hnoted, hall⟩ := ended_feeds_delivered 2 2 1 closings bothClosed .feedsEnded hrun
    hwrites hstays rfl twoClosings hsent
  exact ⟨hrun, hwrites, hstays, hsent, hnoted, hall (.inl rfl)⟩

end Session

end WatchGate.Multiwatch
