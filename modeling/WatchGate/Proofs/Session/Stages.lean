import WatchGate.Proofs.Relay
import WatchGate.Proofs.Session.Turns

/-!
# WatchGate — the stages of feeds and the phases of a session

A turn changes one feed at most, and `Feed.Change` says how, event by event. The
conditions under which a feed changes are its own, with one exception: the first
feed begins to relay on word of the client, and that this feed is then ready is a
matter of the whole session. `Coherent` holds what ties feeds, queue and writer to
the phase, and with it the exception goes (`Turn.feeds`).

What holds of the feeds one by one is `Feed.Sound`: nothing is read before a feed
relays or behind its end, and only a feed that relays holds a frame.

Main results:

* `coherent_of_run` — every schedule leaves a coherent session.
* `Coherent.not_over` — a session that is over takes no turn.
* `sound_of_run` — every schedule leaves sound feeds.
* `dialed_iff_of_run` — the feeds that were dialed are those whose dial succeeded.
-/

namespace WatchGate.Multiwatch

namespace Feed

/-- Whether the dial of a feed has succeeded. -/
def wasDialed (f : Feed) : Bool :=
  match f.stage with
  | .dialing | .refused => false
  | .ready | .relaying | .finished _ | .noted _ => true

/-- What an event does to a feed at a place. -/
inductive Change (i : Nat) : Event → Feed → Feed → Prop
  | ready {f} (hd : f.stage = .dialing) :
      Change i (.dialed i true) f { f with stage := .ready }
  | refused {f} (hd : f.stage = .dialing) :
      Change i (.dialed i false) f { f with stage := .refused }
  | joined {f} (hd : f.stage = .dialing) :
      Change i (.dialed i true) f { f with stage := .relaying }
  | switched {f} (hd : f.stage = .ready) :
      Change i (.upgraded true) f { f with stage := .relaying }
  | read {f x} (hr : f.stage = .relaying) (hh : f.hand = none) :
      Change i (.read i x) f (f.take x)
  | crashed {f} (hr : f.stage = .relaying) (hh : f.hand = none) :
      Change i (.crash i) f { f with stage := .finished .crashed }
  | enqueued {f p} (hh : f.hand = some p) :
      Change i (.enqueue i) f { f with hand := none }
  | noted {f a} (hs : f.stage = .finished a) :
      Change i (.note i) f { f with stage := .noted a }

/-- What holds of a feed by itself. -/
structure Sound (f : Feed) : Prop where
  /-- nothing is read behind the end -/
  frames : (relay f.items).frames = f.items.filterMap Item.payload?
  /-- nothing is read before the feed relays -/
  unread : f.stage = .dialing ∨ f.stage = .refused ∨ f.stage = .ready → f.items = []
  hand : f.hand ≠ none → f.stage = .relaying
  going : f.stage = .relaying → (relay f.items).fate = none
  ended : ∀ a, f.stage = .finished a ∨ f.stage = .noted a →
    a = .crashed ∨ (relay f.items).fate = some a

variable {i : Nat} {e : Event} {f g : Feed}

theorem sound_dialed : Feed.dialed.Sound where
  frames := rfl
  unread _ := rfl
  hand h := absurd rfl h
  going _ := rfl
  ended _ h := by rcases h with h | h <;> cases h

theorem Sound.hand_eq_none (hs : f.Sound) (h : f.stage ≠ .relaying) : f.hand = none := by
  by_contra hh
  exact h (hs.hand hh)

theorem take_of_open (f : Feed) {x : Item} (hx : x.fate? = none) :
    f.take x = { f with items := f.items ++ [x], hand := x.payload? } := by
  simp [Feed.take, hx]

theorem take_of_fate? (f : Feed) {x : Item} {a : Fate} (hx : x.fate? = some a) :
    f.take x = { f with stage := .finished a, items := f.items ++ [x] } := by
  simp [Feed.take, hx]

theorem Sound.take (hs : f.Sound) (hr : f.stage = .relaying) (hh : f.hand = none) (x : Item) :
    (f.take x).Sound := by
  have hgoing := hs.going hr
  have hrelay := relay_concat hgoing x
  have hframes : (relay (f.items ++ [x])).frames = (f.items ++ [x]).filterMap Item.payload? := by
    have hone : [x].filterMap Item.payload? = x.payload?.toList := by
      cases hx : x.payload? <;> simp [hx]
    rw [hrelay, hs.frames, List.filterMap_append, hone]
  have hfate : (relay (f.items ++ [x])).fate = x.fate? := by rw [hrelay]
  cases hx : x.fate? with
  | some a =>
    rw [take_of_fate? f hx]
    refine ⟨hframes, fun h => ?_, fun h => absurd hh h, nofun, fun b hb => ?_⟩
    · rcases h with h | h | h <;> cases h
    · rcases hb with hb | hb <;> cases hb
      exact .inr (hfate.trans hx)
  | none =>
    rw [take_of_open f hx]
    refine ⟨hframes, fun h => ?_, fun _ => hr, fun _ => hfate.trans hx, fun b hb => ?_⟩
    · rcases h with h | h | h <;> rw [hr] at h <;> cases h
    · rcases hb with hb | hb <;> rw [hr] at hb <;> cases hb

theorem Sound.change (hs : f.Sound) (hc : Change i e f g) : g.Sound := by
  cases hc with
  | ready hd =>
    have hnone := hs.hand_eq_none (by rw [hd]; nofun)
    refine ⟨hs.frames, fun _ => hs.unread (.inl hd), fun h => absurd hnone h, nofun, ?_⟩
    rintro b (hb | hb) <;> cases hb
  | refused hd =>
    have hnone := hs.hand_eq_none (by rw [hd]; nofun)
    refine ⟨hs.frames, fun _ => hs.unread (.inl hd), fun h => absurd hnone h, nofun, ?_⟩
    rintro b (hb | hb) <;> cases hb
  | joined hd =>
    have hempty := hs.unread (.inl hd)
    refine ⟨hs.frames, ?_, fun _ => rfl, fun _ => by simp [hempty], ?_⟩
    · rintro (h | h | h) <;> cases h
    · rintro b (hb | hb) <;> cases hb
  | switched hd =>
    have hempty := hs.unread (.inr (.inr hd))
    refine ⟨hs.frames, ?_, fun _ => rfl, fun _ => by simp [hempty], ?_⟩
    · rintro (h | h | h) <;> cases h
    · rintro b (hb | hb) <;> cases hb
  | read hr hh => exact hs.take hr hh _
  | crashed hr hh =>
    refine ⟨hs.frames, ?_, fun h => absurd hh h, nofun, ?_⟩
    · rintro (h | h | h) <;> cases h
    · rintro b (hb | hb) <;> cases hb
      exact .inl rfl
  | enqueued hh =>
    exact ⟨hs.frames, hs.unread, fun h => absurd rfl h, hs.going, hs.ended⟩
  | @noted _ a hf =>
    have hnone := hs.hand_eq_none (by rw [hf]; nofun)
    refine ⟨hs.frames, ?_, fun h => absurd hnone h, nofun, ?_⟩
    · rintro (h | h | h) <;> cases h
    · rintro b (hb | hb) <;> cases hb
      exact hs.ended a (.inl hf)

/-- A feed counts as dialed from the end of its dial on. -/
theorem wasDialed_change_iff (hc : Change i e f g) :
    g.wasDialed = true ↔ f.wasDialed = true ∨ e = .dialed i true := by
  cases hc with
  | ready hd => simp [wasDialed]
  | refused hd => simp [wasDialed, hd]
  | joined hd => simp [wasDialed]
  | switched hd => simp [wasDialed, hd]
  | @read _ x hr hh =>
    unfold Feed.take
    split <;> simp [wasDialed, hr]
  | crashed hr hh => simp [wasDialed, hr]
  | enqueued hh => simp [wasDialed]
  | noted hs => simp [wasDialed, hs]

end Feed

namespace Session

variable {start s t : Session} {e : Event} {es : List Event} {i : Nat} {f g : Feed}
  {n outboundBuffer grants : Nat}

-- ---------------------------------------------------------------------------
-- Coherence
-- ---------------------------------------------------------------------------

/-- Whether a session is over. -/
def Over (s : Session) : Prop := ∃ why, s.phase = .closed why

/-- What ties feeds, queue and writer to the phase of a session. -/
structure Coherent (s : Session) : Prop where
  /-- a frame is written only while feeds relay -/
  writing : s.writing ≠ none → s.alive = true
  /-- and frames are queued only then, or left behind -/
  queue : s.queue ≠ [] → s.alive = true ∨ s.Over
  /-- the feed that answers the client is ready -/
  upgrading : ∀ i, s.phase = .upgrading i → ∃ f, s.feeds[i]? = some f ∧ f.stage = .ready
  /-- and it is the only one -/
  ready : ∀ i f, s.feeds[i]? = some f → f.stage = .ready →
    s.phase = .upgrading i ∨ s.phase = .closed .notUpgraded

theorem alive_iff : s.alive = true ↔ s.phase = .running ∨ ∃ why, s.phase = .flushing why := by
  unfold Session.alive
  cases s.phase <;> simp

theorem not_over_of_alive (h : s.alive = true) : ¬ s.Over := by
  rintro ⟨why, hp⟩
  simp [alive_iff, hp] at h

/-- A session that is over takes no turn. -/
theorem Coherent.not_over (hc : Coherent s) (h : Turn s e t) : ¬ s.Over := by
  rintro ⟨why, hw⟩
  have hdead : s.alive ≠ true := by simp [alive_iff, hw]
  cases h with
  | opened hp | refused hp | rejected hp | joined hp | missed hp | missedLast hp | upgraded hp
  | notUpgraded hp | noted hp | notedLast hp | failed hp | heard hp | left hp | drained hp =>
    rw [hw] at hp
    cases hp
  | read ha | crash ha | enqueue ha | take ha => exact hdead ha
  | wrote hx => exact hdead (hc.writing (by simp [hx]))
  | lost hx => exact hdead (hc.writing (by simp [hx]))
  | cut hx => exact hdead (hc.writing (by simp [hx]))

/-- Only while the client is answered is a feed ready. -/
theorem Coherent.stage_ne_ready (hc : Coherent s) (ho : ¬ s.Over)
    (hu : ∀ k, s.phase ≠ .upgrading k) (hf : s.feeds[i]? = some f) : f.stage ≠ .ready := by
  intro hr
  rcases hc.ready i f hf hr with h | h
  · exact hu i h
  · exact ho ⟨_, h⟩

theorem feed_of_set {fs : List Feed} {j : Nat} (h : (fs.set i g)[j]? = some f) :
    (j = i ∧ f = g) ∨ (j ≠ i ∧ fs[j]? = some f) := by
  by_cases hij : i = j
  · subst hij
    obtain ⟨hlt, -⟩ := List.getElem?_eq_some_iff.mp h
    rw [List.getElem?_set_self (by simpa using hlt), Option.some.injEq] at h
    exact .inl ⟨rfl, h.symm⟩
  · rw [List.getElem?_set_ne hij] at h
    exact .inr ⟨Ne.symm hij, h⟩

/-- A session that writes what its queue holds goes on with it until it is over, for
the same reason. -/
theorem Turn.flushing {why : Ending} (h : Turn s e t) (hp : s.phase = .flushing why) :
    t.phase = .flushing why ∨ t.phase = .closed why := by
  cases h with
  | opened h | refused h | rejected h | joined h | missed h | missedLast h | upgraded h
  | notUpgraded h | noted h | notedLast h | failed h | left h => cases h.symm.trans hp
  | lost _ h => cases h.symm.trans hp
  | read | crash | enqueue | take | wrote | heard => exact .inl hp
  | cut _ h => cases h.symm.trans hp; exact .inr rfl
  | drained h => cases h.symm.trans hp; exact .inr rfl

theorem not_alive_of_early (h : s.phase = .opening ∨ ∃ i, s.phase = .upgrading i) :
    ¬ s.alive = true := by
  rw [alive_iff]
  rcases h with h | ⟨i, h⟩ <;> simp [h]

theorem ne_upgrading_of_alive (ha : s.alive = true) (k : Nat) : s.phase ≠ .upgrading k :=
  fun h => not_alive_of_early (.inr ⟨k, h⟩) ha

theorem Coherent.writing_turn (hc : Coherent s) (h : Turn s e t) (hw : t.writing ≠ none) :
    t.alive = true := by
  cases h with
  | opened hp | refused hp | rejected hp =>
    exact absurd (hc.writing hw) (not_alive_of_early (.inl hp))
  | notUpgraded hp => exact absurd (hc.writing hw) (not_alive_of_early (.inr ⟨_, hp⟩))
  | upgraded => rfl
  | joined _ hn | missed _ hn | missedLast _ hn | noted _ hn | notedLast _ hn | failed _ hn
  | heard _ hn | left _ hn | drained _ hn => exact absurd hn hw
  | read ha | crash ha | enqueue ha | take ha => exact ha
  | wrote | lost | cut => exact absurd rfl hw

theorem Coherent.queue_turn (hc : Coherent s) (h : Turn s e t) (hq : t.queue ≠ []) :
    t.alive = true ∨ t.Over := by
  have hlive := hc.not_over h
  cases h with
  | opened hp | refused hp | rejected hp =>
    rcases hc.queue hq with ha | ho
    · exact absurd ha (not_alive_of_early (.inl hp))
    · exact absurd ho hlive
  | upgraded => exact .inl rfl
  | joined hp | missed hp | noted hp | heard hp => exact .inl (alive_iff.mpr (.inl hp))
  | missedLast | notedLast | failed => exact .inl rfl
  | read ha | crash ha | enqueue ha | take ha => exact .inl ha
  | wrote hw => exact .inl (hc.writing (by simp [hw]))
  | notUpgraded | lost | cut | left | drained => exact .inr ⟨_, rfl⟩

theorem Coherent.upgrading_turn (hc : Coherent s) (h : Turn s e t) {k : Nat}
    (hk : t.phase = .upgrading k) : ∃ f, t.feeds[k]? = some f ∧ f.stage = .ready := by
  cases h with
  | @opened i f hp hf hd =>
    cases hk
    exact ⟨_, List.getElem?_set_self (lt_length_of_feed hf), rfl⟩
  | refused hp | joined hp | missed hp | noted hp | heard hp => cases hp.symm.trans hk
  | rejected | missedLast | upgraded | notUpgraded | lost | cut | notedLast | failed | left
  | drained => cases hk
  | read ha | crash ha | enqueue ha | take ha => exact absurd hk (ne_upgrading_of_alive ha k)
  | wrote => exact hc.upgrading k hk

theorem Coherent.ready_turn (hc : Coherent s) (h : Turn s e t) {j : Nat}
    (hj : t.feeds[j]? = some g) (hg : g.stage = .ready) :
    t.phase = .upgrading j ∨ t.phase = .closed .notUpgraded := by
  have hlive := hc.not_over h
  cases h with
  | opened hp hf hd =>
    rcases feed_of_set hj with ⟨rfl, -⟩ | ⟨-, hj⟩
    · exact .inl rfl
    · exact absurd hg (hc.stage_ne_ready hlive (by simp [hp]) hj)
  | refused hp | rejected hp | joined hp | missed hp | missedLast hp | noted hp
  | notedLast hp | failed hp =>
    rcases feed_of_set hj with ⟨-, rfl⟩ | ⟨-, hj⟩
    · cases hg
    · exact absurd hg (hc.stage_ne_ready hlive (by simp [hp]) hj)
  | @upgraded i f hp hf =>
    rcases feed_of_set hj with ⟨-, rfl⟩ | ⟨hne, hj⟩
    · cases hg
    · -- the ready feed is the one that answered the client
      rcases hc.ready j g hj hg with h | h
      · cases hp.symm.trans h
        exact absurd rfl hne
      · exact absurd ⟨_, h⟩ hlive
  | notUpgraded => exact .inr rfl
  | @read i f x ha hf hr hh =>
    rcases feed_of_set hj with ⟨-, rfl⟩ | ⟨-, hj⟩
    · unfold Feed.take at hg
      split at hg
      · cases hg
      · cases hr.symm.trans hg
    · exact absurd hg (hc.stage_ne_ready hlive (ne_upgrading_of_alive ha) hj)
  | crash ha hf =>
    rcases feed_of_set hj with ⟨-, rfl⟩ | ⟨-, hj⟩
    · cases hg
    · exact absurd hg (hc.stage_ne_ready hlive (ne_upgrading_of_alive ha) hj)
  | enqueue ha hf =>
    rcases feed_of_set hj with ⟨-, rfl⟩ | ⟨-, hj⟩
    · have hkept := hc.stage_ne_ready hlive (ne_upgrading_of_alive ha) hf
      exact absurd hg hkept
    · exact absurd hg (hc.stage_ne_ready hlive (ne_upgrading_of_alive ha) hj)
  | take ha => exact absurd hg (hc.stage_ne_ready hlive (ne_upgrading_of_alive ha) hj)
  | wrote => exact hc.ready j g hj hg
  | lost _ hp | cut _ hp | heard hp | left hp | drained hp =>
    exact absurd hg (hc.stage_ne_ready hlive (by simp [hp]) hj)

theorem coherent_initial : Coherent (initial n outboundBuffer grants) where
  writing h := absurd rfl h
  queue h := absurd rfl h
  upgrading i h := by
    simp only [initial] at h
    split at h <;> cases h
  ready i f hf hr := by
    simp only [initial, List.getElem?_replicate] at hf
    split at hf
    · cases hf
      cases hr
    · cases hf

theorem Coherent.turn (hc : Coherent s) (h : Turn s e t) : Coherent t :=
  ⟨hc.writing_turn h, hc.queue_turn h, fun _ => hc.upgrading_turn h, fun _ _ => hc.ready_turn h⟩

theorem Coherent.run (hc : Coherent start) (h : start.run es = some s) : Coherent s :=
  run_induction (P := fun _ s => Coherent s) hc (fun _ _ _ _ _ hc ht => hc.turn ht) h

theorem coherent_of_run (h : (initial n outboundBuffer grants).run es = some s) : Coherent s :=
  coherent_initial.run h

-- ---------------------------------------------------------------------------
-- Feeds
-- ---------------------------------------------------------------------------

/-- A turn changes one feed at most, and no other dial than this feed's ends with
it. -/
theorem Turn.feeds (h : Turn s e t) (hc : Coherent s) :
    (t.feeds = s.feeds ∧ ∀ i ok, e ≠ .dialed i ok) ∨
      ∃ i f g, s.feeds[i]? = some f ∧ Feed.Change i e f g ∧ t.feeds = s.feeds.set i g := by
  cases h with
  | opened _ hf hd => exact .inr ⟨_, _, _, hf, .ready hd, rfl⟩
  | refused _ hf hd | rejected _ hf hd => exact .inr ⟨_, _, _, hf, .refused hd, rfl⟩
  | joined _ _ hf hd => exact .inr ⟨_, _, _, hf, .joined hd, rfl⟩
  | missed _ _ hf hd | missedLast _ _ hf hd => exact .inr ⟨_, _, _, hf, .refused hd, rfl⟩
  | @upgraded i f hp hf =>
    obtain ⟨f', hf', hr⟩ := hc.upgrading i hp
    cases hf.symm.trans hf'
    exact .inr ⟨_, _, _, hf, .switched hr, rfl⟩
  | read _ hf hr hh => exact .inr ⟨_, _, _, hf, .read hr hh, rfl⟩
  | crash _ hf hr hh => exact .inr ⟨_, _, _, hf, .crashed hr hh, rfl⟩
  | enqueue _ hf hh => exact .inr ⟨_, _, _, hf, .enqueued hh, rfl⟩
  | noted _ _ hf hs | notedLast _ _ hf hs | failed _ _ hf hs =>
    exact .inr ⟨_, _, _, hf, .noted hs, rfl⟩
  | notUpgraded | take | wrote | lost | cut | heard | left | drained =>
    exact .inl ⟨rfl, nofun⟩

/-- A feed behind a turn is the feed before it, or changed by the event. -/
theorem Turn.feed_before (h : Turn s e t) (hc : Coherent s) (hg : t.feeds[i]? = some g) :
    ∃ f, s.feeds[i]? = some f ∧ (g = f ∨ Feed.Change i e f g) := by
  rcases h.feeds hc with ⟨hsame, -⟩ | ⟨k, f, g', hf, hchange, hset⟩
  · exact ⟨g, hsame ▸ hg, .inl rfl⟩
  · rw [hset] at hg
    rcases feed_of_set hg with ⟨rfl, rfl⟩ | ⟨-, hg⟩
    · exact ⟨f, hf, .inr hchange⟩
    · exact ⟨g, hg, .inl rfl⟩

theorem Turn.feed_behind (h : Turn s e t) (hc : Coherent s) (hf : s.feeds[i]? = some f) :
    ∃ g, t.feeds[i]? = some g ∧ (g = f ∨ Feed.Change i e f g) := by
  rcases h.feeds hc with ⟨hsame, -⟩ | ⟨k, f', g, hf', hchange, hset⟩
  · exact ⟨f, hsame ▸ hf, .inl rfl⟩
  · rw [hset]
    by_cases hk : k = i
    · subst hk
      cases hf.symm.trans hf'
      exact ⟨g, List.getElem?_set_self (lt_length_of_feed hf), .inr hchange⟩
    · exact ⟨f, by rwa [List.getElem?_set_ne hk], .inl rfl⟩

theorem feed_initial (hf : (initial n outboundBuffer grants).feeds[i]? = some f) :
    f = .dialed := by
  simp only [initial, List.getElem?_replicate] at hf
  split at hf
  · exact (Option.some.inj hf).symm
  · cases hf

theorem sound_of_run (h : (initial n outboundBuffer grants).run es = some s)
    (hf : s.feeds[i]? = some f) : f.Sound := by
  refine run_induction (P := fun _ s => ∀ i f, s.feeds[i]? = some f → f.Sound) ?_ ?_ h i f hf
  · intro i f hf
    exact feed_initial hf ▸ Feed.sound_dialed
  · intro es s e t hrun hs ht i f hf
    obtain ⟨f', hf', rfl | hchange⟩ := ht.feed_before (coherent_of_run hrun) hf
    · exact hs i f hf'
    · exact (hs i f' hf').change hchange

/-- The feeds that were dialed are those whose dial succeeded. -/
theorem dialed_iff_of_run (h : (initial n outboundBuffer grants).run es = some s) (i : Nat) :
    .dialed i true ∈ es ↔ ∃ f, s.feeds[i]? = some f ∧ f.wasDialed = true := by
  refine run_induction
    (P := fun es s => .dialed i true ∈ es ↔ ∃ f, s.feeds[i]? = some f ∧ f.wasDialed = true) ?_ ?_ h
  · constructor
    · intro hmem
      cases hmem
    · rintro ⟨f, hf, hd⟩
      rw [feed_initial hf] at hd
      cases hd
  · intro es s e t hrun ih ht
    rw [List.mem_append, List.mem_singleton, ih]
    rcases ht.feeds (coherent_of_run hrun) with ⟨hsame, hne⟩ | ⟨k, f, g, hf, hchange, hset⟩
    · rw [hsame]
      exact or_iff_left (Ne.symm (hne i true))
    · have hdial := Feed.wasDialed_change_iff hchange
      rw [hset]
      by_cases hk : k = i
      · subst hk
        rw [List.getElem?_set_self (lt_length_of_feed hf)]
        simp only [hf, Option.some.injEq, exists_eq_left']
        rw [hdial, @eq_comm _ e]
      · -- another feed's change is no dial of this one
        have hother : .dialed i true ≠ e := by
          rintro rfl
          cases hchange <;> exact hk rfl
        rw [List.getElem?_set_ne hk]
        exact or_iff_left hother

end Session

end WatchGate.Multiwatch
