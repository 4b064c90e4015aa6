import WatchGate.Proofs.Session.Dials

/-!
# WatchGate — what a watch session counts

A session counts the end of a dial, its own beginning and end, and each frame that it
has written. `Event.adds` says what an event adds to the counters that only rise, and
every turn adds this and nothing else (`Turn.rise_eq`); what it does to the gauge of
sessions is said by whether feeds relay before and behind it (`Turn.active`).

None of this hangs on what the tally holds, which others may have counted in as well.
`Counted` therefore relates a session with what it has added of its own.

Main results:

* `Turn.rise_eq` and `Turn.active` — what a turn does to any tally.
* `Counted.turn` — what a session has added accounts for its dials, its beginning and
  the frames that its client has received.
-/

namespace WatchGate.Multiwatch

namespace Tally

/-- The counters that only rise. -/
def rising : List (Tally → Nat) := [dialed, refused, sessions, frames]

/-- By how much they have risen. -/
def rise (a b : Tally) : Tally :=
  ⟨b.sessions - a.sessions, 0, b.dialed - a.dialed, b.refused - a.refused, b.frames - a.frames⟩

@[simp] theorem rise_self (a : Tally) : a.rise a = .zero := by
  simp [rise, zero]

@[simp] theorem both_zero (a : Tally) : a.both .zero = a := rfl

@[simp] theorem zero_both (a : Tally) : zero.both a = a := by
  simp [both, zero]

theorem both_assoc (a b c : Tally) : (a.both b).both c = a.both (b.both c) := by
  simp [both, Nat.add_assoc]

theorem rising_both {c : Tally → Nat} (hc : c ∈ rising) (a b : Tally) :
    c (a.both b) = c a + c b := by
  simp only [rising, List.mem_cons, List.not_mem_nil, or_false] at hc
  rcases hc with rfl | rfl | rfl | rfl <;> rfl

theorem rising_zero {c : Tally → Nat} (hc : c ∈ rising) : c .zero = 0 := by
  simp only [rising, List.mem_cons, List.not_mem_nil, or_false] at hc
  rcases hc with rfl | rfl | rfl | rfl <;> rfl

end Tally

/-- What an event adds to the counters that only rise. -/
def Event.adds : Event → Tally
  | .dialed _ ok => Tally.zero.dial ok
  | .upgraded true => { Tally.zero with sessions := 1 }
  | .wrote true => Tally.zero.relayed
  | .upgraded false | .wrote false | .read .. | .crash _ | .enqueue _ | .take | .note _
  | .client _ | .drained => .zero

namespace Session

variable {s t : Session} {e : Event} {n outboundBuffer grants : Nat} {c : Tally}

/-- One of a list that is replaced takes its share out of a count and brings its new one. -/
theorem countP_set_add {α : Type} {p : α → Bool} {xs : List α} {x : α} {i : Nat}
    (h : xs[i]? = some x) (y : α) :
    (xs.set i y).countP p + (if p x then 1 else 0) = xs.countP p + if p y then 1 else 0 := by
  obtain ⟨hlt, hget⟩ := List.getElem?_eq_some_iff.mp h
  have hpos : p x = true → 0 < xs.countP p := fun hx =>
    List.countP_pos_iff.mpr ⟨x, List.mem_of_getElem? h, hx⟩
  rw [List.countP_set hlt, hget]
  cases hx : p x with
  | false => simp
  | true =>
    have := hpos hx
    simp only [if_true]
    omega

-- ---------------------------------------------------------------------------
-- One turn
-- ---------------------------------------------------------------------------

/-- A turn adds to the counters what its event adds, -/
theorem Turn.rising_eq (h : Turn s e t) {c : Tally → Nat} (hc : c ∈ Tally.rising) :
    c t.tally = c s.tally + c e.adds := by
  simp only [Tally.rising, List.mem_cons, List.not_mem_nil, or_false] at hc
  rcases hc with rfl | rfl | rfl | rfl <;> cases h <;> rfl

/-- and this is by how much they rise. -/
theorem Turn.rise_eq (h : Turn s e t) : s.tally.rise t.tally = e.adds := by
  have hgauge : e.adds.active = 0 := by
    cases h <;> rfl
  have hrise : ∀ c ∈ Tally.rising, c t.tally - c s.tally = c e.adds := by
    intro c hc
    have := h.rising_eq hc
    omega
  simp only [Tally.rising, List.forall_mem_cons] at hrise
  obtain ⟨hdialed, hrefused, hsessions, hframes, -⟩ := hrise
  simp only [Tally.rise, hdialed, hrefused, hsessions, hframes, ← hgauge]

/-- A session is counted as open while its feeds relay. -/
theorem Turn.active (h : Turn s e t) (hopen : s.alive = true → 0 < s.tally.active) :
    t.tally.active + (if s.alive then 1 else 0) = s.tally.active + if t.alive then 1 else 0 := by
  cases h with
  | opened hp | refused hp | rejected hp | joined hp | missed hp | missedLast hp | upgraded hp
  | notUpgraded hp | noted hp | notedLast hp | failed hp | heard hp =>
    simp [Session.alive, Tally.dial, Tally.opened, hp]
  | read | crash | enqueue | take | wrote => rfl
  | lost _ hp | cut _ hp | left hp | drained hp =>
    have hpos := hopen (by simp [Session.alive, hp])
    simp only [Session.alive, hp, Tally.closed, if_true, Bool.false_eq_true, if_false]
    omega

theorem dialing_change {i : Nat} {f g : Feed} (h : Feed.Change i e f g) :
    (if g.isDialing then 1 else 0) + e.adds.dialed + e.adds.refused =
      if f.isDialing then 1 else 0 := by
  cases h with
  | ready hd | refused hd | joined hd | switched hd | enqueued hd | crashed hd | noted hd =>
    simp [Feed.isDialing, Event.adds, Tally.dial, Tally.zero, hd]
  | @read f x hr =>
    unfold Feed.take
    split <;> simp [Feed.isDialing, Event.adds, Tally.zero, hr]

/-- A dial is counted when it ends, and at no other time. -/
theorem Turn.dialing_add (h : Turn s e t) (hc : Coherent s) :
    t.dialing + e.adds.dialed + e.adds.refused = s.dialing := by
  unfold Session.dialing
  rcases h.feeds hc with ⟨hsame, hne⟩ | ⟨i, f, g, hf, hchange, hset⟩
  · have hnone : e.adds.dialed = 0 ∧ e.adds.refused = 0 := by
      cases e with
      | dialed i ok => exact absurd rfl (hne i ok)
      | upgraded ok | wrote ok => cases ok <;> exact ⟨rfl, rfl⟩
      | _ => exact ⟨rfl, rfl⟩
    simp only [hsame, hnone, Nat.add_zero]
  · have hcount := countP_set_add (p := Feed.isDialing) hf g
    have hone := dialing_change hchange
    rw [hset]
    omega

theorem Turn.length_delivered (h : Turn s e t) :
    t.delivered.length = s.delivered.length + e.adds.frames := by
  cases h <;> simp [Event.adds, Tally.dial, Tally.relayed, Tally.zero]

/-- Feeds begin to relay with the turn that counts the session. -/
theorem Turn.opens (h : Turn s e t) :
    (e.adds.sessions = 1 ∧ ¬ s.alive = true ∧ t.alive = true) ∨
      e.adds.sessions = 0 ∧ (t.alive = true → s.alive = true) := by
  cases h with
  | upgraded hp => exact .inl ⟨rfl, by simp [alive_iff, hp], rfl⟩
  | opened hp | refused hp | rejected hp | notUpgraded hp =>
    exact .inr ⟨rfl, by simp [alive_iff, hp]⟩
  | joined hp | missed hp | missedLast hp | noted hp | notedLast hp | failed hp | heard hp =>
    exact .inr ⟨rfl, fun _ => alive_iff.mpr (.inl hp)⟩
  | read | crash | enqueue | take | wrote => exact .inr ⟨rfl, id⟩
  | lost | cut | left | drained => exact .inr ⟨rfl, nofun⟩

-- ---------------------------------------------------------------------------
-- The account of a session
-- ---------------------------------------------------------------------------

/-- What a session with a number of feeds has added of its own. -/
structure Counted (n : Nat) (c : Tally) (s : Session) : Prop where
  coherent : Coherent s
  /-- a dial is counted as one that succeeded or failed, or has not ended -/
  dials : c.dialed + c.refused + s.dialing = n
  /-- a client that waits, or waited in vain, has had no dial succeed -/
  unanswered : s.phase = .opening ∨ s.phase = .rejected → c.dialed = 0
  rejected : s.phase = .rejected → s.dialing = 0
  /-- a session is counted once, with its beginning -/
  once : c.sessions ≤ 1
  alive_iff : s.alive = true ↔ c.sessions = 1 ∧ ¬ s.Over
  frames : c.frames = s.delivered.length

namespace Counted

theorem initial : Counted n .zero (initial n outboundBuffer grants) where
  coherent := coherent_initial
  dials := by
    have hall : (List.replicate n Feed.dialed).countP Feed.isDialing = n := by
      simp [List.countP_replicate, Feed.isDialing, Feed.dialed]
    simpa [Session.initial, dialing, Tally.zero] using hall
  unanswered _ := rfl
  rejected h := by
    simp only [Session.initial] at h
    split at h
    · next hn => simp [Session.initial, dialing, hn]
    · cases h
  once := Nat.zero_le _
  alive_iff := by
    rw [Session.alive_iff]
    simp only [Session.initial]
    split <;> simp [Tally.zero]
  frames := rfl

theorem withTally (h : Counted n c s) (shared : Tally) : Counted n c { s with tally := shared } where
  coherent := ⟨h.coherent.writing, h.coherent.queue, h.coherent.upgrading, h.coherent.ready⟩
  dials := h.dials
  unanswered := h.unanswered
  rejected := h.rejected
  once := h.once
  alive_iff := h.alive_iff
  frames := h.frames

/-- A session that has not begun to relay is not counted. -/
theorem sessions_eq_zero (h : Counted n c s) (hdead : ¬ s.alive = true) (hover : ¬ s.Over) :
    c.sessions = 0 := by
  have honce := h.once
  have hone : c.sessions ≠ 1 := fun hone => hdead (h.alive_iff.mpr ⟨hone, hover⟩)
  omega

theorem turn (h : Counted n c s) (ht : Turn s e t) : Counted n (c.both e.adds) t where
  coherent := h.coherent.turn ht
  dials := by
    have hdials := h.dials
    have hadd := ht.dialing_add h.coherent
    simp only [Tally.both]
    omega
  unanswered hp := by
    have hbefore := ht.before_early h.coherent (hp.imp_right .inr)
    -- a dial that succeeds is answered, and one that fails adds to the failures
    rcases ht.early h.coherent (.inl hbefore) with ⟨i, -, hupgrading⟩ | ⟨i, rfl, -⟩
    · rw [hupgrading] at hp
      rcases hp with hp | hp <;> cases hp
    · simpa [Tally.both, Event.adds, Tally.dial, Tally.zero] using h.unanswered (.inl hbefore)
  rejected hp := by
    have hbefore := ht.before_early h.coherent (.inr (.inr hp))
    rcases ht.early h.coherent (.inl hbefore) with ⟨i, -, hp'⟩ | ⟨i, -, ⟨hp', -⟩ | ⟨-, hnone⟩⟩
    · cases hp'.symm.trans hp
    · cases hp'.symm.trans hp
    · exact List.countP_eq_zero.mpr fun f hf => mt isDialing_iff.mp (hnone f hf)
  once := by
    have honce := h.once
    simp only [Tally.both]
    rcases ht.opens with ⟨hone, hdead, -⟩ | ⟨hnone, -⟩
    · have hzero := h.sessions_eq_zero hdead (h.coherent.not_over ht)
      omega
    · omega
  alive_iff := by
    have hlive := h.coherent.not_over ht
    simp only [Tally.both]
    rcases ht.opens with ⟨hone, hdead, halive⟩ | ⟨hnone, hback⟩
    · -- the session is counted with this turn
      rw [hone, h.sessions_eq_zero hdead hlive]
      exact iff_of_true halive ⟨rfl, not_over_of_alive halive⟩
    · rw [hnone, Nat.add_zero]
      constructor
      · intro halive
        exact ⟨(h.alive_iff.mp (hback halive)).1, not_over_of_alive halive⟩
      · rintro ⟨hone, hover⟩
        exact (ht.alive (h.alive_iff.mpr ⟨hone, hlive⟩)).resolve_right hover
  frames := by
    simp only [Tally.both, ht.length_delivered, h.frames]

/-- A session whose dials are given up adds nothing more. -/
theorem abandoned (h : Counted n c s) (hp : s.phase = .opening) :
    Counted n c { s with phase := .closed .notUpgraded } where
  coherent := by
    have hwriting : s.writing = none := by
      by_contra hw
      exact not_alive_of_early (.inl hp) (h.coherent.writing hw)
    exact ⟨fun hw => absurd hwriting hw, fun _ => .inr ⟨_, rfl⟩, nofun, fun _ _ _ _ => .inr rfl⟩
  dials := h.dials
  unanswered := by rintro (h | h) <;> cases h
  rejected := nofun
  once := h.once
  alive_iff := iff_of_false nofun fun hc => hc.2 ⟨_, rfl⟩
  frames := h.frames

end Counted

end Session

end WatchGate.Multiwatch
