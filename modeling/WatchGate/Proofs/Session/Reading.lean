import WatchGate.Proofs.Session.Lifetime
import WatchGate.Proofs.Session.Order

/-!
# WatchGate — how a feed is read

`relay` says in one go what a row of items gives to a client. A session gets there item
by item, with other feeds in between and a queue that may be full, and can be over
before the feed is. So the two are compared where a schedule has led: what has been
read so far, what has been made of it, and what is to come.

A feed stops with the first item that ends it: nothing is read behind such an item, and
a task that broke down had not read any (`Feed.Stops`). Until then it goes on, for as
long as the session receives. What is on its way can be written, and with this out of
the way (`Vacant`) the items that come next are read and forwarded one by one.

Main results:

* `Feed.ended_iff` — a feed has ended when its last item was one that ends it.
* `Vacant.read_row` — a row can be read up to an item that ends the feed.
* `feeds_relayed` — what this means for what a feed is sent.
-/

namespace WatchGate.Multiwatch

-- ---------------------------------------------------------------------------
-- Where a feed stops
-- ---------------------------------------------------------------------------

namespace Feed

variable {i : Nat} {e : Event} {f g : Feed} {a : Fate}

/-- A feed stops with the first item that ends it. -/
structure Stops (f : Feed) : Prop where
  /-- nothing is read behind such an item -/
  last : ∀ y ∈ f.items.dropLast, ¬ y.Ends
  /-- and none was read where the task broke down -/
  crashed : f.stage = .finished .crashed ∨ f.stage = .noted .crashed → ∀ y ∈ f.items, ¬ y.Ends

theorem stops_dialed : Feed.dialed.Stops where
  last := nofun
  crashed h := by rcases h with h | h <;> cases h

theorem Sound.open_of_relaying (hs : f.Sound) (hr : f.stage = .relaying) :
    ∀ y ∈ f.items, ¬ y.Ends :=
  fate_eq_none_iff.mp (hs.going hr)

theorem Sound.stops_take (hs : f.Sound) (hr : f.stage = .relaying) (x : Item) :
    (f.take x).Stops := by
  have hopen := hs.open_of_relaying hr
  have hlast : ∀ y ∈ (f.items ++ [x]).dropLast, ¬ y.Ends := by rwa [List.dropLast_concat]
  cases hx : x.fate? with
  | none =>
    rw [take_of_open f hx]
    refine ⟨hlast, fun hc => ?_⟩
    rcases hc with hc | hc <;> cases hr.symm.trans hc
  | some a =>
    rw [take_of_fate? f hx]
    refine ⟨hlast, fun hc => ?_⟩
    rcases hc with hc | hc <;> cases hc
    exact absurd hx Item.fate?_ne_crashed

theorem Stops.change (h : f.Stops) (hs : f.Sound) (hc : Change i e f g) : g.Stops := by
  cases hc with
  | ready | refused | joined | switched =>
    refine ⟨h.last, fun hc => ?_⟩
    rcases hc with hc | hc <;> cases hc
  | read hr => exact hs.stops_take hr _
  | crashed hr => exact ⟨h.last, fun _ => hs.open_of_relaying hr⟩
  | enqueued => exact ⟨h.last, h.crashed⟩
  | noted hf =>
    refine ⟨h.last, fun hc => ?_⟩
    rcases hc with hc | hc <;> cases hc
    exact h.crashed (.inl hf)

/-- A feed whose task did not break down has ended when the last item it read was the
first one that ends it. -/
theorem ended_iff (hs : f.Sound) (h : f.Stops) (ha : a ≠ .crashed) :
    f.stage = .finished a ∨ f.stage = .noted a ↔
      ∃ before x, f.items = before ++ [x] ∧ (∀ y ∈ before, ¬ y.Ends) ∧ x.fate? = some a := by
  constructor
  · intro hstage
    obtain ⟨before, x, after, hitems, hbefore, hx⟩ :=
      fate_eq_some_iff.mp ((hs.ended a hstage).resolve_left ha)
    have hnone : after = [] := by
      by_contra hne
      have hmem : x ∈ f.items.dropLast := by
        rw [hitems, List.dropLast_append_of_ne_nil (List.cons_ne_nil _ _),
          List.dropLast_cons_of_ne_nil hne]
        simp
      exact h.last x hmem (Item.ends_iff_exists_fate.mpr ⟨a, hx⟩)
    exact ⟨before, x, hnone ▸ hitems, hbefore, hx⟩
  · rintro ⟨before, x, hitems, hbefore, hx⟩
    have hends : x.Ends := Item.ends_iff_exists_fate.mpr ⟨a, hx⟩
    have hmem : x ∈ f.items := by simp [hitems]
    have hfate : (relay f.items).fate = some a :=
      fate_eq_some_iff.mpr ⟨before, x, [], hitems, hbefore, hx⟩
    have hended : ∀ b, f.stage = .finished b ∨ f.stage = .noted b → b = a := by
      intro b hb
      rcases hs.ended b hb with rfl | hb
      · exact absurd hends (h.crashed hb x hmem)
      · exact Option.some.inj (hb.symm.trans hfate)
    cases hstage : f.stage with
    | dialing | refused | ready =>
      rw [hs.unread (by simp [hstage])] at hmem
      cases hmem
    | relaying => exact absurd hends (hs.open_of_relaying hstage x hmem)
    | finished b => exact .inl (by rw [hended b (.inl hstage)])
    | noted b => exact .inr (by rw [hended b (.inr hstage)])

end Feed

namespace Session

variable {s t : Session} {es : List Event} {i : Nat} {f : Feed} {p : String} {x : Item}
  {row : List Item} {n outboundBuffer grants : Nat}

theorem stops_of_run (h : (initial n outboundBuffer grants).run es = some s)
    (hf : s.feeds[i]? = some f) : f.Stops := by
  refine run_induction (P := fun _ s => ∀ i f, s.feeds[i]? = some f → f.Stops) ?_ ?_ h i f hf
  · intro i f hf
    exact feed_initial hf ▸ Feed.stops_dialed
  · intro es s e t hrun ih ht i f hf
    obtain ⟨f', hf', rfl | hchange⟩ := ht.feed_before (coherent_of_run hrun) hf
    · exact ih i f hf'
    · exact (ih i f' hf').change (sound_of_run hrun hf') hchange

theorem items_of_run (h : (initial n outboundBuffer grants).run es = some s)
    (hf : s.feeds[i]? = some f) : f.items = reads i es := by
  rw [← itemsOf_of_run h, itemsOf, readOff_of_feed hf]

-- ---------------------------------------------------------------------------
-- Room for the next item
-- ---------------------------------------------------------------------------

theorem capacity_of_run (h : (initial n outboundBuffer grants).run es = some s) :
    0 < s.capacity := by
  refine run_induction (P := fun _ s => 0 < s.capacity) ?_ ?_ h
  · exact Nat.lt_of_lt_of_le Nat.zero_lt_one (Nat.le_max_right _ _)
  · intro es s e t hrun hpos ht
    have hsame : t.capacity = s.capacity := by cases ht <;> rfl
    rwa [hsame]

theorem reads_of_clearing (h : ∀ e ∈ es, e = .take ∨ e = .wrote true) (i : Nat) :
    reads i es = [] := by
  refine List.filterMap_eq_nil_iff.mpr fun e he => ?_
  rcases h e he with rfl | rfl <;> rfl

/-- A session that has nothing left to write, while a feed is left to read from. -/
structure Vacant (s : Session) (i : Nat) : Prop where
  alive : s.alive = true
  writing : s.writing = none
  queue : s.queue = []
  space : 0 < s.capacity
  feed : ∃ f, s.feeds[i]? = some f ∧ f.stage = .relaying ∧ f.hand = none

/-- What a feed holds is delivered where nothing is before it. -/
theorem pass_hand (ha : s.alive = true) (hw : s.writing = none) (hq : s.queue = [])
    (hc : 0 < s.capacity) (hf : s.feeds[i]? = some f) (hr : f.stage = .relaying)
    (hh : f.hand = some p) :
    ∃ t, s.run [.enqueue i, .take, .wrote true] = some t ∧ t.Vacant i ∧ t.phase = s.phase ∧
      t.delivered = s.delivered ++ [(i, p)] := by
  have hspace : s.queue.length < s.capacity := by rwa [hq]
  have henqueue := Turn.enqueue ha hf hh hspace
  have htake := Turn.take (s := { s with
    feeds := s.feeds.set i { f with hand := none }, queue := s.queue ++ [(i, p)] })
    ha hw (congrArg (· ++ [(i, p)]) hq)
  refine ⟨_, run_cons_of_turn henqueue (run_cons_of_turn htake
    (run_cons_of_turn (.wrote rfl) rfl)), ?_, rfl, rfl⟩
  exact ⟨ha, rfl, rfl, hc, _, List.getElem?_set_self (lt_length_of_feed hf), hr, rfl⟩

/-- All that is on its way to the client of a feed's can be delivered. -/
theorem can_vacate (ha : s.alive = true) (hc : 0 < s.capacity) (hf : s.feeds[i]? = some f)
    (hr : f.stage = .relaying) :
    ∃ es t, s.run es = some t ∧ t.Vacant i ∧ t.phase = s.phase ∧ reads i es = [] := by
  obtain ⟨es, counted, hes, hrun⟩ := can_clear ha
  have hnone := reads_of_clearing hes i
  cases hh : f.hand with
  | none => exact ⟨es, _, hrun, ⟨ha, rfl, rfl, hc, f, hf, hr, hh⟩, rfl, hnone⟩
  | some p =>
    obtain ⟨t, hpass, hvacant, hphase, -⟩ := pass_hand (s := { s with
      queue := [], writing := none, delivered := s.delivered ++ s.writing.toList ++ s.queue,
      tally := counted }) ha rfl rfl hc hf hr hh
    refine ⟨es ++ [.enqueue i, .take, .wrote true], t, run_trans hrun hpass, hvacant, hphase, ?_⟩
    rw [reads_append, hnone]
    rfl

namespace Vacant

/-- An item that does not end the feed can be read, and what it gives delivered, before
anything else happens. -/
theorem read (h : s.Vacant i) (hx : ¬ x.Ends) :
    ∃ es t, s.run es = some t ∧ t.Vacant i ∧ t.phase = s.phase ∧ reads i es = [x] ∧
      t.delivered = s.delivered ++ x.payload?.toList.map (Prod.mk i) := by
  obtain ⟨f, hf, hr, hh⟩ := h.feed
  have hread := Turn.read (x := x) h.alive hf hr hh
  have htake := f.take_of_open (Item.fate?_eq_none_iff.mpr hx)
  have hfeed : (s.feeds.set i (f.take x))[i]? = some (f.take x) :=
    List.getElem?_set_self (lt_length_of_feed hf)
  have hstage : (f.take x).stage = .relaying := by rw [htake]; exact hr
  cases hp : x.payload? with
  | none =>
    refine ⟨[.read i x], _, run_cons_of_turn hread rfl, ?_, rfl, reads_self, ?_⟩
    · exact ⟨h.alive, h.writing, h.queue, h.space, _, hfeed, hstage, by rw [htake]; exact hp⟩
    · exact (List.append_nil _).symm
  | some p =>
    obtain ⟨t, hrun, hvacant, hphase, hdelivered⟩ := pass_hand
      (s := { s with feeds := s.feeds.set i (f.take x) }) h.alive h.writing h.queue h.space
      hfeed hstage (by rw [htake]; exact hp)
    refine ⟨_, t, run_cons_of_turn hread hrun, hvacant, hphase, ?_, hdelivered⟩
    exact List.filterMap_cons_some (if_pos rfl)

theorem read_all (h : s.Vacant i) (hrow : ∀ y ∈ row, ¬ y.Ends) :
    ∃ es t, s.run es = some t ∧ t.Vacant i ∧ t.phase = s.phase ∧ reads i es = row ∧
      t.delivered = s.delivered ++ (row.filterMap Item.payload?).map (Prod.mk i) := by
  induction row generalizing s with
  | nil => exact ⟨[], s, rfl, h, rfl, rfl, (List.append_nil _).symm⟩
  | cons x row ih =>
    obtain ⟨hx, hrow⟩ := List.forall_mem_cons.mp hrow
    obtain ⟨es, r, hrun, hr, hphase, hreads, hdelivered⟩ := h.read hx
    obtain ⟨fs, t, hrun', ht, hphase', hreads', hdelivered'⟩ := ih hr hrow
    refine ⟨es ++ fs, t, run_trans hrun hrun', ht, hphase'.trans hphase, ?_, ?_⟩
    · rw [reads_append, hreads, hreads']
      rfl
    · rw [hdelivered', hdelivered, List.append_assoc, ← List.map_append]
      cases hp : x.payload? <;> simp [hp]

/-- A row in which at most the last item ends the feed can be read. -/
theorem read_row (h : s.Vacant i) (hrow : ∀ y ∈ row.dropLast, ¬ y.Ends) :
    ∃ es t g, s.run es = some t ∧ t.alive = true ∧ t.feeds[i]? = some g ∧ g.hand = none ∧
      reads i es = row := by
  rcases List.eq_nil_or_concat' row with rfl | ⟨init, x, rfl⟩
  · obtain ⟨f, hf, -, hh⟩ := h.feed
    exact ⟨[], s, f, rfl, h.alive, hf, hh, rfl⟩
  · rw [List.dropLast_concat] at hrow
    obtain ⟨es, r, hrun, hvacant, -, hreads, -⟩ := h.read_all hrow
    by_cases hx : x.Ends
    · obtain ⟨f, hf, hr, hh⟩ := hvacant.feed
      obtain ⟨a, ha⟩ := Item.ends_iff_exists_fate.mp hx
      have hread := Turn.read (x := x) hvacant.alive hf hr hh
      refine ⟨es ++ [.read i x], { r with feeds := r.feeds.set i (f.take x) }, f.take x,
        run_concat_iff.mpr ⟨r, hrun, hread⟩, hvacant.alive,
        List.getElem?_set_self (lt_length_of_feed hf), ?_, ?_⟩
      · rw [hand_take hh, Item.payload?_of_fate? ha]
      · rw [reads_append, hreads, reads_self]
    · obtain ⟨fs, t, hrun', ht, -, hreads', -⟩ := hvacant.read hx
      obtain ⟨g, hg, -, hh⟩ := ht.feed
      refine ⟨es ++ fs, t, g, run_trans hrun hrun', ht.alive, hg, hh, ?_⟩
      rw [reads_append, hreads, hreads']

end Vacant

-- ---------------------------------------------------------------------------
-- Relaying
-- ---------------------------------------------------------------------------

/-- The frames that a feed has handed over: those that the client has, the one that is
being written, those in the queue. -/
def forwarded (s : Session) (i : Nat) : List String :=
  framesOf i s.delivered ++ framesOf i s.writing.toList ++ framesOf i s.queue

/-- What a session that a schedule has led to makes of a feed that is sent some items. -/
structure Relays (s : Session) (es : List Event) (i : Nat) (f : Feed) (sent : List Item) :
    Prop where
  /-- until the session is over, what the items give that were read was forwarded, but for
  a frame that waits for space -/
  forwards : ¬ s.Over → s.forwarded i ++ f.hand.toList = (reads i es).filterMap Item.payload?
  /-- and none waits in a feed that has ended -/
  waits : f.hand ≠ none → f.stage = .relaying
  /-- nothing is read behind an item that ends the feed -/
  stops : ∀ before x after, sent = before ++ x :: after → x.Ends → reads i es <+: before ++ [x]
  /-- the feed fails where the first such item is a failure, -/
  fails : f.stage = .finished .failed ∨ f.stage = .noted .failed ↔
    ∃ before, reads i es = before ++ [.failure] ∧ ∀ y ∈ before, ¬ y.Ends
  /-- and closes where it is a close or the end of the items -/
  closes : f.stage = .finished .clean ∨ f.stage = .noted .clean ↔
    ∃ before x, reads i es = before ++ [x] ∧ (x = .close ∨ x = .finish) ∧ ∀ y ∈ before, ¬ y.Ends
  /-- then the client was given, or will be, all that the items give -/
  agrees : ¬ s.Over → ∀ a, f.stage = .finished a ∨ f.stage = .noted a → a ≠ .crashed →
    relay sent = ⟨s.forwarded i, some a⟩
  /-- as long as the session receives, whatever comes next can be read up to an item that
  ends the feed, and is forwarded -/
  goesOn : s.alive = true → f.stage = .relaying → ∀ row, reads i es <+: row →
    (∀ y ∈ row.dropLast, ¬ y.Ends) → ∃ fs t g, s.run fs = some t ∧ t.alive = true ∧
      t.feeds[i]? = some g ∧ g.hand = none ∧ reads i (es ++ fs) = row ∧
      t.forwarded i = row.filterMap Item.payload?

theorem forwarded_of_run (h : (initial n outboundBuffer grants).run es = some s) (ho : ¬ s.Over)
    (hf : s.feeds[i]? = some f) :
    s.forwarded i ++ f.hand.toList = (reads i es).filterMap Item.payload? := by
  rw [← pathOf_of_run h (fun hl => ho (over_of_lost h hl)) i]
  simp only [pathOf, forwarded, handOf, readOff_of_feed hf]

theorem begins_cut_of_run (h : (initial n outboundBuffer grants).run es = some s)
    (hf : s.feeds[i]? = some f) {before after : List Item}
    (hsent : reads i es <+: before ++ x :: after) (hx : x.Ends) :
    reads i es <+: before ++ [x] := by
  have hlast := (stops_of_run h hf).last
  rw [items_of_run h hf] at hlast
  have hcut : before ++ [x] <+: before ++ x :: after := ⟨after, by simp⟩
  rcases List.prefix_or_prefix_of_prefix hsent hcut with hle | hge
  · exact hle
  · -- were more read, the item that ends the feed would not be the last one
    obtain ⟨rest, hrest⟩ := hge
    rcases eq_or_ne rest [] with rfl | hne
    · exact ⟨[], by simpa using hrest.symm⟩
    · have hmem : x ∈ (reads i es).dropLast := by
        rw [← hrest, List.dropLast_append_of_ne_nil hne]
        simp
      exact absurd hx (hlast x hmem)

theorem goes_on_of_run (h : (initial n outboundBuffer grants).run es = some s)
    (ha : s.alive = true) (hf : s.feeds[i]? = some f) (hr : f.stage = .relaying)
    (hbegins : reads i es <+: row) (hrow : ∀ y ∈ row.dropLast, ¬ y.Ends) :
    ∃ fs t g, s.run fs = some t ∧ t.alive = true ∧ t.feeds[i]? = some g ∧ g.hand = none ∧
      reads i (es ++ fs) = row ∧ t.forwarded i = row.filterMap Item.payload? := by
  obtain ⟨rest, rfl⟩ := hbegins
  have hrest : ∀ y ∈ rest.dropLast, ¬ y.Ends := by
    intro y hy
    refine hrow y ?_
    rw [List.dropLast_append_of_ne_nil (by rintro rfl; cases hy)]
    exact List.mem_append_right _ hy
  obtain ⟨fs, r, hrun, hvacant, -, hnone⟩ := can_vacate ha (capacity_of_run h) hf hr
  obtain ⟨gs, t, g, hrun', halive, hg, hh, hreads⟩ := hvacant.read_row hrest
  have hboth : s.run (fs ++ gs) = some t := run_trans hrun hrun'
  have hall : reads i (es ++ (fs ++ gs)) = reads i es ++ rest := by
    rw [reads_append, reads_append, hnone, hreads, List.nil_append]
  have hline := forwarded_of_run (run_trans h hboth) (not_over_of_alive halive) hg
  rw [hh, hall] at hline
  exact ⟨fs ++ gs, t, g, hboth, halive, hg, hh, hall, by simpa using hline⟩

theorem relays_of_run (h : (initial n outboundBuffer grants).run es = some s)
    (hf : s.feeds[i]? = some f) {sent : List Item} (hsent : reads i es <+: sent) :
    s.Relays es i f sent := by
  have hsound := sound_of_run h hf
  have hended : ∀ a, a ≠ .crashed → (f.stage = .finished a ∨ f.stage = .noted a ↔
      ∃ before x, reads i es = before ++ [x] ∧ (∀ y ∈ before, ¬ y.Ends) ∧ x.fate? = some a) := by
    intro a ha
    rw [← items_of_run h hf]
    exact Feed.ended_iff hsound (stops_of_run h hf) ha
  exact {
    forwards := fun ho => forwarded_of_run h ho hf
    waits := hsound.hand
    stops := fun before x after hs hx => begins_cut_of_run h hf (hs ▸ hsent) hx
    fails := by
      simp only [hended .failed nofun, Item.fate?_eq_failed_iff]
      constructor
      · rintro ⟨before, _, hreads, hbefore, rfl⟩
        exact ⟨before, hreads, hbefore⟩
      · rintro ⟨before, hreads, hbefore⟩
        exact ⟨before, _, hreads, hbefore, rfl⟩
    closes := by
      simp only [hended .clean nofun, Item.fate?_eq_clean_iff]
      exact exists_congr fun before => exists_congr fun x => and_congr_right fun _ => and_comm
    agrees := fun ho a hstage ha => by
      have hhand : f.hand = none := hsound.hand_eq_none (by rcases hstage with h | h <;> simp [h])
      have hline := forwarded_of_run h ho hf
      rw [hhand, Option.toList_none, List.append_nil] at hline
      have hfate := (hsound.ended a hstage).resolve_left ha
      have hframes := hsound.frames
      rw [items_of_run h hf] at hfate hframes
      rw [relay_eq_of_ended hsent hfate, hline, ← hframes, ← hfate]
    goesOn := fun ha hr row hbegins hrow => goes_on_of_run h ha hf hr hbegins hrow }

/--
**A feed is relayed up to its end, whole and in order.** Whatever has happened to a session
of any number of feeds, where `sent` is what the feeds send and the session reads: of each
feed the session has forwarded what the items give that it has read, it reads nothing
behind the first close, failure or end, the feed closes or fails as this item says, and as
long as the session receives it can get there. What an item gives is its text, or the text
whose UTF-8 it holds. Taken as a whole, what a feed gives are the texts in front of that
item, and items that give nothing might as well not be there.
-/
theorem feeds_relayed (n outboundBuffer grants : Nat) (es : List Event) (s : Session)
    (h : (initial n outboundBuffer grants).run es = some s)
    (sent : Nat → List Item) (hsent : ∀ i, reads i es <+: sent i) :
    (∀ i f, s.feeds[i]? = some f → s.Relays es i f (sent i)) ∧
    (∀ (x : Item) p, x.payload? = some p ↔
      x = .text p ∨ ∃ bs, x = .binary bs ∧ p.toUTF8 = bs.toByteArray) ∧
    (∀ before x after, (∀ y ∈ before, ¬ y.Ends) → x.Ends → relay (before ++ x :: after) =
      ⟨before.filterMap Item.payload?, some (if x = .failure then .failed else .clean)⟩) ∧
    ∀ (xs : List Item) x ys, ¬ x.Ends → x.payload? = none →
      relay (xs ++ x :: ys) = relay (xs ++ ys) := by
  refine ⟨fun i f hf => relays_of_run h hf (hsent i), fun x p => Item.payload?_eq_some_iff,
    fun before x after hbefore hx => ?_, fun xs x ys hx hp => relay_passed_over hx hp⟩
  rw [relay_cut hbefore hx, hx.fate?_eq]

-- ---------------------------------------------------------------------------
-- Two feeds and what gives nothing
-- ---------------------------------------------------------------------------

/-- The first feed has items that give nothing between its two texts, and one more text
behind its close. The second breaks off behind a text. -/
def mixedStreams : Nat → List Item
  | 0 => [.text "a", .ping [], .binary [0xff], .frame, .binary [0xc3, 0xa9], .close, .text "b"]
  | 1 => [.pong [], .text "x", .failure]
  | _ => []

/-- The first feed is read to its close while the second waits for space. -/
def mixed : List Event :=
  [.dialed 0 true, .upgraded true, .dialed 1 true, .read 0 (.text "a"), .enqueue 0,
    .read 0 (.ping []), .read 0 (.binary [0xff]), .take, .read 0 .frame,
    .read 0 (.binary [0xc3, 0xa9]), .read 1 (.pong []), .read 1 (.text "x"), .wrote true,
    .enqueue 0, .read 0 .close]

/-- The session then. -/
def closedBehindTwo : Session where
  feeds := [⟨.finished .clean,
      [.text "a", .ping [], .binary [0xff], .frame, .binary [0xc3, 0xa9], .close], none⟩,
    ⟨.relaying, [.pong [], .text "x"], some "x"⟩]
  queue := [(0, "é")]
  capacity := 1
  writing := none
  delivered := [(0, "a")]
  phase := .running
  tally := ⟨1, 1, 2, 0, 1⟩

/-- The first feed gave its two texts, and the second can be read to its failure. -/
theorem mixed_relayed :
    (initial 2 1 1).run mixed = some closedBehindTwo ∧ (∀ i, reads i mixed <+: mixedStreams i) ∧
    relay (mixedStreams 0) = ⟨["a", "é"], some .clean⟩ ∧
    ∃ es t, closedBehindTwo.run es = some t ∧ reads 1 (mixed ++ es) = mixedStreams 1 ∧
      t.forwarded 1 = ["x"] := by
  have hrun : (initial 2 1 1).run mixed = some closedBehindTwo := by decide +kernel
  have hsent : ∀ i, reads i mixed <+: mixedStreams i := by
    rintro (_ | _ | i)
    · decide
    · decide
    · exact List.prefix_rfl
  obtain ⟨hrelays, -⟩ := feeds_relayed 2 1 1 mixed closedBehindTwo hrun mixedStreams hsent
  have hopen : ¬ closedBehindTwo.Over := not_over_of_alive rfl
  have hrow : ∀ y ∈ (mixedStreams 1).dropLast, ¬ y.Ends := by
    intro y hy
    simp only [mixedStreams, List.dropLast_cons_cons, List.dropLast_singleton, List.mem_cons,
      List.not_mem_nil, or_false] at hy
    rcases hy with rfl | rfl <;> simp [Item.Ends]
  obtain ⟨es, t, g, hes, -, -, -, hreads, hforwarded⟩ :=
    (hrelays 1 _ rfl).goesOn rfl rfl (mixedStreams 1) (hsent 1) hrow
  refine ⟨hrun, hsent, ?_, es, t, hes, hreads, hforwarded⟩
  exact (hrelays 0 _ rfl).agrees hopen .clean (.inl rfl) (by decide)

end Session

end WatchGate.Multiwatch
