import WatchGate.Proofs.Session.Counts
import WatchGate.Proofs.Session.Reading

/-!
# WatchGate — what a session delivers at its end

A session that has taken note of a failure writes what its queue holds and is over.
The feeds that are left relay meanwhile, so what the client receives of a feed are the
frames on its line and behind them those that are read while others are written, in
their order and up to some point.

Where nothing more is read, no more frames are delivered than were on their way
(`underway_of_run`). Where a feed is left to read from there is no bound: whatever
texts it sends, the session may deliver all of them before it finds its queue empty
(`Vacant.read_all`).

Main results:

* `flushes_of_run` — what is delivered, in which order, and that it may be over at any time.
* `lateText_delivered` — a text that is read only after the failure and reaches the client.
-/

namespace WatchGate.Multiwatch.Session

variable {s t : Session} {e : Event} {es : List Event} {i : Nat} {f : Feed} {why : Ending}
  {n outboundBuffer grants : Nat}

/-- How many frames are on their way from the feeds to the client. -/
def underway (s : Session) : Nat :=
  s.writing.toList.length + s.queue.length + s.feeds.countP (·.hand.isSome)

/-- What may come of a session that writes what its queue holds. -/
structure Flushes (s : Session) (why : Ending) : Prop where
  /-- it does so until it is over, for the same reason -/
  stays : ∀ es t, s.run es = some t → t.phase = .flushing why ∨ t.phase = .closed why
  /-- it delivers the frames of a feed in their order, also those that it reads meanwhile -/
  order : ∀ es t, s.run es = some t → ∀ i,
    framesOf i t.delivered <+: s.pathOf i ++ (reads i es).filterMap Item.payload?
  /-- without these, it delivers what is on its way at most -/
  bounded : ∀ es t, s.run es = some t → (∀ i x, .read i x ∉ es) →
    t.delivered.length ≤ s.delivered.length + s.underway
  /-- with them, any texts of any feed that is left -/
  unbounded : ∀ i f, s.feeds[i]? = some f → f.stage = .relaying → ∀ ps : List String,
    ∃ es t, s.run es = some t ∧ t.phase = .flushing why ∧ reads i es = ps.map .text ∧
      ps.map (Prod.mk i) <:+ t.delivered
  /-- and it may be over at any time -/
  ends : ∃ es t, (∀ i x, .read i x ∉ es) ∧ s.run es = some t ∧ t.phase = .closed why

-- ---------------------------------------------------------------------------
-- What is on its way
-- ---------------------------------------------------------------------------

theorem countP_hand_set {g : Feed} (hf : s.feeds[i]? = some f) (hg : g.hand = f.hand) :
    (s.feeds.set i g).countP (·.hand.isSome) = s.feeds.countP (·.hand.isSome) := by
  have hcount := countP_set_add (p := fun f : Feed => f.hand.isSome) hf g
  rw [hg] at hcount
  exact Nat.add_right_cancel hcount

/-- A frame that is delivered was on its way, and nothing but an item that is read joins it. -/
theorem Turn.underway_le (h : Turn s e t) (he : ∀ i x, e ≠ .read i x) :
    t.delivered.length + t.underway ≤ s.delivered.length + s.underway := by
  unfold underway
  cases h with
  | read => exact absurd rfl (he _ _)
  | opened _ hf | refused _ hf | rejected _ hf | joined _ _ hf | missed _ _ hf
  | missedLast _ _ hf | upgraded _ hf | crash _ hf | noted _ _ hf | notedLast _ _ hf
  | failed _ _ hf =>
    refine Nat.add_le_add_left (Nat.add_le_add_left (Nat.le_of_eq ?_) _) _
    exact countP_hand_set hf rfl
  | @enqueue i f p ha hf hh hq =>
    -- from the hand into the queue
    have hcount := countP_set_add (p := fun f : Feed => f.hand.isSome) hf { f with hand := none }
    rw [hh] at hcount
    simp only [Option.isSome_some, Option.isSome_none, if_true, Bool.false_eq_true, if_false]
      at hcount
    simp only [List.length_append, List.length_singleton]
    omega
  | take ha hw hq =>
    simp only [hw, hq, Option.toList, List.length_nil, List.length_cons]
    omega
  | wrote hw =>
    simp only [hw, Option.toList, List.length_append, List.length_nil, List.length_cons]
    omega
  | lost hw | cut hw =>
    simp only [hw, Option.toList, List.length_nil, List.length_cons]
    omega
  | notUpgraded | heard | left | drained => exact Nat.le_refl _

theorem underway_of_run (h : s.run es = some t) (hes : ∀ i x, .read i x ∉ es) :
    t.delivered.length + t.underway ≤ s.delivered.length + s.underway := by
  refine run_induction (P := fun es t => (∀ i x, .read i x ∉ es) →
    t.delivered.length + t.underway ≤ s.delivered.length + s.underway) ?_ ?_ h hes
  · exact fun _ => Nat.le_refl _
  · intro es r e t hrun ih ht hes
    simp only [List.mem_append, List.mem_singleton, not_or] at hes
    have hturn := ht.underway_le fun i x he => (hes i x).2 he.symm
    exact Nat.le_trans hturn (ih fun i x => (hes i x).1)

-- ---------------------------------------------------------------------------
-- Until the end
-- ---------------------------------------------------------------------------

theorem Coherent.flushing_of_run (hc : Coherent s) (hp : s.phase = .flushing why)
    (h : s.run es = some t) : t.phase = .flushing why ∨ t.phase = .closed why := by
  refine run_induction (P := fun _ t => t.phase = .flushing why ∨ t.phase = .closed why)
    (.inl hp) ?_ h
  intro es r e t hrun hr ht
  have hopen : r.phase ≠ .closed why := fun hw => (hc.run hrun).not_over ht ⟨why, hw⟩
  exact ht.flushing (hr.resolve_right hopen)

/-- What the client has of a feed is where the feed's line begins with what is read behind it. -/
theorem delivered_begins_pathOf (hs : (initial n outboundBuffer grants).run es = some s)
    (ho : ¬ s.Over) {fs : List Event} (h : s.run fs = some t) (i : Nat) :
    framesOf i t.delivered <+: s.pathOf i ++ (reads i fs).filterMap Item.payload? := by
  have hl : .wrote false ∉ es := fun hl => ho (over_of_lost hs hl)
  have hrun : (initial n outboundBuffer grants).run (es ++ fs) = some t := run_trans hs h
  rw [pathOf_of_run hs hl, ← List.filterMap_append, ← reads_append]
  exact delivered_begins_reads hrun i

-- ---------------------------------------------------------------------------
-- Flushing
-- ---------------------------------------------------------------------------

/--
**What a session delivers at its end.** Whatever has happened to a session of any number
of feeds: once it writes what its queue holds it does so until it is over, for the reason
for which it began. The frames it delivers meanwhile are those on their way and those
that it still reads, of each feed in their order; the latter can be any number.
-/
theorem flushes_of_run (n outboundBuffer grants : Nat) (es : List Event) (s : Session)
    (why : Ending) (h : (initial n outboundBuffer grants).run es = some s)
    (hp : s.phase = .flushing why) : s.Flushes why where
  stays fs t ht := (coherent_of_run h).flushing_of_run hp ht
  order fs t ht := by
    have hopen : ¬ s.Over := not_over_of_alive (alive_iff.mpr (.inr ⟨why, hp⟩))
    exact delivered_begins_pathOf h hopen ht
  bounded fs t ht hfs := Nat.le_trans (Nat.le_add_right _ _) (underway_of_run ht hfs)
  unbounded i f hf hr ps := by
    have halive : s.alive = true := alive_iff.mpr (.inr ⟨why, hp⟩)
    have hopen : ∀ y ∈ ps.map Item.text, ¬ y.Ends := by simp [Item.Ends]
    have hgiven : (ps.map Item.text).filterMap Item.payload? = ps := by
      simp [List.filterMap_map, Function.comp_def, Item.payload?]
    obtain ⟨fs, r, hrun, hvacant, hphase, hnone⟩ := can_vacate halive (capacity_of_run h) hf hr
    obtain ⟨gs, t, hrun', -, hphase', hreads, hdelivered⟩ := hvacant.read_all hopen
    refine ⟨fs ++ gs, t, run_trans hrun hrun', (hphase'.trans hphase).trans hp, ?_, ?_⟩
    · rw [reads_append, hnone, hreads]
      rfl
    · rw [hdelivered, hgiven]
      exact List.suffix_append _ _
  ends := by
    obtain ⟨fs, t, hfs, hrun, hclosed⟩ := can_drain hp
    refine ⟨fs, t, fun i x hread => ?_, hrun, hclosed⟩
    rcases hfs _ hread with hread | hread | hread <;> cases hread

/-- Of two feeds the first fails, and is noted, before anything is read of the other. -/
def firstFails : List Event :=
  [.dialed 0 true, .upgraded true, .dialed 1 true, .read 0 .failure, .note 0]

/-- What may come of it: nothing is on its way, and yet any texts of the second feed. -/
theorem firstFails_flushes :
    ∃ s, (initial 2 1 1).run firstFails = some s ∧ s.phase = .flushing (.feedFailed 0) ∧
      s.underway = 0 ∧ s.Flushes (.feedFailed 0) ∧
      ∃ es t, s.run es = some t ∧ t.phase = .flushing (.feedFailed 0) ∧
        ["late", "later"].map (Prod.mk 1) <:+ t.delivered := by
  have hstate : ((initial 2 1 1).run firstFails).map
      (fun s => (s.phase, s.underway, s.feeds[1]?.map (·.stage))) =
        some (.flushing (.feedFailed 0), 0, some .relaying) := by decide +kernel
  obtain ⟨s, hrun, hs⟩ := Option.map_eq_some_iff.mp hstate
  simp only [Prod.mk.injEq] at hs
  obtain ⟨hphase, hunderway, hstage⟩ := hs
  obtain ⟨f, hf, hrelaying⟩ := Option.map_eq_some_iff.mp hstage
  have hflushes := flushes_of_run 2 1 1 firstFails s (.feedFailed 0) hrun hphase
  obtain ⟨es, t, hes, ht, -, hdelivered⟩ := hflushes.unbounded 1 f hf hrelaying ["late", "later"]
  exact ⟨s, hrun, hphase, hunderway, hflushes, es, t, hes, ht, hdelivered⟩

/-- Behind the failure no frame is left that was read, in the queue, with a feed or on its way
to the client, and one that is read after it is delivered before the session is over. -/
theorem lateText_delivered :
    ∃ s t, (initial 2 1 1).run firstFails = some s ∧ s.phase = .flushing (.feedFailed 0) ∧
      s.queue = [] ∧ s.writing = none ∧ (∀ f ∈ s.feeds, f.hand = none) ∧ s.delivered = [] ∧
      s.run [.read 1 (.text "late"), .enqueue 1, .take, .wrote true, .drained] = some t ∧
      t.delivered = [(1, "late")] ∧ t.phase = .closed (.feedFailed 0) := by
  have hstate : ((initial 2 1 1).run firstFails).map (fun s => (s.phase, s.queue, s.writing)) =
      some (.flushing (.feedFailed 0), [], none) := by decide +kernel
  have hfeeds : ((initial 2 1 1).run firstFails).map
      (fun s => (s.feeds.map (·.hand), s.delivered)) = some ([none, none], []) := by
    decide +kernel
  have hlate : ((initial 2 1 1).run firstFails).map (fun s =>
      (s.run [.read 1 (.text "late"), .enqueue 1, .take, .wrote true, .drained]).map
        fun t => (t.delivered, t.phase)) =
      some (some ([(1, "late")], .closed (.feedFailed 0))) := by decide +kernel
  obtain ⟨s, hrun, hs⟩ := Option.map_eq_some_iff.mp hstate
  simp only [hrun, Option.map_some, Option.some.injEq, Prod.mk.injEq] at hs hfeeds hlate
  obtain ⟨hphase, hqueue, hwriting⟩ := hs
  obtain ⟨t, hrun', ht⟩ := Option.map_eq_some_iff.mp hlate
  obtain ⟨hdelivered, hclosed⟩ := Prod.mk.inj ht
  refine ⟨s, t, hrun, hphase, hqueue, hwriting, fun f hf => ?_, hfeeds.2, hrun', hdelivered,
    hclosed⟩
  have hhand : f.hand ∈ s.feeds.map (·.hand) := List.mem_map_of_mem hf
  rw [hfeeds.1] at hhand
  simpa using hhand

end WatchGate.Multiwatch.Session
