import WatchGate.Proofs.Session.Stages

/-!
# WatchGate — frames keep the order of their feed

A frame goes from the hand of its feed into the queue, from there to the writer
and so to the client. Other feeds come in between, dials end, feeds close and
fail, and two parts of a session write to the client. None of this moves a frame
past another one of its feed: `pathOf` lines up what the client has of a feed,
what is being written, what waits in the queue and what the feed holds, and each
turn but a write that fails only adds to the end of the line what it reads
(`Turn.pathOf_eq`). A session whose write failed is over, so the line breaks at
most once, and behind that nothing is delivered any more.

Main results:

* `pathOf_of_run` — behind every schedule the line is what was read, unless a
  write has failed.
* `order_kept` — what this means for the client: order, no gap, nothing twice and
  nothing made up.
-/

namespace WatchGate.Multiwatch

/-- The frames of one feed among frames of many. -/
def framesOf (i : Nat) (xs : List (Nat × String)) : List String :=
  xs.filterMap fun x => if x.1 = i then some x.2 else none

/-- The items that a schedule reads from a feed. -/
def reads (i : Nat) (es : List Event) : List Item :=
  es.filterMap fun e =>
    match e with
    | .read j x => if j = i then some x else none
    | _ => none

section Rows

variable {i j : Nat} {xs ys : List (Nat × String)} {x : Nat × String} {p : String}
  {es : List Event} {e : Event}

@[simp] theorem framesOf_nil : framesOf i [] = [] := rfl

@[simp] theorem framesOf_append : framesOf i (xs ++ ys) = framesOf i xs ++ framesOf i ys :=
  List.filterMap_append

theorem framesOf_cons :
    framesOf i (x :: xs) = framesOf i [x] ++ framesOf i xs := by
  rw [← framesOf_append]
  rfl

@[simp] theorem framesOf_self : framesOf i [(i, p)] = [p] := by
  simp [framesOf]

theorem framesOf_ne (h : i ≠ j) : framesOf j [(i, p)] = [] := by
  simp [framesOf, h]

theorem mem_framesOf (h : x ∈ xs) : x.2 ∈ framesOf x.1 xs :=
  List.mem_filterMap.mpr ⟨x, h, if_pos rfl⟩

@[simp] theorem reads_append {es' : List Event} :
    reads i (es ++ es') = reads i es ++ reads i es' :=
  List.filterMap_append

@[simp] theorem reads_self {x : Item} : reads i [.read i x] = [x] := by
  simp [reads]

theorem reads_ne {x : Item} (h : i ≠ j) : reads j [.read i x] = [] := by
  simp [reads, h]

end Rows

/-- What is to be read off the feed at a place, and nothing where there is none. -/
def readOff {α : Type} (φ : Feed → List α) (fs : List Feed) (i : Nat) : List α :=
  match fs[i]? with
  | some f => φ f
  | none => []

section ReadOff

variable {α : Type} {φ : Feed → List α} {fs : List Feed} {i j : Nat} {f g : Feed}

theorem readOff_of_feed (h : fs[i]? = some f) : readOff φ fs i = φ f := by
  simp [readOff, h]

theorem readOff_set_self (h : fs[i]? = some f) : readOff φ (fs.set i g) i = φ g := by
  have hi : i < fs.length := (List.getElem?_eq_some_iff.mp h).1
  simp [readOff, List.getElem?_set_self hi]

theorem readOff_set_ne (h : i ≠ j) : readOff φ (fs.set i g) j = readOff φ fs j := by
  simp [readOff, List.getElem?_set_ne h]

/-- A feed that changes in other ways reads off the same. -/
theorem readOff_set_of_eq (h : fs[i]? = some f) (hφ : φ g = φ f) :
    readOff φ (fs.set i g) j = readOff φ fs j := by
  by_cases hij : i = j
  · subst hij
    rw [readOff_set_self h, readOff_of_feed h, hφ]
  · exact readOff_set_ne hij

end ReadOff

namespace Session

/-- The items that a feed has read. -/
def itemsOf (s : Session) (i : Nat) : List Item := readOff Feed.items s.feeds i

/-- The frame that a feed waits to enqueue. -/
def handOf (s : Session) (i : Nat) : List String := readOff (·.hand.toList) s.feeds i

/-- The frames of a feed from the client back to the feed: those received, the
one being written, those in the queue, the one that waits for space. -/
def pathOf (s : Session) (i : Nat) : List String :=
  framesOf i s.delivered ++ framesOf i s.writing.toList ++ framesOf i s.queue ++ s.handOf i

variable {s t : Session} {e : Event} {es : List Event} {i : Nat} {f g : Feed}
  {n outboundBuffer grants : Nat}

-- ---------------------------------------------------------------------------
-- Items and frames under a turn
-- ---------------------------------------------------------------------------

@[simp] theorem items_take (f : Feed) (x : Item) : (f.take x).items = f.items ++ [x] := by
  unfold Feed.take
  split <;> rfl

/-- What a feed holds behind an item that it read with an empty hand. -/
theorem hand_take (hh : f.hand = none) (x : Item) : (f.take x).hand = x.payload? := by
  unfold Feed.take
  cases hx : x.fate? with
  | some a => simp [hh, Item.payload?_of_fate? hx]
  | none => rfl

theorem pathOf_congr (hd : t.delivered = s.delivered) (hw : t.writing = s.writing)
    (hq : t.queue = s.queue) (hh : t.handOf i = s.handOf i) : t.pathOf i = s.pathOf i := by
  unfold pathOf
  rw [hd, hw, hq, hh]

/-- A turn adds to the items of a feed what it reads from the feed. -/
theorem Turn.itemsOf_eq (h : Turn s e t) (i : Nat) : t.itemsOf i = s.itemsOf i ++ reads i [e] := by
  cases h with
  | @read k f x ha hf hr hh =>
    by_cases hk : k = i
    · subst hk
      simp [itemsOf, readOff_set_self hf, readOff_of_feed hf]
    · simp [itemsOf, readOff_set_ne hk, reads_ne hk]
  | opened _ hf | refused _ hf | rejected _ hf | joined _ _ hf | missed _ _ hf
  | missedLast _ _ hf | upgraded _ hf | crash _ hf | enqueue _ hf | noted _ _ hf
  | notedLast _ _ hf | failed _ _ hf =>
    refine Eq.trans ?_ (List.append_nil _).symm
    exact readOff_set_of_eq hf rfl
  | notUpgraded | take | wrote | lost | cut | heard | left | drained =>
    exact (List.append_nil _).symm

/-- A turn adds to the end of a feed's line what it reads from the feed, unless it
is a write that fails. -/
theorem Turn.pathOf_eq (h : Turn s e t) (he : e ≠ .wrote false) (i : Nat) :
    t.pathOf i = s.pathOf i ++ (reads i [e]).filterMap Item.payload? := by
  cases h with
  | @read k f x ha hf hr hh =>
    by_cases hk : k = i
    · subst hk
      have hold : readOff (·.hand.toList) s.feeds k = [] := by rw [readOff_of_feed hf, hh]; rfl
      have hnew : readOff (·.hand.toList) (s.feeds.set k (f.take x)) k = x.payload?.toList := by
        rw [readOff_set_self hf, hand_take hh]
      have hone : [x].filterMap Item.payload? = x.payload?.toList := by
        cases hx : x.payload? <;> simp [hx]
      simp only [pathOf, hold, handOf, hnew, reads_self, hone, List.append_nil]
    · simp [pathOf, handOf, readOff_set_ne hk, reads_ne hk]
  | @enqueue k f p ha hf hh hq =>
    -- the frame goes from the hand to the end of the queue
    have hnone : reads i [.enqueue k] = [] := rfl
    by_cases hk : k = i
    · subst hk
      have hold : readOff (·.hand.toList) s.feeds k = [p] := by rw [readOff_of_feed hf, hh]; rfl
      have hnew : readOff (·.hand.toList) (s.feeds.set k { f with hand := none }) k = [] := by
        rw [readOff_set_self hf]
        rfl
      simp [pathOf, hold, handOf, hnew, hnone]
    · simp [pathOf, handOf, readOff_set_ne hk, framesOf_ne hk, hnone]
  | @take x rest ha hw hq =>
    have hnone : reads i [.take] = [] := rfl
    have hcons : framesOf i (x :: rest) = framesOf i [x] ++ framesOf i rest := framesOf_cons
    simp [pathOf, hw, hq, handOf, hnone, hcons]
  | @wrote x hw =>
    have hnone : reads i [.wrote true] = [] := rfl
    simp [pathOf, hw, handOf, hnone]
  | opened _ hf | refused _ hf | rejected _ hf | joined _ _ hf | missed _ _ hf
  | missedLast _ _ hf | upgraded _ hf | crash _ hf | noted _ _ hf
  | notedLast _ _ hf | failed _ _ hf =>
    refine Eq.trans ?_ (List.append_nil _).symm
    exact pathOf_congr rfl rfl rfl (readOff_set_of_eq hf rfl)
  | notUpgraded | heard | left | drained =>
    exact (List.append_nil _).symm
  | lost | cut => exact absurd rfl he

-- ---------------------------------------------------------------------------
-- Items and frames behind a schedule
-- ---------------------------------------------------------------------------

theorem readOff_initial {α : Type} {φ : Feed → List α} (h : φ .dialed = []) :
    readOff φ (initial n outboundBuffer grants).feeds i = [] := by
  cases hf : (initial n outboundBuffer grants).feeds[i]? with
  | none => simp [readOff, hf]
  | some f => rw [readOff_of_feed hf, feed_initial hf, h]

theorem itemsOf_of_run (h : (initial n outboundBuffer grants).run es = some s) (i : Nat) :
    s.itemsOf i = reads i es := by
  refine run_induction (P := fun es s => s.itemsOf i = reads i es) (readOff_initial rfl) ?_ h
  intro es s e t hrun ih ht
  rw [ht.itemsOf_eq, ih, reads_append]

theorem over_of_lost (h : (initial n outboundBuffer grants).run es = some s)
    (hl : .wrote false ∈ es) : s.Over := by
  refine run_induction (P := fun es s => .wrote false ∈ es → s.Over) nofun ?_ h hl
  intro es s e t hrun ih ht hl
  rcases List.mem_append.mp hl with hl | hl
  · exact absurd (ih hl) ((coherent_of_run hrun).not_over ht)
  · rw [← List.mem_singleton.mp hl] at ht
    cases ht <;> exact ⟨_, rfl⟩

/-- Unless a write has failed, the line of a feed is what was read from it. -/
theorem pathOf_of_run (h : (initial n outboundBuffer grants).run es = some s)
    (hl : .wrote false ∉ es) (i : Nat) : s.pathOf i = (reads i es).filterMap Item.payload? := by
  refine run_induction
    (P := fun es s => .wrote false ∉ es → s.pathOf i = (reads i es).filterMap Item.payload?)
    ?_ ?_ h hl
  · intro _
    have hhand : (initial n outboundBuffer grants).handOf i = [] := readOff_initial rfl
    exact hhand
  · intro es s e t hrun ih ht hl
    rw [List.mem_append, List.mem_singleton, not_or] at hl
    rw [ht.pathOf_eq (Ne.symm hl.2), ih hl.1, reads_append, List.filterMap_append]

/-- What the client has of a feed is where the feed's frames begin, also when a
write has failed. -/
theorem delivered_begins_reads (h : (initial n outboundBuffer grants).run es = some s) (i : Nat) :
    framesOf i s.delivered <+: (reads i es).filterMap Item.payload? := by
  refine run_induction
    (P := fun es s => framesOf i s.delivered <+: (reads i es).filterMap Item.payload?)
    List.prefix_rfl ?_ h
  intro es s e t hrun ih ht
  by_cases he : e = .wrote false
  · -- the frame is lost, and the client has what it had
    subst he
    have hsame : t.delivered = s.delivered := by cases ht <;> rfl
    rwa [hsame, reads_append, show reads i [.wrote false] = [] from rfl, List.append_nil]
  · have hl : .wrote false ∉ es ++ [e] := by
      rw [List.mem_append, List.mem_singleton, not_or]
      exact ⟨fun hl => (coherent_of_run hrun).not_over ht (over_of_lost hrun hl), Ne.symm he⟩
    rw [← pathOf_of_run (run_concat_iff.mpr ⟨s, hrun, ht⟩) hl]
    simp only [pathOf, List.append_assoc]
    exact List.prefix_append _ _

theorem dialed_of_read (h : (initial n outboundBuffer grants).run es = some s)
    (hr : reads i es ≠ []) : .dialed i true ∈ es := by
  rw [← itemsOf_of_run h] at hr
  unfold itemsOf readOff at hr
  split at hr
  · next f hf =>
    rw [dialed_iff_of_run h]
    refine ⟨f, hf, ?_⟩
    by_contra hd
    have hunread := (sound_of_run h hf).unread
    unfold Feed.wasDialed at hd
    split at hd
    · next hs => exact hr (hunread (.inl hs))
    · next hs => exact hr (hunread (.inr (.inl hs)))
    all_goals exact hd rfl
  · exact absurd rfl hr

/-- The frames that were read from a feed are where what the feed gives begins. -/
theorem reads_begins_relay (h : (initial n outboundBuffer grants).run es = some s)
    {xs : List Item} (hx : reads i es <+: xs) :
    (reads i es).filterMap Item.payload? <+: (relay xs).frames := by
  have hread := itemsOf_of_run h i
  unfold itemsOf readOff at hread
  split at hread
  · next f hf =>
    rw [← hread] at hx ⊢
    rw [← (sound_of_run h hf).frames]
    exact frames_mono hx
  · rw [← hread]
    exact List.nil_prefix

-- ---------------------------------------------------------------------------
-- Order
-- ---------------------------------------------------------------------------

/--
**Order, no gap, nothing twice, nothing made up.** Whatever has happened to a
session of any number of feeds, where `sent` is what the feeds send and the
session reads: until the session is over, the frames that the client has of a
feed, with the one that is being written, those in the queue, and the one that
the feed holds are one behind the other the frames of the items read so far. At
any time, and behind the end, what the client has of a feed is a beginning of
what the feed gives, and each frame that the client has was read from a feed
whose dial succeeded.
-/
theorem order_kept (n outboundBuffer grants : Nat) (es : List Event) (s : Session)
    (h : (initial n outboundBuffer grants).run es = some s)
    (sent : Nat → List Item) (hsent : ∀ i, reads i es <+: sent i) :
    ((∀ why, s.phase ≠ .closed why) → ∀ i f, s.feeds[i]? = some f →
      framesOf i s.delivered ++ framesOf i s.writing.toList ++ framesOf i s.queue
        ++ f.hand.toList = (reads i es).filterMap Item.payload?) ∧
    (∀ i, framesOf i s.delivered <+: (relay (sent i)).frames) ∧
    ∀ x ∈ s.delivered, .dialed x.1 true ∈ es ∧ ∃ y ∈ reads x.1 es, y.payload? = some x.2 := by
  refine ⟨fun ho i f hf => ?_, fun i => ?_, fun x hx => ?_⟩
  · have hl : .wrote false ∉ es := by
      intro hl
      obtain ⟨why, hw⟩ := over_of_lost h hl
      exact ho why hw
    rw [← pathOf_of_run h hl i]
    simp only [pathOf, handOf, readOff_of_feed hf]
  · exact (delivered_begins_reads h i).trans (reads_begins_relay h (hsent i))
  · have hread : x.2 ∈ (reads x.1 es).filterMap Item.payload? :=
      (delivered_begins_reads h x.1).subset (mem_framesOf hx)
    obtain ⟨y, hy, hpay⟩ := List.mem_filterMap.mp hread
    exact ⟨dialed_of_read h (List.ne_nil_of_mem hy), y, hy, hpay⟩

-- ---------------------------------------------------------------------------
-- Two feeds and a queue of one frame
-- ---------------------------------------------------------------------------

/-- The first feed breaks off behind two texts; the second sends a frame, bytes
that are no text, and closes. -/
def twoStreams : Nat → List Item
  | 0 => [.text "a", .ping [], .text "b", .failure]
  | 1 => [.binary [0x78], .binary [0xff], .close]
  | _ => []

/-- The second feed joins late and holds its frame while the queue is full. The
failure of the first is noted with a frame of each on its way. -/
def lateJoin : List Event :=
  [.dialed 0 true, .upgraded true, .read 0 (.text "a"), .enqueue 0, .read 0 (.ping []),
    .read 0 (.text "b"), .take, .wrote true, .dialed 1 true, .enqueue 0,
    .read 1 (.binary [0x78]), .read 0 .failure, .note 0, .take, .enqueue 1]

/-- The session then. -/
def lateJoined : Session where
  feeds := [⟨.noted .failed, [.text "a", .ping [], .text "b", .failure], none⟩,
    ⟨.relaying, [.binary [0x78]], none⟩]
  queue := [(1, "x")]
  capacity := 1
  writing := some (0, "b")
  delivered := [(0, "a")]
  phase := .flushing (.feedFailed 0)
  tally := ⟨1, 1, 2, 0, 1⟩

/-- The first feed's two frames and the second one's lie in their order between
feed and client. -/
theorem lateJoin_order :
    (initial 2 1 1).run lateJoin = some lateJoined ∧ (∀ i, reads i lateJoin <+: twoStreams i) ∧
    (∀ i f, lateJoined.feeds[i]? = some f →
      framesOf i lateJoined.delivered ++ framesOf i lateJoined.writing.toList
        ++ framesOf i lateJoined.queue ++ f.hand.toList
        = (reads i lateJoin).filterMap Item.payload?) ∧
    ∀ i, framesOf i lateJoined.delivered <+: (relay (twoStreams i)).frames := by
  have hrun : (initial 2 1 1).run lateJoin = some lateJoined := by decide +kernel
  have hsent : ∀ i, reads i lateJoin <+: twoStreams i := by
    intro i
    match i with
    | 0 => decide
    | 1 => decide
    | _ + 2 => exact List.prefix_rfl
  obtain ⟨hline, hprefix, -⟩ := order_kept 2 1 1 lateJoin lateJoined hrun twoStreams hsent
  exact ⟨hrun, hsent, hline nofun, hprefix⟩

end Session

end WatchGate.Multiwatch
