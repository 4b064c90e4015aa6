import Mathlib.Algebra.BigOperators.Group.Finset.Piecewise
import WatchGate.Ensemble
import WatchGate.Proofs.Gateway
import WatchGate.Proofs.Session.Counts

/-!
# WatchGate — what all watches count together

The tally that watches share is never set: each step adds to it, and which watch it
was that added can be told from the schedule. `counted` is what a watch has added, by
the risings of the tally at its own steps, and a watch is a session that has `Counted`
this, whatever the others do meanwhile. What the tally shows is the sum of it
(`Accounted.whole`), and its gauge the number of the sessions whose feeds relay.

Main result: `counters_kept`.
-/

namespace WatchGate

open Http Multiwatch

/-- A watch has a dial for each connection of its plan, and has added what became of them,
of its session and of its frames. -/
def Watch.Counted (w : Watch) (c : Tally) : Prop :=
  ∃ plan, w.gateway.planOf w.request = some plan ∧ w.session.Counted plan.connections c

/-- What a watch with a plan has added to the counters accounts for all that it does. -/
structure Watch.Balanced (w : Watch) (plan : WatchPlan) (c : Tally) : Prop where
  planned : w.gateway.planOf w.request = some plan
  /-- each connection has one dial, counted when it ends -/
  dials : c.dialed + c.refused + w.session.dialing = plan.connections
  /-- a client is turned away behind a failure for each connection -/
  rejected : w.session.phase = .rejected →
    c.refused = plan.connections ∧ c.dialed = 0 ∧ c.sessions = 0
  once : c.sessions ≤ 1
  /-- feeds relay for a client from when the session is counted until it is over -/
  alive : w.session.alive = true ↔ c.sessions = 1 ∧ ¬ w.session.Over
  frames : c.frames = w.session.delivered.length

namespace Ensemble

/-- The place of the watch that an event is of. -/
def Event.place? : Event → Option Nat
  | .arrive .. => none
  | .session k _ | .abandon k => some k

/-- Whether a session opens with an event. -/
def Event.opens : Event → Bool
  | .session _ (.upgraded true) => true
  | _ => false

/-- Whether a frame was written to a client with an event. -/
def Event.writes : Event → Bool
  | .session _ (.wrote true) => true
  | _ => false

/-- By how much a step of a watch has the counters risen; other steps are not the watch's. -/
def risen (k : Nat) (s : Ensemble) (e : Event) (t : Ensemble) : Tally :=
  if e.place? = some k then s.tally.rise t.tally else .zero

/-- By how much the counters rise with the steps of a watch along a schedule. -/
def counted (k : Nat) (s : Ensemble) : List Event → Tally
  | [] => .zero
  | e :: es =>
    match s.step e with
    | none => .zero
    | some t => (risen k s e t).both (counted k t es)

-- ---------------------------------------------------------------------------
-- Steps
-- ---------------------------------------------------------------------------

/-- What may come of an event, and the state that it leads to. -/
inductive Advance (s : Ensemble) : Event → Ensemble → Prop
  /-- a request is answered at once -/
  | replied {g outboundBuffer r x} (h : (g.handle r).next = .reply x) :
      Advance s (.arrive g outboundBuffer r) s
  | joined {g outboundBuffer r l} (h : (g.handle r).next = .launch l) :
      Advance s (.arrive g outboundBuffer r)
        { s with watches := s.watches ++ [⟨g, r, l.session outboundBuffer⟩] }
  | turned {k w e t} (hw : s.watches[k]? = some w)
      (ht : Session.Turn { w.session with tally := s.tally } e t) :
      Advance s (.session k e) ⟨s.watches.set k { w with session := t }, t.tally⟩
  | abandoned {k w} (hw : s.watches[k]? = some w) (hp : w.session.phase = .opening) :
      Advance s (.abandon k) { s with watches := s.watches.set k w.abandoned }

variable {start s t : Ensemble} {e : Event} {es : List Event} {k : Nat} {w : Watch}

theorem advance_of_step (h : s.step e = some t) : Advance s e t := by
  cases e with
  | arrive g outboundBuffer r =>
    cases hnext : (g.handle r).next with
    | reply x =>
      simp only [step, hnext, Option.some.injEq] at h
      subst h
      exact .replied hnext
    | launch l =>
      simp only [step, hnext, Option.some.injEq] at h
      subst h
      exact .joined hnext
  | session k e =>
    simp only [step, Option.bind_eq_some_iff, Option.map_eq_some_iff] at h
    obtain ⟨w, hw, u, hu, rfl⟩ := h
    exact .turned hw (Session.turn_of_step hu)
  | abandon k =>
    simp only [step, Option.bind_eq_some_iff] at h
    obtain ⟨w, hw, h⟩ := h
    split at h
    · next hp =>
      cases h
      exact .abandoned hw hp
    · cases h

theorem run_concat_iff : start.run (es ++ [e]) = some t ↔
    ∃ s, start.run es = some s ∧ s.step e = some t := by
  induction es generalizing start with
  | nil =>
    simp only [List.nil_append, run, Option.some.injEq, exists_eq_left']
    cases start.step e <;> simp
  | cons a as ih =>
    simp only [List.cons_append, run]
    cases start.step a with
    | none => simp
    | some next => exact ih

theorem run_induction {P : List Event → Ensemble → Prop} (h0 : P [] start)
    (hm : ∀ es s e t, start.run es = some s → P es s → s.step e = some t → P (es ++ [e]) t)
    (h : start.run es = some s) : P es s := by
  induction es using List.reverseRecOn generalizing s with
  | nil =>
    simp only [run, Option.some.injEq] at h
    exact h ▸ h0
  | append_singleton es e ih =>
    obtain ⟨r, hr, he⟩ := run_concat_iff.mp h
    exact hm es r e s hr (ih hr) he

theorem counted_concat (h : start.run es = some s) (he : s.step e = some t) (k : Nat) :
    counted k start (es ++ [e]) = (counted k start es).both (risen k s e t) := by
  induction es generalizing start with
  | nil =>
    simp only [run, Option.some.injEq] at h
    subst h
    simp [counted, he]
  | cons a as ih =>
    simp only [run, Option.bind_eq_some_iff] at h
    obtain ⟨next, ha, has⟩ := h
    simp only [List.cons_append, counted, ha, ih has, Tally.both_assoc]

-- ---------------------------------------------------------------------------
-- What a step counts, and for whom
-- ---------------------------------------------------------------------------

/-- With a turn its own watch adds what its event adds, and no other adds anything. -/
theorem risen_turned {e : Multiwatch.Event} {u : Session}
    (ht : Session.Turn { w.session with tally := s.tally } e u) {ws : List Watch} (j : Nat) :
    risen j s (.session k e) ⟨ws, u.tally⟩ = if k = j then e.adds else .zero := by
  have hrise : s.tally.rise u.tally = e.adds := ht.rise_eq
  simp [risen, Event.place?, hrise]

theorem adds_sessions (k : Nat) (e : Multiwatch.Event) :
    e.adds.sessions = if Event.opens (.session k e) then 1 else 0 := by
  cases e with
  | dialed _ ok | upgraded ok | wrote ok => cases ok <;> rfl
  | _ => rfl

theorem adds_frames (k : Nat) (e : Multiwatch.Event) :
    e.adds.frames = if Event.writes (.session k e) then 1 else 0 := by
  cases e with
  | dialed _ ok | upgraded ok | wrote ok => cases ok <;> rfl
  | _ => rfl

theorem countP_concat_of_not {p : Event → Bool} (h : p e = false) :
    (es ++ [e]).countP p = es.countP p := by
  simp [List.countP_append, h]

theorem risen_of_same (h : t.tally = s.tally) (j : Nat) : risen j s e t = .zero := by
  unfold risen
  rw [h]
  split
  · exact Tally.rise_self _
  · rfl

-- ---------------------------------------------------------------------------
-- Plans
-- ---------------------------------------------------------------------------

/-- A watch that is begun has a plan, and a feed for each of its connections. -/
theorem plan_of_launch {g : Gateway} {r : Request} {l : Launch}
    (h : (g.handle r).next = .launch l) :
    ∃ plan, g.planOf r = some plan ∧ l.targets.length = plan.connections := by
  unfold Gateway.handle at h
  split at h
  · cases h
  · cases hcaller : g.credentials.identify r.headers with
    | none =>
      simp only [hcaller] at h
      cases h
    | some caller =>
      simp only [hcaller] at h
      split at h
      · simp only [Gateway.permissions] at h
        split at h <;> cases h
      · unfold Gateway.multiwatch at h
        split at h
        · next calls launch hprepare =>
          cases h
          obtain ⟨key, b, plan, targets, -, -, hplan, -, hresolve, rfl⟩ := prepare_eq_ok hprepare
          refine ⟨plan, ?_, ?_⟩
          · simp [Gateway.planOf, Gateway.callerOf, hcaller, hplan, Except.toOption]
          · rw [← length_places]
            exact length_of_resolve hresolve
        · cases h

-- ---------------------------------------------------------------------------
-- The account
-- ---------------------------------------------------------------------------

/-- What the tally shows behind a schedule, and which watch it is from. -/
structure Accounted (es : List Event) (s : Ensemble) : Prop where
  watches : ∀ (k : Nat) (w : Watch), s.watches[k]? = some w → w.Counted (counted k .empty es)
  /-- nothing is added in the name of a watch that was not begun -/
  fresh : ∀ k, s.watches.length ≤ k → counted k .empty es = .zero
  /-- what the tally shows is what all of them have added -/
  whole : ∀ c ∈ Tally.rising,
    c s.tally = ∑ k ∈ Finset.range s.watches.length, c (counted k .empty es)
  /-- and as open it shows the sessions whose feeds relay -/
  active : s.tally.active = s.watches.countP (·.session.alive)
  sessions : s.tally.sessions = es.countP Event.opens
  frames : s.tally.frames = es.countP Event.writes

namespace Accounted

theorem initial : Accounted [] .empty where
  watches k w h := by simp [empty] at h
  fresh k _ := rfl
  whole c hc := Tally.rising_zero hc
  active := rfl
  sessions := rfl
  frames := rfl

theorem watches_set (h : Accounted es s) {v : Watch} (hw : s.watches[k]? = some w)
    (hother : ∀ j, j ≠ k → counted j .empty (es ++ [e]) = counted j .empty es)
    (hown : w.Counted (counted k .empty es) → v.Counted (counted k .empty (es ++ [e]))) :
    ∀ (j : Nat) (u : Watch), (s.watches.set k v)[j]? = some u →
      u.Counted (counted j .empty (es ++ [e])) := by
  intro j u hu
  by_cases hj : j = k
  · subst hj
    rw [List.getElem?_set_self (List.getElem?_eq_some_iff.mp hw).1, Option.some.injEq] at hu
    subst hu
    exact hown (h.watches j w hw)
  · rw [List.getElem?_set_ne (Ne.symm hj)] at hu
    rw [hother j hj]
    exact h.watches j u hu

theorem replied (h : Accounted es s) {g : Gateway} {outboundBuffer : Nat} {r : Request}
    (hc : ∀ j, counted j .empty (es ++ [.arrive g outboundBuffer r]) = counted j .empty es) :
    Accounted (es ++ [.arrive g outboundBuffer r]) s where
  watches k w hw := by
    rw [hc]
    exact h.watches k w hw
  fresh k hk := (hc k).trans (h.fresh k hk)
  whole c hrising := by simp only [h.whole c hrising, hc]
  active := h.active
  sessions := h.sessions.trans (countP_concat_of_not rfl).symm
  frames := h.frames.trans (countP_concat_of_not rfl).symm

theorem joined (h : Accounted es s) {g : Gateway} {outboundBuffer : Nat} {r : Request}
    {l : Launch} (hl : (g.handle r).next = .launch l)
    (hc : ∀ j, counted j .empty (es ++ [.arrive g outboundBuffer r]) = counted j .empty es) :
    Accounted (es ++ [.arrive g outboundBuffer r])
      { s with watches := s.watches ++ [⟨g, r, l.session outboundBuffer⟩] } where
  watches k w hw := by
    rw [hc]
    rw [List.getElem?_append] at hw
    split at hw
    · exact h.watches k w hw
    · next hk =>
      rw [List.getElem?_singleton] at hw
      split at hw
      · cases hw
        obtain ⟨plan, hplan, hlength⟩ := plan_of_launch hl
        -- nothing was added in its name before it was begun
        refine ⟨plan, hplan, ?_⟩
        rw [h.fresh k (Nat.le_of_not_lt hk), ← hlength]
        exact Session.Counted.initial
      · cases hw
  fresh k hk := by
    rw [List.length_append, List.length_singleton] at hk
    exact (hc k).trans (h.fresh k (by omega))
  whole c hrising := by
    rw [List.length_append, List.length_singleton, Finset.sum_range_succ, hc,
      h.fresh _ (Nat.le_refl _), Tally.rising_zero hrising, Nat.add_zero]
    simp only [h.whole c hrising, hc]
  active := by
    have hdead : ¬ (l.session outboundBuffer).alive = true := fun ha =>
      absurd (Session.Counted.initial.alive_iff.mp ha).1 nofun
    simp [List.countP_append, h.active, hdead]
  sessions := h.sessions.trans (countP_concat_of_not rfl).symm
  frames := h.frames.trans (countP_concat_of_not rfl).symm

theorem turned (h : Accounted es s) (hw : s.watches[k]? = some w) {e : Multiwatch.Event}
    {u : Session} (ht : Session.Turn { w.session with tally := s.tally } e u)
    (hc : ∀ j, counted j .empty (es ++ [.session k e]) =
      (counted j .empty es).both (if k = j then e.adds else .zero)) :
    Accounted (es ++ [.session k e]) ⟨s.watches.set k { w with session := u }, u.tally⟩ := by
  have hk : k < s.watches.length := (List.getElem?_eq_some_iff.mp hw).1
  have hother : ∀ j, j ≠ k → counted j .empty (es ++ [.session k e]) = counted j .empty es := by
    intro j hj
    rw [hc, if_neg (Ne.symm hj), Tally.both_zero]
  have hrising : ∀ c ∈ Tally.rising, c u.tally = c s.tally + c e.adds := fun c hc =>
    ht.rising_eq hc
  constructor
  case watches =>
    refine h.watches_set hw hother ?_
    rintro ⟨plan, hplan, hcounted⟩
    rw [hc, if_pos rfl]
    exact ⟨plan, hplan, (hcounted.withTally s.tally).turn ht⟩
  case fresh =>
    intro j hj
    rw [List.length_set] at hj
    rw [hother j (by omega)]
    exact h.fresh j hj
  case whole =>
    -- of the sum over all watches one share grows, by what the event adds
    intro c hmem
    have hsum : ∀ j, c (counted j .empty (es ++ [.session k e])) =
        c (counted j .empty es) + if k = j then c e.adds else 0 := by
      intro j
      rw [hc, Tally.rising_both hmem]
      split
      · rfl
      · rw [Tally.rising_zero hmem]
    rw [hrising c hmem, List.length_set, h.whole c hmem]
    simp only [hsum]
    rw [Finset.sum_add_distrib, Finset.sum_ite_eq, if_pos (Finset.mem_range.mpr hk)]
  case active =>
    have hcount := Session.countP_set_add (p := fun w : Watch => w.session.alive) hw
      { w with session := u }
    -- the gauge is not at zero, so that the end of a session takes one off
    have hopen : w.session.alive = true → 0 < s.tally.active := fun ha => by
      rw [h.active]
      exact List.countP_pos_iff.mpr ⟨w, List.mem_of_getElem? hw, ha⟩
    have hturn := ht.active hopen
    have hbefore := h.active
    have hsame : Session.alive { w.session with tally := s.tally } = w.session.alive := rfl
    rw [hsame] at hturn
    dsimp only at hturn hcount ⊢
    omega
  case sessions =>
    rw [List.countP_append, List.countP_singleton, ← adds_sessions, ← h.sessions]
    exact hrising Tally.sessions (by simp [Tally.rising])
  case frames =>
    rw [List.countP_append, List.countP_singleton, ← adds_frames, ← h.frames]
    exact hrising Tally.frames (by simp [Tally.rising])

theorem abandoned (h : Accounted es s) (hw : s.watches[k]? = some w)
    (hp : w.session.phase = .opening)
    (hc : ∀ j, counted j .empty (es ++ [.abandon k]) = counted j .empty es) :
    Accounted (es ++ [.abandon k]) { s with watches := s.watches.set k w.abandoned } := by
  constructor
  case watches =>
    refine h.watches_set hw (fun j _ => hc j) ?_
    rintro ⟨plan, hplan, hcounted⟩
    rw [hc]
    exact ⟨plan, hplan, hcounted.abandoned hp⟩
  case fresh =>
    intro j hj
    rw [List.length_set] at hj
    exact (hc j).trans (h.fresh j hj)
  case whole =>
    intro c hmem
    simp only [List.length_set, h.whole c hmem, hc]
  case active =>
    have hcount := Session.countP_set_add (p := fun w : Watch => w.session.alive) hw w.abandoned
    have hbefore : ¬ w.session.alive = true := Session.not_alive_of_early (.inl hp)
    have hbehind : w.abandoned.session.alive = false := rfl
    rw [if_neg hbefore, hbehind] at hcount
    exact h.active.trans hcount.symm
  case sessions => exact h.sessions.trans (countP_concat_of_not rfl).symm
  case frames => exact h.frames.trans (countP_concat_of_not rfl).symm

theorem step (h : Accounted es s) (hrun : empty.run es = some s) (he : s.step e = some t) :
    Accounted (es ++ [e]) t := by
  have hc := counted_concat hrun he
  have hsame : t.tally = s.tally → ∀ j, counted j .empty (es ++ [e]) = counted j .empty es := by
    intro htally j
    rw [hc, risen_of_same htally, Tally.both_zero]
  cases advance_of_step he with
  | replied => exact h.replied (hsame rfl)
  | joined hl => exact h.joined hl (hsame rfl)
  | turned hw ht =>
    refine h.turned hw ht fun j => ?_
    rw [hc, risen_turned ht]
  | abandoned hw hp => exact h.abandoned hw hp (hsame rfl)

end Accounted

theorem accounted_of_run (h : empty.run es = some s) : Accounted es s :=
  run_induction (P := Accounted) .initial (fun _ _ _ _ hrun ha he => ha.step hrun he) h

theorem Accounted.balanced (h : Accounted es s) (hw : s.watches[k]? = some w) :
    ∃ plan, w.Balanced plan (counted k .empty es) := by
  obtain ⟨plan, hplan, hcounted⟩ := h.watches k w hw
  have hdials := hcounted.dials
  refine ⟨plan, hplan, hdials, fun hp => ?_, hcounted.once, hcounted.alive_iff, hcounted.frames⟩
  have hnone := hcounted.unanswered (.inr hp)
  have hended := hcounted.rejected hp
  have hdead : ¬ w.session.alive = true := by simp [Session.alive_iff, hp]
  have hover : ¬ w.session.Over := by
    rintro ⟨why, hclosed⟩
    cases hp.symm.trans hclosed
  exact ⟨by omega, hnone, hcounted.sessions_eq_zero hdead hover⟩

/-- A session that ends was counted as open. -/
theorem Accounted.falls (h : Accounted es s) (hnext : Accounted (es ++ [e]) t)
    {v : Watch} (hw : s.watches[k]? = some w) (hset : t.watches = s.watches.set k v)
    (ha : w.session.alive = true) (hv : ¬ v.session.alive = true) :
    t.tally.active + 1 = s.tally.active := by
  have hcount := Session.countP_set_add (p := fun w : Watch => w.session.alive) hw v
  rw [if_pos ha, if_neg hv] at hcount
  rw [h.active, hnext.active, hset]
  exact hcount

-- ---------------------------------------------------------------------------
-- All watches
-- ---------------------------------------------------------------------------

/--
**The counters account for the watches.** However many watches there are, and however
their steps come in between one another: for each of them, dials that it has counted
as succeeded or failed and dials that have not ended are as many as its plan takes
connections, and a client that is turned away has cost a failure for each of them and
no session. The tally shows what the watches have added. Sessions are counted as often
as one has opened, frames as often as one was written, and as open there are counted
those sessions that have opened and are not over: each that ends takes one off, and
behind the last there is none.
-/
theorem counters_kept (es : List Event) (s : Ensemble) (h : empty.run es = some s) :
    (∀ (k : Nat) (w : Watch), s.watches[k]? = some w →
      ∃ plan, w.Balanced plan (counted k .empty es)) ∧
    (∀ c ∈ [Tally.dialed, Tally.refused, Tally.sessions, Tally.frames],
      c s.tally = ∑ k ∈ Finset.range s.watches.length, c (counted k .empty es)) ∧
    s.tally.sessions = es.countP Event.opens ∧
    s.tally.frames = es.countP Event.writes ∧
    s.tally.active = s.watches.countP (·.session.alive) ∧
    ((∀ w ∈ s.watches, ¬ w.session.alive = true) → s.tally.active = 0) ∧
    ∀ (k : Nat) (e : Multiwatch.Event) (t : Ensemble) (w v : Watch),
      s.step (.session k e) = some t → s.watches[k]? = some w → t.watches[k]? = some v →
      w.session.alive = true → ¬ v.session.alive = true →
      t.tally.active + 1 = s.tally.active := by
  have ha := accounted_of_run h
  refine ⟨fun k w hw => ha.balanced hw, ha.whole, ha.sessions, ha.frames, ha.active,
    fun hdead => ?_, ?_⟩
  · rw [ha.active]
    exact List.countP_eq_zero.mpr hdead
  · intro k e t w v he hw hv halive hdead
    have hnext := ha.step h he
    cases advance_of_step he with
    | turned hw' ht =>
      cases hw.symm.trans hw'
      rw [List.getElem?_set_self (List.getElem?_eq_some_iff.mp hw).1] at hv
      cases hv
      exact ha.falls hnext hw rfl halive hdead

/-- One watch is turned away while another goes on with two of its three feeds. -/
def duet : List Event :=
  [.arrive (Gateway.podsAndNodesGateway []) 1 Gateway.watchRequest,
    .session 0 (.dialed 1 false),
    .arrive (Gateway.podsAndNodesGateway []) 1 Gateway.watchRequest,
    .session 1 (.dialed 2 false), .session 0 (.dialed 0 true), .session 1 (.dialed 0 false),
    .session 0 (.upgraded true), .session 0 (.read 0 (.text "a")), .session 1 (.dialed 1 false),
    .session 0 (.enqueue 0), .session 0 .take, .session 0 (.wrote true)]

theorem duet_kept :
    ∃ s, empty.run duet = some s ∧ s.tally.active = 1 ∧ s.tally.sessions = 1 ∧
      s.tally.frames = 1 ∧
      ∃ (w : Watch) (plan : WatchPlan), s.watches[1]? = some w ∧
        w.gateway.planOf w.request = some plan ∧ plan.connections = 3 ∧
        (counted 1 .empty duet).refused = 3 ∧ (counted 1 .empty duet).sessions = 0 := by
  have hends : (empty.run duet).map (fun s => (s.tally.active,
      s.watches.map fun w => (w.session.phase, (w.gateway.planOf w.request).map
        WatchPlan.connections))) = some (1, [(.running, some 3), (.rejected, some 3)]) := by
    decide +kernel
  obtain ⟨s, hs, heq⟩ := Option.map_eq_some_iff.mp hends
  obtain ⟨hactive, hwatches⟩ := Prod.mk.inj heq
  obtain ⟨hbalanced, -, hsessions, hframes, -⟩ := counters_kept duet s hs
  have hsecond : (s.watches[1]?).map (fun w => (w.session.phase,
      (w.gateway.planOf w.request).map WatchPlan.connections)) = some (.rejected, some 3) := by
    rw [← List.getElem?_map, hwatches]
    rfl
  obtain ⟨w, hw, hrejected⟩ := Option.map_eq_some_iff.mp hsecond
  obtain ⟨hphase, hplan⟩ := Prod.mk.inj hrejected
  obtain ⟨plan, hbalance⟩ := hbalanced 1 w hw
  rw [hbalance.planned, Option.map_some, Option.some.injEq] at hplan
  obtain ⟨hrefused, -, hnone⟩ := hbalance.rejected hphase
  exact ⟨s, hs, hactive, hsessions, hframes, w, plan, hw, hbalance.planned, hplan,
    hrefused.trans hplan, hnone⟩

end Ensemble

end WatchGate
