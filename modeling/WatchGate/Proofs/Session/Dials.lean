import Mathlib.Data.List.Nodup
import WatchGate.Multiwatch.Setup
import WatchGate.Proofs.Session.Lifetime

/-!
# WatchGate — dials that fail, succeed and end late

A schedule tells of each dial whether and how it has ended, and the feed at its
place says the same (`outcomes_of_run`), so that a dial ends once at most. Before
the client is answered a session does nothing but take the ends of dials
(`Turn.early`): after any number of failures the first success answers it, and
with the last failure it is turned away. `Answered` reads the answer off a
schedule, wherever in it the session had one to give.

A leg is a feed that relays. `legsAlong` lists the feeds that have begun to, by
comparing the states that a schedule goes through. The first does on word of the
client, every other with the end of its dial (`Turn.begun_eq`).

Main result: `dials_tolerated`.
-/

namespace WatchGate.Multiwatch

/-- How the dial at a place has ended, by an event. -/
def Event.outcome? (i : Nat) : Event → Option Bool
  | .dialed j ok => if j = i then some ok else none
  | _ => none

/-- The place of the dial that has succeeded, by an event. -/
def Event.success? : Event → Option Nat
  | .dialed i true => some i
  | _ => none

/-- How the dial of a feed has ended, if it has. -/
def Feed.outcomes (f : Feed) : List Bool :=
  match f.stage with
  | .dialing => []
  | .refused => [false]
  | .ready | .relaying | .finished _ | .noted _ => [true]

namespace Session

/-- How the dial at a place has ended, behind a schedule. -/
def outcomes (es : List Event) (i : Nat) : List Bool := es.filterMap (Event.outcome? i)

/-- The places of the dials that have succeeded, in order. -/
def successes (es : List Event) : List Nat := es.filterMap Event.success?

/-- The dials of a schedule end in given ways. -/
def Ends (ok : Nat → Bool) (es : List Event) : Prop := ∀ i b, .dialed i b ∈ es → b = ok i

/-- The client was answered at some point of a schedule. -/
def Answered (start : Session) (key : Bytes) (given : Nat → Http.Headers) (es : List Event)
    (x : Http.Response) : Prop :=
  ∃ as bs s, es = as ++ bs ∧ start.run as = some s ∧ s.answer? key given = some x

/-- The feeds that relay in one state and did not in another. -/
def begun (s t : Session) : List Nat :=
  (List.range t.feeds.length).filter fun i =>
    (t.feeds[i]?).any (·.stage = .relaying) && !(s.feeds[i]?).any (·.stage = .relaying)

/-- The feeds that have begun to relay along a schedule, in order. -/
def legsAlong (s : Session) : List Event → List Nat
  | [] => []
  | e :: es =>
    match s.step e with
    | none => []
    | some t => begun s t ++ legsAlong t es

/-- What comes of dials that end in given ways. -/
structure Tolerates (l : Launch) (outboundBuffer : Nat) (ok : Nat → Bool)
    (given : Nat → Http.Headers) (es : List Event) (s : Session) : Prop where
  /-- the client is let in exactly if a dial succeeds -/
  accepted : ∀ x, Answered (l.session outboundBuffer) l.key given es x →
    (x.status = 101 ↔ ∃ i, i < l.targets.length ∧ ok i = true)
  /-- it is answered with the first success, whatever has failed before, or with the last failure -/
  answered : ∀ x, Answered (l.session outboundBuffer) l.key given es x ↔
    (∃ i, (successes es).head? = some i ∧ x = switching l.key (given i)) ∨
      ((∀ i, i < l.targets.length → .dialed i false ∈ es) ∧ x = SetupError.noFeeds.response)
  /-- and whatever has happened, it will be -/
  answerable : ∃ fs x t, Ends ok (es ++ fs) ∧ (l.session outboundBuffer).run (es ++ fs) = some t ∧
    Answered (l.session outboundBuffer) l.key given (es ++ fs) x
  /-- nothing but its own end takes a dial from those that are pending -/
  pending : ∀ i, i < l.targets.length →
    ((∃ f, s.feeds[i]? = some f ∧ f.stage = .dialing) ↔ ∀ b, .dialed i b ∉ es)
  /-- a dial that fails does nothing to the others, and those that are pending can end behind it -/
  spared : ∀ i t, s.step (.dialed i false) = some t → ∀ j, j ≠ i →
    t.feeds[j]? = s.feeds[j]? ∧
      ∀ f, s.feeds[j]? = some f → f.stage = .dialing → ∀ b, ∃ u, t.step (.dialed j b) = some u
  /-- while feeds relay, they have begun to in the order in which their dials have succeeded -/
  legs : s.alive = true → legsAlong (l.session outboundBuffer) es = successes es
  once : s.alive = true → (legsAlong (l.session outboundBuffer) es).Nodup
  dialed : s.alive = true → ∀ i, i ∈ legsAlong (l.session outboundBuffer) es ↔ .dialed i true ∈ es
  /-- and no feed has whose dial has failed or is pending -/
  undialed : s.alive = true → ∀ i f, s.feeds[i]? = some f →
    .dialed i false ∈ es ∨ f.stage = .dialing → i ∉ legsAlong (l.session outboundBuffer) es

variable {start s t : Session} {e : Event} {es : List Event} {i : Nat} {f g : Feed}
  {n outboundBuffer grants : Nat}

-- ---------------------------------------------------------------------------
-- Outcomes
-- ---------------------------------------------------------------------------

theorem outcomes_concat (es : List Event) (e : Event) (i : Nat) :
    outcomes (es ++ [e]) i = outcomes es i ++ (e.outcome? i).toList := by
  unfold outcomes
  rw [List.filterMap_append]
  cases h : e.outcome? i <;> simp [h]

theorem successes_concat (es : List Event) (e : Event) :
    successes (es ++ [e]) = successes es ++ e.success?.toList := by
  unfold successes
  rw [List.filterMap_append]
  cases h : e.success? <;> simp [h]

theorem outcome?_eq_some_iff {b : Bool} : e.outcome? i = some b ↔ e = .dialed i b := by
  unfold Event.outcome?
  split
  · next j ok =>
    by_cases hj : j = i <;> simp [hj]
  · next h => exact iff_of_false nofun fun he => h i b he

theorem success?_eq_some_iff : e.success? = some i ↔ e = .dialed i true := by
  unfold Event.success?
  split
  · simp
  · next h => exact iff_of_false nofun fun he => h i he

theorem mem_outcomes_iff {b : Bool} : b ∈ outcomes es i ↔ .dialed i b ∈ es := by
  simp [outcomes, outcome?_eq_some_iff]

theorem mem_successes_iff : i ∈ successes es ↔ .dialed i true ∈ es := by
  simp [successes, success?_eq_some_iff]

theorem outcomes_change (h : Feed.Change i e f g) :
    g.outcomes = f.outcomes ++ (e.outcome? i).toList := by
  cases h with
  | ready hd | refused hd | joined hd => simp [Feed.outcomes, Event.outcome?, hd]
  | switched hd => simp [Feed.outcomes, Event.outcome?, hd]
  | @read _ x hr hh =>
    unfold Feed.take
    split <;> simp [Feed.outcomes, Event.outcome?, hr]
  | crashed hr hh => simp [Feed.outcomes, Event.outcome?, hr]
  | enqueued hh => simp [Feed.outcomes, Event.outcome?]
  | noted hs => simp [Feed.outcomes, Event.outcome?, hs]

theorem outcome?_of_change {k : Nat} (h : Feed.Change k e f g) (hk : k ≠ i) :
    e.outcome? i = none := by
  cases h <;> simp [Event.outcome?, hk]

/-- The feed at a place says how its dial has ended, and there is no other dial. -/
theorem outcomes_of_run (h : (initial n outboundBuffer grants).run es = some s) (i : Nat) :
    outcomes es i = (s.feeds[i]?).elim [] Feed.outcomes := by
  refine run_induction (P := fun es s => outcomes es i = (s.feeds[i]?).elim [] Feed.outcomes)
    ?_ ?_ h
  · cases hf : (initial n outboundBuffer grants).feeds[i]? with
    | none => rfl
    | some f =>
      rw [feed_initial hf]
      rfl
  · intro es s e t hrun ih ht
    rw [outcomes_concat, ih]
    rcases ht.feeds (coherent_of_run hrun) with ⟨hsame, hne⟩ | ⟨k, f, g, hf, hchange, hset⟩
    · have hnone : e.outcome? i = none := by
        refine Option.eq_none_iff_forall_ne_some.mpr fun b hb => ?_
        exact hne i b (outcome?_eq_some_iff.mp hb)
      simp [hsame, hnone]
    · rw [hset]
      by_cases hk : k = i
      · subst hk
        rw [List.getElem?_set_self (lt_length_of_feed hf), hf]
        exact (outcomes_change hchange).symm
      · rw [List.getElem?_set_ne hk, outcome?_of_change hchange hk]
        simp

theorem Turn.length (h : Turn s e t) : t.feeds.length = s.feeds.length := by
  cases h <;> simp

theorem length_of_run (h : (initial n outboundBuffer grants).run es = some s) :
    s.feeds.length = n := by
  refine run_induction (P := fun _ s => s.feeds.length = n) (List.length_replicate ..) ?_ h
  exact fun _ _ _ _ _ ih ht => ht.length.trans ih

theorem outcomes_of_mem {b : Bool} (h : b ∈ f.outcomes) : f.outcomes = [b] := by
  unfold Feed.outcomes at h ⊢
  split at h <;> simp_all

/-- What is heard of a dial is heard of a feed, and is all that is heard of it. -/
theorem feed_of_dialed (h : (initial n outboundBuffer grants).run es = some s) {b : Bool}
    (hb : .dialed i b ∈ es) : ∃ f, s.feeds[i]? = some f ∧ f.outcomes = [b] := by
  have hmem : b ∈ outcomes es i := mem_outcomes_iff.mpr hb
  rw [outcomes_of_run h] at hmem
  cases hf : s.feeds[i]? with
  | none => simp [hf] at hmem
  | some f =>
    rw [hf, Option.elim_some] at hmem
    exact ⟨f, rfl, outcomes_of_mem hmem⟩

theorem lt_of_dialed (h : (initial n outboundBuffer grants).run es = some s) {b : Bool}
    (hb : .dialed i b ∈ es) : i < n := by
  obtain ⟨f, hf, -⟩ := feed_of_dialed h hb
  exact length_of_run h ▸ lt_length_of_feed hf

theorem not_both_of_run (h : (initial n outboundBuffer grants).run es = some s)
    (hfalse : .dialed i false ∈ es) : .dialed i true ∉ es := by
  intro htrue
  obtain ⟨f, hf, hone⟩ := feed_of_dialed h hfalse
  obtain ⟨g, hg, hother⟩ := feed_of_dialed h htrue
  cases hf.symm.trans hg
  cases hone.symm.trans hother

theorem dialing_iff_of_run (h : (initial n outboundBuffer grants).run es = some s) (hi : i < n) :
    (∃ f, s.feeds[i]? = some f ∧ f.stage = .dialing) ↔ ∀ b, .dialed i b ∉ es := by
  have hlt : i < s.feeds.length := by rwa [length_of_run h]
  obtain ⟨f, hf⟩ : ∃ f, s.feeds[i]? = some f := ⟨_, List.getElem?_eq_getElem hlt⟩
  have houtcomes := outcomes_of_run h i
  rw [hf, Option.elim_some] at houtcomes
  have hnone : (∀ b, .dialed i b ∉ es) ↔ f.outcomes = [] := by
    rw [← houtcomes, List.eq_nil_iff_forall_not_mem]
    exact forall_congr' fun b => not_congr mem_outcomes_iff.symm
  rw [hnone]
  constructor
  · rintro ⟨f', hf', hd⟩
    cases hf.symm.trans hf'
    simp [Feed.outcomes, hd]
  · intro hempty
    refine ⟨f, hf, ?_⟩
    unfold Feed.outcomes at hempty
    split at hempty
    · assumption
    all_goals cases hempty

theorem Turn.dialing {ok : Bool} (h : Turn s (.dialed i ok) t) :
    ∃ f g, s.feeds[i]? = some f ∧ f.stage = .dialing ∧ t.feeds = s.feeds.set i g ∧
      g.stage ≠ .dialing := by
  cases h with
  | opened _ hf hd | joined _ _ hf hd | refused _ hf hd | rejected _ hf hd | missed _ _ hf hd
  | missedLast _ _ hf hd => exact ⟨_, _, hf, hd, rfl, nofun⟩

theorem not_dialed_of_run (h : (initial n outboundBuffer grants).run es = some s)
    (hf : s.feeds[i]? = some f) (hd : .dialed i false ∈ es ∨ f.stage = .dialing) :
    .dialed i true ∉ es := by
  rcases hd with hfalse | hd
  · exact not_both_of_run h hfalse
  · have hlt : i < n := length_of_run h ▸ lt_length_of_feed hf
    exact (dialing_iff_of_run h hlt).mp ⟨f, hf, hd⟩ true

theorem nodup_successes_of_run (h : (initial n outboundBuffer grants).run es = some s) :
    (successes es).Nodup := by
  refine run_induction (P := fun es _ => (successes es).Nodup) List.nodup_nil ?_ h
  intro es s e t hrun ih ht
  rw [successes_concat]
  cases he : e.success? with
  | none => simpa using ih
  | some i =>
    -- its feed was being dialed, so nothing had been heard of it before
    obtain rfl := success?_eq_some_iff.mp he
    obtain ⟨f, -, hf, hd, -⟩ := ht.dialing
    have hlt : i < n := length_of_run hrun ▸ lt_length_of_feed hf
    have hnew := (dialing_iff_of_run hrun hlt).mp ⟨f, hf, hd⟩
    rw [Option.toList_some, List.nodup_append]
    refine ⟨ih, List.nodup_singleton i, fun j hj k hk hjk => ?_⟩
    rw [List.mem_singleton.mp hk] at hjk
    exact hnew true (mem_successes_iff.mp (hjk ▸ hj))

-- ---------------------------------------------------------------------------
-- The answer
-- ---------------------------------------------------------------------------

/-- Before the client is answered a session takes the ends of dials and does nothing
else: with a success it answers, with a failure it goes on or turns the client away. -/
theorem Turn.early (h : Turn s e t) (hc : Coherent s)
    (hp : s.phase = .opening ∨ s.phase = .rejected) :
    (∃ i, e = .dialed i true ∧ t.phase = .upgrading i) ∨
      (∃ i, e = .dialed i false ∧ (t.phase = .opening ∧ (∃ f ∈ t.feeds, f.stage = .dialing) ∨
        t.phase = .rejected ∧ ∀ f ∈ t.feeds, f.stage ≠ .dialing)) := by
  have hdead : ¬ s.alive = true := by
    rw [alive_iff]
    rcases hp with hp | hp <;> simp [hp]
  cases h with
  | opened => exact .inl ⟨_, rfl, rfl⟩
  | @refused i f hp' hf hd hn =>
    obtain ⟨j, g, hj, hg, hdialing⟩ := hn
    refine .inr ⟨i, rfl, .inl ⟨hp', g, List.mem_iff_getElem?.mpr ⟨j, ?_⟩, isDialing_iff.mp hdialing⟩⟩
    exact (List.getElem?_set_ne (Ne.symm hj)).trans hg
  | @rejected i f hp' hf hd hn =>
    refine .inr ⟨i, rfl, .inr ⟨rfl, fun g hg => ?_⟩⟩
    obtain ⟨j, hj⟩ := List.mem_iff_getElem?.mp hg
    rcases feed_of_set hj with ⟨-, rfl⟩ | ⟨hne, hj⟩
    · nofun
    · exact fun hdialing => by simpa [isDialing_iff.mpr hdialing] using hn j g hne hj
  | joined hp' | missed hp' | missedLast hp' | upgraded hp' | notUpgraded hp' | noted hp'
  | notedLast hp' | failed hp' | heard hp' | left hp' | drained hp' =>
    rcases hp with hp | hp <;> cases hp'.symm.trans hp
  | read ha | crash ha | enqueue ha | take ha => exact absurd ha hdead
  | wrote hw | lost hw | cut hw => exact absurd (hc.writing (by simp [hw])) hdead

/-- A state of these phases comes behind one that waits for dials. -/
theorem Turn.before_early (h : Turn s e t) (hc : Coherent s)
    (hp : t.phase = .opening ∨ (∃ i, t.phase = .upgrading i) ∨ t.phase = .rejected) :
    s.phase = .opening := by
  have hlive := hc.not_over h
  have hcases : t.phase = s.phase → s.alive = true → False := by
    intro hsame ha
    rw [hsame] at hp
    rcases alive_iff.mp ha with hr | ⟨why, hr⟩ <;> simp [hr] at hp
  cases h with
  | opened hp' | refused hp' | rejected hp' => exact hp'
  | joined hp' | missed hp' | noted hp' | heard hp' =>
    exact absurd (alive_iff.mpr (.inl hp')) (hcases rfl)
  | missedLast | upgraded | notUpgraded | lost | cut | notedLast | failed | left | drained =>
    simp at hp
  | read ha | crash ha | enqueue ha | take ha => exact absurd ha (hcases rfl)
  | wrote hw => exact absurd (hc.writing (by simp [hw])) (hcases rfl)

/-- What the dials of a schedule have come to for the client. -/
structure Greeting (start : Session) (es : List Event) (s : Session) : Prop where
  opening : s.phase = .opening → successes es = [] ∧ ∃ f ∈ s.feeds, f.stage = .dialing
  upgrading : ∀ i, s.phase = .upgrading i → successes es = [i]
  rejected : s.phase = .rejected → successes es = [] ∧ ∀ f ∈ s.feeds, f.stage ≠ .dialing
  silent : successes es = [] → s.phase = .opening ∨ s.phase = .rejected
  first : ∀ i, (successes es).head? = some i →
    ∃ as bs t, es = as ++ bs ∧ start.run as = some t ∧ t.phase = .upgrading i

theorem greeting_initial :
    Greeting (initial n outboundBuffer grants) [] (initial n outboundBuffer grants) where
  opening hp := by
    refine ⟨rfl, ?_⟩
    cases n with
    | zero => cases hp
    | succ n => exact ⟨.dialed, List.mem_cons_self, rfl⟩
  upgrading i hp := by
    simp only [initial] at hp
    split at hp <;> cases hp
  rejected hp := by
    refine ⟨rfl, ?_⟩
    cases n with
    | zero => exact fun f hf => absurd hf List.not_mem_nil
    | succ n => cases hp
  silent _ := by
    simp only [initial]
    split
    · exact .inr rfl
    · exact .inl rfl
  first i hi := by cases hi

theorem Greeting.turn (hg : Greeting start es s) (hc : Coherent s) (hrun : start.run es = some s)
    (h : Turn s e t) : Greeting start (es ++ [e]) t where
  opening hp := by
    have hs := h.before_early hc (.inl hp)
    rw [successes_concat, (hg.opening hs).1]
    rcases h.early hc (.inl hs) with ⟨i, rfl, ht⟩ | ⟨i, rfl, ⟨-, hd⟩ | ⟨ht, -⟩⟩
    · cases ht.symm.trans hp
    · exact ⟨rfl, hd⟩
    · cases ht.symm.trans hp
  upgrading i hp := by
    have hs := h.before_early hc (.inr (.inl ⟨i, hp⟩))
    rw [successes_concat, (hg.opening hs).1]
    rcases h.early hc (.inl hs) with ⟨j, rfl, ht⟩ | ⟨j, rfl, ⟨ht, -⟩ | ⟨ht, -⟩⟩
    · cases ht.symm.trans hp
      rfl
    · cases ht.symm.trans hp
    · cases ht.symm.trans hp
  rejected hp := by
    have hs := h.before_early hc (.inr (.inr hp))
    rw [successes_concat, (hg.opening hs).1]
    rcases h.early hc (.inl hs) with ⟨i, rfl, ht⟩ | ⟨i, rfl, ⟨ht, -⟩ | ⟨-, hd⟩⟩
    · cases ht.symm.trans hp
    · cases ht.symm.trans hp
    · exact ⟨rfl, hd⟩
  silent hempty := by
    rw [successes_concat, List.append_eq_nil_iff] at hempty
    rcases h.early hc (hg.silent hempty.1) with ⟨i, rfl, -⟩ | ⟨i, rfl, ⟨ht, -⟩ | ⟨ht, -⟩⟩
    · cases hempty.2
    · exact .inl ht
    · exact .inr ht
  first i hi := by
    rw [successes_concat] at hi
    cases hs : successes es with
    | nil =>
      -- it is this event that answers the client
      rw [hs, List.nil_append] at hi
      have hnow : start.run (es ++ [e]) = some t := run_concat_iff.mpr ⟨s, hrun, h⟩
      rcases h.early hc (hg.silent hs) with ⟨j, rfl, ht⟩ | ⟨j, rfl, -⟩
      · cases hi
        exact ⟨es ++ [.dialed i true], [], t, (List.append_nil _).symm, hnow, ht⟩
      · cases hi
    | cons j js =>
      rw [hs, List.cons_append, List.head?_cons] at hi
      obtain ⟨as, bs, r, hsplit, hr, hp⟩ := hg.first i (by rw [hs, List.head?_cons, hi])
      exact ⟨as, bs ++ [e], r, by rw [hsplit, List.append_assoc], hr, hp⟩

theorem greeting_of_run (h : (initial n outboundBuffer grants).run es = some s) :
    Greeting (initial n outboundBuffer grants) es s :=
  run_induction (P := Greeting _) greeting_initial
    (fun _ _ _ _ hrun hg ht => hg.turn (coherent_of_run hrun) hrun ht) h

section Answer

variable {key : Bytes} {given : Nat → Http.Headers} {x : Http.Response} {ok : Nat → Bool}

/-- The client is answered with the first success, or with the last failure. -/
theorem answered_iff (h : (initial n outboundBuffer grants).run es = some s) :
    Answered (initial n outboundBuffer grants) key given es x ↔
      (∃ i, (successes es).head? = some i ∧ x = switching key (given i)) ∨
        ((∀ i, i < n → .dialed i false ∈ es) ∧ x = SetupError.noFeeds.response) := by
  have hg := greeting_of_run h
  constructor
  · rintro ⟨as, bs, t, rfl, hrun, hx⟩
    have hgt := greeting_of_run hrun
    unfold answer? at hx
    split at hx
    · next i hp =>
      refine .inl ⟨i, ?_, (Option.some.inj hx).symm⟩
      unfold successes
      rw [List.filterMap_append, ← successes, hgt.upgrading i hp]
      rfl
    · next hp =>
      obtain ⟨hnone, hover⟩ := hgt.rejected hp
      refine .inr ⟨fun i hi => List.mem_append_left bs ?_, (Option.some.inj hx).symm⟩
      by_contra hfalse
      -- a dial that has not failed is pending, or has succeeded
      have hnews : ∀ b, .dialed i b ∉ as := by
        rintro (_ | _) hb
        · exact hfalse hb
        · simpa [hnone] using mem_successes_iff.mpr hb
      obtain ⟨f, hf, hd⟩ := (dialing_iff_of_run hrun hi).mpr hnews
      exact hover f (List.mem_iff_getElem?.mpr ⟨i, hf⟩) hd
    all_goals cases hx
  · rintro (⟨i, hi, rfl⟩ | ⟨hall, rfl⟩)
    · obtain ⟨as, bs, t, hsplit, hrun, hp⟩ := hg.first i hi
      exact ⟨as, bs, t, hsplit, hrun, by simp [answer?, hp]⟩
    · have hnone : successes es = [] := by
        refine List.eq_nil_iff_forall_not_mem.mpr fun i hi => ?_
        have htrue := mem_successes_iff.mp hi
        exact not_both_of_run h (hall i (lt_of_dialed h htrue)) htrue
      have hrejected : s.phase = .rejected := by
        refine (hg.silent hnone).resolve_left fun hp => ?_
        obtain ⟨f, hf, hd⟩ := (hg.opening hp).2
        obtain ⟨i, hi⟩ := List.mem_iff_getElem?.mp hf
        have hlt : i < n := length_of_run h ▸ lt_length_of_feed hi
        exact (dialing_iff_of_run h hlt).mp ⟨f, hi, hd⟩ false (hall i hlt)
      exact ⟨es, [], s, (List.append_nil es).symm, h, by simp [answer?, hrejected]⟩

/-- A pending dial can end either way as long as its end is awaited. -/
theorem can_end (hp : s.phase = .opening ∨ s.phase = .running ∧ s.writing = none)
    (hf : s.feeds[i]? = some f) (hd : f.stage = .dialing) (ok : Bool) :
    ∃ t, s.step (.dialed i ok) = some t := by
  rw [step_dialed hf hd]
  unfold afterDial
  rcases hp with hp | ⟨hp, hw⟩
  · cases ok <;> simp [hp]
  · cases ok <;> simp [hp, hw]

theorem Turn.dialing_lt {ok : Bool} (h : Turn s (.dialed i ok) t) : t.dialing < s.dialing := by
  obtain ⟨f, g, hf, hd, hset, hg⟩ := h.dialing
  have hlt := lt_length_of_feed hf
  have hget : s.feeds[i] = f := (List.getElem?_eq_some_iff.mp hf).2
  have hpos : 0 < s.feeds.countP Feed.isDialing :=
    List.countP_pos_iff.mpr ⟨f, List.mem_of_getElem? hf, isDialing_iff.mpr hd⟩
  have hnot : g.isDialing = false := by simpa [← isDialing_iff] using hg
  unfold Session.dialing
  rw [hset, List.countP_set hlt, hget, isDialing_iff.mpr hd, hnot]
  simp only [if_true, Bool.false_eq_true, if_false]
  omega

/-- As long as dials end, in whatever ways, the client is answered in the end. -/
theorem answerable_of_run (h : (initial n outboundBuffer grants).run es = some s)
    (hok : Ends ok es) :
    ∃ fs x t, Ends ok (es ++ fs) ∧ (initial n outboundBuffer grants).run (es ++ fs) = some t ∧
      Answered (initial n outboundBuffer grants) key given (es ++ fs) x := by
  induction hm : s.dialing using Nat.strongRecOn generalizing es s with
  | ind m ih =>
    have hg := greeting_of_run h
    have hhere : ∀ x, Answered (initial n outboundBuffer grants) key given es x →
        ∃ fs x t, Ends ok (es ++ fs) ∧ (initial n outboundBuffer grants).run (es ++ fs) = some t ∧
          Answered (initial n outboundBuffer grants) key given (es ++ fs) x :=
      fun x hx => ⟨[], x, s, by rwa [List.append_nil], by rwa [List.append_nil],
        by rwa [List.append_nil]⟩
    cases hs : successes es with
    | cons i is => exact hhere _ ((answered_iff h).mpr (.inl ⟨i, by rw [hs, List.head?_cons], rfl⟩))
    | nil =>
      rcases hg.silent hs with hp | hp
      · -- some dial is pending: let it end as it does
        obtain ⟨f, hf, hd⟩ := (hg.opening hp).2
        obtain ⟨i, hi⟩ := List.mem_iff_getElem?.mp hf
        obtain ⟨t, ht⟩ := can_end (.inl hp) hi hd (ok i)
        have hturn := turn_of_step ht
        have hrun := run_concat_iff.mpr ⟨s, h, hturn⟩
        have hends : Ends ok (es ++ [.dialed i (ok i)]) := by
          intro j b hj
          rcases List.mem_append.mp hj with hj | hj
          · exact hok j b hj
          · cases List.mem_singleton.mp hj
            rfl
        obtain ⟨fs, x, u, hfs⟩ := ih _ (hm ▸ hturn.dialing_lt) hrun hends rfl
        rw [List.append_assoc] at hfs
        exact ⟨_, x, u, hfs⟩
      · exact hhere _ ⟨es, [], s, (List.append_nil es).symm, h, by simp [answer?, hp]; rfl⟩

end Answer

/-- A dial that fails does nothing to the others, and those that are pending can end
behind it. -/
theorem spared_of_failure (h : s.step (.dialed i false) = some t) {j : Nat} (hj : j ≠ i) :
    t.feeds[j]? = s.feeds[j]? ∧
      ∀ f, s.feeds[j]? = some f → f.stage = .dialing → ∀ b, ∃ u, t.step (.dialed j b) = some u := by
  have hturn := turn_of_step h
  have hothers : t.feeds[j]? = s.feeds[j]? := by
    obtain ⟨-, g, -, -, hset, -⟩ := hturn.dialing
    rw [hset, List.getElem?_set_ne (Ne.symm hj)]
  refine ⟨hothers, fun f hf hd b => ?_⟩
  have hwaits : t.phase = .opening ∨ t.phase = .running ∧ t.writing = none := by
    have hdialing := isDialing_iff.mpr hd
    cases hturn with
    | refused hp => exact .inl hp
    | missed hp hw => exact .inr ⟨hp, hw⟩
    -- with another dial pending this one is not the last thing that is awaited
    | rejected _ _ _ hn => simp [hn j f hj hf] at hdialing
    | missedLast _ _ _ _ hn => simpa [Feed.isAwaited, hdialing] using hn j f hj hf
  exact can_end hwaits (hothers.trans hf) hd b

-- ---------------------------------------------------------------------------
-- Legs
-- ---------------------------------------------------------------------------

theorem begun_of_same (h : t.feeds = s.feeds) : begun s t = [] := by
  simp [begun, h]

theorem begun_of_set (hf : s.feeds[i]? = some f) (hset : t.feeds = s.feeds.set i g) :
    begun s t = if g.stage = .relaying ∧ f.stage ≠ .relaying then [i] else [] := by
  have hlt := lt_length_of_feed hf
  have hself : (s.feeds.set i g)[i]? = some g := List.getElem?_set_self hlt
  have hpoint : ∀ j ∈ List.range t.feeds.length,
      ((t.feeds[j]?).any (·.stage = .relaying) && !(s.feeds[j]?).any (·.stage = .relaying)) =
        (j == i && decide (g.stage = .relaying ∧ f.stage ≠ .relaying)) := by
    rintro j -
    rw [hset]
    by_cases hj : j = i
    · subst hj
      rw [hself, hf]
      simp
    · rw [List.getElem?_set_ne (Ne.symm hj)]
      simp [hj]
  unfold begun
  rw [List.filter_congr hpoint]
  split
  · next hb =>
    have hmem : i ∈ List.range t.feeds.length := by simpa [hset] using hlt
    have hone : (List.range t.feeds.length).count i = 1 :=
      List.count_eq_one_of_mem List.nodup_range hmem
    simp only [hb, and_self, decide_true, Bool.and_true, not_false_eq_true, ne_eq]
    rw [List.filter_beq, hone]
    rfl
  · next hb => simp [hb]

/-- The feeds that begin to relay with an event: the first with word of the client,
any other with the success of its dial. -/
def begins (s : Session) : Event → List Nat
  | .dialed i true => if s.phase = .running then [i] else []
  | .upgraded true =>
    match s.phase with
    | .upgrading i => [i]
    | _ => []
  | _ => []

theorem Turn.begun_eq (h : Turn s e t) (hc : Coherent s) : begun s t = begins s e := by
  cases h with
  | opened hp hf hd => rw [begun_of_set hf rfl]; simp [begins, hp]
  | joined hp hw hf hd => rw [begun_of_set hf rfl]; simp [begins, hp, hd]
  | refused _ hf | rejected _ hf | missed _ _ hf | missedLast _ _ hf =>
    rw [begun_of_set hf rfl]
    simp [begins]
  | @upgraded i f hp hf =>
    obtain ⟨f', hf', hr⟩ := hc.upgrading i hp
    cases hf.symm.trans hf'
    rw [begun_of_set hf rfl]
    simp [begins, hp, hr]
  | read _ hf hr => rw [begun_of_set hf rfl]; simp [begins, hr]
  | crash _ hf => rw [begun_of_set hf rfl]; simp [begins]
  | enqueue _ hf => rw [begun_of_set hf rfl]; simp [begins]
  | noted _ _ hf | notedLast _ _ hf | failed _ _ hf =>
    rw [begun_of_set hf rfl]
    simp [begins]
  | notUpgraded | take | wrote | lost | cut | heard | left | drained =>
    exact begun_of_same rfl

theorem legsAlong_concat (h : start.run es = some s) (ht : s.step e = some t) :
    legsAlong start (es ++ [e]) = legsAlong start es ++ begun s t := by
  induction es generalizing start with
  | nil =>
    simp only [Session.run, Option.some.injEq] at h
    subst h
    simp [legsAlong, ht]
  | cons a as ih =>
    cases ha : start.step a with
    | none => simp [Session.run, ha] at h
    | some r =>
      simp only [Session.run, ha, Option.bind_some] at h
      simp [legsAlong, ha, ih h]

theorem Turn.begins_of_alive (h : Turn s e t) (ha : s.alive = true) :
    begins s e = e.success?.toList := by
  cases h with
  | joined hp => simp [begins, Event.success?, hp]
  | opened hp | refused hp | rejected hp => exact absurd ha (not_alive_of_early (.inl hp))
  | upgraded hp | notUpgraded hp => exact absurd ha (not_alive_of_early (.inr ⟨_, hp⟩))
  | missed | missedLast | read | crash | enqueue | take | wrote | lost | cut | noted | notedLast
  | failed | heard | left | drained => rfl

theorem Turn.begins_of_not_alive (h : Turn s e t) (hc : Coherent s) (ha : ¬ s.alive = true) :
    (∃ i, s.phase = .upgrading i ∧ e = .upgraded true ∧ begins s e = [i]) ∨
      ¬ t.alive = true ∧ begins s e = [] := by
  cases h with
  | opened hp => exact .inr ⟨by simp [alive_iff], by simp [begins, hp]⟩
  | refused hp => exact .inr ⟨by simp [alive_iff, hp], rfl⟩
  | rejected => exact .inr ⟨by simp [alive_iff], rfl⟩
  | upgraded hp => exact .inl ⟨_, hp, rfl, by simp [begins, hp]⟩
  | notUpgraded => exact .inr ⟨by simp [alive_iff], rfl⟩
  | joined hp | missed hp | missedLast hp | noted hp | notedLast hp | failed hp | heard hp
  | left hp => exact absurd (alive_iff.mpr (.inl hp)) ha
  | drained hp => exact absurd (alive_iff.mpr (.inr ⟨_, hp⟩)) ha
  | read ha' | crash ha' | enqueue ha' | take ha' => exact absurd ha' ha
  | wrote hw | lost hw | cut hw => exact absurd (hc.writing (by simp [hw])) ha

/-- While feeds relay, those that have begun to are those whose dials have succeeded;
before, none has. -/
theorem legsAlong_of_run (h : (initial n outboundBuffer grants).run es = some s) :
    (s.alive = true → legsAlong (initial n outboundBuffer grants) es = successes es) ∧
      (¬ s.alive = true → s.Over ∨ legsAlong (initial n outboundBuffer grants) es = []) := by
  refine run_induction (P := fun es s =>
    (s.alive = true → legsAlong (initial n outboundBuffer grants) es = successes es) ∧
      (¬ s.alive = true → s.Over ∨ legsAlong (initial n outboundBuffer grants) es = [])) ?_ ?_ h
  · exact ⟨fun _ => rfl, fun _ => .inr rfl⟩
  · intro es s e t hrun ih ht
    have hcoherent := coherent_of_run hrun
    rw [legsAlong_concat hrun (step_of_turn ht), ht.begun_eq hcoherent, successes_concat]
    by_cases ha : s.alive = true
    · rw [ih.1 ha, ht.begins_of_alive ha]
      exact ⟨fun _ => rfl, fun hd => .inl ((ht.alive ha).resolve_left hd)⟩
    · rw [(ih.2 ha).resolve_left (hcoherent.not_over ht)]
      rcases ht.begins_of_not_alive hcoherent ha with ⟨i, hp, rfl, hi⟩ | ⟨hd, hnone⟩
      · -- the first leg is the dial that answered the client
        rw [hi, (greeting_of_run hrun).upgrading i hp]
        refine ⟨fun _ => rfl, fun hd => ?_⟩
        cases ht with
        | upgraded => exact absurd rfl hd
      · exact ⟨fun halive => absurd halive hd, fun _ => .inr hnone⟩

-- ---------------------------------------------------------------------------
-- Tolerance
-- ---------------------------------------------------------------------------

/--
**A dial that fails costs its own feed and nothing else.** Any number of feeds,
dials that end in any ways and in any order, before the client is answered or
behind it: the client is let in exactly if a dial succeeds, with the headers of the
first that does; no failure keeps another dial from its end; and the feeds that
have begun to relay are those whose dials have succeeded, each once.
-/
theorem dials_tolerated (l : Launch) (outboundBuffer : Nat) (ok : Nat → Bool)
    (given : Nat → Http.Headers) (es : List Event) (s : Session)
    (h : (l.session outboundBuffer).run es = some s) (hok : Ends ok es) :
    Tolerates l outboundBuffer ok given es s where
  accepted x hx := by
    rcases (answered_iff h).mp hx with ⟨i, hi, rfl⟩ | ⟨hall, rfl⟩
    · have htrue := mem_successes_iff.mp (List.mem_of_head? hi)
      exact iff_of_true rfl ⟨i, lt_of_dialed h htrue, (hok i true htrue).symm⟩
    · refine iff_of_false (by decide) ?_
      rintro ⟨i, hi, htrue⟩
      cases (hok i false (hall i hi)).trans htrue
  answered x := answered_iff h
  answerable := answerable_of_run h hok
  pending i hi := dialing_iff_of_run h hi
  spared i t ht j hj := spared_of_failure ht hj
  legs ha := (legsAlong_of_run h).1 ha
  once ha := by
    rw [Launch.session, (legsAlong_of_run h).1 ha]
    exact nodup_successes_of_run h
  dialed ha i := by
    rw [Launch.session, (legsAlong_of_run h).1 ha]
    exact mem_successes_iff
  undialed ha i f hf hd := by
    rw [Launch.session, (legsAlong_of_run h).1 ha]
    exact mt mem_successes_iff.mp (not_dialed_of_run h hf hd)

/-- Four feeds to dial. -/
def fourDials : Launch where
  key := Bytes.ofAscii "dGhlIHNhbXBsZSBub25jZQ=="
  targets := List.replicate 4 ⟨"Pod", "", ⟨some "ws", some "127.0.0.1:8001", "/api/v1/pods", none⟩⟩
  headers := .empty
  grants := 4

/-- A failure, the first success, and one of each behind the answer. -/
def lateDials : List Event :=
  [.dialed 2 false, .dialed 1 true, .upgraded true, .dialed 0 false, .dialed 3 true]

/-- The session then. -/
def lateDialed : Session where
  feeds := [⟨.refused, [], none⟩, ⟨.relaying, [], none⟩, ⟨.refused, [], none⟩,
    ⟨.relaying, [], none⟩]
  queue := []
  capacity := 4
  writing := none
  delivered := []
  phase := .running
  tally := ⟨1, 1, 2, 2, 0⟩

/-- The second feed answers the client, and the fourth joins it. -/
theorem lateDials_tolerated :
    (fourDials.session 1).run lateDials = some lateDialed ∧ Ends (fun i => i % 2 = 1) lateDials ∧
      (∀ given, Answered (fourDials.session 1) fourDials.key given lateDials
        (switching fourDials.key (given 1))) ∧
      legsAlong (fourDials.session 1) lateDials = [1, 3] := by
  have hrun : (fourDials.session 1).run lateDials = some lateDialed := by decide +kernel
  have hends : Ends (fun i => i % 2 = 1) lateDials := by
    intro i b hi
    simp only [lateDials, List.mem_cons, Event.dialed.injEq, List.not_mem_nil] at hi
    rcases hi with ⟨rfl, rfl⟩ | ⟨rfl, rfl⟩ | hi | ⟨rfl, rfl⟩ | ⟨rfl, rfl⟩ | hi
    all_goals first | rfl | cases hi
  have htolerated := fun given =>
    dials_tolerated fourDials 1 (fun i => i % 2 = 1) given lateDials lateDialed hrun hends
  exact ⟨hrun, hends, fun given => ((htolerated given).answered _).mpr (.inl ⟨1, rfl, rfl⟩),
    (htolerated fun _ => .empty).legs rfl⟩

end Session

end WatchGate.Multiwatch
