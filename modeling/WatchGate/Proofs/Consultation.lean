import WatchGate.Consultation
import WatchGate.Proofs.Permission
import WatchGate.Proofs.Probe.Termination

/-!
# WatchGate — when access cannot be answered

There are two reasons for an error: the name of a kind is empty, or the namespaces cannot
be listed. Where a consultation stands says how it came there (`Consultation.Sound`), so
that each reason can be read off the answer, and both come before any probe is started.
What the authorizer says is no reason. A question that fails or is not answered in time
grants nothing, and that is all.

Otherwise there is an answer, unless the probes go on for ever. That takes a namespace
without a name, in which a question that was denied for the whole cluster is put again as
it was (`Consultation.Recurs`).

Main results:

* `Consultation.Sound.turn` — what may happen at each stage.
* `Consultation.can_answer` — a consultation that does not recur can be led to its answer.
* `Access.consultations_answer` — which answers there are, and what they leave untouched.
* `unnamedAccess_unanswered` — where there is none.
-/

namespace WatchGate

open Probe

/-- Every namespace that is listed has a name. -/
def Access.Named (a : Access) : Prop :=
  ∀ namespaces, a.namespaces = .ok namespaces → ∀ n ∈ namespaces, n ≠ ""

namespace Consultation

variable {α : Type} {a : Access} {i : Identity} {x : Subject α} {k k' : Consultation α}
  {e : Event} {es es' : List Event}

-- ---------------------------------------------------------------------------
-- Stages
-- ---------------------------------------------------------------------------

/-- What holds at each stage. Nothing is asked or recorded before the probes. -/
inductive Sound (a : Access) (i : Identity) (x : Subject α) : Consultation α → Prop
  | begun : Sound a i x ⟨.begun, 0, [], .empty⟩
  | refused {e : Access.Error} (hx : x.objection = some e) :
      Sound a i x ⟨.answered (.error e), 0, [], .empty⟩
  | listing (hx : x.objection = none) : Sound a i x ⟨.listing, 1, [], .empty⟩
  | unlisted {cause : String} (hx : x.objection = none) (ha : a.namespaces = .error cause) :
      Sound a i x ⟨.answered (.error (.listing cause)), 1, [], .empty⟩
  | probing {namespaces : List String} {st : State} (hx : x.objection = none)
      (ha : a.namespaces = .ok namespaces)
      (hst : Probe.Reachable (a.setting i namespaces) x.questions st) :
      Sound a i x ⟨.probing namespaces st, 1, st.asked, st.tally⟩
  | answered {namespaces : List String} {st : State} (hx : x.objection = none)
      (ha : a.namespaces = .ok namespaces)
      (hst : Probe.Reachable (a.setting i namespaces) x.questions st)
      (hf : st.finished = true) :
      Sound a i x ⟨.answered (.ok (x.conclude st.grants)), 1, st.asked, st.tally⟩

/-- What may happen at each stage. -/
inductive Turn (a : Access) (i : Identity) (x : Subject α) :
    Consultation α → Event → Consultation α → Prop
  | refuse {e : Access.Error} (hx : x.objection = some e) :
      Turn a i x ⟨.begun, 0, [], .empty⟩ .consider ⟨.answered (.error e), 0, [], .empty⟩
  | list (hx : x.objection = none) :
      Turn a i x ⟨.begun, 0, [], .empty⟩ .consider ⟨.listing, 1, [], .empty⟩
  | fail {cause : String} (ha : a.namespaces = .error cause) :
      Turn a i x ⟨.listing, 1, [], .empty⟩ .listed
        ⟨.answered (.error (.listing cause)), 1, [], .empty⟩
  | put {namespaces : List String} (ha : a.namespaces = .ok namespaces) :
      Turn a i x ⟨.listing, 1, [], .empty⟩ .listed
        ⟨.probing namespaces (.initial (a.setting i namespaces) x.questions), 1, [], .empty⟩
  | probe {namespaces : List String} {st st' : State} {e : Probe.Event}
      (he : Probe.step (a.setting i namespaces) st e = some st') :
      Turn a i x ⟨.probing namespaces st, 1, st.asked, st.tally⟩ (.probe e)
        ⟨.probing namespaces st', 1, st'.asked, st'.tally⟩
  | conclude {namespaces : List String} {st : State} (hf : st.finished = true) :
      Turn a i x ⟨.probing namespaces st, 1, st.asked, st.tally⟩ .conclude
        ⟨.answered (.ok (x.conclude st.grants)), 1, st.asked, st.tally⟩

theorem Sound.turn (h : Sound a i x k) (he : Consultation.step a i x k e = some k') :
    Turn a i x k e k' := by
  cases h with
  | begun =>
    cases e with
    | consider =>
      simp only [Consultation.step] at he
      split at he
      · next hx =>
        cases he
        exact .refuse hx
      · next hx =>
        cases he
        exact .list hx
    | listed | probe _ | conclude => cases he
  | listing hx =>
    cases e with
    | listed =>
      simp only [Consultation.step] at he
      split at he
      · next ha =>
        cases he
        exact .fail ha
      · next ha =>
        cases he
        exact .put ha
    | consider | probe _ | conclude => cases he
  | probing hx ha hst =>
    cases e with
    | probe e =>
      obtain ⟨st', hst', rfl⟩ := Option.map_eq_some_iff.mp he
      exact .probe hst'
    | conclude =>
      simp only [Consultation.step] at he
      split at he
      · next hf =>
        cases he
        exact .conclude hf
      · cases he
    | consider | listed => cases he
  | refused | unlisted | answered =>
    cases e with
    | consider | listed | probe _ | conclude => cases he

theorem Turn.step (ht : Turn a i x k e k') : Consultation.step a i x k e = some k' := by
  cases ht with
  | refuse hx => simp only [Consultation.step, hx]
  | list hx => simp only [Consultation.step, hx]
  | fail ha => simp only [Consultation.step, ha]
  | put ha => simp only [Consultation.step, ha]
  | probe he => simp only [Consultation.step, he, Option.map_some]
  | conclude hf => simp only [Consultation.step, hf, if_true]

theorem Sound.along (h : Sound a i x k) (ht : Turn a i x k e k') : Sound a i x k' := by
  cases ht with
  | refuse hx => exact .refused hx
  | list hx => exact .listing hx
  | fail ha =>
    cases h with
    | listing hx => exact .unlisted hx ha
  | put ha =>
    cases h with
    | listing hx => exact .probing hx ha (.initial _ _)
  | probe he =>
    cases h with
    | probing hx ha hst => exact .probing hx ha (hst.step he)
  | conclude hf =>
    cases h with
    | probing hx ha hst => exact .answered hx ha hst hf

theorem Sound.step (h : Sound a i x k) (he : Consultation.step a i x k e = some k') :
    Sound a i x k' := h.along (h.turn he)

theorem Sound.run (h : Sound a i x k) (hr : run a i x k es = some k') : Sound a i x k' := by
  induction es generalizing k with
  | nil =>
    cases hr
    exact h
  | cons e es ih =>
    obtain ⟨k₁, he, hes⟩ := Option.bind_eq_some_iff.mp hr
    exact ih (h.step he) hes

theorem Reachable.sound (h : Reachable a i x k) : Sound a i x k := by
  obtain ⟨es, hes⟩ := h
  exact Sound.begun.run hes

theorem run_append (a : Access) (i : Identity) (x : Subject α) (k : Consultation α)
    (es es' : List Event) :
    Consultation.run a i x k (es ++ es') =
      (Consultation.run a i x k es).bind fun k => Consultation.run a i x k es' := by
  induction es generalizing k with
  | nil => rfl
  | cons e es ih =>
    simp only [List.cons_append, Consultation.run, Option.bind_assoc, ih]

-- ---------------------------------------------------------------------------
-- Answers
-- ---------------------------------------------------------------------------

/-- A consultation can be led to its answer. -/
def CanAnswer (a : Access) (i : Identity) (x : Subject α) (k : Consultation α) : Prop :=
  ∃ es k' r, Consultation.run a i x k es = some k' ∧ k'.stage = .answered r

theorem CanAnswer.of_run (h : CanAnswer a i x k') (hr : Consultation.run a i x k es = some k') :
    CanAnswer a i x k := by
  obtain ⟨es', k'', r, hes', hk⟩ := h
  refine ⟨es ++ es', k'', r, ?_, hk⟩
  rw [run_append, hr]
  exact hes'

theorem Turn.run (ht : Turn a i x k e k') : Consultation.run a i x k [e] = some k' := by
  rw [Consultation.run, ht.step]
  rfl

theorem CanAnswer.of_turn (h : CanAnswer a i x k') (ht : Turn a i x k e k') :
    CanAnswer a i x k := h.of_run ht.run

/-- What probes do, a consultation does that is at their stage. -/
theorem run_probes {namespaces : List String} {st st' : State} {es : List Probe.Event}
    (h : Probe.run (a.setting i namespaces) st es = some st') :
    Consultation.run a i x ⟨.probing namespaces st, 1, st.asked, st.tally⟩ (es.map .probe) =
      some ⟨.probing namespaces st', 1, st'.asked, st'.tally⟩ := by
  induction es generalizing st with
  | nil =>
    cases h
    rfl
  | cons e es ih =>
    obtain ⟨st₁, he, hes⟩ := Option.bind_eq_some_iff.mp h
    rw [List.map_cons, Consultation.run, (Turn.probe he).step]
    exact ih hes

/-- One of the questions is put again in a namespace without a name, and so on for ever. -/
def Recurs (a : Access) (i : Identity) (x : Subject α) : Prop :=
  x.objection = none ∧ ∃ namespaces, a.namespaces = .ok namespaces ∧
    (a.setting i namespaces).Recurs x.questions

theorem not_recurs_of_probed (hends : ¬ Recurs a i x) (hx : x.objection = none)
    {namespaces : List String} (ha : a.namespaces = .ok namespaces) :
    ¬ (a.setting i namespaces).Recurs x.questions := by
  intro hr
  exact hends ⟨hx, namespaces, ha, hr⟩

theorem can_answer (hends : ¬ Recurs a i x) (h : Sound a i x k) : CanAnswer a i x k := by
  -- from the last stage back to the first, since each is led on to the next
  have hanswered : ∀ {k : Consultation α} {r}, k.stage = .answered r → CanAnswer a i x k := by
    intro k r hk
    exact ⟨[], k, r, rfl, hk⟩
  have hprobing : ∀ {namespaces st}, x.objection = none → a.namespaces = .ok namespaces →
      Probe.Reachable (a.setting i namespaces) x.questions st →
      CanAnswer a i x ⟨.probing namespaces st, 1, st.asked, st.tally⟩ := by
    intro namespaces st hx ha hst
    obtain ⟨es, st', hes, hf⟩ := hst.exists_finish_of_not_recurs (not_recurs_of_probed hends hx ha)
    exact ((hanswered rfl).of_turn (.conclude hf)).of_run (run_probes hes)
  have hlisting : x.objection = none → CanAnswer a i x ⟨.listing, 1, [], .empty⟩ := by
    intro hx
    cases ha : a.namespaces with
    | error cause => exact (hanswered rfl).of_turn (.fail ha)
    | ok namespaces => exact (hprobing hx ha (.initial _ _)).of_turn (.put ha)
  cases h with
  | begun =>
    cases hx : x.objection with
    | some e => exact (hanswered rfl).of_turn (.refuse hx)
    | none => exact (hlisting hx).of_turn (.list hx)
  | listing hx => exact hlisting hx
  | probing hx ha hst => exact hprobing hx ha hst
  | refused | unlisted | answered => exact hanswered rfl

/-- What a stage may still take, if the probes may take as much as is said. -/
def rankOf (first : Nat) (rank : State → Nat) : Stage α → Nat
  | .begun => first + 3
  | .listing => first + 2
  | .probing _ st => rank st + 1
  | .answered _ => 0

/-- Each event takes something off. -/
theorem exists_rank (hends : ¬ Recurs a i x) :
    ∃ rank : Stage α → Nat, ∀ k e k', Sound a i x k →
      Consultation.step a i x k e = some k' → rank k'.stage < rank k.stage := by
  -- what is listed is the same whenever it is listed, so that one rank of probes is enough
  obtain ⟨first, rank, hrank⟩ : ∃ (first : Nat) (rank : State → Nat), x.objection = none →
      ∀ namespaces, a.namespaces = .ok namespaces →
        rank (.initial (a.setting i namespaces) x.questions) = first ∧
        ∀ st e st', Probe.Reachable (a.setting i namespaces) x.questions st →
          Probe.step (a.setting i namespaces) st e = some st' → rank st' < rank st := by
    cases hx : x.objection with
    | some e => exact ⟨0, fun _ => 0, nofun⟩
    | none =>
      cases ha : a.namespaces with
      | error cause => exact ⟨0, fun _ => 0, nofun⟩
      | ok listed =>
        obtain ⟨rank, hless⟩ := Setting.exists_rank (not_recurs_of_probed hends hx ha)
        refine ⟨rank (.initial (a.setting i listed) x.questions), rank, ?_⟩
        rintro - namespaces ⟨⟩
        exact ⟨rfl, hless⟩
  refine ⟨rankOf first rank, fun k e k' h he => ?_⟩
  cases h.turn he with
  | refuse hx => exact Nat.zero_lt_succ _
  | list hx => exact Nat.lt_succ_self _
  | fail ha => exact Nat.zero_lt_succ _
  | put ha =>
    cases h with
    | listing hx =>
      show rank _ + 1 < first + 2
      rw [(hrank hx _ ha).1]
      omega
  | probe hst' =>
    cases h with
    | probing hx ha hst => exact Nat.succ_lt_succ ((hrank hx _ ha).2 _ _ _ hst hst')
  | conclude hf => exact Nat.zero_lt_succ _

/-- No consultation goes on for ever. -/
theorem no_endless (hends : ¬ Recurs a i x) (states : Nat → Consultation α)
    (events : Nat → Event) (h0 : Sound a i x (states 0)) :
    ¬ ∀ n, Consultation.step a i x (states n) (events n) = some (states (n + 1)) := by
  intro hsteps
  obtain ⟨rank, hrank⟩ := exists_rank hends
  have hsound : ∀ n, Sound a i x (states n) := by
    intro n
    induction n with
    | zero => exact h0
    | succ n ih => exact ih.step (hsteps n)
  have hsinks : ∀ n, n + rank (states n).stage ≤ rank (states 0).stage := by
    intro n
    induction n with
    | zero => omega
    | succ n ih =>
      have hless := hrank _ _ _ (hsound n) (hsteps n)
      omega
  have hlast := hsinks (rank (states 0).stage + 1)
  omega

-- ---------------------------------------------------------------------------
-- Results
-- ---------------------------------------------------------------------------

/-- Which results there are, and when. -/
inductive Result (a : Access) (empty : Prop) : Except Access.Error α → Prop
  | emptyKind (h : empty) : Result a empty (.error .emptyKind)
  | listing {cause : String} (h : ¬ empty) (ha : a.namespaces = .error cause) :
      Result a empty (.error (.listing cause))
  | ok {namespaces : List String} {v : α} (h : ¬ empty) (ha : a.namespaces = .ok namespaces) :
      Result a empty (.ok v)

/-- A result tells the reason that it has, and has no other. -/
structure Explained (a : Access) (empty : Prop) (r : Except Access.Error α) : Prop where
  emptyKind : r = .error .emptyKind ↔ empty
  listing : ∀ cause, r = .error (.listing cause) ↔ ¬ empty ∧ a.namespaces = .error cause
  ok : (∃ v, r = .ok v) ↔ ¬ empty ∧ ∃ namespaces, a.namespaces = .ok namespaces

/-- A subject is refused for its kind, if for anything. -/
structure Refuses (x : Subject α) (empty : Prop) : Prop where
  refused : empty → x.objection = some .emptyKind
  taken : ¬ empty → x.objection = none

/-- The results of a subject are reached, whatever has happened, and one of them is given. -/
structure Reaches (a : Access) (i : Identity) (x : Subject α) (given : Access.Survey α) :
    Prop where
  reached : ∀ k, Reachable a i x k →
    ∃ es k' r, Consultation.run a i x k es = some k' ∧ k'.stage = .answered r
  ends : ∀ (states : Nat → Consultation α) (events : Nat → Event), states 0 = .initial →
    ¬ ∀ n, Consultation.step a i x (states n) (events n) = some (states (n + 1))
  given : ∃ r, given.answer? = some r

/-- No result of a subject is ever reached, although there is always more to do. -/
structure Unreached (a : Access) (i : Identity) (x : Subject α) (given : Access.Survey α) :
    Prop where
  unanswered : ∀ k r, Reachable a i x k → k.stage ≠ .answered r
  goes : ∀ k, Reachable a i x k → ∃ e k', Consultation.step a i x k e = some k'
  given : given.answer? = none

/-- The results of a subject, and what they leave untouched: where the kind is empty the
namespaces are not listed, and for an error nothing is asked and nothing recorded. The same
holds of the answer that is given, which is one of these results. -/
structure Answers (a : Access) (i : Identity) (x : Subject α) (empty : Prop)
    (given : Access.Survey α) : Prop where
  result : ∀ k r, Reachable a i x k → k.stage = .answered r → Explained a empty r
  unlisted : ∀ k, Reachable a i x k → empty → k.listings = 0
  untouched : ∀ k, Reachable a i x k → (empty ∨ ∃ cause, a.namespaces = .error cause) →
    k.asked = [] ∧ k.tally = .empty
  shown : ∀ r, given.answer? = some r → ∃ k, Reachable a i x k ∧ k.stage = .answered r ∧
    given.report.asked = k.asked ∧ given.report.tally = k.tally
  silent : (empty ∨ ∃ cause, a.namespaces = .error cause) → given.report = .empty
  /-- there is a result, unless questions are put for ever -/
  reached : ¬ Recurs a i x → Reaches a i x given
  unreached : Recurs a i x → Unreached a i x given

variable {empty : Prop} {r : Except Access.Error α}

theorem Result.explained (h : Result a empty r) : Explained a empty r := by
  cases h with
  | emptyKind he =>
    refine ⟨iff_of_true rfl he, fun cause => ?_, ?_⟩
    · exact iff_of_false nofun fun hno => hno.1 he
    · exact iff_of_false nofun fun hno => hno.1 he
  | listing he ha =>
    refine ⟨iff_of_false nofun he, fun cause => ?_, ?_⟩
    · rw [ha]
      simp [he]
    · rw [ha]
      exact iff_of_false nofun (by simp)
  | ok he ha =>
    refine ⟨iff_of_false nofun he, fun cause => ?_, ?_⟩
    · rw [ha]
      exact iff_of_false nofun (by simp)
    · exact iff_of_true ⟨_, rfl⟩ ⟨he, _, ha⟩

theorem Refuses.not_empty (hx : Refuses x empty) (hnone : x.objection = none) : ¬ empty := by
  intro he
  rw [hx.refused he] at hnone
  cases hnone

theorem Refuses.of_some (hx : Refuses x empty) {e : Access.Error} (hsome : x.objection = some e) :
    empty ∧ e = .emptyKind := by
  by_cases he : empty
  · rw [hx.refused he] at hsome
    cases hsome
    exact ⟨he, rfl⟩
  · rw [hx.taken he] at hsome
    cases hsome

theorem Sound.result (h : Sound a i x k) (hx : Refuses x empty) (hk : k.stage = .answered r) :
    Result a empty r := by
  cases h with
  | begun | listing | probing => cases hk
  | refused hsome =>
    cases hk
    obtain ⟨he, rfl⟩ := hx.of_some hsome
    exact .emptyKind he
  | unlisted hnone ha =>
    cases hk
    exact .listing (hx.not_empty hnone) ha
  | answered hnone ha =>
    cases hk
    exact .ok (hx.not_empty hnone) ha

/-- With probes there is neither reason. -/
theorem Refuses.not_probed (hx : Refuses x empty) (hnone : x.objection = none)
    {namespaces : List String} (ha : a.namespaces = .ok namespaces) :
    ¬ (empty ∨ ∃ cause, a.namespaces = .error cause) := by
  rintro (he | ⟨cause, hcause⟩)
  · exact hx.not_empty hnone he
  · rw [ha] at hcause
    cases hcause

theorem Sound.untouched (h : Sound a i x k) (hx : Refuses x empty)
    (hno : empty ∨ ∃ cause, a.namespaces = .error cause) : k.asked = [] ∧ k.tally = .empty := by
  cases h with
  | begun | refused | listing | unlisted => exact ⟨rfl, rfl⟩
  | probing hnone ha | answered hnone ha => exact absurd hno (hx.not_probed hnone ha)

theorem Sound.unlisted_of_empty (h : Sound a i x k) (hx : Refuses x empty) (he : empty) :
    k.listings = 0 := by
  cases h with
  | begun | refused => rfl
  | listing hnone | unlisted hnone | probing hnone | answered hnone =>
    exact absurd he (hx.not_empty hnone)

theorem Reachable.extend (h : Reachable a i x k) (hr : Consultation.run a i x k es = some k') :
    Reachable a i x k' := by
  obtain ⟨before, hb⟩ := h
  refine ⟨before ++ es, ?_⟩
  rw [run_append, hb]
  exact hr

theorem Reachable.turn (h : Reachable a i x k) (ht : Turn a i x k e k') : Reachable a i x k' :=
  h.extend ht.run

/-- The answer of the clock is that of a schedule. -/
theorem exists_of_answer? (hr : (a.answer i x).answer? = some r) :
    ∃ k, Reachable a i x k ∧ k.stage = .answered r ∧
      (a.answer i x).report.asked = k.asked ∧ (a.answer i x).report.tally = k.tally := by
  obtain ⟨hended, rfl⟩ := Access.Survey.answer?_eq_some_iff.mp hr
  have hbegun : Reachable a i x ⟨.begun, 0, [], .empty⟩ := ⟨[], rfl⟩
  unfold Access.answer at hended ⊢
  cases hx : x.objection with
  | some e => exact ⟨_, hbegun.turn (.refuse hx), rfl, rfl, rfl⟩
  | none =>
    have hlisting := hbegun.turn (.list hx)
    rw [hx] at hended
    simp only [Access.survey] at hended ⊢
    cases ha : a.namespaces with
    | error cause => exact ⟨_, hlisting.turn (.fail ha), rfl, rfl, rfl⟩
    | ok namespaces =>
      rw [ha] at hended
      obtain ⟨st, ⟨es, hes⟩, hf, hasked, hgrants, htally⟩ :=
        Setting.exists_finished_of_ended hended
      have hprobing := (hlisting.turn (.put ha)).extend (run_probes hes)
      refine ⟨_, hprobing.turn (.conclude hf), ?_, hasked.symm, htally.symm⟩
      rw [hgrants]

/-- The clock has an answer unless questions are put for ever. -/
theorem ended_iff (a : Access) (i : Identity) (x : Subject α) :
    (a.answer i x).report.ended = true ↔ ¬ Recurs a i x := by
  unfold Access.answer Recurs
  cases hx : x.objection with
  | some e => simp [Probe.Report.empty]
  | none =>
    simp only [Access.survey]
    cases ha : a.namespaces with
    | error cause => simp [Probe.Report.empty]
    | ok namespaces => simpa using (a.setting i namespaces).ended_iff x.questions

theorem reaches (hends : ¬ Recurs a i x) : Reaches a i x (a.answer i x) := by
  constructor
  case reached => exact fun k hk => can_answer hends hk.sound
  case ends =>
    intro states events h0
    refine no_endless hends states events ?_
    rw [h0]
    exact .begun
  case given =>
    have hended : (a.answer i x).report.ended = true := (ended_iff a i x).mpr hends
    exact ⟨_, Access.Survey.answer?_eq_some_iff.mpr ⟨hended, rfl⟩⟩

/-- A consultation that recurs is at a stage before its answer, and goes on from there. -/
theorem Sound.of_recurs (h : Sound a i x k) (hr : Recurs a i x) :
    (∀ r, k.stage ≠ .answered r) ∧ ∃ e k', Turn a i x k e k' := by
  obtain ⟨hx, listed, ha, hrecurs⟩ := hr
  cases h with
  | begun => exact ⟨nofun, _, _, .list hx⟩
  | refused hx' => cases hx.symm.trans hx'
  | listing => exact ⟨nofun, _, _, .put ha⟩
  | unlisted _ ha' => cases ha.symm.trans ha'
  | probing _ ha' hst =>
    cases ha.symm.trans ha'
    obtain ⟨e, st', he⟩ := hrecurs.exists_step hst
    exact ⟨nofun, _, _, .probe he⟩
  | answered _ ha' hst hf =>
    cases ha.symm.trans ha'
    exact absurd ((hrecurs.not_finished hst).symm.trans hf) Bool.false_ne_true

theorem unreached (hr : Recurs a i x) : Unreached a i x (a.answer i x) := by
  constructor
  case unanswered => exact fun k r hk => (hk.sound.of_recurs hr).1 r
  case goes =>
    intro k hk
    obtain ⟨e, k', ht⟩ := (hk.sound.of_recurs hr).2
    exact ⟨e, k', ht.step⟩
  case given => exact if_neg fun hended => (ended_iff a i x).mp hended hr

theorem answers (hx : Refuses x empty) : Answers a i x empty (a.answer i x) := by
  constructor
  case result => exact fun k r hk hr => (hk.sound.result hx hr).explained
  case unlisted => exact fun k hk => hk.sound.unlisted_of_empty hx
  case untouched => exact fun k hk => hk.sound.untouched hx
  case shown => exact fun r => exists_of_answer?
  case silent =>
    intro hno
    unfold Access.answer Access.survey
    split
    · rfl
    · next hnone =>
      split
      · rfl
      · next ha => exact absurd hno (hx.not_probed hnone ha)
  case reached => exact reaches
  case unreached => exact unreached

/-- A result that is reached, where there is no reason for an error, is given as it is. -/
theorem Answers.exists_ok {given : Access.Survey α} (h : Answers a i x empty given)
    (hreaches : Reaches a i x given) (hno : ¬ empty) {namespaces : List String}
    (ha : a.namespaces = .ok namespaces) :
    ∃ k v, Reachable a i x k ∧ k.stage = .answered (.ok v) ∧ given.answer? = some (.ok v) := by
  obtain ⟨r, hr⟩ := hreaches.given
  obtain ⟨k, hk, hstage, -⟩ := h.shown r hr
  obtain ⟨v, rfl⟩ := (h.result k r hk hstage).ok.mpr ⟨hno, _, ha⟩
  exact ⟨k, v, hk, hstage, hr⟩

/-- Where the namespaces have names, nothing recurs. -/
theorem not_recurs_of_named (h : a.Named) (i : Identity) (x : Subject α) : ¬ Recurs a i x := by
  rintro ⟨-, namespaces, ha, hn, -⟩
  exact h namespaces ha "" hn rfl

-- ---------------------------------------------------------------------------
-- Failures
-- ---------------------------------------------------------------------------

/-- Every question that is put about a caller comes to an error, or its answer is too late. -/
def Failing (a : Access) (i : Identity) : Prop :=
  ∀ q, (a.decide i q).verdict = .error ∨ a.limits.timeout < (a.decide i q).delay

theorem Failing.outcome (h : Failing a i) (namespaces : List String) (q : Question) :
    (a.setting i namespaces).outcome q = .failed := by
  have hlate : (a.setting i namespaces).late q = true ↔
      a.limits.timeout < (a.decide i q).delay := decide_eq_true_iff
  unfold Setting.outcome
  split
  · rfl
  · next hin =>
    have herror : ((a.setting i namespaces).decide q).verdict = .error :=
      (h q).resolve_right (mt hlate.mpr hin)
    rw [herror]

theorem Failing.not_recurs (h : Failing a i) (x : Subject α) : ¬ Recurs a i x := by
  rintro ⟨-, namespaces, -, -, q, -, -, hd⟩
  cases (h.outcome namespaces q).symm.trans hd

/-- Where every question fails, the answer is made of no grants. -/
theorem Failing.result (h : Failing a i) {v : α} (hk : Sound a i x k)
    (hr : k.stage = .answered (.ok v)) : v = x.conclude [] := by
  cases hk with
  | begun | listing | probing | refused | unlisted => cases hr
  | @answered namespaces st hx ha hst hf =>
    cases hr
    have hgrants := hst.grants_perm hf
    -- each grant is that of a question which was asked
    have hown : st.asked.flatMap (a.setting i namespaces).ownGrants = [] := by
      refine List.flatMap_eq_nil_iff.mpr fun q _ => ?_
      unfold Setting.ownGrants
      rw [h.outcome]
    rw [hown] at hgrants
    rw [hgrants.eq_nil]

end Consultation

open Consultation in
/--
**When access cannot be answered.** However the consultations about a caller go: the rights
on a resource are refused for an empty kind, exactly if the kind is empty, and then the
namespaces are not listed. Otherwise they come to an error of the listing exactly if the
namespaces cannot be listed, whatever namespace is asked about, and so does what may be
watched. In these cases nothing is put to the authorizer and nothing recorded.

In all other cases there is an answer if every namespace that is listed has a name. It is
reached from wherever a consultation stands, and none goes on for ever. If every question
fails or is answered too late, this is so whatever is listed, and the answer is that there
are no rights, and nothing to watch. Only a namespace without a name, together with a denial
for the whole cluster, leaves a consultation without an answer.
-/
theorem Access.consultations_answer (a : Access) (i : Identity) (kind ns name : String) :
    Answers a i (.rights a.catalog kind ns name) (kind = "") (a.rights kind ns name i) ∧
    Answers a i (.watches a.catalog) False (a.watches i) ∧
    (a.Named ∨ Failing a i →
      Reaches a i (.rights a.catalog kind ns name) (a.rights kind ns name i) ∧
      Reaches a i (.watches a.catalog) (a.watches i)) ∧
    (Failing a i →
      (∀ k v, Consultation.Reachable a i (.rights a.catalog kind ns name) k →
        k.stage = .answered (.ok v) → v = .nothing) ∧
      ∀ k v, Consultation.Reachable a i (.watches a.catalog) k →
        k.stage = .answered (.ok v) → v = .empty) := by
  rw [a.rights_eq_answer, a.watches_eq_answer]
  refine ⟨answers ?_, answers ⟨nofun, fun _ => rfl⟩, ?_, fun hfailing => ⟨?_, ?_⟩⟩
  · constructor
    case refused =>
      intro hempty
      exact if_pos (String.isEmpty_iff.mpr hempty)
    case taken =>
      intro hkind
      exact if_neg (mt String.isEmpty_iff.mp hkind)
  · rintro (hnamed | hfailing)
    · exact ⟨reaches (not_recurs_of_named hnamed i _), reaches (not_recurs_of_named hnamed i _)⟩
    · exact ⟨reaches (hfailing.not_recurs _), reaches (hfailing.not_recurs _)⟩
  · exact fun k v hk hv => hfailing.result hk.sound hv
  · exact fun k v hk hv => hfailing.result hk.sound hv

/-- Whoever asks there gets no answer in time. One of the namespaces has no name. -/
def silentAccess : Access :=
  ⟨podsAndDeployments, .ok ["team-a", ""], fun _ _ => ⟨.deny, 6⟩, ⟨5, some 1⟩⟩

/-- The same where all namespaces have names, and answers are in time. -/
def strictAccess : Access :=
  ⟨podsAndDeployments, .ok ["team-a"], fun _ _ => ⟨.deny, 5⟩, ⟨5, some 1⟩⟩

/-- The same where the namespaces cannot be listed. -/
def sealedAccess : Access := { silentAccess with namespaces := .error "timed out" }

/-- No rights and nothing to watch behind the timeouts, an answer to a caller who is denied
everything, and an error where nothing is listed, whether the namespaces are needed or not. -/
theorem silentAccess_answers :
    Consultation.Failing silentAccess ⟨"alice", []⟩ ∧
    (∃ k, Consultation.Reachable silentAccess ⟨"alice", []⟩
      (.rights podsAndDeployments "Pod" "" "") k ∧ k.stage = .answered (.ok .nothing)) ∧
    (∃ k, Consultation.Reachable silentAccess ⟨"alice", []⟩ (.watches podsAndDeployments) k ∧
      k.stage = .answered (.ok .empty)) ∧
    strictAccess.Named ∧ (∃ v, (strictAccess.watches ⟨"alice", []⟩).answer? = some (.ok v)) ∧
    ∃ k, Consultation.Reachable sealedAccess ⟨"alice", []⟩
      (.rights podsAndDeployments "Pod" "team-a" "") k ∧
      k.stage = .answered (.error (.listing "timed out")) ∧ k.asked = [] := by
  have hlate : 5 < 6 := by decide
  have hfailing : Consultation.Failing silentAccess ⟨"alice", []⟩ := fun _ => .inr hlate
  have hnamed : strictAccess.Named := by
    rintro namespaces ⟨⟩
    decide
  have hsealed : sealedAccess.Named := nofun
  obtain ⟨hrights, hwatches, hreaches, hnothing⟩ :=
    silentAccess.consultations_answer ⟨"alice", []⟩ "Pod" "" ""
  obtain ⟨hno, hempty⟩ := hnothing hfailing
  obtain ⟨hreached, hreached'⟩ := hreaches (.inr hfailing)
  obtain ⟨-, hstrict, hstrictly, -⟩ :=
    strictAccess.consultations_answer ⟨"alice", []⟩ "Pod" "" ""
  obtain ⟨hrefused, -, hreaches', -⟩ :=
    sealedAccess.consultations_answer ⟨"alice", []⟩ "Pod" "team-a" ""
  refine ⟨hfailing, ?_, ?_, hnamed, ?_, ?_⟩
  · obtain ⟨k, v, hk, hv, -⟩ := hrights.exists_ok hreached (by decide) rfl
    rw [hno k v hk hv] at hv
    exact ⟨k, hk, hv⟩
  · obtain ⟨k, v, hk, hv, -⟩ := hwatches.exists_ok hreached' not_false rfl
    rw [hempty k v hk hv] at hv
    exact ⟨k, hk, hv⟩
  · obtain ⟨k, v, -, -, hv⟩ := hstrict.exists_ok (hstrictly (.inl hnamed)).2 not_false rfl
    exact ⟨v, hv⟩
  · obtain ⟨r, hr⟩ := (hreaches' (.inl hsealed)).1.given
    obtain ⟨k, hk, hr, -⟩ := hrefused.shown r hr
    have hlisting := ((hrefused.result k _ hk hr).listing "timed out").mpr ⟨by decide, rfl⟩
    rw [hlisting] at hr
    exact ⟨k, hk, hr, (hrefused.untouched k hk (.inr ⟨_, rfl⟩)).1⟩

/-- The one namespace has no name there, and everything is denied at once. -/
def unnamedAccess : Access := ⟨podsAndDeployments, .ok [""], fun _ _ => ⟨.deny, 0⟩, ⟨5, none⟩⟩

/-- The kind is not empty there and the namespaces can be listed, and yet there is no answer,
neither on rights nor on what may be watched. -/
theorem unnamedAccess_unanswered :
    "Pod" ≠ "" ∧ unnamedAccess.namespaces = .ok [""] ∧
    (¬ ∃ k r, Consultation.Reachable unnamedAccess ⟨"alice", []⟩
      (.rights podsAndDeployments "Pod" "" "") k ∧ k.stage = .answered r) ∧
    ¬ ∃ k r, Consultation.Reachable unnamedAccess ⟨"alice", []⟩ (.watches podsAndDeployments) k ∧
      k.stage = .answered r := by
  have hrights : Consultation.Recurs unnamedAccess ⟨"alice", []⟩
      (.rights podsAndDeployments "Pod" "" "") :=
    ⟨rfl, [""], rfl, List.mem_singleton_self "", by decide⟩
  have hwatches : Consultation.Recurs unnamedAccess ⟨"alice", []⟩ (.watches podsAndDeployments) :=
    ⟨rfl, [""], rfl, List.mem_singleton_self "", by decide⟩
  refine ⟨by decide, rfl, ?_, ?_⟩
  · rintro ⟨k, r, hk, hr⟩
    exact (Consultation.unreached hrights).unanswered k r hk hr
  · rintro ⟨k, r, hk, hr⟩
    exact (Consultation.unreached hwatches).unanswered k r hk hr

end WatchGate
