import Mathlib.Algebra.Ring.Nat
import WatchGate.Probe.Machine

/-!
# WatchGate — the moves of a run of probes

`Probe.step` takes an event and says whether it may happen. `Move` says the
same the other way round: one constructor for each event, with the condition
under which it happens and the state that it leaves. Every invariant of a run
is proved by cases on `Move`, so that `step` is opened here and nowhere else.

A task changes at its place in the list or leaves the list there. What a run
keeps is mostly a sum over its tasks, so `total` and its two equations
`total_set` and `total_eraseIdx` are what the invariants are computed with.

Main results:

* `step_eq_some_iff` — `step` and `Move` agree.
* `Reachable.invariant` — what holds at first and is kept by every move holds
  in every reachable state.
* `Reachable.closed` — a root without a sender has handed out its questions,
  and a finished run has nothing left in it.
-/

namespace WatchGate.Probe

variable {s : Setting} {qs : List Question} {st st' : State} {e : Event}

-- ---------------------------------------------------------------------------
-- Moves
-- ---------------------------------------------------------------------------

/-- The place of the task that makes a move; the root's own moves have none. -/
def Event.place? : Event → Option Nat
  | .ask i | .settle i | .record i | .send i | .spread i | .retire i => some i
  | .start | .close | .collect | .finish => none

/-- What may happen in a state, and the state that it leads to. -/
inductive Move (s : Setting) (st : State) : Event → State → Prop
  | start {q rest} (hr : st.roots = q :: rest) (ho : st.rootSender = true) :
      Move s st .start { st with roots := rest, tasks := st.tasks ++ [⟨q, .waiting⟩] }
  | close (hr : st.roots = []) (ho : st.rootSender = true) :
      Move s st .close { st with rootSender := false }
  | ask {i q} (ht : st.tasks[i]? = some ⟨q, .waiting⟩) (hp : st.hasPermit = true) :
      Move s st (.ask i) { st with
        permits := st.permits.map (· - 1)
        tasks := st.tasks.set i ⟨q, .asking⟩
        asked := st.asked ++ [q] }
  | settle {i q} (ht : st.tasks[i]? = some ⟨q, .asking⟩) :
      Move s st (.settle i) { st with
        permits := st.permits.map (· + 1)
        tasks := st.tasks.set i ⟨q, .settled (s.outcome q)⟩ }
  | record {i q o} (ht : st.tasks[i]? = some ⟨q, .settled o⟩) :
      Move s st (.record i) { st with
        tasks := st.tasks.set i ⟨q, afterRecord s q o⟩
        tally := st.tally.recordQuestion q o }
  | send {i q} (ht : st.tasks[i]? = some ⟨q, .granting⟩) :
      Move s st (.send i) { st with
        tasks := st.tasks.set i ⟨q, .ending⟩
        channel := st.channel ++ [q.grant] }
  | spread {i q c owed} (ht : st.tasks[i]? = some ⟨q, .spreading (c :: owed)⟩) :
      Move s st (.spread i) { st with
        tasks := st.tasks.set i ⟨q, .spreading owed⟩ ++ [⟨c, .waiting⟩] }
  | retire {i t} (ht : st.tasks[i]? = some t)
      (hp : t.phase = .ending ∨ t.phase = .spreading []) :
      Move s st (.retire i) { st with tasks := st.tasks.eraseIdx i }
  | collect {g rest} (hc : st.channel = g :: rest) (hf : st.finished = false) :
      Move s st .collect { st with channel := rest, grants := st.grants ++ [g] }
  | finish (hc : st.channel = []) (ht : st.tasks = []) (ho : st.rootSender = false)
      (hf : st.finished = false) :
      Move s st .finish { st with finished := true }

theorem move_of_step (h : step s st e = some st') : Move s st e st' := by
  cases e with
  | start =>
    cases hr : st.roots with
    | nil => simp [step, hr] at h
    | cons q rest =>
      simp only [step, hr] at h
      split at h
      · next ho => cases h; exact .start hr ho
      · cases h
  | close =>
    simp only [step, List.isEmpty_iff] at h
    split at h
    · next hc => cases h; exact .close hc.1 hc.2
    · cases h
  | ask i =>
    cases ht : st.tasks[i]? with
    | none => simp [step, ht] at h
    | some t =>
      obtain ⟨q, p⟩ := t
      simp only [step, ht] at h
      split at h
      · next hc =>
        obtain ⟨hw, hp⟩ := hc
        cases hw
        cases h
        exact .ask ht hp
      · cases h
  | settle i =>
    cases ht : st.tasks[i]? with
    | none => simp [step, ht] at h
    | some t =>
      obtain ⟨q, p⟩ := t
      simp only [step, ht] at h
      split at h
      · next hw => cases hw; cases h; exact .settle ht
      · cases h
  | record i =>
    cases ht : st.tasks[i]? with
    | none => simp [step, ht] at h
    | some t =>
      obtain ⟨q, p⟩ := t
      cases p <;> simp [step, ht] at h
      subst h
      exact .record ht
  | send i =>
    cases ht : st.tasks[i]? with
    | none => simp [step, ht] at h
    | some t =>
      obtain ⟨q, p⟩ := t
      simp only [step, ht] at h
      split at h
      · next hw => cases hw; cases h; exact .send ht
      · cases h
  | spread i =>
    cases ht : st.tasks[i]? with
    | none => simp [step, ht] at h
    | some t =>
      obtain ⟨q, p⟩ := t
      cases p with
      | spreading owed =>
        cases owed with
        | nil => simp [step, ht] at h
        | cons c owed =>
          simp only [step, ht, Option.some.injEq] at h
          subst h
          exact .spread ht
      | _ => simp [step, ht] at h
  | retire i =>
    cases ht : st.tasks[i]? with
    | none => simp [step, ht] at h
    | some t =>
      simp only [step, ht] at h
      split at h
      · next hw => cases h; exact .retire ht hw
      · cases h
  | collect =>
    cases hc : st.channel with
    | nil => simp [step, hc] at h
    | cons g rest =>
      simp only [step, hc] at h
      split at h
      · cases h
      · next hf => cases h; exact .collect hc (by simpa using hf)
  | finish =>
    simp only [step, List.isEmpty_iff] at h
    split at h
    · next hc =>
      obtain ⟨hch, hs, hf⟩ := hc
      cases h
      unfold State.senders at hs
      have ht : st.tasks = [] := List.length_eq_zero_iff.mp (by omega)
      have ho : st.rootSender = false := by
        cases hb : st.rootSender with
        | false => rfl
        | true => simp [hb] at hs
      exact .finish hch ht ho hf
    · cases h

theorem step_of_move (h : Move s st e st') : step s st e = some st' := by
  cases h with
  | start hr ho => simp [step, hr, ho]
  | close hr ho => simp [step, hr, ho]
  | ask ht hp => simp [step, ht, hp, State.takePermit, State.setPhase]
  | settle ht => simp [step, ht, State.givePermit, State.setPhase]
  | record ht => simp [step, ht, State.setPhase]
  | send ht => simp [step, ht, State.setPhase]
  | spread ht => simp [step, ht, State.setPhase]
  | retire ht hp => simp [step, ht, hp]
  | collect hc hf => simp [step, hc, hf]
  | finish hc ht ho hf => simp [step, hc, ht, ho, hf, State.senders]

/-- An event leads from one state to another exactly when it is a move between them. -/
theorem step_eq_some_iff : step s st e = some st' ↔ Move s st e st' :=
  ⟨move_of_step, step_of_move⟩

/-- What holds at first and is kept by every move holds in every reachable state. -/
theorem Reachable.invariant {P : State → Prop} (h0 : P (.initial s qs))
    (hm : ∀ st e st', P st → Move s st e st' → P st') (h : Reachable s qs st) : P st :=
  h.induction h0 fun st e st' hp he => hm st e st' hp (move_of_step he)

theorem Reachable.move (h : Reachable s qs st) (hm : Move s st e st') : Reachable s qs st' :=
  h.step (step_of_move hm)

/-- A schedule can go on from where another one led. -/
theorem Reachable.extend {es : List Event} (h : Reachable s qs st)
    (hr : run s st es = some st') : Reachable s qs st' := by
  obtain ⟨before, hb⟩ := h
  refine ⟨before ++ es, ?_⟩
  rw [run_append, hb]
  exact hr

-- ---------------------------------------------------------------------------
-- Sums over tasks
-- ---------------------------------------------------------------------------

/-- A number for each task, summed. -/
def total (f : Task → Nat) (ts : List Task) : Nat := (ts.map f).sum

section Total

variable {f : Task → Nat} {ts : List Task} {i : Nat} {t t' : Task}

@[simp] theorem total_nil : total f [] = 0 := rfl

@[simp] theorem total_cons : total f (t :: ts) = f t + total f ts := by
  simp [total]

@[simp] theorem total_append {us : List Task} :
    total f (ts ++ us) = total f ts + total f us := by
  simp [total]

/-- A task that changes takes its old share out of the sum and brings its new one. -/
theorem total_set (h : ts[i]? = some t) (t' : Task) :
    total f (ts.set i t') + f t = total f ts + f t' := by
  induction ts generalizing i with
  | nil => simp at h
  | cons u us ih =>
    cases i with
    | zero =>
      simp only [List.getElem?_cons_zero, Option.some.injEq] at h
      subst h
      simp only [List.set_cons_zero, total_cons]
      omega
    | succ i =>
      have := ih (i := i) (by simpa using h)
      simp only [List.set_cons_succ, total_cons]
      omega

theorem total_set_of_eq (h : ts[i]? = some t) (t' : Task) (hf : f t' = f t) :
    total f (ts.set i t') = total f ts := by
  have hset := total_set (f := f) h t'
  rw [hf] at hset
  exact Nat.add_right_cancel hset

/-- A task that leaves takes its share out of the sum. -/
theorem total_eraseIdx (h : ts[i]? = some t) :
    total f (ts.eraseIdx i) + f t = total f ts := by
  induction ts generalizing i with
  | nil => simp at h
  | cons u us ih =>
    cases i with
    | zero =>
      simp only [List.getElem?_cons_zero, Option.some.injEq] at h
      subst h
      simp only [List.eraseIdx_cons_zero, total_cons]
      omega
    | succ i =>
      have := ih (i := i) (by simpa using h)
      simp only [List.eraseIdx_cons_succ, total_cons]
      omega

/-- Where a sum is positive, some task has a positive share. -/
theorem exists_of_total_pos (h : 0 < total f ts) :
    ∃ (i : Nat) (t : Task), ts[i]? = some t ∧ 0 < f t := by
  induction ts with
  | nil => simp at h
  | cons u us ih =>
    by_cases hu : 0 < f u
    · exact ⟨0, u, rfl, hu⟩
    · obtain ⟨i, t, ht, hp⟩ := ih (by rw [total_cons] at h; omega)
      exact ⟨i + 1, t, ht, hp⟩

end Total

-- ---------------------------------------------------------------------------
-- The ends of a run
-- ---------------------------------------------------------------------------

/-- The root gives up its sender only behind its last question, and a run is
finished only when nothing is left in it. -/
structure Closed (st : State) : Prop where
  roots : st.rootSender = false → st.roots = []
  sender : st.finished = true → st.rootSender = false
  tasks : st.finished = true → st.tasks = []
  channel : st.finished = true → st.channel = []

/-- While there is a task, the run is not finished. -/
theorem Closed.not_finished (hc : Closed st) {i : Nat} {t : Task} (ht : st.tasks[i]? = some t) :
    st.finished ≠ true := by
  intro hf
  rw [hc.tasks hf] at ht
  simp at ht

theorem Reachable.closed (h : Reachable s qs st) : Closed st := by
  refine h.invariant ⟨nofun, nofun, nofun, nofun⟩ ?_
  intro st e st' hc hm
  -- behind the end nothing moves: each move needs a sender, a task or a grant in the channel
  cases hm with
  | start hr ho =>
    have hf : st.finished ≠ true := fun hf => by simp [hc.sender hf] at ho
    exact ⟨fun h => by simp [ho] at h, hc.sender, fun h => absurd h hf, hc.channel⟩
  | close hr ho => exact ⟨fun _ => hr, fun _ => rfl, hc.tasks, hc.channel⟩
  | ask ht hp =>
    exact ⟨hc.roots, hc.sender, fun h => absurd h (hc.not_finished ht), hc.channel⟩
  | settle ht =>
    exact ⟨hc.roots, hc.sender, fun h => absurd h (hc.not_finished ht), hc.channel⟩
  | record ht =>
    exact ⟨hc.roots, hc.sender, fun h => absurd h (hc.not_finished ht), hc.channel⟩
  | send ht =>
    have hf := hc.not_finished ht
    exact ⟨hc.roots, hc.sender, fun h => absurd h hf, fun h => absurd h hf⟩
  | spread ht =>
    exact ⟨hc.roots, hc.sender, fun h => absurd h (hc.not_finished ht), hc.channel⟩
  | retire ht hp =>
    exact ⟨hc.roots, hc.sender, fun h => absurd h (hc.not_finished ht), hc.channel⟩
  | collect hg hf =>
    exact ⟨hc.roots, hc.sender, hc.tasks, fun h => by simp [hf] at h⟩
  | finish hch ht ho hf => exact ⟨hc.roots, fun _ => ho, fun _ => ht, fun _ => hch⟩

end WatchGate.Probe
