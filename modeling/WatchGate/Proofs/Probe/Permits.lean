import WatchGate.Proofs.Probe.Barrier
import WatchGate.Proofs.Probe.Progress

/-!
# WatchGate — who holds the permits

The machine counts the permits that are free and says nothing about the others.
A `Ledger` is kept beside a schedule to say where these are. It goes by the count
alone: a permit that is missing behind a step went to the probe that made the
step, and one that is back came from it. Calls are followed on their own: a
question that is put begins a call, which is in flight until it is settled. No
step reads the ledger, and the ledger reads no phase.

`Booked` is the invariant: free permits and holders make up the limit, a probe
holds one permit while its question is with the authorizer and none in any other
phase, and the calls in flight are those of the holders, one each.

Main results:

* `Booked.move` — every move keeps the books.
* `passing_of_move` — a permit changes hands when a question is put and when it is
  settled, and at no other time.
* `calls_limited` — what this means for every schedule.
-/

namespace WatchGate.Probe

variable {s : Setting} {qs : List Question} {st st' : State} {e : Event} {c : Nat}

-- ---------------------------------------------------------------------------
-- The ledger
-- ---------------------------------------------------------------------------

/-- How many permits are free, where calls are limited. -/
def State.free (st : State) : Nat := st.permits.getD 0

/-- Who holds permits, and which calls are in flight. -/
structure Ledger where
  /-- the probes with permits, each as often as it has one -/
  holders : List Address
  /-- the calls in flight, each with the probe that made it -/
  calls : List (Address × Question)

namespace Ledger

/-- Before anything happened. -/
def empty : Ledger := ⟨[], []⟩

/-- Books the step of a probe. -/
def book (l : Ledger) (a : Address) (st st' : State) (e : Event) : Ledger where
  holders :=
    if st'.free < st.free then l.holders ++ [a]
    else if st.free < st'.free then l.holders.erase a
    else l.holders
  calls :=
    match e with
    | .settle _ => l.calls.filter (·.1 ≠ a)
    | _ => l.calls ++ (st'.asked.drop st.asked.length).map fun q => (a, q)

/-- Books a step, if it is a probe's. -/
def note (l : Ledger) (r : Register) (st st' : State) (e : Event) : Ledger :=
  match e.place?.bind fun i => r.live[i]? with
  | some a => l.book a st st' e
  | none => l

/-- The ledger of a schedule. -/
def along (s : Setting) (st : State) (r : Register) (l : Ledger) : List Event → Ledger
  | [] => l
  | e :: es =>
    match step s st e with
    | some st' => along s st' (r.note s st e) (l.note r st st' e) es
    | none => l

end Ledger

/-- The ledger of a schedule from the beginning. -/
def ledger (s : Setting) (qs : List Question) (es : List Event) : Ledger :=
  Ledger.empty.along s (.initial s qs) .empty es

theorem Ledger.along_concat {r : Register} {l : Ledger} {es : List Event} {st₁ : State}
    (hr : run s st es = some st₁) (he : step s st₁ e = some st') :
    l.along s st r (es ++ [e]) = (l.along s st r es).note (r.along s st es) st₁ st' e := by
  induction es generalizing st r l with
  | nil =>
    simp only [run, Option.some.injEq] at hr
    subst hr
    simp [Ledger.along, Register.along, he]
  | cons x xs ih =>
    simp only [run, Option.bind_eq_some_iff] at hr
    obtain ⟨st₂, hx, hxs⟩ := hr
    simp only [List.cons_append, Ledger.along, Register.along, hx]
    exact ih hxs

-- ---------------------------------------------------------------------------
-- The invariant
-- ---------------------------------------------------------------------------

/-- How a live probe stands in the ledger. -/
structure Holds (l : Ledger) (a : Address) (t : Task) : Prop where
  permits : l.holders.count a = t.held
  calls : ∀ q, (a, q) ∈ l.calls ↔ t = ⟨q, .asking⟩

/-- The ledger agrees with the state, under a limit. -/
structure Booked (c : Nat) (st : State) (r : Register) (l : Ledger) : Prop where
  balance : ∃ free, st.permits = some free ∧ free + l.holders.length = c
  tasks : ∀ (i : Nat) a t, r.live[i]? = some a → st.tasks[i]? = some t → Holds l a t
  live : ∀ a ∈ l.holders, a ∈ r.live
  calls : l.calls.map Prod.fst = l.holders

/-- How permits may change hands in a step. -/
inductive Passing (s : Setting) (st : State) (r : Register) (l : Ledger) :
    Event → State → Ledger → Prop
  /-- a probe that waits and holds nothing takes a permit and makes its call -/
  | taken {i a q next} (ha : r.live[i]? = some a) (ht : st.tasks[i]? = some ⟨q, .waiting⟩)
      (hnone : a ∉ l.holders) :
      Passing s st r l (.ask i) next ⟨l.holders ++ [a], l.calls ++ [(a, q)]⟩
  /-- the call of a holder is over, whatever came of it, and its permit is given back -/
  | returned {i a q next} (ha : r.live[i]? = some a) (ht : st.tasks[i]? = some ⟨q, .asking⟩)
      (hone : a ∈ l.holders) (hout : next.tasks[i]? = some ⟨q, .settled (s.outcome q)⟩) :
      Passing s st r l (.settle i) next ⟨l.holders.erase a, l.calls.filter (·.1 ≠ a)⟩
  /-- nothing changes hands -/
  | kept {e next} (hask : ∀ i, e ≠ .ask i) (hsettle : ∀ i, e ≠ .settle i)
      (hp : next.permits = st.permits) : Passing s st r l e next l

section Frame

variable {r : Register} {l : Ledger} {a : Address} {t t' : Task}

theorem held_of_ne (h : t.phase ≠ .asking) : t.held = 0 := by
  rw [Task.held, if_neg h]

theorem held_le_one (t : Task) : t.held ≤ 1 := by
  unfold Task.held
  split <;> omega

/-- A probe that has no permit may change, as long as it makes no call. -/
theorem Holds.idle (h : Holds l a t) (ht : t.phase ≠ .asking) (ht' : t'.phase ≠ .asking) :
    Holds l a t' := by
  refine ⟨?_, fun q => ?_⟩
  · rw [h.permits, held_of_ne ht, held_of_ne ht']
  · rw [h.calls]
    constructor
    · rintro rfl
      exact absurd rfl ht
    · rintro rfl
      exact absurd rfl ht'

theorem Holds.fresh (hcalls : l.calls.map Prod.fst = l.holders) (ha : a ∉ l.holders)
    (ht : t.phase ≠ .asking) : Holds l a t := by
  refine ⟨?_, fun q => ⟨fun hq => ?_, ?_⟩⟩
  · rw [held_of_ne ht]
    exact List.count_eq_zero.mpr ha
  · have hin : a ∈ l.calls.map Prod.fst := List.mem_map.mpr ⟨(a, q), hq, rfl⟩
    rw [hcalls] at hin
    exact absurd hin ha
  · rintro rfl
    exact absurd rfl ht

theorem Registered.of_getElem?_set (h : Registered s qs st r) {i j : Nat} {b : Address} {u : Task}
    (ha : r.live[i]? = some a) (hb : r.live[j]? = some b)
    (hu : (st.tasks.set i t')[j]? = some u) :
    (b = a ∧ u = t') ∨ (b ≠ a ∧ st.tasks[j]? = some u) := by
  rw [List.getElem?_set] at hu
  split at hu
  · next hij =>
    subst hij
    split at hu
    · exact Or.inl ⟨Option.some.inj (hb.symm.trans ha), (Option.some.inj hu).symm⟩
    · cases hu
  · next hij => exact Or.inr ⟨h.address_ne ha hb hij, hu⟩

theorem of_getElem?_concat {live : List Address} {tasks : List Task} {new b : Address}
    {u : Task} {j : Nat} (hlength : live.length = tasks.length)
    (hb : (live ++ [new])[j]? = some b) (hu : (tasks ++ [t])[j]? = some u) :
    (b = new ∧ u = t) ∨ (live[j]? = some b ∧ tasks[j]? = some u) := by
  rcases Nat.lt_or_ge j live.length with hj | hj
  · rw [List.getElem?_append_left hj] at hb
    rw [List.getElem?_append_left (by omega)] at hu
    exact Or.inr ⟨hb, hu⟩
  · rw [List.getElem?_append_right hj, List.getElem?_singleton] at hb
    rw [List.getElem?_append_right (by omega), List.getElem?_singleton] at hu
    split at hb
    · split at hu
      · exact Or.inl ⟨(Option.some.inj hb).symm, (Option.some.inj hu).symm⟩
      · cases hu
    · cases hb

end Frame

namespace Booked

variable {r : Register} {l : Ledger} {i : Nat} {a : Address} {t t' : Task}

theorem initial (hs : s.limits.slots = some c) : Booked c (.initial s qs) .empty .empty where
  balance := ⟨c, hs, rfl⟩
  tasks i a t h := by simp [Register.empty] at h
  live a h := absurd h List.not_mem_nil
  calls := rfl

/-- No probe holds two permits. -/
theorem nodup (h : Booked c st r l) (hr : Registered s qs st r) : l.holders.Nodup := by
  rw [List.nodup_iff_count_le_one]
  intro a
  by_cases ha : a ∈ l.holders
  · obtain ⟨i, hi⟩ := List.mem_iff_getElem?.mp (h.live a ha)
    have hlt := (List.getElem?_eq_some_iff.mp hi).1
    rw [hr.length] at hlt
    rw [(h.tasks i a _ hi (List.getElem?_eq_getElem hlt)).permits]
    exact held_le_one _
  · rw [List.count_eq_zero.mpr ha]
    omega

/-- A probe is a holder while its question is with the authorizer. -/
theorem mem_holders_iff (h : Booked c st r l) (ha : r.live[i]? = some a)
    (ht : st.tasks[i]? = some t) : a ∈ l.holders ↔ t.phase = .asking := by
  rw [← List.count_pos_iff, (h.tasks i a t ha ht).permits, Task.held]
  split
  · next hp => simp [hp]
  · next hp => simp [hp]

theorem idle (h : Booked c st r l) (hr : Registered s qs st r) (ha : r.live[i]? = some a)
    (ht : st.tasks[i]? = some t) (hp : t.phase ≠ .asking) (t' : Task) (hp' : t'.phase ≠ .asking)
    {j : Nat} {b : Address} {u : Task} (hb : r.live[j]? = some b)
    (hu : (st.tasks.set i t')[j]? = some u) : Holds l b u := by
  rcases hr.of_getElem?_set ha hb hu with ⟨rfl, rfl⟩ | ⟨-, hu⟩
  · exact (h.tasks i b t ha ht).idle hp hp'
  · exact h.tasks j b u hb hu

theorem take (h : Booked c st r l) (hr : Registered s qs st r) {q : Question}
    (ha : r.live[i]? = some a) (ht : st.tasks[i]? = some ⟨q, .waiting⟩)
    (hp : st.hasPermit = true) {asked : List Question} :
    Booked c { st with permits := st.permits.map (· - 1), tasks := st.tasks.set i ⟨q, .asking⟩, asked }
      r ⟨l.holders ++ [a], l.calls ++ [(a, q)]⟩ := by
  have hnone : a ∉ l.holders := by
    rw [h.mem_holders_iff ha ht]
    simp
  have hold := h.tasks i a _ ha ht
  constructor
  case balance =>
    obtain ⟨free, hfree, hsum⟩ := h.balance
    have hpos : 0 < free := by simpa [State.hasPermit, hfree] using hp
    refine ⟨free - 1, by simp [hfree], ?_⟩
    rw [List.length_append, List.length_singleton]
    omega
  case tasks =>
    intro j b u hb hu
    rcases hr.of_getElem?_set ha hb hu with ⟨rfl, rfl⟩ | ⟨hne, hu⟩
    · refine ⟨?_, fun x => ?_⟩
      · rw [List.count_append, List.count_eq_zero.mpr hnone, List.count_singleton_self]
        rfl
      · have hno : (b, x) ∉ l.calls := by
          rw [hold.calls]
          simp
        rw [List.mem_append, List.mem_singleton]
        simp [hno, eq_comm]
    · have hother := h.tasks j b u hb hu
      refine ⟨?_, fun x => ?_⟩
      · rw [List.count_append, hother.permits, List.count_eq_zero.mpr (by simpa using hne)]
        rfl
      · rw [List.mem_append, hother.calls, List.mem_singleton, Prod.mk.injEq]
        exact or_iff_left fun hx => hne hx.1
  case live =>
    intro b hb
    rcases List.mem_append.mp hb with hb | hb
    · exact h.live b hb
    · rw [List.mem_singleton.mp hb]
      exact List.mem_of_getElem? ha
  case calls => rw [List.map_append, h.calls, List.map_singleton]

theorem give (h : Booked c st r l) (hr : Registered s qs st r) {q : Question} {o : Outcome}
    (ha : r.live[i]? = some a) (ht : st.tasks[i]? = some ⟨q, .asking⟩) :
    Booked c { st with permits := st.permits.map (· + 1), tasks := st.tasks.set i ⟨q, .settled o⟩ }
      r ⟨l.holders.erase a, l.calls.filter (·.1 ≠ a)⟩ := by
  have hone : a ∈ l.holders := (h.mem_holders_iff ha ht).mpr rfl
  have hnodup := h.nodup hr
  have herase : l.holders.erase a = l.holders.filter (· ≠ a) := by
    rw [hnodup.erase_eq_filter]
    exact List.filter_congr fun b _ => Bool.eq_iff_iff.mpr (by simp)
  constructor
  case balance =>
    obtain ⟨free, hfree, hsum⟩ := h.balance
    have hlength := List.length_erase_of_mem hone
    have hpos := List.length_pos_of_mem hone
    exact ⟨free + 1, by simp [hfree], by dsimp only; omega⟩
  case tasks =>
    intro j b u hb hu
    rcases hr.of_getElem?_set ha hb hu with ⟨rfl, rfl⟩ | ⟨hne, hu⟩
    · refine ⟨?_, fun x => ?_⟩
      · rw [List.count_eq_zero.mpr (by simp [herase])]
        rfl
      · simp
    · have hother := h.tasks j b u hb hu
      refine ⟨?_, fun x => ?_⟩
      · rw [List.count_erase_of_ne hne, hother.permits]
      · rw [List.mem_filter, hother.calls]
        simp [hne]
  case live =>
    intro b hb
    exact h.live b (List.mem_of_mem_erase hb)
  case calls =>
    rw [herase, ← h.calls, List.filter_map]
    rfl

end Booked

-- ---------------------------------------------------------------------------
-- Moves
-- ---------------------------------------------------------------------------

section Moves

variable {r : Register} {l : Ledger} {i : Nat} {a : Address} {q : Question}

/-- Nothing is booked where no permit is passed and no question is put or settled. -/
theorem Ledger.note_eq_self (hsettle : ∀ i, e ≠ .settle i) (hp : st'.permits = st.permits)
    (hasked : st'.asked = st.asked) : l.note r st st' e = l := by
  have hfree : st'.free = st.free := by
    unfold State.free
    rw [hp]
  have hbook : ∀ a, l.book a st st' e = l := by
    intro a
    have hcalls : (l.book a st st' e).calls = l.calls := by
      cases e with
      | settle i => exact absurd rfl (hsettle i)
      | _ => simp [Ledger.book, hasked]
    have hholders : (l.book a st st' e).holders = l.holders := by
      show (if st'.free < st.free then _ else if st.free < st'.free then _ else l.holders) = _
      rw [hfree, if_neg (Nat.lt_irrefl _), if_neg (Nat.lt_irrefl _)]
    show (⟨(l.book a st st' e).holders, (l.book a st st' e).calls⟩ : Ledger) = l
    rw [hholders, hcalls]
  unfold Ledger.note
  split
  · exact hbook _
  · rfl

theorem Booked.note_ask (h : Booked c st r l) (ha : r.live[i]? = some a)
    (hp : st.hasPermit = true) {tasks : List Task} :
    l.note r st { st with permits := st.permits.map (· - 1), tasks, asked := st.asked ++ [q] }
      (.ask i) = ⟨l.holders ++ [a], l.calls ++ [(a, q)]⟩ := by
  obtain ⟨free, hfree, -⟩ := h.balance
  have hpos : 0 < free := by simpa [State.hasPermit, hfree] using hp
  have hless : free - 1 < free := by omega
  simp [Ledger.note, Ledger.book, Event.place?, ha, State.free, hfree, hless]

theorem Booked.note_settle (h : Booked c st r l) (ha : r.live[i]? = some a) {tasks : List Task} :
    l.note r st { st with permits := st.permits.map (· + 1), tasks } (.settle i) =
      ⟨l.holders.erase a, l.calls.filter (·.1 ≠ a)⟩ := by
  obtain ⟨free, hfree, -⟩ := h.balance
  have hless : ¬ free + 1 < free := by omega
  simp [Ledger.note, Ledger.book, Event.place?, ha, State.free, hfree, hless]

/-- A step that passes no permit keeps the books if every probe stands as well as before. -/
theorem Booked.keep {r' : Register} (h : Booked c st r l) (hsettle : ∀ i, e ≠ .settle i)
    (hp : st'.permits = st.permits) (hasked : st'.asked = st.asked)
    (htasks : ∀ (j : Nat) b u, r'.live[j]? = some b → st'.tasks[j]? = some u → Holds l b u)
    (hlive : ∀ b ∈ l.holders, b ∈ r'.live) : Booked c st' r' (l.note r st st' e) := by
  obtain ⟨free, hfree, hsum⟩ := h.balance
  rw [Ledger.note_eq_self hsettle hp hasked]
  exact ⟨⟨free, hp.trans hfree, hsum⟩, htasks, hlive, h.calls⟩

/-- A probe that joins has no permit, and nobody had its address before. -/
theorem Booked.join {r' : Register} {new : Address} {tasks : List Task} (h : Booked c st r l)
    (hr' : Registered s qs st' r') (hsettle : ∀ i, e ≠ .settle i)
    (hp : st'.permits = st.permits) (hasked : st'.asked = st.asked)
    (hlive : r'.live = r.live ++ [new]) (hjoin : st'.tasks = tasks ++ [⟨q, .waiting⟩])
    (htasks : ∀ (j : Nat) b u, r.live[j]? = some b → tasks[j]? = some u → Holds l b u) :
    Booked c st' r' (l.note r st st' e) := by
  have hnodup := hr'.nodup_live
  rw [hlive] at hnodup
  have hnew : new ∉ l.holders := by
    intro hm
    exact (List.nodup_append.mp hnodup).2.2 new (h.live new hm) new (List.mem_singleton_self _) rfl
  have hlength := hr'.length
  rw [hlive, hjoin, List.length_append, List.length_append] at hlength
  refine h.keep hsettle hp hasked (fun j b u hb hu => ?_) (fun b hb => ?_)
  · rw [hlive] at hb
    rw [hjoin] at hu
    rcases of_getElem?_concat (Nat.add_right_cancel hlength) hb hu with ⟨rfl, rfl⟩ | ⟨hb, hu⟩
    · exact .fresh h.calls hnew (by simp)
    · exact htasks j b u hb hu
  · rw [hlive]
    exact List.mem_append_left _ (h.live b hb)

theorem Register.live_note (hstart : e ≠ .start) (hspread : ∀ i, e ≠ .spread i)
    (hretire : ∀ i, e ≠ .retire i) : (r.note s st e).live = r.live := by
  cases e with
  | start => exact absurd rfl hstart
  | spread i => exact absurd rfl (hspread i)
  | retire i => exact absurd rfl (hretire i)
  | record i =>
    simp only [Register.note]
    split <;> rfl
  | send i =>
    simp only [Register.note]
    split <;> rfl
  | _ => rfl

theorem Booked.change {r' : Register} {t : Task} (h : Booked c st r l) (hr : Registered s qs st r)
    (ht : st.tasks[i]? = some t) (hne : t.phase ≠ .asking) (t' : Task) (hne' : t'.phase ≠ .asking)
    (hsettle : ∀ i, e ≠ .settle i) (hp : st'.permits = st.permits)
    (hasked : st'.asked = st.asked) (hset : st'.tasks = st.tasks.set i t')
    (hlive : r'.live = r.live) : Booked c st' r' (l.note r st st' e) := by
  obtain ⟨a, ha⟩ := hr.exists_address ht
  refine h.keep hsettle hp hasked (fun j b u hb hu => ?_) (fun b hb => ?_)
  · rw [hlive] at hb
    rw [hset] at hu
    exact h.idle hr ha ht hne t' hne' hb hu
  · rw [hlive]
    exact h.live b hb

/-- Every move keeps the books. -/
theorem Booked.move (h : Booked c st r l) (hr : Registered s qs st r) (hm : Move s st e st') :
    Booked c st' (r.note s st e) (l.note r st st' e) := by
  have hr' := hr.move hm
  cases hm with
  | start hro ho => exact h.join hr' (by simp) rfl rfl rfl rfl h.tasks
  | close hro ho => exact h.keep (by simp) rfl rfl h.tasks h.live
  | @ask i q ht hp =>
    obtain ⟨a, ha⟩ := hr.exists_address ht
    rw [h.note_ask ha hp]
    exact h.take hr ha ht hp
  | @settle i q ht =>
    obtain ⟨a, ha⟩ := hr.exists_address ht
    rw [h.note_settle ha]
    exact h.give hr ha ht
  | @record i q o ht =>
    have hphase : afterRecord s q o ≠ .asking := by
      intro hp
      have hheld := held_afterRecord s q o
      simp [Task.held, hp] at hheld
    exact h.change hr ht (by simp) ⟨q, afterRecord s q o⟩ hphase (by simp) rfl rfl rfl
      (Register.live_note (by simp) (by simp) (by simp))
  | @send i q ht =>
    exact h.change hr ht (by simp) ⟨q, .ending⟩ (by simp) (by simp) rfl rfl rfl
      (Register.live_note (by simp) (by simp) (by simp))
  | @spread i q c' owed ht =>
    obtain ⟨a, ha⟩ := hr.exists_address ht
    have hlive : (r.note s st (.spread i)).live =
        r.live ++ [Task.handed s ⟨q, .spreading (c' :: owed)⟩ :: a] := by
      simp [Register.note, ht, ha, Register.enter]
    exact h.join hr' (by simp) rfl rfl hlive rfl fun j b u hb hu =>
      h.idle hr ha ht (by simp) ⟨q, .spreading owed⟩ (by simp) hb hu
  | @retire i t ht hp =>
    obtain ⟨a, ha⟩ := hr.exists_address ht
    have hlive : (r.note s st (.retire i)).live = r.live.eraseIdx i := by
      simp [Register.note, ha]
    have hne : t.phase ≠ .asking := by
      rcases hp with hp | hp <;> rw [hp] <;> simp
    refine h.keep (by simp) rfl rfl (fun j b u hb hu => ?_) (fun b hb => ?_)
    · rw [hlive, List.getElem?_eraseIdx] at hb
      rw [List.getElem?_eraseIdx] at hu
      split at hb
      · next hj => exact h.tasks j b u hb (by simpa [hj] using hu)
      · next hj => exact h.tasks (j + 1) b u hb (by simpa [hj] using hu)
    · -- the one that leaves is no holder
      have hnone : a ∉ l.holders := fun hm => hne ((h.mem_holders_iff ha ht).mp hm)
      obtain ⟨j, hj⟩ := List.mem_iff_getElem?.mp (h.live b hb)
      rw [hlive]
      refine List.mem_eraseIdx_iff_getElem?.mpr ⟨j, ?_, hj⟩
      rintro rfl
      exact hnone (Option.some.inj (ha.symm.trans hj) ▸ hb)
  | collect hc hf => exact h.keep (by simp) rfl rfl h.tasks h.live
  | finish hc ht ho hf => exact h.keep (by simp) rfl rfl h.tasks h.live

/-- A permit changes hands when a question is put and when it is settled. -/
theorem passing_of_move (h : Booked c st r l) (hr : Registered s qs st r) (hm : Move s st e st') :
    Passing s st r l e st' (l.note r st st' e) := by
  have hkept : (∀ i, e ≠ .ask i) → (∀ i, e ≠ .settle i) → st'.permits = st.permits →
      st'.asked = st.asked → Passing s st r l e st' (l.note r st st' e) := by
    intro hask hsettle hp hasked
    rw [Ledger.note_eq_self hsettle hp hasked]
    exact .kept hask hsettle hp
  cases hm with
  | @ask i q ht hp =>
    obtain ⟨a, ha⟩ := hr.exists_address ht
    rw [h.note_ask ha hp]
    refine .taken ha ht ?_
    rw [h.mem_holders_iff ha ht]
    simp
  | @settle i q ht =>
    obtain ⟨a, ha⟩ := hr.exists_address ht
    have hlt := (List.getElem?_eq_some_iff.mp ht).1
    rw [h.note_settle ha]
    exact .returned ha ht ((h.mem_holders_iff ha ht).mpr rfl) (by simp [hlt])
  | _ => exact hkept (by simp) (by simp) rfl rfl

theorem Booked.along (h : Booked c st r l) (hr : Registered s qs st r) {es : List Event}
    (hrun : run s st es = some st') : Booked c st' (r.along s st es) (l.along s st r es) := by
  induction es generalizing st r l with
  | nil =>
    simp only [run, Option.some.injEq] at hrun
    subst hrun
    exact h
  | cons e es ih =>
    simp only [run, Option.bind_eq_some_iff] at hrun
    obtain ⟨st₁, he, hes⟩ := hrun
    have hm := move_of_step he
    have hrest := ih (h.move hr hm) (hr.move hm) hes
    simpa [Register.along, Ledger.along, he] using hrest

end Moves

-- ---------------------------------------------------------------------------
-- Schedules
-- ---------------------------------------------------------------------------

theorem Setting.outcome_eq_delay (s : Setting) (q : Question) : s.outcome q =
    if s.limits.timeout < (s.decide q).delay then .failed
    else match (s.decide q).verdict with
      | .allow => .allowed
      | .deny => .denied
      | .error => .failed := by
  cases hv : (s.decide q).verdict <;> simp [Setting.outcome, Setting.late, hv]

theorem slots_of_pos {l : Limits} (hc : 0 < c) (hl : l.permits = some c) : l.slots = some c := by
  unfold Limits.slots
  rw [hl]
  cases c with
  | zero => exact absurd hc (Nat.lt_irrefl 0)
  | succ n => rfl

/-- How permits and calls stand behind a schedule, under a limit. -/
structure Limited (s : Setting) (qs : List Question) (c : Nat) (es : List Event) (st : State)
    (r : Register) (l : Ledger) : Prop where
  /-- free permits and those that probes hold are as many as there are -/
  balance : ∃ free, st.permits = some free ∧ free + l.holders.length = c
  /-- no probe holds two -/
  single : l.holders.Nodup
  /-- a live probe holds one while its question is with the authorizer, and at no other time -/
  holding : ∀ (i : Nat) a t, r.live[i]? = some a → st.tasks[i]? = some t →
    (a ∈ l.holders ↔ t.phase = .asking)
  /-- a probe that has not begun or has ended holds none -/
  live : ∀ a ∈ l.holders, a ∈ r.live ∧ a ∉ r.ended
  /-- each call in flight is that of one holder -/
  calls : l.calls.map Prod.fst = l.holders
  /-- and about the question that this probe has put -/
  question : ∀ x ∈ l.calls, ∃ i : Nat, r.live[i]? = some x.1 ∧ st.tasks[i]? = some ⟨x.2, .asking⟩
  flight : l.calls.length ≤ c
  /-- a permit is taken when a question is put, given back when it is settled, and kept otherwise -/
  passing : ∀ e st', step s st e = some st' → Passing s st r l e st' (ledger s qs (es ++ [e]))
  /-- and it is settled whether it is allowed, denied, answered by an error or too late -/
  settles : ∀ (i : Nat) q, st.tasks[i]? = some ⟨q, .asking⟩ →
    ∃ st', step s st (.settle i) = some st' ∧ st'.tasks[i]? = some ⟨q, .settled
      (if s.limits.timeout < (s.decide q).delay then .failed
      else match (s.decide q).verdict with
        | .allow => .allowed
        | .deny => .denied
        | .error => .failed)⟩
  finished : st.finished = true → st.permits = some c ∧ l.holders = [] ∧ l.calls = []

/--
**Limit on calls.** Under a limit of one or more, for every list of questions and
of namespaces and every authorizer, after every schedule: permits that are free
and probes that hold one make up the limit; a probe holds one permit from the
step that puts its question to the step that settles it, whatever the answer is;
each call in flight is that of another holder, so there are no more calls than
the limit; and a finished run has all permits back.
-/
theorem calls_limited (s : Setting) (qs : List Question) (c : Nat) (hc : 0 < c)
    (hs : s.limits.permits = some c) (es : List Event) (st : State)
    (h : run s (.initial s qs) es = some st) :
    Limited s qs c es st (register s qs es) (ledger s qs es) := by
  have hr : Registered s qs st (register s qs es) := registered_of_run h
  have hb : Booked c st (register s qs es) (ledger s qs es) :=
    (Booked.initial (slots_of_pos hc hs)).along (registered_initial s qs) h
  have hlength : (ledger s qs es).calls.length = (ledger s qs es).holders.length := by
    rw [← hb.calls, List.length_map]
  obtain ⟨free, hfree, hsum⟩ := hb.balance
  refine ⟨⟨free, hfree, hsum⟩, hb.nodup hr, fun i a t ha ht => hb.mem_holders_iff ha ht,
    fun a ha => ⟨hb.live a ha, hr.not_ended_of_live (hb.live a ha)⟩, hb.calls, ?_, by omega, ?_, ?_,
    ?_⟩
  · rintro ⟨a, q⟩ hx
    have ha : a ∈ (ledger s qs es).holders := by
      rw [← hb.calls]
      exact List.mem_map_of_mem hx
    obtain ⟨i, hi⟩ := List.mem_iff_getElem?.mp (hb.live a ha)
    have hlt := (List.getElem?_eq_some_iff.mp hi).1
    rw [hr.length] at hlt
    have ht := List.getElem?_eq_getElem hlt
    exact ⟨i, hi, ht.trans (congrArg some (((hb.tasks i a _ hi ht).calls q).mp hx))⟩
  · intro e st' he
    have hconcat : ledger s qs (es ++ [e]) = (ledger s qs es).note (register s qs es) st st' e :=
      Ledger.along_concat h he
    rw [hconcat]
    exact passing_of_move hb hr (move_of_step he)
  · intro i q ht
    have hlt := (List.getElem?_eq_some_iff.mp ht).1
    refine ⟨_, step_of_move (.settle ht), ?_⟩
    have hset := List.getElem?_set_self (a := Task.mk q (.settled (s.outcome q))) hlt
    exact hset.trans (congrArg (fun o => some (Task.mk q (.settled o))) (s.outcome_eq_delay q))
  · intro hf
    have hnone : (ledger s qs es).holders = [] := by
      have hlive : (register s qs es).live = [] := by
        rw [← List.length_eq_zero_iff, hr.length, (Reachable.closed ⟨es, h⟩).tasks hf]
        rfl
      refine List.eq_nil_iff_forall_not_mem.mpr fun a ha => ?_
      have hin := hb.live a ha
      rw [hlive] at hin
      exact absurd hin List.not_mem_nil
    rw [hnone, List.length_nil, Nat.add_zero] at hsum
    refine ⟨hsum ▸ hfree, hnone, ?_⟩
    rw [← List.length_eq_zero_iff, hlength, hnone]
    rfl

/-- Of the two children, the second is the first to put its question. -/
def secondChild : List Event :=
  [.start, .close, .ask 0, .settle 0, .record 0, .spread 0, .spread 0, .ask 2]

/-- It holds the one permit then, and the first child waits. -/
theorem twoTeams_limited :
    0 < 1 ∧ twoTeams.limits.permits = some 1 ∧
    ∃ st, run twoTeams (.initial twoTeams [readSecrets]) secondChild = some st ∧
      (ledger twoTeams [readSecrets] secondChild).holders = [[1, 0]] ∧
      (ledger twoTeams [readSecrets] secondChild).calls.length ≤ 1 ∧ st.permits = some 0 := by
  have hsome : (run twoTeams (.initial twoTeams [readSecrets]) secondChild).isSome = true := by
    decide +kernel
  obtain ⟨st, hrun⟩ := Option.isSome_iff_exists.mp hsome
  have hlimited := calls_limited twoTeams [readSecrets] 1 Nat.one_pos rfl secondChild st hrun
  have hholders : (ledger twoTeams [readSecrets] secondChild).holders = [[1, 0]] := by
    decide +kernel
  obtain ⟨free, hfree, hsum⟩ := hlimited.balance
  rw [hholders, List.length_singleton] at hsum
  have hzero : free = 0 := by omega
  exact ⟨Nat.one_pos, rfl, st, hrun, hholders, hlimited.flight, hzero ▸ hfree⟩

end WatchGate.Probe
