import Mathlib.Data.List.Nodup
import WatchGate.Proofs.Probe.Balance

/-!
# WatchGate — the channel of grants closes behind the last probe

The root waits until the grant channel has no sender left. For that to be a
barrier, no sender may be missing while a probe is under way or still to come,
and how many will come is not known when the root begins to wait.

The probes that a run owes are described apart from any run: `Owed` gives each
of them an address, the place of its root question behind the places of the
namespaces that led to it. A `Register` is kept beside a schedule. It notes
which address a sender was handed out for, which address gave its sender up,
which outcomes were recorded and which grants were sent; no step reads it.
`Registered` is the invariant that ties the register to the state: each task has
an address of its own, and the children of a probe have a sender exactly as far
as the probe has handed its questions on.

Nothing is asked of the namespaces. If one without a name is listed, denials may
owe probes without end, and then the channel never closes.

Main results:

* `Registered.child_registered` — a child that a probe owes has its sender
  before the probe gives up its own.
* `Registered.ended_of_closed` — behind the last sender every probe that is owed,
  at any depth, has ended.
* `completion_barrier` — both for every schedule, and what they mean for the
  grants that are handed over.
-/

namespace WatchGate.Probe

variable {s : Setting} {qs : List Question} {st st' : State} {e : Event}

-- ---------------------------------------------------------------------------
-- The probes that a run owes
-- ---------------------------------------------------------------------------

/-- Where a probe stands among all probes of a run: the place of a namespace for
each fan-out that led to it, the last one first, and the place of its root
question at the end. -/
abbrev Address := List Nat

/-- The probes that a run owes, and their questions. -/
inductive Owed (s : Setting) (qs : List Question) : Address → Question → Prop
  | root {k : Nat} {q : Question} (hk : qs[k]? = some q) : Owed s qs [k] q
  | child {a : Address} {q : Question} {j : Nat} {n : String} (h : Owed s qs a q)
      (hd : s.outcome q = .denied) (hq : q.clusterWide = true)
      (hj : s.namespaces[j]? = some n) : Owed s qs (j :: a) (q.inNamespace n)

theorem Owed.ne_nil {a : Address} {q : Question} (h : Owed s qs a q) : a ≠ [] := by
  cases h <;> simp

/-- What a probe owes is numbered by the questions that follow from its own. -/
theorem owed_cons_iff {a : Address} {j : Nat} {c : Question} (ha : a ≠ []) :
    Owed s qs (j :: a) c ↔ ∃ q, Owed s qs a q ∧ (s.owes q)[j]? = some c := by
  constructor
  · intro h
    cases h with
    | root hk => exact absurd rfl ha
    | @child a q j n h hd hq hj =>
      refine ⟨q, h, ?_⟩
      simp [Setting.owes, Setting.children, hd, hq, hj]
  · rintro ⟨q, h, hj⟩
    unfold Setting.owes Setting.children at hj
    split at hj
    · next hd =>
      split at hj
      · next hq =>
        rw [List.getElem?_map, Option.map_eq_some_iff] at hj
        obtain ⟨n, hn, rfl⟩ := hj
        exact .child h hd hq hn
      · simp at hj
    · simp at hj

/-- An address belongs to one question. -/
theorem Owed.unique {a : Address} {q q' : Question} (h : Owed s qs a q) (h' : Owed s qs a q') :
    q = q' := by
  induction h generalizing q' with
  | root hk =>
    cases h' with
    | root hk' => exact Option.some.inj (hk.symm.trans hk')
    | child h'' _ _ _ => exact absurd rfl h''.ne_nil
  | child h hd hq hj ih =>
    cases h' with
    | root hk => exact absurd rfl h.ne_nil
    | child h'' _ _ hj' =>
      rw [ih h'']
      rw [hj] at hj'
      rw [Option.some.inj hj']

-- ---------------------------------------------------------------------------
-- The register
-- ---------------------------------------------------------------------------

/-- How many of its children a task has handed a sender. -/
def Task.handed (s : Setting) (t : Task) : Nat :=
  match t.phase with
  | .spreading owed => (s.owes t.question).length - owed.length
  | _ => 0

/-- What a probe came to. -/
structure Answered where
  address : Address
  question : Question
  outcome : Outcome

/-- What a schedule has done so far. -/
structure Register where
  /-- how many root questions have a probe -/
  roots : Nat
  /-- the addresses of the live probes, in the order of their tasks -/
  live : List Address
  /-- the addresses that a sender was handed out for -/
  registered : List Address
  /-- the addresses that gave their sender up -/
  ended : List Address
  /-- the outcomes that were recorded -/
  answers : List Answered
  /-- the grants that were sent -/
  sent : List Grant

namespace Register

/-- Before anything happened. -/
def empty : Register := ⟨0, [], [], [], [], []⟩

/-- A sender is handed out. -/
def enter (r : Register) (a : Address) : Register :=
  { r with live := r.live ++ [a], registered := r.registered ++ [a] }

/-- Notes what an event does in a state. -/
def note (s : Setting) (st : State) (r : Register) : Event → Register
  | .start => { r.enter [r.roots] with roots := r.roots + 1 }
  | .spread i =>
    match st.tasks[i]?, r.live[i]? with
    | some t, some a => r.enter (t.handed s :: a)
    | _, _ => r
  | .record i =>
    match st.tasks[i]?, r.live[i]? with
    | some ⟨q, .settled o⟩, some a => { r with answers := r.answers ++ [⟨a, q, o⟩] }
    | _, _ => r
  | .send i =>
    match st.tasks[i]? with
    | some t => { r with sent := r.sent ++ [t.question.grant] }
    | none => r
  | .retire i =>
    match r.live[i]? with
    | some a => { r with live := r.live.eraseIdx i, ended := r.ended ++ [a] }
    | none => r
  | _ => r

/-- The register of a schedule. -/
def along (s : Setting) (st : State) (r : Register) : List Event → Register
  | [] => r
  | e :: es =>
    match step s st e with
    | some st' => along s st' (r.note s st e) es
    | none => r

end Register

/-- The register of a schedule from the beginning. -/
def register (s : Setting) (qs : List Question) (es : List Event) : Register :=
  Register.empty.along s (.initial s qs) es

-- ---------------------------------------------------------------------------
-- The invariant
-- ---------------------------------------------------------------------------

/-- Whether the outcome of a task is recorded. -/
def Task.recorded (t : Task) : Bool :=
  match t.phase with
  | .waiting | .asking | .settled _ => false
  | .granting | .spreading _ | .ending => true

/-- What the phase of a task says of the outcome of its question. -/
def Task.Sound (s : Setting) (t : Task) : Prop :=
  match t.phase with
  | .waiting | .asking => True
  | .settled o => o = s.outcome t.question
  | .granting | .ending => s.owes t.question = []
  | .spreading owed => ∃ done, s.owes t.question = done ++ owed

/-- How often a question is with a task that has put it and recorded no outcome. -/
def Task.openCount (x : Question) (t : Task) : Nat :=
  match t.phase with
  | .asking | .settled _ => [t.question].count x
  | .waiting | .granting | .spreading _ | .ending => 0

/-- How a live probe stands in the register. -/
structure Live (s : Setting) (qs : List Question) (registered : List Address)
    (answers : List Answered) (a : Address) (t : Task) : Prop where
  owed : Owed s qs a t.question
  sound : t.Sound s
  children : ∀ j, j :: a ∈ registered ↔ j < t.handed s
  answered : t.recorded = true → ⟨a, t.question, s.outcome t.question⟩ ∈ answers
  unanswered : t.recorded = false → ∀ x ∈ answers, x.address ≠ a

/-- How a probe that ended stands in the register. -/
structure Ended (s : Setting) (qs : List Question) (registered : List Address)
    (answers : List Answered) (a : Address) (q : Question) : Prop where
  owed : Owed s qs a q
  children : ∀ j, j :: a ∈ registered ↔ j < (s.owes q).length
  answered : ⟨a, q, s.outcome q⟩ ∈ answers

/-- The register agrees with the state. -/
structure Registered (s : Setting) (qs : List Question) (st : State) (r : Register) : Prop where
  roots : st.roots = qs.drop r.roots
  roots_registered : ∀ k, [k] ∈ r.registered ↔ k < r.roots
  length : r.live.length = st.tasks.length
  live : ∀ (i : Nat) a t, r.live[i]? = some a → st.tasks[i]? = some t →
    Live s qs r.registered r.answers a t
  ended : ∀ a ∈ r.ended, ∃ q, Ended s qs r.registered r.answers a q
  perm : r.registered.Perm (r.ended ++ r.live)
  nodup : r.registered.Nodup
  parent : ∀ j a, a ≠ [] → j :: a ∈ r.registered → a ∈ r.registered
  answers : (r.answers.map Answered.address).Nodup
  answers_registered : ∀ x ∈ r.answers, x.address ∈ r.registered
  asked : ∀ x, st.asked.count x =
    (r.answers.map Answered.question).count x + total (Task.openCount x) st.tasks
  sent : st.grants ++ st.channel = r.sent

theorem registered_initial (s : Setting) (qs : List Question) :
    Registered s qs (.initial s qs) .empty where
  roots := rfl
  roots_registered k := by simp [Register.empty]
  length := rfl
  live i a t h := by simp [Register.empty] at h
  ended a h := by simp [Register.empty] at h
  perm := .refl _
  nodup := List.nodup_nil
  parent j a _ h := by simp [Register.empty] at h
  answers := List.nodup_nil
  answers_registered x h := by simp [Register.empty] at h
  asked x := by simp [State.initial, Register.empty]
  sent := rfl

section Frame

variable {reg : List Address} {answers : List Answered} {a c : Address} {t : Task} {q : Question}

/-- A sender for another's child changes nothing about a live probe. -/
theorem Live.enter (h : Live s qs reg answers a t) (hc : ∀ j, c ≠ j :: a) :
    Live s qs (reg ++ [c]) answers a t where
  owed := h.owed
  sound := h.sound
  children j := by simp [h.children, (hc j).symm]
  answered := h.answered
  unanswered := h.unanswered

/-- Nor does another's outcome. -/
theorem Live.answer (h : Live s qs reg answers a t) {x : Answered} (hx : x.address ≠ a) :
    Live s qs reg (answers ++ [x]) a t where
  owed := h.owed
  sound := h.sound
  children := h.children
  answered hr := List.mem_append_left _ (h.answered hr)
  unanswered hr y hy := by
    rcases List.mem_append.mp hy with hy | hy
    · exact h.unanswered hr y hy
    · rw [List.mem_singleton.mp hy]
      exact hx

/-- A recorded outcome is a sound ground for what the task does next. -/
theorem Live.afterRecord {o : Outcome} (h : Live s qs reg answers a ⟨q, .settled o⟩)
    (ho : o = s.outcome q) {answers' : List Answered}
    (hin : ⟨a, q, s.outcome q⟩ ∈ answers') :
    Live s qs reg answers' a ⟨q, afterRecord s q o⟩ := by
  have hnone : ∀ j, j :: a ∈ reg ↔ j < 0 := h.children
  have howes : s.owes q = if o = .denied then s.children q else [] := by
    rw [ho]
    rfl
  have hrecorded : ∀ p, Task.recorded ⟨q, p⟩ = true → Task.recorded ⟨q, p⟩ = false →
      ∀ x ∈ answers', x.address ≠ a := by
    intro p hp hf
    rw [hp] at hf
    cases hf
  cases o with
  | allowed =>
    exact ⟨h.owed, by simpa [Task.Sound, Probe.afterRecord] using howes, hnone, fun _ => hin,
      hrecorded _ rfl⟩
  | failed =>
    exact ⟨h.owed, by simpa [Task.Sound, Probe.afterRecord] using howes, hnone, fun _ => hin,
      hrecorded _ rfl⟩
  | denied =>
    rw [if_pos rfl] at howes
    cases hq : q.clusterWide with
    | true =>
      have hphase : Probe.afterRecord s q .denied = .spreading (s.children q) := by
        simp [Probe.afterRecord, hq]
      rw [hphase]
      refine ⟨h.owed, ⟨[], by simpa using howes⟩, fun j => ?_, fun _ => hin, hrecorded _ rfl⟩
      rw [hnone]
      simp [Task.handed, howes]
    | false =>
      have hphase : Probe.afterRecord s q .denied = .ending := by simp [Probe.afterRecord, hq]
      rw [hphase]
      exact ⟨h.owed, by simp [Task.Sound, howes, Setting.children_eq_nil hq], hnone,
        fun _ => hin, hrecorded _ rfl⟩

/-- A task that may end has handed a sender to every child that its probe owes. -/
theorem Live.ended (h : Live s qs reg answers a t)
    (hp : t.phase = .ending ∨ t.phase = .spreading []) :
    Ended s qs reg answers a t.question := by
  obtain ⟨q, p⟩ := t
  refine ⟨h.owed, fun j => ?_, h.answered ?_⟩
  · rw [h.children]
    rcases hp with hp | hp
    · cases hp
      have hnil : s.owes q = [] := h.sound
      simp [Task.handed, hnil]
    · cases hp
      simp [Task.handed]
  · rcases hp with hp | hp <;> cases hp <;> rfl

theorem Ended.enter (h : Ended s qs reg answers a q) (hc : ∀ j, c ≠ j :: a) :
    Ended s qs (reg ++ [c]) answers a q where
  owed := h.owed
  children j := by simp [h.children, (hc j).symm]
  answered := h.answered

theorem Ended.answer (h : Ended s qs reg answers a q) (x : Answered) :
    Ended s qs reg (answers ++ [x]) a q where
  owed := h.owed
  children := h.children
  answered := List.mem_append_left _ h.answered

end Frame

namespace Registered

variable {r : Register}

/-- Every task has an address. -/
theorem exists_address (h : Registered s qs st r) {i : Nat} {t : Task}
    (ht : st.tasks[i]? = some t) : ∃ a, r.live[i]? = some a := by
  obtain ⟨hi, -⟩ := List.getElem?_eq_some_iff.mp ht
  exact ⟨_, List.getElem?_eq_getElem (by rw [h.length]; exact hi)⟩

theorem mem_of_live (h : Registered s qs st r) {a : Address} (ha : a ∈ r.live) :
    a ∈ r.registered :=
  h.perm.mem_iff.mpr (List.mem_append_right _ ha)

theorem mem_of_ended (h : Registered s qs st r) {a : Address} (ha : a ∈ r.ended) :
    a ∈ r.registered :=
  h.perm.mem_iff.mpr (List.mem_append_left _ ha)

theorem nodup_live (h : Registered s qs st r) : r.live.Nodup :=
  (List.nodup_append.mp (h.perm.nodup_iff.mp h.nodup)).2.1

/-- No probe has ended and is live. -/
theorem not_ended_of_live (h : Registered s qs st r) {a : Address} (ha : a ∈ r.live) :
    a ∉ r.ended := by
  have hnd := h.perm.nodup_iff.mp h.nodup
  exact fun he => (List.nodup_append.mp hnd).2.2 a he a ha rfl

/-- Two tasks have two addresses. -/
theorem address_ne (h : Registered s qs st r) {i j : Nat} {a b : Address}
    (hi : r.live[i]? = some a) (hj : r.live[j]? = some b) (hne : i ≠ j) : b ≠ a := by
  rintro rfl
  obtain ⟨hil, hie⟩ := List.getElem?_eq_some_iff.mp hi
  obtain ⟨hjl, hje⟩ := List.getElem?_eq_some_iff.mp hj
  exact hne ((List.Nodup.getElem_inj_iff h.nodup_live).mp (hie.trans hje.symm))

/-- A task may change if it stands in the register as well as before. -/
theorem of_set (h : Registered s qs st r) {i : Nat} {t : Task} (ht : st.tasks[i]? = some t)
    (t' : Task) (hlive : ∀ a, Live s qs r.registered r.answers a t →
      Live s qs r.registered r.answers a t')
    {asked : List Question} (hasked : ∀ x, asked.count x + t.openCount x =
      st.asked.count x + t'.openCount x)
    {channel sent : List Grant} (hsent : st.grants ++ channel = sent) {permits : Option Nat} :
    Registered s qs { st with permits, asked, channel, tasks := st.tasks.set i t' }
      { r with sent } where
  roots := h.roots
  roots_registered := h.roots_registered
  length := by simpa using h.length
  live j b u hb hu := by
    rw [List.getElem?_set] at hu
    split at hu
    · next hij =>
      subst hij
      split at hu
      · obtain rfl := Option.some.inj hu
        exact hlive b (h.live i b t hb ht)
      · cases hu
    · exact h.live j b u hb hu
  ended := h.ended
  perm := h.perm
  nodup := h.nodup
  parent := h.parent
  answers := h.answers
  answers_registered := h.answers_registered
  asked x := by
    have hx := h.asked x
    have hset := total_set (f := Task.openCount x) ht t'
    have := hasked x
    dsimp only
    omega
  sent := hsent

/-- A question gets a probe, and its address a sender. -/
theorem enter (h : Registered s qs st r) {c : Address} {q : Question} {tasks : List Task}
    {roots : List Question} {k : Nat} (howed : Owed s qs c q) (hfresh : c ∉ r.registered)
    (hparent : ∀ j a, a ≠ [] → c = j :: a → a ∈ r.registered)
    (hroots : roots = qs.drop k) (hk : ∀ m, [m] ∈ r.registered ++ [c] ↔ m < k)
    (hlength : tasks.length = st.tasks.length)
    (hopen : ∀ x, total (Task.openCount x) tasks = total (Task.openCount x) st.tasks)
    (hlive : ∀ (i : Nat) a t, r.live[i]? = some a → tasks[i]? = some t →
      Live s qs (r.registered ++ [c]) r.answers a t)
    (hended : ∀ a ∈ r.ended, ∀ j, c ≠ j :: a) :
    Registered s qs { st with roots, tasks := tasks ++ [⟨q, .waiting⟩] }
      { r.enter c with roots := k } where
  roots := hroots
  roots_registered := hk
  length := by simp [Register.enter, h.length, hlength]
  live i a t ha ht := by
    simp only [Register.enter] at ha ⊢
    have hlen := h.length
    rcases Nat.lt_trichotomy i r.live.length with hi | hi | hi
    · rw [List.getElem?_append_left hi] at ha
      rw [List.getElem?_append_left (by omega)] at ht
      exact hlive i a t ha ht
    · -- the new probe: no child of it can be registered before it is
      rw [hi, List.getElem?_concat_length] at ha
      have hi' : i = tasks.length := by omega
      rw [hi', List.getElem?_concat_length] at ht
      obtain rfl := Option.some.inj ha
      obtain rfl := Option.some.inj ht
      refine ⟨howed, trivial, fun j => ?_, nofun, fun _ x hx hxa => ?_⟩
      · have hnone : j :: c ∉ r.registered := fun hj => hfresh (h.parent j c howed.ne_nil hj)
        simp [hnone, Task.handed]
      · exact hfresh (hxa ▸ h.answers_registered x hx)
    · rw [List.getElem?_eq_none (by simp; omega)] at ha
      cases ha
  ended a ha := by
    obtain ⟨q', hq'⟩ := h.ended a ha
    exact ⟨q', hq'.enter (hended a ha)⟩
  perm := by
    simp only [Register.enter]
    rw [← List.append_assoc]
    exact h.perm.append_right [c]
  nodup := by
    simp only [Register.enter]
    exact List.nodup_append.mpr ⟨h.nodup, List.nodup_singleton c,
      fun a ha b hb hab => hfresh (by rw [List.mem_singleton.mp hb] at hab; exact hab ▸ ha)⟩
  parent j a ha hm := by
    simp only [Register.enter, List.mem_append, List.mem_singleton] at hm ⊢
    rcases hm with hm | hm
    · exact Or.inl (h.parent j a ha hm)
    · exact Or.inl (hparent j a ha hm.symm)
  answers := h.answers
  answers_registered x hx := List.mem_append_left _ (h.answers_registered x hx)
  asked x := by
    have hnew : Task.openCount x ⟨q, .waiting⟩ = 0 := rfl
    rw [total_append, total_cons, total_nil, hopen, hnew]
    exact h.asked x
  sent := h.sent

theorem start (h : Registered s qs st r) {q : Question} {rest : List Question}
    (hr : st.roots = q :: rest) :
    Registered s qs { st with roots := rest, tasks := st.tasks ++ [⟨q, .waiting⟩] }
      { r.enter [r.roots] with roots := r.roots + 1 } := by
  have hdrop := h.roots
  rw [hr] at hdrop
  have hq : qs[r.roots]? = some q := by
    rw [← List.head?_drop, ← hdrop]
    rfl
  have hne : ∀ a ∈ r.registered, ∀ j, [r.roots] ≠ j :: a := by
    intro a ha j hj
    obtain ⟨rfl, rfl⟩ := List.cons.inj hj
    -- no probe stands above the root questions
    rcases List.mem_append.mp (h.perm.mem_iff.mp ha) with ha | ha
    · obtain ⟨q', hq'⟩ := h.ended _ ha
      exact hq'.owed.ne_nil rfl
    · obtain ⟨i, hi⟩ := List.mem_iff_getElem?.mp ha
      have hlt := (List.getElem?_eq_some_iff.mp hi).1
      rw [h.length] at hlt
      exact (h.live i _ _ hi (List.getElem?_eq_getElem hlt)).owed.ne_nil rfl
  refine h.enter (.root hq) (fun hm => ?_) (fun j a ha hc => ?_) ?_ (fun m => ?_) rfl
    (fun x => rfl) ?_ ?_
  · exact Nat.lt_irrefl _ ((h.roots_registered _).mp hm)
  · exact absurd (List.cons.inj hc).2.symm ha
  · rw [← List.tail_drop, ← hdrop]
    rfl
  · rw [List.mem_append, h.roots_registered, List.mem_singleton, List.cons.injEq]
    constructor
    · rintro (hm | ⟨rfl, -⟩) <;> omega
    · intro hm
      rcases Nat.lt_or_eq_of_le (Nat.le_of_lt_succ hm) with hm | rfl
      · exact Or.inl hm
      · exact Or.inr ⟨rfl, rfl⟩
  · intro i a t ha ht
    exact (h.live i a t ha ht).enter
      (hne a (h.mem_of_live (List.mem_of_getElem? ha)))
  · exact fun a ha => hne a (h.mem_of_ended ha)

theorem spread (h : Registered s qs st r) {i : Nat} {q c : Question} {owed : List Question}
    (ht : st.tasks[i]? = some ⟨q, .spreading (c :: owed)⟩) :
    Registered s qs
      { st with tasks := st.tasks.set i ⟨q, .spreading owed⟩ ++ [⟨c, .waiting⟩] }
      (r.note s st (.spread i)) := by
  obtain ⟨a, ha⟩ := h.exists_address ht
  have hl := h.live i a _ ha ht
  obtain ⟨done, hdone⟩ := hl.sound
  simp only at hdone
  have hmem := List.mem_of_getElem? ha
  -- the child is the one behind those that were handed on
  have hhanded : Task.handed s ⟨q, .spreading (c :: owed)⟩ = done.length := by
    simp [Task.handed, hdone]
  have hnote : r.note s st (.spread i) = r.enter (done.length :: a) := by
    simp [Register.note, ht, ha, hhanded]
  have hchild : (s.owes q)[done.length]? = some c := by simp [hdone]
  have howed : Owed s qs (done.length :: a) c :=
    (owed_cons_iff hl.owed.ne_nil).mpr ⟨q, hl.owed, hchild⟩
  have hother : ∀ b, b ≠ a → ∀ j, done.length :: a ≠ j :: b := by
    intro b hb j hj
    exact hb (List.cons.inj hj).2.symm
  rw [hnote]
  refine h.enter howed ?_ ?_ h.roots ?_ (List.length_set ..) ?_ ?_ ?_
  · rw [hl.children, hhanded]
    exact Nat.lt_irrefl _
  · intro j b hb hc
    rw [← (List.cons.inj hc).2]
    exact h.mem_of_live hmem
  · intro m
    have hroot : [m] ≠ done.length :: a := fun hm => hl.owed.ne_nil (List.cons.inj hm).2.symm
    rw [List.mem_append, h.roots_registered, List.mem_singleton]
    exact or_iff_left hroot
  · intro x
    exact total_set (f := Task.openCount x) ht ⟨q, .spreading owed⟩
  · intro j b u hb hu
    rw [List.getElem?_set] at hu
    split at hu
    · next hij =>
      subst hij
      split at hu
      · obtain rfl := Option.some.inj hu
        obtain rfl := Option.some.inj (ha.symm.trans hb)
        refine ⟨hl.owed, ⟨done ++ [c], by simp [hdone]⟩, fun j => ?_, hl.answered, nofun⟩
        rw [List.mem_append, hl.children, hhanded, List.mem_singleton, List.cons.injEq]
        simp only [Task.handed, hdone, List.length_append, List.length_cons, and_true]
        omega
      · cases hu
    · next hij =>
      exact (h.live j b u hb hu).enter (hother b (h.address_ne ha hb hij))
  · intro b hb
    refine hother b ?_
    rintro rfl
    exact h.not_ended_of_live hmem hb

theorem record (h : Registered s qs st r) {i : Nat} {q : Question} {o : Outcome}
    (ht : st.tasks[i]? = some ⟨q, .settled o⟩) {tally : Tally} :
    Registered s qs { st with tally, tasks := st.tasks.set i ⟨q, afterRecord s q o⟩ }
      (r.note s st (.record i)) := by
  obtain ⟨a, ha⟩ := h.exists_address ht
  have hl := h.live i a _ ha ht
  have ho : o = s.outcome q := hl.sound
  have hnote : r.note s st (.record i) = { r with answers := r.answers ++ [⟨a, q, o⟩] } := by
    simp [Register.note, ht, ha]
  rw [hnote]
  constructor
  case roots => exact h.roots
  case roots_registered => exact h.roots_registered
  case length => simpa using h.length
  case live =>
    intro j b u hb hu
    rw [List.getElem?_set] at hu
    split at hu
    · next hij =>
      subst hij
      split at hu
      · obtain rfl := Option.some.inj hu
        obtain rfl := Option.some.inj (ha.symm.trans hb)
        have hin : (⟨a, q, s.outcome q⟩ : Answered) ∈ r.answers ++ [⟨a, q, o⟩] := by
          rw [ho]
          exact List.mem_append_right _ (List.mem_singleton_self _)
        exact hl.afterRecord ho hin
      · cases hu
    · next hij => exact (h.live j b u hb hu).answer (h.address_ne hb ha (Ne.symm hij))
  case ended =>
    intro b hb
    obtain ⟨q', hq'⟩ := h.ended b hb
    exact ⟨q', hq'.answer _⟩
  case perm => exact h.perm
  case nodup => exact h.nodup
  case parent => exact h.parent
  case answers =>
    -- the task had no outcome before
    rw [List.map_append, List.map_singleton]
    refine List.nodup_append.mpr ⟨h.answers, List.nodup_singleton a, ?_⟩
    intro b hb c hc
    obtain ⟨x, hx, rfl⟩ := List.mem_map.mp hb
    rw [List.mem_singleton.mp hc]
    exact hl.unanswered rfl x hx
  case answers_registered =>
    intro x hx
    rcases List.mem_append.mp hx with hx | hx
    · exact h.answers_registered x hx
    · rw [List.mem_singleton.mp hx]
      exact h.mem_of_live (List.mem_of_getElem? ha)
  case asked =>
    -- from the task into the register
    intro x
    have hx := h.asked x
    have hset := total_set (f := Task.openCount x) ht ⟨q, afterRecord s q o⟩
    have hold : Task.openCount x ⟨q, .settled o⟩ = [q].count x := rfl
    have hnew : Task.openCount x ⟨q, afterRecord s q o⟩ = 0 := by
      cases o with
      | allowed => rfl
      | failed => rfl
      | denied => cases hq : q.clusterWide <;> simp [Task.openCount, Probe.afterRecord, hq]
    simp only [List.map_append, List.map_singleton, List.count_append]
    omega
  case sent => exact h.sent

theorem retire (h : Registered s qs st r) {i : Nat} {t : Task} (ht : st.tasks[i]? = some t)
    (hp : t.phase = .ending ∨ t.phase = .spreading []) :
    Registered s qs { st with tasks := st.tasks.eraseIdx i } (r.note s st (.retire i)) := by
  obtain ⟨a, ha⟩ := h.exists_address ht
  have hl := h.live i a t ha ht
  have hnote : r.note s st (.retire i) =
      { r with live := r.live.eraseIdx i, ended := r.ended ++ [a] } := by
    simp [Register.note, ha]
  have hi := (List.getElem?_eq_some_iff.mp ha).1
  have hpick : (a :: r.live.eraseIdx i).Perm r.live := by
    have := List.getElem_cons_eraseIdx_perm hi
    rwa [(List.getElem?_eq_some_iff.mp ha).2] at this
  rw [hnote]
  constructor
  case roots => exact h.roots
  case roots_registered => exact h.roots_registered
  case length => simp [List.length_eraseIdx, h.length]
  case live =>
    intro j b u hb hu
    rw [List.getElem?_eraseIdx] at hb hu
    split at hb
    · next hij => exact h.live j b u hb (by simpa [hij] using hu)
    · next hij => exact h.live (j + 1) b u hb (by simpa [hij] using hu)
  case ended =>
    intro b hb
    rcases List.mem_append.mp hb with hb | hb
    · exact h.ended b hb
    · rw [List.mem_singleton.mp hb]
      exact ⟨_, hl.ended hp⟩
  case perm =>
    rw [List.append_assoc]
    exact h.perm.trans (hpick.symm.append_left _)
  case nodup => exact h.nodup
  case parent => exact h.parent
  case answers => exact h.answers
  case answers_registered => exact h.answers_registered
  case asked =>
    intro x
    have hx := h.asked x
    have herase := total_eraseIdx (f := Task.openCount x) ht
    have hold : t.openCount x = 0 := by rcases hp with hp | hp <;> simp [Task.openCount, hp]
    dsimp only
    omega
  case sent => exact h.sent

/-- Every move keeps the register in agreement with the state. -/
theorem move (h : Registered s qs st r) (hm : Move s st e st') :
    Registered s qs st' (r.note s st e) := by
  cases hm with
  | start hr ho => exact h.start hr
  | close hr ho =>
    exact ⟨h.roots, h.roots_registered, h.length, h.live, h.ended, h.perm, h.nodup, h.parent,
      h.answers, h.answers_registered, h.asked, h.sent⟩
  | @ask i q ht hp =>
    exact h.of_set ht ⟨q, .asking⟩
      (fun a hl => ⟨hl.owed, trivial, hl.children, nofun, hl.unanswered⟩)
      (fun x => List.count_append) h.sent
  | @settle i q ht =>
    exact h.of_set ht ⟨q, .settled (s.outcome q)⟩
      (fun a hl => ⟨hl.owed, rfl, hl.children, nofun, hl.unanswered⟩) (fun x => rfl) h.sent
  | record ht => exact h.record ht
  | @send i q ht =>
    have hnote : r.note s st (.send i) = { r with sent := r.sent ++ [q.grant] } := by
      simp [Register.note, ht]
    rw [hnote]
    exact h.of_set ht ⟨q, .ending⟩
      (fun a hl => ⟨hl.owed, hl.sound, hl.children, hl.answered, nofun⟩) (fun x => rfl)
      (by rw [← h.sent, List.append_assoc])
  | spread ht => exact h.spread ht
  | retire ht hp => exact h.retire ht hp
  | collect hc hf =>
    refine ⟨h.roots, h.roots_registered, h.length, h.live, h.ended, h.perm, h.nodup, h.parent,
      h.answers, h.answers_registered, h.asked, ?_⟩
    have := h.sent
    rw [hc] at this
    simpa [Register.note] using this
  | finish hc ht ho hf =>
    exact ⟨h.roots, h.roots_registered, h.length, h.live, h.ended, h.perm, h.nodup, h.parent,
      h.answers, h.answers_registered, h.asked, h.sent⟩

/-- The register of a schedule agrees with the state that it leads to. -/
theorem along (h : Registered s qs st r) {es : List Event} (hr : run s st es = some st') :
    Registered s qs st' (r.along s st es) := by
  induction es generalizing st r with
  | nil =>
    simp only [run, Option.some.injEq] at hr
    subst hr
    exact h
  | cons e es ih =>
    simp only [run, Option.bind_eq_some_iff] at hr
    obtain ⟨st₁, he, hes⟩ := hr
    have := ih (h.move (move_of_step he)) hes
    simpa [Register.along, he] using this

-- ---------------------------------------------------------------------------
-- The barrier
-- ---------------------------------------------------------------------------

/-- A probe that gives up its sender has handed one to each child that it owes. -/
theorem child_registered (h : Registered s qs st r) {i : Nat} {a : Address} {t : Task}
    (ha : r.live[i]? = some a) (ht : st.tasks[i]? = some t)
    (hp : t.phase = .ending ∨ t.phase = .spreading []) {j : Nat} {c : Question}
    (hc : Owed s qs (j :: a) c) : j :: a ∈ r.registered := by
  have hl := (h.live i a t ha ht).ended hp
  obtain ⟨q, hq, hj⟩ := (owed_cons_iff hl.owed.ne_nil).mp hc
  rw [hl.children, hl.owed.unique hq]
  exact (List.getElem?_eq_some_iff.mp hj).1

/-- Behind the last sender every probe that is owed, at any depth, has ended. -/
theorem ended_of_closed (h : Registered s qs st r) (hroots : st.roots = [])
    (htasks : st.tasks = []) {a : Address} {q : Question} (ho : Owed s qs a q) :
    a ∈ r.ended := by
  have hlive : r.live = [] := by
    have := h.length
    rw [htasks] at this
    exact List.length_eq_zero_iff.mp this
  have hall : ∀ b ∈ r.registered, b ∈ r.ended := by
    intro b hb
    simpa [hlive] using h.perm.mem_iff.mp hb
  -- down from the root questions, which all had a probe
  induction ho with
  | @root k q hk =>
    refine hall _ ((h.roots_registered k).mpr ?_)
    have hlen := h.roots
    rw [hroots] at hlen
    have := List.drop_eq_nil_iff.mp hlen.symm
    have := (List.getElem?_eq_some_iff.mp hk).1
    omega
  | @child a q j n ho hd hq hj ih =>
    obtain ⟨q', hq'⟩ := h.ended a ih
    obtain rfl := ho.unique hq'.owed
    refine hall _ ((hq'.children j).mpr ?_)
    have := (List.getElem?_eq_some_iff.mp hj).1
    simpa [Setting.owes, Setting.children, hd, hq] using this

end Registered

/-- The register of a schedule agrees with the state that it leads to, from the beginning. -/
theorem registered_of_run {es : List Event} (h : run s (.initial s qs) es = some st) :
    Registered s qs st (register s qs es) :=
  (registered_initial s qs).along h

/--
**Completion barrier.** After every schedule, however many probes it has started
and at whatever depth:

* the senders of the grant channel are the root's own, until the root gives it
  up, and one for each probe that was registered and has not ended;
* the channel has a sender exactly as long as the root has not given up its own
  or some probe that the run owes has not ended;
* a probe that now gives up its sender leaves no child without one: each child
  that it owes is registered before;
* when the grants are handed over, no root question is left, no probe is live,
  each probe that the run owes was registered once and has ended with the outcome
  of its question, recorded once; the questions that were put are those whose
  outcomes were recorded; and the grants are those that were sent, each as often
  as it was sent.
-/
theorem completion_barrier (s : Setting) (qs : List Question) (es : List Event) (st : State)
    (h : run s (.initial s qs) es = some st) :
    let r := register s qs es
    (r.registered.Nodup ∧ r.registered.Perm (r.ended ++ r.live) ∧
      st.senders = r.live.length + if st.rootSender then 1 else 0) ∧
    (0 < st.senders ↔ st.rootSender = true ∨ ∃ a q, Owed s qs a q ∧ a ∉ r.ended) ∧
    (∀ i st', step s st (.retire i) = some st' → ∃ a, r.live[i]? = some a ∧
      ∀ j c, Owed s qs (j :: a) c → j :: a ∈ r.registered) ∧
    (st.finished = true → st.roots = [] ∧ st.tasks = [] ∧
      (∀ a q, Owed s qs a q → a ∈ r.registered ∧ a ∈ r.ended ∧ ⟨a, q, s.outcome q⟩ ∈ r.answers) ∧
      (r.answers.map Answered.address).Nodup ∧
      st.asked.Perm (r.answers.map Answered.question) ∧ st.grants = r.sent) := by
  intro r
  have hr : Registered s qs st r := registered_of_run h
  have hc : Closed st := Reachable.closed ⟨es, h⟩
  refine ⟨⟨hr.nodup, hr.perm, by rw [State.senders, hr.length]⟩, ⟨?_, ?_⟩, ?_, ?_⟩
  · intro hs
    cases ho : st.rootSender with
    | true => exact Or.inl rfl
    | false =>
      -- a task holds the sender, and its probe is one that is owed
      have hlen : 0 < st.tasks.length := by simpa [State.senders, ho] using hs
      obtain ⟨a, ha⟩ := hr.exists_address (List.getElem?_eq_getElem hlen)
      have hl := hr.live 0 a _ ha (List.getElem?_eq_getElem hlen)
      exact Or.inr ⟨a, _, hl.owed, hr.not_ended_of_live (List.mem_of_getElem? ha)⟩
  · rintro (ho | ⟨a, q, howed, hne⟩)
    · simp [State.senders, ho]
    · by_contra hs
      have hzero : st.senders = 0 := by omega
      unfold State.senders at hzero
      have htasks : st.tasks = [] := List.length_eq_zero_iff.mp (by omega)
      have ho : st.rootSender = false := by
        cases hb : st.rootSender with
        | false => rfl
        | true => simp [hb] at hzero
      exact hne (hr.ended_of_closed (hc.roots ho) htasks howed)
  · intro i st' hstep
    cases move_of_step hstep with
    | retire ht hp =>
      obtain ⟨a, ha⟩ := hr.exists_address ht
      exact ⟨a, ha, fun j c hchild => hr.child_registered ha ht hp hchild⟩
  · intro hf
    have hroots := hc.roots (hc.sender hf)
    have htasks := hc.tasks hf
    refine ⟨hroots, htasks, fun a q howed => ?_, hr.answers, ?_, ?_⟩
    · have hended := hr.ended_of_closed hroots htasks howed
      obtain ⟨q', hq'⟩ := hr.ended a hended
      obtain rfl := howed.unique hq'.owed
      exact ⟨hr.mem_of_ended hended, hended, hq'.answered⟩
    · rw [List.perm_iff_count]
      intro x
      rw [hr.asked, htasks, total_nil, Nat.add_zero]
    · have hsent := hr.sent
      rwa [hc.channel hf, List.append_nil] at hsent

/-- May the caller read secrets anywhere. -/
def readSecrets : Question := .about ⟨"Secret", "secrets", "api/v1", true⟩ "secrets" .get

/-- Secrets may be read in one team's namespace only, and calls are made one at a time. -/
def twoTeams : Setting where
  decide q := if q.ns = "team-a" then ⟨.allow, 0⟩ else ⟨.deny, 0⟩
  namespaces := ["team-a", "team-b"]
  limits := ⟨5, some 1⟩

/-- The first child is answered, sends its grant and ends before the second is registered. -/
def earlyChild : List Event :=
  [.start, .close, .ask 0, .settle 0, .record 0, .spread 0,
    .ask 1, .settle 1, .record 1, .send 1, .retire 1, .collect,
    .spread 0, .retire 0, .ask 0, .settle 0, .record 0, .retire 0, .finish]

/-- The grants are handed over all the same behind the second child only. -/
theorem twoTeams_barrier :
    ∃ st, run twoTeams (.initial twoTeams [readSecrets]) earlyChild = some st ∧
      st.finished = true ∧ [1, 0] ∈ (register twoTeams [readSecrets] earlyChild).ended ∧
      st.grants = (register twoTeams [readSecrets] earlyChild).sent := by
  have hdone : (run twoTeams (.initial twoTeams [readSecrets]) earlyChild).map State.finished =
      some true := by decide +kernel
  obtain ⟨st, hrun, hf⟩ := Option.map_eq_some_iff.mp hdone
  have hb := completion_barrier twoTeams [readSecrets] earlyChild st hrun
  obtain ⟨-, -, hall, -, -, hsent⟩ := hb.2.2.2 hf
  have howed : Owed twoTeams [readSecrets] [1, 0] (readSecrets.inNamespace "team-b") :=
    .child (.root rfl) (by decide) rfl rfl
  exact ⟨st, hrun, hf, (hall _ _ howed).2.1, hsent⟩

end WatchGate.Probe
