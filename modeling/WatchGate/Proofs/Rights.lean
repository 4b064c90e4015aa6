import WatchGate.Access
import WatchGate.Proofs.Probe.Turns

/-!
# WatchGate — what a caller may do with a resource, exactly

Five questions are put at once, and their grants come back through one channel in
any order, those of a namespace among those of the cluster. All that tells them
apart then is the verb and the subresource: `Rights.ofGrants_eq` reads each right
off the grants by these two. No two of the five questions agree in both, and what
a question is granted carries its own (`any_granted`), so each right goes back to
one question. `Setting.Holds` says of a question when that is.

`Rights.Exact` puts this together with what has to be asked for it.

Main results:

* `Probe.Reachable.exact_rights` — every schedule of the probes ends with an exact
  summary.
* `Access.rights_exact` — the same for the answer to a caller.
-/

namespace WatchGate

open Probe

/-- Whether a grant is for a verb on a subresource. -/
def Grant.isFor (v : Verb) (sub : String) (g : Grant) : Bool :=
  g.verb = v && g.subresource = sub

-- ---------------------------------------------------------------------------
-- The rights that grants give
-- ---------------------------------------------------------------------------

namespace Rights

/-- One more grant gives the right that it is for, if it is for one. -/
theorem record_eq (r : Rights) (g : Grant) : r.record g = {
    get := r.get || g.isFor .get ""
    put := r.put || g.isFor .update ""
    delete := r.delete || g.isFor .delete ""
    logs := r.logs || g.isFor .get "log"
    exec := r.exec || g.isFor .get "exec" } := by
  unfold record
  split
  case h_6 hlogs hexec hget hput hdelete =>
    have hnot : ∀ v sub, (g.subresource = sub → g.verb = v → False) → g.isFor v sub = false := by
      intro v sub h
      simpa [Grant.isFor] using fun hv hs => h hs hv
    simp [hnot _ _ hlogs, hnot _ _ hexec, hnot _ _ hget, hnot _ _ hput, hnot _ _ hdelete]
  all_goals next hs hv => simp [Grant.isFor, hs, hv]

theorem foldl_record (gs : List Grant) (r : Rights) : gs.foldl record r = {
    get := r.get || gs.any (Grant.isFor .get "")
    put := r.put || gs.any (Grant.isFor .update "")
    delete := r.delete || gs.any (Grant.isFor .delete "")
    logs := r.logs || gs.any (Grant.isFor .get "log")
    exec := r.exec || gs.any (Grant.isFor .get "exec") } := by
  induction gs generalizing r with
  | nil => simp
  | cons g gs ih => simp only [List.foldl_cons, ih, record_eq, List.any_cons, Bool.or_assoc]

/-- A right is given by grants if one of them is for it. -/
theorem ofGrants_eq (gs : List Grant) : ofGrants gs = {
    get := gs.any (Grant.isFor .get "")
    put := gs.any (Grant.isFor .update "")
    delete := gs.any (Grant.isFor .delete "")
    logs := gs.any (Grant.isFor .get "log")
    exec := gs.any (Grant.isFor .get "exec") } := by
  unfold ofGrants
  rw [foldl_record]
  simp [nothing]

end Rights

-- ---------------------------------------------------------------------------
-- The grants of a question
-- ---------------------------------------------------------------------------

section Granted

variable {s : Setting} {q : Question} {g : Grant}

/-- A question holds if it is allowed, or if it is denied for the whole cluster and
allowed in one of the namespaces. -/
def Probe.Setting.Holds (s : Setting) (q : Question) : Prop :=
  s.outcome q = .allowed ∨
    (q.ns = "" ∧ s.outcome q = .denied ∧
      ∃ n ∈ s.namespaces, s.outcome (q.inNamespace n) = .allowed)

instance (s : Setting) (q : Question) : Decidable (s.Holds q) :=
  inferInstanceAs (Decidable
    (_ ∨ _ ∧ _ ∧ ∃ n ∈ s.namespaces, s.outcome (q.inNamespace n) = .allowed))

/-- Among what a question is granted there is a grant for its verb on its
subresource if the question holds, and never one for others. -/
theorem any_granted (s : Setting) (q : Question) (v : Verb) (sub : String) :
    (s.granted q).any (Grant.isFor v sub) = true ↔
      s.Holds q ∧ q.verb = v ∧ q.subresource = sub := by
  simp only [List.any_eq_true, Grant.isFor, Bool.and_eq_true, decide_eq_true_eq]
  constructor
  · rintro ⟨g, hg, hfor⟩
    rcases Setting.mem_granted_iff.mp hg with ⟨ha, rfl⟩ | ⟨hd, c, hc, ha, rfl⟩
    · exact ⟨.inl ha, hfor⟩
    · obtain ⟨hns, n, hn, rfl⟩ := Setting.mem_children_iff.mp hc
      exact ⟨.inr ⟨hns, hd, n, hn, ha⟩, hfor⟩
  · rintro ⟨ha | ⟨hns, hd, n, hn, ha⟩, hfor⟩
    · exact ⟨q.grant, Setting.mem_granted_iff.mpr (.inl ⟨ha, rfl⟩), hfor⟩
    · have hc : q.inNamespace n ∈ s.children q := Setting.mem_children_iff.mpr ⟨hns, n, hn, rfl⟩
      exact ⟨_, Setting.mem_granted_iff.mpr (.inr ⟨hd, _, hc, ha, rfl⟩), hfor⟩

theorem any_allGranted (s : Setting) (qs : List Question) (v : Verb) (sub : String) :
    (s.allGranted qs).any (Grant.isFor v sub) = true ↔
      ∃ q ∈ qs, s.Holds q ∧ q.verb = v ∧ q.subresource = sub := by
  unfold Setting.allGranted
  rw [List.any_flatMap, List.any_eq_true]
  simp only [any_granted]

/-- The questions that follow from questions at one place: for each that is denied
for the whole cluster, one in each namespace. -/
theorem flatMap_owes (s : Setting) (qs : List Question) (ns : String) (h : ∀ q ∈ qs, q.ns = ns) :
    qs.flatMap s.owes = if ns = "" then
      (qs.filter fun q => s.outcome q = .denied).flatMap fun q => s.namespaces.map q.inNamespace
      else [] := by
  induction qs with
  | nil => simp
  | cons q qs ih =>
    obtain ⟨hq, hqs⟩ := List.forall_mem_cons.mp h
    rw [List.flatMap_cons, ih hqs]
    unfold Setting.owes Setting.children Question.clusterWide
    rw [hq]
    by_cases hd : s.outcome q = .denied <;> by_cases hns : ns = "" <;> simp [hd, hns]

end Granted

-- ---------------------------------------------------------------------------
-- The five questions
-- ---------------------------------------------------------------------------

/-- May the caller do this to the instances of a kind, or to one of them. -/
def Question.onKind (c : Catalog) (kind ns name : String) (v : Verb) : Question :=
  ⟨c.resolve kind, (c.resolve kind).plural, v, ns, "", name⟩

/-- May the caller get a subresource of pods. -/
def Question.onPods (c : Catalog) (ns sub : String) : Question :=
  ⟨c.resolve "Pod", "pods", .get, ns, sub, ""⟩

/-- The five questions about a resource, one for each right. -/
def Question.basic (c : Catalog) (kind ns name : String) : List Question :=
  [.onKind c kind ns name .get, .onKind c kind ns name .update, .onKind c kind ns name .delete,
    .onPods c ns "log", .onPods c ns "exec"]

theorem rightsQuestions_eq (c : Catalog) (kind ns name : String) :
    Access.rightsQuestions c kind ns name = Question.basic c kind ns name := rfl

theorem ns_of_mem_basic {c : Catalog} {kind ns name : String} {q : Question}
    (h : q ∈ Question.basic c kind ns name) : q.ns = ns := by
  simp only [Question.basic, List.mem_cons, List.not_mem_nil, or_false] at h
  rcases h with rfl | rfl | rfl | rfl | rfl <;> rfl

/-- What a summary of rights has to hold: each right if its question holds. And what
has to be asked for it: the five questions, and with no namespace given one more in
each namespace for those of the five that are denied. -/
structure Rights.Exact (s : Setting) (c : Catalog) (kind ns name : String) (asked : List Question)
    (r : Rights) : Prop where
  get : r.get = true ↔ s.Holds (.onKind c kind ns name .get)
  put : r.put = true ↔ s.Holds (.onKind c kind ns name .update)
  delete : r.delete = true ↔ s.Holds (.onKind c kind ns name .delete)
  logs : r.logs = true ↔ s.Holds (.onPods c ns "log")
  exec : r.exec = true ↔ s.Holds (.onPods c ns "exec")
  cluster : ns = "" → asked.Perm (Question.basic c kind ns name ++
    ((Question.basic c kind ns name).filter fun q => s.outcome q = .denied).flatMap
      fun q => s.namespaces.map q.inNamespace)
  inside : ns ≠ "" → asked.Perm (Question.basic c kind ns name) ∧ ∀ q ∈ asked, q.ns = ns

variable {s : Setting} {c : Catalog} {kind ns name : String} {st : State}

/-- What a finished run was granted for a verb on a subresource it was granted for
one of the five questions. -/
theorem Probe.Reachable.any_grants_iff
    (h : Reachable s (Access.rightsQuestions c kind ns name) st) (hf : st.finished = true)
    (hn : s.Named) (v : Verb) (sub : String) : st.grants.any (Grant.isFor v sub) = true ↔
      ∃ q ∈ Question.basic c kind ns name, s.Holds q ∧ q.verb = v ∧ q.subresource = sub := by
  rw [(h.grants_perm_allGranted hn hf).any_eq, any_allGranted, rightsQuestions_eq]

theorem Probe.Reachable.asked_perm_basic
    (h : Reachable s (Access.rightsQuestions c kind ns name) st) (hf : st.finished = true)
    (hn : s.Named) : st.asked.Perm (Question.basic c kind ns name ++ if ns = "" then
      ((Question.basic c kind ns name).filter fun q => s.outcome q = .denied).flatMap
        fun q => s.namespaces.map q.inNamespace
      else []) := by
  have hasked := h.asked_perm_owes hn hf
  rwa [rightsQuestions_eq, flatMap_owes s _ ns fun q hq => ns_of_mem_basic hq] at hasked

/-- Every schedule of the probes for a resource ends with an exact summary. -/
theorem Probe.Reachable.exact_rights
    (h : Reachable s (Access.rightsQuestions c kind ns name) st) (hf : st.finished = true)
    (hn : s.Named) : (Rights.ofGrants st.grants).Exact s c kind ns name st.asked := by
  have hgiven := h.any_grants_iff hf hn
  have hasked := h.asked_perm_basic hf hn
  rw [Rights.ofGrants_eq]
  constructor
  case get => simp [hgiven, Question.basic, Question.onKind, Question.onPods]
  case put => simp [hgiven, Question.basic, Question.onKind, Question.onPods]
  case delete => simp [hgiven, Question.basic, Question.onKind, Question.onPods]
  case logs => simp [hgiven, Question.basic, Question.onKind, Question.onPods]
  case exec => simp [hgiven, Question.basic, Question.onKind, Question.onPods]
  case cluster =>
    intro hns
    rwa [if_pos hns] at hasked
  case inside =>
    intro hns
    rw [if_neg hns, List.append_nil] at hasked
    exact ⟨hasked, fun q hq => ns_of_mem_basic (hasked.mem_iff.mp hq)⟩

-- ---------------------------------------------------------------------------
-- The answer to a caller
-- ---------------------------------------------------------------------------

/--
**Exactness of the rights on a resource.** For every catalog, every name of a kind,
every namespace and name of an instance, every list of namespaces with names, every
authorizer and every limit: whatever schedule of the probes has happened can be led
to an end, and with each end comes an exact summary. The answer to a caller is the
summary of one of these schedules.
-/
theorem Access.rights_exact (c : Catalog) (namespaces : List String)
    (decide : Identity → Question → Answer) (limits : Limits) (i : Identity)
    (kind ns name : String) (hk : kind ≠ "") (hn : ∀ n ∈ namespaces, n ≠ "") :
    let a : Access := ⟨c, .ok namespaces, decide, limits⟩
    let s := a.setting i namespaces
    (∀ st, Reachable s (rightsQuestions c kind ns name) st →
      (∃ es st', run s st es = some st' ∧ st'.finished = true) ∧
      (st.finished = true → (Rights.ofGrants st.grants).Exact s c kind ns name st.asked)) ∧
    ∃ r, (a.rights kind ns name i).result = .ok r ∧
      r.Exact s c kind ns name (a.rights kind ns name i).report.asked ∧
      ∃ st, Reachable s (rightsQuestions c kind ns name) st ∧ st.finished = true ∧
        r = Rights.ofGrants st.grants := by
  intro a s
  have hs : s.Named := hn
  refine ⟨fun st h => ⟨h.exists_finish hs, fun hf => h.exact_rights hf hs⟩, ?_⟩
  obtain ⟨st, h, hf, hasked, hgrants, -⟩ :=
    Setting.exists_finished hs (rightsQuestions c kind ns name)
  have hanswer : a.rights kind ns name i =
      ⟨.ok (Rights.ofGrants (s.report (rightsQuestions c kind ns name)).grants),
        s.report (rightsQuestions c kind ns name)⟩ := by
    unfold Access.rights
    rw [if_neg (mt String.isEmpty_iff.mp hk)]
    rfl
  have hexact := h.exact_rights hf hs
  rw [hasked] at hexact
  rw [hanswer, ← hgrants]
  exact ⟨_, rfl, hexact, st, h, hf, rfl⟩

-- ---------------------------------------------------------------------------
-- A cluster with all that may become of a question
-- ---------------------------------------------------------------------------

/-- Whoever asks may get things anywhere. To update is denied at large and, like
all else but exec, allowed in one team's namespace; to delete comes to an error at
large, and the answer on logs comes too late. -/
def mixedRoles : Identity → Question → Answer :=
  fun _ q =>
    if q.subresource = "exec" then ⟨.deny, 0⟩
    else if q.ns = "team-a" then ⟨.allow, 0⟩
    else if q.ns = "team-b" then ⟨.deny, 0⟩
    else if q.subresource = "log" then ⟨.allow, 6⟩
    else match q.verb with
      | .get => ⟨.allow, 0⟩
      | .update => ⟨.deny, 0⟩
      | _ => ⟨.error, 0⟩

/-- The kinds of that cluster. -/
def podsAndDeployments : Catalog :=
  .ofList [⟨"Pod", "pods", "api/v1", true⟩, ⟨"Deployment", "deployments", "apis/apps/v1", true⟩]

/-- The access of whoever asks there, with five milliseconds for each answer. -/
def mixedAccess : Access :=
  ⟨podsAndDeployments, .ok ["team-a", "team-b"], mixedRoles, ⟨5, some 2⟩⟩

/-- To update is allowed by way of the team's namespace, to delete and to read logs
is not; besides the five questions, two are put in both namespaces. -/
theorem mixedAccess_rights :
    "Deployment" ≠ "" ∧ (∀ n ∈ ["team-a", "team-b"], n ≠ "") ∧
    ∃ r, (mixedAccess.rights "Deployment" "" "web" ⟨"alice", []⟩).result = .ok r ∧
      r = ⟨true, true, false, false, false⟩ ∧
      (mixedAccess.rights "Deployment" "" "web" ⟨"alice", []⟩).report.asked.length = 9 := by
  have hk : "Deployment" ≠ "" := by decide
  have hn : ∀ n ∈ ["team-a", "team-b"], n ≠ "" := by decide
  obtain ⟨-, r, hr, hexact, -⟩ := Access.rights_exact podsAndDeployments ["team-a", "team-b"]
    mixedRoles ⟨5, some 2⟩ ⟨"alice", []⟩ "Deployment" "" "web" hk hn
  have hget : r.get = true := hexact.get.mpr (by decide)
  have hput : r.put = true := hexact.put.mpr (by decide)
  have hdelete : r.delete = false := Bool.eq_false_iff.mpr (mt hexact.delete.mp (by decide))
  have hlogs : r.logs = false := Bool.eq_false_iff.mpr (mt hexact.logs.mp (by decide))
  have hexec : r.exec = false := Bool.eq_false_iff.mpr (mt hexact.exec.mp (by decide))
  refine ⟨hk, hn, r, hr, ?_, (hexact.cluster rfl).length_eq.trans (by decide)⟩
  show (⟨r.get, r.put, r.delete, r.logs, r.exec⟩ : Rights) = _
  rw [hget, hput, hdelete, hlogs, hexec]

end WatchGate
