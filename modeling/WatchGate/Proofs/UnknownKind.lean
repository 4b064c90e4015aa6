import WatchGate.Proofs.Permission

/-!
# WatchGate — what is shown of a kind that nobody knows

A name that is not in the catalog resolves to a kind without a plural, and an
authorizer denies what is asked about no resource. So far nothing is shown of such
a kind. But only three of the five questions are about it. Logs and exec are asked
about pods, whatever the kind is and whether it is known: of an unknown kind they
show what they show of every other.

Main results:

* `Setting.DeniesUnnamed.not_holds` — a question about no resource never holds.
* `Access.unknown_kind_rights` — the summary for an unknown kind is that of the
  pods' logs and exec, and nothing else.
* `openAccess_not_nothing` — it need not be empty.
-/

namespace WatchGate

open Probe

-- ---------------------------------------------------------------------------
-- Names that are not in the catalog
-- ---------------------------------------------------------------------------

theorem Catalog.resolve_of_not_contains {c : Catalog} {name : String}
    (h : c.contains name = false) : c.resolve name = Kind.unknown := by
  unfold Catalog.contains at h
  unfold Catalog.resolve
  rw [Option.isSome_eq_false_iff, Option.isNone_iff_eq_none] at h
  rw [h, Option.getD_none]

theorem Question.resource_onKind {c : Catalog} {kind : String} (h : c.contains kind = false)
    (ns name : String) (v : Verb) : (Question.onKind c kind ns name v).resource = "" := by
  show (c.resolve kind).plural = ""
  rw [Catalog.resolve_of_not_contains h]
  rfl

-- ---------------------------------------------------------------------------
-- Questions about no resource
-- ---------------------------------------------------------------------------

section Unnamed

variable {s : Setting} {q : Question}

/-- Whoever asks about no resource is denied. An answer that comes too late is a failure. -/
def Probe.Setting.DeniesUnnamed (s : Setting) : Prop :=
  ∀ q, q.resource = "" → (s.decide q).verdict = .deny

theorem Probe.Setting.DeniesUnnamed.not_allowed (h : s.DeniesUnnamed) (hq : q.resource = "") :
    s.outcome q ≠ .allowed := by
  intro ha
  obtain ⟨hverdict, -⟩ := Setting.outcome_eq_allowed_iff.mp ha
  rw [h q hq] at hverdict
  cases hverdict

theorem Probe.Setting.DeniesUnnamed.not_holds (h : s.DeniesUnnamed) (hq : q.resource = "") :
    ¬ s.Holds q := by
  rintro (ha | ⟨-, -, n, -, ha⟩)
  · exact h.not_allowed hq ha
  · -- what is put in the namespaces is about no resource either
    have hchild : (q.inNamespace n).resource = "" := hq
    exact h.not_allowed hchild ha

end Unnamed

-- ---------------------------------------------------------------------------
-- Summaries that are left
-- ---------------------------------------------------------------------------

namespace Rights

variable {s : Setting} {c : Catalog} {kind ns name : String}

/-- What is shown of pods, whatever the kind is. -/
def ofPods (s : Setting) (c : Catalog) (ns : String) : Rights where
  get := false
  put := false
  delete := false
  logs := decide (s.Holds (.onPods c ns "log"))
  exec := decide (s.Holds (.onPods c ns "exec"))

theorem ofPods_eq_nothing_iff : ofPods s c ns = nothing ↔
    ¬ s.Holds (.onPods c ns "log") ∧ ¬ s.Holds (.onPods c ns "exec") := by
  unfold ofPods nothing
  rw [Rights.mk.injEq, decide_eq_false_iff_not, decide_eq_false_iff_not]
  simp only [true_and]

/-- An exact summary for an unknown kind shows nothing but this. -/
theorem Exact.eq_ofPods {asked : List Question} {r : Rights} (he : r.Exact s c kind ns name asked)
    (hc : c.contains kind = false) (hd : s.DeniesUnnamed) : r = ofPods s c ns := by
  have hkind : ∀ v, ¬ s.Holds (.onKind c kind ns name v) :=
    fun v => hd.not_holds (Question.resource_onKind hc ns name v)
  have hget : r.get = false := Bool.eq_false_iff.mpr (mt he.get.mp (hkind _))
  have hput : r.put = false := Bool.eq_false_iff.mpr (mt he.put.mp (hkind _))
  have hdelete : r.delete = false := Bool.eq_false_iff.mpr (mt he.delete.mp (hkind _))
  have hlogs : r.logs = decide (s.Holds (.onPods c ns "log")) :=
    Bool.eq_iff_iff.mpr (he.logs.trans decide_eq_true_iff.symm)
  have hexec : r.exec = decide (s.Holds (.onPods c ns "exec")) :=
    Bool.eq_iff_iff.mpr (he.exec.trans decide_eq_true_iff.symm)
  show (⟨r.get, r.put, r.delete, r.logs, r.exec⟩ : Rights) = _
  rw [hget, hput, hdelete, hlogs, hexec]
  rfl

end Rights

-- ---------------------------------------------------------------------------
-- The answer to a caller
-- ---------------------------------------------------------------------------

/--
**The rights on an unknown kind.** For every catalog, every name that is not in it,
every namespace and name of an instance, every caller, every list of namespaces with
names and every authorizer that denies what is asked about no resource, with any
limits: the probes can be led to an end, whatever has happened, and with each end
comes the same summary, which is also the answer to the caller. It does not depend
on the kind's name or the instance's. Nothing may be got, put or deleted; logs and
exec are those of pods. So it is empty if the caller has neither of these on pods,
and only then.
-/
theorem Access.unknown_kind_rights (c : Catalog) (namespaces : List String)
    (decide : Identity → Question → Answer) (limits : Limits) (i : Identity)
    (kind ns name : String) (hk : kind ≠ "") (hc : c.contains kind = false)
    (hn : ∀ n ∈ namespaces, n ≠ "")
    (hd : ∀ q, q.resource = "" → (decide i q).verdict = .deny) :
    let a : Access := ⟨c, .ok namespaces, decide, limits⟩
    let s := a.setting i namespaces
    (∀ st, Reachable s (rightsQuestions c kind ns name) st →
      (∃ es st', run s st es = some st' ∧ st'.finished = true) ∧
      (st.finished = true → Rights.ofGrants st.grants = Rights.ofPods s c ns)) ∧
    (a.rights kind ns name i).result = .ok (Rights.ofPods s c ns) ∧
    (Rights.ofPods s c ns = Rights.nothing ↔
      ¬ s.Holds (.onPods c ns "log") ∧ ¬ s.Holds (.onPods c ns "exec")) := by
  intro a s
  have hs : s.Named := hn
  have hdenies : s.DeniesUnnamed := hd
  have hsummary : ∀ st, Reachable s (rightsQuestions c kind ns name) st → st.finished = true →
      Rights.ofGrants st.grants = Rights.ofPods s c ns :=
    fun st h hf => (h.exact_rights hf hs).eq_ofPods hc hdenies
  refine ⟨fun st h => ⟨h.exists_finish hs, hsummary st h⟩, ?_, Rights.ofPods_eq_nothing_iff⟩
  obtain ⟨st, h, hf, hr⟩ := a.exists_rights i rfl hn kind ns name hk
  rw [hr, hsummary st h hf]

/-- Whoever asks, everything is allowed that is about some resource. -/
def namedOnly : Identity → Question → Answer :=
  fun _ q => if q.resource = "" then ⟨.deny, 0⟩ else ⟨.allow, 0⟩

/-- The access of whoever asks there. -/
def openAccess : Access := ⟨podsAndDeployments, .ok ["team-a"], namedOnly, .standard⟩

theorem openAccess_unknown_rights :
    "Widget" ≠ "" ∧ podsAndDeployments.contains "Widget" = false ∧ (∀ n ∈ ["team-a"], n ≠ "") ∧
    (∀ q, q.resource = "" → (namedOnly ⟨"alice", []⟩ q).verdict = .deny) ∧
    (openAccess.rights "Widget" "" "" ⟨"alice", []⟩).result =
      .ok ⟨false, false, false, true, true⟩ := by
  have hk : "Widget" ≠ "" := by decide
  have hc : podsAndDeployments.contains "Widget" = false := by decide
  have hn : ∀ n ∈ ["team-a"], n ≠ "" := by decide
  have hd : ∀ q, q.resource = "" → (namedOnly ⟨"alice", []⟩ q).verdict = .deny := by
    intro q hq
    unfold namedOnly
    rw [if_pos hq]
  obtain ⟨-, hr, -⟩ := Access.unknown_kind_rights podsAndDeployments ["team-a"] namedOnly .standard
    ⟨"alice", []⟩ "Widget" "" "" hk hc hn hd
  have hpods : Rights.ofPods (openAccess.setting ⟨"alice", []⟩ ["team-a"]) podsAndDeployments "" =
      ⟨false, false, false, true, true⟩ := by decide
  exact ⟨hk, hc, hn, hd, hr.trans (congrArg Except.ok hpods)⟩

/-- Who may do anything with every resource is shown rights on a kind that there is not. -/
theorem openAccess_not_nothing :
    podsAndDeployments.contains "Widget" = false ∧
    (∀ i q, q.resource = "" → (namedOnly i q).verdict = .deny) ∧
    (openAccess.rights "Widget" "" "" ⟨"alice", []⟩).result ≠ .ok Rights.nothing := by
  have hanswer : (openAccess.rights "Widget" "" "" ⟨"alice", []⟩).result.toOption =
      some ⟨false, false, false, true, true⟩ := by decide +kernel
  refine ⟨by decide, ?_, ?_⟩
  · intro i q hq
    unfold namedOnly
    rw [if_pos hq]
  · intro hempty
    rw [hempty] at hanswer
    exact absurd hanswer (by decide)

end WatchGate
