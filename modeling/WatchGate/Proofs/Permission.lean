import WatchGate.Proofs.Rights
import WatchGate.Proofs.Watches

/-!
# WatchGate — more permission never shows less

What probes are granted does not grow with what is permitted. Where a question is
allowed for the whole cluster the grants of the namespaces are gone, and where a
failure becomes a denial new questions are put. So two runs are not compared by
their grants. Each is reduced to the outcomes of questions first, by the theorems
that say a summary or a plan is exact, and outcomes are compared one by one.

Main results:

* `Setting.Below.holds` — a question that holds also holds under more permission.
* `WatchPlan.Exact.covers_iff` — what a plan covers, in terms of outcomes.
* `Access.permission_shows` — rights and plans of any two runs, compared.
-/

namespace WatchGate

open Probe

-- ---------------------------------------------------------------------------
-- Outcomes in order
-- ---------------------------------------------------------------------------

namespace Probe

/-- How much an outcome permits: a failure least, an allowance most. -/
def Outcome.rank : Outcome → Nat
  | .failed => 0
  | .denied => 1
  | .allowed => 2

instance : LE Outcome := ⟨fun o o' => o.rank ≤ o'.rank⟩

instance (o o' : Outcome) : Decidable (o ≤ o') := inferInstanceAs (Decidable (o.rank ≤ o'.rank))

theorem Outcome.allowed_le_iff {o : Outcome} : .allowed ≤ o ↔ o = .allowed := by
  cases o <;> decide

theorem Outcome.denied_le_iff {o : Outcome} : .denied ≤ o ↔ o = .allowed ∨ o = .denied := by
  cases o <;> decide

/-- Two settings with the same namespaces, of which the second permits as much or more. -/
structure Setting.Below (s s' : Setting) : Prop where
  namespaces : s'.namespaces = s.namespaces
  outcome : ∀ q, s.outcome q ≤ s'.outcome q

namespace Setting.Below

variable {s s' : Setting} {q : Question}

theorem allowed (h : s.Below s') (ha : s.outcome q = .allowed) : s'.outcome q = .allowed := by
  have hq := h.outcome q
  rw [ha] at hq
  exact Outcome.allowed_le_iff.mp hq

theorem denied (h : s.Below s') (hd : s.outcome q = .denied) :
    s'.outcome q = .allowed ∨ s'.outcome q = .denied := by
  have hq := h.outcome q
  rw [hd] at hq
  exact Outcome.denied_le_iff.mp hq

/-- A question that is denied at large and allowed in a namespace is one of both
or the other under more permission. -/
theorem holds (h : s.Below s') (hq : s.Holds q) : s'.Holds q := by
  rcases hq with ha | ⟨hns, hd, n, hn, ha⟩
  · exact .inl (h.allowed ha)
  · rcases h.denied hd with ha' | hd'
    · exact .inl ha'
    · rw [← h.namespaces] at hn
      exact .inr ⟨hns, hd', n, hn, h.allowed ha⟩

end Setting.Below

end Probe

-- ---------------------------------------------------------------------------
-- Rights
-- ---------------------------------------------------------------------------

/-- Whatever the first summary shows, the second shows. -/
structure Rights.Within (r r' : Rights) : Prop where
  get : r.get = true → r'.get = true
  put : r.put = true → r'.put = true
  delete : r.delete = true → r'.delete = true
  logs : r.logs = true → r'.logs = true
  exec : r.exec = true → r'.exec = true

/-- Exact summaries show as much as is permitted. -/
theorem Rights.Exact.within {s s' : Setting} {c : Catalog} {kind ns name : String}
    {asked asked' : List Question} {r r' : Rights} (he : r.Exact s c kind ns name asked)
    (he' : r'.Exact s' c kind ns name asked') (h : s.Below s') : r.Within r' where
  get hget := he'.get.mpr (h.holds (he.get.mp hget))
  put hput := he'.put.mpr (h.holds (he.put.mp hput))
  delete hdelete := he'.delete.mpr (h.holds (he.delete.mp hdelete))
  logs hlogs := he'.logs.mpr (h.holds (he.logs.mp hlogs))
  exec hexec := he'.exec.mpr (h.holds (he.exec.mp hexec))

-- ---------------------------------------------------------------------------
-- Plans
-- ---------------------------------------------------------------------------

namespace WatchPlan

/-- Whether a kind is watched across the cluster. -/
def Whole (p : WatchPlan) (k : Kind) : Prop :=
  ∃ w, p.entries.get? k.name = some w ∧ w.clusterWide = true

/-- Whether a kind is watched in a namespace, by an entry for the whole cluster or by
one that lists the namespace. -/
def Covers (p : WatchPlan) (k : Kind) (n : String) : Prop :=
  ∃ w, p.entries.get? k.name = some w ∧ (w.clusterWide = true ∨ n ∈ w.namespaces)

variable {s s' : Setting} {c : Catalog} {p p' : WatchPlan} {k : Kind} {n : String}

theorem clusterWide_iff {w : Watched} : w.clusterWide = true ↔ w.namespaces = [] := by
  unfold Watched.clusterWide
  exact List.isEmpty_iff

/-- A kind is watched across the cluster if the caller may do so. -/
theorem Exact.whole_iff (h : p.Exact s c) (hk : k ∈ c.toList) :
    p.Whole k ↔ s.outcome (.watching k) = .allowed := by
  constructor
  · rintro ⟨w, hw, hwide⟩
    rw [clusterWide_iff] at hwide
    by_contra ha
    exact (h.scattered k hk w hw ha).1 hwide
  · intro ha
    obtain ⟨w, hw⟩ := Option.isSome_iff_exists.mp ((h.present k hk).mpr (.inl ha))
    exact ⟨w, hw, clusterWide_iff.mpr (h.whole k hk w hw ha)⟩

/-- A kind is watched in a listed namespace if the caller may watch it at large, or
may not and may watch it there. -/
theorem Exact.covers_iff (h : p.Exact s c) (hk : k ∈ c.toList) (hn : n ∈ s.namespaces) :
    p.Covers k n ↔ s.outcome (.watching k) = .allowed ∨
      (s.outcome (.watching k) = .denied ∧ k.namespaced = true ∧
        s.outcome ((Question.watching k).inNamespace n) = .allowed) := by
  have hallowed : n ∈ s.allowedIn (.watching k) ↔
      s.outcome ((Question.watching k).inNamespace n) = .allowed := by
    unfold Setting.allowedIn
    rw [List.mem_filter, decide_eq_true_eq, and_iff_right hn]
  constructor
  · rintro ⟨w, hw, hcovers⟩
    have hpresent : (p.entries.get? k.name).isSome := by
      rw [hw]
      rfl
    rcases (h.present k hk).mp hpresent with ha | ⟨hd, hspaced, -⟩
    · exact .inl ha
    · have hne : s.outcome (.watching k) ≠ .allowed := by
        rw [hd]
        exact nofun
      obtain ⟨hsome, hperm⟩ := h.scattered k hk w hw hne
      rcases hcovers with hwide | hlisted
      · exact absurd (clusterWide_iff.mp hwide) hsome
      · exact .inr ⟨hd, hspaced, hallowed.mp (hperm.mem_iff.mp hlisted)⟩
  · rintro (ha | ⟨hd, hspaced, ha⟩)
    · obtain ⟨w, hw, hwide⟩ := (h.whole_iff hk).mpr ha
      exact ⟨w, hw, .inl hwide⟩
    · obtain ⟨w, hw⟩ := Option.isSome_iff_exists.mp
        ((h.present k hk).mpr (.inr ⟨hd, hspaced, n, hn, ha⟩))
      have hne : s.outcome (.watching k) ≠ .allowed := by
        rw [hd]
        exact nofun
      exact ⟨w, hw, .inr ((h.scattered k hk w hw hne).2.mem_iff.mpr (hallowed.mpr ha))⟩

/-- Whatever the first plan covers, the second covers; and what the first watches
across the cluster, the second watches so. -/
structure Within (c : Catalog) (namespaces : List String) (p p' : WatchPlan) : Prop where
  covers : ∀ k ∈ c.toList, ∀ n ∈ namespaces, p.Covers k n → p'.Covers k n
  whole : ∀ k ∈ c.toList, p.Whole k → p'.Whole k

/-- Exact plans cover as much as is permitted. -/
theorem Exact.within (he : p.Exact s c) (he' : p'.Exact s' c) (h : s.Below s') :
    Within c s.namespaces p p' := by
  constructor
  case covers =>
    intro k hk n hn hcovers
    have hn' : n ∈ s'.namespaces := by
      rw [h.namespaces]
      exact hn
    rw [he'.covers_iff hk hn']
    rcases (he.covers_iff hk hn).mp hcovers with ha | ⟨hd, hspaced, ha⟩
    · exact .inl (h.allowed ha)
    · rcases h.denied hd with ha' | hd'
      · exact .inl ha'
      · exact .inr ⟨hd', hspaced, h.allowed ha⟩
  case whole =>
    intro k hk hwhole
    exact (he'.whole_iff hk).mpr (h.allowed ((he.whole_iff hk).mp hwhole))

end WatchPlan

-- ---------------------------------------------------------------------------
-- Two authorizers
-- ---------------------------------------------------------------------------

/-- The answer on rights is the summary of a schedule. -/
theorem Access.exists_rights (a : Access) (i : Identity) {namespaces : List String}
    (ha : a.namespaces = .ok namespaces) (hn : ∀ n ∈ namespaces, n ≠ "") (kind ns name : String)
    (hk : kind ≠ "") :
    ∃ st, Reachable (a.setting i namespaces) (rightsQuestions a.catalog kind ns name) st ∧
      st.finished = true ∧ (a.rights kind ns name i).result = .ok (Rights.ofGrants st.grants) := by
  have hs : (a.setting i namespaces).Named := hn
  obtain ⟨st, h, hf, -, hgrants, -⟩ :=
    Setting.exists_finished hs (rightsQuestions a.catalog kind ns name)
  refine ⟨st, h, hf, ?_⟩
  unfold Access.rights Access.survey
  rw [if_neg (mt String.isEmpty_iff.mp hk), ha, hgrants]

/-- The answer on what to watch is the plan of a schedule. -/
theorem Access.exists_watches (a : Access) (i : Identity) {namespaces : List String}
    (ha : a.namespaces = .ok namespaces) (hn : ∀ n ∈ namespaces, n ≠ "") :
    ∃ st, Reachable (a.setting i namespaces) (watchQuestions a.catalog) st ∧
      st.finished = true ∧ (a.watches i).result = .ok (WatchPlan.ofGrants st.grants) := by
  have hs : (a.setting i namespaces).Named := hn
  obtain ⟨st, h, hf, -, hgrants, -⟩ := Setting.exists_finished hs (watchQuestions a.catalog)
  refine ⟨st, h, hf, ?_⟩
  unfold Access.watches Access.survey
  rw [ha, hgrants]

/--
**More permission never shows less.** For every catalog, every list of namespaces
with names and every caller, let one authorizer permit as much of each question as
another, or more, with any limits on both. Then for all schedules of the two runs,
and so for the answers to the caller: each right that is shown under the first is
shown under the second, whatever the resource; and what is watched under the first
is watched under the second, across the cluster if it was so.
-/
theorem Access.permission_shows (ks : List Kind) (namespaces : List String)
    (decide decide' : Identity → Question → Answer) (limits limits' : Limits) (i : Identity)
    (hn : ∀ n ∈ namespaces, n ≠ "")
    (hle : ∀ q, (Setting.mk (decide i) namespaces limits).outcome q ≤
      (Setting.mk (decide' i) namespaces limits').outcome q) :
    let c := Catalog.ofList ks
    let a : Access := ⟨c, .ok namespaces, decide, limits⟩
    let a' : Access := ⟨c, .ok namespaces, decide', limits'⟩
    let s := a.setting i namespaces
    let s' := a'.setting i namespaces
    (∀ kind ns name st st', Reachable s (rightsQuestions c kind ns name) st → st.finished = true →
      Reachable s' (rightsQuestions c kind ns name) st' → st'.finished = true →
        (Rights.ofGrants st.grants).Within (Rights.ofGrants st'.grants)) ∧
    (∀ st st', Reachable s (watchQuestions c) st → st.finished = true →
      Reachable s' (watchQuestions c) st' → st'.finished = true →
        WatchPlan.Within c namespaces (.ofGrants st.grants) (.ofGrants st'.grants)) ∧
    (∀ kind ns name, kind ≠ "" → ∃ r r', (a.rights kind ns name i).result = .ok r ∧
      (a'.rights kind ns name i).result = .ok r' ∧ r.Within r') ∧
    ∃ p p', (a.watches i).result = .ok p ∧ (a'.watches i).result = .ok p' ∧
      WatchPlan.Within c namespaces p p' := by
  intro c a a' s s'
  have hs : s.Named := hn
  have hs' : s'.Named := hn
  have hc : c.Named := Catalog.named_ofList ks
  have hbelow : s.Below s' := ⟨rfl, hle⟩
  have hrights : ∀ kind ns name st st', Reachable s (rightsQuestions c kind ns name) st →
      st.finished = true → Reachable s' (rightsQuestions c kind ns name) st' →
      st'.finished = true → (Rights.ofGrants st.grants).Within (Rights.ofGrants st'.grants) :=
    fun kind ns name st st' h hf h' hf' =>
      (h.exact_rights hf hs).within (h'.exact_rights hf' hs') hbelow
  have hwatches : ∀ st st', Reachable s (watchQuestions c) st → st.finished = true →
      Reachable s' (watchQuestions c) st' → st'.finished = true →
      WatchPlan.Within c namespaces (.ofGrants st.grants) (.ofGrants st'.grants) :=
    fun st st' h hf h' hf' => (h.exact hf hs hc).within (h'.exact hf' hs' hc) hbelow
  refine ⟨hrights, hwatches, ?_, ?_⟩
  · intro kind ns name hk
    obtain ⟨st, h, hf, hr⟩ := a.exists_rights i rfl hn kind ns name hk
    obtain ⟨st', h', hf', hr'⟩ := a'.exists_rights i rfl hn kind ns name hk
    exact ⟨_, _, hr, hr', hrights kind ns name st st' h hf h' hf'⟩
  · obtain ⟨st, h, hf, hp⟩ := a.exists_watches i rfl hn
    obtain ⟨st', h', hf', hp'⟩ := a'.exists_watches i rfl hn
    exact ⟨_, _, hp, hp', hwatches st st' h hf h' hf'⟩

/-- Whoever asks, everything is allowed in every team's namespace, and maps of
settings at large as well. -/
def allTeams : Identity → Question → Answer :=
  fun _ q => if q.ns = "" ∧ q.kind.name ≠ "ConfigMap" then ⟨.deny, 0⟩ else ⟨.allow, 0⟩

/-- The access of whoever asks there. -/
def allTeamsAccess : Access :=
  ⟨.ofList [nodes, configMaps], .ok ["team-a", "team-b"], allTeams, .standard⟩

/-- The one entry for the team's maps of settings gives way to one for all of them,
and the team's maps are still watched. -/
theorem allTeams_shows :
    (∀ n ∈ ["team-a", "team-b"], n ≠ "") ∧
    (∀ q, (Setting.mk (teamOnly ⟨"alice", []⟩) ["team-a", "team-b"] .standard).outcome q ≤
      (Setting.mk (allTeams ⟨"alice", []⟩) ["team-a", "team-b"] .standard).outcome q) ∧
    ∃ p p', (teamAccess.watches ⟨"alice", []⟩).result = .ok p ∧
      (allTeamsAccess.watches ⟨"alice", []⟩).result = .ok p' ∧
      p.Covers configMaps "team-a" ∧ p'.Covers configMaps "team-a" := by
  have hn : ∀ n ∈ ["team-a", "team-b"], n ≠ "" := by decide
  have hteam : ∀ q, (Setting.mk (teamOnly ⟨"alice", []⟩) ["team-a", "team-b"] .standard).outcome q =
      if q.ns = "team-a" then .allowed else .denied := by
    intro q
    by_cases hq : q.ns = "team-a" <;> simp [Setting.outcome, Setting.late, teamOnly, hq]
  have hall : ∀ q, (Setting.mk (allTeams ⟨"alice", []⟩) ["team-a", "team-b"] .standard).outcome q =
      if q.ns = "" ∧ q.kind.name ≠ "ConfigMap" then .denied else .allowed := by
    intro q
    by_cases hq : q.ns = "" ∧ q.kind.name ≠ "ConfigMap" <;>
      simp [Setting.outcome, Setting.late, allTeams, hq]
  have hle : ∀ q, (Setting.mk (teamOnly ⟨"alice", []⟩) ["team-a", "team-b"] .standard).outcome q ≤
      (Setting.mk (allTeams ⟨"alice", []⟩) ["team-a", "team-b"] .standard).outcome q := by
    intro q
    rw [hteam, hall]
    by_cases hq : q.ns = "team-a"
    · rw [if_pos hq, if_neg (by simp [hq])]
      decide
    · rw [if_neg hq]
      split <;> decide
  obtain ⟨-, -, -, p, p', hp, hp', hwithin⟩ := Access.permission_shows [nodes, configMaps]
    ["team-a", "team-b"] teamOnly allTeams .standard .standard ⟨"alice", []⟩ hn hle
  have hmaps : configMaps ∈ (Catalog.ofList [nodes, configMaps]).toList := by decide
  have hcovers : p.Covers configMaps "team-a" := by
    obtain ⟨st, h, hf, hst⟩ := teamAccess.exists_watches ⟨"alice", []⟩ rfl hn
    obtain rfl : p = WatchPlan.ofGrants st.grants := Except.ok.inj (hp.symm.trans hst)
    have hexact := h.exact hf hn (Catalog.named_ofList [nodes, configMaps])
    exact (hexact.covers_iff hmaps (by decide)).mpr (.inr ⟨by decide, rfl, by decide⟩)
  exact ⟨hn, hle, p, p', hp, hp', hcovers,
    hwithin.covers configMaps hmaps "team-a" (by decide) hcovers⟩

end WatchGate
