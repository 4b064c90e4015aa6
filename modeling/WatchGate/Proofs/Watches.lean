import WatchGate.Access
import WatchGate.Proofs.Probe.Turns
import WatchGate.Proofs.WatchPlan

/-!
# WatchGate — what a caller may watch, exactly

What a caller may watch is found in three steps: one question for each kind of
the catalog, a run of probes that asks it across the cluster or in the
namespaces, and a plan that folds the grants. An entry without namespaces means
the whole cluster, so a grant that went missing or to the wrong entry would
change what the entry means. `Exact` says what the plan has to hold in terms of
outcomes alone.

The grants that count for a kind come from its own question, since no two kinds
of a catalog have one name (`filter_about_flatMap`). Either that is the one
grant for the cluster, or those of the namespaces (`filter_admits_granted`).

Main results:

* `Probe.Reachable.exact` — every schedule of the probes ends with an exact plan.
* `Access.watches_exact` — the same for the answer to a caller.
-/

namespace WatchGate

open Probe WatchPlan

/-- May the caller watch a kind across the cluster. -/
def Question.watching (k : Kind) : Question := .about k k.plural .watch

/-- The listed namespaces in which a question is allowed. -/
def Probe.Setting.allowedIn (s : Setting) (q : Question) : List String :=
  s.namespaces.filter fun n => s.outcome (q.inNamespace n) = .allowed

/-- What a plan for the kinds of a catalog has to hold: an entry for each kind
that may be watched across the cluster, or that is denied there and may be
watched in a namespace; in the entry the kind itself, with no namespaces in the
first case and those that allow it in the second; nothing under another name;
and a count of the grants that are behind the entries. -/
structure WatchPlan.Exact (s : Setting) (c : Catalog) (p : WatchPlan) : Prop where
  present : ∀ k ∈ c.toList, (p.entries.get? k.name).isSome ↔
    s.outcome (.watching k) = .allowed ∨
      (s.outcome (.watching k) = .denied ∧ k.namespaced = true ∧
        ∃ n ∈ s.namespaces, s.outcome ((Question.watching k).inNamespace n) = .allowed)
  kind : ∀ k ∈ c.toList, ∀ w, p.entries.get? k.name = some w → w.kind = k
  whole : ∀ k ∈ c.toList, ∀ w, p.entries.get? k.name = some w →
    s.outcome (.watching k) = .allowed → w.namespaces = []
  scattered : ∀ k ∈ c.toList, ∀ w, p.entries.get? k.name = some w →
    s.outcome (.watching k) ≠ .allowed →
      w.namespaces ≠ [] ∧ w.namespaces.Perm (s.allowedIn (.watching k))
  names : ∀ n w, p.entries.get? n = some w → ∃ k ∈ c.toList, k.name = n
  grants : p.grants = c.toList.countP (fun k => s.outcome (.watching k) = .allowed) +
    (p.toList.map (·.namespaces.length)).sum

variable {s : Setting} {c : Catalog} {k : Kind} {st : State} {g : Grant}

-- ---------------------------------------------------------------------------
-- The grants of one kind
-- ---------------------------------------------------------------------------

/-- What a question is granted is about the question's kind. -/
theorem kind_of_mem_granted {q : Question} (h : g ∈ s.granted q) : g.kind = q.kind := by
  rcases Setting.mem_granted_iff.mp h with ⟨-, rfl⟩ | ⟨-, c, hc, -, rfl⟩
  · rfl
  · obtain ⟨-, n, -, rfl⟩ := Setting.mem_children_iff.mp hc
    rfl

/-- What the question about a kind is granted, when it is denied for the cluster. -/
theorem granted_of_denied (h : s.outcome (.watching k) = .denied) :
    s.granted (.watching k) =
      (s.allowedIn (.watching k)).map fun n => ((Question.watching k).inNamespace n).grant := by
  have hchildren : s.children (.watching k) = s.namespaces.map (Question.watching k).inNamespace :=
    rfl
  unfold Setting.granted Setting.allowedIn
  simp only [h, hchildren]
  induction s.namespaces with
  | nil => rfl
  | cons n ns ih =>
    rw [List.map_cons, List.flatMap_cons, ih, Setting.ownGrants_eq]
    by_cases hn : s.outcome ((Question.watching k).inNamespace n) = .allowed <;> simp [hn]

/-- The grants of one kind that count: the one for the cluster or, for a kind
with namespaces that is denied there, those of the namespaces that allow it. -/
theorem filter_admits_granted (hn : s.Named) (k : Kind) :
    (s.granted (.watching k)).filter admits =
      match s.outcome (.watching k) with
      | .allowed => [(Question.watching k).grant]
      | .failed => []
      | .denied =>
        if k.namespaced then
          (s.allowedIn (.watching k)).map fun n => ((Question.watching k).inNamespace n).grant
        else [] := by
  cases h : s.outcome (.watching k) with
  | allowed =>
    have hone : s.granted (.watching k) = [(Question.watching k).grant] := by
      simp [Setting.granted, Setting.ownGrants, h]
    have ha : admits (Question.watching k).grant = true := by
      simp [admits, Question.watching, Question.about, Question.grant]
    simp [hone, ha]
  | failed => simp [Setting.granted, Setting.ownGrants, h]
  | denied =>
    rw [granted_of_denied h]
    cases hk : k.namespaced with
    | true =>
      simp only [if_true, List.filter_eq_self]
      intro g hg
      obtain ⟨n, -, rfl⟩ := List.mem_map.mp hg
      simp [admits, Question.watching, Question.about, Question.grant, Question.inNamespace, hk]
    | false =>
      -- a grant in a namespace with a name says nothing about a kind without namespaces
      simp only [Bool.false_eq_true, if_false, List.filter_eq_nil_iff]
      intro g hg
      obtain ⟨n, hm, rfl⟩ := List.mem_map.mp hg
      have hne : n ≠ "" := hn n (List.mem_of_mem_filter hm)
      simp [admits, Question.watching, Question.about, Question.grant, Question.inNamespace, hk,
        hne]

/-- Whether a grant counts for the entry of a kind is a matter of its name. -/
theorem filter_about_granted (k k' : Kind) :
    (s.granted (.watching k')).filter (about k.name) =
      if k'.name = k.name then (s.granted (.watching k')).filter admits else [] := by
  have hkind : ∀ g ∈ s.granted (.watching k'), g.kind = k' := fun g hg => kind_of_mem_granted hg
  split
  · next he =>
    refine List.filter_congr fun g hg => ?_
    simp [about, hkind g hg, he]
  · next he =>
    refine List.filter_eq_nil_iff.mpr fun g hg => ?_
    simp [about, hkind g hg, he]

/-- Among kinds whose names differ, only its own question counts for a kind. -/
theorem filter_about_flatMap {ks : List Kind} (hk : k ∈ ks) (hd : (ks.map Kind.name).Nodup) :
    (ks.flatMap fun k' => s.granted (.watching k')).filter (about k.name) =
      (s.granted (.watching k)).filter admits := by
  induction ks with
  | nil => cases hk
  | cons k' ks ih =>
    obtain ⟨hnew, hd⟩ := List.nodup_cons.mp hd
    rw [List.flatMap_cons, List.filter_append, filter_about_granted]
    rcases List.mem_cons.mp hk with rfl | hk
    · -- none of the later kinds has this name
      have hrest : (ks.flatMap fun k' => s.granted (.watching k')).filter (about k.name) = [] := by
        refine List.filter_eq_nil_iff.mpr fun g hg => ?_
        obtain ⟨k', hk', hg⟩ := List.mem_flatMap.mp hg
        have hne : k'.name ≠ k.name := fun he => hnew (he ▸ List.mem_map_of_mem hk')
        have hkind : g.kind = k' := kind_of_mem_granted hg
        simp [about, hkind, hne]
      simp [hrest]
    · have hne : k'.name ≠ k.name := fun he => hnew (he ▸ List.mem_map_of_mem hk)
      simp [hne, ih hk hd]

-- ---------------------------------------------------------------------------
-- The grants of a run
-- ---------------------------------------------------------------------------

theorem allGranted_watchQuestions (s : Setting) (c : Catalog) :
    s.allGranted (Access.watchQuestions c) =
      c.toList.flatMap fun k => s.granted (.watching k) := by
  unfold Setting.allGranted Access.watchQuestions
  rw [List.flatMap_map]
  rfl

/-- The grants of a finished run that count for a kind. -/
theorem Probe.Reachable.filter_about_perm (h : Reachable s (Access.watchQuestions c) st)
    (hf : st.finished = true) (hn : s.Named) (hc : c.Named) (hk : k ∈ c.toList) :
    (st.grants.filter (about k.name)).Perm ((s.granted (.watching k)).filter admits) := by
  have hall := h.grants_perm_allGranted hn hf
  rw [allGranted_watchQuestions] at hall
  rw [← filter_about_flatMap hk hc.nodup_names]
  exact hall.filter _

-- ---------------------------------------------------------------------------
-- The entry of one kind
-- ---------------------------------------------------------------------------

section Entry

variable {w : Watched} {gs : List Grant}

/-- Grants give an entry unless the question leaves none that count. -/
theorem isSome_entryOf_iff (hn : s.Named)
    (hp : gs.Perm ((s.granted (.watching k)).filter admits)) :
    (entryOf gs).isSome ↔ s.outcome (.watching k) = .allowed ∨
      (s.outcome (.watching k) = .denied ∧ k.namespaced = true ∧
        ∃ n ∈ s.namespaces, s.outcome ((Question.watching k).inNamespace n) = .allowed) := by
  have hsome : (entryOf gs).isSome ↔ (s.granted (.watching k)).filter admits ≠ [] := by
    rw [Option.isSome_iff_ne_none, Ne, entryOf_eq_none_iff, ← List.length_eq_zero_iff,
      hp.length_eq, List.length_eq_zero_iff]
  rw [hsome, filter_admits_granted hn]
  cases h : s.outcome (.watching k) with
  | allowed => simp
  | failed => simp
  | denied => cases hk : k.namespaced <;> simp [Setting.allowedIn]

theorem kind_of_entryOf_perm (hp : gs.Perm ((s.granted (.watching k)).filter admits))
    (hw : entryOf gs = some w) : w.kind = k := by
  obtain ⟨g, hg, hkind⟩ := kind_of_entryOf hw
  have hgranted : g ∈ s.granted (.watching k) := List.mem_of_mem_filter (hp.mem_iff.mp hg)
  rw [hkind]
  exact kind_of_mem_granted hgranted

theorem namespaces_of_allowed (hn : s.Named)
    (hp : gs.Perm ((s.granted (.watching k)).filter admits)) (hw : entryOf gs = some w)
    (h : s.outcome (.watching k) = .allowed) : w.namespaces = [] := by
  rw [filter_admits_granted hn] at hp
  simp only [h] at hp
  rw [namespaces_of_entryOf hw, List.perm_singleton.mp hp]
  rfl

theorem namespaces_of_not_allowed (hn : s.Named)
    (hp : gs.Perm ((s.granted (.watching k)).filter admits)) (hw : entryOf gs = some w)
    (h : s.outcome (.watching k) ≠ .allowed) :
    w.namespaces ≠ [] ∧ w.namespaces.Perm (s.allowedIn (.watching k)) := by
  have hsome : (entryOf gs).isSome := by rw [hw]; rfl
  rcases (isSome_entryOf_iff hn hp).mp hsome with ha | ⟨hd, hk, n, hm, hallow⟩
  · exact absurd ha h
  rw [filter_admits_granted hn] at hp
  simp only [hd, hk, if_true] at hp
  -- the namespaces of the grants are those where they were given, and these have names
  have hns : w.namespaces.Perm (s.allowedIn (.watching k)) := by
    rw [namespaces_of_entryOf hw]
    have hmap := (hp.map Grant.ns).filter (!·.isEmpty)
    rw [List.map_map] at hmap
    have hid : (Grant.ns ∘ fun n => ((Question.watching k).inNamespace n).grant) = id := rfl
    rw [hid, List.map_id] at hmap
    have hself : (s.allowedIn (.watching k)).filter (!·.isEmpty) = s.allowedIn (.watching k) := by
      refine List.filter_eq_self.mpr fun n hm => ?_
      simpa using hn n (List.mem_of_mem_filter hm)
    rwa [hself] at hmap
  refine ⟨?_, hns⟩
  intro hnil
  rw [hnil] at hns
  have hin : n ∈ s.allowedIn (.watching k) := List.mem_filter.mpr ⟨hm, by simpa using hallow⟩
  rw [List.nil_perm.mp hns] at hin
  cases hin

end Entry

-- ---------------------------------------------------------------------------
-- The whole plan
-- ---------------------------------------------------------------------------

/-- Of the grants that count, those for the whole cluster are one for each kind
that is allowed there. -/
theorem countP_whole (hn : s.Named) (ks : List Kind) :
    (ks.flatMap fun k => s.granted (.watching k)).countP (fun g => g.ns.isEmpty && admits g) =
      ks.countP fun k => s.outcome (.watching k) = .allowed := by
  induction ks with
  | nil => rfl
  | cons k ks ih =>
    rw [List.flatMap_cons, List.countP_append, ih, List.countP_cons, Nat.add_comm]
    congr 1
    rw [← List.countP_filter, filter_admits_granted hn]
    cases h : s.outcome (.watching k) with
    | allowed => rfl
    | failed => rfl
    | denied =>
      simp only [reduceCtorEq, decide_false, Bool.false_eq_true, if_false, List.countP_eq_zero]
      intro g hg
      split at hg
      · obtain ⟨n, hm, rfl⟩ := List.mem_map.mp hg
        have hne : n ≠ "" := hn n (List.mem_of_mem_filter hm)
        simpa [Question.inNamespace, Question.grant] using hne
      · cases hg

/-- Every schedule of the probes for a catalog ends with an exact plan. -/
theorem Probe.Reachable.exact (h : Reachable s (Access.watchQuestions c) st)
    (hf : st.finished = true) (hn : s.Named) (hc : c.Named) :
    (ofGrants st.grants).Exact s c := by
  have hperm : ∀ k ∈ c.toList, (st.grants.filter (about k.name)).Perm
      ((s.granted (.watching k)).filter admits) := fun k hk => h.filter_about_perm hf hn hc hk
  have hall := h.grants_perm_allGranted hn hf
  rw [allGranted_watchQuestions] at hall
  constructor
  case present =>
    intro k hk
    rw [get?_ofGrants]
    exact isSome_entryOf_iff hn (hperm k hk)
  case kind =>
    intro k hk w hw
    rw [get?_ofGrants] at hw
    exact kind_of_entryOf_perm (hperm k hk) hw
  case whole =>
    intro k hk w hw
    rw [get?_ofGrants] at hw
    exact namespaces_of_allowed hn (hperm k hk) hw
  case scattered =>
    intro k hk w hw
    rw [get?_ofGrants] at hw
    exact namespaces_of_not_allowed hn (hperm k hk) hw
  case names =>
    intro n w hw
    rw [get?_ofGrants] at hw
    obtain ⟨g, hg, -⟩ := kind_of_entryOf hw
    obtain ⟨hmem, habout⟩ := List.mem_filter.mp hg
    obtain ⟨k, hk, hgk⟩ := List.mem_flatMap.mp (hall.mem_iff.mp hmem)
    have hkind : g.kind = k := kind_of_mem_granted hgk
    unfold about at habout
    rw [Bool.and_eq_true, beq_iff_eq, hkind] at habout
    exact ⟨k, hk, habout.2⟩
  case grants =>
    have hsum : ((ofGrants st.grants).toList.map (·.namespaces.length)).sum =
        st.grants.countP fun g => admits g && !g.ns.isEmpty := sum_ofGrants st.grants
    rw [grants_ofGrants, hsum, ← countP_whole hn, ← hall.countP_eq]
    have hsplit := List.countP_eq_countP_filter_add st.grants admits (·.ns.isEmpty)
    rw [List.countP_filter, List.countP_filter] at hsplit
    simp only [Bool.and_comm (admits _)] at hsplit ⊢
    exact hsplit

-- ---------------------------------------------------------------------------
-- The answer to a caller
-- ---------------------------------------------------------------------------

/--
**Exactness of what a caller may watch.** For every catalog, every list of
namespaces with names, every authorizer and every limit: the answer to a caller
is an exact plan. It is the plan of one schedule of the probes, and the plan of
every other schedule is exact as well.
-/
theorem Access.watches_exact (ks : List Kind) (namespaces : List String)
    (decide : Identity → Question → Answer) (limits : Limits) (i : Identity)
    (hn : ∀ n ∈ namespaces, n ≠ "") :
    let c := Catalog.ofList ks
    let a : Access := ⟨c, .ok namespaces, decide, limits⟩
    let s := a.setting i namespaces
    (∀ st, Reachable s (watchQuestions c) st → st.finished = true →
      (ofGrants st.grants).Exact s c) ∧
    ∃ p, (a.watches i).result = .ok p ∧ p.Exact s c ∧
      ∃ st, Reachable s (watchQuestions c) st ∧ st.finished = true ∧ p = ofGrants st.grants := by
  intro c a s
  have hs : s.Named := hn
  have hc : c.Named := Catalog.named_ofList ks
  refine ⟨fun st h hf => h.exact hf hs hc, ?_⟩
  obtain ⟨st, h, hf, -, hgrants, -⟩ := Setting.exists_finished hs (watchQuestions c)
  refine ⟨ofGrants st.grants, ?_, h.exact hf hs hc, st, h, hf, rfl⟩
  rw [hgrants]
  rfl

-- ---------------------------------------------------------------------------
-- A cluster with a role that names nodes
-- ---------------------------------------------------------------------------

/-- Nodes have no namespace. -/
def nodes : Kind := ⟨"Node", "nodes", "api/v1", false⟩

/-- Maps of settings have one. -/
def configMaps : Kind := ⟨"ConfigMap", "configmaps", "api/v1", true⟩

/-- Whoever asks, everything is allowed in one team's namespace and denied
elsewhere, so a role there may name nodes as well. -/
def teamOnly : Identity → Question → Answer :=
  fun _ q => if q.ns = "team-a" then ⟨.allow, 0⟩ else ⟨.deny, 0⟩

/-- The access of whoever asks there. -/
def teamAccess : Access :=
  ⟨.ofList [nodes, configMaps], .ok ["team-a", "team-b"], teamOnly, .standard⟩

/-- The answer has no entry for nodes, and the one namespace for maps of settings. -/
theorem teamAccess_watches :
    (∀ n ∈ ["team-a", "team-b"], n ≠ "") ∧
    ∃ p, (teamAccess.watches ⟨"alice", []⟩).result = .ok p ∧
      p.entries.get? "Node" = none ∧
      p.entries.get? "ConfigMap" = some ⟨configMaps, ["team-a"]⟩ := by
  have hn : ∀ n ∈ ["team-a", "team-b"], n ≠ "" := by decide
  obtain ⟨-, p, hp, hexact, -⟩ := Access.watches_exact [nodes, configMaps] ["team-a", "team-b"]
    teamOnly .standard ⟨"alice", []⟩ hn
  have hkinds : (Catalog.ofList [nodes, configMaps]).toList = [configMaps, nodes] := by decide
  have hnodes : nodes ∈ (Catalog.ofList [nodes, configMaps]).toList := by simp [hkinds]
  have hmaps : configMaps ∈ (Catalog.ofList [nodes, configMaps]).toList := by simp [hkinds]
  -- the role allows nodes in a namespace, where it says nothing
  have hnone : p.entries.get? "Node" = none := by
    refine Option.not_isSome_iff_eq_none.mp fun h => ?_
    exact absurd ((hexact.present nodes hnodes).mp h) (by decide)
  have hsome : (p.entries.get? "ConfigMap").isSome :=
    (hexact.present configMaps hmaps).mpr (by decide)
  obtain ⟨w, hw⟩ := Option.isSome_iff_exists.mp hsome
  have hkind : w.kind = configMaps := hexact.kind configMaps hmaps w hw
  have hns : w.namespaces = ["team-a"] :=
    List.perm_singleton.mp (hexact.scattered configMaps hmaps w hw (by decide)).2
  refine ⟨hn, p, hp, hnone, ?_⟩
  rw [hw, ← hkind, ← hns]

end WatchGate
