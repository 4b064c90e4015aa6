import WatchGate.Proofs.Discovery
import WatchGate.Proofs.Location
import WatchGate.Proofs.Review
import WatchGate.Proofs.Watches

/-!
# WatchGate — what is streamed was authorized

A stream is opened at the path of a kind in a namespace. What was authorized is
a question, and the cluster sees it as a review. Between the two lie the base
path of a discovered kind, the group that is read off it, the fold of the
grants, and the path that is built at the end; an empty namespace and a kind
without namespaces have a rule of their own in each of them. The path of a
stream has a `Location`, and so do the attributes of a review: here they are
shown to be the same one.

Main results:

* `Cluster.watchPath_toKind` — the paths of a discovered kind are those of its
  resource, as its group is (`Cluster.group_toKind`).
* `WatchPlan.Exact.of_mem_paths` — each path of an exact plan comes from an
  allowed question.
* `Access.streams_authorized` — every stream that a caller is given was asked
  for and allowed, and no other stream has its path.
-/

namespace WatchGate

open Probe WatchPlan

namespace Cluster

-- ---------------------------------------------------------------------------
-- Kinds of served resources
-- ---------------------------------------------------------------------------

/-- A resource whose version has a name, and no part of which holds a slash. -/
structure Served.Plain (r : Served) : Prop where
  named : r.version ≠ ""
  group : '/' ∉ r.group.toList
  version : '/' ∉ r.version.toList
  plural : '/' ∉ r.plural.toList

/-- Where the instances of a resource in a namespace are served; the empty
namespace means the whole cluster. -/
def Served.location (r : Served) (ns : String) : Location :=
  ⟨r.group, r.version, Review.nonEmpty? ns, r.plural⟩

variable {r : Served}

theorem Served.Plain.versioned (h : r.Plain) : r.Versioned := ⟨h.named, h.group, h.version⟩

/-- A kind is watched where its resource is served, and across the cluster if
its instances have no namespace. -/
theorem watchPath_toKind (h : r.Plain) (ns : String) :
    r.toKind.watchPath ns = (r.location (if r.namespaced then ns else "")).path := by
  have hbase : String.ofList (Kind.trimSlashes r.toKind.base.toList) = r.base := by
    rw [base_toKind h.versioned, trimSlashes_base h.versioned, String.ofList_toList]
  have hkind : r.toKind.namespaced = r.namespaced := rfl
  have hplural : r.toKind.plural = r.plural := rfl
  unfold Kind.watchPath
  rw [← String.toList_inj, hbase, hkind, hplural]
  unfold Location.path Location.segments Served.location Review.nonEmpty? Served.base
  by_cases hg : r.group = "" <;> cases r.namespaced <;> by_cases hn : ns = "" <;>
    simp [hg, hn, Text.glue]

theorem plain_location (h : r.Plain) {ns : String} (hns : '/' ∉ ns.toList) :
    (r.location ns).Plain := by
  refine ⟨h.group, h.version, ?_, h.plural⟩
  intro n hn
  rw [nonEmpty?_eq_some hn]
  exact hns

/-- The review of the question about a kind in a namespace names the location
where the resource is served there. -/
theorem review_watching (h : r.Plain) (i : Identity) (ns : String) :
    Review.make i ((Question.watching r.toKind).inNamespace ns) =
      ⟨i, r.group, r.plural, .watch, (r.location ns).ns, none, none⟩ := by
  have hgroup : ((Question.watching r.toKind).inNamespace ns).kind.group = r.group :=
    group_toKind h.versioned
  unfold Review.make
  rw [hgroup]
  rfl

end Cluster

-- ---------------------------------------------------------------------------
-- The questions behind a plan
-- ---------------------------------------------------------------------------

variable {s : Setting} {c : Catalog} {st : State} {k : Kind} {n : String}

/-- Behind every path of an exact plan is a question that was allowed where the
path leads, about a kind that may be watched there. -/
theorem WatchPlan.Exact.of_mem_paths {p : WatchPlan} (h : p.Exact s c) {w : Watched}
    (hw : w ∈ p.toList) {x : String × String} (hx : x ∈ w.paths) :
    w.kind ∈ c.toList ∧ x.2 = w.kind.watchPath x.1 ∧
      s.outcome ((Question.watching w.kind).inNamespace x.1) = .allowed ∧
      (x.1 = "" ∨ w.kind.namespaced = true ∧ x.1 ∈ s.namespaces ∧
        s.outcome (.watching w.kind) = .denied) := by
  obtain ⟨n, hn⟩ := NameMap.mem_values_iff.mp hw
  obtain ⟨k, hk, rfl⟩ := h.names n w hn
  obtain rfl := h.kind k hk w hn
  have hsome : (p.entries.get? w.kind.name).isSome := by rw [hn]; rfl
  unfold Watched.paths Watched.clusterWide at hx
  rcases (h.present _ hk).mp hsome with ha | ⟨hd, hns, -⟩
  · -- allowed for the whole cluster, and watched there
    rw [h.whole _ hk w hn ha] at hx
    obtain rfl := List.mem_singleton.mp hx
    exact ⟨hk, rfl, ha, Or.inl rfl⟩
  · -- denied there, and watched in namespaces
    obtain ⟨hne, hperm⟩ := h.scattered _ hk w hn (by simp [hd])
    rw [if_neg (by simpa using hne)] at hx
    obtain ⟨m, hm, rfl⟩ := List.mem_map.mp hx
    obtain ⟨hlisted, hallow⟩ := List.mem_filter.mp (hperm.mem_iff.mp hm)
    exact ⟨hk, rfl, by simpa using hallow, Or.inr ⟨hns, hlisted, hd⟩⟩

/-- A finished run asked about every kind across the cluster, and where that was
denied in every namespace. -/
theorem Probe.Reachable.mem_asked (h : Reachable s (Access.watchQuestions c) st)
    (hf : st.finished = true) (hs : s.Named) (hk : k ∈ c.toList)
    (hn : n = "" ∨ n ∈ s.namespaces ∧ s.outcome (.watching k) = .denied) :
    (Question.watching k).inNamespace n ∈ st.asked := by
  have hall := h.asked_perm_allAsked hs hf
  rw [hall.mem_iff]
  refine List.mem_flatMap.mpr ⟨.watching k, List.mem_map.mpr ⟨k, hk, rfl⟩, ?_⟩
  rw [Setting.asked_eq_cons]
  rcases hn with rfl | ⟨hm, hd⟩
  · exact List.mem_cons_self
  · refine List.mem_cons_of_mem _ ?_
    unfold Setting.owes
    rw [if_pos hd]
    exact List.mem_map.mpr ⟨n, hm, rfl⟩

-- ---------------------------------------------------------------------------
-- Streams
-- ---------------------------------------------------------------------------

/-- What has to be true of a stream at a path: the path leads to one location
only, and the authorizer was asked whether the caller may watch there and said
so in time. The review of that question names a namespace where the path does. -/
structure Authorized (s : Setting) (i : Identity) (asked : List Question) (l : Location)
    (path : String) : Prop where
  leads : path = l.path
  decoded : Location.ofPath? path = some l
  unique : ∀ l' : Location, l'.Plain → l'.path = path → l' = l
  allowed : ∃ q ∈ asked, (s.decide q).verdict = .allow ∧ (s.decide q).delay ≤ s.limits.timeout ∧
    Cluster.Review.make i q = ⟨i, l.group, l.plural, .watch, l.ns, none, none⟩

section Streams

open Cluster

variable {rs : List Served} {r r' : Served} {w w' : Watched} {x x' : String × String}

/-- The path of a kind leads to the location of its resource. -/
theorem path_of_kind (h : r.Plain) (hk : w.kind = r.toKind) (hpath : x.2 = w.kind.watchPath x.1)
    (hx : x.1 = "" ∨ w.kind.namespaced = true) : x.2 = (r.location x.1).path := by
  have hns : (if r.namespaced then x.1 else "") = x.1 := by
    rcases hx with hx | hx
    · simp [hx]
    · rw [hk] at hx
      exact if_pos hx
  rw [hpath, hk, watchPath_toKind h, hns]

/-- The plan of a finished run, and where its paths lead: each to the location
of a resource, in no namespace or in a listed one. -/
theorem Probe.Reachable.path_eq
    (h : Reachable s (Access.watchQuestions (Discovery.catalogOf rs)) st)
    (hf : st.finished = true) (hs : ∀ n ∈ s.namespaces, n ≠ "" ∧ '/' ∉ n.toList)
    (hw : w ∈ (ofGrants st.grants).toList) (hx : x ∈ w.paths) :
    '/' ∉ x.1.toList ∧ ∀ r : Served, r.Plain → w.kind = r.toKind → x.2 = (r.location x.1).path := by
  have hnamed : s.Named := fun n hn => (hs n hn).1
  have hexact := h.exact hf hnamed (named_catalogOf rs)
  obtain ⟨-, hpath, -, hns⟩ := hexact.of_mem_paths hw hx
  constructor
  · rcases hns with hns | ⟨-, hns, -⟩
    · simp [hns]
    · exact (hs _ hns).2
  · intro r hr hk
    exact path_of_kind hr hk hpath (hns.imp_right And.left)

/-- Every path in the plan of a finished run was authorized. -/
theorem Probe.Reachable.authorized
    (h : Reachable s (Access.watchQuestions (Discovery.catalogOf rs)) st)
    (hf : st.finished = true) (hr : ∀ r ∈ rs, r.Plain)
    (hs : ∀ n ∈ s.namespaces, n ≠ "" ∧ '/' ∉ n.toList) (i : Identity)
    (hw : w ∈ (ofGrants st.grants).toList) (hx : x ∈ w.paths) :
    ∃ r ∈ rs, w.kind = r.toKind ∧ Authorized s i st.asked (r.location x.1) x.2 := by
  have hnamed : s.Named := fun n hn => (hs n hn).1
  have hexact := h.exact hf hnamed (named_catalogOf rs)
  obtain ⟨hk, -, hallow, hns⟩ := hexact.of_mem_paths hw hx
  obtain ⟨r, hmem, hkind⟩ := exists_of_mem_catalogOf hk
  obtain ⟨hslash, hpath⟩ := h.path_eq hf hs hw hx
  have hloc := hpath r (hr r hmem) hkind
  have hplain := plain_location (hr r hmem) hslash
  refine ⟨r, hmem, hkind, hloc, ?_, ?_, ?_⟩
  · rw [hloc]
    exact Location.ofPath?_path hplain
  · intro l hl he
    exact Location.path_injective hl hplain (he.trans hloc)
  · -- the question behind the path was put, and answered in time
    have hasked := h.mem_asked hf hnamed hk (hns.imp_right And.right)
    obtain ⟨hverdict, hdelay⟩ := Setting.outcome_eq_allowed_iff.mp hallow
    refine ⟨_, hasked, hverdict, hdelay, ?_⟩
    rw [hkind]
    exact review_watching (hr r hmem) i x.1

/-- Two paths in the plan of a finished run are the same only at one location. -/
theorem Probe.Reachable.location_unique
    (h : Reachable s (Access.watchQuestions (Discovery.catalogOf rs)) st)
    (hf : st.finished = true) (hs : ∀ n ∈ s.namespaces, n ≠ "" ∧ '/' ∉ n.toList)
    (hw : w ∈ (ofGrants st.grants).toList) (hw' : w' ∈ (ofGrants st.grants).toList)
    (hx : x ∈ w.paths) (hx' : x' ∈ w'.paths) (hr : r.Plain) (hr' : r'.Plain)
    (hk : w.kind = r.toKind) (hk' : w'.kind = r'.toKind) (he : x.2 = x'.2) :
    r.group = r'.group ∧ r.version = r'.version ∧ r.plural = r'.plural ∧ x.1 = x'.1 := by
  obtain ⟨hslash, hpath⟩ := h.path_eq hf hs hw hx
  obtain ⟨hslash', hpath'⟩ := h.path_eq hf hs hw' hx'
  have hsame : r.location x.1 = r'.location x'.1 := by
    refine Location.path_injective (plain_location hr hslash) (plain_location hr' hslash') ?_
    rw [← hpath r hr hk, ← hpath' r' hr' hk', he]
  obtain ⟨hgroup, hversion, hns, hplural⟩ := Location.mk.inj hsame
  exact ⟨hgroup, hversion, hplural, nonEmpty?_injective hns⟩

/--
**What is streamed is what was authorized.** For every catalog of discovered
resources with a version and without slashes, every list of namespaces with
names and without slashes, every authorizer, every limit and every schedule of
the probes: each namespace and path of the plan is at the location of a served
resource, the one its entry's kind was made of; no other location has the path;
and the authorizer allowed a question whose review names the same group,
resource and namespace. Two streams with one path are at one location. The
answer to a caller is the plan of such a schedule.
-/
theorem Access.streams_authorized (rs : List Served) (namespaces : List String)
    (decide : Identity → Question → Answer) (limits : Limits) (i : Identity)
    (hr : ∀ r ∈ rs, r.Plain) (hn : ∀ n ∈ namespaces, n ≠ "" ∧ '/' ∉ n.toList) :
    let c := Discovery.catalogOf rs
    let a : Access := ⟨c, .ok namespaces, decide, limits⟩
    let s := a.setting i namespaces
    (∀ st, Reachable s (watchQuestions c) st → st.finished = true →
      (∀ w ∈ (ofGrants st.grants).toList, ∀ ns path, (ns, path) ∈ w.paths →
        ∃ r ∈ rs, w.kind = r.toKind ∧ Authorized s i st.asked (r.location ns) path) ∧
      ∀ w ∈ (ofGrants st.grants).toList, ∀ w' ∈ (ofGrants st.grants).toList,
        ∀ ns ns' path, (ns, path) ∈ w.paths → (ns', path) ∈ w'.paths →
          ∀ r ∈ rs, ∀ r' ∈ rs, w.kind = r.toKind → w'.kind = r'.toKind →
            r.group = r'.group ∧ r.version = r'.version ∧ r.plural = r'.plural ∧ ns = ns') ∧
    ∃ st, Reachable s (watchQuestions c) st ∧ st.finished = true ∧
      (a.watches i).result = .ok (ofGrants st.grants) := by
  intro c a s
  have hs : ∀ n ∈ s.namespaces, n ≠ "" ∧ '/' ∉ n.toList := hn
  have hnamed : s.Named := fun n hn => (hs n hn).1
  constructor
  · intro st h hf
    constructor
    · intro w hw ns path hx
      exact h.authorized hf hr hs i hw hx
    · intro w hw w' hw' ns ns' path hx hx' r hmem r' hmem' hk hk'
      exact h.location_unique hf hs hw hw' hx hx' (hr r hmem) (hr r' hmem') hk hk' rfl
  · obtain ⟨st, h, hf, -, hgrants, -⟩ := Setting.exists_finished hnamed (watchQuestions c)
    refine ⟨st, h, hf, ?_⟩
    rw [hgrants]
    rfl

/-- Deployments, as their group serves them. -/
def deployments : Served := ⟨"apps", "v1", "Deployment", "deployments", true, ["list", "watch"]⟩

/-- The access of whoever asks where `teamOnly` decides. -/
def appsAccess : Access :=
  ⟨Discovery.catalogOf [deployments], .ok ["team-a", "team-b"], teamOnly, .standard⟩

/-- The one stream that is left is in the one team's namespace. -/
theorem appsAccess_streams :
    (∀ r ∈ [deployments], r.Plain) ∧ (∀ n ∈ ["team-a", "team-b"], n ≠ "" ∧ '/' ∉ n.toList) ∧
    ∃ p, (appsAccess.watches ⟨"alice", []⟩).result = .ok p ∧ p.connections = 1 ∧
      ∀ w ∈ p.toList, ∀ ns path, (ns, path) ∈ w.paths →
        path = "/apis/apps/v1/namespaces/team-a/deployments" := by
  have hr : ∀ r ∈ [deployments], r.Plain := by
    intro r hr
    rw [List.mem_singleton.mp hr]
    exact ⟨by decide, by decide, by decide, by decide⟩
  have hn : ∀ n ∈ ["team-a", "team-b"], n ≠ "" ∧ '/' ∉ n.toList := by decide
  obtain ⟨hall, st, h, hf, hp⟩ := Access.streams_authorized [deployments] ["team-a", "team-b"]
    teamOnly .standard ⟨"alice", []⟩ hr hn
  have hone : (appsAccess.watches ⟨"alice", []⟩).result.toOption.map connections = some 1 := by
    decide +kernel
  have hp' : (appsAccess.watches ⟨"alice", []⟩).result = .ok (ofGrants st.grants) := hp
  rw [hp'] at hone
  refine ⟨hr, hn, _, hp', Option.some.inj hone, ?_⟩
  intro w hw ns path hx
  obtain ⟨r, hmem, -, hauth⟩ := (hall st h hf).1 w hw ns path hx
  obtain rfl := List.mem_singleton.mp hmem
  obtain ⟨q, -, hverdict, -, hreview⟩ := hauth.allowed
  -- only in this namespace does the authorizer allow anything
  have hteam : q.ns = "team-a" := by
    by_contra hne
    have hdeny : teamOnly ⟨"alice", []⟩ q = ⟨.deny, 0⟩ := if_neg hne
    have hv : (teamOnly ⟨"alice", []⟩ q).verdict = .allow := hverdict
    rw [hdeny] at hv
    cases hv
  have hns : ns = "team-a" := by
    rw [← hteam]
    exact (nonEmpty?_injective (congrArg Review.ns hreview)).symm
  rw [hauth.leads, hns]
  rfl

end Streams

end WatchGate
