import WatchGate.Proofs.Setup
import WatchGate.Proofs.WatchPlan

/-!
# WatchGate — the numbers of a plan, and the grants behind its paths

Three numbers belong to a plan, and each is had in a way of its own: the entries are
counted, the connections are summed over the entries, and the grants are counted as
they come. They agree because of what one more grant does. It opens an entry, or adds
a namespace to one, or is for the cluster and adds nothing where an entry is; so the
connections grow by one at most (`connections_extend_le`), and only with the grants.

An entry without namespaces takes one connection, to the whole cluster. That there is
a grant for it follows from the entry being there: it is made of grants, and none of
them names a namespace (`exists_grant_of_mem_paths`).

Main result: `connections_backed`.
-/

namespace WatchGate

namespace NameMap

variable {α : Type} {m : NameMap α}

theorem entries_eq_nil_iff : m.entries = [] ↔ ∀ n, m.get? n = none := by
  constructor
  · intro h n
    unfold get?
    rw [h]
    rfl
  · intro h
    refine List.eq_nil_iff_forall_not_mem.mpr fun x hx => ?_
    have hsome : m.get? x.1 = some x.2 := get?_eq_some_iff.mpr hx
    rw [h] at hsome
    cases hsome

theorem size_le_sum {w : α → Nat} (hw : ∀ v, 1 ≤ w v) (m : NameMap α) : m.size ≤ m.sum w := by
  unfold size sum values
  rw [List.map_map]
  induction m.entries with
  | nil => exact Nat.le_refl 0
  | cons x xs ih =>
    have hx := hw x.2
    simp only [List.length_cons, List.map_cons, List.sum_cons, Function.comp_apply]
    omega

end NameMap

namespace WatchPlan

variable {gs : List Grant} {g : Grant} {n : String} {w : Watched}

-- ---------------------------------------------------------------------------
-- Connections and grants
-- ---------------------------------------------------------------------------

theorem connections_eq_sum (p : WatchPlan) : p.connections = p.entries.sum Watched.connections := by
  unfold connections toList NameMap.sum
  rw [List.sum_eq_foldr, List.foldr_map]

theorem one_le_connections (w : Watched) : 1 ≤ w.connections := Nat.le_max_right _ _

/-- One more grant takes one more connection at most. -/
theorem connections_extend_le (g : Grant) (present : Option Watched) :
    (extend g present).connections ≤ present.elim 0 Watched.connections + 1 := by
  have hlength := length_extend g present
  unfold Watched.connections
  rw [hlength]
  cases present with
  | none =>
    simp only [Option.elim_none]
    split <;> omega
  | some w =>
    simp only [Option.elim_some]
    split <;> omega

theorem connections_le_grants (gs : List Grant) :
    (ofGrants gs).connections ≤ (ofGrants gs).grants := by
  rw [connections_eq_sum]
  induction gs using List.reverseRecOn with
  | nil => exact Nat.le_refl 0
  | append_singleton gs g ih =>
    rw [ofGrants_append]
    cases ha : admits g with
    | false => rwa [add_of_not_admits ha]
    | true =>
      have hsum := NameMap.sum_alter Watched.connections (ofGrants gs).entries g.kind.name (extend g)
      have hextend := connections_extend_le g ((ofGrants gs).entries.get? g.kind.name)
      rw [add_of_admits ha]
      dsimp only
      omega

theorem size_le_connections (p : WatchPlan) : p.entries.size ≤ p.connections := by
  rw [connections_eq_sum]
  exact NameMap.size_le_sum one_le_connections p.entries

-- ---------------------------------------------------------------------------
-- Which grants count
-- ---------------------------------------------------------------------------

theorem admits_eq_false_iff : admits g = false ↔ g.kind.namespaced = false ∧ g.ns ≠ "" := by
  simp [admits]

/-- A grant that does not count leaves a plan as it is, and every other is counted. -/
theorem grants_add (p : WatchPlan) (g : Grant) :
    (p.add g).grants = p.grants + if g.kind.namespaced = false ∧ g.ns ≠ "" then 0 else 1 := by
  cases ha : admits g with
  | false => rw [add_of_not_admits ha, if_pos (admits_eq_false_iff.mp ha), Nat.add_zero]
  | true =>
    have hcounts : ¬ (g.kind.namespaced = false ∧ g.ns ≠ "") := by
      rw [← admits_eq_false_iff, ha]
      exact nofun
    rw [add_of_admits ha, if_neg hcounts]

/-- Where no grant has counted, there is nothing to watch. -/
theorem isEmpty_iff_grants (gs : List Grant) :
    (ofGrants gs).isEmpty = true ↔ (ofGrants gs).grants = 0 := by
  unfold isEmpty
  rw [List.isEmpty_iff, NameMap.entries_eq_nil_iff, grants_ofGrants, List.countP_eq_zero]
  constructor
  · intro hnone g hg ha
    -- a grant that counts has opened the entry of its kind
    have hempty := hnone g.kind.name
    rw [get?_ofGrants, entryOf_eq_none_iff, List.filter_eq_nil_iff] at hempty
    exact hempty g hg (by simp [about, ha])
  · intro hnone n
    rw [get?_ofGrants, entryOf_eq_none_iff, List.filter_eq_nil_iff]
    intro g hg habout
    rw [about, Bool.and_eq_true] at habout
    exact hnone g hg habout.1

theorem isEmpty_iff_size (p : WatchPlan) : p.isEmpty = true ↔ p.entries.size = 0 :=
  List.isEmpty_iff_length_eq_zero

theorem isEmpty_iff_connections (gs : List Grant) :
    (ofGrants gs).isEmpty = true ↔ (ofGrants gs).connections = 0 := by
  have hgrants := isEmpty_iff_grants gs
  have hsize := isEmpty_iff_size (ofGrants gs)
  have hle := connections_le_grants gs
  have hge := size_le_connections (ofGrants gs)
  constructor
  · intro h
    have := hgrants.mp h
    omega
  · intro h
    exact hsize.mpr (by omega)

-- ---------------------------------------------------------------------------
-- The grant behind a path
-- ---------------------------------------------------------------------------

theorem mem_filter_about_iff : g ∈ gs.filter (about n) ↔
    g ∈ gs ∧ admits g = true ∧ g.kind.name = n := by
  simp [about]

/-- Each path of an entry is that of a place in which a grant of this name was given. -/
theorem exists_grant_of_mem_paths (hw : (ofGrants gs).entries.get? n = some w)
    {x : String × String} (hx : x ∈ w.paths) :
    ∃ g ∈ gs, admits g = true ∧ g.kind.name = n ∧ g.ns = x.1 := by
  rw [get?_ofGrants] at hw
  have hnamespaces := namespaces_of_entryOf hw
  unfold Watched.paths Watched.clusterWide at hx
  split at hx
  · next hwide =>
    -- the entry has a grant, and it has no namespace to be for
    rw [List.mem_singleton] at hx
    subst hx
    rw [List.isEmpty_iff] at hwide
    obtain ⟨g, hg, -⟩ := kind_of_entryOf hw
    obtain ⟨hmem, ha, hname⟩ := mem_filter_about_iff.mp hg
    refine ⟨g, hmem, ha, hname, ?_⟩
    rw [hwide, eq_comm, List.filter_eq_nil_iff] at hnamespaces
    simpa using hnamespaces g.ns (List.mem_map_of_mem hg)
  · obtain ⟨ns, hns, rfl⟩ := List.mem_map.mp hx
    rw [hnamespaces] at hns
    obtain ⟨g, hg, rfl⟩ := List.mem_map.mp (List.mem_of_mem_filter hns)
    obtain ⟨hmem, ha, hname⟩ := mem_filter_about_iff.mp hg
    exact ⟨g, hmem, ha, hname, rfl⟩

theorem snd_of_mem_paths {x : String × String} (hx : x ∈ w.paths) :
    x.2 = w.kind.watchPath x.1 := by
  unfold Watched.paths at hx
  split at hx
  · rw [List.mem_singleton] at hx
    rw [hx]
  · obtain ⟨ns, -, rfl⟩ := List.mem_map.mp hx
    rfl

end WatchPlan

-- ---------------------------------------------------------------------------
-- Numbers and paths together
-- ---------------------------------------------------------------------------

open WatchPlan Multiwatch in
/-- How the numbers of a plan stand to each other and to what is dialed, and what stands behind
its paths. -/
structure WatchPlan.Backed (gs : List Grant) (p : WatchPlan) : Prop where
  /-- the connections are the paths of all entries -/
  paths : p.connections = (p.toList.map fun w => w.paths.length).sum
  entries_le : p.entries.size ≤ p.connections
  connections_le : p.connections ≤ p.grants
  /-- there is nothing to watch exactly where one of the numbers is zero, and then all are -/
  no_entries : p.isEmpty = true ↔ p.entries.size = 0
  no_connections : p.isEmpty = true ↔ p.connections = 0
  no_grants : p.isEmpty = true ↔ p.grants = 0
  /-- where each path has a URL, as many are resolved as the plan takes connections -/
  resolved : ∀ (b : Backend) (version : Nat) (targets : List Target),
    (resolve b version (places p)).2 = .ok targets → targets.length = p.connections
  /-- and the queue of a session that dials them has a place for each -/
  room : ∀ (s : Service) (r : Http.Request) (caller : Identity) (calls : List Call) (l : Launch),
    s.watches caller = .ok p → s.prepare r caller = (calls, .ok l) → ∀ outboundBuffer,
      (l.session outboundBuffer).feeds.length = p.connections ∧
      (l.session outboundBuffer).capacity = max (max outboundBuffer p.grants) 1 ∧
      p.connections ≤ (l.session outboundBuffer).capacity
  /-- a path that is watched under a name was granted to a kind of this name, in the very namespace,
  or for the cluster if it has none -/
  backed : ∀ n w, p.entries.get? n = some w → ∀ x ∈ w.paths, x.2 = w.kind.watchPath x.1 ∧
    ∃ g ∈ gs, g.kind.name = n ∧ g.ns = x.1 ∧ ¬ (g.kind.namespaced = false ∧ g.ns ≠ "")
  /-- a grant in a namespace for a kind that has none changes nothing -/
  passed_over : ∀ pre g post, gs = pre ++ g :: post → g.kind.namespaced = false ∧ g.ns ≠ "" →
    (ofGrants pre).add g = ofGrants pre
  /-- and every other grant is counted -/
  counted : ∀ pre g post, gs = pre ++ g :: post → ¬ (g.kind.namespaced = false ∧ g.ns ≠ "") →
    ((ofGrants pre).add g).grants = (ofGrants pre).grants + 1
  count : p.grants = gs.countP fun g => ¬ (g.kind.namespaced = false ∧ g.ns ≠ "")

namespace WatchPlan

open Multiwatch

theorem room_of_prepare {p : WatchPlan} {s : Service} {r : Http.Request} {caller : Identity}
    {calls : List Call} {l : Launch} (hp : s.watches caller = .ok p)
    (hl : s.prepare r caller = (calls, .ok l)) (outboundBuffer : Nat) :
    (l.session outboundBuffer).feeds.length = p.connections ∧
      (l.session outboundBuffer).capacity = max (max outboundBuffer p.grants) 1 := by
  obtain ⟨key, b, plan, targets, -, -, hplan, -, hresolve, rfl⟩ := prepare_eq_ok hl
  obtain rfl : p = plan := Except.ok.inj (hp.symm.trans hplan)
  refine ⟨?_, rfl⟩
  show (List.replicate targets.length Feed.dialed).length = p.connections
  rw [List.length_replicate, length_of_resolve hresolve, length_places]

/--
**Every connection of a plan is backed by a grant.** For every list of grants, of any kinds
and namespaces, in any order and with any repeats: the connections that the plan takes are its
paths, which are no fewer than its entries and no more than the grants that it counts, and so
many URLs a session resolves and has room for; each path was granted under its name and in its
namespace; and the grants that are not counted are those in a namespace for a kind that has none.
-/
theorem connections_backed (gs : List Grant) : (ofGrants gs).Backed gs where
  paths := by
    rw [← length_paths, WatchPlan.paths, List.length_flatMap]
  entries_le := size_le_connections _
  connections_le := connections_le_grants gs
  no_entries := isEmpty_iff_size _
  no_connections := isEmpty_iff_connections gs
  no_grants := isEmpty_iff_grants gs
  resolved b version targets h := by
    rw [length_of_resolve h, length_places]
  room s r caller calls l hp hl outboundBuffer := by
    obtain ⟨hfeeds, hcapacity⟩ := room_of_prepare hp hl outboundBuffer
    have hle := connections_le_grants gs
    exact ⟨hfeeds, hcapacity, by omega⟩
  backed n w hw x hx := by
    obtain ⟨g, hg, ha, hname, hns⟩ := exists_grant_of_mem_paths hw hx
    refine ⟨snd_of_mem_paths hx, g, hg, hname, hns, ?_⟩
    rw [← admits_eq_false_iff, ha]
    exact nofun
  passed_over pre g post _ hg := add_of_not_admits (admits_eq_false_iff.mpr hg) _
  counted pre g post _ hg := by
    rw [grants_add, if_neg hg]
  count := by
    rw [grants_ofGrants]
    refine List.countP_congr fun g _ => ?_
    rw [decide_eq_true_eq, ← admits_eq_false_iff, Bool.not_eq_false]

/-- Pods in two namespaces, of which one is granted twice, and nodes in one of them. -/
def repeatedGrants : List Grant :=
  [⟨⟨"Pod", "pods", "api/v1", true⟩, .watch, "", "ns-1"⟩,
    ⟨⟨"Node", "nodes", "api/v1", false⟩, .watch, "", "ns-1"⟩,
    ⟨⟨"Pod", "pods", "api/v1", true⟩, .watch, "", "ns-0"⟩,
    ⟨⟨"Pod", "pods", "api/v1", true⟩, .watch, "", "ns-1"⟩]

/-- Three of the four grants are counted, and the one entry takes as many connections. -/
theorem repeatedGrants_backed :
    (ofGrants repeatedGrants).grants = 3 ∧ (ofGrants repeatedGrants).entries.size = 1 ∧
      (ofGrants repeatedGrants).connections = 3 ∧
      ∃ g ∈ repeatedGrants, g.kind.name = "Pod" ∧ g.ns = "ns-0" := by
  have hbacked := connections_backed repeatedGrants
  have hentry : (ofGrants repeatedGrants).entries.get? "Pod" =
      some ⟨⟨"Pod", "pods", "api/v1", true⟩, ["ns-1", "ns-0", "ns-1"]⟩ := by decide
  obtain ⟨-, g, hg, hname, hns, -⟩ := hbacked.backed "Pod" _ hentry
    ("ns-0", "/api/v1/namespaces/ns-0/pods") (by decide)
  have hcount : (ofGrants repeatedGrants).grants = 3 := hbacked.count.trans (by decide)
  exact ⟨hcount, by decide, by decide, g, hg, hname, hns⟩

end WatchPlan

end WatchGate
