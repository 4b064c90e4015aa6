import WatchGate.Cluster.Discovery
import WatchGate.Proofs.BasePath
import WatchGate.Proofs.Catalog

/-!
# WatchGate — the catalog that discovery makes

Groups are gone through in their order, and in each the resources of the version
that speaks for it. A resource enters the catalog if it may be listed and watched
and its kind is not there yet. To insert into a catalog replaces what is there, so
that the first of a kind stays is not a matter of the map but of the check before
it; `get?_add` says what the two come to, and it is all that later steps need. What
the catalog holds under a name is then what a search through the resources finds
(`get?_catalogOf`).

The group and the version of a resource are written into one text, the base path of
its kind, and the group is read off it again. As long as neither holds a slash and
the version is not empty, nothing is lost on the way.

Main results:

* `get?_catalogOf` — the entry of a name is the first resource of this kind that may
  be listed and watched.
* `group_toKind` — the group of a kind is the group of its resource.
* `Discovery.catalog_discovered` — what a catalog of groups holds: which names, what
  under each of them, and how many.
-/

namespace WatchGate

namespace Cluster

variable {r : Served} {rs : List Served} {c : Catalog}

-- ---------------------------------------------------------------------------
-- Kinds of served resources
-- ---------------------------------------------------------------------------

/-- A resource whose version has a name, and neither group nor version of which
holds a slash. -/
structure Served.Versioned (r : Served) : Prop where
  named : r.version ≠ ""
  group : '/' ∉ r.group.toList
  version : '/' ∉ r.version.toList

/-- Nothing is dropped from a text without slashes at its ends. -/
theorem trimSlashes_eq_self {c : Char} (cs : List Char) {vs : List Char} (hc : c ≠ '/')
    (hne : vs ≠ []) (hv : '/' ∉ vs) : Kind.trimSlashes (c :: (cs ++ vs)) = c :: (cs ++ vs) := by
  refine Text.stripBoth_eq_self (fun d hd => ?_) fun d hd => ?_
  · obtain rfl : c = d := Option.some.inj hd
    simpa using hc
  · -- the last character is one of the last part, which is not empty
    rw [← List.cons_append, List.getLast?_append_of_ne_nil _ hne] at hd
    have hmem : d ∈ vs := List.mem_of_getLast? hd
    have hslash : d ≠ '/' := fun he => hv (he ▸ hmem)
    simpa using hslash

theorem toList_base (r : Served) : r.base.toList =
    if r.group = "" then ['a', 'p', 'i', '/'] ++ r.version.toList
    else ['a', 'p', 'i', 's', '/'] ++ r.group.toList ++ ['/'] ++ r.version.toList := by
  unfold Served.base
  by_cases hg : r.group = "" <;> simp [hg]

theorem trimSlashes_base (h : r.Versioned) : Kind.trimSlashes r.base.toList = r.base.toList := by
  have hne : r.version.toList ≠ [] := by simpa using h.named
  rw [toList_base]
  split
  · exact trimSlashes_eq_self ['p', 'i', '/'] (by decide) hne h.version
  · exact trimSlashes_eq_self (['p', 'i', 's', '/'] ++ r.group.toList ++ ['/']) (by decide) hne
      h.version

theorem base_toKind (h : r.Versioned) : r.toKind.base = r.base := by
  unfold Served.toKind Kind.make
  rw [trimSlashes_base h, String.ofList_toList]

/-- The group of a kind is the group that its resource is served in. -/
theorem group_toKind (h : r.Versioned) : r.toKind.group = r.group := by
  by_cases hg : r.group = ""
  · unfold Kind.group
    rw [base_toKind h, toList_base]
    simp [hg, Kind.groupMark, Text.dropStart?]
  · refine Kind.group_apis (n := 0) (v := r.version) h.group ?_
    rw [base_toKind h]
    simp [Served.base, hg, Kind.slashes]

-- ---------------------------------------------------------------------------
-- The first of a kind
-- ---------------------------------------------------------------------------

theorem watchable_iff : r.watchable = true ↔ "list" ∈ r.verbs ∧ "watch" ∈ r.verbs := by
  simp [Served.watchable]

theorem contains_eq_false_iff {n : String} : c.contains n = false ↔ c.kinds.get? n = none := by
  unfold Catalog.contains
  rw [Option.isSome_eq_false_iff, Option.isNone_iff_eq_none]

/-- A resource that is gone through counts for the name of its kind, if it may be
watched, unless there is something under the name already. -/
theorem get?_add (c : Catalog) (r : Served) (n : String) :
    (Discovery.add c r).kinds.get? n =
      (c.kinds.get? n).or (if r.watchable ∧ r.kind = n then some r.toKind else none) := by
  have hput : (c.insert r.toKind).kinds.get? n =
      if r.kind = n then some r.toKind else c.kinds.get? n := Catalog.get?_insert c r.toKind n
  unfold Discovery.add
  cases hw : r.watchable with
  | false => simp
  | true =>
    by_cases hn : r.kind = n
    · subst hn
      cases hold : c.kinds.get? r.kind with
      | none =>
        have hfree : c.contains r.kind = false := contains_eq_false_iff.mpr hold
        simp [hfree, hput]
      | some k =>
        have htaken : c.contains r.kind = true := by simp [Catalog.contains, hold]
        simp [htaken, hold]
    · -- the names of other kinds are left alone
      cases c.contains r.kind <;> simp [hn, hput]

theorem catalogOf_append (rs : List Served) (r : Served) :
    Discovery.catalogOf (rs ++ [r]) = Discovery.add (Discovery.catalogOf rs) r := by
  unfold Discovery.catalogOf
  rw [List.foldl_append]
  rfl

/-- The first resource of a kind that may be listed and watched. -/
def Discovery.first? (rs : List Served) (n : String) : Option Served :=
  rs.find? fun r => r.watchable && r.kind = n

/-- Under a name there is the first resource of this kind that may be watched. -/
theorem get?_catalogOf (rs : List Served) (n : String) :
    (Discovery.catalogOf rs).kinds.get? n = (Discovery.first? rs n).map Served.toKind := by
  induction rs using List.reverseRecOn with
  | nil => rfl
  | append_singleton rs r ih =>
    have hone : (if r.watchable ∧ r.kind = n then some r.toKind else none) =
        (Discovery.first? [r] n).map Served.toKind := by
      unfold Discovery.first?
      by_cases hr : r.watchable ∧ r.kind = n <;> simp [hr]
    rw [catalogOf_append, get?_add, ih, hone, ← Option.map_or]
    unfold Discovery.first?
    rw [List.find?_append]

theorem first?_split {before after : List Served} (hw : r.watchable = true)
    (hbefore : ∀ r' ∈ before, r'.kind = r.kind → r'.watchable = false) :
    Discovery.first? (before ++ r :: after) r.kind = some r := by
  have hnone : before.find? (fun r' => r'.watchable && r'.kind = r.kind) = none := by
    rw [List.find?_eq_none]
    intro r' hr'
    by_cases hkind : r'.kind = r.kind <;> simp [hkind, hbefore r' hr']
  unfold Discovery.first?
  rw [List.find?_append, hnone, Option.none_or, List.find?_cons_of_pos (by simp [hw])]

/-- A search answers with a resource of the kind. -/
theorem of_first?_eq_some {n : String} (h : Discovery.first? rs n = some r) :
    r ∈ rs ∧ r.watchable = true ∧ r.kind = n := by
  refine ⟨List.mem_of_find?_eq_some h, ?_⟩
  simpa using List.find?_some h

theorem named_catalogOf (rs : List Served) : (Discovery.catalogOf rs).Named := by
  intro n k hk
  rw [get?_catalogOf] at hk
  obtain ⟨r, hr, rfl⟩ := Option.map_eq_some_iff.mp hk
  exact (of_first?_eq_some hr).2.2

/-- Every discovered kind is that of a resource. -/
theorem exists_of_mem_catalogOf {k : Kind} (h : k ∈ (Discovery.catalogOf rs).toList) :
    ∃ r ∈ rs, k = r.toKind := by
  rw [(named_catalogOf rs).mem_toList_iff, get?_catalogOf] at h
  obtain ⟨r, hr, hk⟩ := Option.map_eq_some_iff.mp h
  exact ⟨r, (of_first?_eq_some hr).1, hk.symm⟩

theorem contains_catalogOf {n : String} : (Discovery.catalogOf rs).contains n = true ↔
    ∃ r ∈ rs, r.watchable = true ∧ r.kind = n := by
  unfold Catalog.contains
  rw [get?_catalogOf, Option.isSome_map]
  unfold Discovery.first?
  rw [List.find?_isSome]
  simp

-- ---------------------------------------------------------------------------
-- How many kinds there are
-- ---------------------------------------------------------------------------

/-- There are as many kinds as names among the resources that may be watched. -/
theorem size_catalogOf (rs : List Served) : (Discovery.catalogOf rs).size =
    ((rs.filter Served.watchable).map Served.kind).dedup.length := by
  refine NameMap.size_eq_dedup fun n => contains_catalogOf.trans ?_
  simp [and_assoc]

end Cluster

-- ---------------------------------------------------------------------------
-- Discovered catalogs
-- ---------------------------------------------------------------------------

open Cluster

/-- A kind that describes a resource: its name, its plural and its scope are the
resource's, and so is the group, of which the base path tells as well. -/
structure Kind.Describes (k : Kind) (r : Served) : Prop where
  name : k.name = r.kind
  plural : k.plural = r.plural
  namespaced : k.namespaced = r.namespaced
  group : k.group = r.group
  core : r.group = "" → k.base = "api/" ++ r.version
  grouped : r.group ≠ "" → k.base = "apis/" ++ r.group ++ "/" ++ r.version

/-- What a catalog of resources has to hold. -/
structure Catalog.Discovered (c : Catalog) (rs : List Served) : Prop where
  /-- a name is there if some resource of this kind may be listed and watched -/
  present : ∀ n, c.contains n = true ↔
    ∃ r ∈ rs, r.kind = n ∧ "list" ∈ r.verbs ∧ "watch" ∈ r.verbs
  /-- and stands for the first of them: those before it that may not do not hide it,
  and none behind it replaces it -/
  first : ∀ before r after, rs = before ++ r :: after → "list" ∈ r.verbs → "watch" ∈ r.verbs →
    (∀ r' ∈ before, r'.kind = r.kind → ¬ ("list" ∈ r'.verbs ∧ "watch" ∈ r'.verbs)) →
    (c.resolve r.kind).Describes r
  size : c.size =
    ((rs.filter fun r => "list" ∈ r.verbs ∧ "watch" ∈ r.verbs).map Served.kind).dedup.length

variable {r : Served} {rs : List Served}

theorem describes_toKind (h : r.Versioned) : r.toKind.Describes r where
  name := rfl
  plural := rfl
  namespaced := rfl
  group := group_toKind h
  core hg := by
    rw [base_toKind h]
    simp [Served.base, hg]
  grouped hg := by
    rw [base_toKind h]
    simp [Served.base, hg]

/--
**The catalog that discovery makes.** For all groups, whatever versions they have and
whatever these serve, as long as no group's name holds a slash and every version has a
name without one: the kinds of the catalog are those of which some resource may be
listed and watched, among the resources of the versions that speak for the groups.
Each is described as the first such resource has it, wherever others of its kind come
in between, and there are as many as there are names of such kinds.
-/
theorem Cluster.Discovery.catalog_discovered (gs : List Group)
    (h : ∀ r ∈ gs.flatMap Group.recommended, r.Versioned) :
    (Discovery.catalogOfGroups gs).Discovered (gs.flatMap Group.recommended) := by
  unfold Discovery.catalogOfGroups
  generalize hrs : gs.flatMap Group.recommended = rs at h
  constructor
  case present =>
    intro n
    rw [contains_catalogOf]
    simp only [watchable_iff, and_comm]
  case first =>
    intro before r after hsplit hlist hwatch hbefore
    have hmem : r ∈ rs := by simp [hsplit]
    have hw : r.watchable = true := watchable_iff.mpr ⟨hlist, hwatch⟩
    have hfirst : Discovery.first? rs r.kind = some r := by
      rw [hsplit]
      refine first?_split hw fun r' hr' hkind => ?_
      exact Bool.eq_false_iff.mpr (mt watchable_iff.mp (hbefore r' hr' hkind))
    have hentry : (Discovery.catalogOf rs).resolve r.kind = r.toKind := by
      unfold Catalog.resolve
      rw [get?_catalogOf, hfirst]
      rfl
    rw [hentry]
    exact describes_toKind (h r hmem)
  case size =>
    rw [size_catalogOf]
    have hfilter : rs.filter Served.watchable =
        rs.filter fun r => "list" ∈ r.verbs ∧ "watch" ∈ r.verbs :=
      List.filter_congr fun r _ => Bool.eq_iff_iff.mpr (watchable_iff.trans decide_eq_true_iff.symm)
    rw [hfilter]

/-- Pods as an old group serves them, which does not let them be watched. -/
def unwatchedPods : Served := ⟨"legacy.k8s.io", "v1", "Pod", "pods", false, ["get", "list"]⟩

/-- Pods as the core group serves them. -/
def corePods : Served := ⟨"", "v1", "Pod", "pods", true, ["get", "list", "watch"]⟩

/-- Events as a group of their own serves them. -/
def groupedEvents : Served := ⟨"events.k8s.io", "v1", "Event", "events", true, ["list", "watch"]⟩

/-- Events as the core group serves them. -/
def coreEvents : Served := ⟨"", "v1", "Event", "events", true, ["list", "watch"]⟩

/-- Three groups. The second prefers none of its versions. -/
def threeGroups : List Group :=
  [⟨"legacy.k8s.io", [("v1", [unwatchedPods])], some "v1"⟩,
    ⟨"events.k8s.io", [("v1beta1", []), ("v1", [groupedEvents])], none⟩,
    ⟨"", [("v1", [corePods, coreEvents])], some "v1"⟩]

/-- The pods that cannot be watched do not hide those of the core group, and its events
come too late. -/
theorem threeGroups_discovered :
    (∀ r ∈ threeGroups.flatMap Group.recommended, r.Versioned) ∧
    ((Discovery.catalogOfGroups threeGroups).resolve "Pod").Describes corePods ∧
    ((Discovery.catalogOfGroups threeGroups).resolve "Event").Describes groupedEvents ∧
    (Discovery.catalogOfGroups threeGroups).size = 2 := by
  have hserved : threeGroups.flatMap Group.recommended =
      [unwatchedPods, groupedEvents, corePods, coreEvents] := by decide +kernel
  have hr : ∀ r ∈ threeGroups.flatMap Group.recommended, r.Versioned := by
    intro r hr
    simp only [hserved, List.mem_cons, List.not_mem_nil, or_false] at hr
    rcases hr with rfl | rfl | rfl | rfl <;> exact ⟨by decide, by decide, by decide⟩
  have hall := Discovery.catalog_discovered threeGroups hr
  rw [hserved] at hall
  refine ⟨hr, ?_, ?_, ?_⟩
  · exact hall.first [unwatchedPods, groupedEvents] corePods [coreEvents] rfl (by decide)
      (by decide) (by decide)
  · exact hall.first [unwatchedPods] groupedEvents [corePods, coreEvents] rfl (by decide)
      (by decide) (by decide)
  · rw [hall.size]
    decide

end WatchGate
