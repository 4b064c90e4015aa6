import WatchGate.Proofs.Connections

/-!
# WatchGate — the order in which grants arrive

Grants come from probes that end in any order. What a plan is made of does not depend
on it: the entry under a name is made of the grants that count for this name, and of two
lists in different orders these are the same ones in different orders. An entry is
there if there is one of them (`exists_entry_of_perm`), and its namespaces are theirs,
each list in the order of its own grants. Of an entry only the kind could tell which
grant was the first, and it does not where kinds of one name are equal.

A map of names is in order by itself, so that which names have an entry is all that the
names of a plan can depend on (`NameMap.names_eq_of_isSome`).

Main result: `grouped_of_perm`.
-/

namespace WatchGate

namespace NameMap

variable {α : Type}

/-- A sum over the values is one over the names. -/
theorem sum_eq_names (w : α → Nat) (m : NameMap α) :
    m.sum w = (m.names.map fun n => (m.get? n).elim 0 w).sum := by
  unfold sum values names
  rw [List.map_map, List.map_map]
  refine congrArg List.sum (List.map_congr_left fun x hx => ?_)
  have hsome : m.get? x.1 = some x.2 := get?_eq_some_iff.mpr hx
  simp only [Function.comp_apply, hsome, Option.elim_some]

end NameMap

namespace WatchPlan

variable {xs ys gs : List Grant} {g : Grant} {n : String} {w : Watched}

-- ---------------------------------------------------------------------------
-- One name
-- ---------------------------------------------------------------------------

/-- Whether a grant adds a namespace to the entry under a name. -/
def widens (n : String) (g : Grant) : Bool :=
  g.kind.name == n && g.kind.namespaced && !g.ns.isEmpty

/-- The namespaces of an entry are those of its own grants, in the order of these. -/
theorem namespaces_in_order (hw : (ofGrants gs).entries.get? n = some w) :
    w.namespaces = (gs.filter (widens n)).map Grant.ns := by
  rw [get?_ofGrants] at hw
  rw [namespaces_of_entryOf hw, List.filter_map, List.filter_filter]
  refine congrArg (List.map Grant.ns) (List.filter_congr fun g _ => ?_)
  cases hn : g.ns.isEmpty <;>
    simp [widens, about, admits, hn, Bool.and_comm, Function.comp_apply]

/-- In another order, the grants give an entry under the same names. -/
theorem exists_entry_of_perm (h : xs.Perm ys) (hw : (ofGrants xs).entries.get? n = some w) :
    ∃ w', (ofGrants ys).entries.get? n = some w' ∧ w'.namespaces.Perm w.namespaces := by
  have hfilter := h.filter (about n)
  have hsome : xs.filter (about n) ≠ [] := by
    rw [get?_ofGrants] at hw
    intro hnil
    rw [entryOf_eq_none_iff.mpr hnil] at hw
    cases hw
  have hentry : (ofGrants ys).entries.get? n ≠ none := by
    rw [get?_ofGrants, Ne, entryOf_eq_none_iff]
    exact fun hnil => hsome (hnil ▸ hfilter).eq_nil
  obtain ⟨w', hw'⟩ := Option.ne_none_iff_exists'.mp hentry
  refine ⟨w', hw', ?_⟩
  rw [namespaces_in_order hw', namespaces_in_order hw]
  exact (h.symm.filter (widens n)).map Grant.ns

theorem entry_eq_none_of_perm (h : xs.Perm ys) (hw : (ofGrants xs).entries.get? n = none) :
    (ofGrants ys).entries.get? n = none := by
  cases hw' : (ofGrants ys).entries.get? n with
  | none => rfl
  | some w' =>
    obtain ⟨w, hsome, -⟩ := exists_entry_of_perm h.symm hw'
    rw [hw] at hsome
    cases hsome

theorem isSome_entry_of_perm (h : xs.Perm ys) (n : String) :
    ((ofGrants xs).entries.get? n).isSome = ((ofGrants ys).entries.get? n).isSome := by
  cases hw : (ofGrants xs).entries.get? n with
  | none => rw [entry_eq_none_of_perm h hw]
  | some w =>
    obtain ⟨w', hw', -⟩ := exists_entry_of_perm h hw
    rw [hw']
    rfl

theorem connections_of_perm (h : xs.Perm ys) (n : String) :
    ((ofGrants xs).entries.get? n).elim 0 Watched.connections =
      ((ofGrants ys).entries.get? n).elim 0 Watched.connections := by
  cases hw : (ofGrants xs).entries.get? n with
  | none => rw [entry_eq_none_of_perm h hw]
  | some w =>
    obtain ⟨w', hw', hperm⟩ := exists_entry_of_perm h hw
    rw [hw']
    simp only [Option.elim_some, Watched.connections, hperm.length_eq]

-- ---------------------------------------------------------------------------
-- Kinds
-- ---------------------------------------------------------------------------

/-- Grants whose kinds are told apart by their names, as those of one catalog are. -/
def OneKindEach (gs : List Grant) : Prop :=
  ∀ g ∈ gs, ∀ g' ∈ gs, g.kind.name = g'.kind.name → g.kind = g'.kind

theorem kind_of_entry (hw : (ofGrants gs).entries.get? n = some w) :
    ∃ g ∈ gs, g.kind.name = n ∧ w.kind = g.kind := by
  rw [get?_ofGrants] at hw
  obtain ⟨g, hg, hkind⟩ := kind_of_entryOf hw
  obtain ⟨hmem, -, hname⟩ := mem_filter_about_iff.mp hg
  exact ⟨g, hmem, hname, hkind⟩

/-- The first grant of a name brings the kind that any of them would. -/
theorem kind_of_perm (h : xs.Perm ys) (hk : OneKindEach xs) (n : String) :
    ((ofGrants xs).entries.get? n).map Watched.kind =
      ((ofGrants ys).entries.get? n).map Watched.kind := by
  cases hw : (ofGrants xs).entries.get? n with
  | none => rw [entry_eq_none_of_perm h hw]
  | some w =>
    obtain ⟨w', hw', -⟩ := exists_entry_of_perm h hw
    obtain ⟨g, hg, hname, hkind⟩ := kind_of_entry hw
    obtain ⟨g', hg', hname', hkind'⟩ := kind_of_entry hw'
    have hsame := hk g hg g' (h.mem_iff.mpr hg') (hname.trans hname'.symm)
    rw [hw', Option.map_some, Option.map_some, hkind, hkind', hsame]

-- ---------------------------------------------------------------------------
-- Plans
-- ---------------------------------------------------------------------------

/-- Two plans that differ in the order of namespaces at most. -/
structure SameGroups (p p' : WatchPlan) : Prop where
  names : p'.entries.names = p.entries.names
  kinds : ∀ n, (p'.entries.get? n).map Watched.kind = (p.entries.get? n).map Watched.kind
  grants : p'.grants = p.grants
  isEmpty : p'.isEmpty = p.isEmpty
  connections : p'.connections = p.connections
  namespaces : ∀ n w w', p.entries.get? n = some w → p'.entries.get? n = some w' →
    w'.namespaces.Perm w.namespaces

theorem isEmpty_eq_names (p : WatchPlan) : p.isEmpty = p.entries.names.isEmpty := by
  unfold isEmpty NameMap.names
  cases p.entries.entries <;> rfl

theorem sameGroups_of_perm (h : xs.Perm ys) (hk : OneKindEach xs) :
    SameGroups (ofGrants xs) (ofGrants ys) := by
  have hnames : (ofGrants xs).entries.names = (ofGrants ys).entries.names :=
    NameMap.names_eq_of_isSome (isSome_entry_of_perm h)
  constructor
  case names => exact hnames.symm
  case kinds => exact fun n => (kind_of_perm h hk n).symm
  case grants => rw [grants_ofGrants, grants_ofGrants, h.countP_eq]
  case isEmpty => rw [isEmpty_eq_names, isEmpty_eq_names, hnames]
  case connections =>
    rw [connections_eq_sum, connections_eq_sum, NameMap.sum_eq_names, NameMap.sum_eq_names, hnames]
    exact congrArg List.sum (List.map_congr_left fun n _ => (connections_of_perm h n).symm)
  case namespaces =>
    intro n w w' hw hw'
    obtain ⟨w'', hw'', hperm⟩ := exists_entry_of_perm h hw
    cases hw'.symm.trans hw''
    exact hperm

/--
**Grouping does not depend on the order of arrival.** Of grants whose kinds are told apart by
their names, any order gives a plan with the same names, the same kind under each, the same
numbers, and under each name the same namespaces up to their order. This order is that in which
the grants of this very kind have arrived, whatever arrived in between. And grants may be taken
in parts: those of a list that follows another one are added to the plan of the first.
-/
theorem grouped_of_perm :
    (∀ xs ys : List Grant, xs.Perm ys →
      (∀ g ∈ xs, ∀ g' ∈ xs, g.kind.name = g'.kind.name → g.kind = g'.kind) →
      SameGroups (ofGrants xs) (ofGrants ys)) ∧
    (∀ gs n w, (ofGrants gs).entries.get? n = some w → w.namespaces =
      (gs.filter fun g => g.kind.name == n && g.kind.namespaced && !g.ns.isEmpty).map Grant.ns) ∧
    ∀ xs ys, ofGrants (xs ++ ys) = ys.foldl add (ofGrants xs) :=
  ⟨fun _ _ h hk => sameGroups_of_perm h hk, fun _ _ _ hw => namespaces_in_order hw,
    fun _ _ => List.foldl_append⟩

/-- Pods in two namespaces, and nodes across the cluster. -/
def podsThenNodes : List Grant :=
  [⟨⟨"Pod", "pods", "api/v1", true⟩, .watch, "", "ns-1"⟩,
    ⟨⟨"Pod", "pods", "api/v1", true⟩, .watch, "", "ns-0"⟩,
    ⟨⟨"Node", "nodes", "api/v1", false⟩, .watch, "", ""⟩]

/-- Taken from behind, they give the same names and three connections, and the pods' namespaces
in the other order. -/
theorem podsThenNodes_grouped :
    podsThenNodes.Perm podsThenNodes.reverse ∧ OneKindEach podsThenNodes ∧
    (ofGrants podsThenNodes.reverse).entries.names = ["Node", "Pod"] ∧
    (ofGrants podsThenNodes.reverse).connections = 3 ∧
    ∃ w, (ofGrants podsThenNodes.reverse).entries.get? "Pod" = some w ∧
      w.namespaces = ["ns-0", "ns-1"] ∧ w.namespaces.Perm ["ns-1", "ns-0"] := by
  obtain ⟨hsame, harrival, -⟩ := grouped_of_perm
  have hperm : podsThenNodes.Perm podsThenNodes.reverse := (List.reverse_perm _).symm
  have hkinds : OneKindEach podsThenNodes := by
    unfold OneKindEach
    decide
  have hgroups := hsame _ _ hperm hkinds
  have hpods : (ofGrants podsThenNodes).entries.get? "Pod" =
      some ⟨⟨"Pod", "pods", "api/v1", true⟩, ["ns-1", "ns-0"]⟩ := by decide
  obtain ⟨w, hw⟩ : ∃ w, (ofGrants podsThenNodes.reverse).entries.get? "Pod" = some w :=
    Option.isSome_iff_exists.mp (by decide)
  exact ⟨hperm, hkinds, hgroups.names.trans (by decide), hgroups.connections.trans (by decide), w,
    hw, (harrival _ _ _ hw).trans (by decide), hgroups.namespaces _ _ _ hpods hw⟩

end WatchPlan

end WatchGate
