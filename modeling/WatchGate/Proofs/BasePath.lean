import WatchGate.Kind
import WatchGate.Proofs.Ends
import WatchGate.Proofs.Location

/-!
# WatchGate — slashes around a base path

The base path of a kind may be kept with slashes at its ends or without. Two things are
read off it, and they are read in different ways: the watch path drops the slashes at both
ends, the group only those in front. That it makes no difference to the group either is
seen on the segments. The group is the second one, if the first is `apis`
(`Kind.group_eq`), and slashes at the end add nothing but empty segments: behind `apis`
alone the second one becomes empty where there was none, which is the core group again.

Main results:

* `Kind.group_of_middle` — the group is that of the path between the outer slashes.
* `Kind.group_apis` — the group behind `apis`, whatever slashes there are around.
* `Kind.make_agrees` — a kind whose path is stored as it is, and one whose path is
  stored without the slashes at its ends, cannot be told apart by what is read off them.
-/

namespace WatchGate

-- ---------------------------------------------------------------------------
-- Segments
-- ---------------------------------------------------------------------------

namespace Text

/-- The first piece reaches up to the first separator. -/
theorem pieces_eq_takeWhile_cons {α : Type} [DecidableEq α] (sep : α) (cs : List α) :
    ∃ ps, pieces sep cs = cs.takeWhile (· != sep) :: ps := by
  induction cs with
  | nil => exact ⟨[], rfl⟩
  | cons c cs ih =>
    obtain ⟨ps, hps⟩ := ih
    unfold pieces
    by_cases hc : c = sep
    · exact ⟨pieces sep cs, by simp [hc]⟩
    · exact ⟨ps, by simp [hc, hps]⟩

/-- Separators alone have nothing between them. -/
theorem eq_nil_of_mem_pieces {α : Type} [DecidableEq α] {sep : α} {cs : List α}
    (h : ∀ c ∈ cs, c = sep) : ∀ p ∈ pieces sep cs, p = [] := by
  induction cs with
  | nil => exact fun p hp => List.mem_singleton.mp hp
  | cons c cs ih =>
    obtain ⟨hc, hcs⟩ := List.forall_mem_cons.mp h
    intro p hp
    rw [pieces, if_pos hc] at hp
    rcases List.mem_cons.mp hp with rfl | hp
    · rfl
    · exact ih hcs p hp

end Text

namespace Kind

variable {k : Kind} {cs core r : List Char} {ps qs : List (List Char)}

/-- The group that segments tell of: the second of them, if the first is `apis`. -/
def groupIn : List (List Char) → List Char
  | first :: second :: _ => if first = ['a', 'p', 'i', 's'] then second else []
  | _ => []

theorem groupIn_of_dropStart? {rest : List Char} (h : Text.dropStart? groupMark cs = some rest) :
    groupIn (Text.pieces '/' cs) = rest.takeWhile (· != '/') := by
  have hcs : cs = ['a', 'p', 'i', 's'] ++ '/' :: rest :=
    (Text.dropStart?_eq_some_iff (s := groupMark)).mp h
  obtain ⟨ps, hps⟩ := Text.pieces_eq_takeWhile_cons '/' rest
  rw [hcs, Text.pieces_append_sep (by decide), hps, groupIn, if_pos rfl]

theorem groupIn_of_not_dropStart? (h : Text.dropStart? groupMark cs = none) :
    groupIn (Text.pieces '/' cs) = [] := by
  unfold groupIn
  split
  · next first second more hpieces =>
    rw [if_neg]
    rintro rfl
    -- a second segment stands behind a slash, so that the text begins as it must not
    have hglue : Text.glue ['/'] (Text.pieces '/' cs) = cs := Text.glue_pieces '/' cs
    rw [hpieces] at hglue
    have hstart : Text.dropStart? groupMark cs =
        some (Text.glue ['/'] (second :: more)) :=
      Text.dropStart?_eq_some_iff.mpr hglue.symm
    rw [h] at hstart
    cases hstart
  · rfl

/-- The group of a kind is told by the segments of its base path behind the slashes in front. -/
theorem group_eq (k : Kind) :
    k.group = String.ofList (groupIn (Text.pieces '/' (k.base.toList.dropWhile (· == '/')))) := by
  unfold group
  cases h : Text.dropStart? groupMark (k.base.toList.dropWhile (· == '/')) with
  | none =>
    rw [groupIn_of_not_dropStart? h]
  | some rest => rw [groupIn_of_dropStart? h]

/-- Empty segments behind others tell of nothing. -/
theorem groupIn_append (hps : ps ≠ []) (hqs : ∀ q ∈ qs, q = []) :
    groupIn (ps ++ qs) = groupIn ps := by
  cases ps with
  | nil => exact absurd rfl hps
  | cons first ps =>
    cases ps with
    | cons second ps => rfl
    | nil =>
      cases qs with
      | nil => rfl
      | cons q qs =>
        have hq : q = [] := hqs q List.mem_cons_self
        simp [groupIn, hq]

theorem groupIn_pieces_append (hr : ∀ c ∈ r, c = '/') :
    groupIn (Text.pieces '/' (cs ++ r)) = groupIn (Text.pieces '/' cs) := by
  cases r with
  | nil => rw [List.append_nil]
  | cons c r =>
    obtain ⟨rfl, hrest⟩ := List.forall_mem_cons.mp hr
    rw [Text.pieces_append]
    exact groupIn_append (Text.pieces_ne_nil '/' cs) (Text.eq_nil_of_mem_pieces hrest)

-- ---------------------------------------------------------------------------
-- Outer slashes
-- ---------------------------------------------------------------------------

/-- The group of a kind is that of the path between the outer slashes. -/
theorem group_of_middle (h : Text.Middle (· == '/') k.base.toList core) :
    k.group = String.ofList (groupIn (Text.pieces '/' core)) := by
  obtain ⟨l, r, hcut, hl, hr⟩ := h.cut
  have hslash : ∀ c ∈ r, c = '/' := fun c hc => eq_of_beq (hr c hc)
  rw [group_eq, hcut, List.append_assoc, List.dropWhile_append_of_pos hl]
  cases core with
  | nil =>
    -- with nothing between them the outer slashes are all dropped from the front
    rw [List.nil_append, List.dropWhile_eq_nil_iff.mpr hr]
  | cons c core =>
    have hc : (c == '/') = false := h.head c rfl
    rw [List.cons_append, List.dropWhile_cons_of_neg (by simp [hc]), ← List.cons_append,
      groupIn_pieces_append hslash]

section Make

variable (name plural base : String) (namespaced : Bool)

theorem toList_base_make :
    (make name plural base namespaced).base.toList = trimSlashes base.toList :=
  String.toList_ofList

/-- What is stored is the path between the outer slashes. -/
theorem middle_iff_make : Text.Middle (· == '/') base.toList core ↔
    core = (make name plural base namespaced).base.toList := by
  rw [toList_base_make]
  exact Text.middle_iff

theorem trimSlashes_make :
    trimSlashes (make name plural base namespaced).base.toList = trimSlashes base.toList := by
  rw [toList_base_make]
  exact Text.stripBoth_stripBoth _ _

theorem make_make :
    make name plural (make name plural base namespaced).base namespaced =
      make name plural base namespaced := by
  show Kind.mk name plural (String.ofList (trimSlashes _)) namespaced = _
  rw [trimSlashes_make]
  rfl

theorem group_make :
    (make name plural base namespaced).group = (Kind.mk name plural base namespaced).group := by
  have hmade : Text.Middle (· == '/') (make name plural base namespaced).base.toList
      (trimSlashes base.toList) :=
    Text.middle_iff.mpr (trimSlashes_make name plural base namespaced).symm
  have hkept : Text.Middle (· == '/') base.toList (trimSlashes base.toList) :=
    Text.middle_stripBoth _ _
  exact (group_of_middle hmade).trans
    (group_of_middle (k := ⟨name, plural, base, namespaced⟩) hkept).symm

theorem watchPath_make (ns : String) :
    (make name plural base namespaced).watchPath ns =
      (Kind.mk name plural base namespaced).watchPath ns := by
  unfold watchPath
  rw [trimSlashes_make]
  rfl

end Make

/-- A watch path begins with the base path between its outer slashes. -/
theorem exists_watchPath_eq (k : Kind) (ns : String) :
    ∃ rest, k.watchPath ns = "/" ++ String.ofList (trimSlashes k.base.toList) ++ "/" ++ rest := by
  unfold watchPath
  split
  · have hmark : "/namespaces/" = "/" ++ "namespaces/" := rfl
    exact ⟨"namespaces/" ++ ns ++ "/" ++ k.plural, by rw [hmark]; simp only [String.append_assoc]⟩
  · exact ⟨k.plural, rfl⟩

-- ---------------------------------------------------------------------------
-- Groups
-- ---------------------------------------------------------------------------

/-- So many slashes. -/
def slashes (n : Nat) : String := String.ofList (List.replicate n '/')

/-- The group stands behind `apis`, whatever slashes there are in front and whatever follows. -/
theorem group_apis {n : Nat} {g v : String} (hg : '/' ∉ g.toList)
    (hbase : k.base = slashes n ++ "apis/" ++ g ++ "/" ++ v) : k.group = g := by
  have hfront : ∀ c ∈ List.replicate n '/', (c == '/') = true := by
    intro c hc
    rw [(List.mem_replicate.mp hc).2]
    rfl
  have hlist : k.base.toList = List.replicate n '/' ++
      (['a', 'p', 'i', 's'] ++ '/' :: (g.toList ++ '/' :: v.toList)) := by
    simp [hbase, slashes]
  have hdrop : k.base.toList.dropWhile (· == '/') =
      ['a', 'p', 'i', 's'] ++ '/' :: (g.toList ++ '/' :: v.toList) := by
    rw [hlist, List.dropWhile_append_of_pos hfront]
    rfl
  rw [group_eq, hdrop, Text.pieces_append_sep (by decide), Text.pieces_append_sep hg, groupIn,
    if_pos rfl, String.ofList_toList]

/--
**Kinds with one base path, however it is stored.** For every name, plural, scope and base
path, with slashes anywhere: what is stored for the path is what lies between its outer
slashes, and to store that changes nothing more. The kind that keeps the path as it is has
the same group and the same watch paths, which begin with what lies between the slashes.
If that is `apis`, a group and a version, then the group is this one.
-/
theorem make_agrees (name plural base : String) (namespaced : Bool) :
    let kept : Kind := ⟨name, plural, base, namespaced⟩
    let made := make name plural base namespaced
    (∀ core, Text.Middle (· == '/') base.toList core ↔ core = made.base.toList) ∧
    make name plural made.base namespaced = made ∧
    made.group = kept.group ∧
    (∀ ns, made.watchPath ns = kept.watchPath ns ∧
      ∃ rest, kept.watchPath ns = "/" ++ made.base ++ "/" ++ rest) ∧
    ∀ g v, '/' ∉ g.toList →
      ∀ m n, base = slashes m ++ "apis/" ++ g ++ "/" ++ v ++ slashes n →
        kept.group = g ∧ made.group = g := by
  intro kept made
  have hgroup : made.group = kept.group := group_make name plural base namespaced
  refine ⟨fun core => middle_iff_make name plural base namespaced,
    make_make name plural base namespaced, hgroup,
    fun ns => ⟨watchPath_make name plural base namespaced ns, exists_watchPath_eq kept ns⟩, ?_⟩
  intro g v hg m n hbase
  have hkept : kept.group = g :=
    group_apis (v := v ++ slashes n) hg (hbase.trans (String.append_assoc ..))
  exact ⟨hkept, hgroup.trans hkept⟩

/-- Slashes around the path of deployments do not show. -/
theorem make_agrees_deployments :
    '/' ∉ "apps".toList ∧
    "//apis/apps/v1///" = slashes 2 ++ "apis/" ++ "apps" ++ "/" ++ "v1" ++ slashes 3 ∧
    (Kind.mk "Deployment" "deployments" "//apis/apps/v1///" true).group = "apps" ∧
    (make "Deployment" "deployments" "//apis/apps/v1///" true).group = "apps" ∧
    (Kind.mk "Deployment" "deployments" "//apis/apps/v1///" true).watchPath "ns-0" =
      "/apis/apps/v1/namespaces/ns-0/deployments" := by
  obtain ⟨-, -, -, hpath, hgroup⟩ := make_agrees "Deployment" "deployments" "//apis/apps/v1///" true
  have hg : '/' ∉ "apps".toList := by decide
  have hbase : "//apis/apps/v1///" =
      slashes 2 ++ "apis/" ++ "apps" ++ "/" ++ "v1" ++ slashes 3 := by decide
  obtain ⟨hkept, hmade⟩ := hgroup "apps" "v1" hg 2 3 hbase
  refine ⟨hg, hbase, hkept, hmade, ?_⟩
  rw [← (hpath "ns-0").1]
  decide

/-- Behind `apis` alone the slash that is stored or not makes no difference. -/
example : (Kind.mk "Widget" "widgets" "apis/" true).group = "" ∧
    (make "Widget" "widgets" "apis/" true).base = "apis" := by decide

end Kind

end WatchGate
