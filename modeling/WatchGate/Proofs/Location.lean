import WatchGate.Text

/-!
# WatchGate — where resources are served

The path of a resource is its segments with a slash before each of them. The
first segment tells the core group from the others, and how many segments there
are tells a namespace from the whole cluster. A `Location` holds what the
segments mean. Its path can be read back: cutting at the slashes undoes the
joining as long as no segment holds a slash.

Main results:

* `Text.pieces_glue` — pieces without the separator can be joined and cut apart.
* `Location.ofPath?_path` — the location of a path is the one it was made from.
* `Location.path_injective` — two locations do not share a path.
-/

namespace WatchGate

namespace Text

variable {α : Type} [DecidableEq α] {sep : α}

theorem pieces_of_not_mem {p : List α} (h : sep ∉ p) : pieces sep p = [p] := by
  induction p with
  | nil => rfl
  | cons c p ih =>
    have hc : c ≠ sep := fun he => h (he ▸ List.mem_cons_self)
    have hp : sep ∉ p := fun hm => h (List.mem_cons_of_mem _ hm)
    simp [pieces, hc, ih hp]

/-- A separator cuts whatever stands before it. -/
theorem pieces_append (sep : α) (as bs : List α) :
    pieces sep (as ++ sep :: bs) = pieces sep as ++ pieces sep bs := by
  induction as with
  | nil => simp [pieces]
  | cons c as ih =>
    by_cases hc : c = sep
    · simp [pieces, hc, ih]
    · cases hp : pieces sep as with
      | nil => exact absurd hp (pieces_ne_nil sep as)
      | cons p ps => simp [pieces, hc, ih, hp]

theorem pieces_append_sep {p : List α} (h : sep ∉ p) (cs : List α) :
    pieces sep (p ++ sep :: cs) = p :: pieces sep cs := by
  rw [pieces_append, pieces_of_not_mem h]
  rfl

/-- Pieces that do not hold the separator are found again behind `glue`. -/
theorem pieces_glue {ps : List (List α)} (hne : ps ≠ []) (h : ∀ p ∈ ps, sep ∉ p) :
    pieces sep (glue [sep] ps) = ps := by
  induction ps with
  | nil => exact absurd rfl hne
  | cons p ps ih =>
    have hp : sep ∉ p := h p List.mem_cons_self
    cases ps with
    | nil => exact pieces_of_not_mem hp
    | cons q qs =>
      have hrest := ih (List.cons_ne_nil q qs) fun p hp => h p (List.mem_cons_of_mem _ hp)
      unfold glue
      rw [List.append_assoc, List.singleton_append, pieces_append_sep hp, hrest]

end Text

/-- Where instances of a resource are served. -/
structure Location where
  /-- empty for the core group -/
  group : String
  version : String
  /-- none for the whole cluster -/
  ns : Option String
  plural : String
  deriving DecidableEq, Repr

namespace Location

/-- The segments of the path. -/
def segments (l : Location) : List String :=
  (if l.group = "" then ["api"] else ["apis", l.group]) ++ l.version ::
    match l.ns with
    | some n => ["namespaces", n, l.plural]
    | none => [l.plural]

/-- The path, with a slash before each segment. -/
def path (l : Location) : String :=
  String.ofList ('/' :: Text.glue ['/'] (l.segments.map String.toList))

/-- What stands behind the group and the version. -/
def ofRest? (group version : String) : List String → Option Location
  | [plural] => some ⟨group, version, none, plural⟩
  | [mark, n, plural] =>
    if mark = "namespaces" then some ⟨group, version, some n, plural⟩ else none
  | _ => none

/-- The location of segments. -/
def ofSegments? : List String → Option Location
  | root :: x :: rest =>
    if root = "api" then ofRest? "" x rest
    else if root = "apis" then
      match rest with
      | version :: rest => ofRest? x version rest
      | [] => none
    else none
  | _ => none

/-- The location of a path. -/
def ofPath? (path : String) : Option Location :=
  match path.toList with
  | '/' :: cs => ofSegments? ((Text.pieces '/' cs).map String.ofList)
  | _ => none

/-- No segment holds a slash. -/
structure Plain (l : Location) : Prop where
  group : '/' ∉ l.group.toList
  version : '/' ∉ l.version.toList
  ns : ∀ n, l.ns = some n → '/' ∉ n.toList
  plural : '/' ∉ l.plural.toList

variable {l l' : Location}

theorem ofSegments?_segments (l : Location) : ofSegments? l.segments = some l := by
  obtain ⟨group, version, ns, plural⟩ := l
  by_cases hg : group = ""
  · subst hg
    cases ns <;> simp [segments, ofSegments?, ofRest?]
  · cases ns <;> simp [segments, ofSegments?, ofRest?, hg]

theorem segments_ne_nil (l : Location) : l.segments ≠ [] := by
  simp [segments]

theorem Plain.segments (h : l.Plain) : ∀ x ∈ l.segments, '/' ∉ x.toList := by
  intro x hx
  unfold Location.segments at hx
  rcases List.mem_append.mp hx with hx | hx
  · split at hx
    · rw [List.mem_singleton.mp hx]
      decide
    · simp only [List.mem_cons, List.not_mem_nil, or_false] at hx
      rcases hx with rfl | rfl
      · decide
      · exact h.group
  · rcases List.mem_cons.mp hx with rfl | hx
    · exact h.version
    · split at hx
      · next n hn =>
        simp only [List.mem_cons, List.not_mem_nil, or_false] at hx
        rcases hx with rfl | rfl | rfl
        · decide
        · exact h.ns _ hn
        · exact h.plural
      · rw [List.mem_singleton.mp hx]
        exact h.plural

/-- A path leads back to the location that it was made from. -/
theorem ofPath?_path (h : l.Plain) : ofPath? l.path = some l := by
  have hpieces : Text.pieces '/' (Text.glue ['/'] (l.segments.map String.toList)) =
      l.segments.map String.toList := by
    refine Text.pieces_glue (by simp [segments_ne_nil]) ?_
    intro p hp
    obtain ⟨x, hx, rfl⟩ := List.mem_map.mp hp
    exact h.segments x hx
  unfold ofPath? path
  rw [String.toList_ofList]
  simp only [hpieces, List.map_map]
  have hid : String.ofList ∘ String.toList = id := by
    funext x
    exact String.ofList_toList
  rw [hid, List.map_id, ofSegments?_segments]

/-- Two locations do not share a path. -/
theorem path_injective (h : l.Plain) (h' : l'.Plain) (he : l.path = l'.path) : l = l' := by
  have hback := ofPath?_path h
  rw [he, ofPath?_path h'] at hback
  exact (Option.some.inj hback).symm

end Location

end WatchGate
