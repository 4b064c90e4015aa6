import WatchGate.Proofs.Crowd
import WatchGate.Proofs.Elements
import WatchGate.Proofs.Forwarding

/-!
# WatchGate — one caller, presented in many ways

The identities that headers carry are those that can be written in them
(`Identity.Presentable`): the user and each group are text without blanks around it, and
no group holds a comma. An identity of this kind is read back from whatever headers it
is presented in (`Credentials.identify_presented`): the items of its groups may be
broken into values anywhere, and there may be empty ones among them.

What is read are the first user value and the texts among the group values. Each value
adds the groups that it lists and has no effect on those of another
(`Credentials.said_append`).

Main result: `Credentials.identity_canonical`.
-/

namespace WatchGate

open Http Text

namespace Http.Headers

theorem all_replaced_self (h : Headers) (name : String) (values : List Bytes) :
    (h.replaced name values).all name = values := by
  unfold replaced appendAll
  rw [all_of_append, all_of_block, if_pos rfl]
  show (h.erase name).all name ++ values = values
  rw [all_erase_self, List.nil_append]

end Http.Headers

-- ---------------------------------------------------------------------------
-- Identities that can be presented
-- ---------------------------------------------------------------------------

/-- A name that can be read off a value: text that is not empty and has no blanks around it. -/
structure Readable (name : String) : Prop where
  chars : ∀ c ∈ name.toList, Header.isTextChar c = true
  nonempty : name ≠ ""
  trimmed : Trimmed name.toList

/-- An identity that headers can carry. -/
structure Identity.Presentable (i : Identity) : Prop where
  user : Readable i.user
  groups : ∀ g ∈ i.groups, Readable g ∧ ',' ∉ g.toList

theorem readable_trim {cs : List Char} (hchars : ∀ c ∈ cs, Header.isTextChar c = true)
    (hne : trim cs ≠ []) : Readable (String.ofList (trim cs)) := by
  have hlist : (String.ofList (trim cs)).toList = trim cs := String.toList_ofList
  constructor
  case chars =>
    rw [hlist]
    intro c hc
    exact hchars c (mem_of_mem_trim hc)
  case nonempty =>
    intro hempty
    rw [hempty] at hlist
    exact hne hlist.symm
  case trimmed =>
    rw [hlist]
    exact trimmed_trim cs

namespace Credentials

variable {c : Credentials} {h h' : Headers} {i : Identity} {gs : List String}
  {items : List (List Char)} {lines : List (List (List Char))} {cs : List Char}

-- ---------------------------------------------------------------------------
-- Items
-- ---------------------------------------------------------------------------

/-- Items that name groups in order. Spaces and tabs may stand around each of them, and
items that are empty but for spaces and tabs may stand anywhere. -/
inductive Items : List String → List (List Char) → Prop
  | nil : Items [] []
  | empty {l : List Char} {gs : List String} {items : List (List Char)} (hl : Spacing l)
      (h : Items gs items) : Items gs (l :: items)
  | group {g : String} {l r : List Char} {gs : List String} {items : List (List Char)}
      (hl : Spacing l) (hr : Spacing r) (h : Items gs items) :
      Items (g :: gs) ((l ++ g.toList ++ r) :: items)

/-- Whether there is anything but blanks in an item. -/
def isNamed (item : List Char) : Bool := !(trim item).isEmpty

/-- The names that items have, without blanks around them. -/
def namesOf (items : List (List Char)) : List String :=
  (items.filter isNamed).map fun p => String.ofList (trim p)

theorem isNamed_iff : isNamed cs = true ↔ trim cs ≠ [] := by
  unfold isNamed
  rw [Bool.not_eq_true', List.isEmpty_eq_false_iff]

theorem listed_eq_namesOf (values : List (List Char)) :
    listed values = namesOf (values.flatMap (pieces ',')) := by
  unfold listed namesOf
  rw [List.filter_map, List.map_map]
  rfl

/-- A group by itself is an item. -/
theorem items_self (gs : List String) : Items gs (gs.map String.toList) := by
  induction gs with
  | nil => exact .nil
  | cons g gs ih =>
    have hnil : Spacing [] := nofun
    have hitem := Items.group (g := g) hnil hnil ih
    rwa [List.nil_append, List.append_nil] at hitem

theorem Items.namesOf_eq (hi : Items gs items) (hgs : ∀ g ∈ gs, Readable g) :
    namesOf items = gs := by
  induction hi with
  | nil => rfl
  | @empty l gs items hl _ ih =>
    have hdropped : ¬ isNamed l = true := by
      rw [isNamed_iff, not_not]
      exact trim_eq_nil_iff.mpr hl.isBlank
    unfold namesOf
    rw [List.filter_cons_of_neg hdropped]
    exact ih hgs
  | @group g l r gs items hl hr _ ih =>
    obtain ⟨hg, hrest⟩ := List.forall_mem_cons.mp hgs
    have htrim : trim (l ++ g.toList ++ r) = g.toList := by
      rw [trim_blanks hl.isBlank hr.isBlank, hg.trimmed.trim_eq]
    have hne : g.toList ≠ [] := fun hnil => hg.nonempty (String.toList_eq_nil_iff.mp hnil)
    have hkept : isNamed (l ++ g.toList ++ r) = true := by
      rw [isNamed_iff, htrim]
      exact hne
    unfold namesOf
    rw [List.filter_cons_of_pos hkept, List.map_cons, htrim, String.ofList_toList]
    exact congrArg (g :: ·) (ih hrest)

theorem Items.comma_not_mem (hi : Items gs items) (hgs : ∀ g ∈ gs, ',' ∉ g.toList) :
    ∀ p ∈ items, ',' ∉ p := by
  induction hi with
  | nil => exact nofun
  | empty hl _ ih => exact List.forall_mem_cons.mpr ⟨hl.comma_not_mem, ih hgs⟩
  | group hl hr _ ih =>
    obtain ⟨hg, hrest⟩ := List.forall_mem_cons.mp hgs
    refine List.forall_mem_cons.mpr ⟨?_, ih hrest⟩
    simp only [List.mem_append, not_or]
    exact ⟨⟨hl.comma_not_mem, hg⟩, hr.comma_not_mem⟩

theorem Items.isTextChar (hi : Items gs items) (hgs : ∀ g ∈ gs, Readable g) :
    ∀ p ∈ items, ∀ c ∈ p, Header.isTextChar c = true := by
  induction hi with
  | nil => exact nofun
  | empty hl _ ih => exact List.forall_mem_cons.mpr ⟨hl.isTextChar, ih hgs⟩
  | group hl hr _ ih =>
    obtain ⟨hg, hrest⟩ := List.forall_mem_cons.mp hgs
    refine List.forall_mem_cons.mpr ⟨?_, ih hrest⟩
    rw [List.forall_mem_append, List.forall_mem_append]
    exact ⟨⟨hl.isTextChar, hg.chars⟩, hr.isTextChar⟩

-- ---------------------------------------------------------------------------
-- Values
-- ---------------------------------------------------------------------------

/-- The value of a list of items. -/
def lineOf (items : List (List Char)) : Bytes := Utf8.encode (glue [','] items)

/-- The headers of an identity in the place of those that name another, with the items of
its groups in some number of values. -/
def presented (c : Credentials) (other : Headers) (i : Identity)
    (lines : List (List (List Char))) : Headers :=
  (other.replaced c.userHeader [Utf8.ofString i.user]).replaced c.groupHeader (lines.map lineOf)

/-- The groups that values list, less the values that are no text. -/
def said (values : List Bytes) : List String := listed (values.filterMap Header.text?)

theorem said_append (vs ws : List Bytes) : said (vs ++ ws) = said vs ++ said ws := by
  unfold said
  rw [List.filterMap_append]
  simp only [listed_eq_namesOf, namesOf, List.flatMap_append, List.filter_append, List.map_append]

theorem said_of_not_text {ws : List Bytes} (hws : ∀ w ∈ ws, Header.text? w = none) :
    said ws = [] := by
  unfold said
  rw [List.filterMap_eq_nil_iff.mpr hws]
  rfl

/-- Where the list is broken into values does not matter. -/
theorem listed_of_glue_eq {xs ys : List (List Char)}
    (he : glue [','] xs = glue [','] ys) : listed xs = listed ys := by
  rw [listed_eq_namesOf, listed_eq_namesOf]
  unfold namesOf
  rw [filter_items_of_glue_eq (by decide) he]

theorem texts_lines (hchars : ∀ items ∈ lines, ∀ p ∈ items, ∀ c ∈ p, Header.isTextChar c = true) :
    (lines.map lineOf).filterMap Header.text? = lines.map (glue [',']) := by
  have htext : ∀ items ∈ lines, Header.text? (lineOf items) = some (glue [','] items) := by
    intro items hitems
    refine (Header.text?_encode fun c hc => ?_).2
    rcases mem_of_mem_glue hc with hc | ⟨p, hp, hc⟩
    · rw [List.mem_singleton.mp hc]
      decide
    · exact hchars items hitems p hp c hc
  rw [List.filterMap_map]
  calc lines.filterMap (Header.text? ∘ lineOf)
      = lines.filterMap (some ∘ glue [',']) := List.filterMap_congr htext
    _ = lines.map (glue [',']) := by rw [List.filterMap_eq_map]

theorem listed_lines (hcomma : ∀ items ∈ lines, ∀ p ∈ items, ',' ∉ p) :
    listed (lines.map (glue [','])) = namesOf lines.flatten := by
  rw [listed_eq_namesOf]
  unfold namesOf
  congr 1
  rw [List.flatMap_map, List.filter_flatMap, List.filter_flatten, List.flatMap_def]
  congr 1
  refine List.map_congr_left fun items hitems => ?_
  exact filter_pieces_glue_self (by decide) (hcomma items hitems)

-- ---------------------------------------------------------------------------
-- Identification
-- ---------------------------------------------------------------------------

/-- What is read are the first user value and the groups that are said. -/
theorem identify_congr (huser : h'.get? c.userHeader = h.get? c.userHeader)
    (hgroups : said (h'.all c.groupHeader) = said (h.all c.groupHeader)) :
    c.identify h' = c.identify h := by
  have hlisted : groups (h'.texts c.groupHeader) = groups (h.texts c.groupHeader) := by
    rw [groups_eq_listed, groups_eq_listed]
    exact hgroups
  unfold identify
  rw [huser, hlisted]

theorem isSome_identify_iff : (c.identify h).isSome = true ↔
    ∃ cs, (h.get? c.userHeader).bind Header.text? = some cs ∧
      ∃ x ∈ cs, isBlank x = false := by
  have hblank : ∀ cs : List Char, trim cs ≠ [] ↔ ∃ x ∈ cs, isBlank x = false := by
    intro cs
    rw [Ne, trim_eq_nil_iff]
    simp
  simp only [← hblank]
  constructor
  · intro hsome
    obtain ⟨i, hi⟩ := Option.isSome_iff_exists.mp hsome
    obtain ⟨cs, hcs, hne, -⟩ := (identify_eq_some_iff.mp hi).user
    exact ⟨cs, hcs, hne⟩
  · rintro ⟨cs, hcs, hne⟩
    have hi : c.Carries h ⟨String.ofList (trim cs), listed (h.texts c.groupHeader)⟩ :=
      ⟨⟨cs, hcs, hne, rfl⟩, rfl⟩
    rw [identify_eq_some_iff.mpr hi]
    rfl

theorem presentable_of_identify (hi : c.identify h = some i) : i.Presentable := by
  obtain ⟨⟨cs, hcs, hne, huser⟩, hgroups⟩ := identify_eq_some_iff.mp hi
  constructor
  case user =>
    obtain ⟨v, -, hv⟩ := Option.bind_eq_some_iff.mp hcs
    rw [huser]
    exact readable_trim (Header.isTextChar_of_text? hv) hne
  case groups =>
    intro g hg
    rw [hgroups, listed_eq_namesOf] at hg
    obtain ⟨p, hp, rfl⟩ := List.mem_map.mp hg
    obtain ⟨hp, hne⟩ := List.mem_filter.mp hp
    obtain ⟨value, hvalue, hpiece⟩ := List.mem_flatMap.mp hp
    obtain ⟨v, -, hv⟩ := List.mem_filterMap.mp hvalue
    have hchars : ∀ c ∈ p, Header.isTextChar c = true := by
      intro c hc
      have hmem : c ∈ glue [','] (pieces ',' value) :=
        mem_glue_of_mem hpiece hc
      rw [glue_pieces] at hmem
      exact Header.isTextChar_of_text? hv c hmem
    refine ⟨readable_trim hchars (isNamed_iff.mp hne), ?_⟩
    rw [String.toList_ofList]
    intro hcomma
    exact sep_notMem_pieces ',' value p hpiece (mem_of_mem_trim hcomma)

/-- An identity is read back from whatever headers it is presented in. -/
theorem identify_presented (hne : c.userHeader ≠ c.groupHeader) (hi : i.Presentable)
    (other : Headers) (hitems : Items i.groups lines.flatten) :
    c.identify (c.presented other i lines) = some i := by
  have hreadable : ∀ g ∈ i.groups, Readable g := fun g hg => (hi.groups g hg).1
  have hcomma : ∀ items ∈ lines, ∀ p ∈ items, ',' ∉ p := by
    intro items hin p hp
    exact hitems.comma_not_mem (fun g hg => (hi.groups g hg).2) p
      (List.mem_flatten_of_mem hin hp)
  have hchars : ∀ items ∈ lines, ∀ p ∈ items, ∀ c ∈ p, Header.isTextChar c = true := by
    intro items hin p hp
    exact hitems.isTextChar hreadable p (List.mem_flatten_of_mem hin hp)
  refine identify_eq_some_iff.mpr ⟨?_, ?_⟩
  · have hget : (c.presented other i lines).get? c.userHeader = some (Utf8.ofString i.user) := by
      unfold presented Headers.get?
      rw [Headers.all_replaced_of_ne hne.symm, Headers.all_replaced_self]
      rfl
    have htrim : trim i.user.toList = i.user.toList := hi.user.trimmed.trim_eq
    refine ⟨i.user.toList, ?_, ?_, ?_⟩
    · rw [hget]
      exact (Header.text?_encode hi.user.chars).2
    · rw [htrim]
      exact fun hnil => hi.user.nonempty (String.toList_eq_nil_iff.mp hnil)
    · rw [htrim, String.ofList_toList]
  · unfold presented Headers.texts
    rw [Headers.all_replaced_self, texts_lines hchars, listed_lines hcomma,
      hitems.namesOf_eq hreadable]

/--
**One caller, presented in many ways.** Of all names of two headers that differ, and all
headers:

* a caller is identified exactly if the first user value is text and not blank;
* the identity then has a user and groups that are not empty and have no blanks around
  them, and no comma is in a group. It is identified again if it is presented with one
  value for each group, and also if the items of its groups are in some number of values
  with spaces, tabs and empty items between them, whatever other headers there are;
* if all group values are text, other group values that read the same when joined with
  commas identify the same caller;
* values that are no text, in the place of a value, take away the groups of this value
  and leave all others;
* headers of other names do not matter.
-/
theorem identity_canonical (c : Credentials) (hne : c.userHeader ≠ c.groupHeader) (h : Headers) :
    ((c.identify h).isSome = true ↔
      ∃ cs, (h.get? c.userHeader).bind Header.text? = some cs ∧
        ∃ x ∈ cs, isBlank x = false) ∧
    (∀ i, c.identify h = some i → i.Presentable ∧
      (∀ other, c.identify (c.presented other i (i.groups.map fun g => [g.toList])) = some i) ∧
      ∀ other lines, Items i.groups lines.flatten →
        c.identify (c.presented other i lines) = some i) ∧
    (∀ h' xs ys, h'.get? c.userHeader = h.get? c.userHeader →
      (h.all c.groupHeader).map Header.text? = xs.map some →
      (h'.all c.groupHeader).map Header.text? = ys.map some →
      glue [','] xs = glue [','] ys → c.identify h' = c.identify h) ∧
    (∀ h' as v ws bs, h'.get? c.userHeader = h.get? c.userHeader →
      h.all c.groupHeader = as ++ v :: bs → (∀ w ∈ ws, Header.text? w = none) →
      h'.all c.groupHeader = as ++ ws ++ bs → ∀ i, c.identify h = some i →
        i.groups = said as ++ said [v] ++ said bs ∧
        c.identify h' = some ⟨i.user, said as ++ said bs⟩) ∧
    ∀ h', h'.all c.userHeader = h.all c.userHeader → h'.all c.groupHeader = h.all c.groupHeader →
      c.identify h' = c.identify h := by
  refine ⟨isSome_identify_iff, ?_, ?_, ?_, ?_⟩
  · intro i hi
    have hpresentable := presentable_of_identify hi
    refine ⟨hpresentable, fun other => ?_, fun other lines hitems => ?_⟩
    · have hflat : (i.groups.map fun g => [g.toList]).flatten = i.groups.map String.toList := by
        rw [← List.flatMap_def, List.map_eq_flatMap]
      refine identify_presented hne hpresentable other ?_
      rw [hflat]
      exact items_self i.groups
    · exact identify_presented hne hpresentable other hitems
  · intro h' xs ys huser hxs hys hglue
    have htexts : ∀ {vs : List Bytes} {zs : List (List Char)}, vs.map Header.text? = zs.map some →
        said vs = listed zs := by
      intro vs zs hvs
      have hzs : vs.filterMap Header.text? = zs := by
        calc vs.filterMap Header.text? = (vs.map Header.text?).filterMap id := by
              rw [List.filterMap_map, Function.id_comp]
          _ = (zs.map some).filterMap id := by rw [hvs]
          _ = zs := by rw [List.filterMap_map, Function.id_comp, List.filterMap_some]
      unfold said
      rw [hzs]
    refine identify_congr huser ?_
    rw [htexts hxs, htexts hys]
    exact listed_of_glue_eq hglue.symm
  · intro h' as v ws bs huser hall hws hall' i hi
    have hsaid : said (h.all c.groupHeader) = said as ++ said [v] ++ said bs := by
      rw [hall, ← List.singleton_append, ← List.append_assoc, said_append, said_append]
    have hsaid' : said (h'.all c.groupHeader) = said as ++ said bs := by
      rw [hall', said_append, said_append, said_of_not_text hws, List.append_nil]
    obtain ⟨⟨cs, hcs, hne, huser'⟩, hgroups⟩ := identify_eq_some_iff.mp hi
    refine ⟨hgroups.trans hsaid, identify_eq_some_iff.mpr ⟨⟨cs, ?_, hne, huser'⟩, hsaid'.symm⟩⟩
    rw [huser]
    exact hcs
  · intro h' huser hgroups
    refine identify_congr ?_ (congrArg said hgroups)
    unfold Headers.get?
    rw [huser]

section Example

/-- A caller in the headers that are used unless others are asked for. -/
def annWith (groups : List Bytes) : Headers :=
  ⟨⟨"x-remote-user", Bytes.ofAscii " ann"⟩ :: groups.map fun v => ⟨"x-remote-group", v⟩⟩

/-- Two values name three groups, and so does one, however it is spaced. A value that is no text
takes two of them away. -/
theorem ann_canonical :
    (standard.userHeader ≠ standard.groupHeader ∧
      standard.identify (annWith [Bytes.ofAscii "dev, ops", Bytes.ofAscii "adm"]) =
        some ⟨"ann", ["dev", "ops", "adm"]⟩) ∧
    standard.identify (standard.presented .empty ⟨"ann", ["dev", "ops", "adm"]⟩
      [[[' '], "dev\t".toList, " ops".toList, [], "adm".toList]]) =
        some ⟨"ann", ["dev", "ops", "adm"]⟩ ∧
    standard.identify (annWith [Bytes.ofAscii "dev", Bytes.ofAscii " ops,adm"]) =
      some ⟨"ann", ["dev", "ops", "adm"]⟩ ∧
    standard.identify (annWith [[0xff], Bytes.ofAscii "adm"]) = some ⟨"ann", ["adm"]⟩ ∧
    standard.identify ((annWith [Bytes.ofAscii "dev, ops", Bytes.ofAscii "adm"]).append
      "x-remote-uid" [0x31]) = some ⟨"ann", ["dev", "ops", "adm"]⟩ := by
  have hne : standard.userHeader ≠ standard.groupHeader := by decide
  obtain ⟨haccepted, hcanonical, hresplit, hremoved, hother⟩ := identity_canonical standard hne
    (annWith [Bytes.ofAscii "dev, ops", Bytes.ofAscii "adm"])
  have hi : standard.identify (annWith [Bytes.ofAscii "dev, ops", Bytes.ofAscii "adm"]) =
      some ⟨"ann", ["dev", "ops", "adm"]⟩ := by decide +kernel
  obtain ⟨-, -, hlines⟩ := hcanonical _ hi
  have hspace : Spacing [' '] := List.forall_mem_singleton.mpr (.inl rfl)
  have htab : Spacing ['\t'] := List.forall_mem_singleton.mpr (.inr rfl)
  have hnil : Spacing [] := nofun
  have hitems : Items ["dev", "ops", "adm"]
      [[' '], "dev\t".toList, " ops".toList, [], "adm".toList] :=
    .empty hspace <| .group (g := "dev") hnil htab <| .group (g := "ops") hspace hnil <|
      .empty hnil <| .group (g := "adm") hnil hnil .nil
  refine ⟨⟨hne, hi⟩, hlines _ _ hitems, ?_, ?_, ?_⟩
  · refine (hresplit (annWith [Bytes.ofAscii "dev", Bytes.ofAscii " ops,adm"])
      ["dev, ops".toList, "adm".toList] ["dev".toList, " ops,adm".toList] ?_ ?_ ?_ ?_).trans hi
    · decide +kernel
    · decide +kernel
    · decide +kernel
    · decide
  · refine (hremoved (annWith [[0xff], Bytes.ofAscii "adm"]) [] (Bytes.ofAscii "dev, ops") [[0xff]]
      [Bytes.ofAscii "adm"] ?_ ?_ ?_ ?_ _ hi).2
    · decide +kernel
    · decide +kernel
    · decide
    · decide +kernel
  · exact (hother _ (by decide +kernel) (by decide +kernel)).trans hi

end Example

end Credentials

end WatchGate
