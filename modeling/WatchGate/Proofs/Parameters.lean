import WatchGate.Proofs.Scheme

/-!
# WatchGate — parameters, whatever way they are written

A text that is read as a URI keeps its query: the question mark is what ends a path or
an authority, so that nothing of the query is read as anything else, and the characters
that write names and values are all characters of a query (`Form.isQueryChar_of_lists`).
What a query lists is then found again by its names (`Uri.Says`).

Main results:

* `Uri.query_of_parse` — the query of a URI is what stands behind its question mark.
* `Uri.parse_target` — a path and a query of any length below the limit are read.
* `Uri.params_read_back` — a parameter is the first value that is listed of its name.
-/

namespace WatchGate

namespace Text

/-- A mark that is not in the first part of a text is in the second. -/
theorem eq_append_of_not_mem {α : Type} {as bs front back : List α} {x : α}
    (h : as ++ bs = front ++ x :: back) (hx : x ∉ as) :
    ∃ rest, front = as ++ rest ∧ bs = rest ++ x :: back := by
  rcases List.append_eq_append_iff.mp h with ⟨rest, hfront, hbs⟩ | ⟨rest, has, hback⟩
  · exact ⟨rest, hfront, hbs⟩
  · cases rest with
    | nil => exact ⟨[], by simpa using has.symm, hback.symm⟩
    | cons y rest =>
      have hy : y = x := (List.head_eq_of_cons_eq hback).symm
      rw [has, hy] at hx
      exact absurd (List.mem_append_right _ List.mem_cons_self) hx

end Text

namespace Http

variable {cs front rest q : List Char}

-- ---------------------------------------------------------------------------
-- The question mark
-- ---------------------------------------------------------------------------

section QuestionMark

variable {r : List Char × Option (List Char)}

/-- A path ends at its first question mark. -/
theorem query_of_readPath (hfront : '?' ∉ front) (hmark : '#' ∉ front)
    (hq : ∀ c ∈ q, isQueryChar c = true) (h : readPath (front ++ '?' :: q) = .ok r) :
    r.2 = some q := by
  induction front generalizing r with
  | nil =>
    rw [List.nil_append, readPath, if_pos rfl, readQuery_eq_self hq] at h
    cases h
    rfl
  | cons c front ih =>
    rw [List.mem_cons, not_or] at hfront hmark
    have hne : c ≠ '?' := Ne.symm hfront.1
    have hne' : c ≠ '#' := Ne.symm hmark.1
    rw [List.cons_append, readPath, if_neg hne, if_neg hne'] at h
    split at h
    · cases hread : readPath (front ++ '?' :: q) with
      | error e =>
        rw [hread] at h
        cases h
      | ok s =>
        rw [hread] at h
        cases h
        show s.2 = some q
        exact ih hfront.2 hmark.2 hread
    · cases h

theorem query_of_pathAndQuery (hfront : '?' ∉ front) (hmark : '#' ∉ front)
    (hq : ∀ c ∈ q, isQueryChar c = true) (h : pathAndQuery (front ++ '?' :: q) = .ok r) :
    r.2 = some q := by
  unfold pathAndQuery at h
  split at h
  · cases h
  · split at h
    · cases h
    · exact query_of_readPath hfront hmark hq h

end QuestionMark

namespace Uri

variable {u : Uri} {text : String} {name : List Char} {ps : List (String × String)}

/-- No question mark is in what is dropped with a scheme. -/
theorem splitScheme_append (h : splitScheme cs = .ok (some (name, rest))) :
    ∃ written, cs = written ++ rest ∧ '?' ∉ written := by
  obtain ⟨w, hw, -, hall⟩ := splitScheme_eq_some h
  refine ⟨w ++ [':', '/', '/'], hall, ?_⟩
  rw [List.mem_append, not_or]
  refine ⟨fun hmem => ?_, by decide⟩
  exact absurd (hw.chars '?' hmem) (by decide)

variable (hfront : '?' ∉ front) (hmark : '#' ∉ front) (hq : ∀ c ∈ q, isQueryChar c = true)

include hfront hmark hq in
theorem query_of_parseFull (h : parseFull (front ++ '?' :: q) = .ok u) :
    u.query = some (String.ofList q) := by
  unfold parseFull at h
  split at h
  · cases h
  · split at h
    · cases h
    · next a rest hsplit =>
      split at h
      · next hrest =>
        -- an authority on its own would hold the question mark that ends it
        obtain ⟨hall, hchars⟩ := append_of_split hsplit
        rw [List.isEmpty_iff.mp hrest, List.append_nil] at hall
        have hmem : '?' ∈ a := by
          rw [hall]
          exact List.mem_append_right _ List.mem_cons_self
        exact absurd (hchars _ hmem) (by decide)
      · cases h
  · next scheme behind hscheme =>
    obtain ⟨written, hwritten, hnot⟩ := splitScheme_append hscheme
    obtain ⟨front', rfl, hbehind⟩ := Text.eq_append_of_not_mem hwritten.symm hnot
    split at h
    · cases h
    split at h
    · cases h
    · next a rest hsplit =>
      obtain ⟨hall, hchars⟩ := append_of_split hsplit
      have hnot' : '?' ∉ a := fun hmem => absurd (hchars _ hmem) (by decide)
      obtain ⟨path, rfl, hrest⟩ := Text.eq_append_of_not_mem (hall.trans hbehind) hnot'
      split at h
      · cases h
      split at h
      · cases h
      · next pq hpq =>
        cases h
        simp only [List.mem_append, not_or] at hfront hmark
        rw [hrest] at hpq
        show pq.2.map String.ofList = _
        rw [query_of_pathAndQuery hfront.2.2 hmark.2.2 hq hpq]
        rfl

include hfront hmark hq in
/-- The query of a URI is what stands behind its question mark. -/
theorem query_of_parse (htext : text.toList = front ++ '?' :: q) (h : parse text = .ok u) :
    u.query = some (String.ofList q) := by
  have hmem : '?' ∈ text.toList := by
    rw [htext]
    exact List.mem_append_right _ List.mem_cons_self
  unfold parse at h
  simp only at h
  split at h
  · cases h
  split at h
  · cases h
  · next heq => exact absurd (heq ▸ hmem) (by decide)
  · next heq => exact absurd (heq ▸ hmem) (by decide)
  · next c _ _ heq =>
    obtain rfl : '?' = c := List.mem_singleton.mp (heq ▸ hmem)
    rw [if_pos (by decide)] at h
    cases h
  · split at h
    · cases h
    · next pq hpq =>
      cases h
      rw [htext] at hpq
      show pq.2.map String.ofList = _
      rw [query_of_pathAndQuery hfront hmark hq hpq]
      rfl
  · rw [htext] at h
    exact query_of_parseFull hfront hmark hq h

include hq in
/-- A path and a query of any length below the limit are read. -/
theorem parse_target {path : List Char} (hpath : ∀ c ∈ path, isPathChar c = true)
    (htext : text.toList = '/' :: path ++ '?' :: q) (hbytes : text.utf8ByteSize ≤ 65534) :
    parse text = .ok ⟨none, none, String.ofList ('/' :: path), some (String.ofList q)⟩ := by
  have hlength : ¬ maxUriBytes < byteLength text.toList := by
    rw [byteLength_toList]
    exact Nat.not_lt.mpr hbytes
  have hread : pathAndQuery text.toList = .ok ('/' :: path, some q) := by
    have hslash : startsPath text.toList = true := by
      rw [htext]
      cases path <;> rfl
    unfold pathAndQuery
    rw [if_neg hlength, hslash, htext]
    exact readPath_append (List.forall_mem_cons.mpr ⟨by decide, hpath⟩) hq
  unfold parse
  simp only
  rw [if_neg hlength]
  -- the slash is followed by the question mark at least, so that this is not the root alone
  obtain ⟨c, cs, hcs⟩ : ∃ c cs, text.toList = '/' :: c :: cs := by
    rw [htext]
    cases path with
    | nil => exact ⟨_, _, rfl⟩
    | cons c cs => exact ⟨_, _, rfl⟩
  rw [hcs] at hread ⊢
  simp only [hread]
  rfl

-- ---------------------------------------------------------------------------
-- What is found under a name
-- ---------------------------------------------------------------------------

/-- Of each name that is listed, a URI has the first value, and none of any other name. -/
structure Says (u : Uri) (ps : List (String × String)) : Prop where
  first : ∀ name value, u.param name = some value ↔
    ∃ pre post, ps = pre ++ (name, value) :: post ∧ ∀ p ∈ pre, p.1 ≠ name
  absent : ∀ name, u.param name = none ↔ ∀ p ∈ ps, p.1 ≠ name

theorem says_pairs (u : Uri) : u.Says u.pairs := by
  refine ⟨fun name value => param_eq_some_iff, fun name => ?_⟩
  rw [param_eq, Option.map_eq_none_iff, List.find?_eq_none]
  simp only [decide_eq_true_eq, ne_eq]

theorem says_of_lists {s : String} (hs : u.query = some s) (h : Form.Lists ps s.toList) :
    u.Says ps := by
  have hpairs : u.pairs = ps := by
    unfold pairs
    rw [hs]
    exact Form.pairs_of_lists h
  rw [← hpairs]
  exact says_pairs u

/--
**Parameters are read back.** Of every list of names and values, and every query that lists
them: a URI with this query has, of each name, the first value that is listed, and no value
exactly if the name is not listed. Every text that is read as a URI and has the query behind
its question mark is such a URI, and every path with the query behind it is read as one,
unless the text is too long. A URI without a query has no parameters.
-/
theorem params_read_back (ps : List (String × String)) (q : String)
    (hlists : Form.Lists ps q.toList) :
    (∀ u : Uri, u.query = some q → u.Says ps) ∧
    (∀ (front : String) (u : Uri), '?' ∉ front.toList → '#' ∉ front.toList →
      parse (front ++ "?" ++ q) = .ok u → u.Says ps) ∧
    (∀ path : String, path.toList.head? = some '/' →
      (∀ c ∈ path.toList, isPathChar c = true) → (path ++ "?" ++ q).utf8ByteSize ≤ 65534 →
      parse (path ++ "?" ++ q) = .ok ⟨none, none, path, some q⟩ ∧
      (⟨none, none, path, some q⟩ : Uri).Says ps) ∧
    ∀ u : Uri, u.query = none → ∀ name, u.param name = none := by
  have hchars : ∀ c ∈ q.toList, isQueryChar c = true := Form.isQueryChar_of_lists hlists
  have htext : ∀ front : String, (front ++ "?" ++ q).toList = front.toList ++ '?' :: q.toList := by
    intro front
    rw [String.toList_append, String.toList_append, List.append_assoc]
    rfl
  refine ⟨fun u hu => says_of_lists hu hlists, ?_, ?_, ?_⟩
  · intro front u hfront hmark hu
    have hquery := query_of_parse hfront hmark hchars (htext front) hu
    rw [String.ofList_toList] at hquery
    exact says_of_lists hquery hlists
  · intro path hslash hpath hbytes
    obtain ⟨cs, hcs⟩ := List.head?_eq_some_iff.mp hslash
    have hrest : ∀ c ∈ cs, isPathChar c = true := by
      intro c hc
      exact hpath c (hcs ▸ List.mem_cons_of_mem _ hc)
    have hread := parse_target hchars hrest (hcs ▸ htext path) hbytes
    rw [← hcs, String.ofList_toList, String.ofList_toList] at hread
    exact ⟨hread, says_of_lists rfl hlists⟩
  · intro u hu name
    unfold param
    rw [hu]

section Example

/-- A query in which a name is written twice, and a mark is in another name. -/
def twoKinds : String := "kind=P%6Fd&&%C3%a4%26=a+b&kind=Node&"

/-- What it lists. -/
def twoKindsPairs : List (String × String) := [("kind", "Pod"), ("ä&", "a b"), ("kind", "Node")]

theorem lists_twoKinds : Form.Lists twoKindsPairs twoKinds.toList := by
  have hkind : Form.Writes (Utf8.ofString "kind") "kind".toList :=
    Form.writes_plain (List.all_eq_true.mp (by decide))
  have hnode : Form.Writes (Utf8.ofString "Node") "Node".toList :=
    Form.writes_plain (List.all_eq_true.mp (by decide))
  have hpod : Form.Writes (Utf8.ofString "Pod") "P%6Fd".toList := by
    have hx : Bytes.hexValue? '6' = some 6 := by decide
    have hy : Bytes.hexValue? 'F' = some 15 := by decide
    exact .cons (.plain (c := 'P') (by decide)) <| .cons (.escape hx hy) <|
      .cons (.plain (c := 'd') (by decide)) .nil
  have hname : Form.Writes (Utf8.ofString "ä&") "%C3%a4%26".toList := by
    have h12 : Bytes.hexValue? 'C' = some 12 := by decide
    have h3 : Bytes.hexValue? '3' = some 3 := by decide
    have h10 : Bytes.hexValue? 'a' = some 10 := by decide
    have h4 : Bytes.hexValue? '4' = some 4 := by decide
    have h2 : Bytes.hexValue? '2' = some 2 := by decide
    have h6 : Bytes.hexValue? '6' = some 6 := by decide
    exact .cons (.escape h12 h3) <| .cons (.escape h10 h4) <| .cons (.escape h2 h6) .nil
  have hvalue : Form.Writes (Utf8.ofString "a b") "a+b".toList :=
    .cons (.plain (c := 'a') (by decide)) <| .cons .space <|
      .cons (.plain (c := 'b') (by decide)) .nil
  exact .cons (.mk hkind hpod) <| .ampersand <| .cons (.mk hname hvalue) <|
    .cons (.mk hkind hnode) .nil

/-- The first kind counts, in a path and behind an authority, and a mark does not end a name. -/
theorem twoKinds_read_back :
    (Form.Lists twoKindsPairs twoKinds.toList ∧
      ∃ u : Uri, parse "http://gate/permissions?kind=P%6Fd&&%C3%a4%26=a+b&kind=Node&" = .ok u ∧
        u.param "kind" = some "Pod") ∧
    (parse "/permissions?kind=P%6Fd&&%C3%a4%26=a+b&kind=Node&" =
        .ok ⟨none, none, "/permissions", some twoKinds⟩ ∧
      (⟨none, none, "/permissions", some twoKinds⟩ : Uri).param "ä&" = some "a b") ∧
    (⟨none, none, "/", some twoKinds⟩ : Uri).param "name" = none ∧
    (⟨none, none, "/", none⟩ : Uri).param "kind" = none := by
  obtain ⟨hany, hbehind, hpath, hnone⟩ :=
    params_read_back twoKindsPairs twoKinds lists_twoKinds
  have hfull : parse ("http://gate/permissions" ++ "?" ++ twoKinds) =
      .ok ⟨some "http", some "gate", "/permissions", some twoKinds⟩ := by decide +kernel
  have hknown := hbehind "http://gate/permissions" _ (by decide) (by decide) hfull
  obtain ⟨hparse, hknown'⟩ := hpath "/permissions" (by decide) (List.all_eq_true.mp (by decide))
    (by decide)
  refine ⟨⟨lists_twoKinds, _, hfull, ?_⟩, ⟨hparse, ?_⟩, ?_, hnone _ rfl "kind"⟩
  · exact (hknown.first _ _).mpr ⟨[], _, rfl, nofun⟩
  · exact (hknown'.first _ _).mpr ⟨[("kind", "Pod")], _, rfl, by decide⟩
  · exact ((hany _ rfl).absent _).mpr (by decide)

end Example

end Uri

end Http

end WatchGate
