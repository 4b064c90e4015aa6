import Mathlib.Algebra.Ring.Nat
import WatchGate.Multiwatch.Backend
import WatchGate.Proofs.Numeral
import WatchGate.Proofs.Query

/-!
# WatchGate — versions in queries

A resource version stands in two queries: in that of a request, where anything may be
written, and in that of a URL that is made for it. `AsksFrom` says which version the
first one asks from. The second one is made of plain text, so that the URL comes out
as it was put together, and the version can be read off it again
(`Backend.Resolves`).

Main results:

* `asksFrom_iff` — every URI asks from one version.
* `readPath_append` — a path and the query behind it are read as they are.
* `Backend.ofBase_of_text`, `Backend.resolves_urlOf` — the URL that is made of a base,
  a path and a version, and what it holds.
-/

namespace WatchGate

open Http

namespace Multiwatch

-- ---------------------------------------------------------------------------
-- The version of a request
-- ---------------------------------------------------------------------------

section Request

variable {u : Uri} {n : Nat} {value : String}

/-- The resource version that a URI asks for. -/
inductive AsksFrom (u : Uri) : Nat → Prop
  /-- the first value of the name is a numeral of a number below 2 ^ 64 -/
  | given {value : String} {n : Nat} (hfirst : u.First "resourceVersion" value)
      (hn : Text.Writes value.toList n) (hlt : n < 2 ^ 64) : AsksFrom u n
  /-- it is anything else, or there is none -/
  | otherwise (hno : ∀ value, u.First "resourceVersion" value →
      ∀ n, Text.Writes value.toList n → 2 ^ 64 ≤ n) : AsksFrom u 0

theorem resourceVersion_of_writes (hfirst : u.First "resourceVersion" value)
    (hn : Text.Writes value.toList n) (hlt : n < 2 ^ 64) : resourceVersion u = n := by
  have hread : Text.unsigned? Text.word64 value.toList = some n :=
    Text.unsigned?_eq_some_iff.mpr ⟨hn, hlt⟩
  unfold resourceVersion
  rw [Uri.param_eq_some_iff.mpr hfirst, Option.bind_some, hread]
  rfl

theorem resourceVersion_eq_zero (hno : ∀ value, u.First "resourceVersion" value →
    ∀ n, Text.Writes value.toList n → 2 ^ 64 ≤ n) : resourceVersion u = 0 := by
  unfold resourceVersion
  cases hparam : u.param "resourceVersion" with
  | none => rfl
  | some value =>
    rw [Option.bind_some]
    cases hread : Text.unsigned? Text.word64 value.toList with
    | none => rfl
    | some n =>
      obtain ⟨hn, hlt⟩ := Text.unsigned?_eq_some_iff.mp hread
      have hge := hno value (Uri.param_eq_some_iff.mp hparam) n hn
      exact absurd hlt (Nat.not_lt.mpr hge)

/-- Every URI asks from one version. -/
theorem asksFrom_iff : AsksFrom u n ↔ n = resourceVersion u := by
  constructor
  · intro h
    cases h with
    | given hfirst hn hlt => exact (resourceVersion_of_writes hfirst hn hlt).symm
    | otherwise hno => exact (resourceVersion_eq_zero hno).symm
  · rintro rfl
    by_cases hgiven : ∃ value n, u.First "resourceVersion" value ∧
        Text.Writes value.toList n ∧ n < 2 ^ 64
    · obtain ⟨value, n, hfirst, hn, hlt⟩ := hgiven
      rw [resourceVersion_of_writes hfirst hn hlt]
      exact .given hfirst hn hlt
    · have hno : ∀ value, u.First "resourceVersion" value →
          ∀ n, Text.Writes value.toList n → 2 ^ 64 ≤ n := by
        intro value hfirst n hn
        refine Nat.not_lt.mp fun hlt => ?_
        exact hgiven ⟨value, n, hfirst, hn, hlt⟩
      rw [resourceVersion_eq_zero hno]
      exact .otherwise hno

theorem AsksFrom.lt (h : AsksFrom u n) : n < 2 ^ 64 := by
  cases h with
  | given hfirst hn hlt => exact hlt
  | otherwise hno => decide

end Request

end Multiwatch

-- ---------------------------------------------------------------------------
-- Paths and queries
-- ---------------------------------------------------------------------------

namespace Http

/-- Letters, digits and marks that need no encoding in a path. All that is beyond ASCII counts
as a letter. -/
def isPathText (c : Char) : Bool :=
  c.isAlphanum || 0x80 ≤ c.toNat || ['.', '-', '_', '~', '/'].contains c

/-- Whether a path is absolute and needs no encoding. -/
structure PathText (path : String) : Prop where
  start : ∃ cs, path.toList = '/' :: cs
  chars : ∀ c ∈ path.toList, isPathText c = true

theorem isPathChar_of_text {c : Char} (h : isPathText c = true) : isPathChar c = true := by
  rcases Nat.lt_or_ge c.toNat 0x80 with hc | hc
  · exact char_ascii (P := fun c => isPathText c = true → isPathChar c = true) (by decide) hc h
  · simp [isPathChar, hc]

/-- The characters of a path do not end it. -/
theorem not_mark_of_isPathChar {c : Char} (h : isPathChar c = true) : c ≠ '?' ∧ c ≠ '#' := by
  constructor
  · rintro rfl
    exact absurd h (by decide)
  · rintro rfl
    exact absurd h (by decide)

theorem readQuery_eq_self {q : List Char} (h : ∀ c ∈ q, isQueryChar c = true) :
    readQuery q = .ok q := by
  induction q with
  | nil => rfl
  | cons c q ih =>
    obtain ⟨hc, hq⟩ := List.forall_mem_cons.mp h
    have hmark : c ≠ '#' := by
      rintro rfl
      exact absurd hc (by decide)
    rw [readQuery, if_neg hmark, if_pos hc, ih hq]
    rfl

/-- A path and the query behind it are read as they are. -/
theorem readPath_append {cs q : List Char} (hcs : ∀ c ∈ cs, isPathChar c = true)
    (hq : ∀ c ∈ q, isQueryChar c = true) :
    readPath (cs ++ '?' :: q) = .ok (cs, some q) := by
  induction cs with
  | nil =>
    rw [List.nil_append, readPath, if_pos rfl, readQuery_eq_self hq]
    rfl
  | cons c cs ih =>
    obtain ⟨hc, hrest⟩ := List.forall_mem_cons.mp hcs
    obtain ⟨hquery, hmark⟩ := not_mark_of_isPathChar hc
    rw [List.cons_append, readPath, if_neg hquery, if_neg hmark, if_pos hc, ih hrest]
    rfl

theorem byteLength_eq (cs : List Char) : byteLength cs = (String.ofList cs).utf8ByteSize := by
  induction cs with
  | nil => rfl
  | cons c cs ih =>
    rw [String.ofList_cons, String.utf8ByteSize_append, String.utf8ByteSize_singleton, ← ih]
    rfl

theorem byteLength_toList (s : String) : byteLength s.toList = s.utf8ByteSize := by
  rw [byteLength_eq, String.ofList_toList]

end Http

-- ---------------------------------------------------------------------------
-- URLs of a base
-- ---------------------------------------------------------------------------

namespace Multiwatch.Backend

variable {base u : Uri} {host path : String} {v : Nat}

/-- What a URL holds that was made of a base, a path and a version. -/
structure Resolves (base : Uri) (host path : String) (v : Nat) (u : Uri) : Prop where
  text : u.render = (if base.scheme = some "https" ∨ base.scheme = some "wss" then "wss" else "ws")
    ++ "://" ++ host ++ path ++ "?watch=true&resourceVersion=" ++ toString v
  watch : u.param "watch" = some "true"
  version : ∃ value, u.param "resourceVersion" = some value ∧ Text.Writes value.toList v
  read : v < 2 ^ 64 → resourceVersion u = v

/-- The names and values of the query. -/
def watchPairs (v : Nat) : List (List Char × List Char) :=
  [("watch".toList, "true".toList), ("resourceVersion".toList, Text.digits v)]

/-- The query behind the question mark. -/
def watchText (v : Nat) : List Char := Form.written (watchPairs v)

theorem watchText_eq (v : Nat) :
    watchText v = "watch=true&resourceVersion=".toList ++ Text.digits v := rfl

theorem watchQuery_eq (v : Nat) :
    watchQuery v = "?watch=true&resourceVersion=" ++ toString v := by
  unfold watchQuery
  rw [Text.ofList_digits]

theorem toList_watchQuery (v : Nat) : (watchQuery v).toList = '?' :: watchText v := by
  have hdigits : (String.ofList (Text.digits v)).toList = Text.digits v := String.toList_ofList
  unfold watchQuery
  rw [String.toList_append, hdigits]
  rfl

theorem plain_watchPairs (v : Nat) : ∀ p ∈ watchPairs v, Form.Plain p := by
  have hdigits : ∀ c ∈ Text.digits v, Form.isPlain c = true := by
    intro c hc
    have hdigit := Text.isDigit_of_mem_digits hc
    exact char_ascii (P := fun c => c.isDigit = true → Form.isPlain c = true) (by decide)
      (Text.ascii_of_isDigit hdigit) hdigit
  have hname : ∀ c ∈ "resourceVersion".toList, Form.isPlain c = true :=
    List.all_eq_true.mp (by decide)
  have hwatch : Form.Plain ("watch".toList, "true".toList) :=
    ⟨List.all_eq_true.mp (by decide), List.all_eq_true.mp (by decide)⟩
  unfold watchPairs
  rw [List.forall_mem_cons, List.forall_mem_singleton]
  exact ⟨hwatch, hname, hdigits⟩

theorem isQueryChar_watchText (v : Nat) : ∀ c ∈ watchText v, isQueryChar c = true := by
  rw [watchText_eq, List.forall_mem_append]
  refine ⟨List.all_eq_true.mp (by decide), fun c hc => ?_⟩
  have hdigit := Text.isDigit_of_mem_digits hc
  exact char_ascii (P := fun c => c.isDigit = true → isQueryChar c = true) (by decide)
    (Text.ascii_of_isDigit hdigit) hdigit

/-- The URL of a path on a host. -/
def urlOf (base : Uri) (host path : String) (v : Nat) : Uri :=
  ⟨some (schemeFor base), some host, path, some (String.ofList (watchText v))⟩

theorem ofBase_of_text (hhost : base.authority = some host) (hpath : PathText path)
    (hbytes : (path ++ "?watch=true&resourceVersion=" ++ toString v).utf8ByteSize ≤ 65534) :
    ofBase base path v = some (urlOf base host path v) := by
  obtain ⟨cs, hstart⟩ := hpath.start
  have hlength : ¬ maxUriBytes < byteLength (path ++ watchQuery v).toList := by
    rw [byteLength_toList, watchQuery_eq, ← String.append_assoc]
    exact Nat.not_lt.mpr hbytes
  have htext : (path ++ watchQuery v).toList = path.toList ++ '?' :: watchText v := by
    rw [String.toList_append, toList_watchQuery]
  have hslash : startsPath (path ++ watchQuery v).toList = true := by
    rw [htext, hstart]
    rfl
  have hread : pathAndQuery (path ++ watchQuery v).toList =
      .ok (path.toList, some (watchText v)) := by
    unfold pathAndQuery
    rw [if_neg hlength, hslash, htext]
    exact readPath_append (fun c hc => isPathChar_of_text (hpath.chars c hc))
      (isQueryChar_watchText v)
  have hnonempty : path.toList.isEmpty = false := by
    rw [hstart]
    rfl
  unfold ofBase
  simp only [hhost, hread, Uri.absolute, hnonempty, String.ofList_toList]
  rfl

theorem pairs_urlOf (base : Uri) (host path : String) (v : Nat) :
    (urlOf base host path v).pairs =
      [("watch", "true"), ("resourceVersion", String.ofList (Text.digits v))] := by
  show Form.pairs (Utf8.ofString (String.ofList (watchText v))) = _
  unfold Utf8.ofString
  rw [String.toList_ofList]
  exact Form.pairs_written (plain_watchPairs v)

theorem schemeFor_eq (base : Uri) : schemeFor base =
    if base.scheme = some "https" ∨ base.scheme = some "wss" then "wss" else "ws" := by
  unfold schemeFor
  split
  · next h => rw [h, if_pos (.inl rfl)]
  · next h => rw [h, if_pos (.inr rfl)]
  · next hhttps hwss => rw [if_neg (not_or.mpr ⟨hhttps, hwss⟩)]

theorem resolves_urlOf (base : Uri) (host path : String) (v : Nat) :
    Resolves base host path v (urlOf base host path v) := by
  have hfirst : (urlOf base host path v).First "resourceVersion"
      (String.ofList (Text.digits v)) := by
    refine ⟨[("watch", "true")], [], pairs_urlOf base host path v, ?_⟩
    rw [List.forall_mem_singleton]
    decide
  have hwrites : Text.Writes (String.ofList (Text.digits v)).toList v := by
    rw [String.toList_ofList]
    exact Text.writes_digits v
  constructor
  case text =>
    have hquery : "?" ++ String.ofList (watchText v) =
        "?watch=true&resourceVersion=" ++ toString v := by
      rw [watchText_eq, String.ofList_append, Text.ofList_digits, ← String.append_assoc]
      rfl
    show schemeFor base ++ "://" ++ host ++ path ++ ("?" ++ String.ofList (watchText v)) = _
    rw [hquery, schemeFor_eq, ← String.append_assoc]
  case watch =>
    exact Uri.param_eq_some_iff.mpr ⟨[], _, pairs_urlOf base host path v, by simp⟩
  case version => exact ⟨_, Uri.param_eq_some_iff.mpr hfirst, hwrites⟩
  case read => exact resourceVersion_of_writes hfirst hwrites

end Multiwatch.Backend

end WatchGate
