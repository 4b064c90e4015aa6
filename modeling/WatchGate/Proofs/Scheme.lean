import Mathlib.Data.String.Basic
import WatchGate.Proofs.Backend

/-!
# WatchGate — which bases are dialed securely

The scheme of a text is what stands in front of its first `://`
(`Uri.WrittenScheme`). Reading keeps it as it is written, two schemes apart: `http`
and `https` are known in any case and stored in lower case (`Uri.storedScheme`). A
backend looks at what is stored, so that the case of a letter decides whether a base
with any other scheme is dialed securely.

Main results:

* `Uri.scheme_of_parse` — the scheme of a URI is stored of the one that is written.
* `Backend.secure_iff` — the bases whose URLs have the scheme `wss`.
* `Backend.upperCase_downgraded` — `WSS` is not one of theirs.
-/

namespace WatchGate

open Http

-- ---------------------------------------------------------------------------
-- Letters of either case
-- ---------------------------------------------------------------------------

namespace Text

variable {c d : Char} {as bs : List Char}

theorem toLower_of_not_ascii (h : 0x80 ≤ c.toNat) : c.toLower = c := by
  have hupper : ¬ (c.val ≥ 'A'.val ∧ c.val ≤ 'Z'.val) := by
    rintro ⟨-, hz⟩
    have hle : c.toNat ≤ 0x5a := UInt32.le_iff_toNat_le.mp hz
    omega
  exact dif_neg hupper

theorem eqIgnoringCase_iff : eqIgnoringCase as bs = true ↔ lower as = lower bs := beq_iff_eq

/-- Marks have no case. -/
theorem eq_mark_of_toLower (hd : d = ':' ∨ d = '/') (h : c.toLower = d) : c = d := by
  rcases Nat.lt_or_ge c.toNat 0x80 with hc | hc
  · have hascii := char_ascii (P := fun c =>
      (c.toLower = ':' → c = ':') ∧ (c.toLower = '/' → c = '/')) (by decide) hc
    rcases hd with rfl | rfl
    · exact hascii.1 h
    · exact hascii.2 h
  · rw [← h, toLower_of_not_ascii hc]

end Text

namespace Http

-- ---------------------------------------------------------------------------
-- Written schemes
-- ---------------------------------------------------------------------------

namespace Uri

variable {cs w name rest word : List Char} {c : Char} {text : String} {u : Uri}

/-- A text begins with a scheme, as it is written. -/
structure WrittenScheme (cs w : List Char) : Prop where
  chars : ∀ c ∈ w, isSchemeChar c = true
  mark : ∃ rest, cs = w ++ [':', '/', '/'] ++ rest

/-- What is stored of a scheme that is written. -/
def storedScheme (w : List Char) : List Char :=
  if Text.eqIgnoringCase w "http".toList then "http".toList
  else if Text.eqIgnoringCase w "https".toList then "https".toList
  else w

/-- There is no more than one, since the mark behind it begins with no character of a scheme. -/
theorem WrittenScheme.eq_takeWhile (h : WrittenScheme cs w) : w = cs.takeWhile isSchemeChar := by
  obtain ⟨rest, rfl⟩ := h.mark
  have hstop : ([':', '/', '/'] ++ rest).takeWhile isSchemeChar = [] :=
    List.takeWhile_cons_of_neg (by decide)
  rw [List.append_assoc, List.takeWhile_append_of_pos h.chars, hstop, List.append_nil]

theorem WrittenScheme.unique {w' : List Char} (h : WrittenScheme cs w) (h' : WrittenScheme cs w') :
    w = w' := h.eq_takeWhile.trans h'.eq_takeWhile.symm

theorem not_writtenScheme_cons (hc : isSchemeChar c = false) (hcolon : c ≠ ':') :
    ¬ WrittenScheme (c :: cs) w := by
  rintro ⟨hchars, rest, hmark⟩
  cases w with
  | nil => exact hcolon (List.head_eq_of_cons_eq hmark)
  | cons d w =>
    have hd := hchars d List.mem_cons_self
    rw [← List.head_eq_of_cons_eq hmark, hc] at hd
    cases hd

theorem slash_mem_of_writtenScheme (h : WrittenScheme cs w) : '/' ∈ cs := by
  obtain ⟨rest, rfl⟩ := h.mark
  simp

theorem isSchemeChar_of_toLower (h : isSchemeChar c.toLower = true) : isSchemeChar c = true := by
  rcases Nat.lt_or_ge c.toNat 0x80 with hc | hc
  · exact char_ascii (P := fun c => isSchemeChar c.toLower = true → isSchemeChar c = true)
      (by decide) hc h
  · rwa [Text.toLower_of_not_ascii hc] at h

/-- A text begins with a word and the mark, in any case, if its scheme is a spelling of the word. -/
theorem eqIgnoringCase_take_iff {n : Nat} (hn : n = word.length + 3)
    (hword : Text.lower word = word) (hchars : ∀ c ∈ word, isSchemeChar c = true) :
    Text.eqIgnoringCase (cs.take n) (word ++ "://".toList) = true ↔
      ∃ w, WrittenScheme cs w ∧ Text.eqIgnoringCase w word = true := by
  have hlower : Text.lower (word ++ "://".toList) = word ++ [':', '/', '/'] := by
    unfold Text.lower at hword ⊢
    rw [List.map_append, hword]
    rfl
  rw [Text.eqIgnoringCase_iff, hlower]
  constructor
  · intro h
    obtain ⟨w, mark, htake, hw, hmark⟩ := List.map_eq_append_iff.mp h
    have hcolon : mark = [':', '/', '/'] := by
      obtain ⟨a, as, rfl, ha, has⟩ := List.map_eq_cons_iff.mp hmark
      obtain ⟨b, bs, rfl, hb, hbs⟩ := List.map_eq_cons_iff.mp has
      obtain ⟨c, cs, rfl, hc, hcs⟩ := List.map_eq_cons_iff.mp hbs
      rw [Text.eq_mark_of_toLower (.inl rfl) ha, Text.eq_mark_of_toLower (.inr rfl) hb,
        Text.eq_mark_of_toLower (.inr rfl) hc, List.map_eq_nil_iff.mp hcs]
    refine ⟨w, ⟨fun c hc => ?_, cs.drop n, ?_⟩, ?_⟩
    · have hmem : c.toLower ∈ word := hw ▸ List.mem_map_of_mem hc
      exact isSchemeChar_of_toLower (hchars _ hmem)
    · rw [← hcolon, ← htake, List.take_append_drop]
    · rw [Text.eqIgnoringCase_iff, hword]
      exact hw
  · rintro ⟨w, hw, hcase⟩
    obtain ⟨rest, rfl⟩ := hw.mark
    rw [Text.eqIgnoringCase_iff, hword] at hcase
    have hlength : n = (w ++ [':', '/', '/']).length := by
      rw [hn, ← hcase]
      simp [Text.lower]
    rw [hlength, List.take_left, ← hcase]
    exact List.map_append

/-- What stands in front of the mark is the scheme, and is stored. -/
theorem splitScheme_eq_some (h : splitScheme cs = .ok (some (name, rest))) :
    ∃ w, WrittenScheme cs w ∧ name = storedScheme w ∧ cs = w ++ [':', '/', '/'] ++ rest := by
  -- behind a spelling of a word stands what is left behind the word
  have hrest : ∀ {w word : List Char}, WrittenScheme cs w → Text.eqIgnoringCase w word = true →
      cs = w ++ [':', '/', '/'] ++ cs.drop (word.length + 3) := by
    intro w word hw hcase
    obtain ⟨rest, rfl⟩ := hw.mark
    have hlength : word.length + 3 = (w ++ [':', '/', '/']).length := by
      have hlower := congrArg List.length (Text.eqIgnoringCase_iff.mp hcase)
      simp only [Text.lower, List.length_map] at hlower
      simp [hlower]
    rw [hlength, List.drop_left]
  have hhttp : Text.eqIgnoringCase (cs.take 7) ("http".toList ++ "://".toList) = true ↔
      ∃ w, WrittenScheme cs w ∧ Text.eqIgnoringCase w "http".toList = true :=
    eqIgnoringCase_take_iff (by decide) (by decide) (List.all_eq_true.mp (by decide))
  have hhttps : Text.eqIgnoringCase (cs.take 8) ("https".toList ++ "://".toList) = true ↔
      ∃ w, WrittenScheme cs w ∧ Text.eqIgnoringCase w "https".toList = true :=
    eqIgnoringCase_take_iff (by decide) (by decide) (List.all_eq_true.mp (by decide))
  unfold splitScheme at h
  simp only at h
  by_cases hspelt : Text.eqIgnoringCase (cs.take 7) ("http".toList ++ "://".toList) = true
  · rw [if_pos hspelt] at h
    cases h
    obtain ⟨w, hw, hcase⟩ := hhttp.mp hspelt
    exact ⟨w, hw, (if_pos hcase).symm, hrest hw hcase⟩
  have hno : ∀ w, WrittenScheme cs w → ¬ Text.eqIgnoringCase w "http".toList = true :=
    fun w hw hcase => hspelt (hhttp.mpr ⟨w, hw, hcase⟩)
  rw [if_neg hspelt] at h
  by_cases hspelt : Text.eqIgnoringCase (cs.take 8) ("https".toList ++ "://".toList) = true
  · rw [if_pos hspelt] at h
    cases h
    obtain ⟨w, hw, hcase⟩ := hhttps.mp hspelt
    refine ⟨w, hw, ?_, hrest hw hcase⟩
    unfold storedScheme
    rw [if_neg (hno w hw), if_pos hcase]
  have hno' : ∀ w, WrittenScheme cs w → ¬ Text.eqIgnoringCase w "https".toList = true :=
    fun w hw hcase => hspelt (hhttps.mpr ⟨w, hw, hcase⟩)
  rw [if_neg hspelt] at h
  split at h
  · cases h
  · split at h
    · cases h
    · next behind hbehind =>
      have hall : cs = cs.takeWhile isSchemeChar ++ [':', '/', '/'] ++ behind := by
        have hdrop := Text.dropStart?_eq_some_iff.mp hbehind
        rw [List.append_assoc]
        exact List.takeWhile_append_dropWhile.symm.trans (congrArg _ hdrop)
      have hw : WrittenScheme cs (cs.takeWhile isSchemeChar) :=
        ⟨List.all_eq_true.mp List.all_takeWhile, behind, hall⟩
      split at h
      · cases h
      · cases h
        refine ⟨_, hw, ?_, hall⟩
        unfold storedScheme
        rw [if_neg (hno _ hw), if_neg (hno' _ hw)]

-- ---------------------------------------------------------------------------
-- Schemes of URIs
-- ---------------------------------------------------------------------------

theorem not_isEnd_of_scan {s t : Authority.Seen} {a : List Char}
    (h : Authority.scan s cs = .ok (t, a, rest)) : ∀ c ∈ a, Authority.isEnd c = false := by
  induction cs generalizing s t a rest with
  | nil =>
    cases h
    exact nofun
  | cons c cs ih =>
    unfold Authority.scan at h
    split at h
    · cases h
      exact nofun
    · next hc =>
      split at h
      · cases h
      · split at h
        · cases h
        · next hs =>
          cases h
          exact List.forall_mem_cons.mpr ⟨by simpa using hc, ih hs⟩

/-- An authority is a part of a text without a mark that ends it. -/
theorem append_of_split {a : List Char} (h : Authority.split cs = .ok (a, rest)) :
    a ++ rest = cs ∧ ∀ c ∈ a, Authority.isEnd c = false := by
  unfold Authority.split at h
  split at h
  · cases h
  · next hscan =>
    split at h
    · cases h
      exact ⟨Authority.scan_append hscan, not_isEnd_of_scan hscan⟩
    · cases h

/-- A text that is an authority and nothing else has no scheme, since its mark would end it. -/
theorem not_writtenScheme_of_split {a : List Char} (h : Authority.split cs = .ok (a, [])) :
    ¬ WrittenScheme cs w := by
  intro hw
  obtain ⟨hall, hchars⟩ := append_of_split h
  rw [List.append_nil] at hall
  subst hall
  exact absurd (hchars '/' (slash_mem_of_writtenScheme hw)) (by decide)

theorem scheme_of_parseFull (h : parseFull cs = .ok u) (name : String) :
    u.scheme = some name ↔ ∃ w, WrittenScheme cs w ∧ String.ofList (storedScheme w) = name := by
  unfold parseFull at h
  split at h
  · cases h
  · split at h
    · cases h
    · next a rest hsplit =>
      split at h
      · next hrest =>
        cases h
        rw [List.isEmpty_iff] at hrest
        subst hrest
        exact iff_of_false nofun fun ⟨w, hw, _⟩ => not_writtenScheme_of_split hsplit hw
      · cases h
  · next scheme behind hscheme =>
    obtain ⟨w, hw, rfl, -⟩ := splitScheme_eq_some hscheme
    have hu : u.scheme = some (String.ofList (storedScheme w)) := by
      split at h
      · cases h
      · split at h
        · cases h
        · split at h
          · cases h
          · split at h
            · cases h
            · cases h
              rfl
    rw [hu, Option.some.injEq]
    constructor
    · rintro rfl
      exact ⟨w, hw, rfl⟩
    · rintro ⟨w', hw', rfl⟩
      rw [hw.unique hw']

/-- The scheme of a URI is stored of the one that is written. -/
theorem scheme_of_parse (h : parse text = .ok u) (name : String) :
    u.scheme = some name ↔
      ∃ w, WrittenScheme text.toList w ∧ String.ofList (storedScheme w) = name := by
  have hpath : ∀ c cs, text.toList = c :: cs → isSchemeChar c = false → c ≠ ':' →
      u.scheme = none → (u.scheme = some name ↔
        ∃ w, WrittenScheme text.toList w ∧ String.ofList (storedScheme w) = name) := by
    intro c cs htext hc hcolon hnone
    rw [hnone, htext]
    exact iff_of_false nofun fun ⟨w, hw, _⟩ => not_writtenScheme_cons hc hcolon hw
  unfold parse at h
  simp only at h
  split at h
  · cases h
  · split at h
    · cases h
    · next htext =>
      cases h
      exact hpath _ _ htext (by decide) (by decide) rfl
    · next htext =>
      cases h
      exact hpath _ _ htext (by decide) (by decide) rfl
    · next c _ _ htext =>
      split at h
      · cases h
      · rw [htext]
        exact scheme_of_parseFull h name
    · next htext =>
      split at h
      · cases h
      · cases h
        exact hpath _ _ htext (by decide) (by decide) rfl
    · exact scheme_of_parseFull h name

theorem storedScheme_eq_https_iff :
    storedScheme w = "https".toList ↔ Text.eqIgnoringCase w "https".toList = true := by
  unfold storedScheme
  split
  · next hhttp =>
    rw [Text.eqIgnoringCase_iff, Text.eqIgnoringCase_iff.mp hhttp]
    decide
  · split
    · next hhttps => exact iff_of_true rfl hhttps
    · next hhttps =>
      refine iff_of_false ?_ hhttps
      rintro rfl
      exact hhttps (by decide)

theorem storedScheme_eq_wss_iff : storedScheme w = "wss".toList ↔ w = "wss".toList := by
  unfold storedScheme
  split
  · next hhttp =>
    refine iff_of_false (by decide) ?_
    rintro rfl
    exact absurd hhttp (by decide)
  · split
    · next hhttps =>
      refine iff_of_false (by decide) ?_
      rintro rfl
      exact absurd hhttps (by decide)
    · exact Iff.rfl

/-- `https` is known in any case. -/
theorem scheme_eq_https_iff (h : parse text = .ok u) :
    u.scheme = some "https" ↔
      ∃ w, WrittenScheme text.toList w ∧ Text.eqIgnoringCase w "https".toList = true := by
  simp only [scheme_of_parse h, String.ofList_eq, storedScheme_eq_https_iff]

/-- `wss` is known in lower case. -/
theorem scheme_eq_wss_iff (h : parse text = .ok u) :
    u.scheme = some "wss" ↔ WrittenScheme text.toList "wss".toList := by
  simp only [scheme_of_parse h, String.ofList_eq, storedScheme_eq_wss_iff]
  exact exists_eq_right

end Uri

end Http

-- ---------------------------------------------------------------------------
-- Schemes of feeds
-- ---------------------------------------------------------------------------

namespace Multiwatch.Backend

variable {base u : Uri} {path : String} {v : Nat} {w : List Char}

theorem scheme_of_ofBase (h : ofBase base path v = some u) : u.scheme = some (schemeFor base) := by
  unfold ofBase at h
  split at h
  · cases h
  · split at h
    · cases h
      rfl
    · cases h

/--
**Which bases are dialed securely.** Of every text that is read as a base, and for every
path and version: the URL has the scheme `wss` exactly if the text has the scheme `https`,
in any case, or the scheme `wss`, written just so. In any other spelling the latter is
dialed by `ws`.
-/
theorem secure_iff (text : String) (base : Uri) (path : String) (v : Nat) (u : Uri)
    (hbase : Uri.parse text = .ok base) (hu : ofBase base path v = some u) :
    (u.scheme = some "wss" ∨ u.scheme = some "ws") ∧
    (u.scheme = some "wss" ↔ ∃ w, Uri.WrittenScheme text.toList w ∧
      (Text.eqIgnoringCase w "https".toList = true ∨ w = "wss".toList)) ∧
    ∀ w, Uri.WrittenScheme text.toList w → Text.eqIgnoringCase w "wss".toList = true →
      w ≠ "wss".toList → u.scheme = some "ws" := by
  have hscheme : u.scheme = some (schemeFor base) := scheme_of_ofBase hu
  rw [schemeFor_eq] at hscheme
  have heither : u.scheme = some "wss" ∨ u.scheme = some "ws" := by
    rw [hscheme]
    split
    · exact .inl rfl
    · exact .inr rfl
  have hsecure : u.scheme = some "wss" ↔ ∃ w, Uri.WrittenScheme text.toList w ∧
      (Text.eqIgnoringCase w "https".toList = true ∨ w = "wss".toList) := by
    calc u.scheme = some "wss"
        ↔ base.scheme = some "https" ∨ base.scheme = some "wss" := by
          rw [hscheme]
          split
          · next h => exact iff_of_true rfl h
          · next h => exact iff_of_false (by decide) h
      _ ↔ (∃ w, Uri.WrittenScheme text.toList w ∧ Text.eqIgnoringCase w "https".toList = true) ∨
            Uri.WrittenScheme text.toList "wss".toList := by
          rw [Uri.scheme_eq_https_iff hbase, Uri.scheme_eq_wss_iff hbase]
      _ ↔ ∃ w, Uri.WrittenScheme text.toList w ∧
            (Text.eqIgnoringCase w "https".toList = true ∨ w = "wss".toList) := by
          simp only [and_or_left, exists_or, exists_eq_right]
  refine ⟨heither, hsecure, fun w hw hcase hne => ?_⟩
  -- a text has one scheme, and this spelling is none of those that are secure
  refine heither.resolve_left fun hwss => ?_
  obtain ⟨w', hw', hspelt⟩ := hsecure.mp hwss
  obtain rfl := hw.unique hw'
  rcases hspelt with hhttps | rfl
  · rw [Text.eqIgnoringCase_iff] at hcase hhttps
    exact absurd (hcase.symm.trans hhttps) (by decide)
  · exact hne rfl

/-- The pods of a host, by a scheme. -/
def podsOf (scheme host : String) : Uri :=
  ⟨some scheme, some host, "/api/v1/pods", some "watch=true&resourceVersion=0"⟩

/-- `https` is known in capitals, and `wss` is not. -/
theorem capitals_secure :
    (Uri.parse "HTTPS://api.example" = .ok ⟨some "https", some "api.example", "/", none⟩ ∧
      ofBase ⟨some "https", some "api.example", "/", none⟩ "/api/v1/pods" 0 =
        some (podsOf "wss" "api.example") ∧
      (podsOf "wss" "api.example").scheme = some "wss") ∧
    Uri.parse "WSS://api.example" = .ok ⟨some "WSS", some "api.example", "/", none⟩ ∧
    ofBase ⟨some "WSS", some "api.example", "/", none⟩ "/api/v1/pods" 0 =
      some (podsOf "ws" "api.example") ∧
    (podsOf "ws" "api.example").scheme = some "ws" := by
  have hhttps : Uri.parse "HTTPS://api.example" =
      .ok ⟨some "https", some "api.example", "/", none⟩ := by decide +kernel
  have hwss : Uri.parse "WSS://api.example" =
      .ok ⟨some "WSS", some "api.example", "/", none⟩ := by decide +kernel
  have hurl : ofBase ⟨some "https", some "api.example", "/", none⟩ "/api/v1/pods" 0 =
      some (podsOf "wss" "api.example") := by decide +kernel
  have hurl' : ofBase ⟨some "WSS", some "api.example", "/", none⟩ "/api/v1/pods" 0 =
      some (podsOf "ws" "api.example") := by decide +kernel
  have hw : Uri.WrittenScheme "HTTPS://api.example".toList "HTTPS".toList :=
    ⟨List.all_eq_true.mp (by decide), "api.example".toList, by decide⟩
  have hw' : Uri.WrittenScheme "WSS://api.example".toList "WSS".toList :=
    ⟨List.all_eq_true.mp (by decide), "api.example".toList, by decide⟩
  obtain ⟨-, hsecure, -⟩ := secure_iff _ _ _ _ _ hhttps hurl
  obtain ⟨-, -, hdowngraded⟩ := secure_iff _ _ _ _ _ hwss hurl'
  exact ⟨⟨hhttps, hurl, hsecure.mpr ⟨_, hw, .inl (by decide)⟩⟩, hwss, hurl',
    hdowngraded _ hw' (by decide) (by decide)⟩

/-- A base that is to be dialed securely, in capitals, and is not. -/
theorem upperCase_downgraded :
    Uri.parse "WSS://api.example" = .ok ⟨some "WSS", some "api.example", "/", none⟩ ∧
    Text.eqIgnoringCase "WSS".toList "wss".toList = true ∧
    ofBase ⟨some "WSS", some "api.example", "/", none⟩ "/api/v1/pods" 0 =
      some (podsOf "ws" "api.example") ∧
    (podsOf "ws" "api.example").scheme ≠ some "wss" := by
  refine ⟨by decide +kernel, by decide, by decide +kernel, by decide⟩

end Multiwatch.Backend

end WatchGate
