import WatchGate.Http.Form
import WatchGate.Proofs.Location
import WatchGate.Proofs.Utf8

/-!
# WatchGate — what a query says

A form-encoded query is cut at ampersands and equals signs, and its bytes are decoded
piece by piece. Names and values can be written in many ways: a byte as itself, where
its character has no other meaning, or by two hexadecimal digits, and a space as a plus
sign. `Form.Lists` holds of all queries that list the same names and values. None of the
marks that a query is cut at is in what is written for a byte (`Form.isEncoded_of_writes`),
so that each of them is cut where it was joined.

`Uri.First` says which value of a name counts.

Main results:

* `Form.pairs_of_lists` — whatever way names and values are written, they are read back.
* `Form.pairs_written` — the same for names and values that need no encoding.
* `Uri.param_eq_some_iff` — a parameter is the first value of its name.
-/

namespace WatchGate

-- ---------------------------------------------------------------------------
-- Cutting
-- ---------------------------------------------------------------------------

namespace Text

theorem cutOnce_append {α : Type} [DecidableEq α] {sep : α} {p : List α} (h : sep ∉ p)
    (cs : List α) : cutOnce sep (p ++ sep :: cs) = (p, cs) := by
  have hp : ∀ c ∈ p, decide (c ≠ sep) = true := by
    intro c hc
    rw [decide_eq_true_eq]
    rintro rfl
    exact h hc
  unfold cutOnce
  rw [List.takeWhile_append_of_pos hp, List.dropWhile_append_of_pos hp]
  simp

end Text

namespace Http

/-- What holds of every character of ASCII holds of each of them. -/
theorem char_ascii {P : Char → Prop} (h : ∀ n < 0x80, P (Char.ofNat n)) {c : Char}
    (hc : c.toNat < 0x80) : P c := by
  have hp := h c.toNat hc
  rwa [Char.ofNat_toNat] at hp

-- ---------------------------------------------------------------------------
-- Written names and values
-- ---------------------------------------------------------------------------

namespace Form

open Utf8

/-- Whether a character stands for itself in a form: letters, digits, and the marks of
a query but for four. -/
def isPlain (c : Char) : Bool :=
  c.toNat < 0x80 && isQueryChar c && (c ≠ '%' && c ≠ '&' && c ≠ '+' && c ≠ '=')

example : ∀ n < 0x80, ((Char.ofNat n).isAlphanum || ['-', '.', '_', '*'].contains (Char.ofNat n)) =
    true → isPlain (Char.ofNat n) = true := by decide

/-- The texts that write a byte. -/
inductive WritesByte : UInt8 → List Char → Prop
  | plain {c : Char} (hc : isPlain c = true) : WritesByte (UInt8.ofNat c.toNat) [c]
  | space : WritesByte 32 ['+']
  /-- two digits of either case -/
  | escape {x y : Char} {hi lo : Nat} (hx : Bytes.hexValue? x = some hi)
      (hy : Bytes.hexValue? y = some lo) : WritesByte (UInt8.ofNat (16 * hi + lo)) ['%', x, y]

/-- The texts that write bytes, each in a way of its own. -/
inductive Writes : Bytes → List Char → Prop
  | nil : Writes [] []
  | cons {b : UInt8} {bs : Bytes} {cs ds : List Char} (hb : WritesByte b cs) (h : Writes bs ds) :
      Writes (b :: bs) (cs ++ ds)

/-- The texts that write a name and its value. -/
inductive WritesPair : String × String → List Char → Prop
  | mk {name value : String} {cs ds : List Char} (hname : Writes (ofString name) cs)
      (hvalue : Writes (ofString value) ds) : WritesPair (name, value) (cs ++ '=' :: ds)

/-- The queries that list names and values in order. More ampersands than one may stand
between two of them, and any number at both ends. -/
inductive Lists : List (String × String) → List Char → Prop
  | nil : Lists [] []
  | ampersand {ps : List (String × String)} {q : List Char} (h : Lists ps q) : Lists ps ('&' :: q)
  | last {p : String × String} {cs : List Char} (hp : WritesPair p cs) : Lists [p] cs
  | cons {p : String × String} {ps : List (String × String)} {cs q : List Char}
      (hp : WritesPair p cs) (h : Lists ps q) : Lists (p :: ps) (cs ++ '&' :: q)

/-- Whether a character may stand in what is written for a name or a value. -/
def isEncoded (c : Char) : Bool :=
  c.toNat < 0x80 && isQueryChar c && (c ≠ '&' && c ≠ '=')

variable {b : UInt8} {bs : Bytes} {cs q : List Char} {c x : Char} {n : Nat}
  {p : String × String} {ps : List (String × String)}

theorem ascii_of_isEncoded (h : isEncoded c = true) : c.toNat < 0x80 := by
  simp only [isEncoded, Bool.and_eq_true, decide_eq_true_eq] at h
  exact h.1.1

theorem ascii_of_isPlain (h : isPlain c = true) : c.toNat < 0x80 := by
  simp only [isPlain, Bool.and_eq_true, decide_eq_true_eq] at h
  exact h.1.1

theorem isEncoded_of_isPlain (h : isPlain c = true) : isEncoded c = true :=
  char_ascii (P := fun c => isPlain c = true → isEncoded c = true) (by decide)
    (ascii_of_isPlain h) h

theorem ascii_of_hexValue? (h : Bytes.hexValue? x = some n) : x.toNat < 0x80 := by
  have hle : ∀ d : Char, x ≤ d → x.toNat ≤ d.toNat := fun d hd => UInt32.le_iff_toNat_le.mp hd
  unfold Bytes.hexValue? at h
  split at h
  · next hx => exact Nat.lt_of_le_of_lt (hle _ hx.2) (by decide)
  split at h
  · next hx => exact Nat.lt_of_le_of_lt (hle _ hx.2) (by decide)
  split at h
  · next hx => exact Nat.lt_of_le_of_lt (hle _ hx.2) (by decide)
  · cases h

/-- A digit is none of the marks. -/
theorem isEncoded_of_hexValue? (h : Bytes.hexValue? x = some n) :
    isEncoded x = true ∧ x ≠ '+' :=
  char_ascii (P := fun x => (Bytes.hexValue? x).isSome = true → isEncoded x = true ∧ x ≠ '+')
    (by decide) (ascii_of_hexValue? h) (by rw [h]; rfl)

theorem isEncoded_of_writesByte (h : WritesByte b cs) : ∀ c ∈ cs, isEncoded c = true := by
  cases h with
  | plain hc =>
    rw [List.forall_mem_singleton]
    exact isEncoded_of_isPlain hc
  | space =>
    rw [List.forall_mem_singleton]
    decide
  | escape hx hy =>
    rw [List.forall_mem_cons, List.forall_mem_cons, List.forall_mem_singleton]
    exact ⟨by decide, (isEncoded_of_hexValue? hx).1, (isEncoded_of_hexValue? hy).1⟩

theorem isEncoded_of_writes (h : Writes bs cs) : ∀ c ∈ cs, isEncoded c = true := by
  induction h with
  | nil => exact nofun
  | cons hb _ ih =>
    rw [List.forall_mem_append]
    exact ⟨isEncoded_of_writesByte hb, ih⟩

theorem ascii_of_writes (h : Writes bs cs) : ∀ c ∈ cs, c.toNat < 0x80 := by
  intro c hc
  exact ascii_of_isEncoded (isEncoded_of_writes h c hc)

/-- The marks between names and values are not in them. -/
theorem mark_not_mem (h : Writes bs cs) {d : Char} (hd : isEncoded d = false) : d ∉ cs := by
  intro hm
  rw [isEncoded_of_writes h d hm] at hd
  cases hd

/-- Plain text writes itself. -/
theorem writes_plain (h : ∀ c ∈ cs, isPlain c = true) : Writes (encode cs) cs := by
  induction cs with
  | nil => exact .nil
  | cons c cs ih =>
    obtain ⟨hc, hcs⟩ := List.forall_mem_cons.mp h
    have hbytes : encode (c :: cs) = UInt8.ofNat c.toNat :: encode cs := by
      show encode ([c] ++ cs) = _
      rw [encode_append, encode_ascii (List.forall_mem_singleton.mpr (ascii_of_isPlain hc))]
      rfl
    rw [hbytes]
    exact .cons (.plain hc) (ih hcs)

-- ---------------------------------------------------------------------------
-- Decoding
-- ---------------------------------------------------------------------------

theorem percentDecode_cons (hb : b ≠ 37) (bs : Bytes) :
    percentDecode (b :: bs) = b :: percentDecode bs := by
  match bs with
  | [] => rfl
  | [_] => rfl
  | _ :: _ :: _ => rw [percentDecode, if_neg hb]

theorem asChar_ofNat (hc : c.toNat < 0x80) : asChar (UInt8.ofNat c.toNat) = c := by
  unfold asChar
  rw [toNat_ofNat_ascii hc, Char.ofNat_toNat]

/-- A byte of ASCII that is none of a character's is no other character's. -/
theorem ofNat_ne {d : Char} (hc : c.toNat < 0x80) (hd : d.toNat < 0x80) (hne : c ≠ d) :
    UInt8.ofNat c.toNat ≠ UInt8.ofNat d.toNat := by
  intro h
  have hnat := congrArg UInt8.toNat h
  rw [toNat_ofNat_ascii hc, toNat_ofNat_ascii hd] at hnat
  exact hne (Char.toNat_inj.mp hnat)

theorem plusToSpace_cons (hc : c.toNat < 0x80) (hne : c ≠ '+') (bs : Bytes) :
    plusToSpace (UInt8.ofNat c.toNat :: bs) = UInt8.ofNat c.toNat :: plusToSpace bs := by
  have hplus : UInt8.ofNat c.toNat ≠ 43 := ofNat_ne hc (d := '+') (by decide) hne
  unfold plusToSpace
  rw [List.map_cons, if_neg hplus]

/-- Whatever way a byte is written, it is read back. -/
theorem percentDecode_writesByte (h : WritesByte b cs) (rest : Bytes) :
    percentDecode (plusToSpace (encode cs ++ rest)) = b :: percentDecode (plusToSpace rest) := by
  rw [encode_ascii fun c hc => ascii_of_isEncoded (isEncoded_of_writesByte h c hc)]
  cases h with
  | @plain c hc =>
    have hascii := ascii_of_isPlain hc
    have hmarks := char_ascii (P := fun c => isPlain c = true → c ≠ '+' ∧ c ≠ '%') (by decide)
      hascii hc
    rw [List.map_singleton, List.singleton_append, plusToSpace_cons hascii hmarks.1,
      percentDecode_cons (ofNat_ne hascii (d := '%') (by decide) hmarks.2)]
  | space => exact percentDecode_cons (by decide) (plusToSpace rest)
  | @escape x y hi lo hx hy =>
    have hx' := ascii_of_hexValue? hx
    have hy' := ascii_of_hexValue? hy
    -- the digits are no plus signs, so that they are still there when the percent sign is read
    have hplus : plusToSpace (UInt8.ofNat '%'.toNat :: UInt8.ofNat x.toNat ::
        UInt8.ofNat y.toNat :: rest) =
        37 :: UInt8.ofNat x.toNat :: UInt8.ofNat y.toNat :: plusToSpace rest := by
      rw [plusToSpace_cons (by decide) (by decide),
        plusToSpace_cons hx' (isEncoded_of_hexValue? hx).2,
        plusToSpace_cons hy' (isEncoded_of_hexValue? hy).2]
      rfl
    rw [List.map_cons, List.map_cons, List.map_singleton, List.cons_append, List.cons_append,
      List.singleton_append, hplus, percentDecode, if_pos rfl, asChar_ofNat hx', asChar_ofNat hy',
      hx, hy]

theorem percentDecode_writes (h : Writes bs cs) : percentDecode (plusToSpace (encode cs)) = bs := by
  induction h with
  | nil => rfl
  | cons hb _ ih => rw [encode_append, percentDecode_writesByte hb, ih]

theorem component_of_writes {text : String} (h : Writes (ofString text) cs) :
    component (encode cs) = text := by
  unfold component
  rw [percentDecode_writes h]
  unfold ofString
  rw [decodeLossy_encode, String.ofList_toList]

-- ---------------------------------------------------------------------------
-- Queries
-- ---------------------------------------------------------------------------

/-- The bytes of a name and its value, with the equals sign between them. -/
theorem encode_pair (cs ds : List Char) : encode (cs ++ '=' :: ds) = encode cs ++ 61 :: encode ds := by
  rw [encode_append]
  rfl

theorem pair_of_writes (h : WritesPair p cs) : pair (encode cs) = p := by
  cases h with
  | mk hname hvalue =>
    have hequals : 61 ∉ encode _ := byte_not_mem_encode (ascii_of_writes hname) (d := '=')
      (by decide) (mark_not_mem hname (by decide))
    unfold pair
    rw [encode_pair, Text.cutOnce_append hequals]
    dsimp only
    rw [component_of_writes hname, component_of_writes hvalue]

theorem ampersand_not_mem (h : WritesPair p cs) : 38 ∉ encode cs := by
  cases h with
  | mk hname hvalue =>
    rw [encode_pair, List.mem_append, List.mem_cons, not_or, not_or]
    refine ⟨?_, by decide, ?_⟩
    · exact byte_not_mem_encode (ascii_of_writes hname) (d := '&') (by decide)
        (mark_not_mem hname (by decide))
    · exact byte_not_mem_encode (ascii_of_writes hvalue) (d := '&') (by decide)
        (mark_not_mem hvalue (by decide))

theorem pairs_append (as bs : Bytes) : pairs (as ++ 38 :: bs) = pairs as ++ pairs bs := by
  unfold pairs
  rw [Text.pieces_append, List.filter_append, List.map_append]

theorem pairs_of_writesPair (h : WritesPair p cs) : pairs (encode cs) = [p] := by
  -- the piece holds an equals sign, so that it is not empty
  have hsome : (encode cs).isEmpty = false := by
    cases h with
    | mk hname hvalue =>
      rw [encode_pair]
      cases encode _ <;> rfl
  unfold pairs
  rw [Text.pieces_of_not_mem (ampersand_not_mem h), List.filter_cons_of_pos (by rw [hsome]; rfl),
    List.filter_nil, List.map_singleton, pair_of_writes h]

/-- Whatever way names and values are written, they are read back in order. -/
theorem pairs_of_lists (h : Lists ps q) : pairs (encode q) = ps := by
  induction h with
  | nil => rfl
  | ampersand _ ih =>
    show pairs ([] ++ 38 :: encode _) = _
    rw [pairs_append, ih]
    rfl
  | last hp => exact pairs_of_writesPair hp
  | cons hp _ ih =>
    rw [encode_append]
    show pairs (encode _ ++ 38 :: encode _) = _
    rw [pairs_append, pairs_of_writesPair hp, ih]
    rfl

/-- All that is listed is written in characters of a query. -/
theorem isQueryChar_of_lists (h : Lists ps q) : ∀ c ∈ q, isQueryChar c = true := by
  have hencoded : ∀ {bs : Bytes} {cs : List Char}, Writes bs cs →
      ∀ c ∈ cs, isQueryChar c = true := by
    intro bs cs hcs c hc
    have hin := isEncoded_of_writes hcs c hc
    simp only [isEncoded, Bool.and_eq_true] at hin
    exact hin.1.2
  have hpair : ∀ {p : String × String} {cs : List Char}, WritesPair p cs →
      ∀ c ∈ cs, isQueryChar c = true := by
    rintro _ _ ⟨hname, hvalue⟩
    rw [List.forall_mem_append, List.forall_mem_cons]
    exact ⟨hencoded hname, by decide, hencoded hvalue⟩
  induction h with
  | nil => exact nofun
  | ampersand _ ih => exact List.forall_mem_cons.mpr ⟨by decide, ih⟩
  | last hp => exact hpair hp
  | cons hp _ ih =>
    rw [List.forall_mem_append, List.forall_mem_cons]
    exact ⟨hpair hp, by decide, ih⟩

section Plain

/-- The query of names and values that need no encoding. -/
def written (ps : List (List Char × List Char)) : List Char :=
  Text.glue ['&'] (ps.map fun p => p.1 ++ '=' :: p.2)

/-- Whether a name and its value stand for themselves in a form. -/
def Plain (p : List Char × List Char) : Prop :=
  (∀ c ∈ p.1, isPlain c = true) ∧ ∀ c ∈ p.2, isPlain c = true

theorem Plain.writes {p : List Char × List Char} (h : Plain p) :
    WritesPair (String.ofList p.1, String.ofList p.2) (p.1 ++ '=' :: p.2) := by
  have hself : ∀ {cs : List Char}, (∀ c ∈ cs, isPlain c = true) →
      Writes (ofString (String.ofList cs)) cs := by
    intro cs hcs
    unfold ofString
    rw [String.toList_ofList]
    exact writes_plain hcs
  exact .mk (hself h.1) (hself h.2)

theorem lists_written {ps : List (List Char × List Char)} (h : ∀ p ∈ ps, Plain p) :
    Lists (ps.map fun p => (String.ofList p.1, String.ofList p.2)) (written ps) := by
  induction ps with
  | nil => exact .nil
  | cons p ps ih =>
    obtain ⟨hp, hps⟩ := List.forall_mem_cons.mp h
    cases ps with
    | nil => exact .last hp.writes
    | cons p' ps =>
      have hglue : written (p :: p' :: ps) = (p.1 ++ '=' :: p.2) ++ '&' :: written (p' :: ps) :=
        List.append_assoc ..
      rw [hglue]
      exact .cons hp.writes (ih hps)

/-- Plain names and values are read back in order. -/
theorem pairs_written {ps : List (List Char × List Char)} (h : ∀ p ∈ ps, Plain p) :
    pairs (encode (written ps)) = ps.map fun p => (String.ofList p.1, String.ofList p.2) :=
  pairs_of_lists (lists_written h)

end Plain

end Form

-- ---------------------------------------------------------------------------
-- Parameters
-- ---------------------------------------------------------------------------

namespace Uri

variable {u : Uri} {name value : String}

/-- The names and values of a URI's query, decoded. -/
def pairs (u : Uri) : List (String × String) :=
  match u.query with
  | none => []
  | some q => Form.pairs (Utf8.ofString q)

/-- Whether a value is the first of a name. -/
def First (u : Uri) (name value : String) : Prop :=
  ∃ pre post, u.pairs = pre ++ (name, value) :: post ∧ ∀ p ∈ pre, p.1 ≠ name

theorem param_eq (u : Uri) (name : String) :
    u.param name = (u.pairs.find? fun p => p.1 = name).map (·.2) := by
  unfold param pairs
  cases u.query with
  | none => rfl
  | some q => rfl

/-- A parameter is the first value of its name. -/
theorem param_eq_some_iff : u.param name = some value ↔ u.First name value := by
  rw [param_eq, Option.map_eq_some_iff]
  simp only [List.find?_eq_some_iff_append, decide_eq_true_eq]
  constructor
  · rintro ⟨⟨name', value'⟩, ⟨rfl, pre, post, hpairs, hpre⟩, rfl⟩
    exact ⟨pre, post, hpairs, by simpa using hpre⟩
  · rintro ⟨pre, post, hpairs, hpre⟩
    exact ⟨(name, value), ⟨rfl, pre, post, hpairs, by simpa using hpre⟩, rfl⟩

end Uri

end Http

end WatchGate
