import WatchGate.Multiwatch.Forwarding
import WatchGate.Proofs.Backend
import WatchGate.Proofs.Ends

/-!
# WatchGate — the addresses that a request came through

A feed is told the addresses behind which a client stands: those that text values of
the request list, and behind them the client's own. The chain is put together as
text and has to be the value of a header, which not every text can be. That it always
is rests on two facts: a value that counts is text already (`Header.isTextChar_of_text?`),
and an address is printed in digits, points and colons (`Ip.isAddressChar_of_mem_chars`).
The second fact also keeps the client's address in one piece, since it holds no comma.

`Text.elements` cuts a value at its commas. Joining values with commas joins what they
list (`Text.elements_glue`), whatever the values hold themselves.

Main result: `hops_end_in_client`.
-/

namespace WatchGate

open Http

-- ---------------------------------------------------------------------------
-- Elements of a value
-- ---------------------------------------------------------------------------

namespace Text

variable {cs : List Char} {c : Char}

theorem mem_of_mem_glue {α : Type} {sep : List α} {ps : List (List α)} {x : α}
    (h : x ∈ glue sep ps) : x ∈ sep ∨ ∃ p ∈ ps, x ∈ p := by
  induction ps with
  | nil => cases h
  | cons p ps ih =>
    cases ps with
    | nil => exact .inr ⟨p, List.mem_cons_self, h⟩
    | cons q qs =>
      rcases List.mem_append.mp h with h | h
      · rcases List.mem_append.mp h with h | h
        · exact .inr ⟨p, List.mem_cons_self, h⟩
        · exact .inl h
      · rcases ih h with hsep | ⟨r, hr, hx⟩
        · exact .inl hsep
        · exact .inr ⟨r, List.mem_cons_of_mem _ hr, hx⟩

theorem mem_glue_of_mem {α : Type} {sep p : List α} {ps : List (List α)} {x : α} (hp : p ∈ ps)
    (hx : x ∈ p) : x ∈ glue sep ps := by
  induction ps with
  | nil => cases hp
  | cons q ps ih =>
    cases ps with
    | nil =>
      obtain rfl := List.mem_singleton.mp hp
      exact hx
    | cons r rs =>
      show x ∈ q ++ sep ++ glue sep (r :: rs)
      rcases List.mem_cons.mp hp with rfl | hp
      · exact List.mem_append_left _ (List.mem_append_left _ hx)
      · exact List.mem_append_right _ (ih hp)

/-- What a value lists: the pieces between its commas, without the blanks around them. -/
def elements (cs : List Char) : List (List Char) := (pieces ',' cs).map trim

theorem elements_append (as bs : List Char) :
    elements (as ++ ',' :: bs) = elements as ++ elements bs := by
  unfold elements
  rw [pieces_append, List.map_append]

/-- A blank in front belongs to the first element, which is listed without it. -/
theorem elements_blank (cs : List Char) : elements (' ' :: cs) = elements cs := by
  have htrim : ∀ p, trim (' ' :: p) = trim p := fun p => rfl
  unfold elements
  -- a cut leaves one piece at least, and the blank is its first character
  cases hp : pieces ',' cs with
  | nil => exact absurd hp (pieces_ne_nil ',' cs)
  | cons p ps => simp [pieces, hp, htrim]

/-- Values that are joined list what each of them lists. -/
theorem elements_glue {ps : List (List Char)} (hne : ps ≠ []) :
    elements (glue [',', ' '] ps) = ps.flatMap elements := by
  induction ps with
  | nil => exact absurd rfl hne
  | cons p ps ih =>
    cases ps with
    | nil => simp [glue]
    | cons q qs =>
      have hrest := ih (List.cons_ne_nil q qs)
      have hglue : glue [',', ' '] (p :: q :: qs) = p ++ ',' :: ' ' :: glue [',', ' '] (q :: qs) :=
        List.append_assoc ..
      rw [hglue, elements_append, elements_blank, hrest]
      rfl

/-- A text without commas and blanks lists itself. -/
theorem elements_eq_singleton (hcomma : ',' ∉ cs) (hblank : ∀ c ∈ cs, isBlank c = false) :
    elements cs = [cs] := by
  have hself : trim cs = cs := by
    refine stripBoth_eq_self (fun c hc => ?_) fun c hc => ?_
    · exact hblank c (List.mem_of_mem_head? hc)
    · exact hblank c (List.mem_of_mem_getLast? hc)
  unfold elements
  rw [pieces_of_not_mem hcomma, List.map_singleton, hself]

end Text

namespace Http

-- ---------------------------------------------------------------------------
-- Values that are text
-- ---------------------------------------------------------------------------

namespace Header

variable {bs : Bytes} {cs : List Char} {c : Char}

/-- Whether a character may stand in a value that is text. -/
def isTextChar (c : Char) : Bool :=
  (0x20 ≤ c.toNat && c.toNat < 0x7f) || c.toNat = 9

theorem ascii_of_isTextChar (h : isTextChar c = true) : c.toNat < 0x80 := by
  simp only [isTextChar, Bool.or_eq_true, Bool.and_eq_true, decide_eq_true_eq] at h
  omega

theorem isTextByte_ofNat (h : isTextChar c = true) : isTextByte (UInt8.ofNat c.toNat) = true := by
  unfold isTextByte
  rw [Utf8.toNat_ofNat_ascii (ascii_of_isTextChar h)]
  exact h

theorem isValue_of_isTextByte (h : ∀ b ∈ bs, isTextByte b = true) : isValue bs = true := by
  refine List.all_eq_true.mpr fun b hb => ?_
  have htext := h b hb
  simp only [isTextByte, Bool.or_eq_true, Bool.and_eq_true, decide_eq_true_eq] at htext ⊢
  omega

theorem isTextChar_of_text? (h : text? bs = some cs) : ∀ c ∈ cs, isTextChar c = true := by
  unfold text? at h
  split at h
  · next hall =>
    cases h
    intro c hc
    obtain ⟨b, hb, rfl⟩ := List.mem_map.mp hc
    have htext : isTextByte b = true := List.all_eq_true.mp hall b hb
    have hlt : b.toNat < 0x7f := by
      simp only [isTextByte, Bool.or_eq_true, Bool.and_eq_true, decide_eq_true_eq] at htext
      omega
    have hcode : ∀ n < 0x7f, (Char.ofNat n).toNat = n := by decide
    unfold isTextChar
    rw [hcode b.toNat hlt]
    exact htext
  · cases h

/-- Text is written as a value, and is the text of this value. -/
theorem text?_encode (h : ∀ c ∈ cs, isTextChar c = true) :
    isValue (Utf8.encode cs) = true ∧ text? (Utf8.encode cs) = some cs := by
  have hascii : ∀ c ∈ cs, c.toNat < 0x80 := fun c hc => ascii_of_isTextChar (h c hc)
  have hbytes : ∀ b ∈ Utf8.encode cs, isTextByte b = true := by
    rw [Utf8.encode_ascii hascii]
    intro b hb
    obtain ⟨c, hc, rfl⟩ := List.mem_map.mp hb
    exact isTextByte_ofNat (h c hc)
  have hback : (Utf8.encode cs).map (fun b => Char.ofNat b.toNat) = cs := by
    rw [Utf8.encode_ascii hascii, List.map_map]
    refine (List.map_congr_left fun c hc => ?_).trans (List.map_id cs)
    show Char.ofNat (UInt8.ofNat c.toNat).toNat = c
    rw [Utf8.toNat_ofNat_ascii (hascii c hc), Char.ofNat_toNat]
  refine ⟨isValue_of_isTextByte hbytes, ?_⟩
  unfold text?
  rw [if_pos (List.all_eq_true.mpr hbytes), hback]

end Header

-- ---------------------------------------------------------------------------
-- Printed addresses
-- ---------------------------------------------------------------------------

namespace Ip

variable {c : Char} {gs : List Nat} {n : Nat}

/-- The characters of a printed address. -/
def isAddressChar (c : Char) : Bool :=
  c.isDigit || between 'a' 'f' c || c = '.' || c = ':'

theorem isAddressChar_of_mem_digits (h : c ∈ Text.digits n) : isAddressChar c = true := by
  simp [isAddressChar, Text.isDigit_of_mem_digits h]

theorem isAddressChar_of_mem_hexDigits (h : c ∈ Bytes.hexDigits n) : isAddressChar c = true := by
  have hdigit : ∀ d < 16, isAddressChar (Bytes.hexDigit d) = true := by decide
  induction n using Nat.strongRecOn with
  | _ n ih =>
    unfold Bytes.hexDigits at h
    split at h
    · next hn =>
      rw [List.mem_singleton.mp h]
      exact hdigit n hn
    · rcases List.mem_append.mp h with h | h
      · exact ih (n / 16) (by omega) h
      · rw [List.mem_singleton.mp h]
        exact hdigit (n % 16) (Nat.mod_lt n (by decide))

theorem isAddressChar_of_mem_dotted {a b d e : Nat} (h : c ∈ dotted a b d e) :
    isAddressChar c = true := by
  have hpoint : isAddressChar '.' = true := by decide
  simp only [dotted, List.mem_append, List.mem_cons] at h
  rcases h with ((h | rfl | h) | rfl | h) | rfl | h
  all_goals first | exact hpoint | exact isAddressChar_of_mem_digits h

theorem isAddressChar_of_mem_colons (h : c ∈ colons gs) : isAddressChar c = true := by
  induction gs with
  | nil => cases h
  | cons g gs ih =>
    cases gs with
    | nil =>
      have hone : colons [g] = Bytes.hexDigits g := List.append_nil _
      exact isAddressChar_of_mem_hexDigits (hone ▸ h)
    | cons g' gs =>
      have hmore : colons (g :: g' :: gs) = Bytes.hexDigits g ++ ':' :: colons (g' :: gs) := rfl
      rw [hmore] at h
      rcases List.mem_append.mp h with h | h
      · exact isAddressChar_of_mem_hexDigits h
      · rcases List.mem_cons.mp h with rfl | h
        · decide
        · exact ih h

theorem isAddressChar_of_mem_groups (h : c ∈ groups gs) : isAddressChar c = true := by
  have hcolon : ∀ d ∈ [':', ':'], isAddressChar d = true := List.all_eq_true.mp (by decide)
  unfold groups at h
  simp only at h
  split at h
  · exact isAddressChar_of_mem_colons h
  · rcases List.mem_append.mp h with h | h
    · rcases List.mem_append.mp h with h | h
      · exact isAddressChar_of_mem_colons h
      · exact hcolon c h
    · exact isAddressChar_of_mem_colons h

/-- An address is printed in digits, points and colons. -/
theorem isAddressChar_of_mem_chars {ip : Ip} (h : c ∈ ip.chars) : isAddressChar c = true := by
  have hcolon : isAddressChar ':' = true := by decide
  cases ip with
  | v4 => exact isAddressChar_of_mem_dotted h
  | v6 =>
    simp only [chars] at h
    split at h
    · simp only [List.cons_append, List.mem_cons, List.mem_append] at h
      rcases h with rfl | rfl | h | rfl | h
      · exact hcolon
      · exact hcolon
      · exact isAddressChar_of_mem_colons h
      · exact hcolon
      · exact isAddressChar_of_mem_dotted h
    · exact isAddressChar_of_mem_groups h

/-- Such a character is text, and is neither a comma nor a blank. -/
theorem plain_of_isAddressChar (h : isAddressChar c = true) :
    Header.isTextChar c = true ∧ c ≠ ',' ∧ Text.isBlank c = false := by
  have hascii : c.toNat < 0x80 := by
    simp only [isAddressChar, between, Bool.or_eq_true, Bool.and_eq_true, decide_eq_true_eq] at h
    rcases h with ((h | ⟨-, h⟩) | rfl) | rfl
    · exact Text.ascii_of_isDigit h
    · exact Nat.lt_of_le_of_lt (UInt32.le_iff_toNat_le.mp h) (by decide)
    · decide
    · decide
  exact char_ascii (P := fun c => isAddressChar c = true →
    Header.isTextChar c = true ∧ c ≠ ',' ∧ Text.isBlank c = false) (by decide) hascii h

theorem elements_chars (ip : Ip) : Text.elements ip.chars = [ip.chars] := by
  have hplain : ∀ c ∈ ip.chars, c ≠ ',' ∧ Text.isBlank c = false := fun c hc =>
    (plain_of_isAddressChar (isAddressChar_of_mem_chars hc)).2
  refine Text.elements_eq_singleton ?_ fun c hc => (hplain c hc).2
  exact fun hc => (hplain ',' hc).1 rfl

end Ip

end Http

-- ---------------------------------------------------------------------------
-- The chain
-- ---------------------------------------------------------------------------

namespace Multiwatch

variable {h : Headers} {client : Ip}

/-- The chain is text, whatever the request holds. -/
theorem isTextChar_forwardedFor (h : Headers) (client : Ip) :
    ∀ c ∈ forwardedFor h client, Header.isTextChar c = true := by
  intro c hc
  rcases Text.mem_of_mem_glue hc with hc | ⟨p, hp, hc⟩
  · have hmark : ∀ c ∈ [',', ' '], Header.isTextChar c = true := List.all_eq_true.mp (by decide)
    exact hmark c hc
  · rcases List.mem_append.mp hp with hp | hp
    · obtain ⟨v, -, hv⟩ := List.mem_filterMap.mp hp
      exact Header.isTextChar_of_text? hv c hc
    · rw [List.mem_singleton.mp hp] at hc
      exact (Ip.plain_of_isAddressChar (Ip.isAddressChar_of_mem_chars hc)).1

theorem encode_forwardedFor (h : Headers) (client : Ip) :
    Utf8.encode (forwardedFor h client) = asciiBytes (forwardedFor h client) :=
  Utf8.encode_ascii fun c hc => Header.ascii_of_isTextChar (isTextChar_forwardedFor h client c hc)

/-- The chain can always be told. -/
theorem hops_eq (h : Headers) (client : Ip) :
    hops h client = [⟨"x-forwarded-for", asciiBytes (forwardedFor h client)⟩] := by
  have hvalue := (Header.text?_encode (isTextChar_forwardedFor h client)).1
  rw [encode_forwardedFor] at hvalue
  unfold hops
  simp only [encode_forwardedFor, hvalue, if_true]

/--
**The chain of addresses ends in the client.** Whatever values a request has under the
name, text or not, and whatever address it comes from: a feed is told one value, which
is text. Cut at its commas it lists what the text values list, in their order, and the
client's own address behind it.
-/
theorem hops_end_in_client (h : Headers) (client : Ip) (proto : Bytes) :
    ∃ v cs, (forward h client proto).all "x-forwarded-for" = [v] ∧ Header.text? v = some cs ∧
      Text.elements cs =
        ((h.all "x-forwarded-for").filterMap Header.text?).flatMap Text.elements ++
          [client.chars] := by
  have htext := isTextChar_forwardedFor h client
  refine ⟨Utf8.encode (forwardedFor h client), forwardedFor h client, ?_,
    (Header.text?_encode htext).2, ?_⟩
  · unfold forward
    simp only [hops_eq, encode_forwardedFor, Headers.all_of_append, Headers.all_of_block,
      Headers.all_of_single]
    simp
  · have hne : h.texts "x-forwarded-for" ++ [client.chars] ≠ [] := List.concat_ne_nil _ _
    calc Text.elements (forwardedFor h client)
        = (h.texts "x-forwarded-for" ++ [client.chars]).flatMap Text.elements :=
          Text.elements_glue hne
      _ = (h.texts "x-forwarded-for").flatMap Text.elements ++ Text.elements client.chars := by
          rw [List.flatMap_append, List.flatMap_singleton]
      _ = (h.texts "x-forwarded-for").flatMap Text.elements ++ [client.chars] := by
          rw [Ip.elements_chars]

/-- A value that is no text does not count, and an empty one lists nothing but an empty element. -/
example :
    (forward ⟨[⟨"x-forwarded-for", Bytes.ofAscii "192.0.2.1,10.0.0.1"⟩, ⟨"x-forwarded-for", [0xff]⟩,
        ⟨"x-forwarded-for", []⟩]⟩ (.v6 0 0 0 0 0 0 0 1) []).all "x-forwarded-for" =
      [Bytes.ofAscii "192.0.2.1,10.0.0.1, , ::1"] := by
  decide +kernel

end Multiwatch

end WatchGate
