import WatchGate.Text.Utf8

/-!
# WatchGate — what is written in UTF-8 is read back

`Utf8.next` reads one character, or a malformed part. Its cases are those of the lead
byte, while `String.utf8EncodeChar` goes by the size of the character; `Announces` is
where the two meet. A lead byte holds the topmost bits, and narrows the second byte so
far that nothing else is announced: no character that a shorter form has, no surrogate
and none beyond the last.

Main results:

* `next_of_encode` — behind the first byte of a character this character is read.
* `decodeLossy_encode` — no text that is written in UTF-8 has a malformed part.
* `encode_of_next` — a character that is read was written there.
* `toString?_eq_some_iff` — bytes are read as a string exactly if they are its bytes.
-/

namespace WatchGate.Utf8

variable {cs : List Char} {c : Char}

-- ---------------------------------------------------------------------------
-- ASCII
-- ---------------------------------------------------------------------------

theorem toNat_ofNat_ascii (hc : c.toNat < 0x80) : (UInt8.ofNat c.toNat).toNat = c.toNat := by
  rw [UInt8.toNat_ofNat']
  omega

theorem utf8EncodeChar_ascii (hc : c.toNat < 0x80) :
    String.utf8EncodeChar c = [UInt8.ofNat c.toNat] := by
  have hsize : c.utf8Size = 1 := by
    rw [Char.utf8Size_eq_one_iff, UInt32.le_iff_toNat_le]
    exact Nat.le_of_lt_succ hc
  rw [String.utf8EncodeChar_eq_singleton hsize]
  rfl

/-- ASCII text takes one byte for each character. -/
theorem encode_ascii (h : ∀ c ∈ cs, c.toNat < 0x80) :
    encode cs = cs.map fun c => UInt8.ofNat c.toNat := by
  induction cs with
  | nil => rfl
  | cons c cs ih =>
    obtain ⟨hc, hcs⟩ := List.forall_mem_cons.mp h
    have hrest := ih hcs
    unfold encode at hrest ⊢
    rw [List.flatMap_cons, utf8EncodeChar_ascii hc, hrest]
    rfl

/-- A character that is not in an ASCII text has its byte not in the bytes. -/
theorem byte_not_mem_encode (h : ∀ c ∈ cs, c.toNat < 0x80) {d : Char} (hd : d.toNat < 0x80)
    (hmem : d ∉ cs) : UInt8.ofNat d.toNat ∉ encode cs := by
  rw [encode_ascii h]
  intro hb
  obtain ⟨c, hc, hcd⟩ := List.mem_map.mp hb
  have hnat := congrArg UInt8.toNat hcd
  rw [toNat_ofNat_ascii (h c hc), toNat_ofNat_ascii hd] at hnat
  exact hmem (Char.toNat_inj.mp hnat ▸ hc)

theorem encode_append (as bs : List Char) : encode (as ++ bs) = encode as ++ encode bs :=
  List.flatMap_append

-- ---------------------------------------------------------------------------
-- Lead bytes
-- ---------------------------------------------------------------------------

section Lead

variable {k m : Nat}

/-- A lead byte that holds the bits `k` and admits the bits `m` in the second byte. -/
structure Announces (b : UInt8) (k m more : Nat) (l : Lead) : Prop where
  lead : lead? b = some l
  beyond : 0x80 ≤ b.toNat
  bits : l.bits = k
  more : l.more = more
  lo : l.lo ≤ m + 0x80
  hi : m + 0x80 ≤ l.hi

theorem announces_two (hk : 2 ≤ k) (hk' : k < 32) (hm : m < 64) :
    ∃ l, Announces (UInt8.ofNat (k + 0xc0)) k m 0 l := by
  have hb : (UInt8.ofNat (k + 0xc0)).toNat = k + 0xc0 := by
    rw [UInt8.toNat_ofNat']
    omega
  refine ⟨⟨k, 0x80, 0xbf, 0⟩, ?_, by omega, rfl, rfl, ?_, ?_⟩
  · unfold lead?
    rw [hb]
    dsimp only
    rw [if_pos (by omega), Nat.add_sub_cancel]
  · show 0x80 ≤ m + 0x80
    omega
  · show m + 0x80 ≤ 0xbf
    omega

theorem announces_three (hk : k < 16) (hm : m < 64) (hlo : k = 0 → 32 ≤ m)
    (hhi : k = 13 → m < 32) : ∃ l, Announces (UInt8.ofNat (k + 0xe0)) k m 1 l := by
  have hb : (UInt8.ofNat (k + 0xe0)).toNat = k + 0xe0 := by
    rw [UInt8.toNat_ofNat']
    omega
  by_cases h0 : k = 0
  · -- what two bytes can hold is left to them
    subst h0
    refine ⟨_, rfl, by decide, rfl, rfl, ?_, ?_⟩
    · show 0xa0 ≤ m + 0x80
      omega
    · show m + 0x80 ≤ 0xbf
      omega
  by_cases h13 : k = 13
  · -- surrogates are left out
    subst h13
    refine ⟨_, rfl, by decide, rfl, rfl, ?_, ?_⟩
    · show 0x80 ≤ m + 0x80
      omega
    · show m + 0x80 ≤ 0x9f
      omega
  refine ⟨⟨k, 0x80, 0xbf, 1⟩, ?_, by omega, rfl, rfl, ?_, ?_⟩
  · unfold lead?
    rw [hb]
    dsimp only
    rw [if_neg (by omega), if_neg (by omega), if_neg (by omega), if_pos (by omega),
      Nat.add_sub_cancel]
  · show 0x80 ≤ m + 0x80
    omega
  · show m + 0x80 ≤ 0xbf
    omega

theorem announces_four (hk : k < 5) (hm : m < 64) (hlo : k = 0 → 16 ≤ m)
    (hhi : k = 4 → m < 16) : ∃ l, Announces (UInt8.ofNat (k + 0xf0)) k m 2 l := by
  have hb : (UInt8.ofNat (k + 0xf0)).toNat = k + 0xf0 := by
    rw [UInt8.toNat_ofNat']
    omega
  by_cases h0 : k = 0
  · subst h0
    refine ⟨_, rfl, by decide, rfl, rfl, ?_, ?_⟩
    · show 0x90 ≤ m + 0x80
      omega
    · show m + 0x80 ≤ 0xbf
      omega
  by_cases h4 : k = 4
  · -- there are no characters beyond 0x10ffff
    subst h4
    refine ⟨_, rfl, by decide, rfl, rfl, ?_, ?_⟩
    · show 0x80 ≤ m + 0x80
      omega
    · show m + 0x80 ≤ 0x8f
      omega
  refine ⟨⟨k, 0x80, 0xbf, 2⟩, ?_, by omega, rfl, rfl, ?_, ?_⟩
  · unfold lead?
    rw [hb]
    dsimp only
    rw [if_neg (by omega), if_neg (by omega), if_neg (by omega), if_neg (by omega),
      if_neg (by omega), if_pos (by omega), Nat.add_sub_cancel]
  · show 0x80 ≤ m + 0x80
    omega
  · show m + 0x80 ≤ 0xbf
    omega

end Lead

-- ---------------------------------------------------------------------------
-- Characters
-- ---------------------------------------------------------------------------

section Next

variable {n : Nat} {bs : Bytes}

theorem toNat_tail (n : Nat) : (UInt8.ofNat (n % 64 + 0x80)).toNat = n % 64 + 0x80 := by
  rw [UInt8.toNat_ofNat']
  omega

theorem continued_tail (acc k n : Nat) (bs : Bytes) :
    continued acc (k + 1) (UInt8.ofNat (n % 64 + 0x80) :: bs) =
      continued (acc * 64 + n % 64) k bs := by
  have hb := toNat_tail n
  rw [continued, if_pos (by omega), hb, Nat.add_sub_cancel]

theorem Announces.next {b : UInt8} {k more : Nat} {l : Lead} (h : Announces b k (n % 64) more l)
    {rest : Bytes} {whole : Nat}
    (hmore : continued (k * 64 + n % 64) more bs = (some whole, rest)) :
    next b (UInt8.ofNat (n % 64 + 0x80) :: bs) = (some (Char.ofNat whole), rest) := by
  have hc := toNat_tail n
  have hlo := h.lo
  have hhi := h.hi
  unfold Utf8.next
  rw [if_neg (Nat.not_lt.mpr h.beyond), h.lead]
  dsimp only
  rw [if_pos (by omega), hc, Nat.add_sub_cancel, h.bits, h.more, hmore]
  rfl

/-- Behind the first byte of a character this character is read. -/
theorem next_of_encode (c : Char) (rest : Bytes) :
    ∃ b bs, String.utf8EncodeChar c ++ rest = b :: bs ∧ next b bs = (some c, rest) := by
  have hvalid : c.toNat < 0xd800 ∨ 0xdfff < c.toNat ∧ c.toNat < 0x110000 := c.valid
  have hback : Char.ofNat c.toNat = c := Char.ofNat_toNat c
  generalize hn : c.toNat = n at hvalid hback
  have hval : c.val.toNat = n := hn
  unfold String.utf8EncodeChar
  simp only [hval]
  -- the cases are those of the character's size
  split
  · next h1 =>
    have hb : (UInt8.ofNat n).toNat = n := by
      rw [UInt8.toNat_ofNat']
      omega
    refine ⟨_, _, rfl, ?_⟩
    unfold next
    rw [hb, if_pos (by omega), hback]
    rfl
  split
  · next h1 h2 =>
    obtain ⟨l, hl⟩ := announces_two (k := n / 64 % 0x20) (m := n % 64) (by omega) (by omega)
      (by omega)
    have hmore : continued (n / 64 % 0x20 * 64 + n % 64) 0 rest = (some n, rest) := by
      rw [continued, show n / 64 % 0x20 * 64 + n % 64 = n by omega]
    exact ⟨_, _, rfl, (hl.next hmore).trans (by rw [hback])⟩
  split
  · next h1 h2 h3 =>
    obtain ⟨l, hl⟩ := announces_three (k := n / 4096 % 0x10) (m := n / 64 % 64) (by omega)
      (by omega) (by omega) (by omega)
    have hmore : continued (n / 4096 % 0x10 * 64 + n / 64 % 64) 1
        (UInt8.ofNat (n % 64 + 0x80) :: rest) = (some n, rest) := by
      rw [continued_tail, continued,
        show (n / 4096 % 0x10 * 64 + n / 64 % 64) * 64 + n % 64 = n by omega]
    exact ⟨_, _, rfl, (hl.next hmore).trans (by rw [hback])⟩
  · next h1 h2 h3 =>
    obtain ⟨l, hl⟩ := announces_four (k := n / 262144 % 0x08) (m := n / 4096 % 64) (by omega)
      (by omega) (by omega) (by omega)
    have hmore : continued (n / 262144 % 0x08 * 64 + n / 4096 % 64) 2
        (UInt8.ofNat (n / 64 % 64 + 0x80) :: UInt8.ofNat (n % 64 + 0x80) :: rest) =
        (some n, rest) := by
      rw [continued_tail, continued_tail, continued,
        show ((n / 262144 % 0x08 * 64 + n / 4096 % 64) * 64 + n / 64 % 64) * 64 + n % 64 = n by
          omega]
    exact ⟨_, _, rfl, (hl.next hmore).trans (by rw [hback])⟩

end Next

-- ---------------------------------------------------------------------------
-- Texts
-- ---------------------------------------------------------------------------

theorem parts_encode (cs : List Char) : parts (encode cs) = cs.map some := by
  induction cs with
  | nil => simp [encode, parts]
  | cons c cs ih =>
    have hbytes : encode (c :: cs) = String.utf8EncodeChar c ++ encode cs := List.flatMap_cons
    obtain ⟨b, bs, hb, hnext⟩ := next_of_encode c (encode cs)
    rw [hbytes, hb, parts, hnext, ih]
    rfl

/-- No text that is written in UTF-8 has a malformed part. -/
theorem decodeLossy_encode (cs : List Char) : decodeLossy (encode cs) = cs := by
  unfold decodeLossy
  rw [parts_encode, List.map_map]
  exact List.map_id cs

-- ---------------------------------------------------------------------------
-- What is read was written
-- ---------------------------------------------------------------------------

section Read

variable {b : UInt8} {bs rest : Bytes} {acc k n : Nat} {l : Lead}

theorem ofNat_eq_byte (h : n = b.toNat) : UInt8.ofNat n = b := by
  rw [h]
  exact UInt8.ofNat_toNat

theorem toNat_val_ofNat (h : n.isValidChar) : (Char.ofNat n).val.toNat = n := by
  unfold Char.ofNat
  rw [dif_pos h]
  rfl

/-- What a lead byte can announce: one, two or three bytes behind it, of which the
second is as narrow as it has to be. -/
theorem lead?_cases (h : lead? b = some l) : 0x80 ≤ l.lo ∧ l.hi ≤ 0xbf ∧
    (l.more = 0 ∧ b.toNat = l.bits + 0xc0 ∧ 2 ≤ l.bits ∧ l.bits < 32 ∨
      l.more = 1 ∧ b.toNat = l.bits + 0xe0 ∧ l.bits < 16 ∧ (l.bits = 0 → 0xa0 ≤ l.lo) ∧
        (l.bits = 13 → l.hi ≤ 0x9f) ∨
      l.more = 2 ∧ b.toNat = l.bits + 0xf0 ∧ l.bits < 5 ∧ (l.bits = 0 → 0x90 ≤ l.lo) ∧
        (l.bits = 4 → l.hi ≤ 0x8f)) := by
  unfold lead? at h
  dsimp only at h
  -- one case for each range of lead bytes
  repeat' split at h
  case isFalse.isFalse.isFalse.isFalse.isFalse.isFalse.isFalse => cases h
  all_goals
    rw [Option.some.injEq] at h
    subst h
    dsimp only
    omega

theorem continued_succ_eq (h : continued acc (k + 1) bs = (some n, rest)) :
    ∃ c bs', bs = c :: bs' ∧ 0x80 ≤ c.toNat ∧ c.toNat ≤ 0xbf ∧
      continued (acc * 64 + (c.toNat - 0x80)) k bs' = (some n, rest) := by
  cases bs with
  | nil => cases h
  | cons c bs' =>
    unfold continued at h
    split at h
    · next hc => exact ⟨c, bs', rfl, hc.1, hc.2, h⟩
    · cases h

theorem utf8EncodeChar_two {k : Nat} {b c2 : UInt8} (hb : b.toNat = k + 0xc0) (hlo : 2 ≤ k)
    (hhi : k < 32) (h2 : 0x80 ≤ c2.toNat ∧ c2.toNat ≤ 0xbf) :
    String.utf8EncodeChar (Char.ofNat (k * 64 + (c2.toNat - 0x80))) = [b, c2] := by
  have hval := toNat_val_ofNat (n := k * 64 + (c2.toNat - 0x80)) (.inl (by omega))
  unfold String.utf8EncodeChar
  simp only [hval]
  rw [if_neg (by omega), if_pos (by omega)]
  rw [ofNat_eq_byte (b := b) (by omega), ofNat_eq_byte (b := c2) (by omega)]

theorem utf8EncodeChar_three {k : Nat} {b c2 c3 : UInt8} (hb : b.toNat = k + 0xe0) (hk : k < 16)
    (h2 : 0x80 ≤ c2.toNat ∧ c2.toNat ≤ 0xbf) (h3 : 0x80 ≤ c3.toNat ∧ c3.toNat ≤ 0xbf)
    (hlo : k = 0 → 0xa0 ≤ c2.toNat) (hhi : k = 13 → c2.toNat ≤ 0x9f) :
    String.utf8EncodeChar
      (Char.ofNat ((k * 64 + (c2.toNat - 0x80)) * 64 + (c3.toNat - 0x80))) = [b, c2, c3] := by
  have hval := toNat_val_ofNat
    (n := (k * 64 + (c2.toNat - 0x80)) * 64 + (c3.toNat - 0x80)) (by unfold Nat.isValidChar; omega)
  unfold String.utf8EncodeChar
  simp only [hval]
  rw [if_neg (by omega), if_neg (by omega), if_pos (by omega)]
  rw [ofNat_eq_byte (b := b) (by omega), ofNat_eq_byte (b := c2) (by omega),
    ofNat_eq_byte (b := c3) (by omega)]

theorem utf8EncodeChar_four {k : Nat} {b c2 c3 c4 : UInt8} (hb : b.toNat = k + 0xf0) (hk : k < 5)
    (h2 : 0x80 ≤ c2.toNat ∧ c2.toNat ≤ 0xbf) (h3 : 0x80 ≤ c3.toNat ∧ c3.toNat ≤ 0xbf)
    (h4 : 0x80 ≤ c4.toNat ∧ c4.toNat ≤ 0xbf)
    (hlo : k = 0 → 0x90 ≤ c2.toNat) (hhi : k = 4 → c2.toNat ≤ 0x8f) :
    String.utf8EncodeChar (Char.ofNat
      (((k * 64 + (c2.toNat - 0x80)) * 64 + (c3.toNat - 0x80)) * 64 + (c4.toNat - 0x80))) =
      [b, c2, c3, c4] := by
  have hval := toNat_val_ofNat
    (n := ((k * 64 + (c2.toNat - 0x80)) * 64 + (c3.toNat - 0x80)) * 64 + (c4.toNat - 0x80))
    (by unfold Nat.isValidChar; omega)
  unfold String.utf8EncodeChar
  simp only [hval]
  rw [if_neg (by omega), if_neg (by omega), if_neg (by omega)]
  rw [ofNat_eq_byte (b := b) (by omega), ofNat_eq_byte (b := c2) (by omega),
    ofNat_eq_byte (b := c3) (by omega), ofNat_eq_byte (b := c4) (by omega)]

/-- A character that is read behind a first byte is the one that is written there. -/
theorem encode_of_next {c : Char} (h : next b bs = (some c, rest)) :
    b :: bs = String.utf8EncodeChar c ++ rest := by
  unfold next at h
  split at h
  · next hb =>
    obtain ⟨hc, rfl⟩ := Prod.mk.inj h
    obtain rfl := Option.some.inj hc
    have hval : (Char.ofNat b.toNat).toNat = b.toNat := toNat_val_ofNat (.inl (by omega))
    rw [utf8EncodeChar_ascii (Nat.lt_of_le_of_lt (Nat.le_of_eq hval) hb), ofNat_eq_byte hval]
    rfl
  split at h
  case h_2 => cases h
  case h_1 hb _ _ l c2 bs' hl =>
  split at h
  case isFalse => cases h
  case isTrue hc2 =>
  obtain ⟨hlo, hhi, hlead⟩ := lead?_cases hl
  dsimp only at h
  obtain ⟨hn, hrest⟩ := Prod.mk.inj h
  obtain ⟨n, hsome, rfl⟩ := Option.map_eq_some_iff.mp hn
  have hcont : continued (l.bits * 64 + (c2.toNat - 0x80)) l.more bs' = (some n, rest) := by
    rw [← hsome, ← hrest]
  -- the cases are those of how many bytes come behind the second
  rcases hlead with ⟨hmore, hbits, hk⟩ | ⟨hmore, hbits, hk⟩ | ⟨hmore, hbits, hk⟩ <;>
    rw [hmore] at hcont
  · obtain ⟨hvalue, rfl⟩ := Prod.mk.inj hcont
    obtain rfl := Option.some.inj hvalue
    rw [utf8EncodeChar_two hbits (by omega) (by omega) (by omega)]
    rfl
  · obtain ⟨c3, bs3, rfl, hlo3, hhi3, hcont⟩ := continued_succ_eq hcont
    obtain ⟨hvalue, rfl⟩ := Prod.mk.inj hcont
    obtain rfl := Option.some.inj hvalue
    rw [utf8EncodeChar_three hbits (by omega) (by omega) ⟨hlo3, hhi3⟩ (by omega) (by omega)]
    rfl
  · obtain ⟨c3, bs3, rfl, hlo3, hhi3, hcont⟩ := continued_succ_eq hcont
    obtain ⟨c4, bs4, rfl, hlo4, hhi4, hcont⟩ := continued_succ_eq hcont
    obtain ⟨hvalue, rfl⟩ := Prod.mk.inj hcont
    obtain rfl := Option.some.inj hvalue
    rw [utf8EncodeChar_four hbits (by omega) (by omega) ⟨hlo3, hhi3⟩ ⟨hlo4, hhi4⟩ (by omega)
      (by omega)]
    rfl

end Read

/-- Bytes without a malformed part are those of the characters that are read. -/
theorem eq_encode_of_parts {bs : Bytes} (h : parts bs = cs.map some) : bs = encode cs := by
  induction cs generalizing bs with
  | nil =>
    cases bs with
    | nil => rfl
    | cons b bs => simp [parts] at h
  | cons c cs ih =>
    cases bs with
    | nil => simp [parts] at h
    | cons b bs =>
      rcases hnext : next b bs with ⟨x, rest⟩
      rw [parts, hnext, List.map_cons] at h
      dsimp only at h
      obtain ⟨rfl, hrest⟩ := List.cons.inj h
      rw [encode_of_next hnext, ih hrest]
      exact List.flatMap_cons.symm

theorem mapM_id_eq_some_iff {xs : List (Option Char)} :
    xs.mapM id = some cs ↔ xs = cs.map some := by
  induction xs generalizing cs with
  | nil => cases cs <;> simp
  | cons x xs ih =>
    rw [List.mapM_cons, Option.bind_eq_bind, Option.bind_eq_some_iff]
    constructor
    · rintro ⟨c, rfl, h⟩
      obtain ⟨ds, hds, h⟩ := Option.bind_eq_some_iff.mp h
      cases h
      rw [ih.mp hds]
      rfl
    · intro h
      cases cs with
      | nil => cases h
      | cons c cs =>
        obtain ⟨rfl, hxs⟩ := List.cons.inj h
        refine ⟨c, rfl, ?_⟩
        rw [ih.mpr hxs]
        rfl

/-- Bytes are read as characters exactly if they are what the characters are written as. -/
theorem decode?_eq_some_iff {bs : Bytes} : decode? bs = some cs ↔ bs = encode cs := by
  unfold decode?
  rw [mapM_id_eq_some_iff]
  constructor
  · exact eq_encode_of_parts
  · rintro rfl
    exact parts_encode cs

theorem toUTF8_eq (s : String) : s.toUTF8 = (encode s.toList).toByteArray :=
  String.utf8Encode_toList.symm

/-- A string is written as the bytes that it has. -/
theorem ofString_eq (s : String) : ofString s = s.toUTF8.data.toList := by
  rw [toUTF8_eq]
  simp [ofString]

/-- Bytes are read as a string exactly if they are the string's bytes. -/
theorem toString?_eq_some_iff {bs : Bytes} {s : String} :
    toString? bs = some s ↔ s.toUTF8 = bs.toByteArray := by
  rw [toUTF8_eq, List.toByteArray_inj]
  unfold toString?
  rw [Option.map_eq_some_iff]
  constructor
  · rintro ⟨cs, hcs, rfl⟩
    rw [String.toList_ofList]
    exact (decode?_eq_some_iff.mp hcs).symm
  · intro h
    exact ⟨s.toList, decode?_eq_some_iff.mpr h.symm, String.ofList_toList⟩

end WatchGate.Utf8
