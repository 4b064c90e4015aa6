import WatchGate.Multiwatch.Upgrade
import WatchGate.Proofs.Elements

/-!
# WatchGate — which requests are upgraded

Four names are looked at, in four ways: of one, the items that all texts among its
values list; of another, the first value, if it is text; of the third, the first value
byte by byte; and the first value of the fourth is the key, whatever it is. What a
request lists under the first name counts by whether one of its items asks for the
upgrade (`any_asksUpgrade_iff`), so that their order does not matter, nor where the list is broken
into values, nor how an item is spaced or spelt.

Main results:

* `clientKey?_eq_some_iff` — which requests have a key.
* `upgrade_detected` — what the answer does not depend on.
-/

namespace WatchGate.Multiwatch

open Http Text

-- ---------------------------------------------------------------------------
-- Items
-- ---------------------------------------------------------------------------

/-- Whether an item is a word, in any case and with any blanks around it. -/
def Spells (word : String) (item : List Char) : Prop := lower (trim item) = word.toList

/-- Two items that differ in the case of letters, and in the spaces and tabs around them. -/
inductive Respelt : List Char → List Char → Prop
  | mk {core core' l r l' r' : List Char} (hl : Spacing l) (hr : Spacing r) (hl' : Spacing l')
      (hr' : Spacing r') (hcase : lower core = lower core') :
      Respelt (l ++ core ++ r) (l' ++ core' ++ r')

/-- The items that the texts among the values of `connection` list. -/
def connectionItems (h : Headers) : List (List Char) := (h.texts "connection").flatMap (pieces ',')

/-- What a request has to say besides its key. -/
structure AsksForWebSocket (h : Headers) : Prop where
  connection : ∃ item ∈ connectionItems h, Spells "upgrade" item
  upgrade : ∃ cs, (h.get? "upgrade").bind Header.text? = some cs ∧ Spells "websocket" cs
  version : h.get? "sec-websocket-version" = some (Bytes.ofAscii "13")

/-- The names of which the first value counts. -/
def firstNames : List String := ["upgrade", "sec-websocket-version", "sec-websocket-key"]

/-- Headers with the same first values, whatever they say about the connection. -/
def SameFirst (h h' : Headers) : Prop := ∀ name ∈ firstNames, h'.get? name = h.get? name

variable {h h' : Headers} {key : Bytes} {item item' : List Char} {w : String}

instance (word : String) (item : List Char) : Decidable (Spells word item) :=
  inferInstanceAs (Decidable (lower (trim item) = word.toList))

theorem Respelt.spells_iff (hi : Respelt item item') : Spells w item' ↔ Spells w item := by
  cases hi with
  | mk hl hr hl' hr' hcase =>
    unfold Spells
    rw [trim_blanks hl.isBlank hr.isBlank, trim_blanks hl'.isBlank hr'.isBlank, lower_trim,
      lower_trim, hcase]

theorem eqIgnoringCase_trim_iff (hw : lower w.toList = w.toList) :
    eqIgnoringCase (trim item) w.toList = true ↔ Spells w item := by
  rw [eqIgnoringCase_iff, hw]
  rfl

/-- Where the list is broken into values does not matter. -/
theorem any_asksUpgrade_iff (h : Headers) : (h.texts "connection").any asksUpgrade = true ↔
    ∃ item ∈ connectionItems h, Spells "upgrade" item := by
  simp only [List.any_eq_true, asksUpgrade, eqIgnoringCase_trim_iff (w := "upgrade") (by decide),
    connectionItems, List.mem_flatMap]
  constructor
  · rintro ⟨cs, hcs, item, hitem, hspells⟩
    exact ⟨item, ⟨cs, hcs, hitem⟩, hspells⟩
  · rintro ⟨item, ⟨cs, hcs, hitem⟩, hspells⟩
    exact ⟨cs, hcs, item, hitem, hspells⟩

-- ---------------------------------------------------------------------------
-- Keys
-- ---------------------------------------------------------------------------

theorem clientKey?_eq_some_iff : clientKey? h = some key ↔
    AsksForWebSocket h ∧ h.get? "sec-websocket-key" = some key := by
  have hupgrade : ((h.get? "upgrade").bind Header.text?).any namesWebSocket = true ↔
      ∃ cs, (h.get? "upgrade").bind Header.text? = some cs ∧ Spells "websocket" cs := by
    unfold namesWebSocket
    simp only [Option.any_eq_true, eqIgnoringCase_trim_iff (w := "websocket") (by decide)]
  have hasks : ((h.texts "connection").any asksUpgrade &&
      ((h.get? "upgrade").bind Header.text?).any namesWebSocket &&
      h.get? "sec-websocket-version" == some (Bytes.ofAscii "13")) = true ↔
      AsksForWebSocket h := by
    rw [Bool.and_eq_true, Bool.and_eq_true, any_asksUpgrade_iff, hupgrade, beq_iff_eq]
    constructor
    · rintro ⟨⟨hconnection, hupgrade⟩, hversion⟩
      exact ⟨hconnection, hupgrade, hversion⟩
    · intro hall
      exact ⟨⟨hall.connection, hall.upgrade⟩, hall.version⟩
  unfold clientKey?
  split
  · next hall => exact ⟨fun hkey => ⟨hasks.mp hall, hkey⟩, And.right⟩
  · next hall => exact iff_of_false nofun fun hkey => hall (hasks.mpr hkey.1)

/-- Of the list, nothing counts but whether one of its items asks for the upgrade. -/
theorem AsksForWebSocket.of_same (hall : AsksForWebSocket h) (hfirst : SameFirst h h')
    (hitems : ∃ item ∈ connectionItems h', Spells "upgrade" item) : AsksForWebSocket h' := by
  have hupgrade := hfirst "upgrade" (by decide)
  have hversion := hfirst "sec-websocket-version" (by decide)
  refine ⟨hitems, ?_, hversion.trans hall.version⟩
  rw [hupgrade]
  exact hall.upgrade

theorem clientKey?_of_same (hfirst : SameFirst h h')
    (hitems : (∃ item ∈ connectionItems h', Spells "upgrade" item) ↔
      ∃ item ∈ connectionItems h, Spells "upgrade" item) : clientKey? h' = clientKey? h := by
  have hback : SameFirst h' h := fun name hname => (hfirst name hname).symm
  have hkey := hfirst "sec-websocket-key" (by decide)
  refine Option.ext fun key => ?_
  rw [clientKey?_eq_some_iff, clientKey?_eq_some_iff, hkey]
  refine and_congr_left fun _ => ⟨fun hall => ?_, fun hall => ?_⟩
  · exact hall.of_same hback (hitems.mp hall.connection)
  · exact hall.of_same hfirst (hitems.mpr hall.connection)

/-- Texts that read the same when joined list the same. -/
theorem exists_item_of_glue_eq
    (hglue : glue [','] (h.texts "connection") = glue [','] (h'.texts "connection")) :
    (∃ item ∈ connectionItems h', Spells "upgrade" item) ↔
      ∃ item ∈ connectionItems h, Spells "upgrade" item := by
  have hsame := filter_items_of_glue_eq (q := fun item => decide (Spells "upgrade" item))
    (by decide) hglue
  have hmem : ∀ h : Headers, (∃ item ∈ connectionItems h, Spells "upgrade" item) ↔
      ∃ item, item ∈ (connectionItems h).filter fun item => decide (Spells "upgrade" item) := by
    intro h
    simp only [List.mem_filter, decide_eq_true_eq]
  rw [hmem, hmem]
  unfold connectionItems
  rw [hsame]

theorem exists_spells_of_respelt {items items' : List (List Char)}
    (hitems : List.Forall₂ Respelt items items') :
    (∃ item ∈ items', Spells w item) ↔ ∃ item ∈ items, Spells w item := by
  induction hitems with
  | nil => exact Iff.rfl
  | cons hitem _ ih => simp only [List.mem_cons, exists_eq_or_imp, hitem.spells_iff, ih]

/--
**Which requests are upgraded.** Of all headers: there is a key exactly if a text among the
values of `connection` lists the upgrade, the first value of `upgrade` is text and names the
WebSocket protocol, the first version is 13 to the byte, and there is a value of the key. It
is the first one. As long as the first values of the other names are the same, so is the
answer

* if the texts of `connection` are broken into values elsewhere,
* if their items are in another order,
* if items are respelt.

More values of `connection` do not take a key away, and headers of other names do not matter.
-/
theorem upgrade_detected (h : Headers) :
    (∀ key, clientKey? h = some key ↔
      AsksForWebSocket h ∧ h.get? "sec-websocket-key" = some key) ∧
    (∀ h', SameFirst h h' →
      glue [','] (h.texts "connection") = glue [','] (h'.texts "connection") ∨
        (connectionItems h).Perm (connectionItems h') ∨
        List.Forall₂ Respelt (connectionItems h) (connectionItems h') →
      clientKey? h' = clientKey? h) ∧
    (∀ h' key, SameFirst h h' → (h.all "connection").Sublist (h'.all "connection") →
      clientKey? h = some key → clientKey? h' = some key) ∧
    ∀ h', (∀ name ∈ "connection" :: firstNames, h'.all name = h.all name) →
      clientKey? h' = clientKey? h := by
  refine ⟨fun _ => clientKey?_eq_some_iff, ?_, ?_, ?_⟩
  · rintro h' hfirst (hglue | hperm | hrespelt)
    · exact clientKey?_of_same hfirst (exists_item_of_glue_eq hglue)
    · refine clientKey?_of_same hfirst ?_
      simp only [hperm.mem_iff]
    · exact clientKey?_of_same hfirst (exists_spells_of_respelt hrespelt)
  · intro h' key hfirst hmore hkey
    obtain ⟨hall, hvalue⟩ := clientKey?_eq_some_iff.mp hkey
    obtain ⟨item, hitem, hspells⟩ := hall.connection
    have hitem' : item ∈ connectionItems h' := by
      obtain ⟨cs, hcs, hpiece⟩ := List.mem_flatMap.mp hitem
      exact List.mem_flatMap.mpr ⟨cs, (hmore.filterMap _).subset hcs, hpiece⟩
    refine clientKey?_eq_some_iff.mpr ⟨hall.of_same hfirst ⟨item, hitem', hspells⟩, ?_⟩
    exact (hfirst "sec-websocket-key" (by decide)).trans hvalue
  · intro h' hnames
    obtain ⟨hconnection, hfirst⟩ := List.forall_mem_cons.mp hnames
    have hget : SameFirst h h' := by
      intro name hname
      unfold Headers.get?
      rw [hfirst name hname]
    refine clientKey?_of_same hget ?_
    unfold connectionItems Headers.texts
    rw [hconnection]

section Example

/-- A request for the upgrade, with some values of `connection`. -/
def upgradeWith (connection : List Bytes) : Headers :=
  ⟨[⟨"upgrade", Bytes.ofAscii "WebSocket"⟩, ⟨"sec-websocket-version", Bytes.ofAscii "13"⟩,
    ⟨"sec-websocket-key", Bytes.ofAscii "a2V5"⟩] ++ connection.map fun v => ⟨"connection", v⟩⟩

/-- One list in two values, in another order, respelt, and with a value that is no text. -/
theorem folded_detected :
    (AsksForWebSocket (upgradeWith [Bytes.ofAscii "keep-alive,Upgrade"]) ∧
      clientKey? (upgradeWith [Bytes.ofAscii "keep-alive,Upgrade"]) =
        some (Bytes.ofAscii "a2V5")) ∧
    clientKey? (upgradeWith [Bytes.ofAscii "keep-alive", Bytes.ofAscii "Upgrade"]) =
      some (Bytes.ofAscii "a2V5") ∧
    clientKey? (upgradeWith [Bytes.ofAscii "Upgrade,keep-alive"]) =
      some (Bytes.ofAscii "a2V5") ∧
    clientKey? (upgradeWith [Bytes.ofAscii "Keep-alive,\tUPGRADE "]) =
      some (Bytes.ofAscii "a2V5") ∧
    clientKey? (upgradeWith [[0xff], Bytes.ofAscii "keep-alive,Upgrade"]) =
      some (Bytes.ofAscii "a2V5") ∧
    clientKey? ((upgradeWith [Bytes.ofAscii "keep-alive,Upgrade"]).append "host" [0x61]) =
      some (Bytes.ofAscii "a2V5") := by
  obtain ⟨hkey, hsame, hmore, hother⟩ :=
    upgrade_detected (upgradeWith [Bytes.ofAscii "keep-alive,Upgrade"])
  have hget : clientKey? (upgradeWith [Bytes.ofAscii "keep-alive,Upgrade"]) =
      some (Bytes.ofAscii "a2V5") := by decide +kernel
  have hfirst : ∀ connection : List Bytes,
      SameFirst (upgradeWith [Bytes.ofAscii "keep-alive,Upgrade"]) (upgradeWith connection) := by
    intro connection name hname
    have hne : "connection" ≠ name := by
      rintro rfl
      exact absurd hname (by decide)
    unfold upgradeWith Headers.get?
    rw [Headers.all_of_append, Headers.all_of_append, Headers.all_of_block,
      Headers.all_of_block, if_neg hne, if_neg hne]
  have hspace : Spacing [' '] := List.forall_mem_singleton.mpr (.inl rfl)
  have htab : Spacing ['\t'] := List.forall_mem_singleton.mpr (.inr rfl)
  have hnil : Spacing [] := nofun
  refine ⟨⟨((hkey _).mp hget).1, hget⟩, ?_, ?_, ?_, ?_, ?_⟩
  · exact (hsame _ (hfirst _) (.inl (by decide +kernel))).trans hget
  · exact (hsame _ (hfirst _) (.inr (.inl (by decide +kernel)))).trans hget
  · have hkeep : Respelt ([] ++ "keep-alive".toList ++ []) ([] ++ "Keep-alive".toList ++ []) :=
      .mk hnil hnil hnil hnil (by decide)
    have hupgrade : Respelt ([] ++ "Upgrade".toList ++ [])
        (['\t'] ++ "UPGRADE".toList ++ [' ']) := .mk hnil hnil htab hspace (by decide)
    have hrespelt : List.Forall₂ Respelt ["keep-alive".toList, "Upgrade".toList]
        ["Keep-alive".toList, "\tUPGRADE ".toList] := .cons hkeep (.cons hupgrade .nil)
    exact (hsame (upgradeWith [Bytes.ofAscii "Keep-alive,\tUPGRADE "]) (hfirst _)
      (.inr (.inr hrespelt))).trans hget
  · exact hmore _ _ (hfirst _) (.cons _ (.refl _)) hget
  · exact (hother _ (by decide +kernel)).trans hget

end Example

end WatchGate.Multiwatch
