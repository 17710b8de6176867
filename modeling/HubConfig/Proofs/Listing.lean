/-
**Lists of configurations are lists of bodies.**

A list arrives as one body, an array with a text for each configuration.  It is read as if each text
had come in a body of its own: in the same order, with the same result, and not at all if one of
them cannot be read.  Only the depth of the nesting tells the two apart, because the array is a
level of its own.

Main definitions:

* `IsArrayOf`: a body is an array of given texts, with gaps around them;
* `HasSpareLevel`: a text in which no field nests as deep as it may.

Main results:

* `IsArrayOf.exists_document`, `exists_isArrayOf`: such a body is a document with the values of the
  texts as items, and the other way round;
* `Configuration.decodeList_eq_ok_iff`: a list is read exactly if its texts are, and each of them
  has a level to spare;
* `Configuration.decodeList_exact`: **reading a list is reading its elements**.
-/

import HubConfig.Proofs.Cut
import HubConfig.Proofs.Nesting
import Mathlib.Data.List.Forall2

set_option autoImplicit false

namespace HubConfig

open HubConfig.Json

/-! ### Lists side by side -/

theorem forall₂_congr_left {α β γ : Type} {R : α → β → Prop} {S : β → γ → Prop}
    {T : α → γ → Prop} {as : List α} {bs : List β} (h : List.Forall₂ R as bs)
    (hRST : ∀ a b c, R a b → (S b c ↔ T a c)) {cs : List γ} :
    List.Forall₂ S bs cs ↔ List.Forall₂ T as cs := by
  induction h generalizing cs with
  | nil => simp
  | cons hab _ ih =>
    simp only [List.forall₂_cons_left_iff, ih, hRST _ _ _ hab]

theorem exists_of_mem_left {α β : Type} {R : α → β → Prop} {as : List α} {bs : List β}
    (h : List.Forall₂ R as bs) {a : α} (ha : a ∈ as) : ∃ b, R a b := by
  induction h with
  | nil => cases ha
  | @cons _ b _ _ hab _ ih =>
    rcases List.mem_cons.1 ha with rfl | ha
    · exact ⟨b, hab⟩
    · exact ih ha

/-! ### Gaps -/

/-- The bytes of a gap. -/
def Json.Gap.bytes (gap : Gap) : Bytes := utf8Bytes (gap.map Space.char)

theorem Json.Gap.print_append (gap gap' : Gap) :
    Gap.print (gap ++ gap') = Gap.print gap ++ Gap.print gap' := List.map_append

theorem Json.Gap.bytes_cons (s : Space) (gap : Gap) :
    Gap.bytes (s :: gap) = String.utf8EncodeChar s.char ++ Gap.bytes gap := rfl

theorem ofBytes_gap_append (gap : Gap) (bs : Bytes) :
    Glyph.ofBytes (gap.bytes ++ bs) = gap.print ++ Glyph.ofBytes bs := by
  induction gap with
  | nil => rfl
  | cons s gap ih =>
    rw [Gap.bytes_cons, List.append_assoc, Glyph.ofBytes_utf8EncodeChar_append, ih, Gap.print_cons,
      List.cons_append]

theorem ofBytes_gap (gap : Gap) : Glyph.ofBytes gap.bytes = gap.print := by
  have h := ofBytes_gap_append gap []
  rwa [List.append_nil, show Glyph.ofBytes [] = [] from rfl, List.append_nil] at h

/-- Only the bytes of a gap read as the gap. -/
theorem eq_bytes_of_ofBytes {bs : Bytes} {gap : Gap} (h : Glyph.ofBytes bs = gap.print) :
    bs = gap.bytes := by
  refine eq_utf8Bytes_of_ofBytes (h.trans ?_)
  rw [Gap.print, List.map_map]
  rfl

theorem beginsAscii_cons {b : UInt8} (h : b.toNat < 0x80) (bs : Bytes) : BeginsAscii (b :: bs) := by
  intro c hc
  cases hc
  exact h

theorem beginsAscii_gap_append (gap : Gap) {bs : Bytes} (h : BeginsAscii bs) :
    BeginsAscii (gap.bytes ++ bs) := by
  cases gap with
  | nil => exact h
  | cons s gap => cases s <;> exact beginsAscii_cons (by decide) _

/-! ### Arrays of texts -/

/-- Texts with gaps around them and commas between them.  Behind a comma there is another text. -/
inductive Lists : Bytes → List Bytes → Prop
  | none (gap : Gap) : Lists gap.bytes []
  | last (before : Gap) (text : Bytes) (after : Gap) :
      Lists (before.bytes ++ (text ++ after.bytes)) [text]
  | more (before : Gap) (text : Bytes) (after : Gap) {rest : Bytes} {texts : List Bytes} :
      texts ≠ [] → Lists rest texts →
      Lists (before.bytes ++ (text ++ (after.bytes ++ 0x2C :: rest))) (text :: texts)

/-- A body that is an array of given texts: they stand between brackets. -/
def IsArrayOf (body : Bytes) (texts : List Bytes) : Prop :=
  ∃ (before : Gap) (inner : Bytes) (after : Gap), Lists inner texts ∧
    body = before.bytes ++ 0x5B :: (inner ++ 0x5D :: after.bytes)

/-- A text that is one JSON value, without gaps around it. -/
def IsValueText (text : Bytes) : Prop := ∃ v : Tree .value, Glyph.ofBytes text = v.print

/-- A text that is one JSON value with gaps around it. -/
def IsJsonBody (text : Bytes) : Prop := ∃ d : Document, Glyph.ofBytes text = d.print

theorem IsValueText.isJsonBody {text : Bytes} (h : IsValueText text) : IsJsonBody text := by
  obtain ⟨v, hv⟩ := h
  exact ⟨.ofTree v, hv.trans (Document.print_ofTree v).symm⟩

/-- The items of an array.  Any other value has none. -/
def Json.Tree.elements? : Tree .value → Option (List (Tree .value))
  | .emptyArray _ => some []
  | .array items => some items.values
  | _ => none

theorem ofBytes_text_append {text : Bytes} {d : Document} (h : Glyph.ofBytes text = d.print)
    {rest : Bytes} (hrest : BeginsAscii rest) :
    Glyph.ofBytes (text ++ rest) = d.print ++ Glyph.ofBytes rest := by
  rw [Glyph.ofBytes_append hrest, h]

/-- Texts with commas between them are the items that they are documents of. -/
theorem Lists.exists_items {inner : Bytes} {texts : List Bytes} (h : Lists inner texts)
    {ds : List Document} (hds : List.Forall₂ (fun t d => Glyph.ofBytes t = d.print) texts ds) :
    (ds = [] ∧ ∃ gap : Gap, Glyph.ofBytes inner = gap.print) ∨
      ∃ items : Tree .items, Glyph.ofBytes inner = items.print ∧
        items.values = ds.map Document.value := by
  induction h generalizing ds with
  | none gap =>
    cases hds
    exact Or.inl ⟨rfl, gap, ofBytes_gap gap⟩
  | last before text after =>
    obtain ⟨d, ds, hd, hrest, rfl⟩ := List.forall₂_cons_left_iff.1 hds
    cases hrest
    have hnil : BeginsAscii [] := by nofun
    have hafter : BeginsAscii after.bytes := by simpa using beginsAscii_gap_append after hnil
    refine Or.inr ⟨.lastItem (before ++ d.before) d.value (d.after ++ after), ?_, rfl⟩
    rw [ofBytes_gap_append, ofBytes_text_append hd hafter, ofBytes_gap, Tree.print,
      Gap.print_append, Gap.print_append, Document.print]
    simp only [List.append_assoc]
  | more before text after hne _ ih =>
    obtain ⟨d, ds, hd, hrest, rfl⟩ := List.forall₂_cons_left_iff.1 hds
    have hcomma : ∀ rest : Bytes, BeginsAscii (after.bytes ++ 0x2C :: rest) := fun rest =>
      beginsAscii_gap_append after (beginsAscii_cons (by decide) rest)
    rcases ih hrest with ⟨rfl, -⟩ | ⟨items, hitems, hvalues⟩
    · exact absurd (List.forall₂_nil_right_iff.1 hrest) hne
    · refine Or.inr ⟨.item (before ++ d.before) d.value (d.after ++ after) items, ?_, ?_⟩
      · rw [ofBytes_gap_append, ofBytes_text_append hd (hcomma _), ofBytes_gap_append,
          Glyph.ofBytes_ascii_cons (by decide), hitems, Tree.print, Gap.print_append,
          Gap.print_append, Document.print]
        simp only [List.append_assoc]
        rfl
      · rw [Tree.values, hvalues, List.map_cons]

/-- An array of texts is a document with their values as items. -/
theorem IsArrayOf.exists_document {body : Bytes} {texts : List Bytes} (h : IsArrayOf body texts)
    {ds : List Document} (hds : List.Forall₂ (fun t d => Glyph.ofBytes t = d.print) texts ds) :
    ∃ d : Document, Glyph.ofBytes body = d.print ∧
      d.value.elements? = some (ds.map Document.value) := by
  obtain ⟨before, inner, after, hlists, rfl⟩ := h
  have hbody : Glyph.ofBytes (before.bytes ++ 0x5B :: (inner ++ 0x5D :: after.bytes)) =
      before.print ++ some '[' :: (Glyph.ofBytes inner ++ some ']' :: after.print) := by
    rw [ofBytes_gap_append, Glyph.ofBytes_ascii_cons (by decide),
      Glyph.ofBytes_append (beginsAscii_cons (by decide) _), Glyph.ofBytes_ascii_cons (by decide),
      ofBytes_gap]
    rfl
  -- An array without items has a form of its own.
  rcases hlists.exists_items hds with ⟨rfl, gap, hgap⟩ | ⟨items, hitems, hvalues⟩
  · refine ⟨⟨before, .emptyArray gap, after⟩, ?_, rfl⟩
    rw [hbody, hgap]
    simp [Document.print, Tree.print]
  · refine ⟨⟨before, .array items, after⟩, ?_, congrArg some hvalues⟩
    rw [hbody, hitems]
    simp [Document.print, Tree.print]

/-! ### Texts of arrays -/

/-- An ASCII character at the front stands there as its byte. -/
theorem exists_eq_cons_of_ofBytes {bs : Bytes} {c : Char} {hs : List Glyph} (hc : c.toNat < 0x80)
    (h : Glyph.ofBytes bs = some c :: hs) :
    ∃ rest, bs = UInt8.ofNat c.toNat :: rest ∧ Glyph.ofBytes rest = hs := by
  have h' : Glyph.ofBytes bs = [some c] ++ hs := h
  obtain ⟨front, back, rfl, hfront, hback⟩ := Glyph.exists_cut h'
  have hbytes : front = utf8Bytes [c] := eq_utf8Bytes_of_ofBytes hfront
  have henc := utf8EncodeChar_ofNat c.toNat hc
  rw [Char.ofNat_toNat] at henc
  refine ⟨back, ?_, hback⟩
  rw [hbytes, utf8Bytes_cons, henc, utf8Bytes_nil]
  rfl

/-- A gap at the front stands there as its bytes. -/
theorem exists_eq_gap_append_of_ofBytes {bs : Bytes} {gap : Gap} {hs : List Glyph}
    (h : Glyph.ofBytes bs = gap.print ++ hs) :
    ∃ rest, bs = gap.bytes ++ rest ∧ Glyph.ofBytes rest = hs := by
  obtain ⟨front, back, rfl, hfront, hback⟩ := Glyph.exists_cut h
  exact ⟨back, by rw [eq_bytes_of_ofBytes hfront], hback⟩

/-- Items are texts with commas between them. -/
theorem exists_lists : ∀ {inner : Bytes} (items : Tree .items), Glyph.ofBytes inner = items.print →
    ∃ texts, Lists inner texts ∧ texts ≠ [] ∧ ∀ text ∈ texts, IsValueText text
  | _, .lastItem before v after, h => by
    rw [Tree.print, List.append_assoc] at h
    obtain ⟨_, rfl, h1⟩ := exists_eq_gap_append_of_ofBytes h
    obtain ⟨text, _, rfl, htext, h2⟩ := Glyph.exists_cut h1
    rw [eq_bytes_of_ofBytes h2]
    refine ⟨[text], .last before text after, by simp, fun t ht => ?_⟩
    obtain rfl := List.mem_singleton.1 ht
    exact ⟨v, htext⟩
  | _, .item before v after items, h => by
    rw [Tree.print, List.append_assoc, List.append_assoc] at h
    obtain ⟨_, rfl, h1⟩ := exists_eq_gap_append_of_ofBytes h
    obtain ⟨text, _, rfl, htext, h2⟩ := Glyph.exists_cut h1
    obtain ⟨_, rfl, h3⟩ := exists_eq_gap_append_of_ofBytes h2
    obtain ⟨rest, rfl, h4⟩ := exists_eq_cons_of_ofBytes (by decide) h3
    obtain ⟨texts, hlists, hne, htexts⟩ := exists_lists items h4
    refine ⟨text :: texts, .more before text after hne hlists, by simp, fun t ht => ?_⟩
    rcases List.mem_cons.1 ht with rfl | ht
    · exact ⟨v, htext⟩
    · exact htexts t ht

/-- A document that has items is an array of texts. -/
theorem exists_isArrayOf {body : Bytes} {d : Document} (h : Glyph.ofBytes body = d.print)
    {vs : List (Tree .value)} (hvs : d.value.elements? = some vs) :
    ∃ texts, IsArrayOf body texts ∧ ∀ text ∈ texts, IsValueText text := by
  obtain ⟨before, value, after⟩ := d
  rw [Document.print, List.append_assoc] at h
  obtain ⟨_, rfl, h1⟩ := exists_eq_gap_append_of_ofBytes h
  cases value with
  | emptyArray gap =>
    simp only [Tree.print, List.cons_append, List.append_assoc] at h1
    obtain ⟨_, rfl, h2⟩ := exists_eq_cons_of_ofBytes (by decide) h1
    obtain ⟨_, rfl, h3⟩ := exists_eq_gap_append_of_ofBytes h2
    obtain ⟨_, rfl, h4⟩ := exists_eq_cons_of_ofBytes (by decide) h3
    rw [eq_bytes_of_ofBytes h4]
    exact ⟨[], ⟨before, gap.bytes, after, .none gap, rfl⟩, by simp⟩
  | array items =>
    simp only [Tree.print, List.cons_append, List.append_assoc] at h1
    obtain ⟨_, rfl, h2⟩ := exists_eq_cons_of_ofBytes (by decide) h1
    obtain ⟨inner, _, rfl, hinner, h3⟩ := Glyph.exists_cut h2
    obtain ⟨_, rfl, h4⟩ := exists_eq_cons_of_ofBytes (by decide) h3
    rw [eq_bytes_of_ofBytes h4]
    obtain ⟨texts, hlists, -, htexts⟩ := exists_lists items hinner
    exact ⟨texts, ⟨before, inner, after, hlists, rfl⟩, htexts⟩
  | _ => cases hvs

/-! ### Bodies that are documents -/

/-- A text in which no field that is read for its meaning nests as deep as it may: the record is a
level of its own, and one more is spared. -/
def HasSpareLevel (text : Bytes) : Prop :=
  ∀ (d : Document) (fields : List Field), Glyph.ofBytes text = d.print →
    d.value.fields? configurationFields = some fields → FieldsWithin (maxNesting - 2) fields

/-- The complaint about a list that cannot be read. -/
def listError : Error := ⟨.json, "failed to decode configuration list", [.foreign]⟩

namespace Configuration

theorem decode_eq_ok_iff {text : Bytes} {d : Document} (h : Glyph.ofBytes text = d.print)
    {c : Configuration} : decode text = .ok c ↔ ofTree? maxNesting d.value = some c := by
  rw [decode, isBlankBody_of_print h, if_neg Bool.false_ne_true, readBody_eq_ok_iff h]

/-- What is read of a text that is not blank is a document. -/
theorem isJsonBody_of_decode {text : Bytes} {c : Configuration} (hblank : isBlankBody text = false)
    (h : decode text = .ok c) : IsJsonBody text := by
  rw [decode, hblank, if_neg Bool.false_ne_true] at h
  obtain ⟨d, hd, -⟩ := exists_print_of_readBody h
  exact ⟨d, hd⟩

theorem listOfTree?_eq (t : Tree .value) :
    listOfTree? t = t.elements?.bind (ofTrees? (maxNesting - 1)) := by
  cases t <;> rfl

theorem ofTrees?_eq_some_iff {nesting : Nat} {ts : List (Tree .value)} {cs : List Configuration} :
    ofTrees? nesting ts = some cs ↔
      List.Forall₂ (fun t c => ofTree? nesting t = some c) ts cs := by
  induction ts generalizing cs with
  | nil => simp [ofTrees?, eq_comm]
  | cons t ts ih =>
    simp only [ofTrees?, Option.bind_eq_bind, Option.bind_eq_some_iff, Option.some.injEq, ih,
      List.forall₂_cons_left_iff]
    constructor
    · rintro ⟨c, hc, cs, hcs, rfl⟩
      exact ⟨c, cs, hc, hcs, rfl⟩
    · rintro ⟨c, cs, hc, hcs, rfl⟩
      exact ⟨c, hc, cs, hcs, rfl⟩

/-- A record within an array is read as on its own, if it has a level to spare. -/
theorem ofTree?_element_iff {text : Bytes} {d : Document} (h : Glyph.ofBytes text = d.print)
    {c : Configuration} :
    ofTree? (maxNesting - 1) d.value = some c ↔ decode text = .ok c ∧ HasSpareLevel text := by
  have hspare : HasSpareLevel text ↔ ∀ fields, d.value.fields? configurationFields = some fields →
      FieldsWithin (maxNesting - 2) fields := by
    constructor
    · exact fun hs fields hf => hs d fields h hf
    · intro hs d' fields hd' hf
      have he := Document.parse?_eq_some_iff.2 hd'
      rw [Document.parse?_eq_some_iff.2 h] at he
      cases he
      exact hs fields hf
  rw [decode_eq_ok_iff h, hspare, ofTree?, ofTree?]
  cases d.value.fields? configurationFields with
  | none => simp
  | some fields =>
    simp only [Option.bind_some, Option.some.injEq, forall_eq']
    exact ofFields?_succ_iff (n := maxNesting - 2)

/-! ### Lists -/

theorem exists_documents {texts : List Bytes} (h : ∀ text ∈ texts, IsJsonBody text) :
    ∃ ds : List Document, List.Forall₂ (fun t d => Glyph.ofBytes t = d.print) texts ds := by
  induction texts with
  | nil => exact ⟨[], .nil⟩
  | cons text texts ih =>
    obtain ⟨d, hd⟩ := h text (by simp)
    obtain ⟨ds, hds⟩ := ih fun t ht => h t (List.mem_cons_of_mem text ht)
    exact ⟨d :: ds, .cons hd hds⟩

/-- A list is read exactly if its texts are, and each of them has a level to spare. -/
theorem decodeList_eq_ok_iff {body : Bytes} {texts : List Bytes} (h : IsArrayOf body texts)
    (htexts : ∀ text ∈ texts, IsJsonBody text) {cs : List Configuration} :
    decodeList body = .ok cs ↔
      List.Forall₂ (fun text c => decode text = .ok c ∧ HasSpareLevel text) texts cs := by
  obtain ⟨ds, hds⟩ := exists_documents htexts
  obtain ⟨d, hd, helements⟩ := h.exists_document hds
  -- The array takes a level from each record, which is why the texts have to spare one.
  have hread : decodeList body = .ok cs ↔
      ofTrees? (maxNesting - 1) (ds.map Document.value) = some cs := by
    rw [decodeList, isBlankBody_of_print hd, if_neg Bool.false_ne_true, readBody_eq_ok_iff hd,
      listOfTree?_eq, helements, Option.bind_some]
  rw [hread, ofTrees?_eq_some_iff, List.forall₂_map_left_iff]
  refine forall₂_congr_left hds fun text d c ht => ?_
  exact ofTree?_element_iff ht

theorem error_of_decodeList {body : Bytes} {e : Error} (h : decodeList body = .error e) :
    e = listError := by
  rw [decodeList] at h
  split at h
  · cases h
  · exact error_of_readBody h

/-- A list that is read, of a body that is not blank, is an array of texts. -/
theorem exists_isArrayOf_of_decodeList {body : Bytes} {cs : List Configuration}
    (hblank : isBlankBody body = false) (h : decodeList body = .ok cs) :
    ∃ texts, IsArrayOf body texts ∧ ∀ text ∈ texts, IsValueText text := by
  rw [decodeList, hblank, if_neg Bool.false_ne_true] at h
  obtain ⟨d, hd, hread⟩ := exists_print_of_readBody h
  rw [listOfTree?_eq] at hread
  obtain ⟨vs, hvs, -⟩ := Option.bind_eq_some_iff.1 hread
  exact exists_isArrayOf hd hvs

/-- **Reading a list is reading its elements**: a list that is read is an array whose texts are read
one by one, texts with a level to spare are read as a list, and one text that cannot be read spoils
the list. -/
theorem decodeList_exact :
    (∀ (body : Bytes) (cs : List Configuration), isBlankBody body = false →
      decodeList body = .ok cs →
      (∃ texts, IsArrayOf body texts ∧ ∀ text ∈ texts, IsValueText text) ∧
      ∀ texts, IsArrayOf body texts → (∀ text ∈ texts, IsValueText text) →
        List.Forall₂ (fun text c => decode text = .ok c ∧ HasSpareLevel text) texts cs) ∧
    (∀ (body : Bytes) (texts : List Bytes) (cs : List Configuration), IsArrayOf body texts →
      List.Forall₂ (fun text c => isBlankBody text = false ∧ decode text = .ok c ∧
        HasSpareLevel text) texts cs →
      decodeList body = .ok cs) ∧
    ∀ (body : Bytes) (texts : List Bytes), IsArrayOf body texts →
      (∀ text ∈ texts, IsJsonBody text) → (∃ text ∈ texts, ∃ e, decode text = .error e) →
      decodeList body = .error listError := by
  refine ⟨?_, ?_, ?_⟩
  · intro body cs hblank h
    refine ⟨exists_isArrayOf_of_decodeList hblank h, fun texts harray htexts => ?_⟩
    exact (decodeList_eq_ok_iff harray fun text ht => (htexts text ht).isJsonBody).1 h
  · intro body texts cs harray h
    refine (decodeList_eq_ok_iff harray fun text hmem => ?_).2 (h.imp fun _ _ hc => hc.2)
    obtain ⟨c, hblank, hc, -⟩ := exists_of_mem_left h hmem
    exact isJsonBody_of_decode hblank hc
  · rintro body texts harray htexts ⟨text, hmem, e, he⟩
    cases h : decodeList body with
    | error e' => rw [error_of_decodeList h]
    | ok cs =>
      obtain ⟨c, hc, -⟩ := exists_of_mem_left ((decodeList_eq_ok_iff harray htexts).1 h) hmem
      rw [he] at hc
      cases hc

/-- Two texts for a list, one with labels and one with content that no reader of values looks at. -/
def sampleElements : List Bytes :=
  [utf8Bytes "\x7b\"id\":\"é\",\"labels\":\x7b\"a\":\"b\"\x7d\x7d".toList,
    utf8Bytes "\x7b\"priority\":7,\"content\":[[]]\x7d".toList]

/-- The body that holds them, with gaps. -/
def sampleList : Bytes :=
  utf8Bytes (" [\x7b\"id\":\"é\",\"labels\":\x7b\"a\":\"b\"\x7d\x7d\n, " ++
    "\x7b\"priority\":7,\"content\":[[]]\x7d]").toList

/-- What they report. -/
def sampleConfigurations : List Configuration :=
  [{ Configuration.empty with id := "é", labels := KeyMap.ofList [("a", "b")] },
    { Configuration.empty with priority := 7 }]

theorem decodeList_exact_sample :
    (isBlankBody sampleList = false ∧ decodeList sampleList = .ok sampleConfigurations) ∧
    (IsArrayOf sampleList sampleElements ∧ (∀ text ∈ sampleElements, IsJsonBody text) ∧
      (∃ texts, IsArrayOf sampleList texts ∧ ∀ text ∈ texts, IsValueText text) ∧
      List.Forall₂ (fun text c => isBlankBody text = false ∧ decode text = .ok c ∧
        HasSpareLevel text) sampleElements sampleConfigurations) ∧
    (IsArrayOf [0x5B, 0x37, 0x5D] [[0x37]] ∧ (∀ text ∈ [[0x37]], IsJsonBody text) ∧
      (∃ e, decode [0x37] = .error e) ∧ decodeList [0x5B, 0x37, 0x5D] = .error listError) := by
  have hblank : isBlankBody sampleList = false := by decide
  have hlist : decodeList sampleList = .ok sampleConfigurations := by decide +kernel
  have harray : IsArrayOf sampleList sampleElements :=
    ⟨[.space], _, [], .more [] _ [.lineFeed] (by simp) (.last [.space] _ []), by decide⟩
  have hparse : ∀ text ∈ sampleElements ++ [[0x37]],
      (Document.parse? (Glyph.ofBytes text)).isSome = true := by decide +kernel
  have hjson : ∀ text ∈ sampleElements ++ [[0x37]], IsJsonBody text := fun text ht =>
    (Option.isSome_iff_exists.1 (hparse text ht)).imp fun d hd => Document.eq_print_of_parse? hd
  have htexts : ∀ text ∈ sampleElements, IsJsonBody text := fun text ht =>
    hjson text (List.mem_append_left _ ht)
  have hseven : ∀ text ∈ [[0x37]], IsJsonBody text := fun text ht =>
    hjson text (List.mem_append_right _ ht)
  have hbad : ∃ e, decode [0x37] = .error e := ⟨_, rfl⟩
  have hsevens : IsArrayOf [0x5B, 0x37, 0x5D] [[0x37]] :=
    ⟨[], _, [], .last [] [0x37] [], rfl⟩
  obtain ⟨accepted, joined, rejected⟩ := decodeList_exact
  obtain ⟨hexists, -⟩ := accepted sampleList sampleConfigurations hblank hlist
  have hall := (decodeList_eq_ok_iff harray htexts).1 hlist
  obtain ⟨⟨h1, s1⟩, hrest⟩ := List.forall₂_cons.1 hall
  obtain ⟨⟨h2, s2⟩, -⟩ := List.forall₂_cons.1 hrest
  have helements : List.Forall₂ (fun text c => isBlankBody text = false ∧ decode text = .ok c ∧
      HasSpareLevel text) sampleElements sampleConfigurations :=
    .cons ⟨by decide +kernel, h1, s1⟩ (.cons ⟨by decide, h2, s2⟩ .nil)
  exact ⟨⟨hblank, joined _ _ _ harray helements⟩, ⟨harray, htexts, hexists, helements⟩,
    hsevens, hseven, hbad, rejected _ _ hsevens hseven ⟨_, by simp, hbad⟩⟩

end Configuration

end HubConfig
