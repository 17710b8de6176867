/-
**Whole JSON texts, and the records and maps in them.**

A document is one value with gaps around it and nothing else.  Only the grammar counts here:
nesting may be of any depth, numbers of any size, and surrogates may stand alone.

A record has fields known by name.  It is written as an object, whose other members count for
nothing, or by position, as an array with exactly one item for each field.  A known name that comes
twice spoils the record, and so does a name that spells no text.  A map is an object whose names are
its keys.

Main definitions:

* `Document`: a value with the gaps around it;
* `Document.print`: its glyphs;
* `Document.parse?`: the document that is all of a text;
* `Tree.named?`: the members of an object by the text of their names;
* `Tree.fields?`: the fields of a record;
* `Tree.entries?`: the entries of a map;
* `Tree.optional?`: a value that may be `null`.

Main results:

* `Document.parse?_eq_some_iff`: **a text is a document exactly if it is the print of one, and of
  that one only**.
-/

import HubConfig.Json.Tree
import HubConfig.KeyMap

set_option autoImplicit false

namespace HubConfig.Json

/-! ### Documents -/

/-- A value with the gaps around it. -/
structure Document where
  /-- The gap before the value. -/
  before : Gap
  /-- The value. -/
  value : Tree .value
  /-- The gap after the value. -/
  after : Gap

namespace Document

/-- The glyphs of a document. -/
def print (d : Document) : List Glyph := Gap.print d.before ++ d.value.print ++ Gap.print d.after

/-- The document that is all of a text. -/
def parse? (gs : List Glyph) : Option Document :=
  let before := Gap.read gs
  match Tree.read (2 * gs.length + 1) .value before.2 with
  | none => none
  | some (value, rest) =>
      let after := Gap.read rest
      if after.2 = [] then some ⟨before.1, value, after.1⟩ else none

theorem eq_print_of_parse? {gs : List Glyph} {d : Document} (h : parse? gs = some d) :
    gs = d.print := by
  rw [parse?] at h
  split at h
  · cases h
  · next value rest hv =>
    dsimp only at h
    split at h
    · next hnil =>
      cases h
      have e0 := Gap.print_read gs
      have e1 := Gap.print_read rest
      rw [hnil, List.append_nil] at e1
      rw [Tree.eq_print_of_read hv] at e0
      rw [print, e1, List.append_assoc]
      exact e0.symm
    · cases h

theorem parse?_print (d : Document) : parse? d.print = some d := by
  have hb : Gap.read d.print = (d.before, d.value.print ++ Gap.print d.after) := by
    rw [print, List.append_assoc]
    exact Gap.read_print_append _ _ (d.value.solid_print_append _)
  have ha : Gap.read (Gap.print d.after) = (d.after, []) := by
    simpa using Gap.read_print_append d.after [] trivial
  have hends : EndsNumber (Gap.print d.after) := by
    have h : EndsNumber [] := trivial
    simpa using endsNumber_gap_append d.after h
  have hsize : d.value.size ≤ 2 * d.print.length + 1 := by
    have := d.value.size_le
    simp only [print, List.length_append]
    omega
  have hr := d.value.read_print_append _ hsize _ hends
  simp [parse?, hb, hr, ha]

/-- **A text is a document exactly if it is the print of one, and of that one only.** -/
theorem parse?_eq_some_iff {gs : List Glyph} {d : Document} :
    parse? gs = some d ↔ gs = d.print :=
  ⟨eq_print_of_parse?, fun h => h ▸ parse?_print d⟩

/-- The document that is all of a text of characters. -/
def ofText? (s : String) : Option Document := parse? (s.toList.map some)

end Document

/-! ### Records -/

/-- A named part of a document. -/
abbrev Field := String × Tree .value

/-- The members of an object by the text of their names.  A tree of another shape has none. -/
def Tree.named? : {s : Shape} → Tree s → Option (List Field)
  | _, .lastMember key _ v _ => key.name.text?.map fun name => [(name, v)]
  | _, .member key _ v _ rest => do
      let name ← key.name.text?
      let rest ← rest.named?
      some ((name, v) :: rest)
  | _, _ => some []

/-- Whether no two fields have one name. -/
def distinctNames : List Field → Bool
  | [] => true
  | f :: fs => !(fs.any fun g => g.1 == f.1) && distinctNames fs

/-- The fields of a record that are present, out of those with a known name. -/
def Tree.fields? (known : List String) : Tree .value → Option (List Field)
  | .emptyObject _ => some []
  | .object members => do
      let fields := (← members.named?).filter fun f => known.contains f.1
      if distinctNames fields then some fields else none
  | .array items =>
      if items.values.length = known.length then some (known.zip items.values) else none
  | _ => none

/-- The entries of a map. -/
def Tree.entries? : Tree .value → Option (List Field)
  | .emptyObject _ => some []
  | .object members => members.named?
  | _ => none

/-- A value that may be `null`. -/
def Tree.optional? {α : Type} (read : Tree .value → Option α) : Tree .value → Option (Option α)
  | .null => some none
  | t => (read t).map some

/-- A field that may be missing or `null`. -/
def optionalField? {α : Type} (read : Tree .value → Option α) (fields : List Field)
    (name : String) : Option (Option α) :=
  match fields.lookup name with
  | none => some none
  | some t => t.optional? read

/-! ### Maps -/

/-- Reads the values of entries. -/
def readEntries? {α : Type} (read : Tree .value → Option α) :
    List Field → Option (List (String × α))
  | [] => some []
  | f :: fs => do
      let value ← read f.2
      let rest ← readEntries? read fs
      some ((f.1, value) :: rest)

/-- A map whose values are read one by one. -/
def Tree.keyMap? {α : Type} (read : Tree .value → Option α) (t : Tree .value) :
    Option (KeyMap α) := do
  let entries ← readEntries? read (← t.entries?)
  some (KeyMap.ofList entries)

/-! ### Texts and integers -/

/-- A text. -/
def Tree.text? : Tree .value → Option String
  | .string s => s.text?
  | _ => none

/-- A signed integer of 64 bits. -/
def Tree.int64? : Tree .value → Option Int64
  | .number n =>
      n.integer?.bind fun i =>
        if -0x8000000000000000 ≤ i ∧ i < 0x8000000000000000 then some (Int64.ofInt i) else none
  | _ => none

end HubConfig.Json
