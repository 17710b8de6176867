/-
**Configurations read from a body.**

A body is read as a record of known fields.  Fields that should be texts, labels and content count
as missing when they are something else; metrics must be what they should be.  Content is kept as
the text it was received in.  A blank body says nothing.

A priority is a number, or a text that begins with one: white space, at most one sign, and digits.
What is no number of thirty-two bits counts as zero.

Main definitions:

* `priorityOfText`, `priorityOfValue`: the priority that a text or a value stands for;
* `Configuration.ofTree?`: the configuration that a JSON tree reports;
* `Configuration.decode`, `Configuration.decodeList`, `QueryTestResult.decode`: what a body reports;
* `Configuration.decodeInto`: the same in place of what was known before.

Main results:

* `boundedInt32_of_mem`: a number of thirty-two bits is itself;
* `Configuration.ofFields?_eq_some_iff`: what is read of the fields of a record;
* `isBlankBody_utf8Bytes_cons`: a text that begins with no blank is no blank body;
* `Configuration.decode_blank`: a blank body reports nothing;
* `Configuration.decodeInto_error`: a body that cannot be read leaves nothing of what was known.
-/

import HubConfig.Configuration.Basic
import HubConfig.Error
import HubConfig.Json.Document
import HubConfig.Json.Value
import HubConfig.Text.Digits
import HubConfig.Text.Split

set_option autoImplicit false

namespace HubConfig

open HubConfig.Text HubConfig.Json

/-! ### Priorities -/

/-- An integer of thirty-two bits, or zero for any other. -/
def boundedInt32 (i : Int) : Int32 :=
  if -0x80000000 ≤ i ∧ i < 0x80000000 then Int32.ofInt i else 0

theorem boundedInt32_of_mem {i : Int} (h : -0x80000000 ≤ i) (h' : i < 0x80000000) :
    (boundedInt32 i).toInt = i := by
  rw [boundedInt32, if_pos ⟨h, h'⟩, Int32.toInt_ofInt_of_le h h']

/-- The sign at the front of a text, and what follows it. -/
def splitSign : List Char → Bool × List Char
  | '-' :: cs => (true, cs)
  | '+' :: cs => (false, cs)
  | cs => (false, cs)

/-- The priority that a text begins with. -/
def priorityOfText (s : String) : Int32 :=
  -- A sign without digits behind it reads as zero, like a text without any.
  let (negative, cs) := splitSign (trimStart s.toList)
  let n := digitsValue (cs.takeWhile Char.isDigit)
  boundedInt32 (if negative then -(n : Int) else n)

/-- The priority that a value stands for. -/
def priorityOfValue : Value → Int32
  | .number n => (n.integer?.map boundedInt32).getD 0
  | .string s => priorityOfText s
  | _ => 0

/-! ### Content -/

/-- The source text of a field that may be missing or `null`. -/
def sourceField (fields : List Field) (name : String) : String :=
  match fields.lookup name with
  | none => ""
  | some .null => ""
  | some t => t.source?.getD ""

/-- The content that a record carries. -/
def Content.ofTree? (t : Tree .value) : Option Content :=
  (t.fields? ["deviceContent", "modulesContent"]).map fun fields =>
    ⟨sourceField fields "deviceContent", sourceField fields "modulesContent"⟩

/-- Content that may be missing, and counts as missing when it is no record.  No stray byte may
stand in it. -/
def contentField? (fields : List Field) (name : String) : Option Content :=
  match fields.lookup name with
  | none => some .empty
  | some t => t.source?.map fun _ => (Content.ofTree? t).getD .empty

/-! ### Metrics -/

/-- The metrics that a record carries. -/
def Metrics.ofTree? (t : Tree .value) : Option Metrics := do
  let fields ← t.fields? ["results", "queries"]
  let results ← optionalField? (Tree.keyMap? Tree.int64?) fields "results"
  let queries ← optionalField? (Tree.keyMap? Tree.text?) fields "queries"
  some ⟨results.getD ∅, queries.getD ∅⟩

/-- Metrics that may be missing or `null`. -/
def metricsField? (fields : List Field) (name : String) : Option Metrics :=
  (optionalField? Metrics.ofTree? fields name).map (·.getD .empty)

/-! ### Fields read for their meaning -/

/-- The value of a field that may be missing, where arrays and objects nest at most `nesting`
deep. -/
def valueField? (nesting : Nat) (fields : List Field) (name : String) : Option Value :=
  match fields.lookup name with
  | none => some .null
  | some t => t.value? nesting

/-- The text that a value is, or the empty text. -/
def textOfValue : Value → String
  | .string s => s
  | _ => ""

/-- The text that a value is, if it is one. -/
def textOfValue? : Value → Option String
  | .string s => some s
  | _ => none

/-- The labels that a value carries: the members of an object that are texts. -/
def labelsOfValue : Value → KeyMap String
  | .object members => (KeyMap.ofList members).filterMap textOfValue?
  | _ => ∅

/-! ### Configurations -/

/-- The fields of a configuration, in the order in which they stand by position. -/
def configurationFields : List String :=
  ["id", "schemaVersion", "contentType", "targetCondition", "createdTimeUtc", "lastUpdatedTimeUtc",
    "etag", "priority", "content", "labels", "systemMetrics", "metrics"]

namespace Configuration

/-- The configuration that fields report, where arrays and objects in them nest at most `nesting`
deep. -/
def ofFields? (nesting : Nat) (fields : List Field) : Option Configuration := do
  let id ← valueField? nesting fields "id"
  let schemaVersion ← valueField? nesting fields "schemaVersion"
  let contentType ← valueField? nesting fields "contentType"
  let targetCondition ← valueField? nesting fields "targetCondition"
  let createdTimeUtc ← valueField? nesting fields "createdTimeUtc"
  let lastUpdatedTimeUtc ← valueField? nesting fields "lastUpdatedTimeUtc"
  let etag ← valueField? nesting fields "etag"
  let priority ← valueField? nesting fields "priority"
  let content ← contentField? fields "content"
  let labels ← valueField? nesting fields "labels"
  let systemMetrics ← metricsField? fields "systemMetrics"
  let metrics ← metricsField? fields "metrics"
  some
    { id := textOfValue id
      schemaVersion := textOfValue schemaVersion
      targetCondition := textOfValue targetCondition
      etag := textOfValue etag
      contentType := textOfValue contentType
      createdTimeUtc := textOfValue createdTimeUtc
      lastUpdatedTimeUtc := textOfValue lastUpdatedTimeUtc
      priority := priorityOfValue priority
      content := content
      labels := labelsOfValue labels
      systemMetrics := systemMetrics
      metrics := metrics }

/-- **What fields report**: each of them is read, and the configuration is made of what was read. -/
theorem ofFields?_eq_some_iff {nesting : Nat} {fields : List Field} {c : Configuration} :
    ofFields? nesting fields = some c ↔
      ∃ id schemaVersion contentType targetCondition createdTimeUtc lastUpdatedTimeUtc etag priority
        content labels systemMetrics metrics,
        valueField? nesting fields "id" = some id ∧
        valueField? nesting fields "schemaVersion" = some schemaVersion ∧
        valueField? nesting fields "contentType" = some contentType ∧
        valueField? nesting fields "targetCondition" = some targetCondition ∧
        valueField? nesting fields "createdTimeUtc" = some createdTimeUtc ∧
        valueField? nesting fields "lastUpdatedTimeUtc" = some lastUpdatedTimeUtc ∧
        valueField? nesting fields "etag" = some etag ∧
        valueField? nesting fields "priority" = some priority ∧
        contentField? fields "content" = some content ∧
        valueField? nesting fields "labels" = some labels ∧
        metricsField? fields "systemMetrics" = some systemMetrics ∧
        metricsField? fields "metrics" = some metrics ∧
        c = ⟨textOfValue id, textOfValue schemaVersion, textOfValue targetCondition,
          textOfValue etag, textOfValue contentType, textOfValue createdTimeUtc,
          textOfValue lastUpdatedTimeUtc, priorityOfValue priority, content, labelsOfValue labels,
          systemMetrics, metrics⟩ := by
  constructor
  · intro h
    -- One field at a time: rewriting the whole chain of binds at once is slow.
    obtain ⟨id, h1, h⟩ := Option.bind_eq_some_iff.1 h
    obtain ⟨version, h2, h⟩ := Option.bind_eq_some_iff.1 h
    obtain ⟨type, h3, h⟩ := Option.bind_eq_some_iff.1 h
    obtain ⟨condition, h4, h⟩ := Option.bind_eq_some_iff.1 h
    obtain ⟨made, h5, h⟩ := Option.bind_eq_some_iff.1 h
    obtain ⟨changed, h6, h⟩ := Option.bind_eq_some_iff.1 h
    obtain ⟨etag, h7, h⟩ := Option.bind_eq_some_iff.1 h
    obtain ⟨priority, h8, h⟩ := Option.bind_eq_some_iff.1 h
    obtain ⟨content, h9, h⟩ := Option.bind_eq_some_iff.1 h
    obtain ⟨labels, h10, h⟩ := Option.bind_eq_some_iff.1 h
    obtain ⟨own, h11, h⟩ := Option.bind_eq_some_iff.1 h
    obtain ⟨metrics, h12, h⟩ := Option.bind_eq_some_iff.1 h
    exact ⟨id, version, type, condition, made, changed, etag, priority, content, labels, own,
      metrics, h1, h2, h3, h4, h5, h6, h7, h8, h9, h10, h11, h12, (Option.some.inj h).symm⟩
  · rintro ⟨id, version, type, condition, made, changed, etag, priority, content, labels, own,
      metrics, h1, h2, h3, h4, h5, h6, h7, h8, h9, h10, h11, h12, rfl⟩
    simp only [ofFields?, h1, h2, h3, h4, h5, h6, h7, h8, h9, h10, h11, h12, Option.bind_eq_bind,
      Option.bind_some]

/-- The configuration that a record reports, where the record itself counts as one level of
nesting. -/
def ofTree? (nesting : Nat) (t : Tree .value) : Option Configuration :=
  (t.fields? configurationFields).bind (ofFields? (nesting - 1))

/-- The configurations that trees report. -/
def ofTrees? (nesting : Nat) : List (Tree .value) → Option (List Configuration)
  | [] => some []
  | t :: ts => do
      let c ← ofTree? nesting t
      let cs ← ofTrees? nesting ts
      some (c :: cs)

/-- The configurations that an array reports. -/
def listOfTree? : Tree .value → Option (List Configuration)
  | .emptyArray _ => some []
  | .array items => ofTrees? (maxNesting - 1) items.values
  | _ => none

end Configuration

/-! ### Bodies -/

/-- Whether a body holds nothing. -/
def isBlankBody (body : Bytes) : Bool := body.all isAsciiBlank

/-- A text that begins with no white space is no blank body. -/
theorem isBlankBody_utf8Bytes_cons {c : Char} (h : isWhiteSpace c = false) (cs : List Char) :
    isBlankBody (utf8Bytes (c :: cs)) = false := by
  have hcode := leadingCode_utf8EncodeChar_append c (utf8Bytes cs)
  cases hbs : String.utf8EncodeChar c with
  | nil => exact absurd hbs String.utf8EncodeChar_ne_nil
  | cons b bs =>
    have hb : isAsciiBlank b = false := by
      refine Bool.eq_false_iff.2 fun hblank => ?_
      have hlt := toNat_lt_of_isAsciiBlank hblank
      rw [hbs] at hcode
      simp only [leadingCode, List.cons_append, List.getD_cons_zero, if_pos hlt] at hcode
      have hw := isWhiteSpace_of_isAsciiBlank hblank
      rw [hcode, Char.ofNat_toNat, h] at hw
      cases hw
    simp [isBlankBody, hbs, hb]

/-- Reads a body that holds something. -/
def readBody {α : Type} (read : Tree .value → Option α) (complaint : String) (body : Bytes) :
    Except Error α :=
  match (Document.parse? (Glyph.ofBytes body)).bind fun d => read d.value with
  | some a => .ok a
  | none => .error (.adopted .json complaint)

/-- **The configuration that a body reports.** -/
def Configuration.decode (body : Bytes) : Except Error Configuration :=
  if isBlankBody body then .ok .empty
  else readBody (Configuration.ofTree? maxNesting) "failed to decode configuration" body

/-- **The configurations that a body reports.** -/
def Configuration.decodeList (body : Bytes) : Except Error (List Configuration) :=
  if isBlankBody body then .ok []
  else readBody Configuration.listOfTree? "failed to decode configuration list" body

theorem Configuration.decode_blank {body : Bytes} (h : isBlankBody body = true) :
    Configuration.decode body = .ok .empty := if_pos h

/-- The configuration that a body reports, in place of what was known before: nothing stays known if
the body cannot be read. -/
def Configuration.decodeInto (body : Bytes) : Except Error Unit × Configuration :=
  match Configuration.decode body with
  | .ok c => (.ok (), c)
  | .error e => (.error e, .empty)

theorem Configuration.decodeInto_error {body : Bytes} {e : Error}
    (h : Configuration.decode body = .error e) :
    Configuration.decodeInto body = (.error e, .empty) := by
  rw [decodeInto, h]

/-! ### Results of a check -/

/-- The result of a check that a record reports. -/
def QueryTestResult.ofTree? (t : Tree .value) : Option QueryTestResult := do
  let fields ← t.fields? ["targetConditionError", "customMetricQueryErrors"]
  let condition ← optionalField? Tree.text? fields "targetConditionError"
  let queries ← optionalField? (Tree.keyMap? Tree.text?) fields "customMetricQueryErrors"
  some ⟨condition.getD "", queries.getD ∅⟩

/-- **The result of a check that a body reports.** -/
def QueryTestResult.decode (body : Bytes) : Except Error QueryTestResult :=
  if isBlankBody body then .ok .empty
  else readBody QueryTestResult.ofTree? "failed to decode query test response" body

end HubConfig
