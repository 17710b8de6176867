/-
**Records by position.**

A record may come as an array with exactly one item for each of its fields, in their order.  So an
array of that length is read as the object with these members would be, and an array of any other
length is no record.  This holds of a whole body, of content, and of metrics.

Main definitions:

* `IsBodyOfItems`: a body is the text of an array with given items;
* `byPosition`: the members that items stand for.

Main results:

* `recordOf?_byPosition`, `Tree.fields?_of_elements?`: **an array is a record exactly if it has one
  item for each field**;
* `Configuration.decode_of_items`, `Configuration.decode_content_items`,
  `Configuration.decode_metrics_items`: what is read of such arrays, and of all others;
* `Configuration.decode_arrays`: all of this together.
-/

import HubConfig.Proofs.Edits
import HubConfig.Proofs.Listing

set_option autoImplicit false

namespace HubConfig

open HubConfig.Json

namespace Json

/-! ### Items as members -/

/-- The members that items stand for, each with the name of its place. -/
def byPosition (names : List String) (ts : List (Tree .value)) : List Member :=
  (names.map Literal.ofText).zip ts

theorem fieldsOf?_byPosition (names : List String) (ts : List (Tree .value)) :
    fieldsOf? (byPosition names ts) = some (names.zip ts) := by
  induction names generalizing ts with
  | nil => rfl
  | cons name names ih =>
    cases ts with
    | nil => rfl
    | cons t ts =>
      have hrest := ih ts
      rw [byPosition] at hrest
      rw [byPosition, List.map_cons, List.zip_cons_cons, fieldsOf?_cons (Literal.text?_ofText name),
        hrest, Option.map_some, List.zip_cons_cons]

/-- As many items as names make a record. -/
theorem recordOf?_byPosition {names : List String} (hnames : names.Nodup) {ts : List (Tree .value)}
    (hlen : ts.length = names.length) :
    recordOf? names (byPosition names ts) = some (names.zip ts) := by
  have hall : ((names.zip ts).filter fun f => names.contains f.1) = names.zip ts :=
    List.filter_eq_self.2 fun f hf => List.contains_iff_mem.2 (List.of_mem_zip hf).1
  have hdistinct : distinctNames (names.zip ts) = true := by
    rw [distinctNames_iff, List.map_fst_zip (Nat.le_of_eq hlen.symm)]
    exact hnames
  rw [recordOf?, fieldsOf?_byPosition, Option.bind_some, hall]
  exact if_pos hdistinct

/-- The array of given items, without gaps. -/
def Tree.arrayOf : List (Tree .value) → Tree .value
  | [] => .emptyArray []
  | t :: ts => .array (chain t ts)
where
  /-- Items one after another. -/
  chain : Tree .value → List (Tree .value) → Tree .items
    | t, [] => .lastItem [] t []
    | t, t' :: ts => .item [] t [] (chain t' ts)

theorem Tree.values_chain (t : Tree .value) (ts : List (Tree .value)) :
    (Tree.arrayOf.chain t ts).values = t :: ts := by
  induction ts generalizing t with
  | nil => rfl
  | cons t' ts ih => rw [arrayOf.chain, values, ih]

@[simp] theorem Tree.elements?_arrayOf (ts : List (Tree .value)) :
    (Tree.arrayOf ts).elements? = some ts := by
  cases ts with
  | nil => rfl
  | cons t ts => exact congrArg some (Tree.values_chain t ts)

section

variable {t : Tree .value} {ts : List (Tree .value)}

/-- **An array is a record exactly if it has one item for each field.** -/
theorem Tree.fields?_of_elements? (h : t.elements? = some ts) {names : List String}
    (hne : names ≠ []) :
    t.fields? names = if ts.length = names.length then some (names.zip ts) else none := by
  cases t with
  | emptyArray gap =>
    cases h
    have hlen : ([] : List (Tree .value)).length ≠ names.length :=
      fun hlen => hne (List.eq_nil_of_length_eq_zero hlen.symm)
    rw [if_neg hlen]
    rfl
  | array items =>
    cases h
    rfl
  | _ => cases h

theorem Tree.fields?_eq_of_elements? {t' : Tree .value} {names : List String}
    (hnames : names.Nodup) (hne : names ≠ []) (h : t.elements? = some ts)
    (hlen : ts.length = names.length) (h' : t'.members? = some (byPosition names ts)) :
    t.fields? names = t'.fields? names := by
  rw [fields?_of_elements? h hne, if_pos hlen, fields?_of_members? h',
    recordOf?_byPosition hnames hlen]

theorem Tree.optional?_of_elements? {α : Type} {read : Tree .value → Option α}
    (h : t.elements? = some ts) : t.optional? read = (read t).map some := by
  cases t with
  | null => cases h
  | _ => rfl

/-! ### Stray bytes -/

theorem Tree.isText_values_iff : (t : Tree .items) → (t.IsText ↔ ∀ v ∈ t.values, v.IsText)
  | .lastItem before v after => by
    have hbefore := Gap.none_not_mem_print before
    have hafter := Gap.none_not_mem_print after
    simp [IsText, print, values, hbefore, hafter]
  | .item before v after rest => by
    have hbefore := Gap.none_not_mem_print before
    have hafter := Gap.none_not_mem_print after
    have hrest := rest.isText_values_iff
    rw [IsText] at hrest
    simp [IsText, print, values, hbefore, hafter, hrest]

/-- A stray byte of an array stands in one of its items. -/
theorem Tree.isText_iff_of_elements? (h : t.elements? = some ts) :
    t.IsText ↔ ∀ v ∈ ts, v.IsText := by
  cases t with
  | emptyArray gap =>
    cases h
    have hgap := Gap.none_not_mem_print gap
    simp [IsText, print, hgap]
  | array items =>
    cases h
    rw [← items.isText_values_iff]
    simp [IsText, print]
  | _ => cases h

theorem isTextMember_ofText_iff {name : String} {v : Tree .value} :
    IsTextMember (Literal.ofText name, v) ↔ v.IsText :=
  ⟨fun h => h.2, isTextMember_of_text? (Literal.text?_ofText name)⟩

theorem forall_byPosition_iff {names : List String} (hlen : ts.length = names.length) :
    (∀ m ∈ byPosition names ts, IsTextMember m) ↔ ∀ v ∈ ts, v.IsText := by
  induction names generalizing ts with
  | nil =>
    obtain rfl := List.eq_nil_of_length_eq_zero hlen
    exact ⟨fun _ => nofun, fun _ => nofun⟩
  | cons name names ih =>
    obtain ⟨v, rest, rfl⟩ := List.exists_cons_of_length_eq_add_one hlen
    have hrest : (∀ m ∈ byPosition names rest, IsTextMember m) ↔ ∀ v ∈ rest, v.IsText :=
      ih (Nat.succ.inj hlen)
    rw [byPosition] at hrest
    rw [byPosition, List.map_cons, List.zip_cons_cons, List.forall_mem_cons, List.forall_mem_cons,
      isTextMember_ofText_iff, hrest]

end

end Json

/-! ### Bodies that are arrays -/

/-- A body is the text of an array with given items, whatever the gaps. -/
def IsBodyOfItems (body : Bytes) (ts : List (Tree .value)) : Prop :=
  ∃ d : Document, Glyph.ofBytes body = d.print ∧ d.value.elements? = some ts

/-- A body is not both an array and an object. -/
theorem IsBodyOfItems.not_isBodyOf {body : Bytes} {ts : List (Tree .value)}
    (h : IsBodyOfItems body ts) (ms : List Member) : ¬IsBodyOf body ms := by
  rintro ⟨d, hd, hms⟩
  obtain ⟨d', hd', hts⟩ := h
  have hparse := Document.parse?_eq_some_iff.2 hd
  rw [Document.parse?_eq_some_iff.2 hd'] at hparse
  obtain rfl := Option.some.inj hparse
  cases hvalue : d'.value with
  | emptyObject gap =>
    rw [hvalue] at hts
    cases hts
  | object members =>
    rw [hvalue] at hts
    cases hts
  | _ =>
    rw [hvalue] at hms
    cases hms

namespace Configuration

/-- A body that is neither an object nor an array with one item for each field is refused. -/
theorem decode_error_of_not_record {body : Bytes} (hblank : isBlankBody body = false)
    (hobject : ∀ ms, ¬IsBodyOf body ms)
    (harray : ∀ ts, IsBodyOfItems body ts → ts.length ≠ configurationFields.length) :
    decode body = .error bodyError := by
  have hnone : ((Document.parse? (Glyph.ofBytes body)).bind fun d => ofTree? maxNesting d.value) =
      none := by
    cases hparse : Document.parse? (Glyph.ofBytes body) with
    | none => rfl
    | some d =>
      have hd := Document.parse?_eq_some_iff.1 hparse
      have hfields : d.value.fields? configurationFields = none := by
        cases hvalue : d.value with
        | emptyObject gap => exact absurd ⟨d, hd, by rw [hvalue]; rfl⟩ (hobject [])
        | object members => exact absurd ⟨d, hd, by rw [hvalue]; rfl⟩ (hobject members.pairs)
        | array items =>
          have hlen := harray items.values ⟨d, hd, by rw [hvalue]; rfl⟩
          exact if_neg hlen
        | _ => rfl
      rw [Option.bind_some, ofTree?, hfields, Option.bind_none]
  rw [decode, hblank, if_neg Bool.false_ne_true, readBody, hnone]
  rfl

/-- **A body that is an array with one item for each field is read as the object would be.** -/
theorem decode_of_items {body body' : Bytes} {ts : List (Tree .value)} (h : IsBodyOfItems body ts)
    (hlen : ts.length = configurationFields.length)
    (h' : IsBodyOf body' (byPosition configurationFields ts)) : decode body = decode body' := by
  obtain ⟨d, hd, hts⟩ := h
  have hnames : configurationFields.Nodup := by decide
  rw [decode_of_isBodyOf h', ofMembers?, recordOf?_byPosition hnames hlen, decode,
    isBlankBody_of_print hd, if_neg Bool.false_ne_true, readBody,
    Document.parse?_eq_some_iff.2 hd, Option.bind_some, ofTree?,
    Tree.fields?_of_elements? hts (by decide), if_pos hlen, Option.bind_some]
  cases ofFields? (maxNesting - 1) (configurationFields.zip ts) <;> rfl

/-! ### Content and metrics that are arrays -/

section

variable {fields : List Field} {v v' : Tree .value} {ts : List (Tree .value)} {name : String}

theorem contentField?_of_elements? (h : v.elements? = some ts)
    (hlen : ts.length ≠ contentFields.length) (hlookup : fields.lookup "content" = some v) :
    contentField? fields "content" = v.source?.map fun _ => .empty := by
  have hnone : Content.ofTree? v = none := by
    rw [Content.ofTree?, ← contentFields, Tree.fields?_of_elements? h (by decide), if_neg hlen,
      Option.map_none]
  rw [contentField?, hlookup]
  simp only [hnone, Option.getD_none]

theorem contentField?_byPosition (h : v.elements? = some ts)
    (hlen : ts.length = contentFields.length)
    (h' : v'.members? = some (byPosition contentFields ts)) :
    contentField? (("content", v) :: fields) "content" =
      contentField? (("content", v') :: fields) "content" := by
  refine contentField?_congr ?_ ?_
  · rw [Content.ofTree?, Content.ofTree?, ← contentFields,
      Tree.fields?_eq_of_elements? (by decide) (by decide) h hlen h']
  · rw [Tree.isText_iff_of_elements? h, Tree.isText_iff_of_members? h', forall_byPosition_iff hlen]

theorem metricsField?_of_elements? (h : v.elements? = some ts)
    (hlen : ts.length ≠ metricsFields.length) (hlookup : fields.lookup name = some v) :
    metricsField? fields name = none := by
  have hnone : Metrics.ofTree? v = none := by
    rw [Metrics.ofTree?, ← metricsFields, Tree.fields?_of_elements? h (by decide), if_neg hlen]
    rfl
  rw [metricsField?, optionalField?, hlookup]
  simp only [Tree.optional?_of_elements? h, hnone, Option.map_none]

theorem metricsField?_byPosition (h : v.elements? = some ts)
    (hlen : ts.length = metricsFields.length)
    (h' : v'.members? = some (byPosition metricsFields ts)) :
    metricsField? ((name, v) :: fields) name = metricsField? ((name, v') :: fields) name := by
  have hread : Metrics.ofTree? v = Metrics.ofTree? v' := by
    rw [Metrics.ofTree?, Metrics.ofTree?, ← metricsFields,
      Tree.fields?_eq_of_elements? (by decide) (by decide) h hlen h']
  simp only [metricsField?, optionalField?, lookup_cons_self, Tree.optional?_of_elements? h,
    Tree.optional?_of_members? h', hread]

end

section

variable {ms front back : List Member} {key : Literal} {v v' : Tree .value}
  {ts : List (Tree .value)} {body body' : Bytes} {name : String}

/-- Content that is an array of another length says nothing. -/
theorem content_of_items (hbody : IsBodyOf body ms) (hmem : HasMember ms "content" v)
    (h : v.elements? = some ts) (hlen : ts.length ≠ contentFields.length) {c : Configuration}
    (hc : decode body = .ok c) : c.content = .empty := by
  obtain ⟨fields, hfields, hc⟩ := exists_fields_of_decode hbody hc
  have hlookup := (lookup_recordOf?_iff hfields (by decide)).2 hmem
  have hcontent := contentField?_of_ofFields? hc
  rw [contentField?_of_elements? h hlen hlookup] at hcontent
  obtain ⟨_, -, hempty⟩ := Option.map_eq_some_iff.1 hcontent
  exact hempty.symm

/-- It might as well be missing. -/
theorem decode_without_content (hkey : key.text? = some "content")
    (hbody : IsBodyOf body (front ++ (key, v) :: back)) (h : v.elements? = some ts)
    (hlen : ts.length ≠ contentFields.length) (htext : v.IsText)
    (hnew : ∀ t, ¬HasMember (front ++ back) "content" t) (hbody' : IsBodyOf body' (front ++ back)) :
    decode body = decode body' := by
  have hinsert : ofMembers? (front ++ (key, v) :: back) =
      (ofMembers? (front ++ back)).map fun c => c := by
    refine ofMembers?_insert front back hkey (by decide) hnew fun fields hnone => ?_
    rw [Option.map_id']
    refine ofFields?_congr_content (fun other hother => lookup_cons_of_ne hother) ?_
    rw [contentField?_of_elements? h hlen lookup_cons_self, Tree.source?_of_isText htext,
      contentField?, hnone]
    rfl
  rw [decode_of_isBodyOf hbody, decode_of_isBodyOf hbody', hinsert, Option.map_id']

/-- Content that is an array with one item for each field is read as the object would be. -/
theorem decode_content_items (hkey : key.text? = some "content")
    (hbody : IsBodyOf body (front ++ (key, v) :: back)) (h : v.elements? = some ts)
    (hlen : ts.length = contentFields.length)
    (h' : v'.members? = some (byPosition contentFields ts))
    (hbody' : IsBodyOf body' (front ++ (key, v') :: back)) : decode body = decode body' := by
  rw [decode_of_isBodyOf hbody, decode_of_isBodyOf hbody',
    ofMembers?_replace front back hkey (by decide) fun fields =>
      ofFields?_congr_content lookup_cons_congr (contentField?_byPosition h hlen h')]

/-- Metrics that are an array of another length are refused. -/
theorem decode_metrics_error (hbody : IsBodyOf body ms) (hname : name ∈ metricsNames)
    (hmem : HasMember ms name v) (h : v.elements? = some ts)
    (hlen : ts.length ≠ metricsFields.length) : decode body = .error bodyError := by
  cases hc : decode body with
  | error e =>
    rw [decode_of_isBodyOf hbody] at hc
    cases hread : ofMembers? ms with
    | none =>
      rw [hread] at hc
      exact hc.symm
    | some c =>
      rw [hread] at hc
      cases hc
  | ok c =>
    obtain ⟨fields, hfields, hc⟩ := exists_fields_of_decode hbody hc
    have hknown := mem_configurationFields_of_mem_metricsNames name hname
    have hlookup := (lookup_recordOf?_iff hfields hknown).2 hmem
    obtain ⟨metrics, hmetrics⟩ := (exists_ofFields?_iff.1 ⟨c, hc⟩).2.2 name hname
    rw [metricsField?_of_elements? h hlen hlookup] at hmetrics
    cases hmetrics

/-- Metrics that are an array with one item for each field are read as the object would be. -/
theorem decode_metrics_items (hname : name ∈ metricsNames) (hkey : key.text? = some name)
    (hbody : IsBodyOf body (front ++ (key, v) :: back)) (h : v.elements? = some ts)
    (hlen : ts.length = metricsFields.length)
    (h' : v'.members? = some (byPosition metricsFields ts))
    (hbody' : IsBodyOf body' (front ++ (key, v') :: back)) : decode body = decode body' := by
  have hknown := mem_configurationFields_of_mem_metricsNames name hname
  rw [decode_of_isBodyOf hbody, decode_of_isBodyOf hbody',
    ofMembers?_replace front back hkey hknown fun fields =>
      ofFields?_congr_metrics hname lookup_cons_congr (metricsField?_byPosition h hlen h')]

end

/-- **Arrays where a record should be.**  A body, content and metrics are records, and may come as
arrays with one item for each field.  Then they are read as the objects would be.  Otherwise a body
that is no object is refused, and so are metrics that are an array, while content that is one says
nothing. -/
theorem decode_arrays (body : Bytes) :
    (isBlankBody body = false → (∀ ms, ¬IsBodyOf body ms) →
      (∀ ts, IsBodyOfItems body ts → ts.length ≠ configurationFields.length) →
      decode body = .error bodyError) ∧
    (∀ ts, IsBodyOfItems body ts → ts.length = configurationFields.length →
      ∀ body', IsBodyOf body' (byPosition configurationFields ts) → decode body = decode body') ∧
    ∀ (front back : List Member) (key : Literal) (v : Tree .value) (ts : List (Tree .value)),
      IsBodyOf body (front ++ (key, v) :: back) → v.elements? = some ts →
      (key.text? = some "content" →
        (ts.length ≠ contentFields.length →
          (∀ c, decode body = .ok c → c.content = .empty) ∧
          (v.IsText → (∀ t, ¬HasMember (front ++ back) "content" t) →
            ∀ body', IsBodyOf body' (front ++ back) → decode body = decode body')) ∧
        (ts.length = contentFields.length →
          ∀ v' body', v'.members? = some (byPosition contentFields ts) →
            IsBodyOf body' (front ++ (key, v') :: back) → decode body = decode body')) ∧
      ∀ name ∈ metricsNames, key.text? = some name →
        (ts.length ≠ metricsFields.length → decode body = .error bodyError) ∧
        (ts.length = metricsFields.length →
          ∀ v' body', v'.members? = some (byPosition metricsFields ts) →
            IsBodyOf body' (front ++ (key, v') :: back) → decode body = decode body') := by
  refine ⟨decode_error_of_not_record, fun ts h hlen body' h' => decode_of_items h hlen h', ?_⟩
  intro front back key v ts hbody h
  have hmem : ∀ name, key.text? = some name → HasMember (front ++ (key, v) :: back) name v :=
    fun name hkey => ⟨key, hkey, List.mem_append_right front List.mem_cons_self⟩
  refine ⟨fun hkey => ⟨fun hlen => ⟨fun c hc => ?_, fun htext hnew body' hbody' => ?_⟩,
    fun hlen v' body' h' hbody' => ?_⟩, fun name hname hkey => ⟨fun hlen => ?_,
    fun hlen v' body' h' hbody' => ?_⟩⟩
  · exact content_of_items hbody (hmem "content" hkey) h hlen hc
  · exact decode_without_content hkey hbody h hlen htext hnew hbody'
  · exact decode_content_items hkey hbody h hlen h' hbody'
  · exact decode_metrics_error hbody hname (hmem name hkey) h hlen
  · exact decode_metrics_items hname hkey hbody h hlen h' hbody'

/-- Content by position. -/
def sampleContentItems : List (Tree .value) := [.objectOf [], .ofInt 1]

/-- The body that holds it. -/
def sampleContentArray : Bytes := utf8Bytes "\x7b\"content\":[\x7b\x7d,1]\x7d".toList

/-- The same content by name. -/
def sampleContentObject : Bytes :=
  utf8Bytes ("\x7b\"content\":\x7b\"deviceContent\":\x7b\x7d,\"modulesContent\":1\x7d\x7d").toList

/-- A body with metrics by position. -/
def sampleMetricsArray : Bytes := utf8Bytes "\x7b\"metrics\":[null,null]\x7d".toList

theorem isBodyOf_sampleContentArray : IsBodyOf sampleContentArray
    ([] ++ (Literal.ofText "content", .arrayOf sampleContentItems) :: []) :=
  ⟨⟨[], .objectOf _, []⟩, by decide, Tree.members?_objectOf _⟩

theorem decode_arrays_sample :
    decode sampleContentArray = decode sampleContentObject ∧
      decode (utf8Bytes "\x7b\"metrics\":[]\x7d".toList) = .error bodyError := by
  refine ⟨?_, ?_⟩
  · have hobject : IsBodyOf sampleContentObject ([] ++ (Literal.ofText "content",
        .objectOf (byPosition contentFields sampleContentItems)) :: []) :=
      ⟨⟨[], .objectOf _, []⟩, by decide, Tree.members?_objectOf _⟩
    obtain ⟨-, -, hmember⟩ := decode_arrays sampleContentArray
    have hcontent := (hmember _ _ _ _ _ isBodyOf_sampleContentArray
      (Tree.elements?_arrayOf _)).1 (Literal.text?_ofText _)
    exact hcontent.2 rfl _ _ (Tree.members?_objectOf _) hobject
  · have hbody : IsBodyOf (utf8Bytes "\x7b\"metrics\":[]\x7d".toList)
        ([] ++ (Literal.ofText "metrics", .arrayOf []) :: []) :=
      ⟨⟨[], .objectOf _, []⟩, by decide, Tree.members?_objectOf _⟩
    obtain ⟨-, -, hmember⟩ := decode_arrays (utf8Bytes "\x7b\"metrics\":[]\x7d".toList)
    have hmetrics := (hmember _ _ _ _ _ hbody (Tree.elements?_arrayOf _)).2 "metrics" (by decide)
      (Literal.text?_ofText _)
    exact hmetrics.1 (by decide)

/-- As many items as a configuration has fields. -/
def sampleNulls : List (Tree .value) := List.replicate 12 .null

/-- The body that is an array of them. -/
def sampleNullsBody : Bytes :=
  utf8Bytes "[null,null,null,null,null,null,null,null,null,null,null,null]".toList

/-- Objects are not all that is read: a body, content and metrics may be arrays. -/
theorem not_only_objects :
    (¬∀ body, isBlankBody body = false → (∀ ms, ¬IsBodyOf body ms) →
      decode body = .error bodyError) ∧
    (¬∀ body ms v c, IsBodyOf body ms → HasMember ms "content" v → v.elements?.isSome = true →
      decode body = .ok c → c.content = .empty) ∧
    ¬∀ body ms v, IsBodyOf body ms → HasMember ms "metrics" v → v.elements?.isSome = true →
      decode body = .error bodyError := by
  refine ⟨fun h => ?_, fun h => ?_, fun h => ?_⟩
  · have hitems : IsBodyOfItems sampleNullsBody sampleNulls :=
      ⟨⟨[], .arrayOf sampleNulls, []⟩, by decide, Tree.elements?_arrayOf sampleNulls⟩
    have hrefused := h _ (by decide) hitems.not_isBodyOf
    revert hrefused
    decide
  · have hmem : HasMember ([] ++ (Literal.ofText "content", .arrayOf sampleContentItems) :: [])
        "content" (.arrayOf sampleContentItems) :=
      ⟨Literal.ofText "content", Literal.text?_ofText _, List.mem_singleton_self _⟩
    have hread : decode sampleContentArray =
        .ok { Configuration.empty with content := ⟨"\x7b\x7d", "1"⟩ } := by decide +kernel
    have hempty := h _ _ _ _ isBodyOf_sampleContentArray hmem (by rw [Tree.elements?_arrayOf]; rfl)
      hread
    revert hempty
    decide
  · have hbody : IsBodyOf sampleMetricsArray
        [(Literal.ofText "metrics", .arrayOf [.null, .null])] :=
      ⟨⟨[], .objectOf _, []⟩, by decide, Tree.members?_objectOf _⟩
    have hmem : HasMember [(Literal.ofText "metrics", .arrayOf [.null, .null])] "metrics"
        (.arrayOf [.null, .null]) :=
      ⟨Literal.ofText "metrics", Literal.text?_ofText _, List.mem_singleton_self _⟩
    have hrefused := h _ _ _ hbody hmem (by rw [Tree.elements?_arrayOf]; rfl)
    revert hrefused
    decide +kernel

end Configuration

end HubConfig
