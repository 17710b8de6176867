/-
**Bodies that say the same.**

A body may come with its members in another order, with other gaps, and with members that nobody
asked for.  None of this changes what is read of it: neither the configuration nor, if it cannot be
read, the error.  The same holds within content and metrics, where only the members of their own
records count.

Main definitions:

* `Rearranged`: one change to the members of a record that leaves its fields alone;
* `Edit`: one change to the members of a body.

Main results:

* `bind_recordOf?_rearranged`: a rearranged record is read the same;
* `Tree.isText_iff_of_rearranged`: a stray byte stands in both objects or in neither;
* `Configuration.ofMembers?_replace`, `Configuration.ofMembers?_insert`: one field in place of
  another, and one that comes in;
* `Edit.ofMembers?_eq`: **one edit changes nothing**;
* `Configuration.decode_eq_of_edits`: **nor do any number of them**.
-/

import HubConfig.Proofs.KnownFields
import Mathlib.Logic.Relation

set_option autoImplicit false

namespace HubConfig

open HubConfig.Json

/-! ### Edits -/

/-- One change to the members of a record that leaves its fields alone: another order, or a further
member whose name is not known, with any value that may stand there. -/
inductive Rearranged (known : List String) (allowed : Tree .value → Prop) :
    List Member → List Member → Prop
  | order {ms ms' : List Member} (h : ms.Perm ms') : Rearranged known allowed ms ms'
  | unknown {key : Literal} {v : Tree .value} {name : String} (front back : List Member)
      (hname : key.text? = some name) (hknown : name ∉ known) (hv : allowed v) :
      Rearranged known allowed (front ++ back) (front ++ (key, v) :: back)

/-- One change to the members of an object, whatever the gaps between them. -/
def RearrangedObject (known : List String) (allowed : Tree .value → Prop) (v v' : Tree .value) :
    Prop :=
  ∃ ms ms', v.members? = some ms ∧ v'.members? = some ms' ∧ Rearranged known allowed ms ms'

/-- One change to the members of a body: to the members themselves, or to those of content or of
metrics.  Content is kept as a text, so no stray byte may come into it. -/
inductive Edit : List Member → List Member → Prop
  | rearrange {ms ms' : List Member} (h : Rearranged configurationFields (fun _ => True) ms ms') :
      Edit ms ms'
  | content {key : Literal} {v v' : Tree .value} (front back : List Member)
      (hname : key.text? = some "content") (h : RearrangedObject contentFields Tree.IsText v v') :
      Edit (front ++ (key, v) :: back) (front ++ (key, v') :: back)
  | metrics {key : Literal} {v v' : Tree .value} {name : String} (front back : List Member)
      (hname : key.text? = some name) (hmetrics : name ∈ metricsNames)
      (h : RearrangedObject metricsFields (fun _ => True) v v') :
      Edit (front ++ (key, v) :: back) (front ++ (key, v') :: back)

/-! ### Records -/

/-- A rearranged record is read the same by a reader that only looks fields up. -/
theorem bind_recordOf?_rearranged {α : Type} {read : List Field → Option α}
    (hread : ∀ fields fields' : List Field, (∀ name, fields.lookup name = fields'.lookup name) →
      read fields = read fields')
    {known : List String} {allowed : Tree .value → Prop} {ms ms' : List Member}
    (h : Rearranged known allowed ms ms') :
    (recordOf? known ms).bind read = (recordOf? known ms').bind read := by
  cases h with
  | order h => exact bind_recordOf?_perm hread h
  | unknown front back hname hknown _ =>
    rw [bind_recordOf?_perm hread List.perm_middle, recordOf?_cons_unknown hname hknown]

/-- A rearranged object is read the same by a reader of records. -/
theorem bind_fields?_rearranged {α : Type} {read : List Field → Option α}
    (hread : ∀ fields fields' : List Field, (∀ name, fields.lookup name = fields'.lookup name) →
      read fields = read fields')
    {known : List String} {allowed : Tree .value → Prop} {v v' : Tree .value}
    (h : RearrangedObject known allowed v v') :
    (v.fields? known).bind read = (v'.fields? known).bind read := by
  obtain ⟨ms, ms', hms, hms', h⟩ := h
  rw [Tree.fields?_of_members? hms, Tree.fields?_of_members? hms',
    bind_recordOf?_rearranged hread h]

theorem Content.ofTree?_rearranged {allowed : Tree .value → Prop} {v v' : Tree .value}
    (h : RearrangedObject contentFields allowed v v') : ofTree? v = ofTree? v' := by
  rw [ofTree?, ofTree?, Option.map_eq_bind, Option.map_eq_bind]
  refine bind_fields?_rearranged (fun fields fields' hlookup => ?_) h
  simp only [Function.comp_apply, sourceField, hlookup]

theorem Metrics.ofTree?_rearranged {allowed : Tree .value → Prop} {v v' : Tree .value}
    (h : RearrangedObject metricsFields allowed v v') : ofTree? v = ofTree? v' :=
  bind_fields?_rearranged (fun fields fields' hl => by simp only [optionalField?, hl]) h

/-! ### Stray bytes -/

namespace Json

/-- Where only texts come in, a stray byte stands in both objects or in neither. -/
theorem Tree.isText_iff_of_rearranged {known : List String} {v v' : Tree .value}
    (h : RearrangedObject known Tree.IsText v v') : v.IsText ↔ v'.IsText := by
  obtain ⟨ms, ms', hms, hms', h⟩ := h
  rw [Tree.isText_iff_of_members? hms, Tree.isText_iff_of_members? hms']
  cases h with
  | order h => simp only [h.mem_iff]
  | unknown front back hname _ hv =>
    have hnew := isTextMember_of_text? hname hv
    constructor
    · intro hall m hm
      rcases List.mem_cons.1 (List.perm_middle.mem_iff.1 hm) with rfl | hm
      · exact hnew
      · exact hall m hm
    · intro hall m hm
      exact hall m (List.perm_middle.mem_iff.2 (List.mem_cons_of_mem _ hm))

theorem Tree.source?_eq_none_iff {t : Tree .value} : t.source? = none ↔ ¬ t.IsText := by
  rw [Option.eq_none_iff_forall_ne_some]
  simp [Tree.source?_eq_some_iff]

end Json

/-! ### Fields within a body -/

section

variable {fields : List Field} {name other : String} {v v' : Tree .value}

theorem lookup_cons_self : ((name, v) :: fields).lookup name = some v := by
  rw [KeyMap.lookup_cons, if_pos rfl]

theorem lookup_cons_of_ne (h : other ≠ name) :
    ((name, v) :: fields).lookup other = fields.lookup other := by
  rw [KeyMap.lookup_cons, if_neg h]

/-- A value in place of another is seen under its own name only. -/
theorem lookup_cons_congr (other : String) (h : other ≠ name) :
    ((name, v) :: fields).lookup other = ((name, v') :: fields).lookup other := by
  rw [lookup_cons_of_ne h, lookup_cons_of_ne h]

theorem valueField?_cons_of_ne {n : Nat} (h : other ≠ name) :
    valueField? n ((name, v) :: fields) other = valueField? n fields other := by
  rw [valueField?, valueField?, lookup_cons_of_ne h]

theorem contentField?_cons_of_ne (h : other ≠ name) :
    contentField? ((name, v) :: fields) other = contentField? fields other := by
  rw [contentField?, contentField?, lookup_cons_of_ne h]

theorem metricsField?_cons_of_ne (h : other ≠ name) :
    metricsField? ((name, v) :: fields) other = metricsField? fields other := by
  rw [metricsField?, metricsField?, optionalField?, optionalField?, lookup_cons_of_ne h]

/-- Fields that are the same but for one name differ in what is read under that name. -/
theorem Configuration.ofFields?_congr_at (name : String) {n : Nat} {fields' : List Field}
    (hlookup : ∀ other, other ≠ name → fields.lookup other = fields'.lookup other)
    (htext : name ∈ textNames → textField? n fields name = textField? n fields' name)
    (hpriority : name = "priority" → priorityField? n fields = priorityField? n fields')
    (hcontent : name = "content" →
      contentField? fields "content" = contentField? fields' "content")
    (hlabels : name = "labels" → labelsField? n fields = labelsField? n fields')
    (hmetrics : name ∈ metricsNames → metricsField? fields name = metricsField? fields' name) :
    ofFields? n fields = ofFields? n fields' := by
  have hvalue : ∀ other, other ≠ name →
      valueField? n fields other = valueField? n fields' other := by
    intro other hother
    rw [valueField?, valueField?, hlookup other hother]
  refine ofFields?_congr ?_ ?_ ?_ ?_ ?_
  · intro other hother
    by_cases heq : other = name
    · subst heq
      exact htext hother
    · rw [textField?, textField?, hvalue other heq]
  · by_cases heq : name = "priority"
    · exact hpriority heq
    · rw [priorityField?, priorityField?, hvalue "priority" (Ne.symm heq)]
  · by_cases heq : name = "content"
    · exact hcontent heq
    · rw [contentField?, contentField?, hlookup "content" (Ne.symm heq)]
  · by_cases heq : name = "labels"
    · exact hlabels heq
    · rw [labelsField?, labelsField?, hvalue "labels" (Ne.symm heq)]
  · intro other hother
    by_cases heq : other = name
    · subst heq
      exact hmetrics hother
    · rw [metricsField?, metricsField?, optionalField?, optionalField?, hlookup other heq]

/-- Fields that are the same but for content. -/
theorem Configuration.ofFields?_congr_content {n : Nat} {fields' : List Field}
    (hlookup : ∀ other, other ≠ "content" → fields.lookup other = fields'.lookup other)
    (h : contentField? fields "content" = contentField? fields' "content") :
    ofFields? n fields = ofFields? n fields' :=
  ofFields?_congr_at "content" hlookup (fun hname => absurd hname (by decide))
    (fun hname => absurd hname (by decide)) (fun _ => h) (fun hname => absurd hname (by decide))
    fun hname => absurd hname (by decide)

/-- Fields that are the same but for metrics. -/
theorem Configuration.ofFields?_congr_metrics {n : Nat} {fields' : List Field}
    (hname : name ∈ metricsNames)
    (hlookup : ∀ other, other ≠ name → fields.lookup other = fields'.lookup other)
    (h : metricsField? fields name = metricsField? fields' name) :
    ofFields? n fields = ofFields? n fields' := by
  have hother : ∀ name ∈ metricsNames,
      name ∉ textNames ∧ name ≠ "priority" ∧ name ≠ "content" ∧ name ≠ "labels" := by decide
  obtain ⟨htext, hpriority, hcontent, hlabels⟩ := hother name hname
  exact ofFields?_congr_at name hlookup (fun heq => absurd heq htext)
    (fun heq => absurd heq hpriority) (fun heq => absurd heq hcontent)
    (fun heq => absurd heq hlabels) fun _ => h

/-- Content is read of what it holds, and refused for stray bytes in it. -/
theorem contentField?_congr (hread : Content.ofTree? v = Content.ofTree? v')
    (htext : v.IsText ↔ v'.IsText) : contentField? (("content", v) :: fields) "content" =
      contentField? (("content", v') :: fields) "content" := by
  simp only [contentField?, lookup_cons_self, hread]
  by_cases hv : v.IsText
  · rw [Tree.source?_of_isText hv, Tree.source?_of_isText (htext.1 hv)]
    rfl
  · rw [Tree.source?_eq_none_iff.2 hv, Tree.source?_eq_none_iff.2 (mt htext.2 hv)]

theorem contentField?_rearranged (h : RearrangedObject contentFields Tree.IsText v v') :
    contentField? (("content", v) :: fields) "content" =
      contentField? (("content", v') :: fields) "content" :=
  contentField?_congr (Content.ofTree?_rearranged h) (Tree.isText_iff_of_rearranged h)

theorem metricsField?_rearranged {allowed : Tree .value → Prop}
    (h : RearrangedObject metricsFields allowed v v') :
    metricsField? ((name, v) :: fields) name = metricsField? ((name, v') :: fields) name := by
  have hread := Metrics.ofTree?_rearranged h
  obtain ⟨ms, ms', hms, hms', -⟩ := h
  simp only [metricsField?, optionalField?, lookup_cons_self,
    Tree.optional?_of_members? hms, Tree.optional?_of_members? hms', hread]

end

/-! ### One edit -/

/-- The value of one field in place of another, where the configuration does not depend on it. -/
theorem Configuration.ofMembers?_replace {key : Literal} {v v' : Tree .value} {name : String}
    (front back : List Member) (hname : key.text? = some name)
    (hknown : name ∈ configurationFields)
    (h : ∀ fields, ofFields? (maxNesting - 1) ((name, v) :: fields) =
      ofFields? (maxNesting - 1) ((name, v') :: fields)) :
    ofMembers? (front ++ (key, v) :: back) = ofMembers? (front ++ (key, v') :: back) := by
  rw [ofMembers?, ofMembers?, bind_recordOf?_perm (fun _ _ => ofFields?_of_lookup) List.perm_middle,
    bind_recordOf?_perm (fun _ _ => ofFields?_of_lookup) List.perm_middle,
    recordOf?_cons_known hname hknown, recordOf?_cons_known hname hknown]
  cases recordOf? configurationFields (front ++ back) with
  | none => rfl
  | some fields =>
    rw [Option.bind_some, Option.bind_some]
    split
    · rfl
    · exact h fields

/-- A member that comes in, where the configuration depends on it in a known way. -/
theorem Configuration.ofMembers?_insert {key : Literal} {v : Tree .value} {name : String}
    (front back : List Member) (hname : key.text? = some name)
    (hknown : name ∈ configurationFields) (hnew : ∀ t, ¬HasMember (front ++ back) name t)
    {change : Configuration → Configuration}
    (h : ∀ fields, fields.lookup name = none → ofFields? (maxNesting - 1) ((name, v) :: fields) =
      (ofFields? (maxNesting - 1) fields).map change) :
    ofMembers? (front ++ (key, v) :: back) = (ofMembers? (front ++ back)).map change := by
  rw [ofMembers?, ofMembers?, bind_recordOf?_perm (fun _ _ => ofFields?_of_lookup) List.perm_middle,
    recordOf?_cons_new hname hknown hnew]
  cases hfields : recordOf? configurationFields (front ++ back) with
  | none => rfl
  | some fields =>
    have hlookup : fields.lookup name = none := by
      rw [Option.eq_none_iff_forall_ne_some]
      exact fun t ht => hnew t ((lookup_recordOf?_iff hfields hknown).1 ht)
    rw [Option.map_some, Option.bind_some, Option.bind_some, h fields hlookup]

/-- **One edit changes nothing.** -/
theorem Edit.ofMembers?_eq {ms ms' : List Member} (h : Edit ms ms') :
    Configuration.ofMembers? ms = Configuration.ofMembers? ms' := by
  cases h with
  | rearrange h =>
    exact bind_recordOf?_rearranged (fun _ _ => Configuration.ofFields?_of_lookup) h
  | content front back hname h =>
    exact Configuration.ofMembers?_replace front back hname (by decide) fun fields =>
      Configuration.ofFields?_congr_content lookup_cons_congr (contentField?_rearranged h)
  | metrics front back hname hmetrics h =>
    have hknown := mem_configurationFields_of_mem_metricsNames _ hmetrics
    exact Configuration.ofMembers?_replace front back hname hknown fun fields =>
      Configuration.ofFields?_congr_metrics hmetrics lookup_cons_congr
        (metricsField?_rearranged h)

/-! ### Any number of edits -/

namespace Configuration

theorem ofMembers?_eq_of_edits {ms ms' : List Member} (h : Relation.EqvGen Edit ms ms') :
    ofMembers? ms = ofMembers? ms' := by
  induction h with
  | rel _ _ h => exact h.ofMembers?_eq
  | refl _ => rfl
  | symm _ _ _ ih => exact ih.symm
  | trans _ _ _ _ _ ih ih' => exact ih.trans ih'

/-- **Any number of edits change nothing**, and neither do the gaps: what is read of two bodies is
the same, the configuration or the error. -/
theorem decode_eq_of_edits {body body' : Bytes} {ms ms' : List Member} (h : IsBodyOf body ms)
    (h' : IsBodyOf body' ms') (hedits : Relation.EqvGen Edit ms ms') :
    decode body = decode body' := by
  rw [decode_of_isBodyOf h, decode_of_isBodyOf h', ofMembers?_eq_of_edits hedits]

/-- A value that no reader of values takes: a number beyond all doubles and half a character. -/
def sampleUnknown : Tree .value :=
  .array (.item [] (.number ⟨"1e999".toList, by decide⟩) []
    (.lastItem [] (.string [.unit (.ofNat 13) (.ofNat 8) (.ofNat 0) (.ofNat 0)]) []))

/-- A member that nobody asked for. -/
def sampleStranger : Member := (Literal.ofText "ü", sampleUnknown)

/-- The members of a body: an id and content. -/
def sampleMembers : List Member :=
  [(Literal.ofText "id", .ofText "a"), (Literal.ofText "content", .objectOf [])]

/-- The same in another order and with more members, in content too. -/
def sampleEditedMembers : List Member :=
  [sampleStranger, (Literal.ofText "content", .objectOf [sampleStranger]),
    (Literal.ofText "id", .ofText "a")]

theorem edits_sample : Relation.EqvGen Edit sampleMembers sampleEditedMembers := by
  have hvalue : sampleUnknown.IsText := by
    rw [Tree.IsText]
    decide
  have hcontent : RearrangedObject contentFields Tree.IsText (.objectOf [])
      (.objectOf [sampleStranger]) :=
    ⟨_, _, Tree.members?_objectOf _, Tree.members?_objectOf _,
      .unknown [] [] (Literal.text?_ofText "ü") (by decide) hvalue⟩
  have inner : Edit sampleMembers _ :=
    .content [(Literal.ofText "id", .ofText "a")] [] (Literal.text?_ofText _) hcontent
  have order : Edit _ sampleEditedMembers := .rearrange (.order ((List.Perm.swap _ _ []).cons _))
  refine .trans _ _ _ (.rel _ _ inner) (.trans _ _ _ (.rel _ _ ?_) (.rel _ _ order))
  exact .rearrange (.unknown [] _ (Literal.text?_ofText _) (by decide) trivial)

theorem decode_eq_of_edits_sample :
    decode (utf8Bytes "\x7b\"id\":\"a\",\"content\":\x7b\x7d\x7d".toList) =
      decode (utf8Bytes (" \x7b\"ü\":[1e999,\"\\ud800\"],\"content\":" ++
        "\x7b\"ü\":[1e999,\"\\ud800\"]\x7d,\"id\":\"a\"\x7d\n").toList) := by
  have hbody : IsBodyOf (utf8Bytes "\x7b\"id\":\"a\",\"content\":\x7b\x7d\x7d".toList)
      sampleMembers :=
    ⟨⟨[], .objectOf sampleMembers, []⟩, by decide,
      Tree.members?_objectOf sampleMembers⟩
  have hedited : IsBodyOf (utf8Bytes (" \x7b\"ü\":[1e999,\"\\ud800\"],\"content\":" ++
      "\x7b\"ü\":[1e999,\"\\ud800\"]\x7d,\"id\":\"a\"\x7d\n").toList) sampleEditedMembers :=
    ⟨⟨[.space], .objectOf sampleEditedMembers, [.lineFeed]⟩, by decide,
      Tree.members?_objectOf sampleEditedMembers⟩
  exact decode_eq_of_edits hbody hedited edits_sample

end Configuration

end HubConfig
