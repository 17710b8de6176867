/-
**The form of metrics.**

Metrics are read strictly: counts must be integers of 64 bits and queries must be texts, each by
name, and where one value is not, nothing is read.  Within the limits on values this is all that can
be wrong with them.

Main definitions:

* `IsOptional`: what stands under a name is `null` or as it should be;
* `Tree.IsMetrics`: metrics as they should be;
* `Tree.IsTolerableMetrics`: metrics within the limits.

Main results:

* `exists_keyMap?_iff`: a map is read if each of its values is;
* `Metrics.exists_ofTree?_iff`: **metrics are read if they are as they should be**;
* `exists_metricsField?_iff`: or missing, or `null`.
-/

import HubConfig.Proofs.Integers
import HubConfig.Proofs.Ordinary

set_option autoImplicit false

namespace HubConfig

open HubConfig.Json

/-! ### Metrics as they should be -/

/-- What stands under a name, if anything does, is `null` or as it should be. -/
def IsOptional (p : Tree .value → Prop) (ms : List Member) (name : String) : Prop :=
  ∀ t, HasMember ms name t → t = .null ∨ p t

namespace Json

/-- An object whose values are all of one sort. -/
def Tree.IsMapOf (p : Tree .value → Prop) (t : Tree .value) : Prop :=
  ∃ ms, t.members? = some ms ∧ ∀ m ∈ ms, p m.2

/-- A string. -/
def Tree.IsString (t : Tree .value) : Prop := ∃ s, t = .string s

/-- Metrics as they should be: integers of 64 bits by name, and texts by name. -/
def Tree.IsMetrics (t : Tree .value) : Prop :=
  ∃ ms, t.members? = some ms ∧ IsOptional (IsMapOf IsInteger) ms "results" ∧
    IsOptional (IsMapOf IsString) ms "queries"

/-- Metrics within the limits, whether they are as they should be or not. -/
structure Tree.IsTolerableMetrics (t : Tree .value) : Prop where
  notArray : t.kind ≠ .array
  names : ∀ ms, t.members? = some ms → NamesAreTexts ms
  once : ∀ ms, t.members? = some ms → KnownOnce metricsFields ms
  ordinary : ∀ ms, t.members? = some ms → ∀ name ∈ metricsFields, ∀ u, HasMember ms name u →
    u.IsOrdinary

end Json

/-! ### When metrics are read -/

section

variable {α : Type} {read : Tree .value → Option α}

theorem exists_readEntries?_iff {fields : List Field} :
    (∃ es, readEntries? read fields = some es) ↔ ∀ f ∈ fields, ∃ a, read f.2 = some a := by
  induction fields with
  | nil => exact ⟨fun _ => nofun, fun _ => ⟨[], rfl⟩⟩
  | cons f fields ih =>
    simp only [readEntries?, Option.bind_eq_bind, Option.bind_eq_some_iff, List.forall_mem_cons,
      ← ih]
    constructor
    · rintro ⟨es, a, ha, rest, hrest, -⟩
      exact ⟨⟨a, ha⟩, rest, hrest⟩
    · rintro ⟨⟨a, ha⟩, rest, hrest⟩
      exact ⟨_, a, ha, rest, hrest, rfl⟩

theorem Json.Tree.entries?_of_members?_none {t : Tree .value} (h : t.members? = none) :
    t.entries? = none := by
  cases t with
  | emptyObject gap => cases h
  | object members => cases h
  | _ => rfl

/-- A map is read if each of its values is. -/
theorem exists_keyMap?_iff {t : Tree .value} (h : t.IsOrdinary) :
    (∃ m, t.keyMap? read = some m) ↔ t.IsMapOf fun u => ∃ a, read u = some a := by
  rw [Tree.keyMap?]
  cases hms : t.members? with
  | none =>
    rw [Tree.entries?_of_members?_none hms]
    constructor
    · rintro ⟨m, hm⟩
      cases hm
    · rintro ⟨ms, hms', -⟩
      rw [hms] at hms'
      cases hms'
  | some ms =>
    obtain ⟨fields, hfields, hvalues⟩ := exists_fieldsOf? fun m hm => (h.of_members? hms m hm).1
    have hread : (∃ es, readEntries? read fields = some es) ↔
        ∀ f ∈ fields, ∃ a, read f.2 = some a := exists_readEntries?_iff
    have hall : (∀ f ∈ fields, ∃ a, read f.2 = some a) ↔ ∀ m ∈ ms, ∃ a, read m.2 = some a := by
      have hmap := congrArg (fun us => ∀ u ∈ us, ∃ a, read u = some a) hvalues
      simpa only [List.forall_mem_map] using iff_of_eq hmap
    rw [Tree.entries?_of_members? hms, hfields, Tree.IsMapOf]
    simp only [Option.bind_eq_bind, Option.bind_some, Option.bind_eq_some_iff, Option.some.injEq,
      hms, exists_eq_left', ← hall, ← hread]
    constructor
    · rintro ⟨m, es, hes, -⟩
      exact ⟨es, hes⟩
    · rintro ⟨es, hes⟩
      exact ⟨_, es, hes, rfl⟩

theorem exists_optional?_iff {t : Tree .value} :
    (∃ v, t.optional? read = some v) ↔ t = .null ∨ ∃ a, read t = some a := by
  have hmap : ∀ x : Option α, (∃ v, x.map some = some v) ↔ ∃ a, x = some a := by
    intro x
    cases x <;> simp
  cases t with
  | null => exact ⟨fun _ => Or.inl rfl, fun _ => ⟨none, rfl⟩⟩
  | _ => simp only [Tree.optional?, hmap, reduceCtorEq, false_or]

/-- An optional field is read if what stands there is `null` or can be read. -/
theorem exists_optionalField?_iff {known : List String} {ms : List Member} {fields : List Field}
    (h : recordOf? known ms = some fields) {name : String} (hname : name ∈ known) :
    (∃ v, optionalField? read fields name = some v) ↔
      IsOptional (fun t => ∃ a, read t = some a) ms name := by
  simp only [IsOptional, ← lookup_recordOf?_iff h hname, optionalField?]
  cases fields.lookup name with
  | none => simp
  | some t => simp [exists_optional?_iff]

end

theorem isOptional_congr {p q : Tree .value → Prop} {ms : List Member} {name : String}
    (h : ∀ t, HasMember ms name t → (p t ↔ q t)) : IsOptional p ms name ↔ IsOptional q ms name :=
  forall_congr' fun t => forall_congr' fun ht => or_congr_right (h t ht)

theorem Json.Tree.IsMapOf.congr {p q : Tree .value → Prop} {t : Tree .value} (h : t.IsOrdinary)
    (hpq : ∀ u : Tree .value, u.IsOrdinary → (p u ↔ q u)) : t.IsMapOf p ↔ t.IsMapOf q := by
  refine exists_congr fun ms => and_congr_right fun hms => ?_
  exact forall_congr' fun m => forall_congr' fun hm => hpq m.2 (h.of_members? hms m hm).2

theorem Json.Tree.exists_text?_iff {t : Tree .value} (h : t.IsOrdinary) :
    (∃ s, t.text? = some s) ↔ t.IsString := by
  cases t with
  | string s => exact ⟨fun _ => ⟨s, rfl⟩, fun _ => Option.isSome_iff_exists.1 h⟩
  | _ => simp [text?, IsString]

theorem Json.Tree.fields?_eq_none {known : List String} {t : Tree .value}
    (hms : t.members? = none) (harray : t.kind ≠ .array) : t.fields? known = none := by
  cases t with
  | emptyObject gap => cases hms
  | object members => cases hms
  | emptyArray gap => exact absurd rfl harray
  | array items => exact absurd rfl harray
  | _ => rfl

/-- An optional map is read if what stands there is `null` or a map of such values. -/
theorem exists_mapField?_iff {α : Type} {read : Tree .value → Option α} {p : Tree .value → Prop}
    {known : List String} {ms : List Member} {fields : List Field}
    (h : recordOf? known ms = some fields) {name : String} (hname : name ∈ known)
    (hordinary : ∀ t, HasMember ms name t → t.IsOrdinary)
    (hread : ∀ u : Tree .value, u.IsOrdinary → ((∃ a, read u = some a) ↔ p u)) :
    (∃ v, optionalField? (Tree.keyMap? read) fields name = some v) ↔
      IsOptional (Tree.IsMapOf p) ms name := by
  rw [exists_optionalField?_iff h hname]
  refine isOptional_congr fun t ht => ?_
  rw [exists_keyMap?_iff (hordinary t ht)]
  exact Tree.IsMapOf.congr (hordinary t ht) hread

/-- **Metrics are read if they are as they should be.** -/
theorem Metrics.exists_ofTree?_iff {t : Tree .value} (h : t.IsTolerableMetrics) :
    (∃ m, ofTree? t = some m) ↔ t.IsMetrics := by
  cases hms : t.members? with
  | none =>
    rw [ofTree?, Tree.fields?_eq_none hms h.notArray]
    constructor
    · rintro ⟨m, hm⟩
      cases hm
    · rintro ⟨ms, hms', -⟩
      rw [hms] at hms'
      cases hms'
  | some ms =>
    obtain ⟨fields, hfields⟩ := exists_recordOf? (h.names ms hms) (h.once ms hms)
    have hresults : (∃ v, optionalField? (Tree.keyMap? Tree.int64?) fields "results" = some v) ↔
        IsOptional (Tree.IsMapOf Tree.IsInteger) ms "results" :=
      exists_mapField?_iff hfields (by decide) (h.ordinary ms hms "results" (by decide))
        fun u _ => Tree.exists_int64?_iff
    have hqueries : (∃ v, optionalField? (Tree.keyMap? Tree.text?) fields "queries" = some v) ↔
        IsOptional (Tree.IsMapOf Tree.IsString) ms "queries" :=
      exists_mapField?_iff hfields (by decide) (h.ordinary ms hms "queries" (by decide))
        fun u hu => Tree.exists_text?_iff hu
    have hrecord : t.fields? ["results", "queries"] = some fields :=
      (Tree.fields?_of_members? hms).trans hfields
    rw [ofTree?, hrecord, Tree.IsMetrics]
    simp only [Option.bind_eq_bind, Option.bind_some, Option.bind_eq_some_iff, hms,
      Option.some.injEq, exists_eq_left', ← hresults, ← hqueries]
    constructor
    · rintro ⟨m, results, hr, queries, hq, -⟩
      exact ⟨⟨results, hr⟩, queries, hq⟩
    · rintro ⟨⟨results, hr⟩, queries, hq⟩
      exact ⟨_, results, hr, queries, hq, rfl⟩

theorem exists_metricsField?_iff {ms : List Member} {fields : List Field}
    (hfields : recordOf? configurationFields ms = some fields) {name : String}
    (hname : name ∈ configurationFields)
    (h : ∀ t, HasMember ms name t → t.IsTolerableMetrics) :
    (∃ m, metricsField? fields name = some m) ↔ IsOptional Tree.IsMetrics ms name := by
  have hread : (∃ v, optionalField? Metrics.ofTree? fields name = some v) ↔
      IsOptional (fun t => ∃ m, Metrics.ofTree? t = some m) ms name :=
    exists_optionalField?_iff hfields hname
  rw [← isOptional_congr fun t ht => Metrics.exists_ofTree?_iff (h t ht), ← hread, metricsField?]
  cases optionalField? Metrics.ofTree? fields name <;> simp

end HubConfig
