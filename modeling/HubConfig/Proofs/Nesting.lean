/-
**How deep a configuration nests.**

Where a field is read for its meaning, arrays and objects may stand within each other only to a
bounded depth.  How much is allowed depends on what stands around the record, but what is read does
not: a field is read in the same way wherever its depth is allowed, and not at all elsewhere.

Main definitions:

* `Tree.depth`: how many arrays and objects stand within each other;
* `valueFields`: the fields of a configuration that are read for their meaning.

Main results:

* `Tree.depth_le_of_valueWith`: what has a value is no deeper than allowed;
* `Tree.valueWith_of_depth_le`: within that, its value does not depend on what is allowed;
* `Configuration.ofFields?_succ_iff`: **one level less is the same reading of fields that spare
  one**.
-/

import HubConfig.Configuration.Decode

set_option autoImplicit false

namespace HubConfig

namespace Json

/-! ### Depth -/

/-- How many arrays and objects stand within each other. -/
def Tree.depth : {s : Shape} → Tree s → Nat
  | _, .emptyArray _ => 1
  | _, .array items => items.depth + 1
  | _, .emptyObject _ => 1
  | _, .object members => members.depth + 1
  | _, .lastItem _ v _ => v.depth
  | _, .item _ v _ rest => max v.depth rest.depth
  | _, .lastMember _ _ v _ => v.depth
  | _, .member _ _ v _ rest => max v.depth rest.depth
  | _, _ => 0

theorem Tree.depth_of_onlyText? {t : Tree .members} {text : String} (h : t.onlyText? = some text) :
    t.depth = 0 := by
  cases t with
  | lastMember key before v after =>
    cases v with
    | string s => rfl
    | _ => cases h
  | member => cases h

/-- What has a value is no deeper than allowed. -/
theorem Tree.depth_le_of_valueWith {embedded : String → Option Value} {s : Shape} {t : Tree s}
    {nesting : Nat} {v : s.Reading} (h : t.valueWith embedded nesting = some v) :
    t.depth ≤ nesting := by
  induction t generalizing nesting with
  | null => exact Nat.zero_le _
  | bool b => exact Nat.zero_le _
  | number n => exact Nat.zero_le _
  | string s => exact Nat.zero_le _
  | emptyArray gap =>
    cases nesting with
    | zero => cases h
    | succ nesting => exact Nat.succ_le_succ (Nat.zero_le _)
  | array items ih =>
    cases nesting with
    | zero => cases h
    | succ nesting =>
      obtain ⟨vs, hvs, -⟩ := Option.map_eq_some_iff.1 h
      exact Nat.succ_le_succ (ih hvs)
  | emptyObject gap =>
    cases nesting with
    | zero => cases h
    | succ nesting => exact Nat.succ_le_succ (Nat.zero_le _)
  | object members ih =>
    cases nesting with
    | zero => cases h
    | succ nesting =>
      rw [Tree.valueWith] at h
      split at h
      · -- A text held in a string is a string to the object that holds it.
        obtain ⟨text, htext, -⟩ := Option.bind_eq_some_iff.1 h
        rw [Tree.depth, Tree.depth_of_onlyText? htext]
        exact Nat.succ_le_succ (Nat.zero_le _)
      · obtain ⟨vs, hvs, -⟩ := Option.map_eq_some_iff.1 h
        exact Nat.succ_le_succ (ih hvs)
  | lastItem before t after ih =>
    obtain ⟨w, hw, -⟩ := Option.map_eq_some_iff.1 h
    exact ih hw
  | item before t after rest iht ihr =>
    simp only [Tree.valueWith, Option.bind_eq_bind, Option.bind_eq_some_iff] at h
    obtain ⟨w, hw, ws, hws, -⟩ := h
    exact Nat.max_le.2 ⟨iht hw, ihr hws⟩
  | lastMember key before t after ih =>
    simp only [Tree.valueWith, Option.bind_eq_bind, Option.bind_eq_some_iff] at h
    obtain ⟨name, -, w, hw, -⟩ := h
    exact ih hw
  | member key before t after rest iht ihr =>
    simp only [Tree.valueWith, Option.bind_eq_bind, Option.bind_eq_some_iff] at h
    obtain ⟨name, -, w, hw, ws, hws, -⟩ := h
    exact Nat.max_le.2 ⟨iht hw, ihr hws⟩

/-- Within what is allowed, a value does not depend on it. -/
theorem Tree.valueWith_of_depth_le (embedded : String → Option Value) {s : Shape} {t : Tree s}
    {n m : Nat} (hn : t.depth ≤ n) (hm : t.depth ≤ m) :
    t.valueWith embedded n = t.valueWith embedded m := by
  induction t generalizing n m with
  | null => simp only [Tree.valueWith]
  | bool b => simp only [Tree.valueWith]
  | number k => simp only [Tree.valueWith]
  | string s => simp only [Tree.valueWith]
  | emptyArray gap =>
    obtain ⟨n, rfl⟩ := Nat.exists_eq_add_of_le' hn
    obtain ⟨m, rfl⟩ := Nat.exists_eq_add_of_le' hm
    rfl
  | array items ih =>
    obtain ⟨n, rfl⟩ := Nat.exists_eq_add_of_le' (Nat.le_trans (Nat.le_add_left 1 _) hn)
    obtain ⟨m, rfl⟩ := Nat.exists_eq_add_of_le' (Nat.le_trans (Nat.le_add_left 1 _) hm)
    simp only [Tree.valueWith, ih (Nat.le_of_succ_le_succ hn) (Nat.le_of_succ_le_succ hm)]
  | emptyObject gap =>
    obtain ⟨n, rfl⟩ := Nat.exists_eq_add_of_le' hn
    obtain ⟨m, rfl⟩ := Nat.exists_eq_add_of_le' hm
    rfl
  | object members ih =>
    obtain ⟨n, rfl⟩ := Nat.exists_eq_add_of_le' (Nat.le_trans (Nat.le_add_left 1 _) hn)
    obtain ⟨m, rfl⟩ := Nat.exists_eq_add_of_le' (Nat.le_trans (Nat.le_add_left 1 _) hm)
    simp only [Tree.valueWith, ih (Nat.le_of_succ_le_succ hn) (Nat.le_of_succ_le_succ hm)]
  | lastItem before t after ih => simp only [Tree.valueWith, ih hn hm]
  | item before t after rest iht ihr =>
    obtain ⟨hn, hn'⟩ := Nat.max_le.1 hn
    obtain ⟨hm, hm'⟩ := Nat.max_le.1 hm
    simp only [Tree.valueWith, iht hn hm, ihr hn' hm']
  | lastMember key before t after ih => simp only [Tree.valueWith, ih hn hm]
  | member key before t after rest iht ihr =>
    obtain ⟨hn, hn'⟩ := Nat.max_le.1 hn
    obtain ⟨hm, hm'⟩ := Nat.max_le.1 hm
    simp only [Tree.valueWith, iht hn hm, ihr hn' hm']

end Json

open HubConfig.Json

/-! ### Fields -/

/-- The fields of a configuration that are read for their meaning. -/
def valueFields : List String :=
  ["id", "schemaVersion", "contentType", "targetCondition", "createdTimeUtc", "lastUpdatedTimeUtc",
    "etag", "priority", "labels"]

/-- The fields of a configuration that are read for their meaning nest at most so deep. -/
def FieldsWithin (depth : Nat) (fields : List Field) : Prop :=
  ∀ name ∈ valueFields, ∀ t, fields.lookup name = some t → t.depth ≤ depth

theorem depth_le_of_valueField? {nesting : Nat} {fields : List Field} {name : String} {v : Value}
    (h : valueField? nesting fields name = some v) {t : Tree .value}
    (ht : fields.lookup name = some t) : t.depth ≤ nesting := by
  rw [valueField?, ht] at h
  exact Tree.depth_le_of_valueWith h

theorem valueField?_of_fieldsWithin {n m : Nat} {fields : List Field} {name : String}
    (hname : name ∈ valueFields) (hn : FieldsWithin n fields) (hm : FieldsWithin m fields) :
    valueField? n fields name = valueField? m fields name := by
  rw [valueField?, valueField?]
  cases ht : fields.lookup name with
  | none => rfl
  | some t => exact Tree.valueWith_of_depth_le _ (hn name hname t ht) (hm name hname t ht)

namespace Configuration

/-- Every field that is read for its meaning has one. -/
theorem exists_valueField? {nesting : Nat} {fields : List Field} {c : Configuration}
    (h : ofFields? nesting fields = some c) {name : String} (hname : name ∈ valueFields) :
    ∃ v, valueField? nesting fields name = some v := by
  obtain ⟨id, version, type, condition, made, changed, etag, priority, -, labels, -, -, hid, hversion,
    htype, hcondition, hmade, hchanged, hetag, hpriority, -, hlabels, -⟩ := ofFields?_eq_some_iff.1 h
  simp only [valueFields, List.mem_cons, List.not_mem_nil, or_false] at hname
  rcases hname with rfl | rfl | rfl | rfl | rfl | rfl | rfl | rfl | rfl
  · exact ⟨id, hid⟩
  · exact ⟨version, hversion⟩
  · exact ⟨type, htype⟩
  · exact ⟨condition, hcondition⟩
  · exact ⟨made, hmade⟩
  · exact ⟨changed, hchanged⟩
  · exact ⟨etag, hetag⟩
  · exact ⟨priority, hpriority⟩
  · exact ⟨labels, hlabels⟩

theorem fieldsWithin_of_ofFields? {nesting : Nat} {fields : List Field} {c : Configuration}
    (h : ofFields? nesting fields = some c) : FieldsWithin nesting fields := by
  intro name hname t ht
  obtain ⟨v, hv⟩ := exists_valueField? h hname
  exact depth_le_of_valueField? hv ht

/-- Fields that nest no deeper than allowed are read in one way. -/
theorem ofFields?_of_fieldsWithin {n m : Nat} {fields : List Field} (hn : FieldsWithin n fields)
    (hm : FieldsWithin m fields) : ofFields? n fields = ofFields? m fields := by
  have same : ∀ name ∈ valueFields, valueField? n fields name = valueField? m fields name :=
    fun name hname => valueField?_of_fieldsWithin hname hn hm
  simp only [valueFields, List.forall_mem_cons] at same
  obtain ⟨h1, h2, h3, h4, h5, h6, h7, h8, h9, -⟩ := same
  simp only [ofFields?, h1, h2, h3, h4, h5, h6, h7, h8, h9]

/-- **One level less is the same reading of fields that spare one.** -/
theorem ofFields?_succ_iff {n : Nat} {fields : List Field} {c : Configuration} :
    ofFields? n fields = some c ↔ ofFields? (n + 1) fields = some c ∧ FieldsWithin n fields := by
  have widen : FieldsWithin n fields → FieldsWithin (n + 1) fields :=
    fun h name hname t ht => Nat.le_succ_of_le (h name hname t ht)
  constructor
  · intro h
    have hn := fieldsWithin_of_ofFields? h
    exact ⟨ofFields?_of_fieldsWithin hn (widen hn) ▸ h, hn⟩
  · rintro ⟨h, hn⟩
    exact ofFields?_of_fieldsWithin hn (widen hn) ▸ h

end Configuration

end HubConfig
