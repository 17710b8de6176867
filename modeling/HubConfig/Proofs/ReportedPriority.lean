/-
**Priorities as they are reported.**

A priority comes as a number or as a text.  Each is read in its own way: a number through the
integers of 64 bits, or through the doubles if it is none of them; a text by the integer it begins
with.  A number that is spelled as an integer comes to the same either way.

Main definitions:

* `Number.IsIntegral`: numbers that are spelled as integers.

Main results:

* `priorityOfValue_number`: **such a number reads as the text that spells it**;
* `Configuration.ofFields?_priority`: what a priority adds to a configuration;
* `Configuration.decode_priority`: **the priority of a configuration by its text**.
-/

import HubConfig.Proofs.Edits
import HubConfig.Proofs.Integers
import HubConfig.Proofs.LeadingInteger

set_option autoImplicit false

namespace HubConfig

open HubConfig.Text HubConfig.Json

/-! ### Numbers that are spelled as integers -/

/-- A number without a point and without an exponent. -/
def Json.Number.IsIntegral (n : Number) : Prop :=
  n.numeral.fraction = [] ∧ n.numeral.exponent = none

/-- A number that is spelled as an integer is a sign and digits. -/
theorem Json.Number.lexeme_of_isIntegral {n : Number} (h : n.IsIntegral) :
    n.lexeme = (if n.numeral.negative then ['-'] else []) ++
      Nat.toDigits 10 (digitsValue n.numeral.whole) := by
  have hread : Numeral.ofLexeme? n.lexeme = some n.numeral := (Option.some_get _).symm
  unfold Numeral.ofLexeme? at hread
  split at hread
  · next cs hcs =>
    obtain ⟨hnegative, hdigits⟩ := toDigits_of_ofUnsigned? hread h.1 h.2
    rw [hcs, hdigits, hnegative]
    rfl
  · obtain ⟨hnegative, hdigits⟩ := toDigits_of_ofUnsigned? hread h.1 h.2
    rw [hdigits, hnegative]
    rfl

/-- The parts of such a spelling. -/
theorem Json.Number.isCut_lexeme {n : Number} (h : n.IsIntegral) :
    IsCut n.lexeme [] (if n.numeral.negative then ['-'] else [])
      (Nat.toDigits 10 (digitsValue n.numeral.whole)) [] := by
  have hdigits := isDigit_of_mem_toDigits (n := digitsValue n.numeral.whole)
  refine ⟨?_, isBlank_nil, ?_, hdigits, ?_, ?_, nofun⟩
  · rw [List.nil_append, List.append_nil, lexeme_of_isIntegral h]
  · split
    · exact Or.inr (Or.inr rfl)
    · exact Or.inl rfl
  · intro c hc
    rw [List.append_nil] at hc
    split at hc
    · cases hc
      decide
    · have hdigit := hdigits c (List.mem_of_mem_head? hc)
      exact isWhiteSpace_of_isNumberChar (by rw [isNumberChar, hdigit]; rfl)
  · intro _ c hc
    rw [List.append_nil] at hc
    have hc := hdigits c (List.mem_of_mem_head? hc)
    refine ⟨?_, ?_⟩ <;>
    · rintro rfl
      revert hc
      decide

/-- Past the integers of 64 bits, and at minus zero, nothing is left of thirty-two bits either. -/
theorem Json.Number.getD_integer? {n : Number} (h : n.IsIntegral) :
    (n.integer?.map boundedInt32).getD 0 =
      boundedInt32 (onSide n.numeral.negative (digitsValue n.numeral.whole)) := by
  have hplain : n.numeral.fraction = [] ∧ n.numeral.exponent = none := h
  rw [Number.integer?, Numeral.integer?]
  simp only [if_pos hplain]
  generalize digitsValue n.numeral.whole = m
  cases n.numeral.negative with
  | false =>
    rw [if_neg Bool.false_ne_true, onSide, if_neg Bool.false_ne_true]
    split
    · rw [Option.map_some, Option.getD_some]
    · rw [boundedInt32, if_neg (by omega)]
      rfl
  | true =>
    rw [if_pos rfl, onSide, if_pos rfl]
    split
    · rfl
    · next hout =>
      by_cases hzero : m = 0
      · subst hzero
        rfl
      · rw [boundedInt32, if_neg (by omega)]
        rfl

/-- **A number that is spelled as an integer reads as the text that spells it.** -/
theorem priorityOfValue_number {n : Number} (h : n.IsIntegral) :
    priorityOfValue (.number n) = priorityOfText (String.ofList n.lexeme) := by
  have hcut := Number.isCut_lexeme h
  rw [← String.toList_ofList (l := n.lexeme)] at hcut
  have hside : ((if n.numeral.negative then ['-'] else []) == ['-']) = n.numeral.negative := by
    cases n.numeral.negative <;> rfl
  rw [priorityOfText_eq hcut, signedNumber_eq, digitsValue_toDigits, hside]
  exact Number.getD_integer? h

theorem Json.Tree.eq_number_of_value? {n : Number} {nesting : Nat} {w : Value}
    (h : Tree.value? nesting (.number n) = some w) : w = .number n := by
  rw [Tree.value?, Tree.valueWith] at h
  split at h
  · exact (Option.some.inj h).symm
  · cases h

/-! ### The priority of a configuration -/

/-- What changes each outcome of a second step changes the outcome of both. -/
theorem bind_eq_map_bind {α β : Type} {x : Option α} {f g : α → Option β} {change : β → β}
    (h : ∀ a, g a = (f a).map change) : x.bind g = (x.bind f).map change := by
  cases x with
  | none => rfl
  | some a => exact h a

namespace Configuration

section

variable {n : Nat} {fields : List Field} {v : Tree .value} {w : Value}

/-- **What a priority adds to a configuration.** -/
theorem ofFields?_priority (hnew : fields.lookup "priority" = none) (hv : v.value? n = some w) :
    ofFields? n (("priority", v) :: fields) =
      (ofFields? n fields).map fun c => { c with priority := priorityOfValue w } := by
  have hother : ∀ name, name ∈ textNames ∨ name ∈ metricsNames → name ≠ "priority" := by
    rintro name (hname | hname) rfl <;> revert hname <;> decide
  have htext : ∀ name ∈ textNames,
      textField? n (("priority", v) :: fields) name = textField? n fields name := by
    intro name hname
    rw [textField?, textField?, valueField?_cons_of_ne (hother name (Or.inl hname))]
  have hpriority : priorityField? n (("priority", v) :: fields) = some (priorityOfValue w) := by
    rw [priorityField?, valueField?, lookup_cons_self]
    simp only [hv, Option.map_some]
  have hzero : priorityField? n fields = some 0 := by
    rw [priorityField?, valueField?, hnew]
    rfl
  have hcontent : contentField? (("priority", v) :: fields) "content" =
      contentField? fields "content" := contentField?_cons_of_ne (by decide)
  have hlabels : labelsField? n (("priority", v) :: fields) = labelsField? n fields := by
    rw [labelsField?, labelsField?, valueField?_cons_of_ne (by decide)]
  have hmetrics : ∀ name ∈ metricsNames,
      metricsField? (("priority", v) :: fields) name = metricsField? fields name :=
    fun name hname => metricsField?_cons_of_ne (hother name (Or.inr hname))
  simp only [textNames, List.forall_mem_cons] at htext
  simp only [metricsNames, List.forall_mem_cons] at hmetrics
  obtain ⟨h1, h2, h3, h4, h5, h6, h7, -⟩ := htext
  obtain ⟨h8, h9, -⟩ := hmetrics
  rw [ofFields?_eq, ofFields?_eq, h1, h2, h3, h4, h5, h6, h7, hpriority, hzero, hcontent, hlabels,
    h8, h9]
  -- Seven fields are read before the priority, and four behind it.
  iterate 7 refine bind_eq_map_bind fun _ => ?_
  rw [Option.bind_eq_bind, Option.bind_some, Option.bind_eq_bind, Option.bind_some]
  iterate 4 refine bind_eq_map_bind fun _ => ?_
  rfl

/-- Two values with one priority may stand for each other. -/
theorem ofFields?_priority_congr {v' : Tree .value} {w' : Value} (hv : v.value? n = some w)
    (hv' : v'.value? n = some w') (h : priorityOfValue w = priorityOfValue w') :
    ofFields? n (("priority", v) :: fields) = ofFields? n (("priority", v') :: fields) := by
  refine ofFields?_congr_at "priority" lookup_cons_congr (fun hname => absurd hname (by decide))
    (fun _ => ?_) (fun hname => absurd hname (by decide)) (fun hname => absurd hname (by decide))
    fun hname => absurd hname (by decide)
  rw [priorityField?, priorityField?, valueField?, valueField?, lookup_cons_self, lookup_cons_self]
  simp only [hv, hv', Option.map_some, h]

end

/-- A priority that is read is the one that stands in the body. -/
theorem priority_of_decode {ms : List Member} {v : Tree .value} {body : Bytes} {c : Configuration}
    (hbody : IsBodyOf body ms) (hmem : HasMember ms "priority" v) (h : decode body = .ok c) :
    ∃ w, v.value? (maxNesting - 1) = some w ∧ c.priority = priorityOfValue w := by
  obtain ⟨fields, hfields, hc⟩ := exists_fields_of_decode hbody h
  have hlookup := (lookup_recordOf?_iff hfields (by decide)).2 hmem
  have hpriority := priorityField?_of_ofFields? hc
  rw [priorityField?, valueField?, hlookup] at hpriority
  obtain ⟨w, hw, hvalue⟩ := Option.map_eq_some_iff.1 hpriority
  exact ⟨w, hw, hvalue.symm⟩

/-- **The priority of a configuration by its text.**  It is the integer that the text begins with,
or zero; no slice of the text fails; nothing else of the configuration depends on it; and a number
that is spelled by the text gives the same configuration. -/
theorem decode_priority {key : Literal} (hkey : key.text? = some "priority")
    {front back : List Member} {lit : Literal} {s : String} (hlit : lit.text? = some s)
    {body : Bytes} (hbody : IsBodyOf body (front ++ (key, .string lit) :: back)) :
    ∃ (p : Int32) (blank sign digits rest : List Char), IsCut s.toList blank sign digits rest ∧
      slicedPriority? s.toList = some p ∧
      p.toInt = (if digits ≠ [] ∧ -2 ^ 31 ≤ signedNumber sign digits ∧
        signedNumber sign digits < 2 ^ 31 then signedNumber sign digits else 0) ∧
      (∀ c, decode body = .ok c → c.priority = p) ∧
      (∀ other, IsBodyOf other (front ++ back) →
        (∀ t, ¬HasMember (front ++ back) "priority" t) →
        decode body = (decode other).map fun c => { c with priority := p }) ∧
      ∀ (n : Number) (numbered : Bytes) (c : Configuration), n.IsIntegral →
        s = String.ofList n.lexeme → IsBodyOf numbered (front ++ (key, .number n) :: back) →
        decode numbered = .ok c → decode body = .ok c := by
  obtain ⟨blank, sign, digits, rest, hcut⟩ := exists_isCut s.toList
  have hvalue : Tree.value? (maxNesting - 1) (.string lit) = some (.string s) := by
    rw [Tree.value?_string, hlit, Option.map_some]
  refine ⟨priorityOfText s, blank, sign, digits, rest, hcut, slicedPriority?_eq s,
    toInt_priorityOfText hcut, ?_, ?_, ?_⟩
  · intro c hc
    have hmem : HasMember (front ++ (key, .string lit) :: back) "priority" (.string lit) :=
      ⟨key, hkey, List.mem_append_right front List.mem_cons_self⟩
    obtain ⟨w, hw, hpriority⟩ := priority_of_decode hbody hmem hc
    obtain rfl := Option.some.inj (hvalue.symm.trans hw)
    exact hpriority
  · intro other hother hnew
    have hinsert := ofMembers?_insert front back hkey (by decide) hnew
      fun fields hnone => ofFields?_priority hnone hvalue
    rw [decode_of_isBodyOf hbody, decode_of_isBodyOf hother, hinsert]
    cases ofMembers? (front ++ back) <;> rfl
  · intro n numbered c hn hs hnumbered hc
    have hmem : HasMember (front ++ (key, .number n) :: back) "priority" (.number n) :=
      ⟨key, hkey, List.mem_append_right front List.mem_cons_self⟩
    obtain ⟨w, hw, -⟩ := priority_of_decode hnumbered hmem hc
    obtain rfl := Tree.eq_number_of_value? hw
    have hsame : priorityOfValue (.string s) = priorityOfValue (.number n) := by
      rw [priorityOfValue_number hn, ← hs]
      rfl
    rw [← hc, decode_of_isBodyOf hbody, decode_of_isBodyOf hnumbered,
      ofMembers?_replace front back hkey (by decide)
        fun fields => ofFields?_priority_congr hvalue hw hsame]

/-- A member in front of a priority. -/
def sampleFront : List Member := [(Literal.ofText "id", .string (Literal.ofText "a"))]

/-- A body with the priority in quotes. -/
def sampleQuoted : Bytes := utf8Bytes "\x7b\"id\":\"a\",\"priority\":\"-12\"\x7d".toList

/-- A body with the same priority as a number. -/
def sampleNumbered : Bytes := utf8Bytes "\x7b\"id\":\"a\",\"priority\":-12\x7d".toList

/-- A body without it. -/
def sampleUnset : Bytes := utf8Bytes "\x7b\"id\":\"a\"\x7d".toList

theorem decode_priority_sample :
    ∃ p : Int32,
      decode sampleQuoted = (decode sampleUnset).map (fun c => { c with priority := p }) ∧
      ∃ c, decode sampleNumbered = .ok c ∧ decode sampleQuoted = .ok c := by
  have hnew : ∀ t, ¬HasMember (sampleFront ++ []) "priority" t := by
    intro t ht
    obtain ⟨hname, -⟩ := hasMember_singleton_iff.1 ht
    exact absurd hname (by decide)
  have hquoted : IsBodyOf sampleQuoted (sampleFront ++
      (Literal.ofText "priority", .string (Literal.ofText "-12")) :: []) :=
    ⟨⟨[], .objectOf _, []⟩, by decide, Tree.members?_objectOf _⟩
  have hnumbered : IsBodyOf sampleNumbered (sampleFront ++
      (Literal.ofText "priority", .number (Number.ofInt (-12))) :: []) :=
    ⟨⟨[], .objectOf _, []⟩, by decide, Tree.members?_objectOf _⟩
  have hunset : IsBodyOf sampleUnset (sampleFront ++ []) :=
    ⟨⟨[], .objectOf _, []⟩, by decide, Tree.members?_objectOf _⟩
  obtain ⟨p, -, -, -, -, -, -, -, -, hadd, hsame⟩ := decode_priority
    (Literal.text?_ofText "priority") (Literal.text?_ofText "-12") hquoted
  have hread : decode sampleNumbered =
      .ok { Configuration.empty with id := "a", priority := -12 } := by decide +kernel
  have hintegral : (Number.ofInt (-12)).IsIntegral := by
    rw [Number.IsIntegral]
    decide
  exact ⟨p, hadd _ hunset hnew, _, hread, hsame _ _ _ hintegral rfl hnumbered hread⟩

end Configuration

end HubConfig
