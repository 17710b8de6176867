/-
**The members of an object.**

An object is its members, as they are spelled, with gaps between them.  What their names spell, what
stands under a name and whether a stray byte stands anywhere are questions about the members alone.

Main definitions:

* `Tree.members?`: the members of an object as they are spelled;
* `Tree.objectOf`: the object of given members, without gaps;
* `fieldsOf?`: members by the text of their names;
* `HasMember`, `NamesAreTexts`: what stands in an object.

Main results:

* `Tree.entries?_of_members?`: the entries of an object are its members by the text of their names;
* `fieldsOf?_perm`: in any order;
* `Tree.isText_iff_of_members?`: a stray byte of an object stands in one of its members.
-/

import HubConfig.Proofs.Source

set_option autoImplicit false

namespace HubConfig.Json

/-! ### Members -/

/-- A member as it is spelled. -/
abbrev Member := Literal × Tree .value

/-- The members of an object. -/
def Tree.members? : Tree .value → Option (List Member)
  | .emptyObject _ => some []
  | .object members => some members.pairs
  | _ => none

/-- Members by the text of their names, if every name spells one. -/
def fieldsOf? : List Member → Option (List Field)
  | [] => some []
  | m :: ms => do
      let name ← m.1.text?
      let fields ← fieldsOf? ms
      some ((name, m.2) :: fields)

theorem Tree.named?_eq : (t : Tree .members) → t.named? = fieldsOf? t.pairs
  | .lastMember key before v after => by
    simp only [named?, pairs, fieldsOf?, Option.bind_eq_bind, Option.bind_some]
    cases key.name.text? <;> rfl
  | .member key before v after rest => by
    simp only [named?, pairs, fieldsOf?, rest.named?_eq]

theorem Tree.entries?_of_members? {t : Tree .value} {ms : List Member}
    (h : t.members? = some ms) : t.entries? = fieldsOf? ms := by
  cases t with
  | emptyObject gap => cases h; rfl
  | object members => cases h; exact members.named?_eq
  | _ => cases h

theorem Tree.optional?_of_members? {α : Type} {read : Tree .value → Option α} {t : Tree .value}
    {ms : List Member} (h : t.members? = some ms) : t.optional? read = (read t).map some := by
  cases t with
  | null => cases h
  | _ => rfl

/-! ### Objects of members -/

/-- The object of given members, without gaps. -/
def Tree.objectOf : List Member → Tree .value
  | [] => .emptyObject []
  | m :: ms => .object (chain m ms)
where
  /-- Members one after another. -/
  chain : Member → List Member → Tree .members
    | m, [] => .lastMember ⟨[], m.1, []⟩ [] m.2 []
    | m, m' :: ms => .member ⟨[], m.1, []⟩ [] m.2 [] (chain m' ms)

theorem Tree.pairs_chain (m : Member) (ms : List Member) :
    (Tree.objectOf.chain m ms).pairs = m :: ms := by
  induction ms generalizing m with
  | nil => rfl
  | cons m' ms ih => rw [objectOf.chain, pairs, ih]

@[simp] theorem Tree.members?_objectOf (ms : List Member) :
    (Tree.objectOf ms).members? = some ms := by
  cases ms with
  | nil => rfl
  | cons m ms => exact congrArg some (Tree.pairs_chain m ms)

/-! ### Names -/

/-- A member with a name and a value is there. -/
def HasMember (ms : List Member) (name : String) (t : Tree .value) : Prop :=
  ∃ key, key.text? = some name ∧ (key, t) ∈ ms

/-- All names are texts. -/
def NamesAreTexts (ms : List Member) : Prop := ∀ m ∈ ms, ∃ name, m.1.text? = some name

theorem hasMember_cons_iff {key : Literal} {v t : Tree .value} {ms : List Member}
    {name other : String} (hname : key.text? = some name) :
    HasMember ((key, v) :: ms) other t ↔ (other = name ∧ t = v) ∨ HasMember ms other t := by
  constructor
  · rintro ⟨key', hkey', hmem⟩
    rcases List.mem_cons.1 hmem with heq | hmem
    · cases heq
      rw [hname] at hkey'
      exact Or.inl ⟨(Option.some.inj hkey').symm, rfl⟩
    · exact Or.inr ⟨key', hkey', hmem⟩
  · rintro (⟨rfl, rfl⟩ | ⟨key', hkey', hmem⟩)
    · exact ⟨key, hname, List.mem_cons_self⟩
    · exact ⟨key', hkey', List.mem_cons_of_mem _ hmem⟩

theorem hasMember_singleton_iff {name other : String} {v t : Tree .value} :
    HasMember [(Literal.ofText name, v)] other t ↔ other = name ∧ t = v := by
  rw [hasMember_cons_iff (Literal.text?_ofText name)]
  exact or_iff_left fun ⟨_, _, hmem⟩ => List.not_mem_nil hmem

theorem fieldsOf?_cons {key : Literal} {v : Tree .value} {ms : List Member} {name : String}
    (hname : key.text? = some name) :
    fieldsOf? ((key, v) :: ms) = (fieldsOf? ms).map ((name, v) :: ·) := by
  rw [fieldsOf?, hname]
  cases fieldsOf? ms <;> rfl

theorem exists_fieldsOf? {ms : List Member} (h : NamesAreTexts ms) :
    ∃ fields, fieldsOf? ms = some fields ∧ fields.map Prod.snd = ms.map Prod.snd := by
  induction ms with
  | nil => exact ⟨[], rfl, rfl⟩
  | cons m ms ih =>
    obtain ⟨name, hname⟩ := h m List.mem_cons_self
    obtain ⟨fields, hfields, hvalues⟩ := ih fun m hm => h m (List.mem_cons_of_mem _ hm)
    refine ⟨(name, m.2) :: fields, by rw [fieldsOf?_cons hname, hfields]; rfl, ?_⟩
    rw [List.map_cons, List.map_cons, hvalues]

theorem mem_fieldsOf?_iff {ms : List Member} {fields : List Field} (h : fieldsOf? ms = some fields)
    {name : String} {t : Tree .value} : (name, t) ∈ fields ↔ HasMember ms name t := by
  induction ms generalizing fields with
  | nil =>
    cases h
    simp [HasMember]
  | cons m ms ih =>
    simp only [fieldsOf?, Option.bind_eq_bind, Option.bind_eq_some_iff, Option.some.injEq] at h
    obtain ⟨front, hfront, rest, hrest, rfl⟩ := h
    rw [List.mem_cons, ih hrest, Prod.mk.injEq, hasMember_cons_iff hfront]

theorem fieldsOf?_perm {ms ms' : List Member} (hperm : ms.Perm ms') {fields : List Field}
    (h : fieldsOf? ms = some fields) :
    ∃ fields', fieldsOf? ms' = some fields' ∧ fields.Perm fields' := by
  induction hperm generalizing fields with
  | nil => exact ⟨fields, h, .refl _⟩
  | cons m _ ih =>
    simp only [fieldsOf?, Option.bind_eq_bind, Option.bind_eq_some_iff, Option.some.injEq] at h ⊢
    obtain ⟨name, hname, rest, hrest, rfl⟩ := h
    obtain ⟨rest', hrest', hperm⟩ := ih hrest
    exact ⟨_, ⟨name, hname, rest', hrest', rfl⟩, hperm.cons _⟩
  | swap m m' ms =>
    simp only [fieldsOf?, Option.bind_eq_bind, Option.bind_eq_some_iff, Option.some.injEq] at h ⊢
    obtain ⟨name', hname', _, ⟨name, hname, rest, hrest, rfl⟩, rfl⟩ := h
    exact ⟨_, ⟨name, hname, _, ⟨name', hname', rest, hrest, rfl⟩, rfl⟩, .swap _ _ _⟩
  | trans _ _ ih ih' =>
    obtain ⟨fields', h', hperm⟩ := ih h
    obtain ⟨fields'', h'', hperm'⟩ := ih' h'
    exact ⟨fields'', h'', hperm.trans hperm'⟩

/-! ### Stray bytes -/

theorem Gap.none_not_mem_print (gap : Gap) : none ∉ Gap.print gap := by
  obtain ⟨cs, hcs, -⟩ := Gap.exists_print_eq_map gap
  rw [hcs]
  exact none_not_mem_map_some cs

theorem Key.none_not_mem_print_iff (key : Key) :
    none ∉ key.print ↔ none ∉ Literal.print key.name := by
  have hbefore := Gap.none_not_mem_print key.before
  have hafter := Gap.none_not_mem_print key.after
  simp [Key.print, hbefore, hafter]

/-- No stray byte stands in a member. -/
def IsTextMember (m : Member) : Prop := none ∉ Literal.print m.1 ∧ m.2.IsText

theorem Tree.isText_pairs_iff :
    (t : Tree .members) → (t.IsText ↔ ∀ m ∈ t.pairs, IsTextMember m)
  | .lastMember key before v after => by
    have hbefore := Gap.none_not_mem_print before
    have hafter := Gap.none_not_mem_print after
    have hkey := Key.none_not_mem_print_iff key
    simp [IsText, print, pairs, IsTextMember, hbefore, hafter, ← hkey]
  | .member key before v after rest => by
    have hbefore := Gap.none_not_mem_print before
    have hafter := Gap.none_not_mem_print after
    have hkey := Key.none_not_mem_print_iff key
    have hrest := rest.isText_pairs_iff
    rw [IsText] at hrest
    simp [IsText, print, pairs, IsTextMember, hbefore, hafter, ← hkey, hrest, and_assoc]

/-- A stray byte of an object stands in one of its members. -/
theorem Tree.isText_iff_of_members? {t : Tree .value} {ms : List Member}
    (h : t.members? = some ms) : t.IsText ↔ ∀ m ∈ ms, IsTextMember m := by
  cases t with
  | emptyObject gap =>
    cases h
    have hgap := Gap.none_not_mem_print gap
    simp [IsText, print, hgap]
  | object members =>
    cases h
    rw [← members.isText_pairs_iff]
    simp [IsText, print]
  | _ => cases h

/-- No stray byte stands in a literal that spells a text. -/
theorem Literal.none_not_mem_print {ps : Literal} {cs : List Char}
    (h : Literal.characters? ps = some cs) : none ∉ Literal.print ps := by
  fun_induction Literal.characters? ps generalizing cs with
  | case1 => simp
  | case2 => cases h
  | case3 c hc ps ih =>
    obtain ⟨ds, hds, -⟩ := Option.map_eq_some_iff.1 h
    simpa [Piece.print] using ih hds
  | case4 e ps ih =>
    obtain ⟨ds, hds, -⟩ := Option.map_eq_some_iff.1 h
    simpa [Piece.print] using ih hds
  | case5 =>
    rename_i ih
    obtain ⟨ds, hds, -⟩ := Option.map_eq_some_iff.1 h
    simpa [Piece.print] using ih hds
  | case6 => cases h
  | case7 => cases h
  | case8 => cases h
  | case9 =>
    rename_i ih
    obtain ⟨ds, hds, -⟩ := Option.map_eq_some_iff.1 h
    simpa [Piece.print] using ih hds

theorem isTextMember_of_text? {key : Literal} {v : Tree .value} {name : String}
    (hname : key.text? = some name) (hv : v.IsText) : IsTextMember (key, v) := by
  obtain ⟨cs, hcs, -⟩ := Option.map_eq_some_iff.1 hname
  exact ⟨Literal.none_not_mem_print hcs, hv⟩

end HubConfig.Json
