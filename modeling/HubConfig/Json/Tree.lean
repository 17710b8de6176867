/-
**JSON texts as trees.**

A tree keeps everything that a JSON text holds: the gaps, the spelling of every literal and number,
the order of members and the members that come twice.  Printing a tree therefore gives the text
back, and a part of a document can be handed on exactly as it was received.

A value, the items of an array and the members of an object are three shapes of one family, so that
a function on trees is one recursion and a proof about them one induction.

Main definitions:

* `Space`, `Gap`: the four blank characters of the grammar, and runs of them;
* `Gap.print`, `Gap.read`: a gap as glyphs, and the longest gap at the front of a text;
* `Tree`: the family, `Tree .value` being the trees of values;
* `Tree.print`: the glyphs of a tree;
* `Tree.read`: the tree at the front of a text;
* `Tree.values`, `Tree.pairs`: the items of an array and the members of an object as lists.

Main results:

* `Gap.read_print_append`: a printed gap reads back, up to the first glyph that is not blank;
* `Tree.read_print_append`: **a printed tree reads back**;
* `Tree.eq_print_of_read`: **a tree that was read is the one that stands there**.
-/

import HubConfig.Json.Literal
import HubConfig.Json.Number
import HubConfig.Text.Utf8

set_option autoImplicit false

namespace HubConfig.Json

/-! ### Gaps -/

/-- A blank character of the grammar. -/
inductive Space
  | space
  | tab
  | lineFeed
  | carriageReturn
  deriving DecidableEq, Repr

/-- The character itself. -/
def Space.char : Space → Char
  | .space => ' '
  | .tab => '\t'
  | .lineFeed => '\n'
  | .carriageReturn => '\r'

/-- The blank that a glyph is, if it is one. -/
def Space.ofGlyph? : Glyph → Option Space
  | some ' ' => some .space
  | some '\t' => some .tab
  | some '\n' => some .lineFeed
  | some '\r' => some .carriageReturn
  | _ => none

@[simp] theorem Space.ofGlyph?_char (s : Space) : Space.ofGlyph? (some s.char) = some s := by
  cases s <;> rfl

theorem Space.eq_of_ofGlyph? {g : Glyph} {s : Space} (h : Space.ofGlyph? g = some s) :
    g = some s.char := by
  unfold Space.ofGlyph? at h
  split at h <;> simp_all <;> subst h <;> rfl

/-- A run of blanks. -/
abbrev Gap := List Space

/-- The glyphs of a gap. -/
def Gap.print (gap : Gap) : List Glyph := gap.map fun s => some s.char

@[simp] theorem Gap.print_nil : Gap.print [] = [] := rfl

@[simp] theorem Gap.print_cons (s : Space) (gap : Gap) :
    Gap.print (s :: gap) = some s.char :: Gap.print gap := rfl

/-- The longest gap at the front, and what follows it. -/
def Gap.read : List Glyph → Gap × List Glyph
  | [] => ([], [])
  | g :: gs =>
      match Space.ofGlyph? g with
      | some s => (s :: (Gap.read gs).1, (Gap.read gs).2)
      | none => ([], g :: gs)

theorem Gap.print_read (gs : List Glyph) : Gap.print (Gap.read gs).1 ++ (Gap.read gs).2 = gs := by
  induction gs with
  | nil => rfl
  | cons g gs ih =>
    rw [Gap.read]
    split
    · next s hs => simp [ih, Space.eq_of_ofGlyph? hs]
    · rfl

/-- Whether a text does not begin with a blank. -/
def Solid : List Glyph → Prop
  | [] => True
  | g :: _ => Space.ofGlyph? g = none

theorem Gap.read_print_append (gap : Gap) (gs : List Glyph) (h : Solid gs) :
    Gap.read (Gap.print gap ++ gs) = (gap, gs) := by
  induction gap with
  | nil =>
    cases gs with
    | nil => rfl
    | cons g gs => simp [Gap.read, show Space.ofGlyph? g = none from h]
  | cons s gap ih => simp [Gap.read, ih]

/-! ### Trees -/

/-- What a tree is the text of. -/
inductive Shape
  | value
  | items
  | members
  deriving DecidableEq, Repr

/-- The name of a member with the gaps around it. -/
structure Key where
  /-- The gap before the name. -/
  before : Gap
  /-- The name. -/
  name : Literal
  /-- The gap between the name and the colon. -/
  after : Gap

/-- The text of a value, of the items between brackets, or of the members between braces.  Items
and members are never empty: an empty array or object has a form of its own. -/
inductive Tree : Shape → Type
  | null : Tree .value
  | bool (b : Bool) : Tree .value
  | number (n : Number) : Tree .value
  | string (s : Literal) : Tree .value
  | emptyArray (gap : Gap) : Tree .value
  | array (items : Tree .items) : Tree .value
  | emptyObject (gap : Gap) : Tree .value
  | object (members : Tree .members) : Tree .value
  | lastItem (before : Gap) (value : Tree .value) (after : Gap) : Tree .items
  | item (before : Gap) (value : Tree .value) (after : Gap) (rest : Tree .items) : Tree .items
  | lastMember (key : Key) (before : Gap) (value : Tree .value) (after : Gap) : Tree .members
  | member (key : Key) (before : Gap) (value : Tree .value) (after : Gap)
      (rest : Tree .members) : Tree .members

/-! ### Views -/

/-- The values of the items.  A tree of another shape has none. -/
def Tree.values : {s : Shape} → Tree s → List (Tree .value)
  | _, .lastItem _ v _ => [v]
  | _, .item _ v _ rest => v :: rest.values
  | _, _ => []

/-- The names and values of the members, in order and with repetitions.  A tree of another shape has
none. -/
def Tree.pairs : {s : Shape} → Tree s → List (Literal × Tree .value)
  | _, .lastMember key _ v _ => [(key.name, v)]
  | _, .member key _ v _ rest => (key.name, v) :: rest.pairs
  | _, _ => []

/-! ### Printing -/

/-- The glyphs of the name of a member, with its colon. -/
def Key.print (key : Key) : List Glyph :=
  Gap.print key.before ++ some '"' :: Literal.print key.name ++ Gap.print key.after ++ [some ':']

/-- The glyphs of a tree. -/
def Tree.print : {s : Shape} → Tree s → List Glyph
  | _, .null => [some 'n', some 'u', some 'l', some 'l']
  | _, .bool true => [some 't', some 'r', some 'u', some 'e']
  | _, .bool false => [some 'f', some 'a', some 'l', some 's', some 'e']
  | _, .number n => n.print
  | _, .string s => some '"' :: Literal.print s
  | _, .emptyArray gap => some '[' :: Gap.print gap ++ [some ']']
  | _, .array items => some '[' :: items.print ++ [some ']']
  | _, .emptyObject gap => some '{' :: Gap.print gap ++ [some '}']
  | _, .object members => some '{' :: members.print ++ [some '}']
  | _, .lastItem before v after => Gap.print before ++ v.print ++ Gap.print after
  | _, .item before v after rest =>
      Gap.print before ++ v.print ++ Gap.print after ++ some ',' :: rest.print
  | _, .lastMember key before v after =>
      key.print ++ Gap.print before ++ v.print ++ Gap.print after
  | _, .member key before v after rest =>
      key.print ++ Gap.print before ++ v.print ++ Gap.print after ++ some ',' :: rest.print

/-- The source text of a tree, if no stray byte stands in it. -/
def Tree.source? {s : Shape} (t : Tree s) : Option String :=
  (Glyph.characters? t.print).map String.ofList

/-! ### Reading -/

/-- What follows a given character at the front. -/
def after? (c : Char) : List Glyph → Option (List Glyph)
  | [] => none
  | g :: gs => if g = some c then some gs else none

/-- What follows given characters at the front. -/
def afterAll? : List Char → List Glyph → Option (List Glyph)
  | [], gs => some gs
  | c :: cs, gs => (after? c gs).bind (afterAll? cs)

/-- The name of a member at the front, with its colon, and what follows it. -/
def Key.read (gs : List Glyph) : Option (Key × List Glyph) := do
  let before := Gap.read gs
  let (name, gs) ← Literal.read (← after? '"' before.2)
  let after := Gap.read gs
  let gs ← after? ':' after.2
  some (⟨before.1, name, after.1⟩, gs)

/-- The tree of a given shape at the front of a text, and what follows it.  Every step to a part
takes one unit of `fuel`. -/
def Tree.read : (fuel : Nat) → (s : Shape) → List Glyph → Option (Tree s × List Glyph)
  | 0, _, _ => none
  | _ + 1, .value, [] => none
  | fuel + 1, .value, g :: gs =>
      if g = some '"' then (Literal.read gs).map fun r => (.string r.1, r.2)
      else if g = some '[' then
        match after? ']' (Gap.read gs).2 with
        | some rest => some (.emptyArray (Gap.read gs).1, rest)
        | none => do
            let (items, gs) ← read fuel .items gs
            let gs ← after? ']' gs
            some (.array items, gs)
      else if g = some '{' then
        match after? '}' (Gap.read gs).2 with
        | some rest => some (.emptyObject (Gap.read gs).1, rest)
        | none => do
            let (members, gs) ← read fuel .members gs
            let gs ← after? '}' gs
            some (.object members, gs)
      else if g = some 'n' then (afterAll? ['u', 'l', 'l'] gs).map (.null, ·)
      else if g = some 't' then (afterAll? ['r', 'u', 'e'] gs).map (.bool true, ·)
      else if g = some 'f' then (afterAll? ['a', 'l', 's', 'e'] gs).map (.bool false, ·)
      else (Number.read (g :: gs)).map fun r => (.number r.1, r.2)
  | fuel + 1, .items, gs => do
      let before := Gap.read gs
      let (v, gs) ← read fuel .value before.2
      let after := Gap.read gs
      match after? ',' after.2 with
      | none => some (.lastItem before.1 v after.1, after.2)
      | some gs =>
          let (rest, gs) ← read fuel .items gs
          some (.item before.1 v after.1 rest, gs)
  | fuel + 1, .members, gs => do
      let (key, gs) ← Key.read gs
      let before := Gap.read gs
      let (v, gs) ← read fuel .value before.2
      let after := Gap.read gs
      match after? ',' after.2 with
      | none => some (.lastMember key before.1 v after.1, after.2)
      | some gs =>
          let (rest, gs) ← read fuel .members gs
          some (.member key before.1 v after.1 rest, gs)

/-! ### A tree that was read stands there -/

theorem eq_cons_of_after? {c : Char} {gs rest : List Glyph} (h : after? c gs = some rest) :
    gs = some c :: rest := by
  cases gs with
  | nil => cases h
  | cons g gs =>
    rw [after?] at h
    split at h
    · next hg => cases h; rw [hg]
    · cases h

theorem eq_append_of_afterAll? {cs : List Char} {gs rest : List Glyph}
    (h : afterAll? cs gs = some rest) : gs = cs.map some ++ rest := by
  induction cs generalizing gs with
  | nil => cases h; rfl
  | cons c cs ih =>
    obtain ⟨gs', h1, h2⟩ := Option.bind_eq_some_iff.1 h
    rw [eq_cons_of_after? h1, ih h2]
    rfl

theorem Key.eq_print_of_read {gs rest : List Glyph} {key : Key}
    (h : Key.read gs = some (key, rest)) : gs = key.print ++ rest := by
  simp only [Key.read, Option.bind_eq_bind, Option.bind_eq_some_iff, Option.some.injEq,
    Prod.mk.injEq, Prod.exists] at h
  have e1 := Gap.print_read gs
  generalize Gap.read gs = before at h e1
  obtain ⟨gs1, h1, name, gs2, h2, gs3, h3, rfl, rfl⟩ := h
  have e2 := Gap.print_read gs2
  generalize Gap.read gs2 = after at h3 e2
  rw [eq_cons_of_after? h1, Literal.eq_print_of_read h2] at e1
  rw [eq_cons_of_after? h3] at e2
  rw [← e1, ← e2]
  simp [Key.print]

theorem eq_print_of_after?_gap {c : Char} {gs rest : List Glyph}
    (h : after? c (Gap.read gs).2 = some rest) :
    gs = Gap.print (Gap.read gs).1 ++ some c :: rest := by
  rw [← eq_cons_of_after? h, Gap.print_read]

/-- **A tree that was read is the one that stands there.** -/
theorem Tree.eq_print_of_read {fuel : Nat} {s : Shape} {gs rest : List Glyph} {t : Tree s}
    (h : Tree.read fuel s gs = some (t, rest)) : gs = t.print ++ rest := by
  -- The first glyph of a value decides the form, so there is one case for each form.
  fun_induction Tree.read fuel s gs generalizing rest with
  | case1 | case2 => cases h
  | case3 fuel gs =>
    obtain ⟨⟨s, rest⟩, hs, he⟩ := Option.map_eq_some_iff.1 h
    cases he
    rw [Literal.eq_print_of_read hs]
    rfl
  | case4 fuel gs rest hgap | case6 fuel gs rest hgap =>
    cases h
    simp [Tree.print, ← eq_print_of_after?_gap hgap]
  | case5 fuel gs _ _ ih | case7 fuel gs _ _ _ ih =>
    simp only [Option.bind_eq_bind, Option.bind_eq_some_iff, Option.some.injEq,
      Prod.mk.injEq, Prod.exists] at h
    obtain ⟨parts, gs', hparts, _, hclose, rfl, rfl⟩ := h
    simp [Tree.print, ih hparts, eq_cons_of_after? hclose]
  | case8 | case9 | case10 =>
    obtain ⟨rest, hword, he⟩ := Option.map_eq_some_iff.1 h
    cases he
    rw [eq_append_of_afterAll? hword]
    rfl
  | case11 fuel g gs =>
    obtain ⟨⟨n, rest⟩, hn, he⟩ := Option.map_eq_some_iff.1 h
    cases he
    exact Number.eq_print_of_read hn
  | case12 fuel gs before ihv =>
    rename_i ihr
    simp only [Option.bind_eq_bind, Option.bind_eq_some_iff, Prod.exists] at h
    obtain ⟨v, gs', hv, h⟩ := h
    have hfront : Gap.print before.1 ++ (v.print ++ gs') = gs := by
      rw [← ihv hv]
      exact Gap.print_read gs
    -- Without a comma this is the last item.
    split at h
    · cases h
      simp [Tree.print, Gap.print_read, hfront]
    · next hcomma =>
      simp only [Option.bind_eq_some_iff, Option.some.injEq, Prod.mk.injEq, Prod.exists] at h
      obtain ⟨items, _, hitems, rfl, rfl⟩ := h
      simp [Tree.print, ← ihr _ hitems, ← eq_print_of_after?_gap hcomma, hfront]
  | case13 fuel gs ihv ihr =>
    simp only [Option.bind_eq_bind, Option.bind_eq_some_iff, Prod.exists] at h
    obtain ⟨key, gs', hkey, v, gs'', hv, h⟩ := h
    have hfront : key.print ++ (Gap.print (Gap.read gs').1 ++ (v.print ++ gs'')) = gs := by
      rw [← ihv gs' hv, Gap.print_read, Key.eq_print_of_read hkey]
    split at h
    · cases h
      simp [Tree.print, Gap.print_read, hfront]
    · next hcomma =>
      simp only [Option.bind_eq_some_iff, Option.some.injEq, Prod.mk.injEq, Prod.exists] at h
      obtain ⟨members, _, hmembers, rfl, rfl⟩ := h
      simp [Tree.print, ← ihr _ hmembers, ← eq_print_of_after?_gap hcomma, hfront]

/-! ### A printed tree reads back -/

@[simp] theorem after?_cons (c : Char) (gs : List Glyph) : after? c (some c :: gs) = some gs := by
  simp [after?]

/-- Enough fuel to read a tree back. -/
def Tree.size : {s : Shape} → Tree s → Nat
  | _, .array items => items.size + 1
  | _, .object members => members.size + 1
  | _, .lastItem _ v _ => v.size + 1
  | _, .item _ v _ rest => v.size + rest.size + 1
  | _, .lastMember _ _ v _ => v.size + 1
  | _, .member _ _ v _ rest => v.size + rest.size + 1
  | _, _ => 1

theorem Tree.size_pos {s : Shape} (t : Tree s) : 0 < t.size := by
  cases t <;> simp [Tree.size]

/-- What may follow a tree so that it ends where it was printed to end. -/
def Shape.Ends : Shape → List Glyph → Prop
  | .value, gs => EndsNumber gs
  | .items, gs => ∃ rest, gs = some ']' :: rest
  | .members, gs => ∃ rest, gs = some '}' :: rest

theorem Number.print_ne_nil (n : Number) : n.print ≠ [] := by
  intro h
  have hl : n.lexeme = [] := List.map_eq_nil_iff.1 h
  have := n.isNumber
  rw [hl] at this
  revert this
  decide

theorem Number.exists_print_eq_cons (n : Number) :
    ∃ c gs, isNumberChar c = true ∧ n.print = some c :: gs := by
  have hp := n.print_ne_nil
  cases hl : n.lexeme with
  | nil => simp [Number.print, hl] at hp
  | cons c cs =>
    exact ⟨c, cs.map some, n.isNumberChar_of_mem (by simp [hl]), by simp [Number.print, hl]⟩

/-- A value begins with a glyph that is neither blank nor a closing bracket. -/
theorem Tree.exists_print_eq_cons (t : Tree .value) :
    ∃ c gs, t.print = some c :: gs ∧ Space.ofGlyph? (some c) = none ∧ c ≠ ']' := by
  cases t with
  | null => exact ⟨'n', _, rfl, rfl, by decide⟩
  | bool b => cases b <;> exact ⟨_, _, rfl, rfl, by decide⟩
  | number n =>
    obtain ⟨c, gs, hc, h⟩ := n.exists_print_eq_cons
    refine ⟨c, gs, h, ?_, ?_⟩
    · cases hs : Space.ofGlyph? (some c) with
      | none => rfl
      | some s =>
        have := Space.eq_of_ofGlyph? hs
        simp only [Option.some.injEq] at this
        rw [this] at hc
        cases s <;> revert hc <;> decide
    · rintro rfl
      revert hc
      decide
  | string s => exact ⟨'"', _, rfl, rfl, by decide⟩
  | emptyArray gap => exact ⟨'[', _, rfl, rfl, by decide⟩
  | array items => exact ⟨'[', _, rfl, rfl, by decide⟩
  | emptyObject gap => exact ⟨'{', _, rfl, rfl, by decide⟩
  | object members => exact ⟨'{', _, rfl, rfl, by decide⟩

theorem Tree.solid_print_append (t : Tree .value) (gs : List Glyph) : Solid (t.print ++ gs) := by
  obtain ⟨c, cs, h, hs, -⟩ := t.exists_print_eq_cons
  rw [h]
  exact hs

theorem endsNumber_gap_append (gap : Gap) {gs : List Glyph} (h : EndsNumber gs) :
    EndsNumber (Gap.print gap ++ gs) := by
  cases gap with
  | nil => exact h
  | cons s gap => cases s <;> rfl

theorem Key.read_print_append (key : Key) (gs : List Glyph) :
    Key.read (key.print ++ gs) = some (key, gs) := by
  have h1 : Gap.read (key.print ++ gs) =
      (key.before,
        some '"' :: (Literal.print key.name ++ (Gap.print key.after ++ some ':' :: gs))) := by
    rw [← Gap.read_print_append key.before (some '"' :: _) (by rfl)]
    simp [Key.print]
  have h2 : Gap.read (Gap.print key.after ++ some ':' :: gs) = (key.after, some ':' :: gs) :=
    Gap.read_print_append key.after _ (by rfl)
  simp [Key.read, h1, Literal.read_print_append, h2]

/-- The first value of printed items stands after their first gap. -/
theorem Tree.after?_items (t : Tree .items) (gs : List Glyph) :
    after? ']' (Gap.read (t.print ++ gs)).2 = none := by
  have key : ∀ (gap : Gap) (v : Tree .value) (rest : List Glyph),
      after? ']' (Gap.read (Gap.print gap ++ (v.print ++ rest))).2 = none := by
    intro gap v rest
    rw [Gap.read_print_append gap _ (v.solid_print_append rest)]
    obtain ⟨c, cs, h, -, hc⟩ := v.exists_print_eq_cons
    simp [h, after?, hc]
  cases t with
  | lastItem before v after => simpa [Tree.print] using key before v (Gap.print after ++ gs)
  | item before v after rest =>
    simpa [Tree.print] using key before v (Gap.print after ++ some ',' :: (rest.print ++ gs))

theorem Tree.after?_members (t : Tree .members) (gs : List Glyph) :
    after? '}' (Gap.read (t.print ++ gs)).2 = none := by
  have key : ∀ (k : Key) (rest : List Glyph),
      after? '}' (Gap.read (k.print ++ rest)).2 = none := by
    intro k rest
    have : Gap.read (k.print ++ rest) = (k.before, some '"' ::
        (Literal.print k.name ++ (Gap.print k.after ++ some ':' :: rest))) := by
      rw [← Gap.read_print_append k.before (some '"' :: _) (by rfl)]
      simp [Key.print]
    simp [this, after?]
  cases t with
  | lastMember k before v after =>
    simpa [Tree.print] using key k (Gap.print before ++ (v.print ++ (Gap.print after ++ gs)))
  | member k before v after rest =>
    simpa [Tree.print] using
      key k (Gap.print before ++ (v.print ++ (Gap.print after ++ some ',' :: (rest.print ++ gs))))

/-- **A printed tree reads back**, before anything that may follow it. -/
theorem Tree.read_print_append {s : Shape} (t : Tree s) (fuel : Nat) (hf : t.size ≤ fuel)
    (gs : List Glyph) (hgs : s.Ends gs) : Tree.read fuel s (t.print ++ gs) = some (t, gs) := by
  -- Each step to a part takes one unit of fuel, and the part is smaller by one at least.
  induction fuel generalizing s gs with
  | zero => exact absurd t.size_pos (Nat.not_lt.2 hf)
  | succ fuel ih =>
    cases t with
    | null => simp [Tree.print, Tree.read, afterAll?]
    | bool b => cases b <;> simp [Tree.print, Tree.read, afterAll?]
    | number n =>
      obtain ⟨c, cs, hc, h⟩ := n.exists_print_eq_cons
      have hr := n.read_print_append hgs
      -- A number begins with a character that begins no other form.
      have hne : ∀ d, isNumberChar d = false → c ≠ d := by
        rintro d hd rfl
        simp [hc] at hd
      rw [h] at hr
      simp only [Tree.print, h, List.cons_append] at hr ⊢
      simp [Tree.read, hne '"' (by decide), hne '[' (by decide), hne '{' (by decide),
        hne 'n' (by decide), hne 't' (by decide), hne 'f' (by decide), hr]
    | string s => simp [Tree.print, Tree.read, Literal.read_print_append]
    | emptyArray gap =>
      simp [Tree.print, Tree.read, Gap.read_print_append gap (some ']' :: gs) (by rfl)]
    | array items =>
      have hitems := ih items (Nat.le_of_succ_le_succ hf) _ ⟨gs, rfl⟩
      simp [Tree.print, Tree.read, Tree.after?_items, hitems]
    | emptyObject gap =>
      simp [Tree.print, Tree.read, Gap.read_print_append gap (some '}' :: gs) (by rfl)]
    | object members =>
      have hmembers := ih members (Nat.le_of_succ_le_succ hf) _ ⟨gs, rfl⟩
      simp [Tree.print, Tree.read, Tree.after?_members, hmembers]
    | lastItem before v after =>
      obtain ⟨rest, rfl⟩ := hgs
      have hv := ih v (Nat.le_of_succ_le_succ hf) (Gap.print after ++ some ']' :: rest)
        (endsNumber_gap_append after (by rfl))
      simp [Tree.print, Tree.read, Gap.read_print_append before _ (v.solid_print_append _), hv,
        Gap.read_print_append after (some ']' :: rest) (by rfl), after?]
    | item before v after items =>
      simp only [Tree.size] at hf
      have hv := ih v (by omega) (Gap.print after ++ some ',' :: (items.print ++ gs))
        (endsNumber_gap_append after (by rfl))
      have hitems := ih items (by omega) gs hgs
      simp [Tree.print, Tree.read, Gap.read_print_append before _ (v.solid_print_append _), hv,
        Gap.read_print_append after (some ',' :: (items.print ++ gs)) (by rfl), hitems]
    | lastMember key before v after =>
      obtain ⟨rest, rfl⟩ := hgs
      have hv := ih v (Nat.le_of_succ_le_succ hf) (Gap.print after ++ some '}' :: rest)
        (endsNumber_gap_append after (by rfl))
      simp [Tree.print, Tree.read, Key.read_print_append,
        Gap.read_print_append before _ (v.solid_print_append _), hv,
        Gap.read_print_append after (some '}' :: rest) (by rfl), after?]
    | member key before v after members =>
      simp only [Tree.size] at hf
      have hv := ih v (by omega) (Gap.print after ++ some ',' :: (members.print ++ gs))
        (endsNumber_gap_append after (by rfl))
      have hmembers := ih members (by omega) gs hgs
      simp [Tree.print, Tree.read, Key.read_print_append,
        Gap.read_print_append before _ (v.solid_print_append _), hv,
        Gap.read_print_append after (some ',' :: (members.print ++ gs)) (by rfl), hmembers]

/-- Two units of fuel for each glyph are enough. -/
theorem Tree.size_le {s : Shape} (t : Tree s) :
    t.size + (if s = .value then 1 else 0) ≤ 2 * t.print.length := by
  induction t with
  | number n =>
    have := List.length_pos_iff.2 n.print_ne_nil
    simp [Tree.size, Tree.print]
    omega
  | bool b => cases b <;> simp [Tree.size, Tree.print]
  | _ => simp_all [Tree.size, Tree.print] <;> omega

end HubConfig.Json
