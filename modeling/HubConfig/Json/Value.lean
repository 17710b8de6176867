/-
**JSON values.**

Where a document is read for its meaning and not kept as text, limits apply that the grammar does
not have: arrays and objects nest to a bounded depth, numbers stay in the range of doubles, and
texts are made of characters.  A tree within the limits has a value.

A number that is spelled as an integer and fits in 64 bits counts exactly that.  Every other number
is brought to double precision, from as many of its digits as a 64-bit word can hold, and counts
nothing if it is beyond all doubles.

One name is reserved: an object whose first member has it stands for the JSON text that this only
member holds.

Main definitions:

* `Quantity`: an integer or a double;
* `Numeral.significand`, `Numeral.power`: the digits that are looked at, and the power of ten that
  goes with them;
* `Numeral.quantity?`, `Number.quantity?`: what a number counts;
* `Value`: what a JSON text means;
* `Tree.valueWith`, `Tree.value?`: the value of a tree within the limits.

Main results:

* `Number.quantity?_ofInt`: a written integer counts itself;
* `Tree.value?_string`: a literal within the limits is the text it spells.
-/

import HubConfig.Double
import HubConfig.Json.Document
import HubConfig.Json.Number

set_option autoImplicit false

namespace HubConfig.Json

open HubConfig.Text

/-! ### What a number counts -/

/-- What a number counts. -/
inductive Quantity
  | integer (i : Int)
  | double (d : Double)
  deriving DecidableEq, Repr

/-- Reads digits on from `n` while the value stays below `2 ^ 64`, and counts the digits left. -/
def keepDigits : Nat → List Char → Nat × Nat
  | n, [] => (n, 0)
  | n, d :: ds =>
      let m := 10 * n + digitValue d
      if m < 0x10000000000000000 then keepDigits m ds else (n, (d :: ds).length)

/-- The power of ten that an exponent spells. -/
def Exponent.power (e : Exponent) : Int :=
  if e.negative then -(digitsValue e.digits : Int) else digitsValue e.digits

namespace Numeral

/-- The digits of a number that a 64-bit word can hold, first of the whole part and then of the
fraction.  A digit of the fraction may still fit where one of the whole part did not. -/
def significand (n : Numeral) : Nat :=
  (keepDigits (keepDigits 0 n.whole).1 n.fraction).1

/-- The power of ten that goes with the significand.  Digits left over count as zeros. -/
def power (n : Numeral) : Int :=
  let whole := keepDigits 0 n.whole
  let left := (keepDigits whole.1 n.fraction).2
  (n.exponent.map Exponent.power).getD 0 + whole.2 - (n.fraction.length - left : Nat)

/-- **What a number counts**, unless it is beyond all doubles. -/
def quantity? (n : Numeral) : Option Quantity :=
  match n.integer? with
  | some i => some (.integer i)
  | none => (Double.ofScientific? n.negative n.significand n.power).map .double

end Numeral

/-- What a number counts, unless it is beyond all doubles. -/
def Number.quantity? (n : Number) : Option Quantity := n.numeral.quantity?

theorem Number.quantity?_of_integer? {n : Number} {i : Int} (h : n.integer? = some i) :
    n.quantity? = some (.integer i) := by
  rw [Number.quantity?, Numeral.quantity?, show n.numeral.integer? = some i from h]

/-- A written integer counts itself, if it has at most 64 bits. -/
theorem Number.quantity?_ofInt {i : Int} (h : -0x8000000000000000 ≤ i)
    (h' : i < 0x10000000000000000) :
    (Number.ofInt i).quantity? = some (.integer i) :=
  Number.quantity?_of_integer? (Number.integer?_ofInt h h')

/-! ### What a text means -/

/-- What a JSON text means.  The members of an object are in the order of the text, and a later one
replaces an earlier one of the same name. -/
inductive Value
  | null
  | bool (b : Bool)
  | number (n : Number)
  | string (s : String)
  | array (items : List Value)
  | object (members : List (String × Value))

/-- Arrays and objects within each other, counted from the outside. -/
def maxNesting : Nat := 127

/-- The name that marks an object as a JSON text held in a string. -/
def embeddingName : String := "$serde_json::private::RawValue"

/-- What trees of a shape are read as. -/
@[reducible] def Shape.Reading : Shape → Type
  | .value => Value
  | .items => List Value
  | .members => List (String × Value)

/-- The name of the first member. -/
def Tree.firstName : Tree .members → Literal
  | .lastMember key _ _ _ => key.name
  | .member key _ _ _ _ => key.name

/-- The text of the only member, if there is only one and it is a string. -/
def Tree.onlyText? : Tree .members → Option String
  | .lastMember _ _ (.string s) _ => s.text?
  | _ => none

/-- The meaning of a tree whose arrays and objects nest at most `nesting` deep, where `embedded`
gives the value of a JSON text held in a string. -/
def Tree.valueWith (embedded : String → Option Value) :
    {s : Shape} → (nesting : Nat) → Tree s → Option s.Reading
  | _, _, .null => some .null
  | _, _, .bool b => some (.bool b)
  | _, _, .number n => if n.quantity?.isSome then some (.number n) else none
  | _, _, .string s => s.text?.map .string
  | _, 0, .emptyArray _ => none
  | _, _ + 1, .emptyArray _ => some (.array [])
  | _, 0, .array _ => none
  | _, nesting + 1, .array items => (items.valueWith embedded nesting).map .array
  | _, 0, .emptyObject _ => none
  | _, _ + 1, .emptyObject _ => some (.object [])
  | _, 0, .object _ => none
  | _, nesting + 1, .object members =>
      -- Behind another name the reserved one is a name like any other.
      if members.firstName.text? = some embeddingName then members.onlyText?.bind embedded
      else (members.valueWith embedded nesting).map .object
  | _, nesting, .lastItem _ v _ => (v.valueWith embedded nesting).map ([·])
  | _, nesting, .item _ v _ rest => do
      let v ← v.valueWith embedded nesting
      let rest ← rest.valueWith embedded nesting
      some (v :: rest)
  | _, nesting, .lastMember key _ v _ => do
      let name ← key.name.text?
      let v ← v.valueWith embedded nesting
      some [(name, v)]
  | _, nesting, .member key _ v _ rest => do
      let name ← key.name.text?
      let v ← v.valueWith embedded nesting
      let rest ← rest.valueWith embedded nesting
      some ((name, v) :: rest)

/-- The value of a JSON text held in a string, which may hold further ones to a depth of `levels`.
It nests on its own. -/
def embeddedValue? : (levels : Nat) → String → Option Value
  | 0, _ => none
  | levels + 1, text =>
      (Document.ofText? text).bind fun d => d.value.valueWith (embeddedValue? levels) maxNesting

/-- **The meaning of a value whose arrays and objects nest at most `nesting` deep.**  A text held in
a string is shorter than the text it stands in, so the length of the whole bounds the depth of
texts within texts. -/
def Tree.value? (nesting : Nat) (t : Tree .value) : Option Value :=
  t.valueWith (embeddedValue? t.print.length) nesting

@[simp] theorem Tree.value?_string (nesting : Nat) (s : Literal) :
    Tree.value? nesting (.string s) = s.text?.map .string := by
  simp [Tree.value?, Tree.valueWith]

end HubConfig.Json
