/-
**Errors of another making.**

Some texts are checked by rules that are not this library's own: header values, request methods,
URIs and JSON.  A text that breaks them gives an error in the words of the rule.

A JSON text that has no value within the limits is refused at its first fault, with words for the
fault and the place where it was noticed: the line, counted from one, and the bytes of that line up
to there.  A fault in what has been read is placed behind it; a fault in what is still ahead is
placed behind the next byte.

Main definitions:

* `Json.Cursor`: the rest of a text with its place;
* `Json.Fault`: words and a place;
* `Json.readString`, `Json.readNumber`, `Json.readStage`: parts of a text from left to right, up to
  the first fault;
* `Json.diagnose?`: what is wrong with a text;
* `isMethod`: the rule for methods;
* `adoptHeaderValue?`, `adoptMethod?`, `adoptUri?`, `adoptJson?`: the error for a text, if it breaks
  the rule;
* `adoptMessage`: the error for words from anywhere else.

Main results:

* `adoptHeaderValue?_eq_none_iff`, `adoptMethod?_eq_none_iff`: which texts give no error.
-/

import HubConfig.Double
import HubConfig.Json.Value
import HubConfig.Request
import HubConfig.Uri

set_option autoImplicit false

namespace HubConfig.Json

open HubConfig.Text

/-! ### Places -/

/-- The rest of a text with its place. -/
structure Cursor where
  /-- The line, counted from one. -/
  line : Nat
  /-- The bytes of the line that have been read. -/
  column : Nat
  /-- What has not been read. -/
  rest : List Char
  deriving DecidableEq, Repr

/-- What is wrong, and where. -/
structure Fault where
  words : String
  line : Nat
  column : Nat
  deriving DecidableEq, Repr

/-- A fault with its place in words. -/
def Fault.message (f : Fault) : String :=
  f.words ++ " at line " ++ String.ofList (decimal f.line) ++ " column " ++
    String.ofList (decimal f.column)

namespace Cursor

/-- The start of a text. -/
def start (cs : List Char) : Cursor := ⟨1, 0, cs⟩

/-- The cursor behind a character. -/
def past (c : Cursor) (ch : Char) (rest : List Char) : Cursor :=
  if ch = '\n' then ⟨c.line + 1, 0, rest⟩ else ⟨c.line, c.column + ch.utf8Size, rest⟩

/-- A fault in what has been read. -/
def here (c : Cursor) (words : String) : Fault := ⟨words, c.line, c.column⟩

/-- A fault in what is ahead. -/
def ahead (c : Cursor) (words : String) : Fault :=
  match c.rest with
  | [] => c.here words
  | ch :: _ => if ch = '\n' then ⟨words, c.line + 1, 0⟩ else ⟨words, c.line, c.column + 1⟩

/-- The cursor behind characters that are in front of it. -/
def pastAll (c : Cursor) : List Char → Cursor
  | [] => c
  | ch :: cs => pastAll (c.past ch (c.rest.drop 1)) cs

/-- Blanks of the grammar. -/
def isBlank (ch : Char) : Bool := (Space.ofGlyph? (some ch)).isSome

/-- The cursor behind the blanks ahead. -/
def skipBlanks (c : Cursor) : Cursor := c.pastAll (c.rest.takeWhile isBlank)

/-- A fault behind the next `n` bytes. -/
def behindBytes (c : Cursor) (words : String) : (n : Nat) → List Char → Fault
  | 0, _ => c.here words
  | _ + 1, [] => c.here words
  | n + 1, ch :: cs =>
      if ch.utf8Size ≤ n + 1 then behindBytes (c.past ch cs) words (n + 1 - ch.utf8Size) cs
      else ⟨words, c.line, c.column + (n + 1)⟩

end Cursor

/-! ### Words -/

/-- The last letters of one of the three words of the grammar. -/
def readLetters : List Char → Cursor → Except Fault Cursor
  | [], c => .ok c
  | letter :: letters, c =>
      match c.rest with
      | [] => .error (c.here "EOF while parsing a value")
      | ch :: rest =>
          if ch = letter then readLetters letters (c.past ch rest)
          else .error (c.ahead "expected ident")

/-! ### Strings -/

/-- The number that the next four bytes stand for, as hexadecimal digits. -/
def readHex (c : Cursor) : Except Fault (Nat × Cursor) :=
  if utf8Length c.rest < 4 then
    .error ((c.pastAll c.rest).here "EOF while parsing a string")
  else
    match c.rest with
    | x :: y :: z :: w :: _ =>
        match hexDigitValue? x, hexDigitValue? y, hexDigitValue? z, hexDigitValue? w with
        | some x', some y', some z', some w' =>
            .ok (((x' * 16 + y') * 16 + z') * 16 + w', c.pastAll [x, y, z, w])
        | _, _, _, _ => .error (c.behindBytes "invalid escape" 4 c.rest)
    | _ => .error (c.behindBytes "invalid escape" 4 c.rest)

/-- What follows a character that must be next in the middle of a pair of escapes. -/
def expectInPair (expected : Char) (c : Cursor) : Except Fault Cursor :=
  match c.rest with
  | [] => .error (c.here "EOF while parsing a string")
  | ch :: rest =>
      if ch = expected then .ok (c.past ch rest)
      else .error (c.ahead "unexpected end of hex escape")

/-- The character that a `\u` escape spells, perhaps with a second one. -/
def readUnicode (c : Cursor) : Except Fault (Char × Cursor) := do
  let (n, c) ← readHex c
  if isLowSurrogate n then .error (c.here "lone leading surrogate in hex escape")
  else if isHighSurrogate n then do
    let c ← expectInPair '\\' c
    let c ← expectInPair 'u' c
    let (m, c) ← readHex c
    if isLowSurrogate m then .ok (joinSurrogates n m, c)
    else .error (c.here "lone leading surrogate in hex escape")
  else .ok (Char.ofNat n, c)

/-- The character that an escape spells, behind its backslash. -/
def readEscape (c : Cursor) : Except Fault (Char × Cursor) :=
  match c.rest with
  | [] => .error (c.here "EOF while parsing a string")
  | ch :: rest =>
      if ch = 'u' then readUnicode (c.past ch rest)
      else
        match Escape.ofLetter? (some ch) with
        | some e => .ok (e.char, c.past ch rest)
        | none => .error (c.ahead "invalid escape")

/-- The text of a string behind its opening quote.  Every character takes one unit of `fuel`. -/
def readString : (fuel : Nat) → Cursor → Except Fault ((List Char) × Cursor)
  | 0, c => .error (c.here "EOF while parsing a string")
  | fuel + 1, c =>
      match c.rest with
      | [] => .error (c.here "EOF while parsing a string")
      | ch :: rest =>
          let next := c.past ch rest
          if ch = '"' then .ok ([], next)
          else if ch = '\\' then do
            let (e, c) ← readEscape next
            let (cs, c) ← readString fuel c
            .ok (e :: cs, c)
          else if ch.toNat < 0x20 then
            .error (next.here "control character (\\u0000-\\u001F) found while parsing a string")
          else do
            let (cs, c) ← readString fuel next
            .ok (ch :: cs, c)

/-! ### Numbers -/

/-- The digits ahead. -/
def Cursor.digits (c : Cursor) : List Char := c.rest.takeWhile Char.isDigit

/-- The cursor behind the digits ahead. -/
def Cursor.pastDigits (c : Cursor) : Cursor := c.pastAll c.digits

/-- The first digits of an exponent that are together at least `2 ^ 31`, if there are so many. -/
def overflowingDigits? (n : Nat) : List Char → Option (List Char)
  | [] => none
  | d :: ds =>
      let m := 10 * n + digitValue d
      if 0x80000000 ≤ m then some [d] else (overflowingDigits? m ds).map (d :: ·)

/-- Checks that a number stays in the range of doubles.  `start` is where the digits of its exponent
begin. -/
def checkRange (n : Numeral) (start stop : Cursor) : Except Fault (Quantity × Cursor) :=
  match n.quantity? with
  | some q => .ok (q, stop)
  | none =>
      match n.exponent.bind fun e => overflowingDigits? 0 e.digits with
      | some ds => .error ((start.pastAll ds).here "number out of range")
      | none => .error (stop.here "number out of range")

/-- The exponent of a number, if there is one, behind its other parts. -/
def readExponent (negative : Bool) (whole fraction : List Char) (c : Cursor) :
    Except Fault (Quantity × Cursor) :=
  match c.rest with
  | e :: rest =>
      if e = 'e' ∨ e = 'E' then
        let c := c.past e rest
        let (minus, c) :=
          match c.rest with
          | '-' :: rest => (true, c.past '-' rest)
          | '+' :: rest => (false, c.past '+' rest)
          | _ => (false, c)
        match c.rest with
        | [] => .error (c.here "EOF while parsing a value")
        | ch :: _ =>
            if ch.isDigit then
              checkRange ⟨negative, whole, fraction, some ⟨minus, c.digits⟩⟩ c c.pastDigits
            else .error (c.ahead "invalid number")
      else checkRange ⟨negative, whole, fraction, none⟩ c c
  | [] => checkRange ⟨negative, whole, fraction, none⟩ c c

/-- The fraction of a number, if there is one, and its exponent, behind its whole part. -/
def readFraction (negative : Bool) (whole : List Char) (c : Cursor) :
    Except Fault (Quantity × Cursor) :=
  match c.rest with
  | '.' :: rest =>
      let c := c.past '.' rest
      if c.digits = [] then
        .error (c.ahead (if c.rest = [] then "EOF while parsing a value" else "invalid number"))
      else readExponent negative whole c.digits c.pastDigits
  | _ => readExponent negative whole [] c

/-- A number behind its sign. -/
def readNumber (negative : Bool) (c : Cursor) : Except Fault (Quantity × Cursor) :=
  match c.rest with
  | [] => .error (c.here "EOF while parsing a value")
  | ch :: rest =>
      if ch = '0' then
        let next := c.past ch rest
        if next.digits = [] then readFraction negative [ch] next
        else .error (next.ahead "invalid number")
      else if ch.isDigit then readFraction negative c.digits c.pastDigits
      else .error (c.ahead "invalid number")

/-! ### Values -/

/-- What stands where the text of an embedded value should be. -/
def misplacedFault (what : String) (c : Cursor) : Fault :=
  c.here ("invalid type: " ++ what ++ ", expected raw value")

/-- A number where a text should be. -/
def describeQuantity : Quantity → String
  | .integer i => "integer `" ++ String.ofList (decimal i) ++ "`"
  | .double d => "floating point `" ++ d.text ++ "`"

/-- The text of an embedded value. -/
def readEmbeddedText (c : Cursor) : Except Fault ((List Char) × Cursor) :=
  match c.rest with
  | [] => .error (c.ahead "EOF while parsing a value")
  | ch :: rest =>
      let next := c.past ch rest
      if ch = '"' then readString (c.rest.length + 1) next
      else if ch = 'n' then do
        .error (misplacedFault "null" (← readLetters ['u', 'l', 'l'] next))
      else if ch = 't' then do
        .error (misplacedFault "boolean `true`" (← readLetters ['r', 'u', 'e'] next))
      else if ch = 'f' then do
        .error (misplacedFault "boolean `false`" (← readLetters ['a', 'l', 's', 'e'] next))
      else if ch = '[' then .error (misplacedFault "sequence" c)
      else if ch = '{' then .error (misplacedFault "map" c)
      else if ch = '-' ∨ ch.isDigit then do
        let (q, stop) ← if ch = '-' then readNumber true next else readNumber false c
        .error (misplacedFault (describeQuantity q) stop)
      else .error (c.ahead "expected value")

/-- What follows the only member of an object that stands for an embedded value. -/
def endEmbedding (c : Cursor) : Except Fault Cursor :=
  let c := c.skipBlanks
  match c.rest with
  | [] => .error (c.ahead "EOF while parsing an object")
  | ch :: rest =>
      if ch = '}' then .ok (c.past ch rest)
      else if ch = ',' then .error (c.ahead "trailing comma")
      else .error (c.ahead "trailing characters")

/-- What is being read of a text. -/
inductive Stage
  /-- A value. -/
  | value
  /-- The items of an array, behind its bracket or behind an item. -/
  | items (first : Bool)
  /-- The members of an object, behind its brace or behind a member. -/
  | members (first : Bool)

/-- Reads on from a stage.  `embedded` reads a JSON text held in a string; arrays and objects nest
at most `nesting` deep; every step takes one unit of `fuel`. -/
def readStage (embedded : List Char → Except Fault Unit) :
    (fuel nesting : Nat) → Stage → Cursor → Except Fault Cursor
  | 0, _, _, c => .ok c
  | fuel + 1, nesting, .value, c =>
      let c := c.skipBlanks
      match c.rest with
      | [] => .error (c.ahead "EOF while parsing a value")
      | ch :: rest =>
          let next := c.past ch rest
          if ch = 'n' then readLetters ['u', 'l', 'l'] next
          else if ch = 't' then readLetters ['r', 'u', 'e'] next
          else if ch = 'f' then readLetters ['a', 'l', 's', 'e'] next
          else if ch = '-' then (readNumber true next).map (·.2)
          else if ch.isDigit then (readNumber false c).map (·.2)
          else if ch = '"' then (readString (rest.length + 1) next).map (·.2)
          else if ch = '[' ∨ ch = '{' then
            -- The bracket is still ahead when it is one too many.
            match nesting with
            | 0 => .error (c.ahead "recursion limit exceeded")
            | nesting + 1 =>
                readStage embedded fuel nesting (if ch = '[' then .items true else .members true)
                  next
          else .error (c.ahead "expected value")
  | fuel + 1, nesting, .items first, c =>
      let c := c.skipBlanks
      match c.rest with
      | [] => .error (c.ahead "EOF while parsing a list")
      | ch :: rest =>
          if ch = ']' then .ok (c.past ch rest)
          else if first then do
            let c ← readStage embedded fuel nesting .value c
            readStage embedded fuel nesting (.items false) c
          else if ch = ',' then
            let c := (c.past ch rest).skipBlanks
            match c.rest with
            | [] => .error (c.ahead "EOF while parsing a value")
            | ch :: _ =>
                if ch = ']' then .error (c.ahead "trailing comma")
                else do
                  let c ← readStage embedded fuel nesting .value c
                  readStage embedded fuel nesting (.items false) c
          else .error (c.ahead "expected `,` or `]`")
  | fuel + 1, nesting, .members first, c => do
      let c := c.skipBlanks
      match c.rest with
      | [] => .error (c.ahead "EOF while parsing an object")
      | ch :: rest =>
          if ch = '}' then .ok (c.past ch rest)
          else if ¬ first ∧ ch ≠ ',' then .error (c.ahead "expected `,` or `\x7d`")
          else
            -- Before the first name there is no comma to pass.
            let c := if first then c else (c.past ch rest).skipBlanks
            match c.rest with
            | [] => .error (c.ahead "EOF while parsing a value")
            | ch :: rest =>
                if ch = '}' then .error (c.ahead "trailing comma")
                else if ch ≠ '"' then .error (c.ahead "key must be a string")
                else
                  let (name, c) ← readString (rest.length + 1) (c.past ch rest)
                  let c := c.skipBlanks
                  match c.rest with
                  | [] => .error (c.ahead "EOF while parsing an object")
                  | ch :: rest =>
                      if ch ≠ ':' then .error (c.ahead "expected `:`")
                      else if first ∧ name = embeddingName.toList then do
                        let (text, c) ← readEmbeddedText (c.past ch rest).skipBlanks
                        embedded text
                        endEmbedding c
                      else do
                        let c ← readStage embedded fuel nesting .value (c.past ch rest)
                        readStage embedded fuel nesting (.members false) c

/-- Reads a whole text, which may hold JSON texts in strings to a depth of `levels`.  Each holds its
own places. -/
def readText : (levels : Nat) → List Char → Except Fault Unit
  | 0, _ => .ok ()
  | levels + 1, cs => do
      let c ← readStage (readText levels) (2 * cs.length + 2) maxNesting .value (.start cs)
      let c := c.skipBlanks
      if c.rest = [] then .ok () else .error (c.ahead "trailing characters")

/-- **What is wrong with a text**, if anything is. -/
def diagnose? (text : String) : Option String :=
  match readText (text.length + 1) text.toList with
  | .ok _ => none
  | .error fault => some fault.message

example : diagnose? "" = some "EOF while parsing a value at line 1 column 0" := by
  decide

end HubConfig.Json

namespace HubConfig

/-! ### Methods -/

/-- Characters of a method. -/
def isMethodChar (c : Char) : Bool :=
  c.isAlphanum || "!#$%&'*+-.^_`|~".toList.contains c

/-- Whether a text can be a method. -/
def isMethod (s : String) : Bool := s != "" && s.toList.all isMethodChar

/-! ### Errors -/

/-- The error for words from anywhere. -/
def adoptMessage (message : String) : Error := .adopted .unexpected message

/-- The error for a text that cannot be the value of a header. -/
def adoptHeaderValue? (s : String) : Option Error :=
  if isHeaderValue s then none else some invalidHeaderValue

/-- The error for a text that cannot be a method. -/
def adoptMethod? (s : String) : Option Error :=
  if isMethod s then none else some (.adopted .unexpected "invalid HTTP method")

/-- The error for a text that is no URI. -/
def adoptUri? (s : String) : Option Error :=
  match Uri.parse s.toList with
  | .ok _ => none
  | .error fault => some (.adopted .unexpected fault.message)

/-- The error for a text that is no JSON text within the limits. -/
def adoptJson? (s : String) : Option Error := (Json.diagnose? s).map (.adopted .json)

theorem adoptHeaderValue?_eq_none_iff {s : String} :
    adoptHeaderValue? s = none ↔ isHeaderValue s = true := by
  rw [adoptHeaderValue?]
  split <;> simp_all

theorem adoptMethod?_eq_none_iff {s : String} : adoptMethod? s = none ↔ isMethod s = true := by
  rw [adoptMethod?]
  split <;> simp_all

end HubConfig
