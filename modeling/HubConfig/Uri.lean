/-
**URIs, and escapes in them.**

A URI in the forms a request can name: a path, an authority alone, or a scheme with an authority and
what follows it.  Reading is generous about what follows a host and its colon, about user names, and
about characters outside ASCII after the authority; it drops a fragment, and names the first thing
it cannot accept.

A path segment keeps the characters that never mean anything in a URI and writes every other byte
as a percent sign and two upper case hexadecimal digits.  A form field does the same with a set of
its own, and writes a space as a plus sign.

Main definitions:

* `Uri`: the parts, and `Uri.toString` the text that shows them;
* `Uri.Fault`: what is wrong with a text that is no URI;
* `Uri.parse`: the URI that is all of a text;
* `percentEncode`: a path segment;
* `formEncode`: a form field;
* `percentDecode`, `formDecode`: the bytes that were written.

Main results:

* `Uri.parse_length_le`: no text of more than 65534 bytes is a URI;
* `percentDecode_percentEncode`: a written segment reads back;
* `formDecode_formEncode`: a written field reads back.
-/

import HubConfig.Text.Digits
import HubConfig.Text.Split
import HubConfig.Text.Utf8

set_option autoImplicit false

namespace HubConfig

open HubConfig.Text

/-- The parts of a URI. -/
structure Uri where
  /-- The scheme, if there is one. -/
  scheme : Option (List Char)
  /-- The authority: the host, perhaps with a user before it and a number after it. -/
  authority : List Char
  /-- The path as it is spelled, which may be empty. -/
  path : List Char
  /-- What follows the first question mark after the authority. -/
  query : Option (List Char)
  deriving DecidableEq, Repr

namespace Uri

/-- The path that is shown: after a scheme and an authority, an empty path is a slash. -/
def shownPath (u : Uri) : List Char :=
  if u.path = [] ∧ u.scheme.isSome then ['/'] else u.path

/-- The characters that show a URI. -/
def characters (u : Uri) : List Char :=
  (u.scheme.map (· ++ [':', '/', '/'])).getD [] ++ u.authority ++ u.shownPath ++
    (u.query.map ('?' :: ·)).getD []

/-- The text that shows a URI. -/
protected def toString (u : Uri) : String := String.ofList u.characters

/-! ### Faults -/

/-- What is wrong with a text that is no URI. -/
inductive Fault
  | empty
  | invalidCharacter
  | invalidAuthority
  | invalidFormat
  | tooLong
  | schemeTooLong
  deriving DecidableEq, Repr

/-- The words for a fault. -/
def Fault.message : Fault → String
  | .empty => "empty string"
  | .invalidCharacter => "invalid uri character"
  | .invalidAuthority => "invalid authority"
  | .invalidFormat => "invalid format"
  | .tooLong => "uri too long"
  | .schemeTooLong => "scheme too long"

/-! ### The authority -/

/-- Whether a character is an ASCII letter or digit. -/
def isAlphanumericChar (c : Char) : Bool := c.isAlphanum

/-- Characters that may stand in an authority as they are. -/
def isAuthorityChar (c : Char) : Bool :=
  isAlphanumericChar c ||
    ['!', '#', '$', '&', '\'', '(', ')', '*', '+', ',', '-', '.', '/', ':', ';', '=', '?', '@',
      '[', ']', '_', '~'].contains c

/-- Characters that end an authority. -/
def endsAuthority (c : Char) : Bool := c == '/' || c == '?' || c == '#'

/-- What is known of an authority read so far. -/
structure AuthorityScan where
  /-- Colons since the last `]` or `@`. -/
  colons : Nat
  /-- Whether there was a `[`. -/
  opened : Bool
  /-- Whether there was a `]`. -/
  closed : Bool
  /-- Whether there was a percent sign since the last `]` or `@`. -/
  percent : Bool
  /-- Whether the last character was an `@`. -/
  afterUser : Bool
  deriving DecidableEq, Repr

/-- One more character of an authority. -/
def AuthorityScan.step (s : AuthorityScan) (c : Char) : Except Fault AuthorityScan :=
  let s := { s with afterUser := false }
  if c = ':' then
    if 8 ≤ s.colons then .error .invalidAuthority else .ok { s with colons := s.colons + 1 }
  else if c = '[' then
    if s.percent || s.opened then .error .invalidAuthority else .ok { s with opened := true }
  else if c = ']' then
    if !s.opened || s.closed then .error .invalidAuthority
    else .ok { s with closed := true, colons := 0, percent := false }
  else if c = '@' then .ok { s with afterUser := true, colons := 0, percent := false }
  else if c = '%' then .ok { s with percent := true }
  else if isAuthorityChar c then .ok s
  else .error .invalidCharacter

/-- Whether an authority may end here: brackets come in pairs, at most one colon stands after the
host, something follows a user, and the host holds no percent sign. -/
def AuthorityScan.complete (s : AuthorityScan) : Bool :=
  s.opened == s.closed && s.colons ≤ 1 && !s.afterUser && !s.percent

/-- Reads on over the characters of an authority. -/
def AuthorityScan.run (s : AuthorityScan) : List Char → Except Fault AuthorityScan
  | [] => .ok s
  | c :: cs =>
      match s.step c with
      | .ok s => s.run cs
      | .error fault => .error fault

/-- The authority at the front of a text, which is not empty, and what follows it. -/
def splitAuthority (cs : List Char) : Except Fault (List Char × List Char) :=
  if cs = [] then .error .empty
  else
    let authority := cs.takeWhile fun c => !endsAuthority c
    match AuthorityScan.run ⟨0, false, false, false, false⟩ authority with
    | .error fault => .error fault
    | .ok scan =>
        if scan.complete then .ok (authority, cs.dropWhile fun c => !endsAuthority c)
        else .error .invalidAuthority

/-! ### The scheme -/

/-- Characters of a scheme. -/
def isSchemeChar (c : Char) : Bool :=
  isAlphanumericChar c || c == '+' || c == '-' || c == '.' || c == '~'

/-- The scheme at the front of a text with `://`, and what follows it.  The two common schemes are
known in either case. -/
def splitScheme (cs : List Char) : Except Fault (Option (List Char) × List Char) :=
  let scheme := cs.takeWhile isSchemeChar
  match cs.dropWhile isSchemeChar with
  | ':' :: '/' :: '/' :: rest =>
      let lower := scheme.map Char.toLower
      if lower = ['h', 't', 't', 'p'] ∨ lower = ['h', 't', 't', 'p', 's'] then
        .ok (some lower, rest)
      -- A text that is nothing but the mark has no scheme; one that begins with it has an empty
      -- one.
      else if cs.length ≤ 3 then .ok (none, cs)
      else if 64 < scheme.length then .error .schemeTooLong
      else .ok (some scheme, rest)
  | _ => .ok (none, cs)

/-! ### Path and query -/

/-- Characters of a path, of which those outside ASCII need no escape. -/
def isPathChar (c : Char) : Bool :=
  let n := c.toNat
  n == 0x21 || n == 0x22 || (0x24 ≤ n && n ≤ 0x3B) || n == 0x3D || (0x40 ≤ n && n ≤ 0x5F) ||
    (0x61 ≤ n && n != 0x7F)

/-- Characters of a query, of which those outside ASCII need no escape. -/
def isQueryChar (c : Char) : Bool :=
  let n := c.toNat
  n == 0x21 || (0x24 ≤ n && n ≤ 0x3B) || n == 0x3D || (0x3F ≤ n && n != 0x7F)

/-- A query up to the fragment, if there is one. -/
def readQuery : List Char → Except Fault (List Char)
  | [] => .ok []
  | c :: cs =>
      if c = '#' then .ok []
      else if isQueryChar c then
        match readQuery cs with
        | .ok query => .ok (c :: query)
        | .error fault => .error fault
      else .error .invalidCharacter

/-- A path and its query, up to the fragment, if there is one. -/
def readPath : List Char → Except Fault (List Char × Option (List Char))
  | [] => .ok ([], none)
  | c :: cs =>
      if c = '#' then .ok ([], none)
      else if c = '?' then
        match readQuery cs with
        | .ok query => .ok ([], some query)
        | .error fault => .error fault
      else if isPathChar c then
        match readPath cs with
        | .ok parts => .ok (c :: parts.1, parts.2)
        | .error fault => .error fault
      else .error .invalidCharacter

/-! ### Whole URIs -/

/-- The most bytes that a URI may have. -/
def maxLength : Nat := 65534

/-- A URI that is a path. -/
def parsePath (cs : List Char) : Except Fault Uri :=
  match readPath cs with
  | .ok (path, query) => .ok ⟨none, [], path, query⟩
  | .error fault => .error fault

/-- A URI that begins with a scheme or an authority. -/
def parseFull (cs : List Char) : Except Fault Uri :=
  match splitScheme cs with
  | .error fault => .error fault
  | .ok (scheme, rest) =>
      match splitAuthority rest with
      | .error fault => .error fault
      | .ok (authority, rest) =>
          if scheme = none then
            if rest = [] then .ok ⟨none, authority, [], none⟩ else .error .invalidFormat
          else if authority = [] then .error .invalidFormat
          else
            match readPath rest with
            | .error fault => .error fault
            | .ok (path, query) => .ok ⟨scheme, authority, path, query⟩

/-- A URI of a single byte: a path of one character, or an authority. -/
def parseSingle (c : Char) : Except Fault Uri :=
  if c = '/' ∨ c = '*' then .ok ⟨none, [], [c], none⟩
  else
    match splitAuthority [c] with
    | .error fault => .error fault
    | .ok (authority, rest) =>
        if rest = [] then .ok ⟨none, authority, [], none⟩ else .error .invalidCharacter

/-- **The URI that is all of a text.** -/
def parse (cs : List Char) : Except Fault Uri :=
  if maxLength < utf8Length cs then .error .tooLong
  else
    match cs with
    | [] => .error .empty
    | [c] => if c.utf8Size = 1 then parseSingle c else parseFull [c]
    | c :: rest => if c = '/' then parsePath (c :: rest) else parseFull (c :: rest)

/-- No text of more than 65534 bytes is a URI. -/
theorem parse_length_le {cs : List Char} {u : Uri} (h : parse cs = .ok u) :
    utf8Length cs ≤ maxLength := by
  rw [parse.eq_def] at h
  split at h
  · cases h
  · omega

end Uri

/-! ### Escapes that are written -/

/-- A byte that is a letter or a digit. -/
def isAlphanumeric (b : UInt8) : Bool :=
  (0x30 ≤ b && b ≤ 0x39) || (0x41 ≤ b && b ≤ 0x5A) || (0x61 ≤ b && b ≤ 0x7A)

/-- The bytes that a path segment keeps: letters, digits, `-`, `.`, `_` and `~`. -/
def isUnreserved (b : UInt8) : Bool :=
  isAlphanumeric b || b == 0x2D || b == 0x2E || b == 0x5F || b == 0x7E

/-- The bytes that a form field keeps: letters, digits, `*`, `-`, `.` and `_`. -/
def isFormPlain (b : UInt8) : Bool :=
  isAlphanumeric b || b == 0x2A || b == 0x2D || b == 0x2E || b == 0x5F

/-- A percent sign and two digits. -/
def percentTriple (b : UInt8) : List Char :=
  ['%', upperHexDigit (b.toNat / 16), upperHexDigit (b.toNat % 16)]

/-- How a path segment writes a byte. -/
def percentByte (b : UInt8) : List Char :=
  if isUnreserved b then [Char.ofNat b.toNat] else percentTriple b

/-- How a form field writes a byte. -/
def formByte (b : UInt8) : List Char :=
  if isFormPlain b then [Char.ofNat b.toNat] else if b = 0x20 then ['+'] else percentTriple b

/-- A path segment for a list of bytes. -/
def percentEncode (bs : Bytes) : List Char := bs.flatMap percentByte

/-- A form field for a list of bytes. -/
def formEncode (bs : Bytes) : List Char := bs.flatMap formByte

/-! ### Escapes that are read -/

/-- The bytes of a text with its percent escapes resolved.  A percent sign without two digits stands
for itself. -/
def percentDecode : List Char → Bytes
  | [] => []
  | '%' :: x :: y :: cs =>
      match hexDigitValue? x, hexDigitValue? y with
      | some h, some l => UInt8.ofNat (h * 16 + l) :: percentDecode cs
      | _, _ => 0x25 :: percentDecode (x :: y :: cs)
  | c :: cs => String.utf8EncodeChar c ++ percentDecode cs

/-- The bytes of a form field: plus signs are spaces, then percent escapes are resolved. -/
def formDecode (cs : List Char) : Bytes :=
  percentDecode (cs.map fun c => if c = '+' then ' ' else c)

/-! ### Escapes read back -/

theorem percentDecode_cons_of_ne {c : Char} (h : c ≠ '%') (cs : List Char) :
    percentDecode (c :: cs) = String.utf8EncodeChar c ++ percentDecode cs := by
  rw [percentDecode.eq_def]
  split
  · simp_all
  · next heq => simp_all
  · next heq => cases heq; rfl

theorem percentDecode_triple_append (b : UInt8) (cs : List Char) :
    percentDecode (percentTriple b ++ cs) = b :: percentDecode cs := by
  have hb : b.toNat < 256 := b.toNat_lt
  have hh := hexDigitValue?_upperHexDigit (b.toNat / 16) (by omega)
  have hl := hexDigitValue?_upperHexDigit (b.toNat % 16) (by omega)
  have : b.toNat / 16 * 16 + b.toNat % 16 = b.toNat := by omega
  simp [percentTriple, percentDecode, hh, hl, this]

/-- A statement about all bytes holds if it holds of the numbers below 256. -/
theorem forall_byte {p : UInt8 → Prop} (h : ∀ n < 256, p (UInt8.ofNat n)) (b : UInt8) : p b := by
  have := h b.toNat b.toNat_lt
  rwa [UInt8.ofNat_toNat] at this

theorem percentByte_plain : ∀ b : UInt8, isUnreserved b = true →
    Char.ofNat b.toNat ≠ '%' ∧ String.utf8EncodeChar (Char.ofNat b.toNat) = [b] :=
  forall_byte (by decide +kernel)

theorem formByte_plain : ∀ b : UInt8, isFormPlain b = true →
    Char.ofNat b.toNat ≠ '%' ∧ Char.ofNat b.toNat ≠ '+' ∧
      String.utf8EncodeChar (Char.ofNat b.toNat) = [b] :=
  forall_byte (by decide +kernel)

theorem plus_not_mem_percentTriple : ∀ b : UInt8, '+' ∉ percentTriple b :=
  forall_byte (by decide +kernel)

/-- A written segment reads back. -/
theorem percentDecode_percentEncode (bs : Bytes) : percentDecode (percentEncode bs) = bs := by
  induction bs with
  | nil => rfl
  | cons b bs ih =>
    rw [percentEncode, List.flatMap_cons, percentByte]
    rw [percentEncode] at ih
    split
    · next hb =>
      obtain ⟨h, he⟩ := percentByte_plain b hb
      rw [List.singleton_append, percentDecode_cons_of_ne h, he, ih, List.singleton_append]
    · rw [percentDecode_triple_append, ih]

/-- A written field reads back. -/
theorem formDecode_formEncode (bs : Bytes) : formDecode (formEncode bs) = bs := by
  induction bs with
  | nil => rfl
  | cons b bs ih =>
    rw [formDecode, formEncode, List.flatMap_cons, List.map_append, formByte]
    rw [formDecode, formEncode] at ih
    split
    · next hb =>
      obtain ⟨h, hp, he⟩ := formByte_plain b hb
      simp only [List.map_cons, List.map_nil, if_neg hp, List.singleton_append]
      rw [percentDecode_cons_of_ne h, he, ih, List.singleton_append]
    · split
      · next hb =>
        simp only [List.map_cons, List.map_nil, if_true, List.singleton_append]
        rw [percentDecode_cons_of_ne (by decide), ih, hb]
        rfl
      · have : (percentTriple b).map (fun c => if c = '+' then ' ' else c) = percentTriple b :=
          (List.map_congr_left fun c hc =>
            if_neg fun (hplus : c = '+') => plus_not_mem_percentTriple b (hplus ▸ hc)).trans
            (List.map_id' _)
        rw [this, percentDecode_triple_append, ih]

end HubConfig
