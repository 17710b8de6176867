/-
**Shared access signatures.**

A request proves itself with a token: the resource it is for, the second at which it expires, the
name of a key, and a digest of the first two under that key.

Main definitions:

* `SharedAccessSignature`: what a token is made of;
* `SharedAccessSignature.make`: a signature from a key in Base64;
* `SharedAccessSignature.token`, `SharedAccessSignature.header`: the token, and the header that
  carries it.

Main results:

* `SharedAccessSignature.make_eq_ok_iff`: which texts make a signature.
-/

import HubConfig.Hash.Base64
import HubConfig.Hash.Sha256
import HubConfig.Request
import HubConfig.Settings
import HubConfig.Text.Digits
import HubConfig.Time
import HubConfig.Uri

set_option autoImplicit false

namespace HubConfig

open HubConfig.Text

/-- The bytes that a Base64 text stands for, as an answer to a caller. -/
def decodeKey (text : String) : Except Error Bytes :=
  match Base64.decode? text.toList with
  | some bytes => .ok bytes
  | none => .error (.adopted .unexpected "base64 decode failed")

theorem decodeKey_eq_ok_iff {key : String} {bytes : Bytes} :
    decodeKey key = .ok bytes ↔ Base64.decode? key.toList = some bytes := by
  rw [decodeKey]
  cases Base64.decode? key.toList <;> simp

/-- What a token is made of. -/
structure SharedAccessSignature where
  /-- The bytes of the key. -/
  key : Bytes
  /-- What the token gives access to. -/
  resource : String
  /-- The name of the key. -/
  keyName : String
  /-- When the token expires. -/
  expiry : Instant
  deriving DecidableEq

namespace SharedAccessSignature

/-- A signature from a key in Base64.  No part may be empty. -/
def make (key resource keyName : String) (expiry : Instant) :
    Except Error SharedAccessSignature :=
  if key = "" ∨ resource = "" ∨ keyName = "" then
    .error (.plain .httpApi "key, resource uri and key name are required to create a SAS signer")
  else
    match decodeKey key with
    | .ok bytes => .ok ⟨bytes, resource, keyName, expiry⟩
    | .error e =>
        .error ((Error.plain .httpApi "shared access key is not valid base64").causedBy e)

/-- The signature for the hub of a credential. -/
def forCredential (c : Credential) (expiry : Instant) : Except Error SharedAccessSignature :=
  make c.key c.hostname c.keyName expiry

theorem make_eq_ok_iff {key resource keyName : String} {expiry : Instant}
    {s : SharedAccessSignature} :
    make key resource keyName expiry = .ok s ↔
      (key ≠ "" ∧ resource ≠ "" ∧ keyName ≠ "") ∧ Base64.decode? key.toList = some s.key ∧
        s.resource = resource ∧ s.keyName = keyName ∧ s.expiry = expiry := by
  obtain ⟨bytes, resource', keyName', expiry'⟩ := s
  rw [make, ← decodeKey_eq_ok_iff]
  split
  · next h =>
    have hmissing : ¬(key ≠ "" ∧ resource ≠ "" ∧ keyName ≠ "") := by
      rwa [← not_or, ← not_or, Decidable.not_not]
    simp only [reduceCtorEq, hmissing, false_and]
  · next h =>
    have hgiven : key ≠ "" ∧ resource ≠ "" ∧ keyName ≠ "" := by
      rwa [← not_or, ← not_or]
    cases decodeKey key with
    | error e => simp only [reduceCtorEq, false_and, and_false]
    | ok decoded =>
      simp only [Except.ok.injEq, SharedAccessSignature.mk.injEq, hgiven, true_and, ne_eq,
        not_false_eq_true, and_self, eq_comm]

/-- A text as a form field. -/
def field (s : String) : List Char := formEncode (utf8Bytes s.toList)

/-- The second of expiry, in decimal. -/
def expirySecond (s : SharedAccessSignature) : List Char := decimal s.expiry.seconds

/-- What is signed: the resource as the token spells it, a line feed and the second of expiry. -/
def signedText (s : SharedAccessSignature) : List Char :=
  field s.resource ++ '\n' :: s.expirySecond

/-- The digest of what is signed, in Base64. -/
def digest (s : SharedAccessSignature) : List Char :=
  Base64.encode (hmacSha256 s.key (utf8Bytes s.signedText))

/-- **The token.** -/
def token (s : SharedAccessSignature) : String :=
  -- The key name is not signed: it only tells which key to check with.
  "SharedAccessSignature sr=" ++ String.ofList (field s.resource) ++
    "&sig=" ++ String.ofList (formEncode (utf8Bytes s.digest)) ++
    "&se=" ++ String.ofList s.expirySecond ++
    "&skn=" ++ String.ofList (field s.keyName)

/-- The header that carries the token, which is a secret. -/
def header (s : SharedAccessSignature) : Except Error Header :=
  match Header.make authorizationName s.token true with
  | .ok h => .ok h
  | .error _ => .error (.adopted .httpApi "failed to build authorization header")

end SharedAccessSignature

end HubConfig
