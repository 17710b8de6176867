/-
**Settings and credentials.**

What a client must know of its hub, every part of it optional until a client is made, and what
requests are signed with: the host name of the hub, a shared access key and the name of the key,
none of them empty.  Keys are secrets: in diagnostics a secret is shown by its first and last three
bytes, enough to tell two keys apart, if it is long enough and these bytes are whole characters.

Main definitions:

* `takeBytes?`: the characters that make up a number of bytes;
* `redact`: a secret as it is shown;
* `Settings`: host name, its two parts, key name and key;
* `Settings.orElse`: what one source leaves open, filled from another;
* `Credential`: what requests are signed with;
* `Credential.make`, `Credential.fromSettings`: a credential from texts, and from settings;
* `Settings.describe`, `Credential.describe`: as diagnostics show them, with the key redacted.

Main results:

* `utf8Length_of_takeBytes?`: the characters taken make up the number of bytes asked for;
* `Settings.orElse_empty`: nothing fills nothing;
* `Credential.make_eq_ok_iff`: three texts make a credential exactly if none is empty.
-/

import HubConfig.Error
import HubConfig.Text.Quoted
import HubConfig.Text.Utf8

set_option autoImplicit false

namespace HubConfig

open HubConfig.Text

/-! ### Secrets in diagnostics -/

/-- The characters at the front that make up exactly `n` bytes. -/
def takeBytes? : (n : Nat) → List Char → Option (List Char)
  | 0, _ => some []
  | _ + 1, [] => none
  | n + 1, c :: cs =>
      if c.utf8Size ≤ n + 1 then (takeBytes? (n + 1 - c.utf8Size) cs).map (c :: ·) else none

theorem utf8Length_of_takeBytes? {n : Nat} {cs ds : List Char} (h : takeBytes? n cs = some ds) :
    utf8Length ds = n := by
  induction cs generalizing n ds with
  | nil => cases n <;> simp_all [takeBytes?, utf8Length]
  | cons c cs ih =>
    cases n with
    | zero => simp_all [takeBytes?, utf8Length]
    | succ n =>
      rw [takeBytes?] at h
      split at h
      · next hc =>
        obtain ⟨es, hes, rfl⟩ := Option.map_eq_some_iff.1 h
        have := ih hes
        rw [utf8Length]
        omega
      · cases h

/-- The characters that show a secret. -/
def redactCharacters (cs : List Char) : List Char :=
  if cs = [] then ['E', 'M', 'P', 'T', 'Y']
  else if utf8Length cs < 12 then ['*', '*', '*']
  else
    match takeBytes? 3 cs, takeBytes? 3 cs.reverse with
    | some first, some last => first ++ ['*', '*', '*'] ++ last.reverse
    | _, _ => ['*', '*', '*']

/-- **A secret as it is shown.** -/
def redact (secret : String) : String := String.ofList (redactCharacters secret.toList)

/-! ### Settings -/

/-- What a client must know of its hub. -/
structure Settings where
  /-- The host name of the hub. -/
  hostname : Option String
  /-- The first label of the host name. -/
  hubName : Option String
  /-- The host name without its first label. -/
  hubSuffix : Option String
  /-- The name of the shared access key. -/
  keyName : Option String
  /-- The shared access key, in Base64. -/
  key : Option String
  deriving DecidableEq

namespace Settings

/-- Settings that leave everything open. -/
def empty : Settings := ⟨none, none, none, none, none⟩

instance : Inhabited Settings := ⟨empty⟩

/-- What the first settings leave open is taken from the second. -/
def orElse (s t : Settings) : Settings where
  hostname := s.hostname.or t.hostname
  hubName := s.hubName.or t.hubName
  hubSuffix := s.hubSuffix.or t.hubSuffix
  keyName := s.keyName.or t.keyName
  key := s.key.or t.key

@[simp] theorem orElse_empty (s : Settings) : s.orElse empty = s := by
  simp [orElse, empty]

/-- Settings as diagnostics show them.  An open key is shown like an empty one. -/
def describe (s : Settings) : String :=
  showFields "Config"
    [("hostname", showOption s.hostname), ("iothub_name", showOption s.hubName),
      ("iothub_suffix", showOption s.hubSuffix),
      ("shared_access_key_name", showOption s.keyName),
      ("shared_access_key", redact (s.key.getD ""))]

end Settings

/-! ### Credentials -/

/-- What requests are signed with. -/
structure Credential where
  /-- The host name of the hub. -/
  hostname : String
  /-- The shared access key, in Base64. -/
  key : String
  /-- The name of the key. -/
  keyName : String
  /-- No part is empty. -/
  complete : hostname ≠ "" ∧ key ≠ "" ∧ keyName ≠ ""
  deriving DecidableEq

namespace Credential

/-- A credential from its parts. -/
def make (hostname key keyName : String) : Except Error Credential :=
  if h : hostname ≠ "" ∧ key ≠ "" ∧ keyName ≠ "" then .ok ⟨hostname, key, keyName, h⟩
  else .error (.plain .invalidArgument
    "hostname, shared access key and key name must not be empty")

/-- Three texts make a credential exactly if none is empty. -/
theorem make_eq_ok_iff {hostname key keyName : String} {c : Credential} :
    make hostname key keyName = .ok c ↔
      c.hostname = hostname ∧ c.key = key ∧ c.keyName = keyName := by
  rw [make]
  split
  · cases c
    simp only [Except.ok.injEq, mk.injEq, @eq_comm _ hostname, @eq_comm _ key, @eq_comm _ keyName]
  · next h =>
    refine ⟨nofun, ?_⟩
    rintro ⟨rfl, rfl, rfl⟩
    exact absurd c.complete h

/-- A part of the settings that must be there. -/
def required (value : Option String) (name : String) : Except Error String :=
  match value with
  | some v =>
      if v ≠ "" then .ok v else .error (.plain .invalidArgument (name ++ " is required"))
  | none => .error (.plain .invalidArgument (name ++ " is required"))

/-- **A credential from settings.**  The parts of the host name are not signed with, but they must
be there, so that half a connection string is refused here. -/
def fromSettings (s : Settings) : Except Error Credential := do
  let hostname ← required s.hostname "hostname"
  let _ ← required s.hubName "iothub_name"
  let _ ← required s.hubSuffix "iothub_suffix"
  let keyName ← required s.keyName "shared_access_key_name"
  let key ← required s.key "shared_access_key"
  make hostname key keyName

/-- Whether no part is empty, which is so of every credential. -/
def isValid (c : Credential) : Bool := c.hostname != "" && c.key != "" && c.keyName != ""

theorem isValid_eq_true (c : Credential) : c.isValid = true := by
  simp [isValid, c.complete]

/-- A credential as diagnostics show it. -/
def describe (c : Credential) : String :=
  showFields "Credential"
    [("hostname", quoted c.hostname), ("shared_access_key", redact c.key),
      ("key_name", quoted c.keyName)]

end Credential

end HubConfig
