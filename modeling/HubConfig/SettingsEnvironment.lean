/-
**Where settings come from.**

Settings that are left open are looked up in the environment: in a connection string first, then in
variables of their own.

A connection string carries settings in one text, `HostName=…;SharedAccessKeyName=…;…`.  Fields are
separated by semicolons and may be spread over lines; white space around fields, names and values
counts for nothing; of two fields of one name the later one counts, and unknown names count for
nothing.

Main definitions:

* `ConnectionString.fields`: the fields of a text that are not blank;
* `ConnectionString.pairs`: their names and values;
* `ConnectionString.parse`: the settings that a text carries;
* `Environment`: nothing, a fixed map, or the variables of a process, whose values are bytes;
* `Environment.get?`, `Environment.all?`: the value of a variable, and all variables at once;
* `Settings.fromEnvironment`: settings filled from the environment.

Main results:

* `ConnectionString.pair_eq_error_iff`: a field is refused exactly if it has no equals sign.
-/

import HubConfig.Error
import HubConfig.KeyMap
import HubConfig.Settings
import HubConfig.Text.Split
import HubConfig.Text.Utf8

set_option autoImplicit false

namespace HubConfig.ConnectionString

open HubConfig.Text

/-! ### Fields of a connection string -/

/-- The fields of a text, trimmed, without those that are blank. -/
def fields (cs : List Char) : List (List Char) :=
  -- Line feeds go before the text is cut, but after it is trimmed.
  ((splitAll ';' ((trim cs).filter (· != '\n'))).map trim).filter (· != [])

/-- What is wrong with a field that has no equals sign. -/
def missingEquals (field : List Char) : Error :=
  .plain .invalidArgument
    ("invalid connection string, expected '=' in field: " ++ String.ofList field)

/-- The name and the value of a field.  A value may hold equals signs of its own, as keys do. -/
def pair (field : List Char) : Except Error (List Char × List Char) :=
  match splitFirst '=' field with
  | some (name, value) => .ok (trim name, trim value)
  | none => .error (missingEquals field)

theorem pair_eq_error_iff {field : List Char} {e : Error} :
    pair field = .error e ↔ '=' ∉ field ∧ e = missingEquals field := by
  rw [pair, ← splitFirst_eq_none_iff]
  split
  · next h => simp [h]
  · next h => simp [h, eq_comm]

/-- The names and values of fields, unless one of them is refused. -/
def pairs : List (List Char) → Except Error (List (List Char × List Char))
  | [] => .ok []
  | field :: rest =>
      match pair field with
      | .error e => .error e
      | .ok p =>
          match pairs rest with
          | .error e => .error e
          | .ok ps => .ok (p :: ps)

/-- The value of the last pair with a name. -/
def last? (name : String) : List (List Char × List Char) → Option (List Char)
  | [] => none
  | p :: ps =>
      match last? name ps with
      | some value => some value
      | none => if p.1 = name.toList then some p.2 else none

/-- The parts of a host name before and after its first dot, if neither is empty. -/
def hubParts? (hostname : List Char) : Option (List Char × List Char) :=
  match splitFirst '.' hostname with
  | some (name, suffix) => if name ≠ [] ∧ suffix ≠ [] then some (name, suffix) else none
  | none => none

/-! ### The settings that it carries -/

/-- The settings that pairs carry. -/
def settings (ps : List (List Char × List Char)) : Settings :=
  let hostname := last? "HostName" ps
  let parts := hostname.bind hubParts?
  { hostname := hostname.map String.ofList
    hubName := parts.map fun p => String.ofList p.1
    hubSuffix := parts.map fun p => String.ofList p.2
    keyName := (last? "SharedAccessKeyName" ps).map String.ofList
    key := (last? "SharedAccessKey" ps).map String.ofList }

/-- **The settings that a connection string carries.** -/
def parse (text : String) : Except Error Settings :=
  (pairs (fields text.toList)).map settings

end HubConfig.ConnectionString

namespace HubConfig

open HubConfig.Text

/-! ### Environment variables -/

/-- Where variables come from. -/
inductive Environment
  /-- There are none. -/
  | empty
  /-- A fixed map. -/
  | fixed (texts : KeyMap String)
  /-- The variables of a process, which may hold any bytes. -/
  | process (values : KeyMap Bytes)

namespace Environment

/-- Whether a process can have a variable of this name. -/
def isProcessName (name : String) : Bool :=
  name != "" && !name.toList.contains '=' && !name.toList.contains '\x00'

/-- The value of a variable, if it is set to a text. -/
def get? : Environment → String → Option String
  | .empty, _ => none
  | .fixed texts, name => texts.get? name
  | .process values, name =>
      if isProcessName name then (values.get? name).bind utf8Text? else none

/-- All variables, if every one is set to a text. -/
def all? : Environment → Option (KeyMap String)
  | .empty => some ∅
  | .fixed texts => some texts
  | .process values =>
      let texts := values.filterMap utf8Text?
      if texts.toList.length = values.toList.length then some texts else none

end Environment

/-! ### Settings from the environment -/

/-- The variable that holds a connection string. -/
def connectionStringVariable : String := "IOTHUB_CONNECTION_STRING"

/-- The variable that holds a host name. -/
def hostnameVariable : String := "IOTHUB_HOSTNAME"

/-- The variable that holds the name of a key. -/
def keyNameVariable : String := "IOTHUB_SHARED_ACCESS_KEY_NAME"

/-- The variable that holds a key. -/
def keyVariable : String := "IOTHUB_SHARED_ACCESS_KEY"

namespace Settings

/-- An open host name is looked up in its own variable.  What the host name says about the hub fills
open parts, even with nothing. -/
def withHostname (s : Settings) (hostname : Option String) : Settings :=
  match s.hostname, hostname with
  | none, some h =>
      let parts := splitFirst '.' h.toList
      { s with
        hostname := some h
        hubName := s.hubName.or (parts.map fun p => String.ofList p.1)
        hubSuffix := s.hubSuffix.or (parts.map fun p => String.ofList p.2) }
  | _, _ => s

/-- Open settings are looked up in variables of their own. -/
def withVariables (s : Settings) (env : Environment) : Settings :=
  let s := s.withHostname (env.get? hostnameVariable)
  { s with
    keyName := s.keyName.or (env.get? keyNameVariable)
    key := s.key.or (env.get? keyVariable) }

/-- **Settings filled from the environment.**  A connection string that is set must be one, even if
nothing is open. -/
def fromEnvironment (s : Settings) (env : Environment) : Except Error Settings :=
  match env.get? connectionStringVariable with
  | none => .ok (s.withVariables env)
  | some text =>
      match ConnectionString.parse text with
      | .error e => .error e
      | .ok t => .ok ((s.orElse t).withVariables env)

end Settings

end HubConfig
