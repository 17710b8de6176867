/-
**Errors of the hub client.**

Whatever goes wrong is one of six kinds with words of its own, and may have been caused by something
else.  The causes of an error are a chain: errors of this library first, and at its end perhaps one
of another making, of which only its presence counts.

Main definitions:

* `ErrorKind`, `Error`, `Cause`;
* `Error.causedBy`, `Error.causedElsewhere`: an error with its cause;
* `Error.display`: the words for an error with its kind.

Main results:

* `Error.kind_causedBy`: a cause does not change what an error is about.
-/

set_option autoImplicit false

namespace HubConfig

/-- What an error is about. -/
inductive ErrorKind
  /-- An input that no request can be made of. -/
  | invalidArgument
  /-- The hub has a configuration that should not be there. -/
  | configurationExists
  /-- The hub lacks a configuration that should be there. -/
  | configurationMissing
  /-- A request could not be signed, addressed or sent. -/
  | httpApi
  /-- A body could not be read or written. -/
  | json
  /-- Anything else. -/
  | unexpected
  deriving DecidableEq, Repr

/-- The words for a kind. -/
def ErrorKind.label : ErrorKind → String
  | .invalidArgument => "invalid argument"
  | .configurationExists => "configuration exists"
  | .configurationMissing => "configuration does not exist"
  | .httpApi => "http api error"
  | .json => "json error"
  | .unexpected => "unexpected error"

/-- A link in the chain of causes. -/
inductive Cause
  /-- An error of this library. -/
  | reported (kind : ErrorKind) (message : String)
  /-- An error of another making. -/
  | foreign
  deriving DecidableEq, Repr

/-- The words for a kind and a message. -/
def displayText (kind : ErrorKind) (message : String) : String := kind.label ++ ": " ++ message

/-- An error. -/
structure Error where
  /-- What it is about. -/
  kind : ErrorKind
  /-- What is wrong. -/
  message : String
  /-- The causes, the nearest first. -/
  causes : List Cause
  deriving DecidableEq, Repr

namespace Error

/-- An error without a cause. -/
def plain (kind : ErrorKind) (message : String) : Error := ⟨kind, message, []⟩

/-- An error with the error that caused it. -/
def causedBy (e cause : Error) : Error :=
  { e with causes := .reported cause.kind cause.message :: cause.causes }

/-- An error with a cause of another making. -/
def causedElsewhere (e : Error) : Error := { e with causes := [.foreign] }

@[simp] theorem kind_causedBy (e cause : Error) : (e.causedBy cause).kind = e.kind := rfl

/-- The words for an error with its kind. -/
def display (e : Error) : String := displayText e.kind e.message

/-- Whether the hub said it of a configuration. -/
def isAboutConfiguration (e : Error) : Bool :=
  e.kind == .configurationExists || e.kind == .configurationMissing

/-- An error of another making, taken over with its words. -/
def adopted (kind : ErrorKind) (message : String) : Error := (plain kind message).causedElsewhere

end Error

end HubConfig
