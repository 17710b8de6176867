/-
**Documents that are sent.**

Documents are written without gaps, with their members in a fixed order.  Content is set in as it
was given, without the gaps around it; blank content is an empty object.

Main definitions:

* `fragment?`: the tree of a JSON text given as content;
* `Content.encode`, `ConfigurationDraft.encode`, `ConfigurationUpdate.encode`, `QueryTest.encode`.

Main results:

* `fragment?_of_blank`: blank content is an empty object.
-/

import HubConfig.Configuration.Basic
import HubConfig.Error
import HubConfig.Json.Document
import HubConfig.Text.Split

set_option autoImplicit false

namespace HubConfig

open HubConfig.Text HubConfig.Json

/-! ### Trees without gaps -/

namespace Json

/-- A text. -/
def Tree.ofText (s : String) : Tree .value := .string (Literal.ofText s)

/-- An integer. -/
def Tree.ofInt (i : Int) : Tree .value := .number (Number.ofInt i)

/-- Members without gaps, of which there is at least one. -/
def Tree.membersOf (name : String) (v : Tree .value) : List (String × Tree .value) → Tree .members
  | [] => .lastMember ⟨[], Literal.ofText name, []⟩ [] v []
  | m :: ms => .member ⟨[], Literal.ofText name, []⟩ [] v [] (membersOf m.1 m.2 ms)

/-- An object. -/
def Tree.ofMembers : List (String × Tree .value) → Tree .value
  | [] => .emptyObject []
  | m :: ms => .object (membersOf m.1 m.2 ms)

/-- An object whose members are texts. -/
def Tree.ofKeyMap (m : KeyMap String) : Tree .value :=
  ofMembers (m.toList.map fun e => (e.1, ofText e.2))

/-- The characters of a tree.  A tree that was made of texts has no stray bytes to leave out. -/
def Tree.text (t : Tree .value) : String := String.ofList (t.print.filterMap fun g => g)

end Json

/-! ### Content -/

/-- The tree of a JSON text given as content. -/
def fragment? (text : String) : Option (Tree .value) :=
  if trim text.toList = [] then some (.emptyObject [])
  else (Document.ofText? text).map Document.value

theorem fragment?_of_blank {text : String} (h : ∀ c ∈ text.toList, isWhiteSpace c = true) :
    fragment? text = some (.emptyObject []) := if_pos (trim_eq_nil_iff.2 h)

/-- The tree of content with a name, which is named when it is no JSON text. -/
def fragment (text name : String) : Except Error (Tree .value) :=
  match fragment? text with
  | some t => .ok t
  | none => .error (.adopted .json (name ++ " is not a JSON value"))

/-- The tree of both parts of the content. -/
def Content.tree (c : Content) : Except Error (Tree .value) :=
  match fragment c.device "deviceContent" with
  | .error e => .error e
  | .ok device =>
      match fragment c.modules "modulesContent" with
      | .error e => .error e
      | .ok modules =>
          .ok (.ofMembers [("deviceContent", device), ("modulesContent", modules)])

/-- **Content as it is sent.** -/
def Content.encode (c : Content) : Except Error String := c.tree.map Tree.text

/-- A document with nothing but content that is already encoded. -/
def Content.document (encoded : String) : String := "\x7b\"content\":" ++ encoded ++ "\x7d"

/-! ### Configurations -/

/-- The version of the form in which configurations are sent. -/
def schemaVersion : String := "1.0"

/-- The members of a configuration with given content. -/
def ConfigurationDraft.members (d : ConfigurationDraft) (content : Tree .value) :
    List (String × Tree .value) :=
  [("id", .ofText d.id), ("schemaVersion", .ofText schemaVersion), ("labels", .ofKeyMap d.labels),
    ("content", content), ("targetCondition", .ofText d.targetCondition),
    ("priority", .ofInt d.priority.toInt),
    ("metrics", .ofMembers [("queries", .ofKeyMap d.queries)])]

/-- **A new configuration as it is sent.** -/
def ConfigurationDraft.encode (d : ConfigurationDraft) : Except Error String :=
  d.content.tree.map fun content => (Tree.ofMembers (d.members content)).text

/-- The members of an update beyond those of a configuration. -/
def ConfigurationUpdate.etagMembers (u : ConfigurationUpdate) : List (String × Tree .value) :=
  if u.etag = "" then [] else [("etag", .ofText u.etag)]

/-- **An update as it is sent.** -/
def ConfigurationUpdate.encode (u : ConfigurationUpdate) : Except Error String :=
  u.content.tree.map fun content => (Tree.ofMembers (u.members content ++ u.etagMembers)).text

/-! ### Checks -/

/-- **A check of queries as it is sent.** -/
def QueryTest.encode (t : QueryTest) : String :=
  (Tree.ofMembers
    [("targetCondition", .ofText t.targetCondition),
      ("customMetricQueries", .ofKeyMap t.queries)]).text

end HubConfig
