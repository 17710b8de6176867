/-
**Configurations.**

A configuration is what a hub applies to the devices that a condition selects: content for devices
and modules, with labels, a priority and metrics.  What the hub reports of it and what is sent to
add or update it are different documents over the same nouns.

Main definitions:

* `Configuration`: a configuration as the hub reports it, and `Configuration.empty` the one of which
  nothing is reported;
* `ConfigurationDraft`, `ConfigurationUpdate`: what is sent to add and to update one;
* `QueryTest`, `QueryTestResult`: queries to check, and what is wrong with them;
* `Configuration.toUpdate`: the update that changes nothing.
-/

import HubConfig.KeyMap
import HubConfig.Time

set_option autoImplicit false

namespace HubConfig

/-- What is applied to devices and modules: two JSON texts, kept as they are. -/
structure Content where
  /-- Properties for devices. -/
  device : String
  /-- Properties for modules. -/
  modules : String
  deriving DecidableEq

/-- Content of which there is nothing. -/
def Content.empty : Content := ⟨"", ""⟩

/-- Queries by name, and how many devices each one matched last. -/
structure Metrics where
  results : KeyMap Int64
  queries : KeyMap String
  deriving DecidableEq

/-- Metrics of which there are none. -/
def Metrics.empty : Metrics := ⟨∅, ∅⟩

/-- A configuration as the hub reports it.  What it does not report is empty or zero. -/
structure Configuration where
  /-- The id, which no other configuration of the hub has. -/
  id : String
  /-- The version of the document's form. -/
  schemaVersion : String
  /-- The condition that selects devices. -/
  targetCondition : String
  /-- The mark of this version of the configuration. -/
  etag : String
  /-- The type of the content, as reported. -/
  contentType : String
  /-- When it was made, as reported. -/
  createdTimeUtc : String
  /-- When it was last changed, as reported. -/
  lastUpdatedTimeUtc : String
  /-- Of two configurations for a device, the one of the higher priority is applied. -/
  priority : Int32
  /-- What is applied. -/
  content : Content
  /-- Labels, for any use. -/
  labels : KeyMap String
  /-- Metrics that the hub keeps of its own. -/
  systemMetrics : Metrics
  /-- Metrics that came with the configuration. -/
  metrics : Metrics
  deriving DecidableEq

/-- What is sent to add a configuration. -/
structure ConfigurationDraft where
  id : String
  targetCondition : String
  content : Content
  labels : KeyMap String
  priority : Int32
  /-- Queries by name. -/
  queries : KeyMap String
  deriving DecidableEq

/-- What is sent to update a configuration. -/
structure ConfigurationUpdate extends ConfigurationDraft where
  /-- The mark of the version that is updated, or nothing. -/
  etag : String
  deriving DecidableEq

/-- A condition and queries to check. -/
structure QueryTest where
  targetCondition : String
  /-- Queries by name. -/
  queries : KeyMap String
  deriving DecidableEq

/-- What is wrong with them. -/
structure QueryTestResult where
  /-- What is wrong with the condition, or nothing. -/
  targetConditionError : String
  /-- What is wrong with queries, by name. -/
  queryErrors : KeyMap String
  deriving DecidableEq

/-- The result of a check that found nothing. -/
def QueryTestResult.empty : QueryTestResult := ⟨"", ∅⟩

namespace Configuration

/-- The configuration of which nothing is reported. -/
def empty : Configuration where
  id := ""
  schemaVersion := ""
  targetCondition := ""
  etag := ""
  contentType := ""
  createdTimeUtc := ""
  lastUpdatedTimeUtc := ""
  priority := 0
  content := .empty
  labels := ∅
  systemMetrics := .empty
  metrics := .empty

instance : Inhabited Configuration := ⟨empty⟩

/-- The type of the content, where none is reported an assignment. -/
def effectiveContentType (c : Configuration) : String :=
  if c.contentType = "" then "assignment" else c.contentType

/-- When it was made, if that is reported as a time. -/
def createdTime (c : Configuration) : Option Instant := Rfc3339.parse? c.createdTimeUtc.toList

/-- When it was last changed, if that is reported as a time. -/
def lastUpdatedTime (c : Configuration) : Option Instant :=
  Rfc3339.parse? c.lastUpdatedTimeUtc.toList

/-- The update that changes nothing. -/
def toUpdate (c : Configuration) : ConfigurationUpdate where
  id := c.id
  targetCondition := c.targetCondition
  content := c.content
  labels := c.labels
  priority := c.priority
  queries := c.metrics.queries
  etag := c.etag

end Configuration

end HubConfig
