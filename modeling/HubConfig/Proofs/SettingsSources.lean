/-
**Where settings come from.**

Each setting is the first one that is set among what was given, what the connection string of the
environment says, and a variable of its own; the parts of the host name come from its variable only
if the host name does.  Settings that have been filled are not filled any further.

Since every setting is filled on its own, the parts of a host name need not come from where the host
name comes from.  They describe it all the same unless the host name was given, and the connection
string fills a part that was left open with a part of another host name.

Main definitions:

* `Environment.Holds`: a variable of an environment is set to a text;
* `Environment.connection`: what the connection string of an environment says;
* `Settings.IsLoaded`: settings of which each is the first one set;
* `Settings.IsConsistent`: settings whose parts of the host name are those of the host name.

Main results:

* `Settings.fromEnvironment_eq`: settings are filled from the connection string, then from the
  variables;
* `Settings.fromEnvironment_exact`: **every setting is the first one set, and once is enough**;
* `Settings.isConsistent_iff_of_fromEnvironment`: **when the parts of the host name describe it**.
-/

import HubConfig.Proofs.ConnectionText
import HubConfig.Proofs.Cut
import HubConfig.SettingsEnvironment

set_option autoImplicit false

namespace HubConfig

open HubConfig.Text

/-! ### Variables that are set -/

/-- Bytes spell a text exactly if they are the bytes of that text. -/
theorem utf8Text?_eq_some_iff {bs : Bytes} {s : String} :
    utf8Text? bs = some s ↔ bs = utf8Bytes s.toList := by
  constructor
  · intro h
    obtain ⟨cs, hcs, rfl⟩ := Option.map_eq_some_iff.1 h
    rw [String.toList_ofList]
    exact eq_utf8Bytes_of_ofBytes (Glyph.characters?_eq_some_iff.1 hcs)
  · rintro rfl
    exact utf8Text?_utf8Bytes s

namespace Environment

/-- A variable is set to a text; in a process, that is to the bytes of the text. -/
def Holds : Environment → (name text : String) → Prop
  | .empty, _, _ => False
  | .fixed texts, name, text => texts.get? name = some text
  | .process values, name, text => values.get? name = some (utf8Bytes text.toList)

theorem get?_eq_some_iff {env : Environment} {name text : String}
    (h : isProcessName name = true) : env.get? name = some text ↔ env.Holds name text := by
  cases env with
  | empty => exact ⟨nofun, False.elim⟩
  | fixed texts => rfl
  | process values =>
    rw [get?, if_pos h, Option.bind_eq_some_iff]
    simp only [utf8Text?_eq_some_iff, exists_eq_right]
    rfl

/-- What the connection string of an environment says, and nothing if there is none. -/
def connection (env : Environment) : Except Error Settings :=
  match env.get? connectionStringVariable with
  | none => .ok .empty
  | some text => ConnectionString.parse text

theorem connection_eq_error_iff {env : Environment} {e : Error} :
    env.connection = .error e ↔
      ∃ text, env.get? connectionStringVariable = some text ∧
        ConnectionString.parse text = .error e := by
  rw [connection]
  cases env.get? connectionStringVariable with
  | none => simp
  | some text => simp

end Environment

/-- The variables that settings come from. -/
def settingVariables : List String :=
  ["IOTHUB_CONNECTION_STRING", "IOTHUB_HOSTNAME", "IOTHUB_SHARED_ACCESS_KEY_NAME",
    "IOTHUB_SHARED_ACCESS_KEY"]

theorem isProcessName_of_mem_settingVariables :
    ∀ name ∈ settingVariables, Environment.isProcessName name = true := by decide

theorem Environment.get?_setting_iff (env : Environment) {name : String}
    (h : name ∈ settingVariables) (text : String) :
    env.get? name = some text ↔ env.Holds name text :=
  get?_eq_some_iff (isProcessName_of_mem_settingVariables name h)

/-! ### Parts of a host name -/

/-- The part of a host name before its first dot. -/
def firstLabel? (hostname : String) : Option String :=
  (splitFirst '.' hostname.toList).map fun p => String.ofList p.1

/-- The part of a host name after its first dot. -/
def otherLabels? (hostname : String) : Option String :=
  (splitFirst '.' hostname.toList).map fun p => String.ofList p.2

theorem firstLabel?_eq_some_iff {hostname name : String} :
    firstLabel? hostname = some name ↔ ∃ suffix, IsDivided hostname name suffix := by
  simp only [isDivided_iff_splitFirst, firstLabel?, Option.map_eq_some_iff, Prod.exists]
  constructor
  · rintro ⟨before, after, h, rfl⟩
    exact ⟨String.ofList after, by rw [h, String.toList_ofList, String.toList_ofList]⟩
  · rintro ⟨suffix, h⟩
    exact ⟨_, _, h, String.ofList_toList⟩

theorem otherLabels?_eq_some_iff {hostname suffix : String} :
    otherLabels? hostname = some suffix ↔ ∃ name, IsDivided hostname name suffix := by
  simp only [isDivided_iff_splitFirst, otherLabels?, Option.map_eq_some_iff, Prod.exists]
  constructor
  · rintro ⟨before, after, h, rfl⟩
    exact ⟨String.ofList before, by rw [h, String.toList_ofList, String.toList_ofList]⟩
  · rintro ⟨name, h⟩
    exact ⟨_, _, h, String.ofList_toList⟩

namespace Settings

/-! ### Filling settings -/

/-- Settings are filled from the connection string, then from the variables. -/
theorem fromEnvironment_eq (s : Settings) (env : Environment) :
    s.fromEnvironment env = env.connection.map fun c => (s.orElse c).withVariables env := by
  simp only [fromEnvironment, Environment.connection]
  cases env.get? connectionStringVariable with
  | none => simp only [Except.map, orElse_empty]
  | some text =>
    dsimp only
    cases ConnectionString.parse text <;> rfl

section

variable (s : Settings) (env : Environment)

theorem hostname_withVariables :
    (s.withVariables env).hostname = s.hostname.or (env.get? hostnameVariable) := by
  simp only [withVariables, withHostname]
  cases hs : s.hostname with
  | some h => simp [hs]
  | none => cases env.get? hostnameVariable <;> simp [hs]

theorem hubName_withVariables :
    (s.withVariables env).hubName = s.hubName.or
      (if s.hostname = none then (env.get? hostnameVariable).bind firstLabel? else none) := by
  simp only [withVariables, withHostname]
  cases hs : s.hostname with
  | some h => simp
  | none => cases env.get? hostnameVariable <;> simp [firstLabel?]

theorem hubSuffix_withVariables :
    (s.withVariables env).hubSuffix = s.hubSuffix.or
      (if s.hostname = none then (env.get? hostnameVariable).bind otherLabels? else none) := by
  simp only [withVariables, withHostname]
  cases hs : s.hostname with
  | some h => simp
  | none => cases env.get? hostnameVariable <;> simp [otherLabels?]

theorem keyName_withVariables :
    (s.withVariables env).keyName = s.keyName.or (env.get? keyNameVariable) := by
  simp only [withVariables, withHostname]
  split <;> rfl

theorem key_withVariables : (s.withVariables env).key = s.key.or (env.get? keyVariable) := by
  simp only [withVariables, withHostname]
  split <;> rfl

end

/-! ### Which source counts -/

/-- The first of some sources that is set. -/
def firstSet (sources : List (Option String)) : Option String := sources.findSome? id

theorem firstSet_three (a b c : Option String) : firstSet [a, b, c] = (a.or b).or c := by
  cases a <;> cases b <;> cases c <;> rfl

theorem firstSet_last (v : Option String) : firstSet [none, none, v] = v := by
  rw [firstSet_three, Option.none_or, Option.none_or]

/-- Settings of which each is the first one set among what was given, what the connection string
says, and the variables.  The parts of the host name come from a variable only with it. -/
structure IsLoaded (s c : Settings) (env : Environment) (t : Settings) : Prop where
  hostname : t.hostname = firstSet [s.hostname, c.hostname, env.get? hostnameVariable]
  keyName : t.keyName = firstSet [s.keyName, c.keyName, env.get? keyNameVariable]
  key : t.key = firstSet [s.key, c.key, env.get? keyVariable]
  hubName : t.hubName = firstSet [s.hubName, c.hubName,
    if s.hostname = none ∧ c.hostname = none then (env.get? hostnameVariable).bind firstLabel?
    else none]
  hubSuffix : t.hubSuffix = firstSet [s.hubSuffix, c.hubSuffix,
    if s.hostname = none ∧ c.hostname = none then (env.get? hostnameVariable).bind otherLabels?
    else none]

theorem isLoaded_withVariables (s c : Settings) (env : Environment) :
    IsLoaded s c env ((s.orElse c).withVariables env) where
  hostname := by rw [hostname_withVariables, firstSet_three, orElse]
  keyName := by rw [keyName_withVariables, firstSet_three, orElse]
  key := by rw [key_withVariables, firstSet_three, orElse]
  hubName := by simp only [hubName_withVariables, firstSet_three, orElse, Option.or_eq_none_iff]
  hubSuffix := by
    simp only [hubSuffix_withVariables, firstSet_three, orElse, Option.or_eq_none_iff]

/-- Each of the settings. -/
def fields : List (Settings → Option String) := [hostname, hubName, hubSuffix, keyName, key]

/-- What is set stays as it is. -/
def IsKept (s t : Settings) : Prop := ∀ field ∈ fields, ∀ v, field s = some v → field t = some v

theorem isKept_withVariables (s c : Settings) (env : Environment) :
    IsKept s ((s.orElse c).withVariables env) := by
  have h := isLoaded_withVariables s c env
  have hfirst : ∀ {a : Option String} {v : String} (b c : Option String), a = some v →
      firstSet [a, b, c] = some v := by
    rintro a v b c rfl
    rfl
  intro field hfield v hv
  simp only [fields, List.mem_cons, List.not_mem_nil, or_false] at hfield
  rcases hfield with rfl | rfl | rfl | rfl | rfl
  · exact h.hostname.trans (hfirst _ _ hv)
  · exact h.hubName.trans (hfirst _ _ hv)
  · exact h.hubSuffix.trans (hfirst _ _ hv)
  · exact h.keyName.trans (hfirst _ _ hv)
  · exact h.key.trans (hfirst _ _ hv)

/-! ### Once is enough -/

attribute [ext] Settings

theorem or_or_right (a b v : Option String) : ((a.or b).or v).or b = (a.or b).or v := by
  cases a <;> cases b <;> cases v <;> rfl

/-- The connection string has nothing to add to what it has filled. -/
theorem orElse_withVariables (s c : Settings) (env : Environment) :
    ((s.orElse c).withVariables env).orElse c = (s.orElse c).withVariables env := by
  ext1
  · simp only [hostname_withVariables, orElse, or_or_right]
  · simp only [hubName_withVariables, orElse, or_or_right]
  · simp only [hubSuffix_withVariables, orElse, or_or_right]
  · simp only [keyName_withVariables, orElse, or_or_right]
  · simp only [key_withVariables, orElse, or_or_right]

/-- The variables have nothing to add to what they have filled. -/
theorem withVariables_withVariables (s : Settings) (env : Environment) :
    (s.withVariables env).withVariables env = s.withVariables env := by
  have hself : ∀ a v : Option String, (a.or v).or v = a.or v := by
    intro a v
    cases a <;> cases v <;> rfl
  -- If the host name is still open, so is its variable.
  have hown : ∀ f : String → Option String, (if (s.withVariables env).hostname = none then
      (env.get? hostnameVariable).bind f else none) = none := by
    intro f
    split
    · next h =>
      rw [hostname_withVariables, Option.or_eq_none_iff] at h
      rw [h.2, Option.bind_none]
    · rfl
  ext1
  · rw [hostname_withVariables, hostname_withVariables, hself]
  · rw [hubName_withVariables (s.withVariables env), hown, Option.or_none]
  · rw [hubSuffix_withVariables (s.withVariables env), hown, Option.or_none]
  · rw [keyName_withVariables, keyName_withVariables, hself]
  · rw [key_withVariables, key_withVariables, hself]

/-- **Once is enough.** -/
theorem fromEnvironment_idempotent {s t : Settings} {env : Environment}
    (h : s.fromEnvironment env = .ok t) : t.fromEnvironment env = .ok t := by
  rw [fromEnvironment_eq] at h ⊢
  cases hc : env.connection with
  | error e => rw [hc] at h; cases h
  | ok c =>
    rw [hc] at h
    cases h
    rw [Except.map, orElse_withVariables, withVariables_withVariables]

theorem fromEnvironment_eq_error_iff {s : Settings} {env : Environment} {e : Error} :
    s.fromEnvironment env = .error e ↔ env.connection = .error e := by
  rw [fromEnvironment_eq]
  cases env.connection <;> simp [Except.map]

/-- **Every setting is the first one set, and once is enough.**  Settings cannot be filled exactly
if what is set as a connection string is none, whatever else is already set. -/
theorem fromEnvironment_exact (s : Settings) (env : Environment) :
    (∀ name ∈ settingVariables, ∀ text, env.get? name = some text ↔ env.Holds name text) ∧
    (∀ e, s.fromEnvironment env = .error e ↔
      ∃ text, env.Holds connectionStringVariable text ∧
        ConnectionString.parse text = .error e) ∧
    ∀ c, env.connection = .ok c →
      ∃ t, s.fromEnvironment env = .ok t ∧ IsLoaded s c env t ∧ IsKept s t ∧
        t.fromEnvironment env = .ok t := by
  refine ⟨fun _ hname text => env.get?_setting_iff hname text, ?_, ?_⟩
  · intro e
    simp only [fromEnvironment_eq_error_iff, Environment.connection_eq_error_iff,
      env.get?_setting_iff (show connectionStringVariable ∈ settingVariables by decide)]
  · intro c hc
    have hload : s.fromEnvironment env = .ok ((s.orElse c).withVariables env) := by
      rw [fromEnvironment_eq, hc, Except.map]
    exact ⟨_, hload, isLoaded_withVariables s c env, isKept_withVariables s c env,
      fromEnvironment_idempotent hload⟩

/-- A process with a connection string that says only a key, a host name, a name of a key that is no
text, and another key. -/
def sampleEnvironment : Environment :=
  .process (.ofList
    [("IOTHUB_CONNECTION_STRING", utf8Bytes "SharedAccessKey=a2V5".toList),
      ("IOTHUB_HOSTNAME", utf8Bytes "hub.example.net".toList),
      ("IOTHUB_SHARED_ACCESS_KEY_NAME", [0xFF]),
      ("IOTHUB_SHARED_ACCESS_KEY", utf8Bytes "b3RoZXI=".toList)])

theorem fromEnvironment_exact_sample :
    ¬sampleEnvironment.Holds keyNameVariable "" ∧
      (¬∃ e, fromEnvironment ⟨none, some "given", none, none, none⟩ sampleEnvironment = .error e) ∧
      ∃ t, fromEnvironment ⟨none, some "given", none, none, none⟩ sampleEnvironment = .ok t ∧
        t = ⟨some "hub.example.net", some "given", some "example.net", none, some "a2V5"⟩ ∧
        t.fromEnvironment sampleEnvironment = .ok t := by
  obtain ⟨hholds, -, hok⟩ :=
    fromEnvironment_exact ⟨none, some "given", none, none, none⟩ sampleEnvironment
  have hname : sampleEnvironment.get? keyNameVariable = none := by decide
  have hconnection : sampleEnvironment.connection =
      .ok ⟨none, none, none, none, some "a2V5"⟩ := by decide +kernel
  have hhost : sampleEnvironment.get? hostnameVariable = some "hub.example.net" := by decide
  obtain ⟨t, ht, hloaded, -, hagain⟩ := hok _ hconnection
  refine ⟨?_, ?_, t, ht, ?_, hagain⟩
  · rw [← hholds keyNameVariable (by decide), hname]
    nofun
  · rintro ⟨e, he⟩
    rw [ht] at he
    cases he
  · ext1
    · rw [hloaded.hostname, hhost]
      rfl
    · exact hloaded.hubName
    · rw [hloaded.hubSuffix, hhost]
      decide
    · rw [hloaded.keyName, hname]
      rfl
    · exact hloaded.key

/-! ### Whether the parts describe the host name -/

/-- A value that, if it is set, is a part of the host name. -/
def Describes (part : String → Option String) (hostname value : Option String) : Prop :=
  ∀ v, value = some v → hostname.bind part = some v

/-- Settings whose parts of the host name, where they are set, are those of the host name. -/
structure IsConsistent (s : Settings) : Prop where
  hubName : Describes firstLabel? s.hostname s.hubName
  hubSuffix : Describes otherLabels? s.hostname s.hubSuffix

section

variable {part : String → Option String} {hostname value : Option String}

theorem Describes.eq_none (h : Describes part none value) : value = none := by
  rw [Option.eq_none_iff_forall_ne_some]
  intro v hv
  cases h v hv

/-- A host name that is still open is filled together with its part. -/
theorem Describes.or_variable (h : Describes part hostname value) (own : Option String) :
    Describes part (hostname.or own)
      (value.or (if hostname = none then own.bind part else none)) := by
  cases hostname with
  | some host => simpa using h
  | none =>
    rw [h.eq_none, if_pos rfl, Option.none_or, Option.none_or]
    exact fun v hv => hv

/-- Two sources together describe a host name unless the second fills a part of the first. -/
theorem Describes.or_iff (h : Describes part hostname value) {hostname' value' : Option String}
    (h' : Describes part hostname' value') :
    Describes part (hostname.or hostname') (value.or value') ↔
      ∀ host v, hostname = some host → value = none → value' = some v → part host = some v := by
  cases hostname with
  | none =>
    rw [h.eq_none, Option.none_or, Option.none_or]
    exact ⟨fun _ _ _ hhost => (nomatch hhost), fun _ => h'⟩
  | some host =>
    rw [Option.some_or]
    cases value with
    | some v => exact ⟨fun _ _ _ _ hv => (nomatch hv), fun _ => h⟩
    | none =>
      rw [Option.none_or]
      constructor
      · rintro hall _ v ⟨⟩ - hv
        exact hall v hv
      · intro hall v hv
        exact hall host v rfl rfl hv

end

/-- A connection string says nothing of the parts of a host name, or both of them, and then those
of its own host name. -/
theorem parts_settings (ps : List (List Char × List Char)) :
    ((ConnectionString.settings ps).hubName = none ∧
      (ConnectionString.settings ps).hubSuffix = none) ∨
    ∃ hostname name suffix, (ConnectionString.settings ps).hostname = some hostname ∧
      (ConnectionString.settings ps).hubName = some name ∧
      (ConnectionString.settings ps).hubSuffix = some suffix ∧ IsDivided hostname name suffix := by
  have together : (ConnectionString.settings ps).hubName.isSome =
      (ConnectionString.settings ps).hubSuffix.isSome := by
    simp only [ConnectionString.settings, Option.isSome_map]
  cases hname : (ConnectionString.settings ps).hubName with
  | none =>
    rw [hname, Option.isSome_none, eq_comm, Option.isSome_eq_false_iff, Option.isNone_iff_eq_none]
      at together
    exact .inl ⟨rfl, together⟩
  | some name =>
    rw [hname, Option.isSome_some, eq_comm] at together
    obtain ⟨suffix, hsuffix⟩ := Option.isSome_iff_exists.1 together
    obtain ⟨hostname, hhost, hdivided, -⟩ :=
      (ConnectionString.settings_parts ps name suffix).1 ⟨hname, hsuffix⟩
    exact .inr ⟨hostname, name, suffix, hhost, rfl, hsuffix, hdivided⟩

/-- What a connection string says of its own host name describes it. -/
theorem isConsistent_settings (ps : List (List Char × List Char)) :
    (ConnectionString.settings ps).IsConsistent := by
  rcases parts_settings ps with
    ⟨hname, hsuffix⟩ | ⟨hostname, name, suffix, hhost, hname, hsuffix, hdivided⟩
  · refine ⟨?_, ?_⟩
    · rw [hname]
      exact nofun
    · rw [hsuffix]
      exact nofun
  · refine ⟨?_, ?_⟩
    · rw [hname, hhost]
      rintro _ ⟨⟩
      exact firstLabel?_eq_some_iff.2 ⟨suffix, hdivided⟩
    · rw [hsuffix, hhost]
      rintro _ ⟨⟩
      exact otherLabels?_eq_some_iff.2 ⟨name, hdivided⟩

theorem isConsistent_of_connection {env : Environment} {c : Settings}
    (h : env.connection = .ok c) : c.IsConsistent := by
  rw [Environment.connection] at h
  split at h
  · cases h
    exact ⟨nofun, nofun⟩
  · rw [ConnectionString.parse] at h
    cases hps : ConnectionString.pairs (ConnectionString.fields _) with
    | error e => rw [hps] at h; cases h
    | ok ps =>
      rw [hps] at h
      cases h
      exact isConsistent_settings ps

theorem IsConsistent.withVariables {s : Settings} (h : s.IsConsistent) (env : Environment) :
    (s.withVariables env).IsConsistent := by
  constructor
  · rw [hostname_withVariables, hubName_withVariables]
    exact h.hubName.or_variable _
  · rw [hostname_withVariables, hubSuffix_withVariables]
    exact h.hubSuffix.or_variable _

/-- A host name that is set leaves nothing for its variable to do. -/
theorem isConsistent_withVariables_iff {s : Settings} {env : Environment} {hostname : String}
    (hs : s.hostname = some hostname) :
    (s.withVariables env).IsConsistent ↔ s.IsConsistent := by
  refine ⟨fun h => ⟨?_, ?_⟩, fun h => h.withVariables env⟩
  · have hname := h.hubName
    rwa [hostname_withVariables, hubName_withVariables, hs, if_neg nofun, Option.or_none,
      Option.some_or, ← hs] at hname
  · have hsuffix := h.hubSuffix
    rwa [hostname_withVariables, hubSuffix_withVariables, hs, if_neg nofun, Option.or_none,
      Option.some_or, ← hs] at hsuffix

/-- The condition under which a connection string fills only what describes a host name: the part
of its own host name that goes into an open place is that of the host name that is already set. -/
structure Suits (s c : Settings) : Prop where
  hubName : ∀ hostname name, s.hostname = some hostname → s.hubName = none →
    c.hubName = some name → firstLabel? hostname = some name
  hubSuffix : ∀ hostname suffix, s.hostname = some hostname → s.hubSuffix = none →
    c.hubSuffix = some suffix → otherLabels? hostname = some suffix

theorem isConsistent_orElse_iff {s c : Settings} (hs : s.IsConsistent) (hc : c.IsConsistent) :
    (s.orElse c).IsConsistent ↔ Suits s c := by
  have hname := hs.hubName.or_iff hc.hubName
  have hsuffix := hs.hubSuffix.or_iff hc.hubSuffix
  exact ⟨fun h => ⟨hname.1 h.hubName, hsuffix.1 h.hubSuffix⟩,
    fun h => ⟨hname.2 h.hubName, hsuffix.2 h.hubSuffix⟩⟩

/-- **When the parts of the host name describe it**: of settings that were consistent, exactly if
the connection string suits them. -/
theorem isConsistent_iff_of_fromEnvironment {s t : Settings} {env : Environment}
    (hs : s.IsConsistent) (h : s.fromEnvironment env = .ok t) :
    t.IsConsistent ↔ ∀ c, env.connection = .ok c → Suits s c := by
  rw [fromEnvironment_eq] at h
  cases hc : env.connection with
  | error e => rw [hc] at h; cases h
  | ok c =>
    rw [hc] at h
    cases h
    have horElse := isConsistent_orElse_iff hs (isConsistent_of_connection hc)
    have hiff : ((s.orElse c).withVariables env).IsConsistent ↔ Suits s c := by
      cases hhost : s.hostname with
      | some hostname =>
        have hset : (s.orElse c).hostname = some hostname := by rw [orElse, hhost, Option.some_or]
        rw [isConsistent_withVariables_iff hset, horElse]
      | none =>
        have hsuits : Suits s c := ⟨by simp [hhost], by simp [hhost]⟩
        exact ⟨fun _ => hsuits, fun _ => (horElse.2 hsuits).withVariables env⟩
    rw [hiff]
    simp only [Except.ok.injEq, forall_eq']

/-- A connection string of another hub than that of the host name that was given. -/
def otherHub : Environment :=
  .fixed (.ofList [("IOTHUB_CONNECTION_STRING", "HostName=hub.example")])

theorem connection_otherHub :
    otherHub.connection = .ok ⟨some "hub.example", some "hub", some "example", none, none⟩ := by
  decide +kernel

theorem isConsistent_gateway : IsConsistent ⟨some "gateway.local", none, none, none, none⟩ :=
  ⟨nofun, nofun⟩

theorem fromEnvironment_otherHub :
    fromEnvironment ⟨some "gateway.local", none, none, none, none⟩ otherHub =
      .ok ⟨some "gateway.local", some "hub", some "example", none, none⟩ := by
  decide

/-- A connection string that repeats the host name suits settings; another one does not. -/
theorem isConsistent_iff_of_fromEnvironment_sample :
    IsConsistent ⟨some "gateway.local", none, none, none, none⟩ ∧
      ¬IsConsistent ⟨some "gateway.local", some "hub", some "example", none, none⟩ ∧
      IsConsistent ⟨some "hub.example", some "hub", some "example", none, none⟩ := by
  have hgiven : IsConsistent ⟨some "hub.example", none, none, none, none⟩ := ⟨nofun, nofun⟩
  have hload : fromEnvironment ⟨some "hub.example", none, none, none, none⟩ otherHub =
      .ok ⟨some "hub.example", some "hub", some "example", none, none⟩ := by decide
  refine ⟨isConsistent_gateway, ?_, ?_⟩
  · rw [isConsistent_iff_of_fromEnvironment isConsistent_gateway fromEnvironment_otherHub]
    intro h
    have hlabel := (h _ connection_otherHub).hubName "gateway.local" "hub" rfl rfl rfl
    exact absurd hlabel (by decide)
  · rw [isConsistent_iff_of_fromEnvironment hgiven hload]
    intro c hc
    rw [connection_otherHub] at hc
    cases hc
    constructor
    · rintro hostname name ⟨⟩ - ⟨⟩
      decide
    · rintro hostname suffix ⟨⟩ - ⟨⟩
      decide

/-- Filling settings does not always keep the parts of the host name those of the host name. -/
theorem not_always_consistent :
    ¬∀ (s t : Settings) (env : Environment), s.IsConsistent → s.fromEnvironment env = .ok t →
      t.IsConsistent := by
  intro h
  have hloaded := h _ _ _ isConsistent_gateway fromEnvironment_otherHub
  have hlabel := hloaded.hubName "hub" rfl
  exact absurd hlabel (by decide)

end Settings

end HubConfig
