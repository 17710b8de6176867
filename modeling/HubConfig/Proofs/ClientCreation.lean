/-
**Two ways to a client.**

A process can learn of its hub from three variables or from one connection string.  The two ways
take the host name apart differently: a variable leaves parts that are empty, where a connection
string leaves none at all.  A client needs both parts, and neither of them empty, so that it makes
no difference: for the same host name, key name and key both ways lead to a client with the same
credential, or neither leads to a client.

Main definitions:

* `Client.fromVariables`, `Client.fromConnectionString`: the two ways;
* `Environment.HoldsOnly`: an environment in which only the three variables are set;
* `IsUsable`: host names, key names and keys that a client can be made of;
* `Settings.IsOf`: settings that say no more and no less.

Main results:

* `Credential.fromSettings_eq_ok_iff`: the settings that make a credential;
* `Settings.IsOf.created`: what a client that such settings make is like, and when they make one;
* `Client.created_alike`: **both ways lead to the same credential**.
-/

import HubConfig.Client
import HubConfig.Proofs.SettingsSources
import HubConfig.Proofs.SignedRequest

set_option autoImplicit false

namespace HubConfig

open HubConfig.Text HubConfig.ConnectionString

/-! ### Credentials from settings -/

namespace Credential

theorem required_eq_ok_iff {value : Option String} {name v : String} :
    required value name = .ok v ↔ value = some v ∧ v ≠ "" := by
  cases value with
  | none => simp [required]
  | some w =>
    simp only [required, Option.some.injEq]
    split
    · next hw =>
      rw [Except.ok.injEq]
      constructor
      · rintro rfl
        exact ⟨rfl, hw⟩
      · exact fun h => h.1
    · next hw =>
      refine ⟨nofun, ?_⟩
      rintro ⟨rfl, hv⟩
      exact absurd hv hw

theorem kind_of_required {value : Option String} {name : String} {e : Error}
    (h : required value name = .error e) : e.kind = .invalidArgument := by
  rw [required.eq_def] at h
  split at h
  · split at h
    · cases h
    · cases h
      rfl
  · cases h
    rfl

theorem kind_of_make {hostname key keyName : String} {e : Error}
    (h : make hostname key keyName = .error e) : e.kind = .invalidArgument := by
  rw [make] at h
  split at h
  · cases h
  · cases h
    rfl

/-- **The settings that make a credential** say all of it, and both parts of the host name. -/
theorem fromSettings_eq_ok_iff {s : Settings} {c : Credential} :
    fromSettings s = .ok c ↔
      s.hostname = some c.hostname ∧ (∃ name, s.hubName = some name ∧ name ≠ "") ∧
        (∃ suffix, s.hubSuffix = some suffix ∧ suffix ≠ "") ∧
        s.keyName = some c.keyName ∧ s.key = some c.key := by
  simp only [fromSettings, bind_eq_ok_iff, required_eq_ok_iff, make_eq_ok_iff]
  constructor
  · rintro ⟨hostname, ⟨hhost, -⟩, name, hname, suffix, hsuffix, keyName, ⟨hkeyName, -⟩, key,
      ⟨hkey, -⟩, rfl, rfl, rfl⟩
    exact ⟨hhost, ⟨name, hname⟩, ⟨suffix, hsuffix⟩, hkeyName, hkey⟩
  · rintro ⟨hhost, ⟨name, hname⟩, ⟨suffix, hsuffix⟩, hkeyName, hkey⟩
    exact ⟨_, ⟨hhost, c.complete.1⟩, name, hname, suffix, hsuffix, _, ⟨hkeyName, c.complete.2.2⟩,
      _, ⟨hkey, c.complete.2.1⟩, rfl, rfl, rfl⟩

theorem kind_of_fromSettings {s : Settings} {e : Error} (h : fromSettings s = .error e) :
    e.kind = .invalidArgument := by
  simp only [fromSettings, bind_eq_error_iff] at h
  rcases h with h | ⟨_, -, h | ⟨_, -, h | ⟨_, -, h | ⟨_, -, h | ⟨_, -, h⟩⟩⟩⟩⟩
  · exact kind_of_required h
  · exact kind_of_required h
  · exact kind_of_required h
  · exact kind_of_required h
  · exact kind_of_required h
  · exact kind_of_make h

attribute [ext] Credential

end Credential

/-! ### The two ways -/

namespace Client

/-- A client of the hub that an environment tells of. -/
def fromVariables (transport : Transport) (env : Environment) : Except Error Client :=
  (Settings.empty.fromEnvironment env).bind fun s => fromSettings s transport env

/-- A client of the hub that a connection string tells of. -/
def fromConnectionString (transport : Transport) (env : Environment) (text : String) :
    Except Error Client :=
  (parse text).bind fun s => fromSettings s transport env

end Client

/-- An environment that tells of a hub by three variables only. -/
structure Environment.HoldsOnly (env : Environment) (hostname keyName key : String) : Prop where
  hostname : env.Holds hostnameVariable hostname
  keyName : env.Holds keyNameVariable keyName
  key : env.Holds keyVariable key
  noConnection : ∀ text, ¬env.Holds connectionStringVariable text

/-- The entries of a connection string that tells of a hub. -/
def hubEntries (hostname keyName key : String) : List (String × String) :=
  [("HostName", hostname), ("SharedAccessKeyName", keyName), ("SharedAccessKey", key)]

theorem map_fst_hubEntries (hostname keyName key : String) :
    (hubEntries hostname keyName key).map Prod.fst = settingNames := rfl

/-- A host name with two parts, neither of them empty. -/
def HasParts (hostname : String) : Prop :=
  ∃ name suffix, IsDivided hostname name suffix ∧ name ≠ "" ∧ suffix ≠ ""

/-- What a client can be made of. -/
def IsUsable (hostname keyName key : String) : Prop :=
  keyName ≠ "" ∧ key ≠ "" ∧ HasParts hostname

theorem HasParts.ne_empty {hostname : String} (h : HasParts hostname) : hostname ≠ "" := by
  obtain ⟨name, suffix, ⟨rfl, -⟩, -⟩ := h
  simp

/-- A host name has parts exactly if neither of its labels is empty. -/
theorem hasParts_iff {hostname : String} :
    HasParts hostname ↔ (∃ name, firstLabel? hostname = some name ∧ name ≠ "") ∧
      ∃ suffix, otherLabels? hostname = some suffix ∧ suffix ≠ "" := by
  simp only [firstLabel?_eq_some_iff, otherLabels?_eq_some_iff]
  constructor
  · rintro ⟨name, suffix, hdivided, hne, hne'⟩
    exact ⟨⟨name, ⟨suffix, hdivided⟩, hne⟩, suffix, ⟨name, hdivided⟩, hne'⟩
  · rintro ⟨⟨name, ⟨_, hdivided⟩, hne⟩, suffix, ⟨_, hdivided'⟩, hne'⟩
    obtain ⟨-, rfl⟩ := hdivided.inj hdivided'
    exact ⟨name, _, hdivided, hne, hne'⟩

/-! ### Settings that say the same -/

namespace Settings

/-- Settings that say a host name, a key name and a key, and that have parts of the host name to
show exactly if it has such parts. -/
structure IsOf (s : Settings) (hostname keyName key : String) : Prop where
  parts : ((∃ name, s.hubName = some name ∧ name ≠ "") ∧
    ∃ suffix, s.hubSuffix = some suffix ∧ suffix ≠ "") ↔ HasParts hostname
  hostname : s.hostname = some hostname
  keyName : s.keyName = some keyName
  key : s.key = some key

variable {s : Settings} {hostname keyName key : String}

/-- **What a client that such settings make is like, and when they make one.** -/
theorem IsOf.created (h : s.IsOf hostname keyName key) (transport : Transport)
    (env : Environment) :
    (IsUsable hostname keyName key ∧ ∃ c, Client.fromSettings s transport env = .ok c ∧
      c.credential.hostname = hostname ∧ c.credential.keyName = keyName ∧
      c.credential.key = key) ∨
    (¬IsUsable hostname keyName key ∧ ∃ e, Client.fromSettings s transport env = .error e ∧
      e.kind = .invalidArgument) := by
  rw [Client.fromSettings]
  cases hc : Credential.fromSettings s with
  | ok c =>
    obtain ⟨hhost, hname, hsuffix, hkeyName, hkey⟩ := Credential.fromSettings_eq_ok_iff.1 hc
    rw [h.hostname, Option.some.injEq] at hhost
    rw [h.keyName, Option.some.injEq] at hkeyName
    rw [h.key, Option.some.injEq] at hkey
    subst hhost hkeyName hkey
    exact .inl ⟨⟨c.complete.2.2, c.complete.2.1, h.parts.1 ⟨hname, hsuffix⟩⟩, _, rfl, rfl, rfl,
      rfl⟩
  | error e =>
    refine .inr ⟨?_, e, rfl, Credential.kind_of_fromSettings hc⟩
    rintro ⟨hkeyName, hkey, hparts⟩
    -- Everything is there, so that there would be a credential.
    obtain ⟨hname, hsuffix⟩ := h.parts.2 hparts
    have hok : Credential.fromSettings s =
        .ok ⟨hostname, key, keyName, hparts.ne_empty, hkey, hkeyName⟩ :=
      Credential.fromSettings_eq_ok_iff.2 ⟨h.hostname, hname, hsuffix, h.keyName, h.key⟩
    rw [hc] at hok
    cases hok

/-- Three variables say what they hold, empty parts of the host name included. -/
theorem exists_isOf_of_holdsOnly {env : Environment} (h : env.HoldsOnly hostname keyName key) :
    ∃ s, empty.fromEnvironment env = .ok s ∧ s.IsOf hostname keyName key := by
  have hhost : env.get? hostnameVariable = some hostname :=
    (env.get?_setting_iff (by decide) hostname).2 h.hostname
  have hkeyName : env.get? keyNameVariable = some keyName :=
    (env.get?_setting_iff (by decide) keyName).2 h.keyName
  have hkey : env.get? keyVariable = some key := (env.get?_setting_iff (by decide) key).2 h.key
  have hnone : env.get? connectionStringVariable = none := by
    rw [Option.eq_none_iff_forall_ne_some]
    intro text htext
    exact h.noConnection text ((env.get?_setting_iff (by decide) text).1 htext)
  have hconnection : env.connection = .ok empty := by rw [Environment.connection, hnone]
  -- Nothing was given and nothing comes from a connection string.
  have hload := isLoaded_withVariables empty empty env
  rw [orElse_empty] at hload
  refine ⟨empty.withVariables env, ?_, ?_, ?_, ?_, ?_⟩
  · rw [fromEnvironment_eq, hconnection, Except.map, orElse_empty]
  · have hname : (empty.withVariables env).hubName = firstLabel? hostname := by
      rw [hload.hubName, hhost]
      exact firstSet_last _
    have hsuffix : (empty.withVariables env).hubSuffix = otherLabels? hostname := by
      rw [hload.hubSuffix, hhost]
      exact firstSet_last _
    rw [hname, hsuffix, hasParts_iff]
  · exact hload.hostname.trans ((firstSet_last _).trans hhost)
  · exact hload.keyName.trans ((firstSet_last _).trans hkeyName)
  · exact hload.key.trans ((firstSet_last _).trans hkey)

/-- A connection string says what its entries say, in whatever order they come. -/
theorem exists_isOf_of_isWritten {ps : List (String × String)} {text : String}
    (hwritten : IsWritten ps text) (h : (hubEntries hostname keyName key).Perm ps) :
    ∃ s, parse text = .ok s ∧ s.IsOf hostname keyName key := by
  have hnames : ((hubEntries hostname keyName key).map Prod.fst).Nodup := by
    rw [map_fst_hubEntries]
    decide
  have hagree := carries_settings (hubEntries hostname keyName key)
  refine ⟨settings ((hubEntries hostname keyName key).map characters), ?_, ?_, hagree.hostname,
    hagree.keyName, hagree.key⟩
  · rw [parse_of_isWritten hwritten, settings_eq_of_changes (changes_of_perm h hnames)]
  · have hhost : (settings ((hubEntries hostname keyName key).map characters)).hostname =
      some hostname := hagree.hostname
    constructor
    · rintro ⟨⟨name, hname, -⟩, suffix, hsuffix, -⟩
      obtain ⟨host, hset, hparts⟩ := (hagree.parts name suffix).1 ⟨hname, hsuffix⟩
      rw [hhost, Option.some.injEq] at hset
      subst hset
      exact ⟨name, suffix, hparts⟩
    · rintro ⟨name, suffix, hdivided, hne, hne'⟩
      obtain ⟨hname, hsuffix⟩ :=
        (hagree.parts name suffix).2 ⟨hostname, hhost, hdivided, hne, hne'⟩
      exact ⟨⟨name, hname, hne⟩, suffix, hsuffix, hne'⟩

end Settings

/-! ### Both ways -/

theorem isEntry_of_mem_hubEntries {hostname keyName key : String} (hhost : IsValue hostname)
    (hkeyName : IsValue keyName) (hkey : IsValue key) :
    ∀ p ∈ hubEntries hostname keyName key, IsEntry p := by
  have hname : ∀ name ∈ settingNames, IsValue name ∧ '=' ∉ name.toList := by decide
  have hvalue : ∀ p ∈ hubEntries hostname keyName key, IsValue p.2 := by
    simp only [hubEntries, List.forall_mem_cons]
    exact ⟨hhost, hkeyName, hkey, nofun⟩
  intro p hp
  obtain ⟨hvalue', hequals⟩ :=
    hname p.1 (map_fst_hubEntries hostname keyName key ▸ List.mem_map_of_mem hp)
  exact ⟨hvalue', hequals, hvalue p hp⟩

/-- **Both ways lead to the same credential**, or neither leads to a client, and then for an
argument that is not valid. -/
theorem Client.created_alike {hostname keyName key : String} (hhost : IsValue hostname)
    (hkeyName : IsValue keyName) (hkey : IsValue key) {env : Environment}
    (henv : env.HoldsOnly hostname keyName key) {ps : List (String × String)}
    (hps : (hubEntries hostname keyName key).Perm ps) (transport transport' : Transport)
    (env' : Environment) :
    (IsUsable hostname keyName key ∧ ∃ c c',
      fromVariables transport env = .ok c ∧
      fromConnectionString transport' env' (plainText ps) = .ok c' ∧
      c.credential = c'.credential ∧ c.credential.hostname = hostname ∧
      c.credential.key = key ∧ c.credential.keyName = keyName) ∨
    (¬IsUsable hostname keyName key ∧ ∃ e e',
      fromVariables transport env = .error e ∧
      fromConnectionString transport' env' (plainText ps) = .error e' ∧
      e.kind = .invalidArgument ∧ e'.kind = .invalidArgument) := by
  have hentries := isEntry_of_mem_hubEntries hhost hkeyName hkey
  have hwritten : IsWritten ps (plainText ps) :=
    isWritten_plainText fun p hp => hentries p (hps.mem_iff.2 hp)
  obtain ⟨s, hs, hagree⟩ := Settings.exists_isOf_of_holdsOnly henv
  obtain ⟨s', hs', hagree'⟩ := Settings.exists_isOf_of_isWritten hwritten hps
  rw [fromVariables, fromConnectionString, hs, hs']
  rcases hagree.created transport env with
    ⟨husable, c, hc, hhost, hkeyName, hkey⟩ | ⟨hnot, e, he, hkind⟩
  · rcases hagree'.created transport' env' with
      ⟨-, c', hc', hhost', hkeyName', hkey'⟩ | ⟨hnot, -⟩
    · refine .inl ⟨husable, c, c', hc, hc', ?_, hhost, hkey, hkeyName⟩
      ext1
      · rw [hhost, hhost']
      · rw [hkey, hkey']
      · rw [hkeyName, hkeyName']
    · exact absurd husable hnot
  · rcases hagree'.created transport' env' with ⟨husable, -⟩ | ⟨-, e', he', hkind'⟩
    · exact absurd husable hnot
    · exact .inr ⟨hnot, e, e', he, he', hkind, hkind'⟩

/-- An environment with the three variables. -/
def environmentOf (hostname keyName key : String) : Environment :=
  .fixed (.ofList
    [("IOTHUB_HOSTNAME", hostname), ("IOTHUB_SHARED_ACCESS_KEY_NAME", keyName),
      ("IOTHUB_SHARED_ACCESS_KEY", key)])

theorem holds_environmentOf (hostname keyName key name text : String) :
    (environmentOf hostname keyName key).Holds name text ↔
      (if name = "IOTHUB_SHARED_ACCESS_KEY" then some key
        else if name = "IOTHUB_SHARED_ACCESS_KEY_NAME" then some keyName
        else if name = "IOTHUB_HOSTNAME" then some hostname else none) = some text := by
  have hempty : (∅ : KeyMap String).get? name = none := rfl
  simp only [environmentOf, Environment.Holds, KeyMap.ofList, List.foldl_cons, List.foldl_nil,
    KeyMap.get?_insert, hempty]

theorem holdsOnly_environmentOf (hostname keyName key : String) :
    (environmentOf hostname keyName key).HoldsOnly hostname keyName key where
  hostname := (holds_environmentOf ..).2 rfl
  keyName := (holds_environmentOf ..).2 rfl
  key := (holds_environmentOf ..).2 rfl
  noConnection := fun _ h => nomatch (holds_environmentOf ..).1 h

theorem isUsable_sample : IsUsable "a=b.c.d" "e=f" "a2V5==" :=
  ⟨by decide, by decide, "a=b", "c.d", ⟨by decide, by decide⟩, by decide, by decide⟩

/-- A host name whose first dot ends it has no second part. -/
theorem not_hasParts_sample : ¬HasParts "hub." := by
  rintro ⟨name, suffix, hdivided, -, hne⟩
  have hdot : IsDivided "hub." "hub" "" := ⟨by decide, by decide⟩
  exact hne (hdot.inj hdivided).2.symm

theorem Client.created_alike_sample :
    (∃ c c', fromVariables .missing (environmentOf "a=b.c.d" "e=f" "a2V5==") = .ok c ∧
      fromConnectionString .missing .empty
        "SharedAccessKey=a2V5==;HostName=a=b.c.d;SharedAccessKeyName=e=f" = .ok c' ∧
      c.credential = c'.credential ∧ c.credential.hostname = "a=b.c.d") ∧
    ∃ e e', fromVariables .missing (environmentOf "hub." "" "k") = .error e ∧
      fromConnectionString .missing .empty
        "HostName=hub.;SharedAccessKeyName=;SharedAccessKey=k" = .error e' ∧
      e.kind = .invalidArgument ∧ e'.kind = .invalidArgument := by
  have hvalue : ∀ s ∈ ["a=b.c.d", "e=f", "a2V5==", "hub.", "", "k"], IsValue s := by
    decide
  have hperm : (hubEntries "a=b.c.d" "e=f" "a2V5==").Perm
      [("SharedAccessKey", "a2V5=="), ("HostName", "a=b.c.d"), ("SharedAccessKeyName", "e=f")] := by
    decide
  constructor
  · rcases created_alike (hvalue "a=b.c.d" (by decide)) (hvalue "e=f" (by decide))
      (hvalue "a2V5==" (by decide)) (holdsOnly_environmentOf _ _ _) hperm .missing .missing .empty
      with ⟨-, c, c', hc, hc', heq, hhost, -⟩ | ⟨hnot, -⟩
    · exact ⟨c, c', hc, hc', heq, hhost⟩
    · exact absurd isUsable_sample hnot
  · rcases created_alike (hvalue "hub." (by decide)) (hvalue "" (by decide))
      (hvalue "k" (by decide)) (holdsOnly_environmentOf _ _ _) (.refl _) .missing .missing .empty
      with ⟨husable, -⟩ | ⟨-, e, e', he, he', hkind, hkind'⟩
    · exact absurd husable.2.2 not_hasParts_sample
    · exact ⟨e, e', he, he', hkind, hkind'⟩

end HubConfig
