/-
**The hub and nobody else.**

The address of a request is the name of the host with a path behind it, and the name is looked at
only in an address.  A name in which no character ends an authority is the whole authority of every
request, and what follows it is the path and the query of the operation as they were made.  Any
other name is cut where its authority ends, and its requests go somewhere else.

On one host the address of a configuration is as good as its id: the id can be read off it, and no
list and no check of queries has the same address.

Main definitions:

* `IsHostName`: names in which no character ends an authority;
* `Request.IsAddressedTo`: a request that goes to a host, for a path;
* `IsSegment`: texts of unreserved characters and percent triples;
* `IsSent`: the requests that calls about a target make on a host.

Main results:

* `Uri.target_of_readPath`: what is read without a hash sign is shown as it stood;
* `Call.addressed_exact`: **a request goes to its hub exactly if the name of the hub is a host
  name**;
* `configuration_uri_exact`: **configurations have addresses of their own**.
-/

import HubConfig.Proofs.Exchange
import HubConfig.Text.Utf8
import Mathlib.Data.List.TakeWhile

set_option autoImplicit false

namespace HubConfig

open HubConfig.Text

/-! ### Names of hosts -/

/-- A name in which no character ends an authority. -/
def IsHostName (hostname : String) : Prop :=
  ∀ c ∈ hostname.toList, c ≠ '/' ∧ c ≠ '?' ∧ c ≠ '#'

/-- The part of a name that is its authority. -/
def authorityOf (hostname : String) : List Char :=
  hostname.toList.takeWhile fun c => !Uri.endsAuthority c

theorem Uri.not_endsAuthority_iff {c : Char} :
    (!endsAuthority c) = true ↔ c ≠ '/' ∧ c ≠ '?' ∧ c ≠ '#' := by
  simp [endsAuthority, and_assoc]

instance (hostname : String) : Decidable (IsHostName hostname) :=
  decidable_of_iff (hostname.toList.all fun c => !Uri.endsAuthority c)
    (List.all_eq_true.trans (forall₂_congr fun _ _ => Uri.not_endsAuthority_iff))

/-- A host name is an authority as a whole, and no other name is. -/
theorem authorityOf_eq_iff {hostname : String} :
    authorityOf hostname = hostname.toList ↔ IsHostName hostname := by
  rw [authorityOf, List.takeWhile_eq_self_iff, IsHostName]
  simp only [Uri.not_endsAuthority_iff]

theorem IsHostName.dropWhile_eq_nil {hostname : String} (h : IsHostName hostname) :
    hostname.toList.dropWhile (fun c => !Uri.endsAuthority c) = [] :=
  List.dropWhile_eq_nil_iff.2 fun c hc => Uri.not_endsAuthority_iff.2 (h c hc)

namespace Uri

/-- Where an authority is cut off. -/
theorem parts_of_splitAuthority {cs authority tail : List Char}
    (h : splitAuthority cs = .ok (authority, tail)) :
    authority = cs.takeWhile (fun c => !endsAuthority c) ∧
      tail = cs.dropWhile (fun c => !endsAuthority c) := by
  rw [splitAuthority] at h
  split at h
  · cases h
  · dsimp only at h
    split at h
    · cases h
    · split at h
      · cases h
        exact ⟨rfl, rfl⟩
      · cases h

/-! ### What follows the authority -/

/-- What is shown of a URI behind its authority, if its path is not empty. -/
def target (u : Uri) : List Char := u.path ++ (u.query.map ('?' :: ·)).getD []

theorem eq_of_readQuery {cs query : List Char} (hash : '#' ∉ cs) (h : readQuery cs = .ok query) :
    query = cs := by
  induction cs generalizing query with
  | nil =>
    cases h
    rfl
  | cons c cs ih =>
    rw [List.mem_cons, not_or] at hash
    rw [readQuery, if_neg (Ne.symm hash.1)] at h
    split at h
    · cases hq : readQuery cs with
      | error fault => rw [hq] at h; cases h
      | ok rest =>
        rw [hq] at h
        cases h
        rw [ih hash.2 hq]
    · cases h

/-- **What is read without a hash sign is shown as it stood.** -/
theorem target_of_readPath {cs path : List Char} {query : Option (List Char)} (hash : '#' ∉ cs)
    (h : readPath cs = .ok (path, query)) : path ++ (query.map ('?' :: ·)).getD [] = cs := by
  induction cs generalizing path query with
  | nil =>
    cases h
    rfl
  | cons c cs ih =>
    rw [List.mem_cons, not_or] at hash
    rw [readPath, if_neg (Ne.symm hash.1)] at h
    split at h
    · next hmark =>
      -- The first question mark begins the query, which is all the rest.
      cases hq : readQuery cs with
      | error fault => rw [hq] at h; cases h
      | ok rest =>
        rw [hq] at h
        cases h
        simp [hmark, eq_of_readQuery hash.2 hq]
    · split at h
      · cases hp : readPath cs with
        | error fault => rw [hp] at h; cases h
        | ok parts =>
          rw [hp] at h
          cases h
          simpa using ih hash.2 hp
      · cases h

/-! ### The characters of an authority -/

theorem ne_space_of_step {s s' : AuthorityScan} {c : Char} (h : s.step c = .ok s') : c ≠ ' ' := by
  rintro rfl
  cases h

theorem ne_space_of_run {s s' : AuthorityScan} {cs : List Char} (h : s.run cs = .ok s') :
    ∀ c ∈ cs, c ≠ ' ' := by
  induction cs generalizing s with
  | nil => simp
  | cons c cs ih =>
    rw [AuthorityScan.run] at h
    split at h
    · next s'' hstep =>
      intro d hd
      rcases List.mem_cons.1 hd with rfl | hd
      · exact ne_space_of_step hstep
      · exact ih h d hd
    · cases h

theorem space_not_mem_of_splitAuthority {cs authority tail : List Char}
    (h : splitAuthority cs = .ok (authority, tail)) : ' ' ∉ authority := by
  obtain ⟨rfl, -⟩ := parts_of_splitAuthority h
  rw [splitAuthority] at h
  split at h
  · cases h
  · dsimp only at h
    split at h
    · cases h
    · next scan hscan => exact fun hmem => ne_space_of_run hscan ' ' hmem rfl

theorem authority_of_parsePath {cs : List Char} {u : Uri} (h : parsePath cs = .ok u) :
    u.authority = [] := by
  rw [parsePath] at h
  split at h
  · cases h
    rfl
  · cases h

theorem splitAuthority_of_parseFull {cs : List Char} {u : Uri} (h : parseFull cs = .ok u) :
    ∃ ds tail, splitAuthority ds = .ok (u.authority, tail) := by
  rw [parseFull] at h
  split at h
  · cases h
  · split at h
    · cases h
    · next authority tail hsplit =>
      -- Whatever comes of the rest, the authority is the one that was cut off.
      suffices u.authority = authority from ⟨_, tail, this ▸ hsplit⟩
      split at h
      · split at h
        · cases h
          rfl
        · cases h
      · split at h
        · cases h
        · split at h
          · cases h
          · cases h
            rfl

theorem splitAuthority_of_parseSingle {c : Char} {u : Uri} (h : parseSingle c = .ok u) :
    u.authority = [] ∨ ∃ ds tail, splitAuthority ds = .ok (u.authority, tail) := by
  rw [parseSingle] at h
  split at h
  · cases h
    exact Or.inl rfl
  · split at h
    · cases h
    · next authority tail hsplit =>
      split at h
      · cases h
        exact Or.inr ⟨_, tail, hsplit⟩
      · cases h

/-- An authority that is there was cut off somewhere. -/
theorem splitAuthority_of_parse {cs : List Char} {u : Uri} (h : parse cs = .ok u) :
    u.authority = [] ∨ ∃ ds tail, splitAuthority ds = .ok (u.authority, tail) := by
  rw [parse.eq_def] at h
  split at h
  · cases h
  · split at h
    · cases h
    · split at h
      · exact splitAuthority_of_parseSingle h
      · exact Or.inr (splitAuthority_of_parseFull h)
    · split at h
      · exact Or.inl (authority_of_parsePath h)
      · exact Or.inr (splitAuthority_of_parseFull h)

/-- No authority holds a space. -/
theorem space_not_mem_authority {cs : List Char} {u : Uri} (h : parse cs = .ok u) :
    ' ' ∉ u.authority := by
  rcases splitAuthority_of_parse h with hempty | ⟨ds, tail, hsplit⟩
  · rw [hempty]
    exact List.not_mem_nil
  · exact space_not_mem_of_splitAuthority hsplit

end Uri

/-! ### Requests and their hosts -/

/-- A request that goes to a host by the usual scheme, for a path and a query. -/
structure Request.IsAddressedTo (r : Request) (hostname path : String) : Prop where
  scheme : r.uri.scheme = some Uri.https
  authority : r.uri.authority = hostname.toList
  target : r.uri.target = path.toList

theorem hash_not_mem_of_isTargetText {path : String} (h : IsTargetText path) :
    '#' ∉ path.toList := by
  intro hmem
  have := List.all_eq_true.1 h.2 '#' hmem
  revert this
  decide

namespace Call

variable {c : Client} {m : Moment} {call : Call} {r : Request}

/-- A request goes to the authority of the name, and to its own path if that is all of the name. -/
theorem parts_of_uri (h : call.request c m = .ok r) :
    ∃ path, relativePath call.operation call.target = .ok path ∧
      r.uri.scheme = some Uri.https ∧ r.uri.authority = authorityOf c.credential.hostname ∧
      (IsHostName c.credential.hostname → r.uri.target = path.toList) := by
  obtain ⟨-, -, ⟨path, hpath, huri⟩, -⟩ := parts_of_request h
  have htext := isTargetText_of_relativePath hpath
  obtain ⟨⟨rest, hslash⟩, -⟩ := id htext
  refine ⟨path, hpath, ?_⟩
  rw [String.toList_append, toList_endpoint, List.append_assoc] at huri
  obtain ⟨-, authority, tail, path', query, hsplit, -, hread, hparts⟩ :=
    Uri.parse_https_eq_ok_iff.1 huri
  rw [List.append_eq] at hsplit
  obtain ⟨rfl, rfl⟩ := Uri.parts_of_splitAuthority hsplit
  -- The path begins with a slash, so it ends the authority if the name does not.
  rw [hslash, Uri.dropWhile_append_slash, ← hslash] at hread
  rw [hparts]
  refine ⟨rfl, ?_, ?_⟩
  · rw [hslash]
    exact Uri.takeWhile_append_slash _ rest
  · intro hname
    rw [hname.dropWhile_eq_nil, List.nil_append] at hread
    exact Uri.target_of_readPath (hash_not_mem_of_isTargetText htext) hread

/-- The request of a call goes to the whole name exactly if that is a host name. -/
theorem isAddressedTo_iff (h : call.request c m = .ok r) :
    ∃ path, relativePath call.operation call.target = .ok path ∧
      r.uri.scheme = some Uri.https ∧ r.uri.authority = authorityOf c.credential.hostname ∧
      (r.IsAddressedTo c.credential.hostname path ↔ IsHostName c.credential.hostname) := by
  obtain ⟨path, hpath, hscheme, hauthority, htarget⟩ := parts_of_uri h
  refine ⟨path, hpath, hscheme, hauthority, ?_, ?_⟩
  · intro hr
    exact authorityOf_eq_iff.1 (hauthority.symm.trans hr.authority)
  · intro hname
    exact ⟨hscheme, hauthority.trans (authorityOf_eq_iff.2 hname), htarget hname⟩

/-- The address of a request is a URI. -/
theorem parse_of_request (h : call.request c m = .ok r) :
    ∃ text, Uri.parse text = .ok r.uri := by
  obtain ⟨-, -, ⟨path, -, huri⟩, -⟩ := parts_of_request h
  exact ⟨_, huri⟩

/-- **A request goes to its hub exactly if the name of the hub is a host name.**  Any other name is
cut where its authority ends.  A host name that is the authority of no address is refused before
anything is sent. -/
theorem addressed_exact (c : Client) (m : Moment) (call : Call) :
    (∀ r ∈ (call.perform c m).requests,
      ∃ path, relativePath call.operation call.target = .ok path ∧
        r.uri.scheme = some Uri.https ∧ r.uri.authority = authorityOf c.credential.hostname ∧
        (r.IsAddressedTo c.credential.hostname path ↔ IsHostName c.credential.hostname)) ∧
    (IsHostName c.credential.hostname →
      (∀ text u, Uri.parse text = .ok u → u.scheme = some Uri.https →
        u.authority ≠ c.credential.hostname.toList) →
      (call.perform c m).requests = [] ∧
        (call.HasTarget → call.IsWritable →
          ∃ e, (call.perform c m).result = .error e ∧ e.kind = .httpApi)) := by
  refine ⟨fun r hr => isAddressedTo_iff (request_of_mem_requests hr), fun hname hnone => ?_⟩
  have hempty : (call.perform c m).requests = [] := by
    refine List.eq_nil_iff_forall_not_mem.2 fun r hr => ?_
    have hrequest := request_of_mem_requests hr
    obtain ⟨text, htext⟩ := parse_of_request hrequest
    obtain ⟨path, -, -, -, hiff⟩ := isAddressedTo_iff hrequest
    have haddressed := hiff.2 hname
    exact hnone text r.uri htext haddressed.scheme haddressed.authority
  refine ⟨hempty, fun htarget hwritable => ?_⟩
  obtain ⟨e, he, -, -, hkind⟩ := exists_error_of_requests_eq_nil hempty
  exact ⟨e, he, hkind htarget hwritable⟩

end Call

/-- A client of a hub with some name. -/
def clientOf (hostname : String) (h : hostname ≠ "") : Client :=
  ⟨⟨hostname, "a2V5", "owner", h, by decide⟩, .connected "Mock", .empty⟩

/-- It gets any configuration from a host that is a URI, if the address is not too long. -/
theorem exists_sent_by_clientOf {hostname id : String} (h : hostname ≠ "") (hid : id ≠ "")
    (hhost : ∃ u, Uri.parse (Client.endpoint hostname).toList = .ok u)
    (hlength : utf8Length (Client.endpoint hostname ++ configurationPath id).toList ≤
      Uri.maxLength) (m : Moment) :
    ∃ r, r ∈ ((Call.get id).perform (clientOf hostname h) m).requests := by
  have hkey : (clientOf hostname h).credential.key.toList = Base64.encode [0x6B, 0x65, 0x79] := by
    change "a2V5".toList = _
    decide
  have hpath : relativePath (Call.get id).operation (Call.get id).target =
      .ok (configurationPath id) := relativePath_configuration rfl hid
  have ht : (clientOf hostname h).transport ≠ .missing := nofun
  have hrequest : ∃ r, (Call.get id).request (clientOf hostname h) m = .ok r :=
    Call.exists_request_iff.2 ⟨hid, trivial, ⟨_, hkey⟩, hhost, _, hpath, hlength⟩
  obtain ⟨r, hr⟩ := hrequest
  exact ⟨r, (Call.mem_requests_iff ht).2 hr⟩

theorem parse_endpoint_hub : Uri.parse (Client.endpoint "hub").toList =
    .ok ⟨some Uri.https, "hub".toList, [], none⟩ := by decide

theorem Call.addressed_exact_sample :
    (∃ r ∈ ((Call.get "a").perform (clientOf "hub" (by decide))
        (sampleMoment (.ok ⟨⟨200⟩, []⟩))).requests,
      r.IsAddressedTo "hub" "/configurations/a?api-version=2018-06-30") ∧
    ((Call.get "a").perform (clientOf "bad host" (by decide))
      (sampleMoment (.ok ⟨⟨200⟩, []⟩))).requests = [] := by
  refine ⟨?_, ?_⟩
  · have hname : IsHostName "hub" := by decide
    obtain ⟨r, hr⟩ := exists_sent_by_clientOf (by decide) (by decide) ⟨_, parse_endpoint_hub⟩
      (by decide : utf8Length (_ ++ configurationPath "a").toList ≤ _)
      (sampleMoment (.ok ⟨⟨200⟩, []⟩))
    obtain ⟨path, hpath, -, -, haddressed⟩ := (Call.addressed_exact _ _ _).1 r hr
    cases hpath
    exact ⟨r, hr, haddressed.2 hname⟩
  · have hname : IsHostName "bad host" := by decide
    refine ((Call.addressed_exact _ _ _).2 hname ?_).1
    intro text u hu _ hauthority
    -- There is a space in the name, so it is the authority of nothing.
    refine Uri.space_not_mem_authority hu ?_
    rw [hauthority]
    decide

/-- A name may hold a slash, and then the request goes to the name before it. -/
theorem Call.not_always_addressed :
    ¬∀ (c : Client) (m : Moment) (call : Call), ∀ r ∈ (call.perform c m).requests,
      ∃ path, relativePath call.operation call.target = .ok path ∧
        r.IsAddressedTo c.credential.hostname path := by
  intro h
  have hhost : Uri.parse (Client.endpoint "hub.example/x").toList =
      .ok ⟨some Uri.https, "hub.example".toList, "/x".toList, none⟩ := by decide
  obtain ⟨r, hr⟩ := exists_sent_by_clientOf (by decide) (by decide) ⟨_, hhost⟩
    (by decide : utf8Length (_ ++ configurationPath "a").toList ≤ _)
    (sampleMoment (.ok ⟨⟨200⟩, []⟩))
  obtain ⟨path, -, haddressed⟩ := h _ _ _ r hr
  obtain ⟨_, -, -, hauthority, -⟩ := Call.isAddressedTo_iff (Call.request_of_mem_requests hr)
  have hname := authorityOf_eq_iff.1 (hauthority.symm.trans haddressed.authority)
  have hslash : '/' ∈ "hub.example/x".toList := by decide
  exact (hname '/' hslash).1 rfl

/-! ### Segments -/

/-- Decimal digits and the letters from `A` to `F`. -/
def IsUpperHex (c : Char) : Prop := c.isDigit = true ∨ c ∈ ['A', 'B', 'C', 'D', 'E', 'F']

/-- Texts of letters, digits, `-`, `.`, `_` and `~`, and of percent signs with two upper case
hexadecimal digits. -/
inductive IsSegment : List Char → Prop
  | nil : IsSegment []
  | plain {c : Char} {cs : List Char} (h : c.isAlphanum = true ∨ c ∈ ['-', '.', '_', '~'])
      (hcs : IsSegment cs) : IsSegment (c :: cs)
  | triple {x y : Char} {cs : List Char} (hx : IsUpperHex x) (hy : IsUpperHex y)
      (hcs : IsSegment cs) : IsSegment ('%' :: x :: y :: cs)

theorem plain_of_isUnreserved : ∀ b : UInt8, isUnreserved b = true →
    (Char.ofNat b.toNat).isAlphanum = true ∨ Char.ofNat b.toNat ∈ ['-', '.', '_', '~'] :=
  forall_byte (by decide +kernel)

theorem isUpperHex_upperHexDigit : ∀ n < 16, IsUpperHex (upperHexDigit n) := by
  simp only [IsUpperHex]
  decide

theorem IsUpperHex.ne_question {c : Char} (h : IsUpperHex c) : '?' ≠ c := by
  rintro rfl
  rw [IsUpperHex] at h
  exact absurd h (by decide)

theorem IsSegment.percentByte_append (b : UInt8) {cs : List Char} (h : IsSegment cs) :
    IsSegment (percentByte b ++ cs) := by
  rw [percentByte]
  split
  · next hb => exact .plain (plain_of_isUnreserved b hb) h
  · have hb : b.toNat < 256 := b.toNat_lt
    exact .triple (isUpperHex_upperHexDigit _ (by omega)) (isUpperHex_upperHexDigit _ (by omega)) h

/-- A written segment is made of unreserved characters and triples. -/
theorem isSegment_percentEncode (bs : Bytes) : IsSegment (percentEncode bs) := by
  induction bs with
  | nil => exact .nil
  | cons b bs ih => exact ih.percentByte_append b

theorem IsSegment.question_not_mem {cs : List Char} (h : IsSegment cs) : '?' ∉ cs := by
  induction h with
  | nil => exact List.not_mem_nil
  | plain hc hcs ih =>
    rw [List.mem_cons, not_or]
    refine ⟨?_, ih⟩
    rintro rfl
    exact absurd hc (by decide)
  | triple hx hy hcs ih =>
    simp only [List.mem_cons, not_or]
    exact ⟨by decide, hx.ne_question, hy.ne_question, ih⟩

theorem isSegment_idSegment (id : String) : IsSegment (idSegment id) := isSegment_percentEncode _

theorem percentDecode_idSegment (id : String) :
    percentDecode (idSegment id) = utf8Bytes id.toList := by
  rw [idSegment, percentDecode_percentEncode]

/-- The id can be read off its segment. -/
theorem idSegment_inj {id id' : String} : idSegment id = idSegment id' ↔ id = id' := by
  refine ⟨fun h => ?_, fun h => h ▸ rfl⟩
  have hbytes := congrArg percentDecode h
  rw [percentDecode_idSegment, percentDecode_idSegment] at hbytes
  have htext := congrArg utf8Text? hbytes
  rw [utf8Text?_utf8Bytes, utf8Text?_utf8Bytes] at htext
  exact Option.some.inj htext

theorem idSegment_ne_nil {id : String} (h : id ≠ "") : idSegment id ≠ [] := by
  have hempty : idSegment "" = [] := rfl
  rw [← hempty]
  exact fun heq => h (idSegment_inj.1 heq)

/-! ### Addresses of configurations -/

/-- The requests that calls about a target make on a host. -/
def IsSent (hostname : String) (target : Target) (r : Request) : Prop :=
  ∃ (c : Client) (m : Moment) (call : Call), c.credential.hostname = hostname ∧
    call.target = target ∧ r ∈ (call.perform c m).requests

/-- A request is shown with the scheme, its host and its target. -/
theorem Request.IsAddressedTo.toString_uri {r : Request} {hostname path : String}
    (h : r.IsAddressedTo hostname path) (hpath : IsTargetText path) :
    r.uri.toString = "https://" ++ hostname ++ path := by
  obtain ⟨⟨rest, hslash⟩, -⟩ := hpath
  have htarget := h.target
  -- The target begins with a slash, so the path that is shown is the path that is there.
  have hshown : r.uri.shownPath = r.uri.path := by
    rw [Uri.shownPath, if_neg]
    rintro ⟨hempty, -⟩
    rw [Uri.target, hempty, hslash] at htarget
    cases hquery : r.uri.query with
    | none => simp [hquery] at htarget
    | some query => simp [hquery] at htarget
  apply String.toList_inj.1
  rw [Uri.toString, String.toList_ofList, Uri.characters, hshown, h.scheme, h.authority,
    List.append_assoc, ← Uri.target, htarget, String.toList_append, String.toList_append]
  rfl

theorem IsSent.toString_uri {hostname : String} {target : Target} {r : Request}
    (hname : IsHostName hostname) (h : IsSent hostname target r) :
    ∃ op path, relativePath op target = .ok path ∧
      r.uri.toString = "https://" ++ hostname ++ path := by
  obtain ⟨c, m, call, rfl, rfl, hr⟩ := h
  obtain ⟨path, hpath, -, -, hiff⟩ := Call.isAddressedTo_iff (Call.request_of_mem_requests hr)
  exact ⟨_, path, hpath, (hiff.2 hname).toString_uri (isTargetText_of_relativePath hpath)⟩

/-- What follows the host in the address of a configuration. -/
theorem path_of_configuration {op : Operation} {id path : String}
    (h : relativePath op (.configuration id) = .ok path) :
    id ≠ "" ∧ path = configurationPath id := by
  simp only [relativePath] at h
  split at h
  · split at h
    · cases h
    · next hid =>
      cases h
      exact ⟨hid, rfl⟩
  · cases h

theorem path_of_list {op : Operation} {top : Nat} {path : String}
    (h : relativePath op (.list top) = .ok path) :
    path = "/configurations/?top=" ++ String.ofList (decimal top) ++ "&" ++ apiVersion := by
  simp only [relativePath] at h
  split at h
  · cases h
    rfl
  · cases h

theorem path_of_testQueries {op : Operation} {path : String}
    (h : relativePath op .testQueries = .ok path) :
    path = "/configurationstestQueries?" ++ apiVersion := by
  simp only [relativePath] at h
  split at h
  · cases h
    rfl
  · cases h

theorem toList_configurationPath (id : String) :
    (configurationPath id).toList =
      "/configurations/".toList ++ (idSegment id ++ '?' :: apiVersion.toList) := by
  have hmark : "?".toList = ['?'] := by decide
  have hsegment : (String.ofList (idSegment id)).toList = idSegment id := String.toList_ofList
  unfold configurationPath
  rw [String.toList_append, String.toList_append, String.toList_append, hsegment, hmark,
    List.append_assoc, List.append_assoc, List.singleton_append]

theorem configurationPath_inj {id id' : String} :
    configurationPath id = configurationPath id' ↔ id = id' := by
  refine ⟨fun h => ?_, fun h => h ▸ rfl⟩
  have hlist := congrArg String.toList h
  rw [toList_configurationPath, toList_configurationPath] at hlist
  exact idSegment_inj.1 (List.append_cancel_right (List.append_cancel_left hlist))

/-- A segment that is not empty begins with no question mark. -/
theorem configurationPath_ne_list {id : String} (h : id ≠ "") (top : Nat) :
    configurationPath id ≠
      "/configurations/?top=" ++ String.ofList (decimal top) ++ "&" ++ apiVersion := by
  intro heq
  have hlist := congrArg String.toList heq
  have hfront : "/configurations/?top=".toList =
      "/configurations/".toList ++ '?' :: "top=".toList := by decide
  rw [toList_configurationPath, String.append_assoc, String.append_assoc, String.toList_append,
    hfront, List.append_assoc] at hlist
  have hrest := List.append_cancel_left hlist
  have hmark := (isSegment_idSegment id).question_not_mem
  cases hseg : idSegment id with
  | nil => exact idSegment_ne_nil h hseg
  | cons c cs =>
    rw [hseg] at hrest hmark
    obtain ⟨rfl, -⟩ := List.cons.inj hrest
    exact hmark List.mem_cons_self

theorem configurationPath_ne_testQueries (id : String) :
    configurationPath id ≠ "/configurationstestQueries?" ++ apiVersion := by
  intro heq
  have hlist := congrArg String.toList heq
  -- After the common word there is a slash in one and a letter in the other.
  have hslash : "/configurations/".toList = "/configurations".toList ++ ['/'] := by decide
  have hletter : "/configurationstestQueries?".toList =
      "/configurations".toList ++ 't' :: "estQueries?".toList := by decide
  rw [toList_configurationPath, String.toList_append, hslash, hletter, List.append_assoc,
    List.append_assoc] at hlist
  have hrest := List.append_cancel_left hlist
  obtain ⟨hchar, -⟩ := List.cons.inj hrest
  exact absurd hchar (by decide)

/-- **Configurations have addresses of their own**: on one host the address is as good as the id,
and it is the address of nothing else. -/
theorem configuration_uri_exact {hostname : String} (hname : IsHostName hostname) :
    (∀ id r, IsSent hostname (.configuration id) r →
      r.uri.toString = "https://" ++ hostname ++ "/configurations/" ++
          String.ofList (idSegment id) ++ "?api-version=2018-06-30" ∧
        idSegment id ≠ [] ∧ IsSegment (idSegment id) ∧
        percentDecode (idSegment id) = utf8Bytes id.toList) ∧
    (∀ id id' r r', IsSent hostname (.configuration id) r →
      IsSent hostname (.configuration id') r' →
      (r.uri.toString = r'.uri.toString ↔ id = id')) ∧
    (∀ id r r', IsSent hostname (.configuration id) r →
      (∃ top, IsSent hostname (.list top) r') ∨ IsSent hostname .testQueries r' →
      r.uri.toString ≠ r'.uri.toString) := by
  have own : ∀ id r, IsSent hostname (.configuration id) r →
      id ≠ "" ∧ r.uri.toString = "https://" ++ hostname ++ configurationPath id := by
    intro id r h
    obtain ⟨op, path, hpath, hshown⟩ := h.toString_uri hname
    obtain ⟨hid, rfl⟩ := path_of_configuration hpath
    exact ⟨hid, hshown⟩
  refine ⟨?_, ?_, ?_⟩
  · intro id r h
    obtain ⟨hid, hshown⟩ := own id r h
    refine ⟨?_, idSegment_ne_nil hid, isSegment_idSegment id, percentDecode_idSegment id⟩
    have hquery : "?" ++ apiVersion = "?api-version=2018-06-30" := by decide
    unfold configurationPath at hshown
    rw [hshown, ← hquery]
    simp only [String.append_assoc]
  · intro id id' r r' h h'
    rw [(own id r h).2, (own id' r' h').2, String.append_right_inj, configurationPath_inj]
  · intro id r r' h h' heq
    obtain ⟨hid, hshown⟩ := own id r h
    rcases h' with ⟨top, h'⟩ | h'
    · obtain ⟨op, path, hpath, hshown'⟩ := h'.toString_uri hname
      rw [hshown, hshown', path_of_list hpath, String.append_right_inj] at heq
      exact configurationPath_ne_list hid top heq
    · obtain ⟨op, path, hpath, hshown'⟩ := h'.toString_uri hname
      rw [hshown, hshown', path_of_testQueries hpath, String.append_right_inj] at heq
      exact configurationPath_ne_testQueries id heq

theorem configuration_uri_exact_sample :
    ∃ r, IsSent "hub" (.configuration "a/ü") r ∧ IsHostName "hub" ∧
      r.uri.toString = "https://hub/configurations/a%2F%C3%BC?api-version=2018-06-30" := by
  have hname : IsHostName "hub" := by decide
  obtain ⟨r, hr⟩ := exists_sent_by_clientOf (by decide) (by decide) ⟨_, parse_endpoint_hub⟩
    (by decide : utf8Length (_ ++ configurationPath "a/ü").toList ≤ _)
    (sampleMoment (.ok ⟨⟨200⟩, []⟩))
  have hsent : IsSent "hub" (.configuration "a/ü") r := ⟨_, _, _, rfl, rfl, hr⟩
  refine ⟨r, hsent, hname, ?_⟩
  rw [((configuration_uri_exact hname).1 _ r hsent).1]
  decide

end HubConfig
