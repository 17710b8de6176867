/-
**Requests that can be signed.**

Once an operation has a path, three things decide whether its request is made: the key must be
Base64, the host must be a URI, and the whole address must not be too long.  Nothing else can go
wrong, neither the headers nor the token nor the path.

Main definitions:

* `Client.signature`: what the token of a request is made of;
* `signedHeaders`: the headers of a request with its token.

Main results:

* `Client.request_eq_ok_iff`: the request that is made;
* `Client.exists_request_iff`: **when one is made**;
* `Client.kind_of_request`: the error when none is.
-/

import HubConfig.Hash.Base64
import HubConfig.Proofs.Address
import HubConfig.Proofs.TokenFields

set_option autoImplicit false

namespace HubConfig

open HubConfig.Text

/-! ### One step after another -/

section Bind

variable {α β : Type} {x : Except Error α} {f : α → Except Error β}

theorem bind_eq_ok_iff {b : β} : (x >>= f) = .ok b ↔ ∃ a, x = .ok a ∧ f a = .ok b := by
  cases x with
  | error e => simp [bind, Except.bind]
  | ok a => simp [bind, Except.bind]

theorem bind_eq_error_iff {e : Error} :
    (x >>= f) = .error e ↔ x = .error e ∨ ∃ a, x = .ok a ∧ f a = .error e := by
  cases x with
  | error e => simp [bind, Except.bind]
  | ok a => simp [bind, Except.bind]

end Bind

/-! ### Signatures -/

namespace SharedAccessSignature

/-- The key of a credential is all that can keep it from signing. -/
theorem forCredential_eq_ok_iff {c : Credential} {expiry : Instant} {s : SharedAccessSignature} :
    forCredential c expiry = .ok s ↔
      ∃ key, c.key.toList = Base64.encode key ∧ s = ⟨key, c.hostname, c.keyName, expiry⟩ := by
  obtain ⟨hhostname, hkey, hname⟩ := c.complete
  rw [forCredential, make_eq_ok_iff, Base64.decode?_eq_some_iff]
  constructor
  · rintro ⟨-, hencode, hresource, hkeyName, hexpiry⟩
    obtain ⟨key, resource, keyName, expiry'⟩ := s
    subst hresource hkeyName hexpiry
    exact ⟨key, hencode, rfl⟩
  · rintro ⟨key, hencode, rfl⟩
    exact ⟨⟨hkey, hhostname, hname⟩, hencode, rfl, rfl, rfl⟩

theorem kind_of_forCredential {c : Credential} {expiry : Instant} {e : Error}
    (h : forCredential c expiry = .error e) : e.kind = .httpApi := by
  rw [forCredential, make] at h
  split at h
  · cases h
    rfl
  · split at h
    · cases h
    · cases h
      rfl

end SharedAccessSignature

/-! ### Headers -/

/-- The headers of a request with its token, which alone is a secret. -/
def signedHeaders (op : Operation) (id : RequestId) (token : String) : List Header :=
  [⟨"authorization", token, true⟩, ⟨"request-id", id.toString, false⟩,
    ⟨"user-agent", "iothubserviceclient-rs/0.1.0", false⟩,
    ⟨"content-type", "application/json; charset=utf-8", false⟩] ++
  if op.changes then [⟨"if-match", "'*'", false⟩] else []

/-- The token takes the place that was held for it. -/
theorem authorize_headersAround (op : Operation) (id : RequestId) (token : String) :
    authorize ⟨authorizationName, token, true⟩
      (headersAround op ⟨"request-id", id.toString, false⟩) = signedHeaders op id token := by
  rw [headersAround, signedHeaders, authorize]
  cases op.changes <;> simp [authorizationName]

/-! ### Requests -/

namespace Client

variable {c : Client} {m : Moment} {op : Operation} {target : Target} {body path : String}

/-- What the token of a request is made of, for a key of given bytes.  It lasts an hour. -/
def signature (c : Client) (m : Moment) (key : Bytes) : SharedAccessSignature :=
  ⟨key, c.credential.hostname, c.credential.keyName, ⟨m.now.seconds + 3600, m.now.nanos⟩⟩

theorem unsignedHeaders_eq_ok (m : Moment) (op : Operation) :
    unsignedHeaders m op =
      .ok (headersAround op ⟨"request-id", m.requestId.toString, false⟩) := by
  rw [unsignedHeaders, requestHeaders_eq_ok]

theorem checkEndpoint_eq_ok_iff {hostname : String} {u : Unit} :
    checkEndpoint hostname = .ok u ↔
      ∃ uri, Uri.parse (endpoint hostname).toList = .ok uri := by
  rw [checkEndpoint]
  cases Uri.parse (endpoint hostname).toList <;> simp

theorem kind_of_checkEndpoint {hostname : String} {e : Error}
    (h : checkEndpoint hostname = .error e) : e.kind = .httpApi := by
  rw [checkEndpoint] at h
  split at h
  · cases h
  · cases h
    rfl

theorem requestUri_eq_ok_iff {hostname : String} {uri : Uri} :
    requestUri hostname path op = .ok uri ↔
      Uri.parse (endpoint hostname ++ path).toList = .ok uri := by
  rw [requestUri]
  cases Uri.parse (endpoint hostname ++ path).toList <;> simp

theorem kind_of_requestUri {hostname : String} {e : Error}
    (h : requestUri hostname path op = .error e) : e.kind = .httpApi := by
  rw [requestUri] at h
  split at h
  · cases h
  · cases h
    rfl

/-- **The request that is made.** -/
theorem request_eq_ok_iff {r : Request} (hpath : relativePath op target = .ok path) :
    c.request m op target body = .ok r ↔
      ∃ key uri, c.credential.key.toList = Base64.encode key ∧
        (∃ u, Uri.parse (endpoint c.credential.hostname).toList = .ok u) ∧
        Uri.parse (endpoint c.credential.hostname ++ path).toList = .ok uri ∧
        r = ⟨op.method, uri, signedHeaders op m.requestId (c.signature m key).token, body⟩ := by
  simp only [request, unsignedHeaders_eq_ok, hpath, bind_eq_ok_iff, checkEndpoint_eq_ok_iff,
    requestUri_eq_ok_iff, SharedAccessSignature.forCredential_eq_ok_iff, Except.ok.injEq]
  constructor
  · rintro ⟨_, rfl, s, ⟨key, hkey, rfl⟩, _, hhost, _, rfl, uri, huri, header, hheader, rfl⟩
    refine ⟨key, uri, hkey, hhost, huri, ?_⟩
    rw [SharedAccessSignature.header_eq_ok, Except.ok.injEq] at hheader
    rw [← hheader, authorize_headersAround]
    rfl
  · rintro ⟨key, uri, hkey, hhost, huri, rfl⟩
    refine ⟨_, rfl, _, ⟨key, hkey, rfl⟩, (), hhost, _, rfl, uri, huri, _,
      SharedAccessSignature.header_eq_ok _, ?_⟩
    rw [authorize_headersAround]
    rfl

/-- **When a request is made.** -/
theorem exists_request_iff (hpath : relativePath op target = .ok path) :
    (∃ r, c.request m op target body = .ok r) ↔
      (∃ key, c.credential.key.toList = Base64.encode key) ∧
        (∃ u, Uri.parse (endpoint c.credential.hostname).toList = .ok u) ∧
        utf8Length (endpoint c.credential.hostname ++ path).toList ≤ Uri.maxLength := by
  simp only [request_eq_ok_iff hpath]
  constructor
  · rintro ⟨r, key, uri, hkey, hhost, huri, -⟩
    exact ⟨⟨key, hkey⟩, hhost, Uri.parse_length_le huri⟩
  · rintro ⟨⟨key, hkey⟩, hhost, hlength⟩
    obtain ⟨uri, huri⟩ :=
      exists_parse_endpoint_append hhost (isTargetText_of_relativePath hpath) hlength
    exact ⟨_, key, uri, hkey, hhost, huri, rfl⟩

/-- The error when no request is made. -/
theorem kind_of_request {e : Error} (hpath : relativePath op target = .ok path)
    (h : c.request m op target body = .error e) : e.kind = .httpApi := by
  simp only [request, unsignedHeaders_eq_ok, hpath, bind_eq_error_iff, reduceCtorEq, false_or,
    SharedAccessSignature.header_eq_ok, and_false, exists_false, or_false] at h
  obtain ⟨_, -, h⟩ := h
  rcases h with h | ⟨s, -, h⟩
  · exact SharedAccessSignature.kind_of_forCredential h
  · rcases h with h | ⟨_, -, h⟩
    · exact kind_of_checkEndpoint h
    · obtain ⟨_, -, h⟩ := h
      exact kind_of_requestUri h

end Client

end HubConfig
