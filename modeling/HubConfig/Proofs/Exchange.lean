/-
**At most one request.**

A call asks the network at most once, whatever the answer, and exactly once if its arguments, the
key and the address allow it.  The request says what the call is about and nothing more.

Main results:

* `Call.perform_missing`: a client without a transport does what one does whose transport fails;
* `Call.requests_exact`: **when a call makes a request, which one, and the error otherwise**.
-/

import HubConfig.Proofs.Outcome

set_option autoImplicit false

namespace HubConfig

open HubConfig.Text

namespace Call

variable {c : Client} {m : Moment} {call : Call} {r : Request}

/-- A client without a transport does what one does whose transport fails, but nobody gets its
requests. -/
theorem perform_missing (ht : c.transport = .missing) (name : String) :
    call.perform c m =
      { call.perform { c with transport := .connected name }
          { m with answer := fun _ => .error Client.missingTransport } with requests := [] } := by
  have hrequest : call.request { c with transport := .connected name }
      { m with answer := fun _ => .error Client.missingTransport } = call.request c m := rfl
  rw [perform_eq, perform_eq, hrequest]
  cases call.request c m with
  | error e => rfl
  | ok r =>
    dsimp only
    rw [Client.deliver, ht]
    rfl

/-- The parts of the request that a call makes. -/
theorem parts_of_request (h : call.request c m = .ok r) :
    r.method = call.operation.method ∧ call.document = .ok r.body ∧
      (∃ path, relativePath call.operation call.target = .ok path ∧
        Uri.parse (Client.endpoint c.credential.hostname ++ path).toList = .ok r.uri) ∧
      ∃ key, c.credential.key.toList = Base64.encode key ∧
        r.headers = signedHeaders call.operation m.requestId (c.signature m key).token := by
  obtain ⟨htarget, document, hdocument, hr⟩ := request_eq_ok_iff.1 h
  obtain ⟨path, hpath⟩ := exists_relativePath htarget
  obtain ⟨key, uri, hkey, -, huri, rfl⟩ := (Client.request_eq_ok_iff hpath).1 hr
  exact ⟨rfl, hdocument, ⟨path, hpath, huri⟩, key, hkey, rfl⟩

/-- The verb and the body of a request, by the call that makes it. -/
theorem verb_and_body :
    r.method = call.operation.method → call.document = .ok r.body →
      match call with
      | .get _ => r.method = .get ∧ r.body = ""
      | .list _ => r.method = .get ∧ r.body = ""
      | .add draft => r.method = .put ∧ draft.encode = .ok r.body
      | .update u => r.method = .put ∧ u.encode = .ok r.body
      | .delete _ => r.method = .delete ∧ r.body = ""
      | .testQueries t => r.method = .post ∧ r.body = t.encode := by
  intro hmethod hdocument
  cases call with
  | get id => exact ⟨hmethod, (Except.ok.inj hdocument).symm⟩
  | list maxCount => exact ⟨hmethod, (Except.ok.inj hdocument).symm⟩
  | add draft => exact ⟨hmethod, hdocument⟩
  | update u => exact ⟨hmethod, hdocument⟩
  | delete id => exact ⟨hmethod, (Except.ok.inj hdocument).symm⟩
  | testQueries t => exact ⟨hmethod, (Except.ok.inj hdocument).symm⟩

theorem length_requests_le_one (c : Client) (m : Moment) (call : Call) :
    (call.perform c m).requests.length ≤ 1 := by
  rw [requests_perform]
  split
  · exact Nat.zero_le 1
  · split
    · exact Nat.zero_le 1
    · exact Nat.le_refl 1

theorem length_requests_eq_one_iff (ht : c.transport ≠ .missing) :
    (call.perform c m).requests.length = 1 ↔ ∃ r, call.request c m = .ok r := by
  rw [requests_perform]
  cases call.request c m with
  | error e => simp
  | ok r => simp [ht]

/-- The error of a call whose requests nobody gets. -/
theorem exists_error_of_requests_eq_nil (h : (call.perform c m).requests = []) :
    ∃ e, (call.perform c m).result = .error e ∧
      (¬call.HasTarget → e.kind = .invalidArgument) ∧
      (call.HasTarget → ¬call.IsWritable → e.kind = .json) ∧
      (call.HasTarget → call.IsWritable → e.kind = .httpApi) := by
  cases hr : call.request c m with
  | error e => exact ⟨e, result_of_unsent hr, kind_of_request hr⟩
  | ok r =>
    -- The request was made, so only the lack of a transport keeps it from anyone.
    obtain ⟨htarget, hwritable, -⟩ := exists_request_iff.1 ⟨r, hr⟩
    have ht : c.transport = .missing := by
      by_cases ht : c.transport = .missing
      · exact ht
      · rw [requests_perform, hr] at h
        dsimp only at h
        rw [if_neg ht] at h
        cases h
    have hanswer : c.answer m r = .error Client.missingTransport := by rw [Client.answer, ht]
    exact ⟨_, result_of_failure hr hanswer, fun hnone => absurd htarget hnone,
      fun _ hnone => absurd hwritable hnone, fun _ _ => rfl⟩

/-- The headers of a request, by the operations that change something. -/
theorem signedHeaders_eq (op : Operation) (id : RequestId) (token : String) :
    signedHeaders op id token =
      [⟨"authorization", token, true⟩, ⟨"request-id", id.toString, false⟩,
        ⟨"user-agent", "iothubserviceclient-rs/0.1.0", false⟩,
        ⟨"content-type", "application/json; charset=utf-8", false⟩] ++
      if op = .add ∨ op = .update ∨ op = .delete then [⟨"if-match", "'*'", false⟩] else [] := by
  cases op <;> rfl

/-- **When a call makes a request, which one, and the error otherwise.** -/
theorem requests_exact (c : Client) (m : Moment) (call : Call) :
    (call.perform c m).requests.length ≤ 1 ∧
    (c.transport ≠ .missing → ((call.perform c m).requests.length = 1 ↔
      call.HasTarget ∧ call.IsWritable ∧
        (∃ key, c.credential.key.toList = Base64.encode key) ∧
        (∃ u, Uri.parse ("https://" ++ c.credential.hostname).toList = .ok u) ∧
        ∃ path, relativePath call.operation call.target = .ok path ∧
          ("https://" ++ c.credential.hostname ++ path).utf8ByteSize ≤ 65534)) ∧
    ((call.perform c m).requests = [] → ∃ e, (call.perform c m).result = .error e ∧
      (¬call.HasTarget → e.kind = .invalidArgument) ∧
      (call.HasTarget → ¬call.IsWritable → e.kind = .json) ∧
      (call.HasTarget → call.IsWritable → e.kind = .httpApi)) ∧
    (∀ r ∈ (call.perform c m).requests,
      (match call with
        | .get _ => r.method = .get ∧ r.body = ""
        | .list _ => r.method = .get ∧ r.body = ""
        | .add draft => r.method = .put ∧ draft.encode = .ok r.body
        | .update u => r.method = .put ∧ u.encode = .ok r.body
        | .delete _ => r.method = .delete ∧ r.body = ""
        | .testQueries t => r.method = .post ∧ r.body = t.encode) ∧
      (∃ path, relativePath call.operation call.target = .ok path ∧
        Uri.parse ("https://" ++ c.credential.hostname ++ path).toList = .ok r.uri) ∧
      ∃ key, c.credential.key.toList = Base64.encode key ∧
        r.headers =
          [⟨"authorization", (SharedAccessSignature.mk key c.credential.hostname
              c.credential.keyName ⟨m.now.seconds + 3600, m.now.nanos⟩).token, true⟩,
            ⟨"request-id", m.requestId.toString, false⟩,
            ⟨"user-agent", "iothubserviceclient-rs/0.1.0", false⟩,
            ⟨"content-type", "application/json; charset=utf-8", false⟩] ++
          if call.operation = .add ∨ call.operation = .update ∨ call.operation = .delete then
            [⟨"if-match", "'*'", false⟩]
          else []) ∧
    (c.transport = .missing → ∀ name, call.perform c m =
      { call.perform { c with transport := .connected name }
          { m with answer := fun _ => .error Client.missingTransport } with requests := [] }) := by
  refine ⟨length_requests_le_one c m call, fun ht => ?_, exists_error_of_requests_eq_nil, ?_,
    perform_missing⟩
  · rw [length_requests_eq_one_iff ht, exists_request_iff]
    simp only [utf8Length_toList]
    exact Iff.rfl
  · intro r hr
    obtain ⟨hmethod, hdocument, huri, key, hkey, hheaders⟩ :=
      parts_of_request (request_of_mem_requests hr)
    refine ⟨verb_and_body hmethod hdocument, huri, key, hkey, ?_⟩
    rw [hheaders, signedHeaders_eq, Client.signature]

/-- A call whose request is made is seen to make it. -/
theorem exists_requests_eq (h : ∃ r, call.request c m = .ok r) (ht : c.transport ≠ .missing) :
    ∃ r, (call.perform c m).requests = [r] :=
  List.length_eq_one_iff.1 ((length_requests_eq_one_iff ht).2 h)

/-- A draft with nothing but an id. -/
def sampleDraft : ConfigurationDraft := ⟨"a", "", ⟨"", ""⟩, ∅, 0, ∅⟩

theorem requests_exact_sample :
    (∃ r, ((Call.get "a").perform sampleClient (sampleMoment (.ok ⟨⟨200⟩, []⟩))).requests = [r] ∧
      r.method = .get ∧ r.body = "" ∧ r.headers.length = 4) ∧
    (∃ r, ((Call.add sampleDraft).perform sampleClient
        (sampleMoment (.ok ⟨⟨200⟩, []⟩))).requests = [r] ∧
      r.method = .put ∧ r.method.label = "PUT" ∧
      r.body = "\x7b\"id\":\"a\",\"schemaVersion\":\"1.0\",\"labels\":\x7b\x7d,\"content\":\x7b" ++
        "\"deviceContent\":\x7b\x7d,\"modulesContent\":\x7b\x7d\x7d,\"targetCondition\":\"\"," ++
        "\"priority\":0,\"metrics\":\x7b\"queries\":\x7b\x7d\x7d\x7d" ∧
      r.headers.length = 5) ∧
    (∃ r, ((Call.delete "a").perform sampleClient
        (sampleMoment (.ok ⟨⟨204⟩, []⟩))).requests = [r] ∧
      r.method = .delete ∧ r.method.label = "DELETE" ∧ r.body = "" ∧
      r.headers =
        [⟨"authorization",
            (SharedAccessSignature.mk [0x6B, 0x65, 0x79] "hub" "owner" ⟨3600, 0⟩).token, true⟩,
          ⟨"request-id", "00000000-0000-4000-8000-000000000000", false⟩,
          ⟨"user-agent", "iothubserviceclient-rs/0.1.0", false⟩,
          ⟨"content-type", "application/json; charset=utf-8", false⟩,
          ⟨"if-match", "'*'", false⟩]) ∧
    ∃ e, ((Call.list 0).perform sampleClient (sampleMoment (.ok ⟨⟨200⟩, []⟩))).result = .error e ∧
      e.kind = .invalidArgument := by
  refine ⟨?_, ?_, ?_, ?_⟩
  · have hmade := exists_request_sample (.ok ⟨⟨200⟩, []⟩)
    obtain ⟨r, hr⟩ := exists_requests_eq hmade nofun
    obtain ⟨-, -, -, hparts, -⟩ :=
      requests_exact sampleClient (sampleMoment (.ok ⟨⟨200⟩, []⟩)) (.get "a")
    obtain ⟨⟨hmethod, hbody⟩, -, key, -, hheaders⟩ := hparts r (by rw [hr]; exact .head _)
    refine ⟨r, hr, hmethod, hbody, ?_⟩
    rw [hheaders]
    rfl
  · have hwritable : (Call.add sampleDraft).IsWritable := ⟨.inl nofun, .inl nofun⟩
    have hmade := exists_request_of_sample (.add sampleDraft) (by decide : "a" ≠ "") hwritable
      (relativePath_configuration rfl (by decide)) (by decide) (.ok ⟨⟨200⟩, []⟩)
    obtain ⟨r, hr⟩ := exists_requests_eq hmade nofun
    obtain ⟨-, -, -, hparts, -⟩ :=
      requests_exact sampleClient (sampleMoment (.ok ⟨⟨200⟩, []⟩)) (.add sampleDraft)
    obtain ⟨⟨hmethod, hbody⟩, -, key, -, hheaders⟩ := hparts r (by rw [hr]; exact .head _)
    refine ⟨r, hr, hmethod, by rw [hmethod]; rfl, ?_, ?_⟩
    · refine Except.ok.inj (hbody.symm.trans ?_)
      decide +kernel
    · rw [hheaders]
      rfl
  · have hmade := exists_request_of_sample (.delete "a") (by decide : "a" ≠ "") trivial
      (relativePath_configuration rfl (by decide)) (by decide) (.ok ⟨⟨204⟩, []⟩)
    obtain ⟨r, hr⟩ := exists_requests_eq hmade nofun
    obtain ⟨-, -, -, hparts, -⟩ :=
      requests_exact sampleClient (sampleMoment (.ok ⟨⟨204⟩, []⟩)) (.delete "a")
    obtain ⟨⟨hmethod, hbody⟩, -, key, hkey, hheaders⟩ := hparts r (by rw [hr]; exact .head _)
    have hbytes : [0x6B, 0x65, 0x79] = key := by
      have hdecoded := Base64.decode?_encode key
      rw [← hkey] at hdecoded
      exact Option.some.inj hdecoded
    subst hbytes
    refine ⟨r, hr, hmethod, by rw [hmethod]; rfl, hbody, ?_⟩
    rw [hheaders]
    rfl
  · obtain ⟨-, -, hunsent, -, -⟩ :=
      requests_exact sampleClient (sampleMoment (.ok ⟨⟨200⟩, []⟩)) (.list 0)
    obtain ⟨e, he, hnone, -⟩ := hunsent rfl
    exact ⟨e, he, hnone (Nat.lt_irrefl 0)⟩

end Call

end HubConfig
