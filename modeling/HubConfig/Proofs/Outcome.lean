/-
**What a call comes to.**

Once a request is made, the result of a call depends on the answer alone: on the error of the
transport, on the status, or, when the status is accepted, on the body.  That a configuration is
there or is missing can only be known from an answer, and nothing unexpected happens before there is
one.

Main definitions:

* `Client.answer`: what the transport of a client answers;
* `Call.decoded`: what a call makes of the body of an answer;
* `Call.Accepts`: the statuses that a call takes for success.

Main results:

* `Call.result_of_failure`, `Call.result_of_accepted`, `Call.result_of_refused`: the result, answer
  by answer;
* `Call.result_exact`: **all of it**, and what follows for the errors.
-/

import HubConfig.Proofs.Call

set_option autoImplicit false

namespace HubConfig

/-! ### Reports one after another -/

namespace Report

variable {α β : Type} {r : Report α} {next : α → Report β}

theorem result_andThen_of_ok {a : α} (h : r.result = .ok a) :
    (r.andThen next).result = (next a).result := by
  rw [andThen, h]

theorem result_andThen_of_error {e : Error} (h : r.result = .error e) :
    (r.andThen next).result = .error e := by
  rw [andThen, h]

end Report

/-! ### Answers -/

/-- What the transport of a client answers. -/
def Client.answer (c : Client) (m : Moment) (r : Request) : Except Error Response :=
  match c.transport with
  | .missing => .error Client.missingTransport
  | .connected _ => m.answer r

namespace Client

variable {c : Client} {m : Moment} {r : Request}

theorem result_deliver_of_failure {op : Operation} {e : Error} (h : c.answer m r = .error e) :
    (c.deliver m op r).result = .error (executionError op e) := by
  rw [answer] at h
  rw [deliver]
  cases ht : c.transport with
  | missing =>
    rw [ht] at h
    cases h
    rfl
  | connected name =>
    rw [ht] at h
    dsimp only at h ⊢
    rw [h]

theorem result_deliver_of_response (op : Operation) {a : Response} (h : c.answer m r = .ok a) :
    (c.deliver m op r).result =
      match statusError op a.status with
      | none => .ok a.body
      | some e => .error e := by
  rw [answer] at h
  rw [deliver]
  cases ht : c.transport with
  | missing =>
    rw [ht] at h
    cases h
  | connected name =>
    rw [ht] at h
    dsimp only at h ⊢
    rw [h]
    dsimp only
    cases statusError op a.status with
    | none => rfl
    | some e => rfl

end Client

/-! ### Bodies -/

/-- A body that holds nothing can always be read, and any other at worst gives an error of JSON. -/
theorem kind_of_unread {α : Type} {blank : α} {read : Json.Tree .value → Option α}
    {complaint : String} {body : Bytes} {e : Error}
    (h : (if isBlankBody body then .ok blank else readBody read complaint body) = .error e) :
    e.kind = .json := by
  split at h
  · cases h
  · rw [readBody] at h
    split at h
    · cases h
    · cases h
      rfl

theorem Configuration.kind_of_decode {body : Bytes} {e : Error}
    (h : Configuration.decode body = .error e) : e.kind = .json :=
  kind_of_unread h

namespace Call

/-- What a call makes of the body of an answer.  Only a configuration that was asked for by its id
must have one. -/
def decoded : (call : Call) → Bytes → Except Error call.Answer
  | .get id => fun body =>
      match Configuration.decode body with
      | .error e => .error e
      | .ok configuration =>
          if configuration.id = "" then
            .error (.plain .configurationMissing ("configuration " ++ id ++ " does not exist"))
          else .ok configuration
  | .list _ => Configuration.decodeList
  | .add _ => Configuration.decode
  | .update _ => Configuration.decode
  | .delete _ => fun _ => .ok ()
  | .testQueries _ => QueryTestResult.decode

theorem result_read (call : Call) (body : Bytes) : (call.read body).result = call.decoded body := by
  cases call with
  | get id =>
    have hresult : (Client.readConfiguration body).result = Configuration.decode body := rfl
    simp only [read, decoded]
    cases hd : Configuration.decode body with
    | error e => exact Report.result_andThen_of_error (hresult.trans hd)
    | ok configuration =>
      rw [Report.result_andThen_of_ok (hresult.trans hd), Client.requireId]
      dsimp only
      split
      · rfl
      · rfl
  | list maxCount =>
    rw [read, decoded, Client.readConfigurations]
    cases Configuration.decodeList body with
    | error e => rfl
    | ok configurations => rfl
  | add draft => rfl
  | update u => rfl
  | delete id => rfl
  | testQueries t => rfl

/-- The errors of a call that can make nothing of a body. -/
theorem kind_of_decoded {call : Call} {body : Bytes} {e : Error}
    (h : call.decoded body = .error e) :
    e.kind = .json ∨ e.kind = .configurationMissing ∧ ∃ id configuration, call = .get id ∧
      Configuration.decode body = .ok configuration ∧ configuration.id = "" := by
  cases call with
  | get id =>
    rw [decoded] at h
    dsimp only at h
    split at h
    · next e' hd =>
      cases h
      exact Or.inl (Configuration.kind_of_decode hd)
    · next configuration hd =>
      split at h
      · next hid =>
        cases h
        exact Or.inr ⟨rfl, id, configuration, rfl, hd, hid⟩
      · cases h
  | list maxCount => exact Or.inl (kind_of_unread h)
  | add draft => exact Or.inl (Configuration.kind_of_decode h)
  | update u => exact Or.inl (Configuration.kind_of_decode h)
  | delete id => cases h
  | testQueries t => exact Or.inl (kind_of_unread h)

/-! ### Statuses -/

/-- The statuses that a call takes for success. -/
def Accepts (call : Call) (s : Status) : Prop :=
  match call with
  | .get _ => s.code = 200
  | .list _ => s.code = 200
  | .testQueries _ => s.code = 200
  | .add _ => 200 ≤ s.code ∧ s.code ≤ 299
  | .update _ => 200 ≤ s.code ∧ s.code ≤ 299
  | .delete _ => 200 ≤ s.code ∧ s.code ≤ 299

theorem accepts_iff {call : Call} {s : Status} :
    call.operation.accepts s = true ↔ call.Accepts s := by
  cases call with
  | get id => exact beq_iff_eq
  | list maxCount => exact beq_iff_eq
  | testQueries t => exact beq_iff_eq
  | add draft => exact Status.isSuccess_iff
  | update u => exact Status.isSuccess_iff
  | delete id => exact Status.isSuccess_iff

end Call

/-- The kinds of error that a status stands for. -/
theorem statusErrorKind_cases (op : Operation) (s : Status) :
    (statusErrorKind op s = .configurationMissing ↔
      s.code = 404 ∨ s.code = 412 ∧ (op = .update ∨ op = .delete)) ∧
    (statusErrorKind op s = .configurationExists ↔ s.code = 409 ∨ s.code = 412 ∧ op = .add) ∧
    (statusErrorKind op s = .configurationMissing ∨ statusErrorKind op s = .configurationExists ∨
      statusErrorKind op s = .unexpected) := by
  by_cases h404 : s.code = 404
  · simp [statusErrorKind, h404]
  · by_cases h409 : s.code = 409
    · simp [statusErrorKind, h409]
    · by_cases h412 : s.code = 412
      · cases op <;> simp [statusErrorKind, h412]
      · simp [statusErrorKind, h404, h409, h412]

/-! ### Results -/

namespace Call

variable {c : Client} {m : Moment} {call : Call} {r : Request}

theorem result_of_unsent {e : Error} (h : call.request c m = .error e) :
    (call.perform c m).result = .error e := by
  rw [perform_eq, h]
  rfl

/-- The error of the transport is told as the cause of another. -/
theorem result_of_failure {e : Error} (h : call.request c m = .ok r)
    (ha : c.answer m r = .error e) :
    (call.perform c m).result = .error (Client.executionError call.operation e) := by
  rw [perform_eq, h]
  exact Report.result_andThen_of_error (Client.result_deliver_of_failure ha)

/-- With an accepted status, the body decides. -/
theorem result_of_accepted {a : Response} (h : call.request c m = .ok r)
    (ha : c.answer m r = .ok a) (hs : call.Accepts a.status) :
    (call.perform c m).result = call.decoded a.body := by
  have hnone := statusError_eq_none_iff.2 (accepts_iff.2 hs)
  have hdeliver : (c.deliver m call.operation r).result = .ok a.body := by
    rw [Client.result_deliver_of_response _ ha, hnone]
  rw [perform_eq, h]
  exact (Report.result_andThen_of_ok hdeliver).trans (result_read call a.body)

/-- With any other, it does not. -/
theorem result_of_refused {a : Response} (h : call.request c m = .ok r)
    (ha : c.answer m r = .ok a) (hs : ¬call.Accepts a.status) :
    (call.perform c m).result =
      .error (.plain (statusErrorKind call.operation a.status)
        (statusComplaint call.operation a.status)) := by
  have haccepts : ¬call.operation.accepts a.status = true := fun hyes => hs (accepts_iff.1 hyes)
  have hdeliver := Client.result_deliver_of_response call.operation ha
  rw [statusError, if_neg haccepts] at hdeliver
  rw [perform_eq, h]
  exact Report.result_andThen_of_error hdeliver

/-- What a call reports of a configuration, and all that is unexpected, it has from an answer. -/
theorem exists_answer_of_kind {e : Error} (h : (call.perform c m).result = .error e)
    (hkind : e.kind = .configurationExists ∨ e.kind = .configurationMissing ∨
      e.kind = .unexpected) :
    ∃ r a, call.request c m = .ok r ∧ c.answer m r = .ok a := by
  cases hr : call.request c m with
  | error e' =>
    rw [result_of_unsent hr] at h
    cases h
    obtain ⟨hnone, hcontent, hsigned⟩ := kind_of_request hr
    exfalso
    by_cases htarget : call.HasTarget
    · by_cases hwritable : call.IsWritable
      · rw [hsigned htarget hwritable] at hkind
        simp at hkind
      · rw [hcontent htarget hwritable] at hkind
        simp at hkind
    · rw [hnone htarget] at hkind
      simp at hkind
  | ok r =>
    cases ha : c.answer m r with
    | ok a => exact ⟨r, a, rfl, ha⟩
    | error e' =>
      rw [result_of_failure hr ha] at h
      cases h
      simp [Client.executionError, Error.plain] at hkind

/-- **All that a call can come to** once a request is made. -/
theorem result_exact (c : Client) (m : Moment) (call : Call) :
    (c.transport ≠ .missing → ∀ r, r ∈ (call.perform c m).requests ↔ call.request c m = .ok r) ∧
    (∀ r, call.request c m = .ok r →
      (∀ e, c.answer m r = .error e → (call.perform c m).result =
        .error ⟨.httpApi, "failed to execute " ++ call.operation.label ++ " request",
          .reported e.kind e.message :: e.causes⟩) ∧
      (∀ a, c.answer m r = .ok a → call.Accepts a.status →
        (call.perform c m).result = call.decoded a.body ∧
        ∀ e, call.decoded a.body = .error e → e.kind = .json ∨
          e.kind = .configurationMissing ∧ ∃ id configuration, call = .get id ∧
            Configuration.decode a.body = .ok configuration ∧ configuration.id = "") ∧
      (∀ a, c.answer m r = .ok a → ¬call.Accepts a.status →
        ∃ kind, (call.perform c m).result =
            .error ⟨kind, call.operation.label ++ " request failed with status " ++ a.status.text,
              []⟩ ∧
          (kind = .configurationMissing ↔ a.status.code = 404 ∨
            a.status.code = 412 ∧ (call.operation = .update ∨ call.operation = .delete)) ∧
          (kind = .configurationExists ↔ a.status.code = 409 ∨
            a.status.code = 412 ∧ call.operation = .add) ∧
          (kind = .configurationMissing ∨ kind = .configurationExists ∨ kind = .unexpected))) ∧
    (∀ e, (call.perform c m).result = .error e →
      e.kind = .configurationExists ∨ e.kind = .configurationMissing ∨ e.kind = .unexpected →
      ∃ r a, call.request c m = .ok r ∧ c.answer m r = .ok a) := by
  refine ⟨fun ht r => mem_requests_iff ht, fun r hr => ⟨?_, ?_, ?_⟩, fun e => ?_⟩
  · intro e he
    exact result_of_failure hr he
  · intro a ha hs
    exact ⟨result_of_accepted hr ha hs, fun e => kind_of_decoded⟩
  · intro a ha hs
    obtain ⟨hmissing, hexists, hkinds⟩ := statusErrorKind_cases call.operation a.status
    exact ⟨_, result_of_refused hr ha hs, hmissing, hexists, hkinds⟩
  · exact exists_answer_of_kind

end Call

/-- A client of a hub. -/
def sampleClient : Client := ⟨⟨"hub", "a2V5", "owner", by decide⟩, .connected "Mock", .empty⟩

/-- What comes with a call that gets a certain answer. -/
def sampleMoment (answer : Except Error Response) : Moment :=
  ⟨⟨0, 0⟩, RequestId.ofNat 0, fun _ => answer⟩

theorem Call.exists_request_of_sample (call : Call) {path : String} (htarget : call.HasTarget)
    (hwritable : call.IsWritable) (hpath : relativePath call.operation call.target = .ok path)
    (hlength : utf8Length ("https://hub" ++ path).toList ≤ 65534)
    (answer : Except Error Response) :
    ∃ r, call.request sampleClient (sampleMoment answer) = .ok r := by
  have hkey : sampleClient.credential.key.toList = Base64.encode [0x6B, 0x65, 0x79] := by decide
  have hhost : Uri.parse (Client.endpoint sampleClient.credential.hostname).toList =
      .ok ⟨some Uri.https, "hub".toList, [], none⟩ := by decide
  exact Call.exists_request_iff.2
    ⟨htarget, hwritable, ⟨_, hkey⟩, ⟨_, hhost⟩, path, hpath, hlength⟩

theorem exists_request_sample (answer : Except Error Response) :
    ∃ r, (Call.get "a").request sampleClient (sampleMoment answer) = .ok r :=
  Call.exists_request_of_sample (Call.get "a") (by decide : "a" ≠ "") trivial
    (relativePath_configuration rfl (by decide)) (by decide) answer

theorem Call.result_exact_sample :
    (((Call.get "a").perform sampleClient (sampleMoment (.error ⟨.json, "broken", []⟩))).result =
      .error ⟨.httpApi, "failed to execute GET request", [.reported .json "broken"]⟩) ∧
    (((Call.get "a").perform sampleClient (sampleMoment (.ok ⟨⟨200⟩, []⟩))).result =
      .error ⟨.configurationMissing, "configuration a does not exist", []⟩) ∧
    (∃ e, ((Call.get "a").perform sampleClient (sampleMoment (.ok ⟨⟨409⟩, []⟩))).result =
        .error e ∧ e.kind = .configurationExists ∧
      ∃ r a, (Call.get "a").request sampleClient (sampleMoment (.ok ⟨⟨409⟩, []⟩)) = .ok r ∧
        sampleClient.answer (sampleMoment (.ok ⟨⟨409⟩, []⟩)) r = .ok a) := by
  refine ⟨?_, ?_, ?_⟩
  · obtain ⟨r, hr⟩ := exists_request_sample (.error ⟨.json, "broken", []⟩)
    obtain ⟨-, hanswers, -⟩ := Call.result_exact sampleClient
      (sampleMoment (.error ⟨.json, "broken", []⟩)) (.get "a")
    exact (hanswers r hr).1 ⟨.json, "broken", []⟩ rfl
  · obtain ⟨r, hr⟩ := exists_request_sample (.ok ⟨⟨200⟩, []⟩)
    obtain ⟨-, hanswers, -⟩ := Call.result_exact sampleClient
      (sampleMoment (.ok ⟨⟨200⟩, []⟩)) (.get "a")
    exact ((hanswers r hr).2.1 ⟨⟨200⟩, []⟩ rfl rfl).1
  · obtain ⟨r, hr⟩ := exists_request_sample (.ok ⟨⟨409⟩, []⟩)
    obtain ⟨-, hanswers, hkinds⟩ := Call.result_exact sampleClient
      (sampleMoment (.ok ⟨⟨409⟩, []⟩)) (.get "a")
    have hrefused : ¬(Call.get "a").Accepts ⟨409⟩ := by
      rw [Call.Accepts]
      decide
    obtain ⟨kind, hresult, -, hexists, -⟩ :=
      (hanswers r hr).2.2 ⟨⟨409⟩, []⟩ rfl hrefused
    have hkind : kind = .configurationExists := hexists.2 (Or.inl rfl)
    exact ⟨_, hresult, hkind, hkinds _ hresult (Or.inl hkind)⟩

end HubConfig
