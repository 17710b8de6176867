/-
**Calls and their requests.**

All calls go the same way: arguments are checked, a document is written, a request is signed and
handed over, and the body of the answer is read.  They differ only in what is checked, written and
read.

Main definitions:

* `Call`: a call with its arguments;
* `Call.perform`: what a client does when it is called;
* `Call.request`: the request that a call makes, if it makes one;
* `Call.read`: what a call reads of the body of an answer.

Main results:

* `Call.perform_eq`: **a call is one request, handed over once, and one reading of the answer**;
* `Call.exists_request_iff`: when a request is made;
* `Call.kind_of_request`: the error when none is made.
-/

import HubConfig.Proofs.RoundTrip
import HubConfig.Proofs.SignedRequest

set_option autoImplicit false

namespace HubConfig

/-! ### Requests along the way -/

theorem Report.requests_andThen {α β : Type} {r : Report α} {next : α → Report β}
    (h : ∀ a, (next a).requests = []) : (r.andThen next).requests = r.requests := by
  rw [andThen]
  split
  · rfl
  · rw [h, List.append_nil]

theorem Client.requests_deliver {c : Client} {m : Moment} {op : Operation} {r : Request} :
    (c.deliver m op r).requests = if c.transport = .missing then [] else [r] := by
  rw [deliver]
  cases c.transport with
  | missing => rfl
  | connected name =>
    rw [if_neg nofun]
    dsimp only
    split
    · rfl
    · split
      · rfl
      · rfl

/-! ### Calls -/

/-- A call with its arguments. -/
inductive Call
  | get (id : String)
  | list (maxCount : Nat)
  | add (draft : ConfigurationDraft)
  | update (u : ConfigurationUpdate)
  | delete (id : String)
  | testQueries (t : QueryTest)

namespace Call

/-! ### What calls have in common -/

/-- What a call asks of the hub. -/
def operation : Call → Operation
  | .get _ => .get
  | .list _ => .list
  | .add _ => .add
  | .update _ => .update
  | .delete _ => .delete
  | .testQueries _ => .testQueries

/-- What a call is about. -/
def target : Call → Target
  | .get id => .configuration id
  | .list maxCount => .list maxCount
  | .add draft => .configuration draft.id
  | .update u => .configuration u.id
  | .delete id => .configuration id
  | .testQueries _ => .testQueries

/-- What a call gives when all is well. -/
@[reducible] def Answer : Call → Type
  | .get _ => Configuration
  | .list _ => List Configuration
  | .add _ => Configuration
  | .update _ => Configuration
  | .delete _ => Unit
  | .testQueries _ => QueryTestResult

/-- **What a client does when it is called.** -/
def perform (c : Client) (m : Moment) : (call : Call) → Report call.Answer
  | .get id => c.get m id
  | .list maxCount => c.list m maxCount
  | .add draft => c.add m draft
  | .update u => c.update m u
  | .delete id => c.delete m id
  | .testQueries t => c.testQueries m t

/-- Refuses a call that is about nothing. -/
def check : Call → Except Error Unit
  | .get id => Client.checkId id
  | .list maxCount =>
      if maxCount = 0 then .error (.plain .invalidArgument "max count must be greater than zero")
      else .ok ()
  | .add draft => Client.checkId draft.id
  | .update u => Client.checkId u.id
  | .delete id => Client.checkId id
  | .testQueries _ => .ok ()

/-- The document that a call sends, which is empty if it has nothing to say. -/
def document : Call → Except Error String
  | .add draft => draft.encode
  | .update u => u.encode
  | .testQueries t => .ok t.encode
  | _ => .ok ""

/-- **The request that a call makes.** -/
def request (c : Client) (m : Moment) (call : Call) : Except Error Request := do
  call.check
  let document ← call.document
  c.request m call.operation call.target document

/-- What a call reads of the body of an answer. -/
def read : (call : Call) → Bytes → Report call.Answer
  | .get id => fun body => (Client.readConfiguration body).andThen (Client.requireId id)
  | .list _ => Client.readConfigurations
  | .add _ => Client.readConfiguration
  | .update _ => Client.readConfiguration
  | .delete _ => fun _ => Report.ofResult (.ok ())
  | .testQueries _ => fun body => Report.ofResult (QueryTestResult.decode body)

/-- Checks, writing and one exchange with the hub, one after another. -/
theorem andThen_execute {α : Type} {c : Client} {m : Moment} {op : Operation} {target : Target}
    (check : Except Error Unit) (document : Except Error String) (next : Bytes → Report α) :
    ((Report.ofResult check).andThen fun _ => (Report.ofResult document).andThen fun body =>
        (c.execute m op target body).andThen next) =
      match (do check; let body ← document; c.request m op target body) with
      | .error e => Report.fail e
      | .ok r => (c.deliver m op r).andThen next := by
  cases check with
  | error e => rfl
  | ok u =>
    cases document with
    | error e => rfl
    | ok body =>
      rw [Report.andThen_ofResult_ok, Report.andThen_ofResult_ok, Client.execute]
      simp only [bind, Except.bind]
      cases c.request m op target body with
      | error e => rfl
      | ok r => rfl

/-- **A call is one request, handed over once, and one reading of the answer.** -/
theorem perform_eq (c : Client) (m : Moment) (call : Call) :
    call.perform c m =
      match call.request c m with
      | .error e => Report.fail e
      | .ok r => (c.deliver m call.operation r).andThen call.read := by
  -- A call without a document behaves as one that writes an empty one, which never fails.
  cases call with
  | get id =>
    refine Eq.trans ?_ (andThen_execute (Client.checkId id) (.ok "") _)
    simp only [Report.andThen_ofResult_ok, perform, Client.get, operation, target, read]
  | list maxCount =>
    refine Eq.trans ?_ (andThen_execute (check (.list maxCount)) (.ok "") _)
    rw [perform, Client.list, check]
    split
    · rfl
    · simp only [Report.andThen_ofResult_ok, operation, target, read]
  | add draft => exact andThen_execute (Client.checkId draft.id) draft.encode _
  | update u => exact andThen_execute (Client.checkId u.id) u.encode _
  | delete id =>
    refine Eq.trans ?_ (andThen_execute (Client.checkId id) (.ok "") _)
    simp only [Report.andThen_ofResult_ok, perform, Client.delete, operation, target, read]
  | testQueries t =>
    refine Eq.trans ?_ (andThen_execute (.ok ()) (.ok t.encode) _)
    simp only [Report.andThen_ofResult_ok, perform, Client.testQueries, operation, target, read]

/-! ### When a request is made -/

/-- A call is about something: it names a configuration, or asks for at least one. -/
def HasTarget : Call → Prop
  | .get id => id ≠ ""
  | .list maxCount => 0 < maxCount
  | .add draft => draft.id ≠ ""
  | .update u => u.id ≠ ""
  | .delete id => id ≠ ""
  | .testQueries _ => True

/-- The content that a call sends, if any, can be sent. -/
def IsWritable : Call → Prop
  | .add draft => draft.content.IsWritable
  | .update u => u.content.IsWritable
  | _ => True

theorem checkId_eq_ok_iff {id : String} {u : Unit} : Client.checkId id = .ok u ↔ id ≠ "" := by
  rw [Client.checkId]
  split
  · next h => simp [h]
  · next h => simp [h]

theorem kind_of_checkId {id : String} {e : Error} (h : Client.checkId id = .error e) :
    e.kind = .invalidArgument := by
  rw [Client.checkId] at h
  split at h
  · cases h
    rfl
  · cases h

theorem check_eq_ok_iff {call : Call} {u : Unit} : call.check = .ok u ↔ call.HasTarget := by
  cases call with
  | get id => exact checkId_eq_ok_iff
  | list maxCount =>
    rw [check, HasTarget, Nat.pos_iff_ne_zero]
    split
    · next h => simp [h]
    · next h => simp [h]
  | add draft => exact checkId_eq_ok_iff
  | update u => exact checkId_eq_ok_iff
  | delete id => exact checkId_eq_ok_iff
  | testQueries t => exact ⟨fun _ => trivial, fun _ => rfl⟩

theorem kind_of_check {call : Call} {e : Error} (h : call.check = .error e) :
    e.kind = .invalidArgument := by
  cases call with
  | get id => exact kind_of_checkId h
  | list maxCount =>
    rw [check] at h
    split at h
    · cases h
      rfl
    · cases h
  | add draft => exact kind_of_checkId h
  | update u => exact kind_of_checkId h
  | delete id => exact kind_of_checkId h
  | testQueries t => cases h

theorem exists_document_iff {call : Call} :
    (∃ s, call.document = .ok s) ↔ call.IsWritable := by
  cases call with
  | add draft => exact ConfigurationDraft.exists_encode_iff
  | update u => exact ConfigurationUpdate.exists_encode_iff
  | get id => exact ⟨fun _ => trivial, fun _ => ⟨_, rfl⟩⟩
  | list maxCount => exact ⟨fun _ => trivial, fun _ => ⟨_, rfl⟩⟩
  | delete id => exact ⟨fun _ => trivial, fun _ => ⟨_, rfl⟩⟩
  | testQueries t => exact ⟨fun _ => trivial, fun _ => ⟨_, rfl⟩⟩

theorem kind_of_document {call : Call} {e : Error} (h : call.document = .error e) :
    e.kind = .json := by
  cases call with
  | add draft => exact ConfigurationDraft.kind_of_encode h
  | update u => exact ConfigurationUpdate.kind_of_encode h
  | get id => cases h
  | list maxCount => cases h
  | delete id => cases h
  | testQueries t => cases h

/-- No call asks an operation of a target that it cannot be applied to. -/
theorem exists_relativePath {call : Call} (h : call.HasTarget) :
    ∃ path, relativePath call.operation call.target = .ok path := by
  cases call with
  | get id => exact ⟨_, relativePath_configuration rfl h⟩
  | list maxCount => exact ⟨_, rfl⟩
  | add draft => exact ⟨_, relativePath_configuration rfl h⟩
  | update u => exact ⟨_, relativePath_configuration rfl h⟩
  | delete id => exact ⟨_, relativePath_configuration rfl h⟩
  | testQueries t => exact ⟨_, rfl⟩

variable {c : Client} {m : Moment} {call : Call}

theorem request_eq_ok_iff {r : Request} :
    call.request c m = .ok r ↔ call.HasTarget ∧ ∃ document, call.document = .ok document ∧
      c.request m call.operation call.target document = .ok r := by
  simp only [request, bind_eq_ok_iff, check_eq_ok_iff]
  constructor
  · rintro ⟨-, htarget, hdocument⟩
    exact ⟨htarget, hdocument⟩
  · rintro ⟨htarget, hdocument⟩
    exact ⟨(), htarget, hdocument⟩

/-- **When a call makes a request.** -/
theorem exists_request_iff :
    (∃ r, call.request c m = .ok r) ↔
      call.HasTarget ∧ call.IsWritable ∧
        (∃ key, c.credential.key.toList = Base64.encode key) ∧
        (∃ u, Uri.parse (Client.endpoint c.credential.hostname).toList = .ok u) ∧
        ∃ path, relativePath call.operation call.target = .ok path ∧
          utf8Length (Client.endpoint c.credential.hostname ++ path).toList ≤ Uri.maxLength := by
  simp only [request_eq_ok_iff, ← exists_document_iff]
  constructor
  · rintro ⟨r, htarget, document, hdocument, hr⟩
    obtain ⟨path, hpath⟩ := exists_relativePath htarget
    obtain ⟨hkey, hhost, hlength⟩ := (Client.exists_request_iff hpath).1 ⟨r, hr⟩
    exact ⟨htarget, ⟨document, hdocument⟩, hkey, hhost, path, hpath, hlength⟩
  · rintro ⟨htarget, ⟨document, hdocument⟩, hkey, hhost, path, hpath, hlength⟩
    obtain ⟨r, hr⟩ := (Client.exists_request_iff hpath).2 ⟨hkey, hhost, hlength⟩
    exact ⟨r, htarget, document, hdocument, hr⟩

/-- The error when a call makes none. -/
theorem kind_of_request {e : Error} (h : call.request c m = .error e) :
    (¬call.HasTarget → e.kind = .invalidArgument) ∧
      (call.HasTarget → ¬call.IsWritable → e.kind = .json) ∧
      (call.HasTarget → call.IsWritable → e.kind = .httpApi) := by
  rw [request, bind_eq_error_iff] at h
  rcases h with h | ⟨_, hcheck, h⟩
  · have hnone : ¬call.HasTarget := by
      intro htarget
      rw [check_eq_ok_iff (u := ()) |>.2 htarget] at h
      cases h
    exact ⟨fun _ => kind_of_check h, fun ht => absurd ht hnone, fun ht => absurd ht hnone⟩
  · have htarget := check_eq_ok_iff.1 hcheck
    refine ⟨fun hnone => absurd htarget hnone, fun _ => ?_, fun _ => ?_⟩
    · intro hwritable
      rcases bind_eq_error_iff.1 h with h | ⟨document, hdocument, -⟩
      · exact kind_of_document h
      · exact absurd (exists_document_iff.1 ⟨document, hdocument⟩) hwritable
    · intro hwritable
      obtain ⟨path, hpath⟩ := exists_relativePath htarget
      obtain ⟨document, hdocument⟩ := exists_document_iff.2 hwritable
      rcases bind_eq_error_iff.1 h with h | ⟨_, -, h⟩
      · rw [hdocument] at h
        cases h
      · exact Client.kind_of_request hpath h

/-! ### What is handed over -/

theorem requests_read (call : Call) (body : Bytes) : (call.read body).requests = [] := by
  cases call with
  | get id =>
    refine (Report.requests_andThen fun configuration => ?_).trans rfl
    rw [Client.requireId]
    split
    · rfl
    · rfl
  | list maxCount =>
    rw [read, Client.readConfigurations]
    split
    · rfl
    · rfl
  | add draft => rfl
  | update u => rfl
  | delete id => rfl
  | testQueries t => rfl

/-- A call hands over the request that it makes, once, and nothing else. -/
theorem requests_perform (c : Client) (m : Moment) (call : Call) :
    (call.perform c m).requests =
      match call.request c m with
      | .error _ => []
      | .ok r => if c.transport = .missing then [] else [r] := by
  rw [perform_eq]
  cases call.request c m with
  | error e => rfl
  | ok r => exact (Report.requests_andThen (requests_read call)).trans Client.requests_deliver

theorem request_of_mem_requests {r : Request} (h : r ∈ (call.perform c m).requests) :
    call.request c m = .ok r := by
  rw [requests_perform] at h
  split at h
  · cases h
  · next r' hr =>
    split at h
    · cases h
    · rw [hr, List.mem_singleton.1 h]

theorem mem_requests_iff (ht : c.transport ≠ .missing) {r : Request} :
    r ∈ (call.perform c m).requests ↔ call.request c m = .ok r := by
  refine ⟨request_of_mem_requests, fun h => ?_⟩
  rw [requests_perform, h]
  dsimp only
  rw [if_neg ht]
  exact List.mem_singleton_self r

end Call

end HubConfig
