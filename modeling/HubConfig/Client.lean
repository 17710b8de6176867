/-
**The client of a hub.**

A client signs requests with its credential, hands them to its transport and reads the answers.  A
call makes at most one request.  What changes from call to call, the time, the identifier of the
request and what the network answers, comes with the call.  A call gives a result or an error, and
besides it leaves requests with the transport and lines in the log.

Main definitions:

* `LogLine`, `Report`: a line of the log, and all that a call gives and leaves behind;
* `Report.andThen`: a call that goes on with the result of another;
* `Client`, `Transport`, `Moment`: a client, how it reaches the network, and what comes with a call;
* `Client.request`: the signed request of an operation;
* `Client.execute`: one exchange with the hub;
* `Client.get`, `Client.list`, `Client.add`, `Client.update`, `Client.delete`, `Client.testQueries`:
  the calls;
* `Client.describe`: a client as diagnostics show it.

Main results:

* `Report.andThen_assoc`: it does not matter how calls are grouped;
* `statusError_eq_none_iff`: which statuses an operation accepts.
-/

import HubConfig.Configuration.Decode
import HubConfig.Configuration.Encode
import HubConfig.Error
import HubConfig.Request
import HubConfig.SettingsEnvironment
import HubConfig.SharedAccessSignature

set_option autoImplicit false

namespace HubConfig

open HubConfig.Text

/-! ### Lines of the log -/

/-- How much a line matters. -/
inductive LogLevel
  | debug
  | warning
  deriving DecidableEq, Repr

/-- The word for a level. -/
def LogLevel.label : LogLevel → String
  | .debug => "DEBUG"
  | .warning => "WARN"

/-- A line of the log. -/
structure LogLine where
  /-- How much it matters. -/
  level : LogLevel
  /-- What it tells. -/
  text : String
  deriving DecidableEq, Repr

/-- A line as it is written. -/
protected def LogLine.toString (line : LogLine) : String := line.level.label ++ " " ++ line.text

/-! ### Reports of a call -/

/-- What a call gives and leaves behind. -/
structure Report (α : Type) where
  /-- The result, or what went wrong. -/
  result : Except Error α
  /-- The requests that the transport got, in order. -/
  requests : List Request
  /-- The lines of the log, in order. -/
  log : List LogLine

namespace Report

variable {α β γ : Type}

/-- A result that leaves nothing behind. -/
def ofResult (result : Except Error α) : Report α := ⟨result, [], []⟩

/-- An error that leaves nothing behind. -/
def fail (e : Error) : Report α := ofResult (.error e)

/-- Goes on with a result, if there is one. -/
def andThen (r : Report α) (next : α → Report β) : Report β :=
  match r.result with
  | .error e => ⟨.error e, r.requests, r.log⟩
  | .ok a => ⟨(next a).result, r.requests ++ (next a).requests, r.log ++ (next a).log⟩

@[simp] theorem andThen_ofResult_ok (a : α) (next : α → Report β) :
    (ofResult (.ok a)).andThen next = next a := by
  simp [andThen, ofResult]

theorem andThen_assoc (r : Report α) (f : α → Report β) (g : β → Report γ) :
    (r.andThen f).andThen g = r.andThen fun a => (f a).andThen g := by
  obtain ⟨result, requests, log⟩ := r
  cases result with
  | error e => rfl
  | ok a => cases h : (f a).result <;> simp [andThen, h]

end Report

/-! ### Clients -/

/-- How a client reaches the network. -/
inductive Transport
  /-- Not at all. -/
  | missing
  /-- Through something with a name. -/
  | connected (name : String)
  deriving DecidableEq, Repr

/-- A client. -/
structure Client where
  credential : Credential
  transport : Transport
  environment : Environment

/-- What comes with a call. -/
structure Moment where
  /-- What the clock shows. -/
  now : Instant
  /-- The identifier of the request, if there is one. -/
  requestId : RequestId
  /-- What the network answers to a request. -/
  answer : Request → Except Error Response

/-! ### Diagnostics -/

/-- A transport as diagnostics show it. -/
def Transport.describe : Transport → String
  | .missing => "NoopHttpSend"
  | .connected name => name

/-- An environment as diagnostics show it. -/
def Environment.describe : Environment → String
  | .empty => "NoopEnv"
  | .fixed texts => showFields "StaticEnv" [("envs", showMap texts.toList)]
  | .process _ => "OsEnv"

namespace Client

/-- A client as diagnostics show it. -/
def describe (c : Client) : String :=
  let context :=
    showFields "Context" [("http", c.transport.describe), ("env", c.environment.describe)]
  let executor := showFields "Executor"
    [("ctx", context), ("credential", c.credential.describe), ("time", "None")]
  showFields "DeviceConfigurationClient" [("executor", executor)]

/-- A client for the hub of some settings. -/
def fromSettings (s : Settings) (transport : Transport) (environment : Environment) :
    Except Error Client :=
  match Credential.fromSettings s with
  | .ok credential => .ok ⟨credential, transport, environment⟩
  | .error e => .error e

/-! ### Requests -/

/-- How long a token lasts, in seconds. -/
def tokenLifetime : Int := 3600

/-- Where a host is reached. -/
def endpoint (hostname : String) : String := "https://" ++ hostname

/-- Checks that a host can be reached at all. -/
def checkEndpoint (hostname : String) : Except Error Unit :=
  match Uri.parse (endpoint hostname).toList with
  | .ok _ => .ok ()
  | .error _ => .error (.adopted .httpApi ("invalid hub hostname: " ++ hostname))

/-- The headers of an operation, before it is signed. -/
def unsignedHeaders (m : Moment) (op : Operation) : Except Error (List Header) :=
  match requestHeaders op m.requestId with
  | .ok headers => .ok headers
  | .error e =>
      .error ((Error.plain .unexpected ("failed to build headers for " ++ op.label)).causedBy e)

/-- Where a request goes. -/
def requestUri (hostname path : String) (op : Operation) : Except Error Uri :=
  match Uri.parse (endpoint hostname ++ path).toList with
  | .ok uri => .ok uri
  | .error _ => .error (.adopted .httpApi ("failed to build request uri for " ++ op.label))

/-- **The signed request of an operation.**  The key is looked at before the host, and the host
before the target. -/
def request (c : Client) (m : Moment) (op : Operation) (target : Target) (body : String) :
    Except Error Request := do
  let headers ← unsignedHeaders m op
  let signature ← SharedAccessSignature.forCredential c.credential (m.now.later tokenLifetime)
  checkEndpoint c.credential.hostname
  let path ← relativePath op target
  let uri ← requestUri c.credential.hostname path op
  let authorization ← signature.header
  .ok
    { method := op.method
      uri := uri
      headers := authorize authorization headers
      body := body }

end Client

/-! ### Statuses -/

/-- Whether an operation accepts a status: one that only reads needs its answer. -/
def Operation.accepts (op : Operation) (s : Status) : Bool :=
  if op.changes then s.isSuccess else s.code == 200

/-- What a status that is not accepted says. -/
def statusErrorKind (op : Operation) (s : Status) : ErrorKind :=
  if s.code = 404 then .configurationMissing
  else if s.code = 409 then .configurationExists
  else if s.code = 412 then
    match op with
    | .add => .configurationExists
    | .update => .configurationMissing
    | .delete => .configurationMissing
    | _ => .unexpected
  else .unexpected

/-- The words for a status that is not accepted. -/
def statusComplaint (op : Operation) (s : Status) : String :=
  op.label ++ " request failed with status " ++ s.text

/-- What is wrong with a status, if anything is. -/
def statusError (op : Operation) (s : Status) : Option Error :=
  if op.accepts s then none else some (.plain (statusErrorKind op s) (statusComplaint op s))

theorem statusError_eq_none_iff {op : Operation} {s : Status} :
    statusError op s = none ↔ op.accepts s = true := by
  rw [statusError]
  split <;> simp_all

/-! ### Exchanges -/

namespace Client

/-- The line before a request. -/
def sendingLine (op : Operation) (r : Request) : LogLine :=
  ⟨.debug, "sending " ++ op.label ++ " request: " ++ r.method.label ++ " " ++ r.uri.toString⟩

/-- The line after a response. -/
def finishedLine (op : Operation) (s : Status) : LogLine :=
  ⟨.debug, op.label ++ " request finished with status " ++ s.text⟩

/-- What a client without a transport says. -/
def missingTransport : Error :=
  .plain .httpApi "HTTP sending not supported: no HTTP client configured"

/-- What is said of a request that got no response. -/
def executionError (op : Operation) (cause : Error) : Error :=
  (Error.plain .httpApi ("failed to execute " ++ op.label ++ " request")).causedBy cause

/-- Hands a request to the transport and takes the body of the response. -/
def deliver (c : Client) (m : Moment) (op : Operation) (r : Request) : Report Bytes :=
  let sending := sendingLine op r
  match c.transport with
  | .missing => ⟨.error (executionError op missingTransport), [], [sending]⟩
  | .connected _ =>
      match m.answer r with
      | .error e => ⟨.error (executionError op e), [r], [sending]⟩
      | .ok response =>
          let finished := finishedLine op response.status
          match statusError op response.status with
          | none => ⟨.ok response.body, [r], [sending, finished]⟩
          | some e =>
              ⟨.error e, [r],
                [sending, finished, ⟨.warning, statusComplaint op response.status⟩]⟩

/-- **One exchange with the hub.** -/
def execute (c : Client) (m : Moment) (op : Operation) (target : Target) (body : String) :
    Report Bytes :=
  match c.request m op target body with
  | .error e => Report.fail e
  | .ok r => c.deliver m op r

/-! ### Answers -/

/-- The line for a body that holds nothing. -/
def blankLine : LogLine := ⟨.debug, "configuration response body is empty"⟩

/-- The line for a configuration that comes without an id. -/
def noIdLine (id : String) : LogLine :=
  ⟨.debug, "configuration " ++ id ++ " response carries no id"⟩

/-- The line for a list. -/
def listLine (n : Nat) : LogLine :=
  ⟨.debug, "decoded " ++ String.ofList (decimal n) ++ " configurations"⟩

/-- Reads a configuration. -/
def readConfiguration (body : Bytes) : Report Configuration :=
  ⟨Configuration.decode body, [], if isBlankBody body then [blankLine] else []⟩

/-- Reads configurations. -/
def readConfigurations (body : Bytes) : Report (List Configuration) :=
  match Configuration.decodeList body with
  | .error e => Report.fail e
  | .ok cs => ⟨.ok cs, [], if isBlankBody body then [] else [listLine cs.length]⟩

/-- A configuration that was asked for by its id has one. -/
def requireId (id : String) (c : Configuration) : Report Configuration :=
  if c.id = "" then
    ⟨.error (.plain .configurationMissing ("configuration " ++ id ++ " does not exist")), [],
      [noIdLine id]⟩
  else Report.ofResult (.ok c)

/-! ### Calls -/

/-- Refuses an empty id. -/
def checkId (id : String) : Except Error Unit :=
  if id = "" then .error (.plain .invalidArgument "configuration id is required") else .ok ()

/-- **The configuration with an id.** -/
def get (c : Client) (m : Moment) (id : String) : Report Configuration :=
  (Report.ofResult (checkId id)).andThen fun _ =>
    (c.execute m .get (.configuration id) "").andThen fun body =>
      (readConfiguration body).andThen (requireId id)

/-- **Configurations, up to a number.** -/
def list (c : Client) (m : Moment) (maxCount : Nat) : Report (List Configuration) :=
  if maxCount = 0 then Report.fail (.plain .invalidArgument "max count must be greater than zero")
  else (c.execute m .list (.list maxCount) "").andThen readConfigurations

/-- **A new configuration**, as the hub keeps it. -/
def add (c : Client) (m : Moment) (draft : ConfigurationDraft) : Report Configuration :=
  (Report.ofResult (checkId draft.id)).andThen fun _ =>
    (Report.ofResult draft.encode).andThen fun document =>
      (c.execute m .add (.configuration draft.id) document).andThen readConfiguration

/-- **A configuration in place of another**, as the hub keeps it. -/
def update (c : Client) (m : Moment) (u : ConfigurationUpdate) : Report Configuration :=
  (Report.ofResult (checkId u.id)).andThen fun _ =>
    (Report.ofResult u.encode).andThen fun document =>
      (c.execute m .update (.configuration u.id) document).andThen readConfiguration

/-- **One configuration less.** -/
def delete (c : Client) (m : Moment) (id : String) : Report Unit :=
  (Report.ofResult (checkId id)).andThen fun _ =>
    (c.execute m .delete (.configuration id) "").andThen fun _ => Report.ofResult (.ok ())

/-- **Whether a condition and queries are well formed.** -/
def testQueries (c : Client) (m : Moment) (t : QueryTest) : Report QueryTestResult :=
  (c.execute m .testQueries .testQueries t.encode).andThen fun body =>
    Report.ofResult (QueryTestResult.decode body)

end Client

end HubConfig
