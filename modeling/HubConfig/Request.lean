/-
**Requests and responses.**

Main definitions:

* `Status`: a status code, with `Status.text` its usual words;
* `Header`, `Header.make`: a header, and a header from a text that is checked first;
* `Operation`, `Target`: what can be asked of the hub, and what it is asked of;
* `relativePath`: the path and the query of a request;
* `RequestId`: the identifier of a request, a random one in the form of a version 4 UUID;
* `Request`, `Response`: what goes over the wire;
* `requestHeaders`: the headers of an operation, before it is signed;
* `RequestDescriptor.make`: all of a request but its host and its body.

Main results:

* `Status.isSuccess_iff`: the codes of success are those from 200 to 299;
* `Header.make_eq_ok_iff`: which texts make a header;
* `relativePath_configuration`: where a configuration with a given id is addressed;
* `requestHeaders_eq_ok`: the headers of an operation can always be made.
-/

import HubConfig.Error
import HubConfig.Text.Digits
import HubConfig.Text.Quoted
import HubConfig.Uri

set_option autoImplicit false

namespace HubConfig

open HubConfig.Text

/-! ### Statuses -/

/-- A status code. -/
structure Status where
  code : Nat
  deriving DecidableEq, Repr

namespace Status

/-- The codes that have usual words. -/
def reasons : List (Nat × String) :=
  [(100, "Continue"), (101, "Switching Protocols"), (102, "Processing"), (103, "Early Hints"),
    (200, "OK"), (201, "Created"), (202, "Accepted"), (203, "Non Authoritative Information"),
    (204, "No Content"), (205, "Reset Content"), (206, "Partial Content"), (207, "Multi-Status"),
    (208, "Already Reported"), (226, "IM Used"), (300, "Multiple Choices"),
    (301, "Moved Permanently"), (302, "Found"), (303, "See Other"), (304, "Not Modified"),
    (305, "Use Proxy"), (307, "Temporary Redirect"), (308, "Permanent Redirect"),
    (400, "Bad Request"), (401, "Unauthorized"), (402, "Payment Required"), (403, "Forbidden"),
    (404, "Not Found"), (405, "Method Not Allowed"), (406, "Not Acceptable"),
    (407, "Proxy Authentication Required"), (408, "Request Timeout"), (409, "Conflict"),
    (410, "Gone"), (411, "Length Required"), (412, "Precondition Failed"),
    (413, "Payload Too Large"), (414, "URI Too Long"), (415, "Unsupported Media Type"),
    (416, "Range Not Satisfiable"), (417, "Expectation Failed"), (418, "I'm a teapot"),
    (421, "Misdirected Request"), (422, "Unprocessable Entity"), (423, "Locked"),
    (424, "Failed Dependency"), (425, "Too Early"), (426, "Upgrade Required"),
    (428, "Precondition Required"), (429, "Too Many Requests"),
    (431, "Request Header Fields Too Large"), (451, "Unavailable For Legal Reasons"),
    (500, "Internal Server Error"), (501, "Not Implemented"), (502, "Bad Gateway"),
    (503, "Service Unavailable"), (504, "Gateway Timeout"), (505, "HTTP Version Not Supported"),
    (506, "Variant Also Negotiates"), (507, "Insufficient Storage"), (508, "Loop Detected"),
    (510, "Not Extended"), (511, "Network Authentication Required")]

/-- The code with its usual words. -/
def text (s : Status) : String :=
  String.ofList (decimal s.code) ++ " " ++ (reasons.lookup s.code).getD "<unknown status code>"

/-- Whether a code is one of success. -/
def isSuccess (s : Status) : Bool := s.code / 100 == 2

theorem isSuccess_iff {s : Status} : s.isSuccess = true ↔ 200 ≤ s.code ∧ s.code ≤ 299 := by
  simp only [isSuccess, beq_iff_eq]
  omega

end Status

/-! ### Headers -/

/-- A character that may stand in the value of a header: any but the controls, of which only the tab
may. -/
def isHeaderChar (c : Char) : Bool := c == '\t' || (0x20 ≤ c.toNat && c.toNat != 0x7F)

/-- Whether a text can be the value of a header. -/
def isHeaderValue (s : String) : Bool := s.toList.all isHeaderChar

/-- What is said of a text that cannot be the value of a header. -/
def invalidHeaderValue : Error := .adopted .unexpected "failed to parse header value"

/-- A header of a request. -/
structure Header where
  /-- The name, in lower case. -/
  name : String
  /-- The value. -/
  value : String
  /-- Whether the value is a secret. -/
  sensitive : Bool
  deriving DecidableEq, Repr

/-- A header from a text that is checked first. -/
def Header.make (name value : String) (sensitive : Bool) : Except Error Header :=
  if isHeaderValue value then .ok ⟨name, value, sensitive⟩ else .error invalidHeaderValue

theorem Header.make_eq_ok_iff {name value : String} {sensitive : Bool} {h : Header} :
    Header.make name value sensitive = .ok h ↔
      isHeaderValue value = true ∧ h = ⟨name, value, sensitive⟩ := by
  rw [Header.make]
  split
  · next hv => simp only [Except.ok.injEq, hv, true_and, @eq_comm _ h]
  · next hv => simp [hv]

/-- The name of the header that holds the token. -/
def authorizationName : String := "authorization"

/-! ### Operations -/

/-- What can be asked of the hub. -/
inductive Operation
  /-- Configurations up to a number. -/
  | list
  /-- One configuration. -/
  | get
  /-- A new configuration. -/
  | add
  /-- A configuration in place of another. -/
  | update
  /-- One configuration less. -/
  | delete
  /-- Whether queries are well formed. -/
  | testQueries
  deriving DecidableEq, Repr

/-- The verb of a request. -/
inductive Method
  | get
  | put
  | delete
  | post
  deriving DecidableEq, Repr

/-- A verb as it is written. -/
def Method.label : Method → String
  | .get => "GET"
  | .put => "PUT"
  | .delete => "DELETE"
  | .post => "POST"

namespace Operation

/-- The name of an operation in messages. -/
def label : Operation → String
  | .list => "GET_LIST"
  | .get => "GET"
  | .add => "ADD"
  | .update => "UPDATE"
  | .delete => "DELETE"
  | .testQueries => "TEST_QUERIES"

/-- The verb of an operation. -/
def method : Operation → Method
  | .list => .get
  | .get => .get
  | .add => .put
  | .update => .put
  | .delete => .delete
  | .testQueries => .post

/-- Whether an operation changes a configuration, so that its request says that any version of it
will do. -/
def changes : Operation → Bool
  | .add => true
  | .update => true
  | .delete => true
  | _ => false

/-- Whether an operation is about one configuration. -/
def isSingle : Operation → Bool
  | .get => true
  | .add => true
  | .update => true
  | .delete => true
  | _ => false

end Operation

/-! ### Targets -/

/-- What an operation is asked of. -/
inductive Target
  /-- All configurations, or the first `top` of them. -/
  | list (top : Nat)
  /-- One configuration. -/
  | configuration (id : String)
  /-- The check of queries. -/
  | testQueries
  deriving DecidableEq, Repr

/-- A target as diagnostics show it. -/
def Target.describe : Target → String
  | .list top => showFields "List" [("top", String.ofList (decimal top))]
  | .configuration id => "Configuration(" ++ quoted id ++ ")"
  | .testQueries => "TestQueries"

/-! ### Paths -/

/-- The query that every request carries. -/
def apiVersion : String := "api-version=2018-06-30"

/-- The id of a configuration as a path segment. -/
def idSegment (id : String) : List Char := percentEncode (utf8Bytes id.toList)

/-- Where a configuration is addressed. -/
def configurationPath (id : String) : String :=
  "/configurations/" ++ String.ofList (idSegment id) ++ "?" ++ apiVersion

/-- What is said of an operation without such a target. -/
def mismatch (op : Operation) (target : Target) : Error :=
  .plain .unexpected ("operation " ++ op.label ++ " can't be applied to " ++ target.describe)

/-- **The path and the query of a request.** -/
def relativePath (op : Operation) (target : Target) : Except Error String :=
  match target with
  | .list top =>
      if op = .list then
        .ok ("/configurations/?top=" ++ String.ofList (decimal top) ++ "&" ++ apiVersion)
      else .error (mismatch op target)
  | .configuration id =>
      if op.isSingle then
        if id = "" then .error (.plain .unexpected "configuration id must not be empty")
        else .ok (configurationPath id)
      else .error (mismatch op target)
  | .testQueries =>
      if op = .testQueries then .ok ("/configurationstestQueries?" ++ apiVersion)
      else .error (mismatch op target)

theorem relativePath_configuration {op : Operation} {id : String} (h : op.isSingle = true)
    (hid : id ≠ "") : relativePath op (.configuration id) = .ok (configurationPath id) := by
  simp [relativePath, h, hid]

/-! ### Identifiers -/

/-- The identifier of a request: the bits that are left to chance. -/
structure RequestId where
  bits : Fin (1 <<< 122)
  deriving DecidableEq

/-- A number in lower case hexadecimal digits, cut or filled up to a width. -/
def hexField (width n : Nat) : List Char :=
  (List.range width).reverse.map fun i => lowerHexDigit ((n >>> (4 * i)) % 16)

/-- The identifier as it is written, with the marks of version 4 in two of its digits. -/
protected def RequestId.toString (id : RequestId) : String :=
  let n := id.bits.val
  String.ofList <|
    hexField 8 n ++ '-' :: hexField 4 (n >>> 32) ++
      '-' :: hexField 4 (0x4000 + (n >>> 48) % 0x1000) ++
      '-' :: hexField 4 (0x8000 + (n >>> 60) % 0x4000) ++
      '-' :: hexField 12 (n >>> 74)

/-- The identifier with given bits, of which 122 count. -/
def RequestId.ofNat (n : Nat) : RequestId := ⟨⟨n % (1 <<< 122), Nat.mod_lt _ (by decide)⟩⟩

/-! ### Messages -/

/-- A request as the transport gets it. -/
structure Request where
  method : Method
  uri : Uri
  headers : List Header
  body : String
  deriving DecidableEq, Repr

/-- A response as the transport gives it. -/
structure Response where
  status : Status
  body : Bytes
  deriving DecidableEq, Repr

/-! ### Headers of an operation -/

/-- The headers of an operation around the one that identifies the request.  A blank holds the place
of the token, and a change says that any version of the configuration will do. -/
def headersAround (op : Operation) (requestId : Header) : List Header :=
  [⟨authorizationName, " ", false⟩, requestId,
    ⟨"user-agent", "iothubserviceclient-rs/0.1.0", false⟩,
    ⟨"content-type", "application/json; charset=utf-8", false⟩] ++
  if op.changes then [⟨"if-match", "'*'", false⟩] else []

/-- The headers of an operation, before it is signed. -/
def requestHeaders (op : Operation) (id : RequestId) : Except Error (List Header) :=
  (Header.make "request-id" id.toString false).map (headersAround op)

theorem all_isHeaderChar_hexField (width n : Nat) :
    (hexField width n).all isHeaderChar = true := by
  have digits : ∀ d < 16, isHeaderChar (lowerHexDigit d) = true := by decide
  refine List.all_eq_true.2 fun c hc => ?_
  obtain ⟨i, -, rfl⟩ := List.mem_map.1 hc
  exact digits _ (Nat.mod_lt _ (by decide))

theorem RequestId.isHeaderValue_toString (id : RequestId) :
    isHeaderValue id.toString = true := by
  have dash : isHeaderChar '-' = true := by decide
  simp [isHeaderValue, RequestId.toString, all_isHeaderChar_hexField, dash]

/-- The headers of an operation can always be made. -/
theorem requestHeaders_eq_ok (op : Operation) (id : RequestId) :
    requestHeaders op id = .ok (headersAround op ⟨"request-id", id.toString, false⟩) := by
  rw [requestHeaders, Header.make_eq_ok_iff.2 ⟨id.isHeaderValue_toString, rfl⟩]
  rfl

/-- Headers with the one that holds the token in its place. -/
def authorize (authorization : Header) (headers : List Header) : List Header :=
  headers.map fun h => if h.name = authorizationName then authorization else h

/-! ### Descriptors -/

/-- All of a request but its host and its body. -/
structure RequestDescriptor where
  relativePath : String
  method : Method
  headers : List Header
  deriving DecidableEq, Repr

/-- The descriptor of an operation on a target. -/
def RequestDescriptor.make (op : Operation) (target : Target) (id : RequestId) :
    Except Error RequestDescriptor :=
  match HubConfig.relativePath op target with
  | .error e => .error e
  | .ok path => (requestHeaders op id).map fun headers => ⟨path, op.method, headers⟩

end HubConfig
