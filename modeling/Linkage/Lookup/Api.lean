import Linkage.Config.Basic
import Linkage.Json.Raw
import Linkage.Lookup.Basic
import Linkage.Url.Basic

/-!
# The space API

A lookup asks the API for one space by a single request and classifies what comes back; it never asks
twice.

* `Api`                what is known about an API;
* `Api.request?`       the request for a space, if one can be made;
* `Transport`          what carries a request to the API and brings its response;
* `ApiReply.ofBytes?`  the body of a response;
* `Api.answer`         the answer to a space uid.
-/

namespace Linkage

/-- What is known about an API. -/
structure Api where
  baseUrl : String
  /-- in seconds -/
  timeout : Nat
  token : Option String
  /-- how the name of its host is written in ASCII -/
  names : Url.Naming := .simple

/-- A request for a URL. -/
structure ApiRequest where
  url : Url
  authorization : Option String
  userAgent : String
  deriving DecidableEq

structure Response where
  status : Nat
  body : ByteArray

/-- Why there is no response. -/
inductive SendFailure where
  | timeout
  | failed
  deriving DecidableEq

/-- What carries a request and brings its response. -/
abbrev Transport : Type := ApiRequest → Except SendFailure Response

/-- The standard phrase for a status. -/
def reasonPhrase? : Nat → Option String
  | 100 => some "Continue"
  | 101 => some "Switching Protocols"
  | 102 => some "Processing"
  | 103 => some "Early Hints"
  | 200 => some "OK"
  | 201 => some "Created"
  | 202 => some "Accepted"
  | 203 => some "Non Authoritative Information"
  | 204 => some "No Content"
  | 205 => some "Reset Content"
  | 206 => some "Partial Content"
  | 207 => some "Multi-Status"
  | 208 => some "Already Reported"
  | 226 => some "IM Used"
  | 300 => some "Multiple Choices"
  | 301 => some "Moved Permanently"
  | 302 => some "Found"
  | 303 => some "See Other"
  | 304 => some "Not Modified"
  | 305 => some "Use Proxy"
  | 307 => some "Temporary Redirect"
  | 308 => some "Permanent Redirect"
  | 400 => some "Bad Request"
  | 401 => some "Unauthorized"
  | 402 => some "Payment Required"
  | 403 => some "Forbidden"
  | 404 => some "Not Found"
  | 405 => some "Method Not Allowed"
  | 406 => some "Not Acceptable"
  | 407 => some "Proxy Authentication Required"
  | 408 => some "Request Timeout"
  | 409 => some "Conflict"
  | 410 => some "Gone"
  | 411 => some "Length Required"
  | 412 => some "Precondition Failed"
  | 413 => some "Payload Too Large"
  | 414 => some "URI Too Long"
  | 415 => some "Unsupported Media Type"
  | 416 => some "Range Not Satisfiable"
  | 417 => some "Expectation Failed"
  | 418 => some "I'm a teapot"
  | 421 => some "Misdirected Request"
  | 422 => some "Unprocessable Entity"
  | 423 => some "Locked"
  | 424 => some "Failed Dependency"
  | 425 => some "Too Early"
  | 426 => some "Upgrade Required"
  | 428 => some "Precondition Required"
  | 429 => some "Too Many Requests"
  | 431 => some "Request Header Fields Too Large"
  | 451 => some "Unavailable For Legal Reasons"
  | 500 => some "Internal Server Error"
  | 501 => some "Not Implemented"
  | 502 => some "Bad Gateway"
  | 503 => some "Service Unavailable"
  | 504 => some "Gateway Timeout"
  | 505 => some "HTTP Version Not Supported"
  | 506 => some "Variant Also Negotiates"
  | 507 => some "Insufficient Storage"
  | 508 => some "Loop Detected"
  | 510 => some "Not Extended"
  | 511 => some "Network Authentication Required"
  | _ => none

/-- What the body of a response tells about a space. -/
structure ApiReplyData where
  business : Int
  uid : Option String
  deriving DecidableEq

/-- The body of a response. -/
structure ApiReply where
  result : Bool
  code : Int
  message : String
  data : Option ApiReplyData
  deriving DecidableEq

def ApiReplyData.ofRaw? (v : Json.Raw) : Option ApiReplyData := do
  let r ← Record.of? ["bk_biz_id", "space_uid"] v
  return {
    business := ← r.required "bk_biz_id" (Json.Raw.read? Json.int64?)
    uid := ← r.defaulted "space_uid" none (Record.nullable (Json.Raw.read? Json.text?)) }

namespace ApiReply

def ofRaw? (v : Json.Raw) : Option ApiReply := do
  let r ← Record.of? ["result", "code", "message", "data"] v
  return {
    result := ← r.required "result" (Json.Raw.read? Json.bool?)
    code := ← r.defaulted "code" 0 (Json.Raw.read? Json.int64?)
    message := ← r.defaulted "message" "" (Json.Raw.read? Json.text?)
    data := ← r.optional "data" ApiReplyData.ofRaw? }

def ofBytes? (b : ByteArray) : Option ApiReply := (Json.Raw.parse? b).bind ofRaw?

end ApiReply

namespace Api

/-- The name under which requests are made. -/
def userAgent : String := "relsync/0.1.0"

/-- The seconds that a connection may take. -/
def connectTimeout : Nat := 5

/-- The seconds for an answer if nothing says so. -/
def standardTimeout : Nat := 10

/-- The API of a URL, which must be one of the web. -/
def of? (baseUrl : String) (timeout : Nat) (token : Option String) : Except Error Api :=
  if Url.isWeb baseUrl then .ok { baseUrl, timeout, token }
  else .error (.network (.invalidUrl baseUrl))

/-- The URL of the questions, as text. -/
def detailUrl (a : Api) : String :=
  String.ofList (a.baseUrl.toList.reverse.dropWhile (· = '/')).reverse ++ "/get_space_detail/"

/-- Whether a text may stand in a header. -/
def isHeaderText (s : String) : Bool :=
  s.toList.all fun c => c = '\t' || (0x20 ≤ c.toNat && c.toNat ≠ 0x7f)

/-- The request for a space; there is none if the URL cannot be read or the token cannot be sent. -/
def request? (a : Api) (uid : String) : Option ApiRequest := do
  let url ← Url.parse? a.names a.detailUrl
  let authorization := a.token.map ("Bearer " ++ ·)
  if authorization.all isHeaderText then
    some ⟨url.withPair "space_uid" uid, authorization, userAgent⟩
  else none

/-- What the body of a response with a good status says. -/
def ofReply (a : Api) (uid : String) (e : ApiReply) : Except Error SpaceDetail :=
  if e.result then match e.data with
    | some d => .ok ⟨d.uid.getD uid, d.business⟩
    | none => .error (.network (.invalidResponse a.detailUrl "missing data"))
  else if e.code = 404 then .error (.space (.notFound uid))
  else .error (.space (.rejected uid e.message))

def ofResponse (a : Api) (uid : String) (r : Response) : Except Error SpaceDetail :=
  if r.status = 404 then .error (.space (.notFound uid))
  else if r.status < 200 ∨ 300 ≤ r.status then
    .error (.network (.http r.status ((reasonPhrase? r.status).getD "unknown")))
  else match ApiReply.ofBytes? r.body with
    | some e => a.ofReply uid e
    | none => .error (.network (.invalidResponse a.detailUrl "error decoding response body"))

/-- The answer to a space uid. -/
def answer (a : Api) (send : Transport) (uid : String) : Except Error SpaceDetail :=
  if uid = "" then .error (.space (.invalidUid uid))
  else match a.request? uid with
    | none => .error (.network (.refused "builder error"))
    | some r => match send r with
      | .ok response => a.ofResponse uid response
      | .error .timeout => .error (.network (.timeout a.detailUrl))
      | .error .failed =>
        .error (.network (.refused ("error sending request for url (" ++ r.url.text ++ ")")))

end Api

/-- The lookup that asks an API. -/
def Lookup.ofApi (a : Api) (send : Transport) : Lookup where
  answer := a.answer send
  notes _ := []

end Linkage
