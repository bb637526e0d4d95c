import TenantGate.Http.Uri
import TenantGate.Text.Encoding

/-!
Request methods. A method is any token, told apart by case.
-/
namespace TenantGate.Http

/-- The characters of tokens: methods, header names and the parts of a media type. -/
def isTokenByte (b : UInt8) : Bool :=
  (0x30 ≤ b && b ≤ 0x39) || (0x41 ≤ b && b ≤ 0x5A) || (0x5E ≤ b && b ≤ 0x7A) || b == 0x21 ||
    (0x23 ≤ b && b ≤ 0x27) || b == 0x2A || b == 0x2B || b == 0x2D || b == 0x2E || b == 0x7C ||
    b == 0x7E

def isToken (s : String) : Bool :=
  let bytes := s.toUTF8.toList
  !bytes.isEmpty && bytes.all isTokenByte

structure Method where
  name : String
deriving Repr, DecidableEq

namespace Method

def get : Method := ⟨"GET"⟩
def head : Method := ⟨"HEAD"⟩
def post : Method := ⟨"POST"⟩
def put : Method := ⟨"PUT"⟩
def patch : Method := ⟨"PATCH"⟩
def delete : Method := ⟨"DELETE"⟩
def options : Method := ⟨"OPTIONS"⟩

def ofName? (name : String) : Option Method := if isToken name then some ⟨name⟩ else none

end Method

/-!
Header fields. Names are kept in small letters; a value is a string of bytes, which counts as text
only when all of them are visible ASCII, spaces or tabs.
-/

structure Header where
  name : String
  value : List UInt8
deriving Repr, DecidableEq

namespace Header

def ofText (name value : String) : Header := ⟨name, Utf8.encode value⟩

def isValueByte (b : UInt8) : Bool := b == 9 || (0x20 ≤ b && b != 0x7F)

def isVisibleByte (b : UInt8) : Bool := b == 9 || (0x20 ≤ b && b < 0x7F)

def value? (text : String) : Option (List UInt8) :=
  let bytes := Utf8.encode text
  if bytes.all isValueByte then some bytes else none

def ofTexts? (name value : String) : Option Header :=
  if isToken name then (value? value).map fun bytes => ⟨name.toLower, bytes⟩ else none

def asciiText (bytes : List UInt8) : String :=
  String.ofList (bytes.map fun b => Char.ofNat b.toNat)

def text? (value : List UInt8) : Option String :=
  if value.all isVisibleByte then some (asciiText value) else none

end Header

def firstValue? (headers : List Header) (name : String) : Option (List UInt8) :=
  (headers.find? fun h => h.name == name).map (·.value)

def firstText? (headers : List Header) (name : String) : Option String :=
  (firstValue? headers name).bind Header.text?

/-!
Status codes, from 100 to 999, and the phrases that the registered ones have.
-/

structure Status where
  code : UInt16
  least : 100 ≤ code
  greatest : code ≤ 999
deriving Repr, DecidableEq

namespace Status

def ok : Status := ⟨200, by decide, by decide⟩
def badRequest : Status := ⟨400, by decide, by decide⟩
def unauthorized : Status := ⟨401, by decide, by decide⟩
def forbidden : Status := ⟨403, by decide, by decide⟩
def notFound : Status := ⟨404, by decide, by decide⟩
def methodNotAllowed : Status := ⟨405, by decide, by decide⟩
def payloadTooLarge : Status := ⟨413, by decide, by decide⟩
def unsupportedMediaType : Status := ⟨415, by decide, by decide⟩
def unprocessable : Status := ⟨422, by decide, by decide⟩
def internalError : Status := ⟨500, by decide, by decide⟩
def serviceUnavailable : Status := ⟨503, by decide, by decide⟩

def ofCode? (code : UInt16) : Option Status :=
  if least : 100 ≤ code then
    if greatest : code ≤ 999 then some ⟨code, least, greatest⟩ else none
  else none

def isSuccess (s : Status) : Bool := 200 ≤ s.code && s.code ≤ 299

def reason? (s : Status) : Option String :=
  match s.code.toNat with
  | 100 => some "Continue"
  | 101 => some "Switching Protocols"
  | 102 => some "Processing"
  | 103 => some "Early Hints"
  | 200 => some "OK"
  | 201 => some "Created"
  | 202 => some "Accepted"
  | 203 => some "Non Authoritative Information"
  | 204 => some "No Content"
  | 205 => some "Reset Content"
  | 206 => some "Partial Content"
  | 207 => some "Multi-Status"
  | 208 => some "Already Reported"
  | 226 => some "IM Used"
  | 300 => some "Multiple Choices"
  | 301 => some "Moved Permanently"
  | 302 => some "Found"
  | 303 => some "See Other"
  | 304 => some "Not Modified"
  | 305 => some "Use Proxy"
  | 307 => some "Temporary Redirect"
  | 308 => some "Permanent Redirect"
  | 400 => some "Bad Request"
  | 401 => some "Unauthorized"
  | 402 => some "Payment Required"
  | 403 => some "Forbidden"
  | 404 => some "Not Found"
  | 405 => some "Method Not Allowed"
  | 406 => some "Not Acceptable"
  | 407 => some "Proxy Authentication Required"
  | 408 => some "Request Timeout"
  | 409 => some "Conflict"
  | 410 => some "Gone"
  | 411 => some "Length Required"
  | 412 => some "Precondition Failed"
  | 413 => some "Payload Too Large"
  | 414 => some "URI Too Long"
  | 415 => some "Unsupported Media Type"
  | 416 => some "Range Not Satisfiable"
  | 417 => some "Expectation Failed"
  | 418 => some "I'm a teapot"
  | 421 => some "Misdirected Request"
  | 422 => some "Unprocessable Entity"
  | 423 => some "Locked"
  | 424 => some "Failed Dependency"
  | 425 => some "Too Early"
  | 426 => some "Upgrade Required"
  | 428 => some "Precondition Required"
  | 429 => some "Too Many Requests"
  | 431 => some "Request Header Fields Too Large"
  | 451 => some "Unavailable For Legal Reasons"
  | 500 => some "Internal Server Error"
  | 501 => some "Not Implemented"
  | 502 => some "Bad Gateway"
  | 503 => some "Service Unavailable"
  | 504 => some "Gateway Timeout"
  | 505 => some "HTTP Version Not Supported"
  | 506 => some "Variant Also Negotiates"
  | 507 => some "Insufficient Storage"
  | 508 => some "Loop Detected"
  | 510 => some "Not Extended"
  | 511 => some "Network Authentication Required"
  | _ => none

def text (s : Status) : String :=
  toString s.code ++ " " ++ s.reason?.getD "<unknown status code>"

end Status

/-!
Requests and responses.
-/

structure Request where
  method : Method
  uri : Uri
  headers : List Header
  body : List UInt8
deriving Repr

structure Response where
  status : Status
  headers : List Header
  body : String
deriving Repr, DecidableEq

namespace Response

def bare (status : Status) : Response := ⟨status, [], ""⟩

def ofBody (status : Status) (mediaType body : String) : Response :=
  ⟨status, [.ofText "content-type" mediaType], body⟩

def json (body : String) : Response := ofBody .ok "application/json" body

def plain (status : Status) (body : String) : Response :=
  ofBody status "text/plain; charset=utf-8" body

def addHeader (r : Response) (name value : String) : Response :=
  { r with headers := r.headers ++ [.ofText name value] }

end Response

end TenantGate.Http
