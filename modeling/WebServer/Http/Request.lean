import WebServer.Net.BufferType
import Mathlib.Data.Finmap

/-!
# HTTP requests

Model of `http/http_literal.{h,cc}` and `http/http_request.h`. A setter takes the range it reads as two
iterators into the buffer and returns the `bool` of the source with the request as the setter leaves it,
which is the request as it was or as far as it was filled in. `headers_`, a `std::map`, is a `Finmap`.
-/

namespace WebServer.Http

open Net Lib RandomAccess

inductive HttpVersion where
  | kHttp10
  | kHttp11
  | kUnknown
deriving DecidableEq, Repr

inductive HttpMethod where
  | kGet
  | kPost
  | kHead
  | kPut
  | kDelete
  | kInvalid
deriving DecidableEq, Repr

inductive HttpStatusCode where
  | k200Ok
  | k301MovedPermanently
  | k400BadRequest
  | k404NotFound
  | kUnknown
deriving DecidableEq, Repr

/-- `HttpVersion(i)` -/
def HttpVersion.ofIndex : Nat → HttpVersion
  | 0 => .kHttp10
  | 1 => .kHttp11
  | _ => .kUnknown

/-- `HttpMethod(i)` -/
def HttpMethod.ofIndex : Nat → HttpMethod
  | 0 => .kGet
  | 1 => .kPost
  | 2 => .kHead
  | 3 => .kPut
  | 4 => .kDelete
  | _ => .kInvalid

def gHttpMethods : List Bytes :=
  [bytes "GET", bytes "POST", bytes "HEAD", bytes "PUT", bytes "DELETE"]

def gHttpPrefix : Bytes := bytes "HTTP/"

def gHttpVersions : List Bytes := [bytes "1.0", bytes "1.1"]

def gHttpStatusCodes : List Nat := [200, 301, 400, 404]

def gHttpStatusMessages : List Bytes :=
  [bytes "OK", bytes "Moved Permanently", bytes "Bad Request", bytes "Not Found"]

def kCRLF : Bytes := [13, 10]

/-- `std::map<std::string, std::string>` -/
abbrev HeaderMap := Finmap fun _ : Bytes => Bytes

/-- `std::map::emplace`: an existing entry stays. -/
def HeaderMap.emplace (m : HeaderMap) (key value : Bytes) : HeaderMap :=
  if key ∈ m then m else m.insert key value

/-- `class HTTPRequest` -/
structure HTTPRequest where
  method_ : HttpMethod
  version_ : HttpVersion
  path_ : Bytes
  query_ : Bytes
  headers_ : HeaderMap
  body_ : Bytes
deriving DecidableEq

namespace HTTPRequest

/-- `HTTPRequest::HTTPRequest` -/
def new : HTTPRequest where
  method_ := .kInvalid
  version_ := .kUnknown
  path_ := []
  query_ := []
  headers_ := ∅
  body_ := []

section Setters

variable {B I : Type} [BufferType B I] (req : HTTPRequest) (buff : B)

/-- `HTTPRequest::setMethod` -/
def setMethod (start end_ : I) : Option (Bool × HTTPRequest) := do
  let method_str ← copyRange buff start end_
  let iter := gHttpMethods.idxOf method_str
  if iter ≠ gHttpMethods.length then
    some (true, { req with method_ := HttpMethod.ofIndex iter })
  else
    some (false, req)

/-- `HTTPRequest::setVersion` -/
def setVersion (start end_ : I) : Option (Bool × HTTPRequest) := do
  let iter ← search buff start end_ gHttpPrefix
  if same buff iter end_ then
    some (false, req)
  else
    let http_version ← copyRange buff (← plus buff iter gHttpPrefix.length) end_
    let iter_v := gHttpVersions.idxOf http_version
    if iter_v ≠ gHttpVersions.length then
      some (true, { req with version_ := HttpVersion.ofIndex iter_v })
    else
      some (false, req)

/-- `HTTPRequest::setPath` -/
def setPath (start end_ : I) : Option (Bool × HTTPRequest) := do
  some (true, { req with path_ := ← copyRange buff start end_ })

/-- `HTTPRequest::setQuery` -/
def setQuery (start end_ : I) : Option (Bool × HTTPRequest) := do
  some (true, { req with query_ := ← copyRange buff start end_ })

/-- `HTTPRequest::setHeader` -/
def setHeader (start colon end_ : I) : Option (Bool × HTTPRequest) := do
  let key ← copyRange buff start colon
  let colon ← next buff colon
  let colon ← skipWhile buff (char ' ') colon
  let end_ ← skipWhileBack buff (char ' ') end_
  let value ← copyRange buff colon end_
  some (true, { req with headers_ := req.headers_.emplace key value })

end Setters

/-- `HTTPRequest::hasHeader` and `HTTPRequest::getHeader`; `none` for a missing key. -/
def getHeader (req : HTTPRequest) (key : Bytes) : Option Bytes := req.headers_.lookup key

/-- `HTTPRequest::expectBody`, with its assertion compiled out. -/
def expectBody (req : HTTPRequest) : Bool := req.method_ = .kPost

end HTTPRequest

end WebServer.Http
