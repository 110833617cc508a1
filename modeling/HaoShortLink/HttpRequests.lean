import HaoShortLink.Cpp
import HaoShortLink.OrderedMaps
import Mathlib.Data.List.DropRight

/-! HttpRequest.cpp. The receive time is left out: it is stored and never read. -/
namespace HttpRequests

open Cpp
open OrderedMaps (OrderedMap)

inductive Method where
  | invalid
  | get
  | post
  | head
  | put
  | delete
  | options
  deriving DecidableEq, Repr

/-- The unordered maps are only looked up, so they are kept in key order as well. -/
structure HttpRequest where
  method : Method := .invalid
  version : Bytes := ascii "Unknown"
  path : Bytes := []
  pathParameters : OrderedMap Bytes Bytes := .empty
  queryParameters : OrderedMap Bytes Bytes := .empty
  headers : OrderedMap Bytes Bytes := .empty
  requestId : Bytes := []
  body : Bytes := []
  contentLength : ℕ := 0
  deriving DecidableEq

def methodOf (m : Bytes) : Method :=
  if m = ascii "GET" then .get
  else if m = ascii "POST" then .post
  else if m = ascii "PUT" then .put
  else if m = ascii "DELETE" then .delete
  else if m = ascii "OPTIONS" then .options
  else .invalid

namespace HttpRequest

def getPathParameters (r : HttpRequest) (key : Bytes) : Bytes :=
  (r.pathParameters.find? key).getD []

def getQueryParameters (r : HttpRequest) (key : Bytes) : Bytes :=
  (r.queryParameters.find? key).getD []

def setPathParameters (r : HttpRequest) (key value : Bytes) : HttpRequest :=
  { r with pathParameters := r.pathParameters.insert key value }

/-- A pair without '=' is dropped. -/
def addQueryPair (parameters : OrderedMap Bytes Bytes) (pair : Bytes) : OrderedMap Bytes Bytes :=
  let key := pair.takeWhile (· != 61)
  match pair.drop key.length with
  | [] => parameters
  | _ :: value => parameters.insert key value

def setQueryParameters (r : HttpRequest) (argument : Bytes) : HttpRequest :=
  { r with queryParameters := (argument.splitOn 38).foldl addQueryPair r.queryParameters }

/-- The header line key ':' rest. -/
def addHeader (r : HttpRequest) (key rest : Bytes) : HttpRequest :=
  { r with headers := r.headers.insert key ((rest.dropWhile isSpace).rdropWhile isSpace) }

def equalsIgnoreCase (left right : Bytes) : Bool := left.map toLower == right.map toLower

/-- The field itself first, then the first name in map order that matches ignoring case. -/
def getHeader (r : HttpRequest) (field : Bytes) : Bytes :=
  match r.headers.find? field with
  | some value => value
  | none => ((r.headers.entries.find? fun h => equalsIgnoreCase h.1 field).map Prod.snd).getD []

/-- The conversion of an int argument to uint64_t. -/
def setContentLength (r : HttpRequest) (length : ℤ) : HttpRequest :=
  { r with contentLength := (length % 2 ^ 64).toNat }

/-- The two requests after the call, the one it is called on first. -/
def swap (r that : HttpRequest) : HttpRequest × HttpRequest :=
  ({ r with
      method := that.method
      path := that.path
      pathParameters := that.pathParameters
      queryParameters := that.queryParameters
      version := that.version
      headers := that.headers
      requestId := that.requestId
      body := that.body
      contentLength := that.contentLength },
    { that with
      method := r.method
      path := r.path
      pathParameters := r.pathParameters
      queryParameters := r.queryParameters
      version := r.version
      headers := r.headers
      requestId := r.requestId
      body := r.body
      contentLength := r.contentLength })

@[simp]
theorem swap_eq (r that : HttpRequest) : r.swap that = (that, r) := rfl

end HttpRequest

end HttpRequests
