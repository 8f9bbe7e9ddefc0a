import ClusterObjects.Json.Printer

/-! # Requests over HTTP

What a client sends to a cluster and what comes back, as far as the objects of
the cluster are concerned; and a server whose answers are laid down in advance.
-/

namespace ClusterObjects

/-- The methods of the cluster's API. -/
inductive HttpMethod where
  | get
  | post
  | put
  | patch
  | delete
deriving DecidableEq

def HttpMethod.text : HttpMethod → String
  | .get => "GET"
  | .post => "POST"
  | .put => "PUT"
  | .patch => "PATCH"
  | .delete => "DELETE"

/-- What a client sends. The query is in key order. -/
structure HttpRequest where
  method : HttpMethod
  path : String
  query : Entries String String
  contentType : Option String
  body : Option Json

/-- What comes back. -/
structure HttpResponse where
  status : Nat
  body : List Char

namespace HttpRequest

/-- A request that only reads. -/
def read (path : String) (query : Entries String String) : HttpRequest :=
  ⟨.get, path, query, none, none⟩

def route (request : HttpRequest) : String := request.method.text ++ " " ++ request.path

end HttpRequest

namespace HttpResponse

/-- Whether a response reports an error of the client or of the server. -/
def isError (response : HttpResponse) : Bool :=
  decide (400 ≤ response.status) && decide (response.status < 600)

/-- The phrase that goes with the status of an error. -/
def phrase (status : Nat) : String :=
  match status with
  | 400 => "Bad Request" | 401 => "Unauthorized" | 402 => "Payment Required"
  | 403 => "Forbidden" | 404 => "Not Found" | 405 => "Method Not Allowed"
  | 406 => "Not Acceptable" | 407 => "Proxy Authentication Required"
  | 408 => "Request Timeout" | 409 => "Conflict" | 410 => "Gone" | 411 => "Length Required"
  | 412 => "Precondition Failed" | 413 => "Payload Too Large" | 414 => "URI Too Long"
  | 415 => "Unsupported Media Type" | 416 => "Range Not Satisfiable"
  | 417 => "Expectation Failed" | 418 => "I'm a teapot" | 421 => "Misdirected Request"
  | 422 => "Unprocessable Entity" | 423 => "Locked" | 424 => "Failed Dependency"
  | 426 => "Upgrade Required" | 428 => "Precondition Required" | 429 => "Too Many Requests"
  | 431 => "Request Header Fields Too Large" | 451 => "Unavailable For Legal Reasons"
  | 500 => "Internal Server Error" | 501 => "Not Implemented" | 502 => "Bad Gateway"
  | 503 => "Service Unavailable" | 504 => "Gateway Timeout"
  | 505 => "HTTP Version Not Supported" | 506 => "Variant Also Negotiates"
  | 507 => "Insufficient Storage" | 508 => "Loop Detected" | 510 => "Not Extended"
  | 511 => "Network Authentication Required"
  | _ => "<unknown status code>"

def statusLine (response : HttpResponse) : String :=
  String.ofList (Text.decimal response.status) ++ " " ++ phrase response.status

def ofJson (status : Nat) (body : Json) : HttpResponse := ⟨status, body.compact⟩

/-- The response to a request for which nothing is laid down. -/
def noRoute : HttpResponse := ofJson 404 (Json.ofFields [
  ("kind", .str "Status"), ("apiVersion", .str "v1"), ("status", .str "Failure"),
  ("message", .str "no route"), ("reason", .str "NotFound"), ("code", .ofNat 404)])

end HttpResponse

/-- A server whose answers are laid down by route. -/
abbrev Server := Entries String (List HttpResponse)

namespace Server

/-- The answer to a request and the server after it: each request takes the next
response of its route, and the last response stays. -/
def answer (server : Server) (request : HttpRequest) : HttpResponse × Server :=
  match Entries.get? server request.route with
  | none | some [] => (.noRoute, server)
  | some [last] => (last, server)
  | some (next :: rest) => (next, Entries.insert server request.route rest)

end Server

end ClusterObjects
