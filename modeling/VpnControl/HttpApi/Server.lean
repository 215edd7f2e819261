import VpnControl.HttpApi.Auth
import VpnControl.Agent.Service

namespace VpnControl.HttpApi
open Strings Json

/-- `AgentService`: what it returns is given as the JSON value that is written of it. -/
structure AgentService (m : Type → Type) where
  inspect : m (Except Text Doc)
  peers : m (Except Text Doc)
  issue : Agent.IssueRequest → m (Except Text Doc)
  revoke : Bytes → m (Except Text Doc)

/-- `decode` is the strict reading of one JSON value by `encoding/json`. -/
structure Server (m : Type → Type) where
  service : AgentService m
  auth : Authenticator
  hashes : Hashes
  decode : Bytes → Except Text Agent.IssueRequest

inductive Response where
  | json (status : Nat) (payload : Doc)
  | redirect (path : Text)
  | notFound
  | badRequest

def statusText (status : Nat) : Text :=
  if status = 400 then lit "Bad Request"
  else if status = 401 then lit "Unauthorized"
  else if status = 403 then lit "Forbidden"
  else if status = 405 then lit "Method Not Allowed"
  else if status = 413 then lit "Request Entity Too Large"
  else lit "Internal Server Error"

def writeHttpError (e : HttpError) : Response :=
  .json e.status (.obj [(lit "error", .str e.message), (lit "status", .num (Nat.toDigits 10 e.status)),
    (lit "status_text", .str (statusText e.status))])

/-- `writeError` of an error of the service, which is none of HTTP. -/
def writeError (message : Text) : Response := writeHttpError ⟨500, message⟩

def writeResult (status : Nat) : Except Text Doc → Response
  | .ok result => .json status result
  | .error message => writeError message

def methodNotAllowed : Response := writeHttpError ⟨405, lit "method not allowed"⟩

/-- The text of ASCII bytes. -/
def ascii (s : Bytes) : Text := s.map fun b => Char.ofNat b.toNat

/-- What a pattern of the mux leads to. -/
inductive Route where
  | health
  | status
  | peers
  | peer
  | redirect (path : Text)
  | notFound
  | badRequest
  deriving DecidableEq, Repr

/-- `cleanPath`. -/
def cleanPath (p : Text) : Text :=
  let rooted := if p.head? = some '/' then p else '/' :: p
  let np := Agent.clean rooted
  if rooted.getLast? = some '/' ∧ np ≠ ['/'] then np ++ ['/'] else np

/-- The pattern of `Handler` that a clean path matches: its first segment decides. -/
def matchPath (p : Text) : Route :=
  let segment := (p.drop 1).takeWhile (· ≠ '/')
  let rest := (p.drop 1).dropWhile (· ≠ '/')
  let name := (unescape (utf8 segment)).getD (utf8 segment)
  if name = utf8 (lit "health") ∧ rest = [] then .health
  else if name = utf8 (lit "status") ∧ rest = [] then .status
  else if name = utf8 (lit "peers") then if rest = [] then .peers else .peer
  else .notFound

/-- `ServeMux`: the escaped path of a request is matched, after a redirect to the clean one. -/
def route (method escapedPath : Bytes) : Route :=
  let p := ascii escapedPath
  if p = ['*'] then .badRequest
  else if method = utf8 (lit "CONNECT") then if p = [] then .notFound else matchPath p
  else if cleanPath p ≠ p then .redirect (cleanPath p)
  else matchPath p

namespace Server
variable {m : Type → Type} [Monad m] (s : Server m)

def handleHealth (r : Request) : Response :=
  if r.method = utf8 (lit "GET") then
    .json 200 (.obj [(lit "status", .str (lit "ok")), (lit "version", .str (lit "0.2.0"))])
  else methodNotAllowed

def handleStatus (r : Request) : m Response := do
  if r.method = utf8 (lit "GET") then
    let result ← s.service.inspect
    return writeResult 200 result
  else return methodNotAllowed

def handlePeers (r : Request) (body : Bytes) : m Response := do
  if r.method = utf8 (lit "GET") then
    let result ← s.service.peers
    return writeResult 200 result
  else if r.method = utf8 (lit "POST") then
    match s.decode body with
    | .error message => return writeHttpError ⟨400, lit "invalid JSON: " ++ message⟩
    | .ok req =>
      let result ← s.service.issue req
      return writeResult 201 result
  else return methodNotAllowed

/-- The public key in the path of a request to `/peers/`. -/
def peerKey (r : Request) : Option Bytes :=
  let path := r.url.escapedPath
  let directory := utf8 (lit "/peers/")
  unescape (if directory <+: path then path.drop directory.length else path)

def handlePeer (r : Request) : m Response := do
  if r.method ≠ utf8 (lit "DELETE") then return methodNotAllowed
  else
    match peerKey r with
    | some (b :: publicKey) =>
      let result ← s.service.revoke (b :: publicKey)
      return writeResult 200 result
    | _ => return writeHttpError ⟨400, lit "invalid public key"⟩

/-- `withAuth`: a body that is too large is not read. -/
def withAuth (next : Request → Bytes → m Response) (now : Int) (r : Request) (body : Bytes) :
    m Response := do
  if body.length > 1048576 then return writeHttpError ⟨413, lit "request body is too large"⟩
  else
    match s.auth.authorize s.hashes now r body with
    | .error e => return writeHttpError e
    | .ok () => next r body

/-- The handler behind the authorization that a request is routed to. -/
def next (route : Route) (r : Request) (body : Bytes) : m Response :=
  match route with
  | .status => s.handleStatus r
  | .peers => s.handlePeers r body
  | .peer => s.handlePeer r
  | .health => pure (handleHealth r)
  | .redirect path => pure (.redirect path)
  | .notFound => pure .notFound
  | .badRequest => pure .badRequest

/-- `Handler`: only the requests for the state of the node are authorized. -/
def serveHTTP (now : Int) (r : Request) (body : Bytes) : m Response :=
  match route r.method r.url.escapedPath with
  | .status => s.withAuth (s.next .status) now r body
  | .peers => s.withAuth (s.next .peers) now r body
  | .peer => s.withAuth (s.next .peer) now r body
  | route => s.next route r body

end Server
end VpnControl.HttpApi
