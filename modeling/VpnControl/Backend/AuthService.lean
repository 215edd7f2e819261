import VpnControl.Backend.UserService

namespace VpnControl.Backend
open Strings Json Effects Prog

/-- `hash_session_token`: only the hash of a token is stored. -/
def hashSessionToken (wire : Wire) (token : Text) : Except Exc Text :=
  if token.all isASCII then .ok (wire.sha256 token)
  else .error (.other (lit "UnicodeEncodeError"))

/-- `PasswordHasher.verify`. -/
def verifyPassword (wire : Wire) (password stored : Text) : Bool :=
  match stored.splitOn '$' with
  | [scheme, iterations, salt, digest] =>
    scheme = lit "pbkdf2_sha256" && wire.pbkdf2Matches password iterations salt digest
  | _ => false

def loginKey (login : Text) : Text := lit "login:" ++ login

def ipKey (ip : Text) : Text := lit "ip:" ++ ip

/-- The keys under which a failed login counts; an empty address counts as none. -/
def failureKeys (login : Text) (ip : Option Text) : List Text :=
  loginKey login :: if optional ip then [ipKey (ip.getD [])] else []

namespace Services
variable (b : Services)

def rateLimited : AppError where
  code := .rateLimited
  message := lit "Слишком много попыток входа — подожди немного"
  status := 429

def wrongCredentials : AppError := unauthorized (lit "Неверный логин или пароль")

/-- The failures of the address, if there is one, count beside those of the login. -/
def attempts (login : Text) (ip : Option Text) (since : Time) : Task Nat := do
  let attempts : Nat ← ask (.countLoginFailures (loginKey login) since)
  if optional ip then
    let ofAddress : Nat ← ask (.countLoginFailures (ipKey (ip.getD [])) since)
    return max attempts ofAddress
  else return attempts

def enforceRateLimit (login : Text) (ip : Option Text) (now : Time) : Task Unit := do
  let attempts ← attempts login ip (now - minutes b.settings.loginRateLimitWindowMinutes)
  if attempts ≥ b.settings.loginRateLimitAttempts then raise rateLimited else ret ()

def recordFailures (now : Time) : List Text → Task Unit
  | [] => ret ()
  | key :: keys => do
    ask (.recordLoginFailure key now)
    recordFailures now keys

/-- The rest of `login` for wrong credentials: one message, whatever was wrong. -/
def loginFailed (login : Text) (client : ClientMeta) (now : Time) : Task (User × Text) := do
  recordFailures now (failureKeys login client.ip)
  auditLog
    { action := lit "login_failed", metadata := [(lit "login", .str login)]
      ipAddress := client.ip, userAgent := client.userAgent }
  raise wrongCredentials

/-- The rest of `login` for right credentials. -/
def loggedIn (login : Text) (user : User) (client : ClientMeta) (now : Time) :
    Task (User × Text) := do
  -- the failures that are counted for the address stay
  ask (.clearLoginFailures (loginKey login))
  let token : Text ← ask .generateSessionToken
  let id : Text ← ask .uuid
  let tokenHash ← lift (hashSessionToken b.wire token)
  ask (.saveSession
    { id, userId := user.id, tokenHash, createdAt := now
      expiresAt := now + days b.settings.sessionTtlDays, lastSeenAt := now
      userAgent := client.userAgent, ipAddress := client.ip })
  auditLog
    { action := lit "login_success", actorUserId := some user.id, ipAddress := client.ip
      userAgent := client.userAgent }
  return (user, token)

/-- The user may log in with this password. -/
def accepts (password : Text) (user : User) : Bool :=
  verifyPassword b.wire password user.passwordHash && user.isActive

def login (login password : Text) (client : ClientMeta) : Task (User × Text) := do
  let login := b.normalizeLogin login
  let now : Time ← ask .now
  b.enforceRateLimit login client.ip now
  let user : Option User ← b.getUserByLogin login
  match user.filter (b.accepts password) with
  | none => loginFailed login client now
  | some user => b.loggedIn login user client now


def resolveSession (rawToken : Text) : Task (Option User) := do
  let tokenHash ← lift (hashSessionToken b.wire rawToken)
  let session : Option Session ← ask (.getSessionByTokenHash tokenHash)
  let now : Time ← ask .now
  match session with
  | none => ret none
  | some session =>
    if session.revokedAt.isSome || session.expiresAt ≤ now then ret none
    else
      let user : Option User ← ask (.getUser session.userId)
      -- a disabled user has no session, whether or not it was revoked
      match user.filter (·.isActive) with
      | none => ret none
      | some user =>
        ask (.saveSession { session with lastSeenAt := now })
        return some user

def logout (rawToken : Text) (client : ClientMeta) : Task Unit := do
  let tokenHash ← lift (hashSessionToken b.wire rawToken)
  let session : Option Session ← ask (.getSessionByTokenHash tokenHash)
  match session with
  | none => ret ()
  | some session =>
    if session.revokedAt.isSome then ret ()
    else
      let now : Time ← ask .now
      ask (.saveSession { session with revokedAt := some now })
      auditLog
        { action := lit "logout", actorUserId := some session.userId, ipAddress := client.ip
          userAgent := client.userAgent }

/-- The user of the token in a request's cookie, if there is one. -/
def getCurrentUser (token : Option Text) : Task User :=
  if !optional token then raise (unauthorized (lit "Нужно войти"))
  else do
    let user ← b.resolveSession (token.getD [])
    match user with
    | none => raise (unauthorized (lit "Сессия истекла — войди заново"))
    | some user => ret user

def getCurrentAdmin (token : Option Text) : Task User := do
  let user ← b.getCurrentUser token
  if user.role ≠ .admin then raise forbidden else return user

end Services

/-- A call of the auth service or of the user service, or the check of an admin's request. -/
inductive UserCall where
  | login (login password : Text) (client : ClientMeta)
  | resolveSession (rawToken : Text)
  | logout (rawToken : Text) (client : ClientMeta)
  | currentAdmin (token : Option Text)
  | create (actor : User) (new : NewUser)
  | update (actor : User) (userId : Text) (patch : List UserPatch)
  | resetPassword (actor : User) (userId newPassword : Text)
  | setActive (actor : User) (userId : Text) (isActive : Bool)

/-- What a call returns. -/
abbrev UserCall.Ret : UserCall → Type
  | login .. => User × Text
  | resolveSession _ => Option User
  | logout .. => Unit
  | currentAdmin _ => User
  | create .. => User
  | update .. => User
  | resetPassword .. => Unit
  | setActive .. => User

def Services.userCall (b : Services) : (call : UserCall) → Task call.Ret
  | .login login password client => b.login login password client
  | .resolveSession rawToken => b.resolveSession rawToken
  | .logout rawToken client => b.logout rawToken client
  | .currentAdmin token => b.getCurrentAdmin token
  | .create actor new => b.createUser actor new
  | .update actor userId patch => Services.updateUser actor userId patch
  | .resetPassword actor userId newPassword => Services.resetPassword actor userId newPassword
  | .setActive actor userId isActive => Services.setActive actor userId isActive

end VpnControl.Backend
