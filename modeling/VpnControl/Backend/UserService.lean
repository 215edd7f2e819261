import VpnControl.Backend.DeviceService

namespace VpnControl.Backend
open Strings Json Effects Prog

/-- A patchable field of a user with its new value. -/
inductive UserPatch where
  | displayName (value : Text)
  | telegramUsername (value : Option Text)
  | role (value : UserRole)
  | deviceLimit (value : Option Int)
  | deviceLimitUnlimited (value : Bool)
  | showServerSupport (value : Bool)
  | freeAccess (value : Bool)
  | note (value : Option Text)
  deriving DecidableEq

/-- The name of the field, and the user with the new value. -/
def User.assign (user : User) : UserPatch → Text × User
  | .displayName value => (lit "display_name", { user with displayName := value })
  | .telegramUsername value => (lit "telegram_username", { user with telegramUsername := value })
  | .role value => (lit "role", { user with role := value })
  | .deviceLimit value => (lit "device_limit", { user with deviceLimit := value })
  | .deviceLimitUnlimited value =>
    (lit "device_limit_unlimited", { user with deviceLimitUnlimited := value })
  | .showServerSupport value => (lit "show_server_support", { user with showServerSupport := value })
  | .freeAccess value => (lit "free_access", { user with freeAccess := value })
  | .note value => (lit "note", { user with note := value })

/-- The loop over the items of a patch: an item counts as a change if the value is another one. -/
def patchUser (user : User) (changed : List Text) : List UserPatch → User × List Text
  | [] => (user, changed)
  | field :: patch =>
    if (user.assign field).2 = user then patchUser user changed patch
    else patchUser (user.assign field).2 (changed ++ [(user.assign field).1]) patch

@[simp] theorem assign_id (user : User) (field : UserPatch) : (user.assign field).2.id = user.id := by
  cases field <;> rfl

@[simp] theorem assign_isActive (user : User) (field : UserPatch) :
    (user.assign field).2.isActive = user.isActive := by
  cases field <;> rfl

theorem patchUser_id (user : User) (changed : List Text) (patch : List UserPatch) :
    (patchUser user changed patch).1.id = user.id := by
  induction patch generalizing user changed with
  | nil => rfl
  | cons field patch ih =>
    rw [patchUser]
    split
    · exact ih user changed
    · rw [ih, assign_id]

theorem patchUser_isActive (user : User) (changed : List Text) (patch : List UserPatch) :
    (patchUser user changed patch).1.isActive = user.isActive := by
  induction patch generalizing user changed with
  | nil => rfl
  | cons field patch ih =>
    rw [patchUser]
    split
    · exact ih user changed
    · rw [ih, assign_isActive]

/-- The arguments of `create`. -/
structure NewUser where
  login : Text
  displayName : Text
  password : Text
  role : UserRole := .user
  telegramUsername : Option Text := none
  deviceLimit : Option Int := some 3
  deviceLimitUnlimited : Bool := false
  showServerSupport : Bool := true
  freeAccess : Bool := false
  note : Option Text := none

namespace Services

/-- `login.strip().lower()`. -/
def normalizeLogin (b : Services) (login : Text) : Text := b.wire.lower (strip login)

/-- Both storages normalize the login that they look for. -/
def getUserByLogin (b : Services) (login : Text) : Task (Option User) :=
  ask (.getUserByLogin (b.normalizeLogin login))

def getUser (userId : Text) : Task User := do
  let user : Option User ← ask (.getUser userId)
  match user with
  | none => raise (notFound (lit "Участник не найден"))
  | some user => ret user

def createUser (b : Services) (actor : User) (new : NewUser) : Task User := do
  let normalized := b.normalizeLogin new.login
  let taken : Option User ← b.getUserByLogin normalized
  if taken.isSome then
    raise { code := .validationError, message := lit "Логин уже занят", status := 409 }
  else
    let now : Time ← ask .now
    let id : Text ← ask .uuid
    let passwordHash : Text ← ask (.hashPassword new.password)
    let user : User :=
      { id, login := normalized, displayName := strip new.displayName, role := new.role
        passwordHash, createdAt := now, updatedAt := now
        telegramUsername := new.telegramUsername, deviceLimit := new.deviceLimit
        deviceLimitUnlimited := new.deviceLimitUnlimited
        showServerSupport := new.showServerSupport, freeAccess := new.freeAccess
        note := new.note, createdByUserId := some actor.id }
    ask (.saveUser user)
    auditLog
      { action := lit "user_created", actorUserId := some actor.id, targetType := some (lit "user")
        targetId := some user.id
        metadata := [(lit "login", .str user.login), (lit "role", .str user.role.value)] }
    return user

def updateUser (actor : User) (userId : Text) (patch : List UserPatch) : Task User := do
  let user ← getUser userId
  let (user, changed) := patchUser user [] patch
  if changed = [] then return user
  else
    let now : Time ← ask .now
    let user := { user with updatedAt := now }
    ask (.saveUser user)
    auditLog
      { action := lit "user_updated", actorUserId := some actor.id, targetType := some (lit "user")
        targetId := some user.id, metadata := [(lit "changed", .arr (changed.map .str))] }
    return user

def resetPassword (actor : User) (userId newPassword : Text) : Task Unit := do
  let user ← getUser userId
  let passwordHash : Text ← ask (.hashPassword newPassword)
  let now : Time ← ask .now
  ask (.saveUser { user with passwordHash, updatedAt := now })
  let now : Time ← ask .now
  ask (.revokeSessionsForUser user.id now)
  auditLog
    { action := lit "user_password_reset", actorUserId := some actor.id
      targetType := some (lit "user"), targetId := some user.id }

/-- A user that is disabled loses its sessions. -/
def dropSessions (userId : Text) (isActive : Bool) : Task Unit :=
  if isActive then ret ()
  else do
    let now : Time ← ask .now
    ask (.revokeSessionsForUser userId now)

def setActive (actor : User) (userId : Text) (isActive : Bool) : Task User := do
  let user ← getUser userId
  if user.id = actor.id ∧ !isActive then
    raise { code := .validationError, message := lit "Нельзя отключить самого себя" }
  else if user.isActive = isActive then return user
  else
    let now : Time ← ask .now
    let user := { user with isActive, updatedAt := now }
    ask (.saveUser user)
    dropSessions user.id isActive
    auditLog
      { action := if isActive then lit "user_enabled" else lit "user_disabled"
        actorUserId := some actor.id, targetType := some (lit "user"), targetId := some user.id }
    return user

end Services

/-- A call of the device service, or of an admin to the user service. -/
inductive AccountCall where
  | device (call : DeviceCall)
  | update (actor : User) (userId : Text) (patch : List UserPatch)
  | setActive (actor : User) (userId : Text) (isActive : Bool)

def Services.accountCall (b : Services) : AccountCall → Task Unit
  | .device call => do
    let _ ← b.deviceCall call
    return ()
  | .update actor userId patch => do
    let _ ← updateUser actor userId patch
    return ()
  | .setActive actor userId isActive => do
    let _ ← setActive actor userId isActive
    return ()

end VpnControl.Backend
