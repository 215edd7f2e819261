import VpnControl.Backend.UserService
import VpnControl.Backend.UserCalls
import Mathlib.Logic.Function.Basic

namespace VpnControl.Backend
open Strings Json Function

/-- A Python value that a field of a record can hold, with `F` for the floats. -/
inductive Value (F : Type) where
  | none
  | str (s : Text)
  | int (n : Int)
  | float (x : F)
  | bool (b : Bool)
  | time (t : Time)
  | role (r : UserRole)
  | status (s : ServerStatus)
  | dict (members : List (Text × Doc))

/-- The names of the attributes, as the code's dictionaries and `setattr` have them. -/
inductive Attr where
  | id
  | login
  | displayName
  | role
  | passwordHash
  | createdAt
  | updatedAt
  | isActive
  | telegramUsername
  | deviceLimit
  | deviceLimitUnlimited
  | showServerSupport
  | freeAccess
  | note
  | createdByUserId
  | name
  | publicHost
  | agentBaseUrl
  | publicPort
  | regionNote
  | provider
  | agentKeyId
  | agentSecretEncrypted
  | agentAllowedIpNote
  | status
  | lastSeenAt
  | lastError
  | lastStatusPayload
  | awgContainerName
  | awgInterface
  | awgConfigPath
  | clientsTablePath
  | isAvailableForNewDevices
  | title
  | description
  | sbpPhone
  | bankName
  | extraContact
  | monthlyCostAmount
  | reserveAmount
  | isEnabled
  | updatedByUserId
  | agentSecret
  deriving DecidableEq

inductive FieldType where
  | str
  | int
  | float
  | bool
  | time
  | role
  | status
  | dict
  deriving DecidableEq

/-- A declared field, `name: type` or, if it is nullable, `name: type | None`. -/
structure Field where
  name : Attr
  type : FieldType
  nullable : Bool := false
  deriving DecidableEq

/-- What a request body demands of a value besides its type. -/
inductive Check where
  | any
  | length (min max : Nat)
  | between (min : Int) (max : Option Int)
  | nonnegative

/-- A field of the body of a PATCH; each may also be null or left out. -/
structure BodyField where
  name : Attr
  type : FieldType
  check : Check := .any

/-- A record whose fields are read and assigned by name, as by `getattr` and `setattr`. -/
abbrev Record (F : Type) : Type := Attr → Value F

section Types
variable {F : Type}

def Value.isNone : Value F → Bool
  | .none => true
  | _ => false

/-- Python's `==` on the values of fields that can be patched. -/
def Value.same [BEq F] : Value F → Value F → Bool
  | .none, .none => true
  | .str s, .str t => s = t
  | .int m, .int n => m = n
  | .float x, .float y => x == y
  | .bool a, .bool b => a = b
  | .role r, .role q => r = q
  | _, _ => false

def FieldType.admits : FieldType → Value F → Bool
  | .str, .str _ | .int, .int _ | .float, .float _ | .bool, .bool _ | .time, .time _
  | .role, .role _ | .status, .status _ | .dict, .dict _ => true
  | _, _ => false

def Check.holds (nonneg : F → Bool) : Check → Value F → Bool
  | .any, _ => true
  | .length min max, .str s => min ≤ s.length && s.length ≤ max
  | .between min max, .int n => min ≤ n && max.all (n ≤ ·)
  | .nonnegative, .float x => nonneg x
  | _, _ => false

def BodyField.accepts (nonneg : F → Bool) (f : BodyField) (value : Value F) : Bool :=
  value.isNone || f.type.admits value && f.check.holds nonneg value

end Types

/-- What can be patched: a user, a node or the settings of the support page. -/
inductive Target where
  | user
  | server
  | support
  deriving DecidableEq

namespace Target

/-- The fields of the domain type; the columns of its table are nullable where these are. -/
def fields : Target → List Field
  | user =>
    [⟨.id, .str, false⟩, ⟨.login, .str, false⟩, ⟨.displayName, .str, false⟩,
      ⟨.role, .role, false⟩, ⟨.passwordHash, .str, false⟩,
      ⟨.createdAt, .time, false⟩, ⟨.updatedAt, .time, false⟩,
      ⟨.isActive, .bool, false⟩, ⟨.telegramUsername, .str, true⟩,
      ⟨.deviceLimit, .int, true⟩, ⟨.deviceLimitUnlimited, .bool, false⟩,
      ⟨.showServerSupport, .bool, false⟩, ⟨.freeAccess, .bool, false⟩,
      ⟨.note, .str, true⟩, ⟨.createdByUserId, .str, true⟩]
  | server =>
    [⟨.id, .str, false⟩, ⟨.name, .str, false⟩, ⟨.publicHost, .str, false⟩,
      ⟨.agentBaseUrl, .str, false⟩, ⟨.createdAt, .time, false⟩,
      ⟨.updatedAt, .time, false⟩, ⟨.publicPort, .int, true⟩,
      ⟨.regionNote, .str, true⟩, ⟨.provider, .str, true⟩,
      ⟨.agentKeyId, .str, true⟩, ⟨.agentSecretEncrypted, .str, true⟩,
      ⟨.agentAllowedIpNote, .str, true⟩, ⟨.status, .status, false⟩,
      ⟨.lastSeenAt, .time, true⟩, ⟨.lastError, .str, true⟩,
      ⟨.lastStatusPayload, .dict, true⟩, ⟨.awgContainerName, .str, false⟩,
      ⟨.awgInterface, .str, false⟩, ⟨.awgConfigPath, .str, false⟩,
      ⟨.clientsTablePath, .str, false⟩, ⟨.isAvailableForNewDevices, .bool, false⟩,
      ⟨.createdByUserId, .str, true⟩]
  | support =>
    [⟨.title, .str, false⟩, ⟨.description, .str, false⟩, ⟨.sbpPhone, .str, true⟩,
      ⟨.bankName, .str, true⟩, ⟨.extraContact, .str, true⟩,
      ⟨.monthlyCostAmount, .float, true⟩, ⟨.reserveAmount, .float, true⟩,
      ⟨.isEnabled, .bool, false⟩, ⟨.updatedByUserId, .str, true⟩,
      ⟨.updatedAt, .time, true⟩]

/-- The fields of the record that `AdminUserOut`, `AdminServerOut` or `SupportSettingsOut` shows. -/
def out : Target → List Field
  | user =>
    [⟨.id, .str, false⟩, ⟨.login, .str, false⟩, ⟨.displayName, .str, false⟩,
      ⟨.role, .role, false⟩, ⟨.telegramUsername, .str, true⟩,
      ⟨.isActive, .bool, false⟩, ⟨.deviceLimit, .int, true⟩,
      ⟨.deviceLimitUnlimited, .bool, false⟩, ⟨.showServerSupport, .bool, false⟩,
      ⟨.freeAccess, .bool, false⟩, ⟨.note, .str, true⟩,
      ⟨.createdAt, .time, false⟩]
  | server =>
    [⟨.id, .str, false⟩, ⟨.name, .str, false⟩, ⟨.publicHost, .str, false⟩,
      ⟨.publicPort, .int, true⟩, ⟨.regionNote, .str, true⟩,
      ⟨.provider, .str, true⟩, ⟨.agentBaseUrl, .str, false⟩,
      ⟨.agentKeyId, .str, true⟩, ⟨.agentAllowedIpNote, .str, true⟩,
      ⟨.status, .status, false⟩, ⟨.lastSeenAt, .time, true⟩,
      ⟨.lastError, .str, true⟩, ⟨.lastStatusPayload, .dict, true⟩,
      ⟨.awgContainerName, .str, false⟩, ⟨.awgInterface, .str, false⟩,
      ⟨.awgConfigPath, .str, false⟩, ⟨.clientsTablePath, .str, false⟩,
      ⟨.isAvailableForNewDevices, .bool, false⟩, ⟨.createdAt, .time, false⟩]
  | support =>
    [⟨.title, .str, false⟩, ⟨.description, .str, false⟩, ⟨.sbpPhone, .str, true⟩,
      ⟨.bankName, .str, true⟩, ⟨.extraContact, .str, true⟩,
      ⟨.monthlyCostAmount, .float, true⟩, ⟨.reserveAmount, .float, true⟩,
      ⟨.isEnabled, .bool, false⟩, ⟨.updatedAt, .time, true⟩]

/-- `AdminUserUpdateIn`, `AdminServerUpdateIn` and `SupportSettingsUpdateIn`. -/
def body : Target → List BodyField
  | user =>
    [⟨.displayName, .str, .length 1 100⟩, ⟨.role, .role, .any⟩,
      ⟨.telegramUsername, .str, .length 0 64⟩, ⟨.deviceLimit, .int, .between 0 none⟩,
      ⟨.deviceLimitUnlimited, .bool, .any⟩, ⟨.showServerSupport, .bool, .any⟩,
      ⟨.freeAccess, .bool, .any⟩, ⟨.note, .str, .length 0 500⟩]
  | server =>
    [⟨.name, .str, .length 1 100⟩, ⟨.publicHost, .str, .length 1 255⟩,
      ⟨.agentBaseUrl, .str, .length 1 255⟩,
      ⟨.publicPort, .int, .between 1 (some 65535)⟩, ⟨.regionNote, .str, .length 0 200⟩,
      ⟨.provider, .str, .length 0 100⟩, ⟨.agentKeyId, .str, .length 0 100⟩,
      ⟨.agentSecret, .str, .length 0 500⟩,
      ⟨.agentAllowedIpNote, .str, .length 0 200⟩,
      ⟨.isAvailableForNewDevices, .bool, .any⟩,
      ⟨.awgContainerName, .str, .length 0 100⟩, ⟨.awgInterface, .str, .length 0 50⟩,
      ⟨.awgConfigPath, .str, .length 0 255⟩, ⟨.clientsTablePath, .str, .length 0 255⟩]
  | support =>
    [⟨.title, .str, .length 1 100⟩, ⟨.description, .str, .length 0 1000⟩,
      ⟨.sbpPhone, .str, .any⟩, ⟨.bankName, .str, .any⟩,
      ⟨.extraContact, .str, .any⟩, ⟨.monthlyCostAmount, .float, .nonnegative⟩,
      ⟨.reserveAmount, .float, .nonnegative⟩, ⟨.isEnabled, .bool, .any⟩]

/-- `_PATCHABLE_FIELDS` and `_SETTINGS_PATCHABLE`. -/
def patchable : Target → List Attr
  | user =>
    [.displayName, .telegramUsername, .role, .deviceLimit,
      .deviceLimitUnlimited, .showServerSupport, .freeAccess, .note]
  | server =>
    [.name, .publicHost, .publicPort, .regionNote, .provider,
      .agentBaseUrl, .agentKeyId, .agentAllowedIpNote,
      .isAvailableForNewDevices, .awgContainerName, .awgInterface,
      .awgConfigPath, .clientsTablePath]
  | support =>
    [.title, .description, .sbpPhone, .bankName, .extraContact,
      .monthlyCostAmount, .reserveAmount, .isEnabled]

/-- The fields that both the domain type and the schema of the answer require. -/
def required (t : Target) : List Field :=
  t.fields.filter fun f => !f.nullable && t.out.any fun o => o.name = f.name && !o.nullable

section Update
variable {F : Type} [BEq F] (t : Target) (encrypt : Text → Text)

/-- `encrypt(value) if value else None`. -/
def encryptSecret : Value F → Value F
  | .str s => if s = [] then .none else .str (encrypt s)
  | _ => .none

/-- What one item of a patch makes of a record, if it changes it: the agent's secret is encrypted
anew, a field that cannot be patched is passed over, and so is a value that is there already. -/
def assign (r : Record F) (attr : Attr) (value : Value F) : Option (Record F) :=
  if t = .server ∧ attr = .agentSecret then
    some (update r .agentSecretEncrypted (encryptSecret encrypt value))
  else if attr ∉ t.patchable then none
  else if (r attr).same value then none
  else some (update r attr value)

/-- The loop of `update` and `update_settings` over the items of a patch. -/
def patch (r : Record F) (changed : List Attr) : List (Attr × Value F) → Record F × List Attr
  | [] => (r, changed)
  | (attr, value) :: items =>
    match t.assign encrypt r attr value with
    | none => patch r changed items
    | some r => patch r (changed ++ [attr]) items

/-- The fields that every change sets. -/
def stamp (actorId : Text) (now : Time) (r : Record F) : Record F :=
  match t with
  | user | server => update r .updatedAt (.time now)
  | support =>
    update (update r .updatedByUserId (.str actorId)) .updatedAt (.time now)

/-- The fields that are saved by their `value`. -/
def enums : Target → List Attr
  | user => [.role]
  | server => [.status]
  | support => []

/-- Saving a row: a column that is not nullable takes no null. -/
def saveRow (r : Record F) : Except Exc Unit :=
  if t.enums.any fun attr => (r attr).isNone then .error (.other (lit "AttributeError"))
  else if t.fields.any fun f => !f.nullable && (r f.name).isNone then
    .error (.other (lit "IntegrityError"))
  else .ok ()

/-- What an update returns and what is stored after it: in memory the stored object is the one
that was assigned to, the database may refuse the row. -/
def store (kind : StorageKind) (old new : Record F) : Except Exc (Record F) × Record F :=
  match kind with
  | .memory => (.ok new, new)
  | .database =>
    match t.saveRow new with
    | .ok () => (.ok new, new)
    | .error x => (.error x, old)

/-- `UserService.update`, `ServerService.update` or `SupportService.update_settings`. -/
def update (kind : StorageKind) (actorId : Text) (now : Time) (r : Record F)
    (items : List (Attr × Value F)) : Except Exc (Record F) × Record F :=
  let (patched, changed) := t.patch encrypt r [] items
  if changed = [] then (.ok patched, r) else t.store kind r (t.stamp actorId now patched)

end Update

/-- The body of a request that the schema accepts, without the fields that are left out. -/
def Accepts {F : Type} (nonneg : F → Bool) (t : Target) (items : List (Attr × Value F)) : Prop :=
  (items.map (·.1)).Nodup ∧
    ∀ item ∈ items, ∃ f ∈ t.body, f.name = item.1 ∧ f.accepts nonneg item.2 = true

/-- Every field of the record has a value of its declared type. -/
def Typed {F : Type} (t : Target) (r : Record F) : Prop :=
  ∀ f ∈ t.fields, f.nullable = true ∧ r f.name = .none ∨ f.type.admits (r f.name) = true

/-- What is required is there, with a value of the declared type. -/
def Complete {F : Type} (t : Target) (r : Record F) : Prop :=
  ∀ f ∈ t.required, f.type.admits (r f.name) = true

section Tables

theorem mem_required {t : Target} {f : Field} : f ∈ t.required ↔
    f ∈ t.fields ∧ f.nullable = false ∧ ∃ o ∈ t.out, o.name = f.name ∧ o.nullable = false := by
  simp [required, List.mem_filter]

/-- A body names fields that can be patched, and the agent's secret. -/
theorem patchable_of_body {t : Target} {f : BodyField} (h : f ∈ t.body) :
    f.name ∈ t.patchable ∨ t = .server ∧ f.name = .agentSecret := by
  have htable : ∀ t : Target, t ∈ [user, server, support] → ∀ f ∈ t.body.map (·.name),
      f ∈ t.patchable ∨ t = .server ∧ f = .agentSecret := by decide +kernel
  exact htable t (by cases t <;> simp) _ (List.mem_map_of_mem h)

/-- A body declares the types that the domain has. -/
theorem type_of_body {t : Target} {f : BodyField} (h : f ∈ t.body) {g : Field} (hg : g ∈ t.fields)
    (hname : f.name = g.name) : f.type = g.type := by
  have htable : ∀ t : Target, t ∈ [user, server, support] →
      ∀ f ∈ t.body.map fun f => (f.name, f.type), ∀ g ∈ t.fields, f.1 = g.name → f.2 = g.type := by
    decide +kernel
  exact htable t (by cases t <;> simp) _ (List.mem_map_of_mem h) g hg hname

theorem secret_notMem_patchable {t : Target} : .agentSecret ∉ t.patchable ∧
    .agentSecretEncrypted ∉ t.patchable := by
  cases t <;> decide

/-- The field of the secret is nullable text, as is what `stamp` sets beside the time. -/
theorem field_of_secret {t : Target} {f : Field} (hf : f ∈ t.fields)
    (hname : f.name = .agentSecretEncrypted ∨ f.name = .updatedByUserId) :
    f.type = .str ∧ f.nullable = true := by
  have htable : ∀ t : Target, t ∈ [user, server, support] → ∀ f ∈ t.fields,
      f.name = .agentSecretEncrypted ∨ f.name = .updatedByUserId →
        f.type = .str ∧ f.nullable = true := by decide
  exact htable t (by cases t <;> simp) f hf hname

theorem field_of_time {t : Target} {f : Field} (hf : f ∈ t.fields)
    (hname : f.name = .updatedAt) : f.type = .time := by
  have htable : ∀ t : Target, t ∈ [user, server, support] → ∀ f ∈ t.fields,
      f.name = .updatedAt → f.type = .time := by decide
  exact htable t (by cases t <;> simp) f hf hname

theorem name_of_required {t : Target} {f : Field} (hf : f ∈ t.required) :
    f.name ≠ .agentSecret ∧ f.name ≠ .agentSecretEncrypted ∧
      f.name ≠ .updatedByUserId ∧ f.name ≠ .updatedAt := by
  have htable : ∀ t : Target, t ∈ [user, server, support] → ∀ f ∈ t.required,
      f.name ≠ .agentSecret ∧ f.name ≠ .agentSecretEncrypted ∧
        f.name ≠ .updatedByUserId ∧ f.name ≠ .updatedAt := by decide
  exact htable t (by cases t <;> simp) f hf

end Tables

theorem encryptSecret_str {F : Type} (encrypt : Text → Text) (value : Value F) :
    (encryptSecret encrypt value).isNone = true ∨
      FieldType.str.admits (encryptSecret encrypt value) = true := by
  cases value with
  | str s =>
    rw [encryptSecret]
    split
    · exact .inl rfl
    · exact .inr rfl
  | _ => exact .inl rfl

section Stamp
variable {F : Type} {t : Target} {r : Record F} {attr : Attr}

/-- Every field has a value of its declared type, or null. -/
def Sorted (t : Target) (r : Record F) : Prop :=
  ∀ f ∈ t.fields, (r f.name).isNone = true ∨ f.type.admits (r f.name) = true

theorem Sorted.stamp (h : t.Sorted r) (actorId : Text) (now : Time) :
    t.Sorted (t.stamp actorId now r) := by
  have hset : ∀ {r : Record F} {attr : Attr} {value : Value F}, t.Sorted r →
      (∀ f ∈ t.fields, f.name = attr → f.type.admits value = true) →
        t.Sorted (Function.update r attr value) := by
    intro r attr value h hvalue f hf
    by_cases hname : f.name = attr
    · rw [hname, update_self]
      exact .inr (hvalue f hf hname)
    · rw [update_of_ne hname]
      exact h f hf
  have htime : ∀ f ∈ t.fields, f.name = .updatedAt → f.type.admits (.time now : Value F) = true :=
    fun f hf hname => by rw [field_of_time hf hname]; rfl
  cases t with
  | user | server => exact hset h htime
  | support =>
    refine hset (hset h fun f hf hname => ?_) htime
    rw [(field_of_secret hf (.inr hname)).1]
    rfl

theorem stamp_other (hby : attr ≠ .updatedByUserId) (hat : attr ≠ .updatedAt) (actorId : Text)
    (now : Time) : t.stamp actorId now r attr = r attr := by
  cases t with
  | user | server => exact update_of_ne hat _ _
  | support => exact (update_of_ne hat _ _).trans (update_of_ne hby _ _)

end Stamp

section Assign
variable {F : Type} [BEq F] {nonneg : F → Bool} {t : Target} {encrypt : Text → Text}
  {r r' : Record F} {attr attr' : Attr} {value : Value F}

theorem assign_secret (encrypt : Text → Text) (r : Record F) (value : Value F) :
    server.assign encrypt r .agentSecret value =
      some (Function.update r .agentSecretEncrypted (encryptSecret encrypt value)) :=
  if_pos ⟨rfl, rfl⟩

theorem assign_patchable (encrypt : Text → Text) (r : Record F) (value : Value F)
    (hattr : attr ∈ t.patchable) : t.assign encrypt r attr value =
      if (r attr).same value then none else some (Function.update r attr value) := by
  have hsecret : ¬ (t = .server ∧ attr = .agentSecret) := by
    rintro ⟨-, rfl⟩
    exact secret_notMem_patchable.1 hattr
  rw [assign, if_neg hsecret, if_neg (not_not.mpr hattr)]

/-- An item leaves a field whose value it has, and the others, the stored secret apart. -/
theorem assign_keeps (encrypt : Text → Text) (r : Record F) (hvalue : attr' = attr → value = r attr')
    (hsecret : attr' ≠ .agentSecretEncrypted) :
    ((t.assign encrypt r attr value).getD r) attr' = r attr' := by
  rw [assign]
  split
  · exact update_of_ne hsecret _ _
  · split
    · rfl
    · split
      · rfl
      · by_cases hattr : attr' = attr
        · subst hattr
          rw [Option.getD_some, update_self, hvalue rfl]
        · exact update_of_ne hattr _ _

theorem assign_other (encrypt : Text → Text) (r : Record F) (value : Value F) (hattr : attr' ≠ attr)
    (hsecret : attr' ≠ .agentSecretEncrypted) :
    ((t.assign encrypt r attr value).getD r) attr' = r attr' :=
  assign_keeps encrypt r (fun h => absurd h hattr) hsecret

/-- After an item of a field that can be patched, the field is null if the item says so. -/
theorem assign_isNone (hattr : attr ∈ t.patchable) :
    (((t.assign encrypt r attr value).getD r) attr).isNone = value.isNone := by
  rw [assign_patchable encrypt r value hattr]
  split
  · rename_i hsame
    rw [Option.getD_none]
    revert hsame
    cases r attr <;> cases value <;> simp [Value.same, Value.isNone]
  · rw [Option.getD_some, update_self]

theorem Sorted.assign (h : t.Sorted r)
    (hitem : ∃ f ∈ t.body, f.name = attr ∧ f.accepts nonneg value = true) :
    t.Sorted ((t.assign encrypt r attr value).getD r) := by
  obtain ⟨g, hg, rfl, haccepts⟩ := hitem
  intro f hf
  rw [Target.assign]
  split
  · by_cases hname : f.name = .agentSecretEncrypted
    · rw [Option.getD_some, hname, update_self, (field_of_secret hf (.inl hname)).1]
      exact encryptSecret_str encrypt value
    · rw [Option.getD_some, update_of_ne hname]
      exact h f hf
  · split
    · exact h f hf
    · split
      · exact h f hf
      · by_cases hname : f.name = g.name
        · rw [Option.getD_some, hname, update_self, ← type_of_body hg hf hname.symm]
          rw [BodyField.accepts, Bool.or_eq_true, Bool.and_eq_true] at haccepts
          exact haccepts.imp_right (·.1)
        · rw [Option.getD_some, update_of_ne hname]
          exact h f hf

end Assign

section Patch
variable {F : Type} [BEq F] {nonneg : F → Bool} {t : Target} {encrypt : Text → Text}
  {r : Record F} {attr : Attr} {items : List (Attr × Value F)} {changed : List Attr}

/-- The loop goes on with the record as the first item leaves it. -/
theorem patch_cons (encrypt : Text → Text) (r : Record F) (item : Attr × Value F) : ∃ changed',
    t.patch encrypt r changed (item :: items) =
      t.patch encrypt ((t.assign encrypt r item.1 item.2).getD r) changed' items := by
  rw [patch]
  split
  · rename_i hassign
    rw [hassign]
    exact ⟨_, rfl⟩
  · rename_i hassign
    rw [hassign]
    exact ⟨_, rfl⟩

theorem Sorted.patch (h : t.Sorted r)
    (hitems : ∀ item ∈ items, ∃ f ∈ t.body, f.name = item.1 ∧ f.accepts nonneg item.2 = true) :
    t.Sorted (t.patch encrypt r changed items).1 := by
  induction items generalizing r changed with
  | nil => exact h
  | cons item items ih =>
    obtain ⟨changed', hpatch⟩ := patch_cons (t := t) encrypt r item
    rw [hpatch]
    exact ih (h.assign (hitems item (by simp))) fun item hitem => hitems item (by simp [hitem])

/-- The loop leaves a field whose value all items for it have. -/
theorem patch_keeps (hvalue : ∀ item ∈ items, item.1 = attr → item.2 = r attr)
    (hsecret : attr ≠ .agentSecretEncrypted) : (t.patch encrypt r changed items).1 attr = r attr := by
  induction items generalizing r changed with
  | nil => rfl
  | cons item items ih =>
    obtain ⟨changed', hpatch⟩ := patch_cons (t := t) encrypt r item
    have hkept : ((t.assign encrypt r item.1 item.2).getD r) attr = r attr :=
      assign_keeps encrypt r (fun h => hvalue item (by simp) h.symm) hsecret
    rw [hpatch, ih, hkept]
    intro item' hitem' hattr
    rw [hkept]
    exact hvalue item' (by simp [hitem']) hattr

theorem patch_other (hattr : attr ∉ items.map (·.1)) (hsecret : attr ≠ .agentSecretEncrypted) :
    (t.patch encrypt r changed items).1 attr = r attr :=
  patch_keeps (fun _ hitem h => absurd (List.mem_map.mpr ⟨_, hitem, h⟩) hattr) hsecret

/-- After the loop a field that can be patched is null if the patch says so, or if it was null
and the patch leaves it out. -/
theorem patch_isNone (hattr : attr ∈ t.patchable) (hnodup : (items.map (·.1)).Nodup)
    (hr : (r attr).isNone = false) :
    ((t.patch encrypt r changed items).1 attr).isNone = true ↔ (attr, .none) ∈ items := by
  have hsecret : attr ≠ .agentSecretEncrypted := by
    rintro rfl
    exact secret_notMem_patchable.2 hattr
  induction items generalizing r changed with
  | nil => simp [patch, hr]
  | cons item items ih =>
    obtain ⟨attr', value⟩ := item
    rw [List.map_cons, List.nodup_cons] at hnodup
    obtain ⟨changed', hpatch⟩ := patch_cons (t := t) encrypt r (attr', value)
    rw [hpatch]
    by_cases hsame : attr' = attr
    · subst hsame
      rw [patch_other hnodup.1 hsecret, assign_isNone hattr, List.mem_cons, Prod.mk.injEq]
      have hrest : (attr', Value.none) ∉ items :=
        fun h => hnodup.1 (List.mem_map.mpr ⟨_, h, rfl⟩)
      cases value <;> simp [Value.isNone, hrest]
    · have hkept := assign_other (t := t) encrypt r value
        (Ne.symm hsame) hsecret
      rw [← hkept] at hr
      exact (ih hnodup.2 hr).trans (by simp [Ne.symm hsame])

/-- What holds of the stored secret and of what every item makes of it holds after the loop. -/
theorem patch_secret {C : Value F → Prop} (hr : C (r .agentSecretEncrypted))
    (hitems : ∀ value, (.agentSecret, value) ∈ items → C (encryptSecret encrypt value)) :
    C ((t.patch encrypt r changed items).1 .agentSecretEncrypted) := by
  induction items generalizing r changed with
  | nil => exact hr
  | cons item items ih =>
    obtain ⟨attr, value⟩ := item
    obtain ⟨changed', hpatch⟩ := patch_cons (t := t) encrypt r (attr, value)
    rw [hpatch]
    refine ih ?_ fun value' hvalue' => hitems value' (by simp [hvalue'])
    rw [assign]
    split
    · rename_i hsecret
      rw [Option.getD_some, update_self]
      exact hitems value (hsecret.2 ▸ List.mem_cons_self)
    · split
      · exact hr
      · rename_i hattr
        split
        · exact hr
        · have hne : .agentSecretEncrypted ≠ attr := by
            rintro rfl
            exact secret_notMem_patchable.2 (not_not.mp hattr)
          rw [Option.getD_some, update_of_ne hne]
          exact hr

/-- Another function that encrypts the secrets of the items alike. -/
theorem patch_congr {encrypt' : Text → Text} (h : ∀ text, (.agentSecret, .str text) ∈ items →
    text ≠ [] → encrypt' text = encrypt text) :
    t.patch encrypt' r changed items = t.patch encrypt r changed items := by
  induction items generalizing r changed with
  | nil => rfl
  | cons item items ih =>
    obtain ⟨attr, value⟩ := item
    have hassign : t.assign encrypt' r attr value = t.assign encrypt r attr value := by
      rw [assign, assign]
      split
      · rename_i hsecret
        congr 2
        cases value with
        | str text =>
          rw [encryptSecret, encryptSecret]
          split
          · rfl
          · rename_i htext
            rw [h text (by simp [hsecret.2]) htext]
        | _ => rfl
      · rfl
    have hrest := fun text hitem => h text (List.mem_cons_of_mem _ hitem)
    rw [patch, patch, hassign]
    split
    · exact ih hrest
    · exact ih hrest

/-- A secret that an item replaces has no effect. -/
theorem patch_overwritten (value : Value F) (hitem : .agentSecret ∈ items.map (·.1)) :
    (server.patch encrypt (Function.update r .agentSecretEncrypted value) changed items).1 =
      (server.patch encrypt r changed items).1 := by
  induction items generalizing r changed with
  | nil => simp at hitem
  | cons item items ih =>
    obtain ⟨attr, value'⟩ := item
    rw [patch, patch]
    by_cases hsecret : attr = .agentSecret
    · rw [hsecret, assign_secret, assign_secret, update_idem]
    · have hrest : .agentSecret ∈ items.map (·.1) := by
        simpa [Ne.symm hsecret] using hitem
      by_cases hattr : attr ∈ server.patchable
      · have hne : attr ≠ .agentSecretEncrypted := by
          rintro rfl
          exact secret_notMem_patchable.2 hattr
        rw [assign_patchable _ _ _ hattr, assign_patchable _ _ _ hattr, update_of_ne hne]
        by_cases hsame : (r attr).same value' = true
        · rw [if_pos hsame, if_pos hsame]
          exact ih hrest
        · rw [if_neg hsame, if_neg hsame, update_comm hne.symm]
          exact ih hrest
      · have hnone : ∀ r : Record F, server.assign encrypt r attr value' = none := fun r => by
          rw [assign, if_neg fun h => hsecret h.2, if_pos hattr]
        rw [hnone, hnone]
        exact ih hrest

theorem changed_of_patch (h : (t.patch encrypt r changed items).2 = []) :
    changed = [] ∧ (t.patch encrypt r changed items).1 = r := by
  induction items generalizing r changed with
  | nil => exact ⟨h, rfl⟩
  | cons item items ih =>
    rw [patch] at h ⊢
    split at h
    · exact ih h
    · exact absurd (ih h).1 (by simp)

end Patch

section Row
variable {F : Type} {t : Target} {r : Record F}

theorem complete_of_typed (htyped : t.Typed r) : t.Complete r := by
  intro f hf
  obtain ⟨hfield, hnullable, -⟩ := mem_required.mp hf
  rcases htyped f hfield with ⟨h, -⟩ | h
  · rw [hnullable] at h
    cases h
  · exact h

/-- A row that can be saved has no null in a required field. -/
theorem complete_of_saveRow (hsorted : t.Sorted r) (h : t.saveRow r = .ok ()) : t.Complete r := by
  intro f hf
  obtain ⟨hfield, hnullable, -⟩ := mem_required.mp hf
  rw [saveRow] at h
  split at h
  · cases h
  · split at h
    · cases h
    · rename_i hrow
      refine (hsorted f hfield).resolve_left fun hnone => hrow ?_
      exact List.any_eq_true.mpr ⟨f, hfield, by simp [hnullable, hnone]⟩

end Row

section Complete
variable {F : Type} [BEq F] {nonneg : F → Bool} {t : Target} {encrypt : Text → Text}
  {r : Record F} {items : List (Attr × Value F)} {kind : StorageKind}

/-- A required field is null only if the patch makes it so. -/
theorem patch_required (encrypt : Text → Text) {f : Field} (hf : f ∈ t.required) (htyped : t.Typed r)
    (haccepts : t.Accepts nonneg items) :
    ((t.patch encrypt r [] items).1 f.name).isNone = true ↔ (f.name, .none) ∈ items := by
  obtain ⟨hfield, hnullable, -⟩ := mem_required.mp hf
  obtain ⟨hagent, hsecret, -, -⟩ := name_of_required hf
  have hr : (r f.name).isNone = false := by
    rcases htyped f hfield with ⟨h, -⟩ | h
    · rw [hnullable] at h
      cases h
    · revert h
      cases r f.name <;> simp [FieldType.admits, Value.isNone]
  by_cases hattr : f.name ∈ t.patchable
  · exact patch_isNone hattr haccepts.1 hr
  · have hleft : f.name ∉ items.map (·.1) := by
      intro h
      obtain ⟨item, hitem, hname⟩ := List.mem_map.mp h
      obtain ⟨g, hg, hgname, -⟩ := haccepts.2 item hitem
      rcases patchable_of_body hg with hbody | ⟨-, hbody⟩
      · exact hattr (hname ▸ hgname ▸ hbody)
      · exact hagent ((hname.symm.trans hgname.symm).trans hbody)
    rw [patch_other hleft hsecret, hr]
    simp only [Bool.false_eq_true, false_iff]
    exact fun h => hleft (List.mem_map.mpr ⟨_, h, rfl⟩)

/-- The changed record is complete if no required field is set to null. -/
theorem complete_stamp_iff (encrypt : Text → Text) (actorId : Text) (now : Time) (htyped : t.Typed r)
    (haccepts : t.Accepts nonneg items) :
    t.Complete (t.stamp actorId now (t.patch encrypt r [] items).1) ↔
      ∀ f ∈ t.required, (f.name, .none) ∉ items := by
  have hsorted : t.Sorted r := fun f hf =>
    (htyped f hf).imp_left fun h => by rw [h.2]; rfl
  have hsorted : t.Sorted (t.patch encrypt r [] items).1 := hsorted.patch haccepts.2
  refine forall₂_congr fun f hf => ?_
  obtain ⟨-, -, hby, hat⟩ := name_of_required hf
  rw [stamp_other hby hat, ← patch_required encrypt hf htyped haccepts]
  constructor
  · intro h
    revert h
    cases (t.patch encrypt r [] items).1 f.name <;> simp [FieldType.admits, Value.isNone]
  · exact fun h => (hsorted f (mem_required.mp hf).1).resolve_left h

/-- Whatever patch the schema accepts of a record whose fields have their types: after the update
everything that the domain type and the answer's schema require is still there, exactly if the
patch sets no required field to null, or the database refuses to store that. -/
theorem complete_after_update_iff (actorId : Text) (now : Time) (htyped : t.Typed r)
    (haccepts : t.Accepts nonneg items) :
    t.Complete (t.update encrypt kind actorId now r items).2 ↔
      kind = .database ∨ ∀ f ∈ t.required, (f.name, .none) ∉ items := by
  have hstamp := complete_stamp_iff encrypt actorId now htyped haccepts
  by_cases hchanged : (t.patch encrypt r [] items).2 = []
  · -- nothing was assigned, so the record is the old one
    have hnulls : ∀ f ∈ t.required, (f.name, .none) ∉ items := by
      intro f hf hnull
      rw [← patch_required encrypt hf htyped haccepts,
        (changed_of_patch hchanged).2] at hnull
      have hadmits := complete_of_typed htyped f hf
      revert hnull hadmits
      cases r f.name <;> simp [FieldType.admits, Value.isNone]
    have hupdate : t.update encrypt kind actorId now r items =
        (.ok (t.patch encrypt r [] items).1, r) := if_pos hchanged
    rw [hupdate]
    exact iff_of_true (complete_of_typed htyped) (.inr hnulls)
  · have hupdate : t.update encrypt kind actorId now r items =
        t.store kind r (t.stamp actorId now (t.patch encrypt r [] items).1) := if_neg hchanged
    rw [hupdate]
    cases kind with
    | memory => exact hstamp.trans (by simp)
    | database =>
      refine iff_of_true ?_ (.inl rfl)
      rw [store]
      split
      · rename_i hrow
        have hsorted : t.Sorted r := fun f hf =>
          (htyped f hf).imp_left fun h => by rw [h.2]; rfl
        exact complete_of_saveRow ((hsorted.patch haccepts.2).stamp actorId now) hrow
      · exact complete_of_typed htyped

end Complete
end Target

section User
variable {F : Type}

def Value.ofOption {α : Type} (f : α → Value F) (value : Option α) : Value F := (value.map f).getD .none

/-- A user, whose fields all have their types, as a record. -/
def User.toRecord (user : User) : Record F
  | .id => .str user.id
  | .login => .str user.login
  | .displayName => .str user.displayName
  | .role => .role user.role
  | .passwordHash => .str user.passwordHash
  | .createdAt => .time user.createdAt
  | .updatedAt => .time user.updatedAt
  | .isActive => .bool user.isActive
  | .telegramUsername => .ofOption .str user.telegramUsername
  | .deviceLimit => .ofOption .int user.deviceLimit
  | .deviceLimitUnlimited => .bool user.deviceLimitUnlimited
  | .showServerSupport => .bool user.showServerSupport
  | .freeAccess => .bool user.freeAccess
  | .note => .ofOption .str user.note
  | .createdByUserId => .ofOption .str user.createdByUserId
  | _ => .none

def UserPatch.attr : UserPatch → Attr
  | .displayName _ => .displayName
  | .telegramUsername _ => .telegramUsername
  | .role _ => .role
  | .deviceLimit _ => .deviceLimit
  | .deviceLimitUnlimited _ => .deviceLimitUnlimited
  | .showServerSupport _ => .showServerSupport
  | .freeAccess _ => .freeAccess
  | .note _ => .note

def UserPatch.value : UserPatch → Value F
  | .displayName value => .str value
  | .telegramUsername value => .ofOption .str value
  | .role value => .role value
  | .deviceLimit value => .ofOption .int value
  | .deviceLimitUnlimited value => .bool value
  | .showServerSupport value => .bool value
  | .freeAccess value => .bool value
  | .note value => .ofOption .str value

theorem User.typed_toRecord (user : User) : Target.user.Typed (user.toRecord : Record F) := by
  have hstr : ∀ value : Option Text, Value.ofOption (.str (F := F)) value = .none ∨
      FieldType.str.admits (Value.ofOption (.str (F := F)) value) = true := by
    rintro (_ | value)
    · exact .inl rfl
    · exact .inr rfl
  have hint : ∀ value : Option Int, Value.ofOption (.int (F := F)) value = .none ∨
      FieldType.int.admits (Value.ofOption (.int (F := F)) value) = true := by
    rintro (_ | value)
    · exact .inl rfl
    · exact .inr rfl
  intro f hf
  simp only [Target.fields, List.mem_cons, List.not_mem_nil, or_false] at hf
  rcases hf with rfl | rfl | rfl | rfl | rfl | rfl | rfl | rfl | rfl | rfl | rfl | rfl | rfl | rfl | rfl
  all_goals first
    | exact .inr rfl
    | exact (hstr _).imp_left fun h => ⟨rfl, h⟩
    | exact (hint _).imp_left fun h => ⟨rfl, h⟩

theorem UserPatch.toRecord_assign (user : User) (field : UserPatch) :
    ((user.assign field).2.toRecord : Record F) =
      Function.update user.toRecord field.attr field.value := by
  funext attr
  cases field <;> cases attr <;> rfl

theorem Value.ofOption_str_inj {a b : Option Text}
    (h : Value.ofOption (.str (F := F)) a = .ofOption .str b) : a = b := by
  cases a <;> cases b <;> simp_all [ofOption]

/-- Values are the same exactly if they are equal, where no null is among them. -/
def Value.Discerns [BEq F] {α : Type} (f : α → Value F) : Prop :=
  (∀ a b, (f a).same (f b) = true ↔ a = b) ∧
    ∀ a, (f a).same .none = false ∧ Value.same .none (f a) = false

theorem Value.Discerns.same_ofOption [BEq F] {α : Type} {f : α → Value F} (hf : Value.Discerns f)
    (a b : Option α) : (Value.ofOption f a).same (.ofOption f b) = true ↔ a = b := by
  cases a with
  | none =>
    cases b with
    | none => exact iff_of_true rfl rfl
    | some b => exact iff_of_false (by simp [ofOption, (hf.2 b).2]) (by simp)
  | some a =>
    cases b with
    | none => exact iff_of_false (by simp [ofOption, (hf.2 a).1]) (by simp)
    | some b => exact (hf.1 a b).trans (Option.some_inj.symm)

theorem Value.discerns_str [BEq F] : Value.Discerns (F := F) .str :=
  ⟨fun _ _ => decide_eq_true_iff, fun _ => ⟨rfl, rfl⟩⟩

theorem Value.discerns_int [BEq F] : Value.Discerns (F := F) .int :=
  ⟨fun _ _ => decide_eq_true_iff, fun _ => ⟨rfl, rfl⟩⟩

theorem Value.discerns_bool [BEq F] : Value.Discerns (F := F) .bool :=
  ⟨fun _ _ => decide_eq_true_iff, fun _ => ⟨rfl, rfl⟩⟩

/-- An item assigns nothing new exactly if the record has its value already. -/
theorem UserPatch.same_iff [BEq F] (user : User) (field : UserPatch) :
    ((user.toRecord : Record F) field.attr).same field.value = true ↔
      (user.assign field).2 = user := by
  have hfield : ∀ {α : Type} (get : User → α) (set : α → User) (value : α),
      set (get user) = user → get (set value) = value → (get user = value ↔ set value = user) :=
    fun get set value hself hget =>
      ⟨fun h => h ▸ hself, fun h => (congrArg get h).symm.trans hget⟩
  cases field with
  | displayName value =>
    exact decide_eq_true_iff.trans
      (hfield (·.displayName) (fun v => { user with displayName := v }) value rfl rfl)
  | telegramUsername value =>
    exact (Value.discerns_str.same_ofOption _ _).trans
      (hfield (·.telegramUsername) (fun v => { user with telegramUsername := v }) value rfl rfl)
  | role value =>
    exact decide_eq_true_iff.trans (hfield (·.role) (fun v => { user with role := v }) value rfl rfl)
  | deviceLimit value =>
    exact (Value.discerns_int.same_ofOption _ _).trans
      (hfield (·.deviceLimit) (fun v => { user with deviceLimit := v }) value rfl rfl)
  | deviceLimitUnlimited value =>
    exact decide_eq_true_iff.trans
      (hfield (·.deviceLimitUnlimited) (fun v => { user with deviceLimitUnlimited := v }) value rfl rfl)
  | showServerSupport value =>
    exact decide_eq_true_iff.trans
      (hfield (·.showServerSupport) (fun v => { user with showServerSupport := v }) value rfl rfl)
  | freeAccess value =>
    exact decide_eq_true_iff.trans
      (hfield (·.freeAccess) (fun v => { user with freeAccess := v }) value rfl rfl)
  | note value =>
    exact (Value.discerns_str.same_ofOption _ _).trans
      (hfield (·.note) (fun v => { user with note := v }) value rfl rfl)

/-- On values of the declared types the loop does what `patchUser` does. -/
theorem patch_toRecord [BEq F] (encrypt : Text → Text) (user : User) (patch : List UserPatch)
    (changed : List Attr) (changed' : List Text) :
    (Target.user.patch encrypt (user.toRecord : Record F) changed
      (patch.map fun field => (field.attr, field.value))).1 =
        (patchUser user changed' patch).1.toRecord := by
  induction patch generalizing user changed changed' with
  | nil => rfl
  | cons field patch ih =>
    have hpatchable : field.attr ∈ Target.user.patchable := by
      cases field <;> simp [UserPatch.attr, Target.patchable]
    rw [List.map_cons, Target.patch, Target.assign_patchable _ _ _ hpatchable, patchUser]
    by_cases hsame : (user.assign field).2 = user
    · rw [if_pos hsame, if_pos ((UserPatch.same_iff user field).mpr hsame)]
      exact ih user changed changed'
    · rw [if_neg hsame, if_neg (mt (UserPatch.same_iff user field).mp hsame),
        ← UserPatch.toRecord_assign]
      exact ih _ _ _

end User

section Server
variable {F : Type}

/-- A node as a record; of a status payload that is no object nothing is kept. -/
def ServerNode.toRecord (node : ServerNode) : Record F
  | .id => .str node.id
  | .name => .ofOption .str node.name
  | .publicHost => .ofOption .str node.publicHost
  | .agentBaseUrl => .ofOption .str node.agentBaseUrl
  | .createdAt => .time node.createdAt
  | .updatedAt => .time node.updatedAt
  | .publicPort => .ofOption .int node.publicPort
  | .regionNote => .ofOption .str node.regionNote
  | .provider => .ofOption .str node.provider
  | .agentKeyId => .ofOption .str node.agentKeyId
  | .agentSecretEncrypted => .ofOption .str node.agentSecretEncrypted
  | .agentAllowedIpNote => .ofOption .str node.agentAllowedIpNote
  | .status => .status node.status
  | .lastSeenAt => .ofOption .time node.lastSeenAt
  | .lastError => .ofOption .str node.lastError
  | .lastStatusPayload => match node.lastStatusPayload with
    | some (.obj members) => .dict members
    | _ => .none
  | .awgContainerName => .ofOption .str node.awgContainerName
  | .awgInterface => .ofOption .str node.awgInterface
  | .awgConfigPath => .ofOption .str node.awgConfigPath
  | .clientsTablePath => .ofOption .str node.clientsTablePath
  | .isAvailableForNewDevices => .ofOption .bool node.isAvailableForNewDevices
  | .createdByUserId => .ofOption .str node.createdByUserId
  | _ => .none

def ServerPatch.attr : ServerPatch → Attr
  | .agentSecret _ => .agentSecret
  | .name _ => .name
  | .publicHost _ => .publicHost
  | .publicPort _ => .publicPort
  | .regionNote _ => .regionNote
  | .provider _ => .provider
  | .agentBaseUrl _ => .agentBaseUrl
  | .agentKeyId _ => .agentKeyId
  | .agentAllowedIpNote _ => .agentAllowedIpNote
  | .isAvailableForNewDevices _ => .isAvailableForNewDevices
  | .awgContainerName _ => .awgContainerName
  | .awgInterface _ => .awgInterface
  | .awgConfigPath _ => .awgConfigPath
  | .clientsTablePath _ => .clientsTablePath

def ServerPatch.value : ServerPatch → Value F
  | .agentSecret value | .name value | .publicHost value | .regionNote value | .provider value
  | .agentBaseUrl value | .agentKeyId value | .agentAllowedIpNote value | .awgContainerName value
  | .awgInterface value | .awgConfigPath value | .clientsTablePath value => .ofOption .str value
  | .publicPort value => .ofOption .int value
  | .isAvailableForNewDevices value => .ofOption .bool value

/-- The items of a patch. -/
def ServerPatch.items (patch : List ServerPatch) : List (Attr × Value F) :=
  patch.map fun field => (field.attr, field.value)

theorem ServerPatch.attr_notMem {attr : Attr}
    (hattr : attr ∉ .agentSecret :: Target.server.patchable) (patch : List ServerPatch) :
    attr ∉ (ServerPatch.items (F := F) patch).map (·.1) := by
  rw [ServerPatch.items, List.map_map]
  intro h
  obtain ⟨field, -, rfl⟩ := List.mem_map.mp h
  revert hattr
  cases field <;> simp [ServerPatch.attr, Target.patchable]

theorem ServerPatch.mem_of_secret {patch : List ServerPatch} {text : Text}
    (h : (.agentSecret, .str text) ∈ ServerPatch.items (F := F) patch) :
    .agentSecret (some text) ∈ patch := by
  obtain ⟨field, hfield, hitem⟩ := List.mem_map.mp h
  rw [Prod.mk.injEq] at hitem
  obtain ⟨hattr, hvalue⟩ := hitem
  cases field <;> cases hattr
  obtain rfl := Value.ofOption_str_inj (b := some text) hvalue
  exact hfield

/-- Every body that the schema accepts, nulls included, is such a patch. -/
theorem ServerPatch.exists_items {nonneg : F → Bool} {items : List (Attr × Value F)}
    (h : Target.server.Accepts nonneg items) : ∃ patch, ServerPatch.items patch = items := by
  have hstr : ∀ {check : Check} {attr : Attr} {value : Value F},
      BodyField.accepts nonneg ⟨attr, .str, check⟩ value = true → ∃ v, Value.ofOption .str v = value := by
    intro check attr value h
    cases value with
    | none => exact ⟨none, rfl⟩
    | str s => exact ⟨some s, rfl⟩
    | _ => cases h
  have hint : ∀ {check : Check} {attr : Attr} {value : Value F},
      BodyField.accepts nonneg ⟨attr, .int, check⟩ value = true → ∃ v, Value.ofOption .int v = value := by
    intro check attr value h
    cases value with
    | none => exact ⟨none, rfl⟩
    | int n => exact ⟨some n, rfl⟩
    | _ => cases h
  have hbool : ∀ {check : Check} {attr : Attr} {value : Value F},
      BodyField.accepts nonneg ⟨attr, .bool, check⟩ value = true →
        ∃ v, Value.ofOption .bool v = value := by
    intro check attr value h
    cases value with
    | none => exact ⟨none, rfl⟩
    | bool b => exact ⟨some b, rfl⟩
    | _ => cases h
  have hitem : ∀ item ∈ items, ∃ field : ServerPatch, (field.attr, field.value) = item := by
    rintro ⟨attr, value⟩ hitem
    obtain ⟨f, hf, rfl, haccepts⟩ := h.2 _ hitem
    simp only [Target.body, List.mem_cons, List.not_mem_nil, or_false] at hf
    rcases hf with rfl | rfl | rfl | rfl | rfl | rfl | rfl | rfl | rfl | rfl | rfl | rfl | rfl | rfl
    · obtain ⟨v, rfl⟩ := hstr haccepts; exact ⟨.name v, rfl⟩
    · obtain ⟨v, rfl⟩ := hstr haccepts; exact ⟨.publicHost v, rfl⟩
    · obtain ⟨v, rfl⟩ := hstr haccepts; exact ⟨.agentBaseUrl v, rfl⟩
    · obtain ⟨v, rfl⟩ := hint haccepts; exact ⟨.publicPort v, rfl⟩
    · obtain ⟨v, rfl⟩ := hstr haccepts; exact ⟨.regionNote v, rfl⟩
    · obtain ⟨v, rfl⟩ := hstr haccepts; exact ⟨.provider v, rfl⟩
    · obtain ⟨v, rfl⟩ := hstr haccepts; exact ⟨.agentKeyId v, rfl⟩
    · obtain ⟨v, rfl⟩ := hstr haccepts; exact ⟨.agentSecret v, rfl⟩
    · obtain ⟨v, rfl⟩ := hstr haccepts; exact ⟨.agentAllowedIpNote v, rfl⟩
    · obtain ⟨v, rfl⟩ := hbool haccepts; exact ⟨.isAvailableForNewDevices v, rfl⟩
    · obtain ⟨v, rfl⟩ := hstr haccepts; exact ⟨.awgContainerName v, rfl⟩
    · obtain ⟨v, rfl⟩ := hstr haccepts; exact ⟨.awgInterface v, rfl⟩
    · obtain ⟨v, rfl⟩ := hstr haccepts; exact ⟨.awgConfigPath v, rfl⟩
    · obtain ⟨v, rfl⟩ := hstr haccepts; exact ⟨.clientsTablePath v, rfl⟩
  clear h
  induction items with
  | nil => exact ⟨[], rfl⟩
  | cons item items ih =>
    obtain ⟨field, rfl⟩ := hitem item (by simp)
    obtain ⟨patch, rfl⟩ := ih fun item hmem => hitem item (by simp [hmem])
    exact ⟨field :: patch, rfl⟩

/-- An item other than the secret is assigned in a node as in its record. -/
theorem ServerNode.toRecord_patch [BEq F] (encrypt : Text → Text) (node : ServerNode)
    {field : ServerPatch} (hfield : field.attr ≠ .agentSecret) :
    (node.patch field).2.map ServerNode.toRecord =
      Target.server.assign encrypt (node.toRecord : Record F) field.attr field.value := by
  have hassign : ∀ {α : Type} [DecidableEq α] {f : α → Value F} {attr : Attr} (old value : Option α)
      (node' : ServerNode), Value.Discerns f → attr ∈ Target.server.patchable →
      (node.toRecord : Record F) attr = .ofOption f old →
      node'.toRecord = Function.update node.toRecord attr (.ofOption f value) →
      (if old = value then none else some node').map ServerNode.toRecord =
        Target.server.assign encrypt (node.toRecord : Record F) attr (.ofOption f value) := by
    intro α _ f attr old value node' hf hattr hold hnode'
    rw [Target.assign_patchable _ _ _ hattr, hold]
    by_cases hsame : old = value
    · rw [if_pos hsame, if_pos ((hf.same_ofOption old value).mpr hsame)]
      rfl
    · rw [if_neg hsame, if_neg (mt (hf.same_ofOption old value).mp hsame), ← hnode']
      rfl
  cases field with
  | agentSecret value => exact absurd rfl hfield
  | publicPort value =>
    refine hassign _ value _ Value.discerns_int (by simp [ServerPatch.attr, Target.patchable]) rfl ?_
    funext attr
    cases attr <;> rfl
  | isAvailableForNewDevices value =>
    refine hassign _ value _ Value.discerns_bool (by simp [ServerPatch.attr, Target.patchable]) rfl ?_
    funext attr
    cases attr <;> rfl
  | _ value =>
    refine hassign _ value _ Value.discerns_str (by simp [ServerPatch.attr, Target.patchable]) rfl ?_
    funext attr
    cases attr <;> rfl

theorem ServerNode.toRecord_secret (node : ServerNode) (sealed : Option Text) :
    ({ node with agentSecretEncrypted := sealed }.toRecord : Record F) =
      Function.update node.toRecord .agentSecretEncrypted (.ofOption .str sealed) := by
  funext attr
  cases attr <;> rfl

end Server

theorem Target.complete_after_note :
    Target.user.Complete (F := Empty)
      (Target.user.update id .memory (lit "a") 1 Sample.user.toRecord [(.note, .none)]).2 := by
  have haccepts : Target.user.Accepts (fun _ => true) [(.note, (.none : Value Empty))] := by
    refine ⟨by simp, ?_⟩
    rintro _ (_ | ⟨_, ⟨⟩⟩)
    exact ⟨⟨.note, .str, .length 0 500⟩, by simp [Target.body], rfl, rfl⟩
  refine (complete_after_update_iff (lit "a") 1 (User.typed_toRecord Sample.user) haccepts).mpr
    (.inr fun f hf hnull => ?_)
  have hname : ∀ f ∈ Target.user.required, f.name ≠ .note := by decide
  simp only [List.mem_singleton, Prod.mk.injEq, and_true] at hnull
  exact hname f hf hnull

/-- A body with `"role": null` is accepted, and leaves a user without a role in memory. -/
theorem Target.incomplete_after_null :
    Target.user.Typed (F := Empty) Sample.user.toRecord ∧
    Target.user.Accepts (fun _ => true) [(.role, (.none : Value Empty))] ∧
    ¬ Target.user.Complete (F := Empty)
      (Target.user.update id .memory (lit "a") 1 Sample.user.toRecord [(.role, .none)]).2 := by
  refine ⟨User.typed_toRecord Sample.user, ⟨by simp, ?_⟩, fun h => ?_⟩
  · rintro _ (_ | ⟨_, ⟨⟩⟩)
    exact ⟨⟨.role, .role, .any⟩, by simp [Target.body], rfl, rfl⟩
  · exact absurd (h ⟨.role, .role, false⟩ (by decide)) (by decide)

end VpnControl.Backend
