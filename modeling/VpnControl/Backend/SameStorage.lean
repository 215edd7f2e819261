import VpnControl.Backend.DatabaseStorage
import VpnControl.Backend.Playback

namespace VpnControl.Backend
open Strings Json RowTable

def isDict : Doc → Bool
  | .obj _ => true
  | _ => false

namespace InMemoryStorage

/-- What the callers promise of a call, where `since` is that of the last count: ids, logins and
token hashes belong to one record, records of a kind are created one after the other, metadata are
a dict, and lists are not empty by their limit. -/
def Admits (s : InMemoryStorage) (since : Time) : StorageCall → Prop
  | .addUser user | .saveUser user => ∀ other ∈ s.users.values, other.id ≠ user.id →
      other.login ≠ user.login ∧ other.createdAt ≠ user.createdAt
  | .addSession session | .saveSession session => ∀ other ∈ s.sessions.values,
      other.id = session.id ↔ other.tokenHash = session.tokenHash
  | .addServerNode node | .saveServerNode node => ∀ other ∈ s.serverNodes.values,
      other.id ≠ node.id → other.createdAt ≠ node.createdAt
  | .addDevice device | .saveDevice device => ∀ other ∈ s.devices.values,
      other.id ≠ device.id → other.createdAt ≠ device.createdAt
  | .setIssue issue | .saveIssue issue => ∀ other ∈ s.issues.values,
      other.id = issue.id → other.deviceId = issue.deviceId
  | .addSetupJob job | .saveSetupJob job => ∀ other ∈ s.setupJobs.values,
      other.id ≠ job.id → other.createdAt ≠ job.createdAt
  | .addSetupEvent event => isDict event.metadata = true ∧
      (∀ events ∈ s.setupEvents.values, ∀ other ∈ events.2, other.id ≠ event.id) ∧
      ∀ other ∈ s.setupEvents.items event.setupJobId, other.createdAt < event.createdAt
  | .addAuditEntry entry => isDict entry.metadata = true ∧
      ∀ other ∈ s.audit, other.id ≠ entry.id ∧ other.createdAt < entry.createdAt
  | .listAuditEntries limit => 1 ≤ limit
  | .countLoginFailures _ since' => since ≤ since'
  | _ => True

instance (s : InMemoryStorage) (since : Time) : DecidablePred (s.Admits since)
  | .addUser user | .saveUser user => inferInstanceAs (Decidable (∀ other ∈ s.users.values,
      other.id ≠ user.id → other.login ≠ user.login ∧ other.createdAt ≠ user.createdAt))
  | .addSession session | .saveSession session => inferInstanceAs (Decidable
      (∀ other ∈ s.sessions.values, other.id = session.id ↔ other.tokenHash = session.tokenHash))
  | .addServerNode node | .saveServerNode node => inferInstanceAs (Decidable
      (∀ other ∈ s.serverNodes.values, other.id ≠ node.id → other.createdAt ≠ node.createdAt))
  | .addDevice device | .saveDevice device => inferInstanceAs (Decidable
      (∀ other ∈ s.devices.values, other.id ≠ device.id → other.createdAt ≠ device.createdAt))
  | .setIssue issue | .saveIssue issue => inferInstanceAs (Decidable
      (∀ other ∈ s.issues.values, other.id = issue.id → other.deviceId = issue.deviceId))
  | .addSetupJob job | .saveSetupJob job => inferInstanceAs (Decidable
      (∀ other ∈ s.setupJobs.values, other.id ≠ job.id → other.createdAt ≠ job.createdAt))
  | .addSetupEvent event => inferInstanceAs (Decidable (isDict event.metadata = true ∧
      (∀ events ∈ s.setupEvents.values, ∀ other ∈ events.2, other.id ≠ event.id) ∧
      ∀ other ∈ s.setupEvents.items event.setupJobId, other.createdAt < event.createdAt))
  | .addAuditEntry entry => inferInstanceAs (Decidable (isDict entry.metadata = true ∧
      ∀ other ∈ s.audit, other.id ≠ entry.id ∧ other.createdAt < entry.createdAt))
  | .listAuditEntries limit => inferInstanceAs (Decidable (1 ≤ limit))
  | .countLoginFailures _ since' => inferInstanceAs (Decidable (since ≤ since'))
  | .getUser _ | .getUserByLogin _ | .listUsers | .hasAdmin | .getSessionByTokenHash _
  | .revokeSessionsForUser .. | .getServerNode _ | .listServerNodes | .getDevice _
  | .listDevicesForUser _ | .countDevicesTowardLimit _ | .countActiveDevicesForServer _
  | .getIssue _ | .dropIssue _ | .getSetupJob _ | .listSetupJobs | .claimNextSetupJob ..
  | .transitionSetupJob .. | .listSetupEvents _ | .recordLoginFailure ..
  | .clearLoginFailures _ => isTrue trivial

end InMemoryStorage

/-- The `since` of the last count. -/
def StorageCall.since (last : Time) : StorageCall → Time
  | countLoginFailures _ since => since
  | _ => last

namespace InMemoryStorage
variable (lower : Text → Text)

/-- The calls of a list keep what the callers promise, one after the other. -/
def AdmitsAll : InMemoryStorage → Time → List StorageCall → Prop
  | _, _, [] => True
  | s, since, c :: calls =>
    s.Admits since c ∧ AdmitsAll (s.call lower c).2 (c.since since) calls

instance decidableAdmitsAll : (s : InMemoryStorage) → (since : Time) → (calls : List StorageCall) →
    Decidable (s.AdmitsAll lower since calls)
  | _, _, [] => isTrue trivial
  | s, since, c :: calls =>
    @instDecidableAnd _ _ (inferInstanceAs (Decidable (s.Admits since c)))
      (decidableAdmitsAll (s.call lower c).2 (c.since since) calls)

end InMemoryStorage

section Kept

/-- The records of a kind were created at different times. -/
def Distinct {α : Type} (createdAt : α → Time) (values : List α) : Prop :=
  (values.map createdAt).Nodup

/-- Records that were added one after the other, with a dict for metadata. -/
structure Logged {α : Type} (createdAt : α → Time) (metadata : α → Doc) (values : List α) : Prop where
  sorted : values.Pairwise fun a b => createdAt a < createdAt b
  metadata : ∀ a ∈ values, isDict (metadata a) = true

end Kept

/-- The two storages hold the same, as far as a caller can see it: of the login failures what is
not older than the last count. -/
structure SameStorage (dialect : Dialect) (s : InMemoryStorage) (db : DatabaseStorage) (since : Time) :
    Prop where
  users : Encoded userRow s.users.values db.users.rows
  sessions : Encoded id s.sessions.values db.sessions.rows
  serverNodes : Encoded serverNodeRow s.serverNodes.values db.serverNodes.rows
  devices : Encoded deviceRow s.devices.values db.devices.rows
  issues : Encoded id s.issues.values db.issues.rows
  setupJobs : Encoded setupJobRow s.setupJobs.values db.setupJobs.rows
  setupEvents : ∀ jobId, Encoded setupEventRow (s.setupEvents.items jobId)
    (db.setupEvents.rows.filter (·.setupJobId = jobId))
  audit : Encoded auditRow s.audit db.audit.rows
  loginFailures : ∀ key since', since ≤ since' → (s.loginFailures.items key).countP (since' ≤ ·) =
    db.loginFailures.countP fun row => row.key = key && since' ≤ row.attemptedAt
  usersDistinct : Distinct User.createdAt s.users.values
  serverNodesDistinct : Distinct ServerNode.createdAt s.serverNodes.values
  devicesDistinct : Distinct Device.createdAt s.devices.values
  setupJobsDistinct : Distinct SetupJob.createdAt s.setupJobs.values
  setupEventsLogged : ∀ jobId, Logged SetupJobEvent.createdAt SetupJobEvent.metadata
    (s.setupEvents.items jobId)
  auditLogged : Logged AuditLogEntry.createdAt AuditLogEntry.metadata s.audit
  setupJobsFit : ∀ job ∈ s.setupJobs.values, ∀ cell ∈ (setupJobRow job).cells, dialect.takes cell = true

section Queries
variable {α ρ κ : Type} {encode : α → ρ} {decode : ρ → Option α} {values : List α} {rows : List ρ}
  {p : α → Bool} {q : ρ → Bool}

/-- Of the records with a key there is one. -/
theorem one_of_nodup [DecidableEq κ] {key : α → κ} (h : (values.map key).Nodup) {k : κ} :
    ∀ v ∈ values, ∀ w ∈ values, decide (key v = k) = true → decide (key w = k) = true → v = w := by
  intro v hv w hw hvk hwk
  refine List.inj_on_of_nodup_map h hv hw ?_
  rw [of_decide_eq_true hvk, of_decide_eq_true hwk]

theorem fetched_iff (h : Encoded encode values rows) (hdecode : ∀ v ∈ values, decode (encode v) = some v)
    (hq : ∀ v, q (encode v) = p v)
    (hone : ∀ v ∈ values, ∀ w ∈ values, p v = true → p w = true → v = w)
    {r : Except Exc (Option α)} :
    Fetched decode (rows.filter q) r ↔ r = .ok (values.find? p) := by
  simp only [Fetched, h.first_iff hq hone, exists_eq_left]
  cases hfind : values.find? p with
  | none => rfl
  | some v =>
    simp only [Option.map_some, hdecode v (List.mem_of_find?_eq_some hfind)]
    rfl

theorem listed_iff {le : ρ → ρ → Prop} {sorted : List α}
    (hordered : ∀ out, OrderedBy le rows out ↔ out = sorted.map encode)
    (hdecode : ∀ v ∈ sorted, decode (encode v) = some v) {r : Except Exc (List α)} :
    Listed decode le rows r ↔ r = .ok sorted := by
  simp only [Listed, hordered, exists_eq_left, mapM_decode hdecode]
  rfl

/-- The records in the order of their creation, or in its reverse. -/
theorem orderedBy_created {createdAt : α → Time} (createdAtRow : ρ → Time) (le : Time → Time → Prop)
    [DecidableRel le] [Std.Total le] [IsTrans Time le] [Std.Antisymm le]
    (hrow : ∀ v, createdAtRow (encode v) = createdAt v) (h : Encoded encode values rows)
    (hdistinct : Distinct createdAt values) (out : List ρ) :
    OrderedBy (fun a b => le (createdAtRow a) (createdAtRow b)) rows out ↔
      out = (values.mergeSort fun a b => le (createdAt a) (createdAt b)).map encode := by
  refine h.orderedBy_iff (List.mergeSort_perm _ _) ?_ ?_
  · rw [List.pairwise_map]
    refine (List.pairwise_mergeSort ?_ ?_ values).imp fun hab => ?_
    · intro a b c hab hbc
      simp only [decide_eq_true_eq] at hab hbc ⊢
      exact IsTrans.trans _ _ _ hab hbc
    · intro a b
      simpa using Std.Total.total (r := le) (createdAt a) (createdAt b)
    · simpa [hrow] using hab
  · intro v hv w hw hvw hwv
    rw [hrow, hrow] at hvw hwv
    exact List.inj_on_of_nodup_map hdistinct hv hw (Std.Antisymm.antisymm _ _ hvw hwv)

theorem listed_created {createdAt : α → Time} {createdAtRow : ρ → Time} (le : Time → Time → Prop)
    [DecidableRel le] [Std.Total le] [IsTrans Time le] [Std.Antisymm le]
    (hrow : ∀ v, createdAtRow (encode v) = createdAt v) (h : Encoded encode values rows)
    (hdecode : ∀ v ∈ values, decode (encode v) = some v) (hdistinct : Distinct createdAt values)
    {r : Except Exc (List α)} :
    Listed decode (fun a b => le (createdAtRow a) (createdAtRow b)) rows r ↔
      r = .ok (values.mergeSort fun a b => le (createdAt a) (createdAt b)) :=
  listed_iff (orderedBy_created createdAtRow le hrow h hdistinct) fun v hv =>
    hdecode v ((List.mergeSort_perm _ _).subset hv)

/-- Records that were added one after the other are in the order of their creation. -/
theorem orderedBy_logged {createdAt : α → Time} (createdAtRow : ρ → Time)
    (hrow : ∀ v, createdAtRow (encode v) = createdAt v) (h : Encoded encode values rows)
    (hsorted : values.Pairwise fun a b => createdAt a < createdAt b) (out : List ρ) :
    (OrderedBy (fun a b => createdAtRow a ≤ createdAtRow b) rows out ↔ out = values.map encode) ∧
      (OrderedBy (fun a b => createdAtRow b ≤ createdAtRow a) rows out ↔
        out = values.reverse.map encode) := by
  have hone : ∀ v ∈ values, ∀ w ∈ values, createdAt v = createdAt w → v = w := by
    have hnodup : (values.map createdAt).Nodup := by
      rw [List.nodup_iff_pairwise_ne, List.pairwise_map]
      exact hsorted.imp Nat.ne_of_lt
    exact fun v hv w hw => List.inj_on_of_nodup_map hnodup hv hw
  constructor
  · refine h.orderedBy_iff (.refl values) ?_ fun v hv w hw hvw hwv => ?_
    · rw [List.pairwise_map]
      refine hsorted.imp fun hab => ?_
      rw [hrow, hrow]
      exact Nat.le_of_lt hab
    · rw [hrow, hrow] at hvw hwv
      exact hone v hv w hw (Nat.le_antisymm hvw hwv)
  · refine h.orderedBy_iff (List.reverse_perm values) ?_ fun v hv w hw hvw hwv => ?_
    · rw [List.pairwise_map, List.pairwise_reverse]
      refine hsorted.imp fun hab => ?_
      rw [hrow, hrow]
      exact Nat.le_of_lt hab
    · rw [hrow, hrow] at hvw hwv
      exact hone v hv w hw (Nat.le_antisymm hwv hvw)

end Queries

section Decode

theorem user_userRow (user : User) : (userRow user).user = some user := by
  simp [UserRow.user, userRow, UserRole.ofValue_value]

theorem serverNode_serverNodeRow (node : ServerNode) : (serverNodeRow node).serverNode = some node := by
  simp [ServerNodeRow.serverNode, serverNodeRow, ServerStatus.ofValue_value]

theorem device_deviceRow (device : Device) : (deviceRow device).device = some device := by
  simp [DeviceRow.device, deviceRow, DeviceStatus.ofValue_value]

theorem setupJob_setupJobRow (job : SetupJob) : (setupJobRow job).setupJob = some job := by
  simp [SetupJobRow.setupJob, setupJobRow, SetupJobStatus.ofValue_value, AuthMethod.ofValue_value]

/-- A dict for metadata comes back as it was. -/
theorem orEmpty_dict {metadata : Doc} (h : isDict metadata = true) : orEmpty metadata = metadata := by
  cases metadata with
  | obj ms => cases ms <;> rfl
  | _ => cases h

theorem setupEvent_setupEventRow {event : SetupJobEvent} (h : isDict event.metadata = true) :
    (setupEventRow event).setupEvent = some event := by
  simp [SetupJobEventRow.setupEvent, setupEventRow, EventLevel.ofValue_value, orEmpty_dict h]

theorem audit_auditRow {entry : AuditLogEntry} (h : isDict entry.metadata = true) :
    (auditRow entry).audit = some entry := by
  simp [AuditLogEntryRow.audit, auditRow, orEmpty_dict h]

theorem set_setupJobRow (job : SetupJob) (values : List JobColumn) :
    values.foldl SetupJobRow.set (setupJobRow job) = setupJobRow (values.foldl SetupJob.setattr job) := by
  induction values generalizing job with
  | nil => rfl
  | cons column values ih =>
    rw [List.foldl_cons, List.foldl_cons, ← ih]
    congr 1
    cases column <;> rfl

@[simp] theorem foldl_setattr_id (job : SetupJob) (values : List JobColumn) :
    (values.foldl SetupJob.setattr job).id = job.id ∧
      (values.foldl SetupJob.setattr job).createdAt = job.createdAt := by
  induction values generalizing job with
  | nil => exact ⟨rfl, rfl⟩
  | cons column values ih =>
    rw [List.foldl_cons, (ih _).1, (ih _).2]
    cases column <;> exact ⟨rfl, rfl⟩

end Decode

section Kept
variable {α κ : Type} [DecidableEq κ] {key : α → κ} {createdAt : α → Time} {values : List α} {v : α}

/-- A record is put whose creation time no other has. -/
theorem Distinct.put (h : Distinct createdAt values) (hkeys : (values.map key).Nodup)
    (hv : ∀ other ∈ values, key other ≠ key v → createdAt other ≠ createdAt v) :
    Distinct createdAt (Table.putValues key v values) := by
  have hperm := (putValues_perm hkeys v).map createdAt
  rw [Distinct, hperm.nodup_iff, List.map_cons, List.nodup_cons]
  refine ⟨fun hmem => ?_, h.sublist (List.filter_sublist.map _)⟩
  obtain ⟨other, hother, hsame⟩ := List.mem_map.mp hmem
  rw [List.mem_filter, decide_eq_true_eq] at hother
  exact hv other hother.1 hother.2 hsame

/-- A stored record is put back, created when it was. -/
theorem Distinct.putBack (h : Distinct createdAt values) (hkeys : (values.map key).Nodup) {w : α}
    (hw : w ∈ values) (hkey : key v = key w) (hcreated : createdAt v = createdAt w) :
    Distinct createdAt (Table.putValues key v values) := by
  refine h.put hkeys fun other hother hne hsame => hne ?_
  rw [hkey, List.inj_on_of_nodup_map h hother hw (hsame.trans hcreated)]

theorem Logged.append {metadata : α → Doc} (h : Logged createdAt metadata values)
    (hv : isDict (metadata v) = true) (hlater : ∀ other ∈ values, createdAt other < createdAt v) :
    Logged createdAt metadata (values ++ [v]) := by
  constructor
  · rw [List.pairwise_append]
    refine ⟨h.sorted, List.pairwise_singleton _ _, fun a ha b hb => ?_⟩
    rw [List.mem_singleton.mp hb]
    exact hlater a ha
  · intro a ha
    rcases List.mem_append.mp ha with ha | ha
    · exact h.metadata a ha
    · rw [List.mem_singleton.mp ha]
      exact hv

end Kept

namespace SameStorage
variable {dialect : Dialect} {lower : Text → Text} {s : InMemoryStorage} {db : DatabaseStorage}
  {since : Time}

section Users
variable {user : User}

theorem saveUser (h : SameStorage dialect s db since) (hadmits : s.Admits since (.saveUser user)) :
    ∃ db', db.saveUser user = (.ok (), db') ∧ SameStorage dialect (s.saveUser user) db' since := by
  obtain ⟨users, hmerge, husers⟩ := h.users.merge (v := user) s.users.nodup (fun _ _ => Iff.rfl)
    fun other hother hlogin => by_contra fun hne => (hadmits other hother hne).1 hlogin
  refine ⟨{ db with users }, by rw [DatabaseStorage.saveUser, hmerge]; rfl, ?_⟩
  exact { h with
    users := husers
    usersDistinct := h.usersDistinct.put s.users.nodup fun other hother hne =>
      (hadmits other hother hne).2 }

theorem getUser (h : SameStorage dialect s db since) (userId : Text) {r : Except Exc (Option User)} :
    db.GetUser userId r ↔ r = .ok (s.getUser userId) :=
  fetched_iff h.users (fun user _ => user_userRow user) (fun _ => rfl) (one_of_nodup s.users.nodup)

theorem getUserByLogin (h : SameStorage dialect s db since) (login : Text) {r : Except Exc (Option User)} :
    db.GetUserByLogin lower login r ↔ r = .ok (s.getUserByLogin lower login) := by
  have hlogins : (s.users.values.map User.login).Nodup := by
    have hrows := (h.users.map UserRow.login).nodup_iff.mp db.users.nodup_unique
    rwa [List.map_map] at hrows
  exact fetched_iff h.users (fun user _ => user_userRow user) (fun _ => rfl) (one_of_nodup hlogins)

theorem listUsers (h : SameStorage dialect s db since) {r : Except Exc (List User)} :
    db.ListUsers r ↔ r = .ok s.listUsers :=
  listed_created (· ≤ ·) (fun _ => rfl) h.users (fun user _ => user_userRow user) h.usersDistinct

theorem hasAdmin (h : SameStorage dialect s db since) : db.hasAdmin = s.hasAdmin := by
  rw [DatabaseStorage.hasAdmin, h.users.countP (p := fun u => u.role.value = lit "admin") fun _ => rfl]
  rw [InMemoryStorage.hasAdmin, Bool.eq_iff_iff, decide_eq_true_eq, List.any_eq_true, ne_eq,
    List.countP_eq_zero]
  push Not
  rfl

end Users

section Sessions
variable {session : Session}

theorem saveSession (h : SameStorage dialect s db since) (hadmits : s.Admits since (.saveSession session)) :
    ∃ db', db.saveSession session = (.ok (), db') ∧ SameStorage dialect (s.saveSession session) db' since := by
  obtain ⟨sessions, hmerge, hsessions⟩ := h.sessions.merge (v := session) s.sessions.nodup hadmits
    fun _ _ htoken => htoken
  refine ⟨{ db with sessions }, ?_, { h with sessions := hsessions }⟩
  rw [DatabaseStorage.saveSession]
  change db.merged _ (db.sessions.merge (id session)) = _
  rw [hmerge]
  rfl

theorem getSessionByTokenHash (h : SameStorage dialect s db since) (tokenHash : Text)
    {r : Except Exc (Option Session)} :
    db.GetSessionByTokenHash tokenHash r ↔ r = .ok (s.getSessionByTokenHash tokenHash) :=
  fetched_iff h.sessions (fun _ _ => rfl) (fun _ => rfl) (one_of_nodup s.sessions.nodup)

theorem revokeSessionsForUser (h : SameStorage dialect s db since) (userId : Text) (at' : Time) :
    SameStorage dialect (s.revokeSessionsForUser userId at') (db.revokeSessionsForUser userId at') since := by
  have hsessions : Encoded id (s.revokeSessionsForUser userId at').sessions.values
      (db.revokeSessionsForUser userId at').sessions.rows := by
    refine h.sessions.update (fun _ => ?_) fun session _ => ?_
    · exact ⟨rfl, rfl⟩
    simp only [id_eq, Bool.and_eq_true, decide_eq_true_eq]
  exact { h with sessions := hsessions }

end Sessions

section ServerNodes
variable {node : ServerNode}

theorem saveServerNode (h : SameStorage dialect s db since) (hadmits : s.Admits since (.saveServerNode node)) :
    ∃ db', db.saveServerNode node = (.ok (), db') ∧ SameStorage dialect (s.saveServerNode node) db' since := by
  obtain ⟨serverNodes, hmerge, hnodes⟩ := h.serverNodes.merge (v := node) s.serverNodes.nodup
    (fun _ _ => Iff.rfl) fun _ _ hid => hid
  refine ⟨{ db with serverNodes }, by rw [DatabaseStorage.saveServerNode, hmerge]; rfl, ?_⟩
  exact { h with
    serverNodes := hnodes
    serverNodesDistinct := h.serverNodesDistinct.put s.serverNodes.nodup hadmits }

theorem getServerNode (h : SameStorage dialect s db since) (nodeId : Text)
    {r : Except Exc (Option ServerNode)} :
    db.GetServerNode nodeId r ↔ r = .ok (s.getServerNode nodeId) :=
  fetched_iff h.serverNodes (fun node _ => serverNode_serverNodeRow node) (fun _ => rfl)
    (one_of_nodup s.serverNodes.nodup)

theorem listServerNodes (h : SameStorage dialect s db since) {r : Except Exc (List ServerNode)} :
    db.ListServerNodes r ↔ r = .ok s.listServerNodes :=
  listed_created (· ≤ ·) (fun _ => rfl) h.serverNodes (fun node _ => serverNode_serverNodeRow node)
    h.serverNodesDistinct

end ServerNodes

section Devices
variable {device : Device}

theorem saveDevice (h : SameStorage dialect s db since) (hadmits : s.Admits since (.saveDevice device)) :
    ∃ db', db.saveDevice device = (.ok (), db') ∧ SameStorage dialect (s.saveDevice device) db' since := by
  obtain ⟨devices, hmerge, hdevices⟩ := h.devices.merge (v := device) s.devices.nodup
    (fun _ _ => Iff.rfl) fun _ _ hid => hid
  refine ⟨{ db with devices }, by rw [DatabaseStorage.saveDevice, hmerge]; rfl, ?_⟩
  exact { h with
    devices := hdevices
    devicesDistinct := h.devicesDistinct.put s.devices.nodup hadmits }

theorem getDevice (h : SameStorage dialect s db since) (deviceId : Text) {r : Except Exc (Option Device)} :
    db.GetDevice deviceId r ↔ r = .ok (s.getDevice deviceId) :=
  fetched_iff h.devices (fun device _ => device_deviceRow device) (fun _ => rfl)
    (one_of_nodup s.devices.nodup)

theorem listDevicesForUser (h : SameStorage dialect s db since) (userId : Text)
    {r : Except Exc (List Device)} :
    db.ListDevicesForUser userId r ↔ r = .ok (s.listDevicesForUser userId) := by
  have hdistinct : Distinct Device.createdAt (s.devices.values.filter (·.userId = userId)) :=
    h.devicesDistinct.sublist (List.filter_sublist.map _)
  exact listed_created (· ≥ ·) (fun _ => rfl) (h.devices.select fun _ => rfl)
    (fun device _ => device_deviceRow device) hdistinct

theorem mem_counted (status : DeviceStatus) :
    status.value ∈ DatabaseStorage.counted ↔ status ∈ InMemoryStorage.counted := by
  simp only [DatabaseStorage.counted, InMemoryStorage.counted, List.mem_cons, List.not_mem_nil,
    or_false, DeviceStatus.value_inj]

theorem countDevicesTowardLimit (h : SameStorage dialect s db since) (userId : Text) :
    db.countDevicesTowardLimit userId = s.countDevicesTowardLimit userId :=
  h.devices.countP fun device =>
    congrArg (_ && ·) (decide_eq_decide.mpr (mem_counted device.status))

theorem countActiveDevicesForServer (h : SameStorage dialect s db since) (serverNodeId : Text) :
    db.countActiveDevicesForServer serverNodeId = s.countActiveDevicesForServer serverNodeId :=
  h.devices.countP fun device =>
    congrArg (_ && ·) (decide_eq_decide.mpr (mem_counted device.status))

end Devices

section Issues
variable {issue : DeviceConfigIssue}

theorem getIssue (h : SameStorage dialect s db since) (deviceId : Text)
    {r : Except Exc (Option DeviceConfigIssue)} :
    db.GetIssue deviceId r ↔ r = .ok (s.getIssue deviceId) :=
  fetched_iff h.issues (fun _ _ => rfl) (fun _ => rfl) (one_of_nodup s.issues.nodup)

theorem dropIssue (h : SameStorage dialect s db since) (deviceId : Text) :
    SameStorage dialect (s.dropIssue deviceId) (db.dropIssue deviceId) since := by
  have hissues : Encoded id (s.issues.values.filter fun issue => !(issue.deviceId = deviceId : Bool))
      (db.issues.delete fun issue => issue.deviceId = deviceId).rows :=
    h.issues.delete fun _ => rfl
  simp only [← decide_not] at hissues
  exact { h with issues := hissues }

/-- An issue is merged into what is left of the issues, without an older one for its device. -/
theorem mergeIssue {issues : RowTable DeviceConfigIssue.id DeviceConfigIssue.deviceId}
    {values : List DeviceConfigIssue} (h : Encoded id values issues.rows)
    (hnodup : (values.map DeviceConfigIssue.deviceId).Nodup)
    (hids : ∀ other ∈ values, other.id = issue.id ↔ other.deviceId = issue.deviceId)
    (hothers : values.filter (·.deviceId ≠ issue.deviceId) =
      s.issues.values.filter (·.deviceId ≠ issue.deviceId)) :
    ∃ issues', issues.merge issue = some issues' ∧ Encoded id (s.issues.put issue).values issues'.rows := by
  obtain ⟨issues', hmerge, hissues⟩ := h.merge (v := issue) hnodup hids fun _ _ hdevice => hdevice
  refine ⟨issues', hmerge, hissues.trans ?_⟩
  have hput := putValues_perm hnodup issue
  rw [hothers] at hput
  exact (hput.trans (putValues_perm s.issues.nodup issue).symm).map id

theorem saveIssue (h : SameStorage dialect s db since) (hadmits : s.Admits since (.saveIssue issue)) :
    ∃ db', SameStorage dialect (s.saveIssue issue) db' since ∧
      ∀ r, db.SaveIssue issue r ↔ r = (.ok (), db') := by
  have hone : ∀ v ∈ s.issues.values, ∀ w ∈ s.issues.values, decide (v.deviceId = issue.deviceId) = true →
      decide (w.deviceId = issue.deviceId) = true → v = w := one_of_nodup s.issues.nodup
  have hfirst : ∀ old, First (db.issues.rows.filter (·.deviceId = issue.deviceId)) old ↔
      old = s.getIssue issue.deviceId := fun old => by
    rw [h.issues.first_iff (fun _ => rfl) hone, Option.map_id]
    rfl
  suffices hmerge : ∃ issues', (db.deleteOld issue (s.getIssue issue.deviceId)).merge issue =
      some issues' ∧ Encoded id (s.issues.put issue).values issues'.rows by
    obtain ⟨issues', hmerge, hissues⟩ := hmerge
    refine ⟨{ db with issues := issues' }, { h with issues := hissues }, fun r => ?_⟩
    simp only [DatabaseStorage.SaveIssue, hfirst, exists_eq_left]
    rw [hmerge]
    rfl
  cases hold : s.getIssue issue.deviceId with
  | none =>
    refine mergeIssue h.issues s.issues.nodup (fun other hother => ⟨hadmits other hother, fun hdevice => ?_⟩) rfl
    exact absurd (decide_eq_true hdevice) (List.find?_eq_none.mp hold other hother)
  | some old =>
    obtain ⟨hmem, hdevice⟩ := Table.get_eq_some_iff.mp hold
    have heq : ∀ other ∈ s.issues.values, other.deviceId = issue.deviceId → other = old :=
      fun other hother hsame => hone other hother old hmem (decide_eq_true hsame) (decide_eq_true hdevice)
    rw [DatabaseStorage.deleteOld]
    split_ifs with hid
    · have hids : (s.issues.values.map DeviceConfigIssue.id).Nodup := by
        have hrows := (h.issues.map DeviceConfigIssue.id).nodup_iff.mp db.issues.nodup_key
        rwa [List.map_map] at hrows
      have hdeleted : Encoded id (s.issues.values.filter fun other => !(other.id = old.id : Bool))
          (db.issues.delete fun other => other.id = old.id).rows := h.issues.delete fun _ => rfl
      refine mergeIssue hdeleted (s.issues.nodup.sublist (List.filter_sublist.map _))
        (fun other hother => ?_) ?_
      · obtain ⟨hother, hne⟩ := List.mem_filter.mp hother
        refine ⟨hadmits other hother, fun hsame => ?_⟩
        rw [heq other hother hsame] at hne
        simp at hne
      · rw [List.filter_filter]
        refine List.filter_congr fun other hother => ?_
        by_cases hsame : other.id = old.id
        · rw [List.inj_on_of_nodup_map hids hother hmem hsame]
          simp [hdevice]
        · simp [hsame]
    · refine mergeIssue h.issues s.issues.nodup (fun other hother => ⟨hadmits other hother, fun hsame => ?_⟩) rfl
      rw [heq other hother hsame]
      exact not_ne_iff.mp hid

end Issues

section SetupJobs
variable {job job' : SetupJob}

/-- A job is put, and it has a list of events from then on. -/
theorem putJob (h : SameStorage dialect s db since)
    {setupJobs : RowTable SetupJobRow.id SetupJobRow.id}
    (hjobs : Encoded setupJobRow (s.setupJobs.put job).values setupJobs.rows)
    (hdistinct : Distinct SetupJob.createdAt (s.setupJobs.put job).values)
    (hfits : ∀ cell ∈ (setupJobRow job).cells, dialect.takes cell = true) :
    SameStorage dialect (s.saveSetupJob job) { db with setupJobs } since :=
  { h with
    setupJobs := hjobs
    setupJobsDistinct := hdistinct
    setupJobsFit := fun other hother => by
      rcases Table.mem_putValues hother with rfl | hold
      · exact hfits
      · exact h.setupJobsFit other hold
    setupEvents := fun jobId => by
      rw [InMemoryStorage.saveSetupJob, ListDict.items_setDefault]
      exact h.setupEvents jobId
    setupEventsLogged := fun jobId => by
      rw [InMemoryStorage.saveSetupJob, ListDict.items_setDefault]
      exact h.setupEventsLogged jobId }

theorem saveSetupJob (h : SameStorage dialect s db since) (hadmits : s.Admits since (.saveSetupJob job))
    (hfits : ∀ cell ∈ (setupJobRow job).cells, dialect.takes cell = true) :
    ∃ db', db.saveSetupJob job = (.ok (), db') ∧ SameStorage dialect (s.saveSetupJob job) db' since := by
  obtain ⟨setupJobs, hmerge, hjobs⟩ := h.setupJobs.merge (v := job) s.setupJobs.nodup
    (fun _ _ => Iff.rfl) fun _ _ hid => hid
  refine ⟨{ db with setupJobs }, by rw [DatabaseStorage.saveSetupJob, hmerge]; rfl, ?_⟩
  exact h.putJob hjobs (h.setupJobsDistinct.put s.setupJobs.nodup hadmits) hfits

theorem getSetupJob (h : SameStorage dialect s db since) (jobId : Text) {r : Except Exc (Option SetupJob)} :
    db.GetSetupJob jobId r ↔ r = .ok (s.getSetupJob jobId) :=
  fetched_iff h.setupJobs (fun job _ => setupJob_setupJobRow job) (fun _ => rfl)
    (one_of_nodup s.setupJobs.nodup)

theorem listSetupJobs (h : SameStorage dialect s db since) {r : Except Exc (List SetupJob)} :
    db.ListSetupJobs r ↔ r = .ok s.listSetupJobs :=
  listed_created (· ≥ ·) (fun _ => rfl) h.setupJobs (fun job _ => setupJob_setupJobRow job)
    h.setupJobsDistinct

section Update
variable {p : SetupJobRow → Bool} {f : SetupJobRow → SetupJobRow} {hf : ∀ row, (f row).id = row.id}

theorem updateSetupJobs_iff {o : Option SetupJob}
    (hrows : (db.setupJobs.rows.filter p).map f = o.toList.map setupJobRow)
    (hfits : ∀ job ∈ o, ∀ cell ∈ (setupJobRow job).cells, dialect.takes cell = true)
    {r : Except Exc (Option SetupJob)} {db' : DatabaseStorage} :
    db.UpdateSetupJobs dialect p f hf r db' ↔ r = .ok o ∧ db' = { db with
      setupJobs := db.setupJobs.update p f fun row => ⟨hf row, hf row⟩ } := by
  have hfirst : ∀ row, First (o.toList.map setupJobRow) row ↔ row = o.map setupJobRow := by
    intro row
    cases o with
    | none => cases row <;> simp [First]
    | some job => cases row <;> simp [First]
  have hfetched : Fetched SetupJobRow.setupJob (o.toList.map setupJobRow) r ↔ r = .ok o := by
    simp only [Fetched, hfirst, exists_eq_left]
    cases o with
    | none => rfl
    | some job =>
      simp only [Option.map_some, setupJob_setupJobRow]
      rfl
  have htaken : ∀ row ∈ db.setupJobs.rows, p row = true →
      ∀ cell ∈ (f row).cells, dialect.takes cell = true := by
    intro row hrow hp
    have hmem : f row ∈ o.toList.map setupJobRow := by
      rw [← hrows]
      exact List.mem_map_of_mem (List.mem_filter.mpr ⟨hrow, hp⟩)
    obtain ⟨job, hjob, heq⟩ := List.mem_map.mp hmem
    rw [← heq]
    exact hfits job (Option.mem_toList.mp hjob)
  rw [DatabaseStorage.UpdateSetupJobs, if_pos htaken, hrows, hfetched]
  refine and_congr_right fun hr => ?_
  rw [hr]
  rfl

/-- An update that no job matches. -/
theorem update_none (h : SameStorage dialect s db since)
    (hp : ∀ other ∈ s.setupJobs.values, p (setupJobRow other) = false) :
    ∃ db', SameStorage dialect s db' since ∧
      ∀ r db'', db.UpdateSetupJobs dialect p f hf r db'' ↔ r = .ok none ∧ db'' = db' := by
  have hselect := h.setupJobs.select (q := p) (p := fun other => p (setupJobRow other)) fun _ => rfl
  have hnone : s.setupJobs.values.filter (fun other => p (setupJobRow other)) = [] :=
    List.filter_eq_nil_iff.mpr fun other hother => by simp [hp other hother]
  rw [hnone] at hselect
  have hjobs := h.setupJobs.update (q := p) (g := id) (fun row => ⟨hf row, hf row⟩) fun other hother => by
    rw [hp other hother]
    rfl
  rw [List.map_id] at hjobs
  refine ⟨{ db with setupJobs := db.setupJobs.update p f fun row => ⟨hf row, hf row⟩ },
    { h with setupJobs := hjobs }, fun r db'' => ?_⟩
  refine updateSetupJobs_iff ?_ fun job hjob => by cases hjob
  rw [hselect.eq_nil]
  rfl

/-- An update of one job. -/
theorem update_one (h : SameStorage dialect s db since) (hjob : s.setupJobs.get job.id = some job)
    (hid : job'.id = job.id) (hcreated : job'.createdAt = job.createdAt)
    (hp : ∀ other ∈ s.setupJobs.values, p (setupJobRow other) = decide (other.id = job.id))
    (hset : f (setupJobRow job) = setupJobRow job')
    (hfits : ∀ cell ∈ (setupJobRow job').cells, dialect.takes cell = true) :
    ∃ db', SameStorage dialect (s.saveSetupJob job') db' since ∧
      ∀ r db'', db.UpdateSetupJobs dialect p f hf r db'' ↔ r = .ok (some job') ∧ db'' = db' := by
  have hmem : job ∈ s.setupJobs.values := (Table.get_eq_some_iff.mp hjob).1
  have hself : ∀ other ∈ s.setupJobs.values, other.id = job.id → other = job :=
    fun other hother => List.inj_on_of_nodup_map s.setupJobs.nodup hother hmem
  have hselect := h.setupJobs.select (q := p) (p := fun other => p (setupJobRow other)) fun _ => rfl
  have hone : (s.setupJobs.values.filter fun other => p (setupJobRow other)).Perm [job] := by
    refine (List.perm_ext_iff_of_nodup ((s.setupJobs.nodup.of_map _).filter _)
      (List.nodup_singleton job)).mpr fun other => ?_
    rw [List.mem_filter, List.mem_singleton]
    constructor
    · rintro ⟨hother, hmatch⟩
      rw [hp other hother] at hmatch
      exact hself other hother (of_decide_eq_true hmatch)
    · rintro rfl
      exact ⟨hmem, by rw [hp _ hmem, decide_eq_true rfl]⟩
  have hrows : db.setupJobs.rows.filter p = [setupJobRow job] :=
    List.perm_singleton.mp (hselect.trans (hone.map setupJobRow))
  have hjobs : Encoded setupJobRow (s.setupJobs.put job').values
      (db.setupJobs.update p f fun row => ⟨hf row, hf row⟩).rows := by
    change Encoded setupJobRow (Table.putValues SetupJob.id job' s.setupJobs.values) _
    rw [putValues_eq_map s.setupJobs.nodup hmem hid]
    refine h.setupJobs.update _ fun other hother => ?_
    rw [hp other hother]
    by_cases hsame : other.id = job.id
    · rw [if_pos hsame, if_pos (decide_eq_true hsame), hself other hother hsame, hset]
    · rw [if_neg hsame, if_neg (by simpa using hsame)]
  refine ⟨{ db with setupJobs := db.setupJobs.update p f fun row => ⟨hf row, hf row⟩ }, ?_, ?_⟩
  · exact h.putJob hjobs (h.setupJobsDistinct.putBack s.setupJobs.nodup hmem hid hcreated) hfits
  · intro r db''
    refine updateSetupJobs_iff ?_ fun other hother => ?_
    · rw [hrows, List.map_singleton, hset]
      rfl
    · cases hother
      exact hfits

end Update

/-- Values that fit are set in a job that fits. -/
theorem fits_foldl_set {values : List JobColumn} {row : SetupJobRow}
    (hrow : ∀ cell ∈ row.cells, dialect.takes cell = true)
    (hvalues : ∀ cell ∈ values.flatMap JobColumn.cells, dialect.takes cell = true) :
    ∀ cell ∈ (values.foldl SetupJobRow.set row).cells, dialect.takes cell = true := by
  induction values generalizing row with
  | nil => exact hrow
  | cons column values ih =>
    simp only [List.flatMap_cons, List.mem_append] at hvalues
    refine ih (fun cell hcell => ?_) fun cell hcell => hvalues cell (.inr hcell)
    rcases SetupJobRow.mem_cells_set hcell with hold | hnew
    · exact hrow cell hold
    · exact hvalues cell (.inl hnew)

theorem claimNextSetupJob (h : SameStorage dialect s db since) (at' : Time) (currentStep : Text)
    (hfits : (StorageCall.claimNextSetupJob at' currentStep).Fits dialect lower) :
    ∃ db', SameStorage dialect (s.claimNextSetupJob at' currentStep).2 db' since ∧
      ∀ r db'', db.ClaimNextSetupJob dialect at' currentStep r db'' ↔
        r = .ok (s.claimNextSetupJob at' currentStep).1 ∧ db'' = db' := by
  have hqueued : ∀ job : SetupJob, (setupJobRow job).status = SetupJobStatus.queued.value ↔
      job.status = .queued := fun _ => SetupJobStatus.value_inj
  have hdistinct : Distinct SetupJob.createdAt (s.setupJobs.values.filter (·.status = .queued)) :=
    h.setupJobsDistinct.sublist (List.filter_sublist.map _)
  have hselect : Encoded setupJobRow (s.setupJobs.values.filter (·.status = .queued))
      (db.setupJobs.rows.filter fun row => row.status = SetupJobStatus.queued.value) :=
    h.setupJobs.select fun job => decide_eq_decide.mpr (hqueued job)
  -- creation times differ, so ORDER BY leaves one order and the queues agree in their first job
  have hordered := orderedBy_created SetupJobRow.createdAt (· ≤ ·) (fun _ => rfl) hselect hdistinct
  simp only [DatabaseStorage.ClaimNextSetupJob, hordered, exists_eq_left, List.head?_map]
  rw [InMemoryStorage.claimNextSetupJob]
  change ∃ db', SameStorage dialect _ db' since ∧ ∀ r db'', db.UpdateSetupJobs dialect
    (fun row => (s.nextQueuedSetupJob.map setupJobRow).map SetupJobRow.id = some row.id && _) _ _ _ _ ↔ _
  cases hnext : s.nextQueuedSetupJob with
  | none => exact h.update_none fun _ _ => rfl
  | some job =>
    have hmem : job ∈ s.setupJobs.values.filter (·.status = .queued) :=
      (List.mergeSort_perm _ _).subset (List.mem_of_mem_head? (Option.mem_def.mpr hnext))
    rw [List.mem_filter, decide_eq_true_eq] at hmem
    -- what is set fits: the job did, and the step is among the values of the call
    have hclaimed : ∀ cell ∈ (([.status .checkingSsh, .currentStep currentStep, .startedAt (some at'),
        .updatedAt at'] : List JobColumn).foldl SetupJobRow.set (setupJobRow job)).cells,
        dialect.takes cell = true := by
      refine fits_foldl_set (h.setupJobsFit job hmem.1) fun cell hcell => ?_
      simp only [List.flatMap_cons, List.flatMap_nil, List.append_nil, List.mem_append] at hcell
      rcases hcell with hcell | hcell | hcell | hcell
      · rw [List.mem_singleton.mp hcell]
        exact dialect.takes_checkingSsh
      · exact hfits cell hcell
      · cases hcell
      · cases hcell
    refine h.update_one (Table.mem_values_iff.mp hmem.1) rfl rfl (fun other hother => ?_) rfl hclaimed
    rw [Bool.eq_iff_iff, Bool.and_eq_true, decide_eq_true_eq, decide_eq_true_eq,
      decide_eq_true_eq, hqueued, Option.map_some, Option.map_some, Option.some_inj]
    refine ⟨fun hother => hother.1.symm, fun hid => ⟨hid.symm, ?_⟩⟩
    rw [List.inj_on_of_nodup_map s.setupJobs.nodup hother hmem.1 hid]
    exact hmem.2

theorem transitionSetupJob (h : SameStorage dialect s db since) (jobId : Text)
    (expectedStatuses : List SetupJobStatus) (values : List JobColumn)
    (hfits : ∀ cell ∈ values.flatMap JobColumn.cells, dialect.takes cell = true) :
    ∃ db', SameStorage dialect (s.transitionSetupJob jobId expectedStatuses values).2 db' since ∧
      ∀ r db'', db.TransitionSetupJob dialect jobId expectedStatuses values r db'' ↔
        r = .ok (s.transitionSetupJob jobId expectedStatuses values).1 ∧ db'' = db' := by
  have hexpected : ∀ other : SetupJob, (setupJobRow other).status ∈ expectedStatuses.map (·.value) ↔
      other.status ∈ expectedStatuses := by
    intro other
    simp only [setupJobRow, List.mem_map, SetupJobStatus.value_inj, exists_eq_right]
  rw [InMemoryStorage.transitionSetupJob]
  cases hjob : s.setupJobs.get jobId with
  | none =>
    refine h.update_none fun other hother => ?_
    have hne : other.id ≠ jobId := fun hid =>
      List.find?_eq_none.mp hjob other hother (decide_eq_true hid)
    simp [setupJobRow, hne]
  | some job =>
    obtain ⟨hmem, rfl⟩ := Table.get_eq_some_iff.mp hjob
    dsimp only
    split_ifs with hstatus
    · obtain ⟨hid, hcreated⟩ := foldl_setattr_id job values
      rw [DatabaseStorage.TransitionSetupJob]
      have hset : ∀ cell ∈ (setupJobRow (values.foldl SetupJob.setattr job)).cells,
          dialect.takes cell = true := by
        rw [← set_setupJobRow]
        exact fits_foldl_set (h.setupJobsFit job hmem) hfits
      refine h.update_one hjob hid hcreated (fun other hother => ?_) (set_setupJobRow job values) hset
      rw [Bool.eq_iff_iff, Bool.and_eq_true, decide_eq_true_eq, decide_eq_true_eq, decide_eq_true_eq,
        hexpected]
      refine ⟨fun hother => hother.1, fun hid => ⟨hid, ?_⟩⟩
      rw [List.inj_on_of_nodup_map s.setupJobs.nodup hother hmem hid]
      exact hstatus
    · refine h.update_none fun other hother => ?_
      rw [Bool.and_eq_false_iff, decide_eq_false_iff_not, decide_eq_false_iff_not, hexpected]
      by_cases hid : other.id = job.id
      · rw [List.inj_on_of_nodup_map s.setupJobs.nodup hother hmem hid]
        exact .inr hstatus
      · exact .inl hid

end SetupJobs

section SetupEvents
variable {event : SetupJobEvent}

theorem addSetupEvent (h : SameStorage dialect s db since) (hadmits : s.Admits since (.addSetupEvent event)) :
    ∃ db', db.addSetupEvent event = (.ok (), db') ∧ SameStorage dialect (s.addSetupEvent event) db' since := by
  obtain ⟨hmetadata, hnew, hlater⟩ := hadmits
  have hfree : ∀ row ∈ db.setupEvents.rows, row.id ≠ event.id := by
    intro row hrow hid
    have hjob : row ∈ db.setupEvents.rows.filter (·.setupJobId = row.setupJobId) :=
      List.mem_filter.mpr ⟨hrow, decide_eq_true rfl⟩
    obtain ⟨other, hother, hsame⟩ := List.mem_map.mp ((h.setupEvents row.setupJobId).subset hjob)
    rw [← hsame] at hid
    obtain ⟨events, hevents, hmem⟩ := ListDict.exists_of_mem_items hother
    exact hnew events hevents other hmem hid
  obtain ⟨setupEvents, hmerge, hrows⟩ := merge_new (r := setupEventRow event) hfree hfree
  refine ⟨{ db with setupEvents }, by rw [DatabaseStorage.addSetupEvent, hmerge]; rfl, ?_⟩
  have hitems : ∀ jobId, (s.addSetupEvent event).setupEvents.items jobId =
      s.setupEvents.items jobId ++ if jobId = event.setupJobId then [event] else [] :=
    s.setupEvents.items_append event.setupJobId event
  refine { h with setupEvents := fun jobId => ?_, setupEventsLogged := fun jobId => ?_ }
  · rw [hitems]
    change Encoded _ _ (setupEvents.rows.filter _)
    rw [hrows]
    by_cases hjob : jobId = event.setupJobId
    · subst hjob
      have hsame : decide ((setupEventRow event).setupJobId = event.setupJobId) = true :=
        decide_eq_true rfl
      rw [if_pos rfl, List.filter_cons, if_pos hsame]
      refine ((h.setupEvents _).cons (setupEventRow event)).trans ?_
      rw [List.map_append]
      exact (List.perm_append_singleton _ _).symm
    · have hother : ¬ decide ((setupEventRow event).setupJobId = jobId) = true := fun hsame =>
        hjob (of_decide_eq_true hsame).symm
      rw [if_neg hjob, List.append_nil, List.filter_cons, if_neg hother]
      exact h.setupEvents jobId
  · rw [hitems]
    by_cases hjob : jobId = event.setupJobId
    · subst hjob
      rw [if_pos rfl]
      exact (h.setupEventsLogged _).append hmetadata hlater
    · rw [if_neg hjob, List.append_nil]
      exact h.setupEventsLogged jobId

theorem listSetupEvents (h : SameStorage dialect s db since) (jobId : Text)
    {r : Except Exc (List SetupJobEvent)} :
    db.ListSetupEvents jobId r ↔ r = .ok (s.listSetupEvents jobId) := by
  have hlogged := h.setupEventsLogged jobId
  exact listed_iff (fun out => (orderedBy_logged _ (fun _ => rfl) (h.setupEvents jobId)
    hlogged.sorted out).1) fun event hevent => setupEvent_setupEventRow (hlogged.metadata event hevent)

end SetupEvents

section Audit
variable {entry : AuditLogEntry}

theorem addAuditEntry (h : SameStorage dialect s db since) (hadmits : s.Admits since (.addAuditEntry entry)) :
    ∃ db', db.addAuditEntry entry = (.ok (), db') ∧ SameStorage dialect (s.addAuditEntry entry) db' since := by
  obtain ⟨hmetadata, hnew⟩ := hadmits
  have hfree : ∀ row ∈ db.audit.rows, row.id ≠ entry.id := by
    intro row hrow
    obtain ⟨other, hother, rfl⟩ := List.mem_map.mp (h.audit.subset hrow)
    exact (hnew other hother).1
  obtain ⟨audit, hmerge, hrows⟩ := merge_new (r := auditRow entry) hfree hfree
  refine ⟨{ db with audit }, by rw [DatabaseStorage.addAuditEntry, hmerge]; rfl, ?_⟩
  refine { h with audit := ?_, auditLogged := ?_ }
  · change Encoded auditRow (s.audit ++ [entry]) audit.rows
    rw [hrows, Encoded, List.map_append]
    exact (h.audit.cons (auditRow entry)).trans (List.perm_append_singleton _ _).symm
  · exact h.auditLogged.append hmetadata fun other hother => (hnew other hother).2

theorem listAuditEntries (h : SameStorage dialect s db since) {limit : Nat} (hlimit : 1 ≤ limit)
    {r : Except Exc (List AuditLogEntry)} :
    db.ListAuditEntries limit r ↔ r = .ok (s.listAuditEntries limit) := by
  have hordered := fun out => (orderedBy_logged AuditLogEntryRow.createdAt
    (fun _ => rfl) h.audit h.auditLogged.sorted out).2
  have hdecode : ∀ entry ∈ s.audit.reverse.take limit, (auditRow entry).audit = some entry :=
    fun entry hentry =>
      audit_auditRow (h.auditLogged.metadata entry (List.mem_reverse.mp (List.mem_of_mem_take hentry)))
  simp only [DatabaseStorage.ListAuditEntries, hordered, exists_eq_left, ← List.map_take,
    mapM_decode hdecode]
  rw [InMemoryStorage.listAuditEntries, if_neg (by omega), List.take_reverse]
  rfl

end Audit

section LoginFailures

theorem recordLoginFailure (h : SameStorage dialect s db since) (key : Text) (at' : Time) :
    SameStorage dialect (s.recordLoginFailure key at') (db.recordLoginFailure key at') since := by
  refine { h with loginFailures := fun key' since' hsince => ?_ }
  rw [InMemoryStorage.recordLoginFailure, ListDict.items_append, List.countP_append,
    h.loginFailures key' since' hsince, DatabaseStorage.recordLoginFailure, List.countP_append]
  congr 1
  by_cases hkey : key' = key
  · simp [hkey]
  · simp [hkey, Ne.symm hkey]

theorem countLoginFailures (h : SameStorage dialect s db since) (key : Text) {since' : Time}
    (hsince : since ≤ since') :
    (db.countLoginFailures key since').1 = (s.countLoginFailures key since').1 ∧
      SameStorage dialect (s.countLoginFailures key since').2 (db.countLoginFailures key since').2 since' := by
  constructor
  · rw [DatabaseStorage.countLoginFailures, InMemoryStorage.countLoginFailures,
      ← List.countP_eq_length_filter, h.loginFailures key since' hsince, List.countP_filter]
    refine List.countP_congr fun row _ => ?_
    simp only [Bool.and_eq_true, decide_eq_true_eq, Bool.not_eq_true', decide_eq_false_iff_not,
      Nat.not_lt]
  · refine { h with loginFailures := fun key' since'' hlater => ?_ }
    have hrows : (db.countLoginFailures key since').2.loginFailures.countP
        (fun row => row.key = key' && since'' ≤ row.attemptedAt) =
        db.loginFailures.countP fun row => row.key = key' && since'' ≤ row.attemptedAt := by
      rw [DatabaseStorage.countLoginFailures, List.countP_filter]
      refine List.countP_congr fun row _ => ?_
      simp only [Bool.and_eq_true, decide_eq_true_eq, Bool.not_eq_true', decide_eq_false_iff_not,
        Nat.not_lt]
      exact ⟨fun hrow => hrow.1, fun hrow => ⟨hrow, hlater.trans hrow.2⟩⟩
    rw [hrows, ← h.loginFailures key' since'' (hsince.trans hlater),
      InMemoryStorage.countLoginFailures, ListDict.items_put]
    split_ifs with hkey
    · rw [hkey, List.countP_filter]
      refine List.countP_congr fun at' _ => ?_
      simp only [Bool.and_eq_true, decide_eq_true_eq]
      exact ⟨fun hat => hat.1, fun hat => ⟨hat, hlater.trans hat⟩⟩
    · rfl

theorem clearLoginFailures (h : SameStorage dialect s db since) (key : Text) :
    SameStorage dialect (s.clearLoginFailures key) (db.clearLoginFailures key) since := by
  refine { h with loginFailures := fun key' since' hsince => ?_ }
  rw [InMemoryStorage.clearLoginFailures, ListDict.items_erase, DatabaseStorage.clearLoginFailures,
    List.countP_filter]
  split_ifs with hkey
  · rw [hkey, List.countP_nil, eq_comm, List.countP_eq_zero]
    intro row _
    simp only [Bool.and_eq_true, decide_eq_true_eq, Bool.not_eq_true', decide_eq_false_iff_not]
    exact fun hrow => hrow.2 hrow.1.1
  · rw [h.loginFailures key' since' hsince]
    refine List.countP_congr fun row _ => ?_
    simp only [Bool.and_eq_true, decide_eq_true_eq, Bool.not_eq_true', decide_eq_false_iff_not]
    exact ⟨fun hrow => ⟨hrow, fun hsame => hkey (hrow.1.symm.trans hsame)⟩, fun hrow => hrow.1⟩

end LoginFailures

/-- What a statement that is not refused may return, and the only database that it may leave. -/
theorem executed (lower : Text → Text) (h : SameStorage dialect s db since) {c : StorageCall}
    (hadmits : s.Admits since c) (hfits : c.Fits dialect lower) :
    ∃ db', SameStorage dialect (s.call lower c).2 db' (c.since since) ∧
      ∀ r db'', db.Executed dialect lower c r db'' ↔ r = .ok (s.call lower c).1 ∧ db'' = db' := by
  -- a call that only reads, and one that saves a record
  have hread : ∀ {α : Type} {a : α} {R : Except Exc α → Prop}, (∀ r, R r ↔ r = .ok a) →
      ∃ db', SameStorage dialect s db' since ∧ ∀ r db'', (R r ∧ db'' = db) ↔ r = .ok a ∧ db'' = db' :=
    fun hR => ⟨db, h, fun r db'' => and_congr_left fun _ => hR r⟩
  have hsave : ∀ {s' : InMemoryStorage} {saved : Except Exc Unit × DatabaseStorage},
      (∃ db', saved = (.ok (), db') ∧ SameStorage dialect s' db' since) →
      ∃ db', SameStorage dialect s' db' since ∧ ∀ r db'', (r, db'') = saved ↔ r = .ok () ∧ db'' = db' := by
    rintro s' _ ⟨db', rfl, h'⟩
    exact ⟨db', h', fun r db'' => Prod.mk_inj⟩
  cases c with
  | addUser user | saveUser user => exact hsave (h.saveUser hadmits)
  | getUser userId => exact hread fun _ => h.getUser userId
  | getUserByLogin login => exact hread fun _ => h.getUserByLogin login
  | listUsers => exact hread fun _ => h.listUsers
  | hasAdmin => exact hread fun _ => by rw [h.hasAdmin]; rfl
  | addSession session | saveSession session => exact hsave (h.saveSession hadmits)
  | getSessionByTokenHash tokenHash => exact hread fun _ => h.getSessionByTokenHash tokenHash
  | revokeSessionsForUser userId at' =>
    exact ⟨_, h.revokeSessionsForUser userId at', fun _ _ => Iff.rfl⟩
  | addServerNode node | saveServerNode node => exact hsave (h.saveServerNode hadmits)
  | getServerNode nodeId => exact hread fun _ => h.getServerNode nodeId
  | listServerNodes => exact hread fun _ => h.listServerNodes
  | addDevice device | saveDevice device => exact hsave (h.saveDevice hadmits)
  | getDevice deviceId => exact hread fun _ => h.getDevice deviceId
  | listDevicesForUser userId => exact hread fun _ => h.listDevicesForUser userId
  | countDevicesTowardLimit userId => exact hread fun _ => by rw [h.countDevicesTowardLimit]; rfl
  | countActiveDevicesForServer nodeId =>
    exact hread fun _ => by rw [h.countActiveDevicesForServer]; rfl
  | setIssue issue | saveIssue issue =>
    obtain ⟨db', h', hiff⟩ := h.saveIssue hadmits
    exact ⟨db', h', fun r db'' => (hiff _).trans Prod.mk_inj⟩
  | getIssue deviceId => exact hread fun _ => h.getIssue deviceId
  | dropIssue deviceId => exact ⟨_, h.dropIssue deviceId, fun _ _ => Iff.rfl⟩
  | addSetupJob job | saveSetupJob job => exact hsave (h.saveSetupJob hadmits hfits)
  | getSetupJob jobId => exact hread fun _ => h.getSetupJob jobId
  | listSetupJobs => exact hread fun _ => h.listSetupJobs
  | claimNextSetupJob at' currentStep => exact h.claimNextSetupJob at' currentStep hfits
  | transitionSetupJob jobId expectedStatuses value values =>
    exact h.transitionSetupJob jobId expectedStatuses (value :: values) fun cell hcell =>
      hfits cell (List.mem_cons_of_mem _ hcell)
  | addSetupEvent event => exact hsave (h.addSetupEvent hadmits)
  | listSetupEvents jobId => exact hread fun _ => h.listSetupEvents jobId
  | addAuditEntry entry => exact hsave (h.addAuditEntry hadmits)
  | listAuditEntries limit => exact hread fun _ => h.listAuditEntries hadmits
  | recordLoginFailure key at' => exact ⟨_, h.recordLoginFailure key at', fun _ _ => Iff.rfl⟩
  | countLoginFailures key since' =>
    obtain ⟨hcount, h'⟩ := h.countLoginFailures key hadmits
    refine ⟨_, h', fun r db'' => ?_⟩
    rw [DatabaseStorage.Executed, hcount]
    rfl
  | clearLoginFailures key => exact ⟨_, h.clearLoginFailures key, fun _ _ => Iff.rfl⟩

/-- What a call of the database may return whose values fit, and the only database that it may
leave. -/
theorem call (lower : Text → Text) (h : SameStorage dialect s db since) {c : StorageCall}
    (hadmits : s.Admits since c) (hfits : c.Fits dialect lower) :
    ∃ db', SameStorage dialect (s.call lower c).2 db' (c.since since) ∧
      ∀ r db'', db.Call dialect lower c r db'' ↔ r = .ok (s.call lower c).1 ∧ db'' = db' := by
  obtain ⟨db', h', hiff⟩ := h.executed lower hadmits hfits
  refine ⟨db', h', fun r db'' => ?_⟩
  rw [← hiff, DatabaseStorage.Call]
  simp [hfits.runs]

/-- Whatever the calls, the database returns what the memory does. -/
theorem run_iff (h : SameStorage dialect s db since) {calls : List StorageCall}
    (hadmits : s.AdmitsAll lower since calls) (hfits : ∀ c ∈ calls, c.Fits dialect lower)
    {answers : List ((c : StorageCall) × Except Exc c.Ret)} :
    (db.Run dialect lower answers ∧ answers.map Sigma.fst = calls) ↔
      answers = (s.answers lower calls).map fun a => ⟨a.1, .ok a.2⟩ := by
  induction calls generalizing s db since answers with
  | nil =>
    rw [List.map_eq_nil_iff]
    constructor
    · exact fun hrun => hrun.2
    · rintro rfl
      exact ⟨.nil db, rfl⟩
  | cons c calls ih =>
    obtain ⟨hc, hcalls⟩ := hadmits
    obtain ⟨hfit, hfitsAll⟩ := List.forall_mem_cons.mp hfits
    obtain ⟨db', h', hiff⟩ := h.call lower hc hfit
    rw [InMemoryStorage.answers, List.map_cons]
    constructor
    · rintro ⟨hrun, hlist⟩
      cases hrun with
      | nil => cases hlist
      | @cons _ db₁ c₁ r rest hcall hrun =>
        obtain ⟨hfirst, hrest⟩ := List.cons_eq_cons.mp hlist
        change c₁ = c at hfirst
        subst hfirst
        obtain ⟨rfl, rfl⟩ := (hiff _ _).mp hcall
        rw [(ih h' hcalls hfitsAll).mp ⟨hrun, hrest⟩]
    · rintro rfl
      obtain ⟨hrun, hlist⟩ := (ih h' hcalls hfitsAll).mpr rfl
      exact ⟨.cons ((hiff _ _).mpr ⟨rfl, rfl⟩) hrun, by rw [List.map_cons, hlist]⟩

end SameStorage

/-- The empty storages hold the same. -/
theorem sameStorage_empty (dialect : Dialect) : SameStorage dialect {} {} 0 := by
  have hlogged : ∀ {α : Type} (createdAt : α → Time) (metadata : α → Doc),
      Logged createdAt metadata [] := fun _ _ => ⟨.nil, by simp⟩
  constructor <;> simp [Encoded, Distinct, ListDict.items, hlogged]

namespace Sample

def issue : DeviceConfigIssue where
  id := lit "x"
  deviceId := lit "d"
  issuedToUserId := lit "u"
  createdAt := 1
  expiresAt := 9

def setupJob : SetupJob where
  id := lit "j"
  createdByUserId := lit "u"
  serverName := lit "node"
  host := lit "node.example"
  sshPort := 22
  sshUsername := lit "root"
  authMethod := .password
  createdAt := 1
  updatedAt := 1

/-- A user with a session has a job claimed and ended, and an issue replaced; two logins fail. -/
def storageCalls : List StorageCall :=
  [.addUser user, .addSession ⟨lit "s", lit "u", lit "t", 1, 9, 1, none, none, none⟩,
    .addAuditEntry { id := lit "1", action := lit "login", createdAt := 1 },
    .addAuditEntry { id := lit "2", action := lit "logout", createdAt := 2 },
    .listAuditEntries 1, .addSetupJob setupJob, .claimNextSetupJob 3 (lit "check_ssh"),
    .transitionSetupJob (lit "j") [.checkingSsh] (.status .failed) [.finishedAt (some 4)],
    .listSetupJobs, .saveIssue issue, .saveIssue { issue with id := lit "y" }, .getIssue (lit "d"),
    .recordLoginFailure (lit "a") 1, .recordLoginFailure (lit "b") 2, .countLoginFailures (lit "a") 2,
    .countLoginFailures (lit "b") 2, .revokeSessionsForUser (lit "u") 5,
    .getSessionByTokenHash (lit "t")]

end Sample

end VpnControl.Backend
