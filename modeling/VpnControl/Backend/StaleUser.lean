import VpnControl.Backend.UserCalls
import VpnControl.Backend.DeviceFailure
import VpnControl.Lib.EveryInstant

namespace VpnControl.Backend
open Strings Json Effects Prog

variable {ω : Type} {P : Platform ω} {b : Services} {i : Nat}

/-- The user, as it is given, may have one more device. -/
def User.Admits (user : User) (s : Store) : Prop :=
  user.deviceLimitUnlimited = true ∨
    ∀ limit, user.deviceLimit = some limit → (s.countDevicesTowardLimit user.id : Int) < limit

/-- The user, as it is stored, is active and may have one more device. -/
def Store.Admits (s : Store) (userId : Text) : Prop :=
  ∃ user, s.getUser userId = some user ∧ user.isActive = true ∧ user.Admits s

/-- There is a node for the device: the one asked for, or any. -/
def Store.HasNode (s : Store) : Option Text → Prop
  | some nodeId => ∃ node, s.getServerNode nodeId = some node ∧ node.forNewDevices = true
  | none => ∃ node ∈ s.serverNodes.values, node.forNewDevices = true

/-- From `w`, the lock being held, `create` can come to ask an agent for a peer. -/
def AsksForPeer (P : Platform ω) (i : Nat) (user : User) (name : Text) (serverNodeId : Option Text)
    (w : World ω) : Prop :=
  ∃ device node w', Runs (P.seen i) (Services.provision user name serverNodeId) w
    (.ok (device, node)) w'

theorem runs_ask {w w' : World ω} {e : Op} {r : e.Ans} (h : P.effect i w e r w') :
    Runs (P.seen i) (ask e) w (.ok r) w' := by
  refine runs_bind.mpr (.inr ⟨.ok r, w', ?_, runs_lift.mpr ⟨rfl, rfl⟩⟩)
  exact runs_op.mpr ⟨.ok r, w', seen_of_env h, runs_ret.mpr ⟨rfl, rfl⟩⟩

section Runs
variable {w : World ω} {user : User}

theorem runs_enforceLimit (h : user.Admits w.store) :
    Runs (P.seen i) (Services.enforceLimit user) w (.ok ()) w := by
  unfold Services.enforceLimit
  split
  · exact runs_ret.mpr ⟨rfl, rfl⟩
  · rename_i hunlimited
    split
    · exact runs_ret.mpr ⟨rfl, rfl⟩
    · rename_i limit hlimit
      refine runs_bind.mpr (.inr ⟨_, w, runs_ask ⟨rfl, rfl⟩, ?_⟩)
      have hroom := h.resolve_left hunlimited limit hlimit
      rw [if_neg (by omega)]
      exact runs_ret.mpr ⟨rfl, rfl⟩

theorem runs_leastLoaded (best : Option (Nat × ServerNode)) (nodes : List ServerNode)
    (h : best.isSome = true ∨ nodes ≠ []) :
    ∃ node, Runs (P.seen i) (Services.leastLoaded best nodes) w (.ok (some node)) w := by
  induction nodes generalizing best with
  | nil =>
    obtain ⟨⟨count, node⟩, rfl⟩ := Option.isSome_iff_exists.mp (h.resolve_right (by simp))
    exact ⟨node, runs_ret.mpr ⟨rfl, rfl⟩⟩
  | cons node nodes ih =>
    cases best with
    | none =>
      obtain ⟨chosen, hrest⟩ := ih (some (_, node)) (.inl rfl)
      exact ⟨chosen, runs_bind.mpr (.inr ⟨_, w, runs_ask ⟨rfl, rfl⟩, hrest⟩)⟩
    | some best =>
      obtain ⟨chosen, hrest⟩ := ih (some _) (.inl rfl)
      exact ⟨chosen, runs_bind.mpr (.inr ⟨_, w, runs_ask ⟨rfl, rfl⟩, hrest⟩)⟩

theorem runs_chooseNode {serverNodeId : Option Text} (h : w.store.HasNode serverNodeId) :
    ∃ node, Runs (P.seen i) (Services.chooseNode serverNodeId) w (.ok node) w := by
  cases serverNodeId with
  | some nodeId =>
    obtain ⟨node, hnode, hfor⟩ := h
    refine ⟨node, runs_bind.mpr (.inr ⟨node, w, ?_, ?_⟩)⟩
    · refine runs_bind.mpr (.inr ⟨_, w, runs_ask ⟨rfl, rfl⟩, ?_⟩)
      rw [hnode]
      exact runs_ret.mpr ⟨rfl, rfl⟩
    · refine runs_bind.mpr (.inr ⟨(), w, ?_, runs_ret.mpr ⟨rfl, rfl⟩⟩)
      rw [Services.ensureSelectable, if_neg (by simp [hfor])]
      exact runs_ret.mpr ⟨rfl, rfl⟩
  | none =>
    obtain ⟨node, hmem, hfor⟩ := h
    have hcandidates : w.store.listServerNodes.filter (·.forNewDevices) ≠ [] := by
      refine List.ne_nil_of_mem (a := node) (List.mem_filter.mpr ⟨?_, hfor⟩)
      exact (List.mergeSort_perm _ _).symm.subset hmem
    obtain ⟨chosen, hleast⟩ := runs_leastLoaded (P := P) (i := i) (w := w) none _ (.inr hcandidates)
    refine ⟨chosen, runs_bind.mpr (.inr ⟨some chosen, w, ?_, runs_ret.mpr ⟨rfl, rfl⟩⟩)⟩
    refine runs_bind.mpr (.inr ⟨_, w, ?_, hleast⟩)
    exact runs_bind.mpr (.inr ⟨_, w, runs_ask ⟨rfl, rfl⟩, runs_ret.mpr ⟨rfl, rfl⟩⟩)

theorem runs_provision {name : Text} {serverNodeId : Option Text} (hadmits : user.Admits w.store)
    (hnode : w.store.HasNode serverNodeId) : AsksForPeer P i user name serverNodeId w := by
  obtain ⟨node, hchosen⟩ := runs_chooseNode (P := P) (i := i) hnode
  let device : Device :=
    { id := Scenario.freshId w.store, userId := user.id, serverNodeId := node.id
      name := strip name, createdAt := w.now, updatedAt := w.now }
  refine ⟨device, node, { w with store := w.store.saveDevice device }, ?_⟩
  refine runs_bind.mpr (.inr ⟨(), w, runs_enforceLimit hadmits, ?_⟩)
  refine runs_bind.mpr (.inr ⟨node, w, hchosen, ?_⟩)
  refine runs_bind.mpr (.inr ⟨_, w, runs_ask ⟨rfl, rfl⟩, ?_⟩)
  refine runs_bind.mpr (.inr ⟨_, w, runs_ask ⟨Scenario.fresh_freshId w.store, rfl⟩, ?_⟩)
  refine runs_bind.mpr (.inr ⟨(), _, runs_ask rfl, ?_⟩)
  exact runs_ret.mpr ⟨rfl, rfl⟩

end Runs

section Turns
variable {c : Contract (World ω)} {w₀ w : World ω} {user : User}

theorem turn_enforceLimit :
    turn P.kernel c i (Services.enforceLimit user)
      (fun r _ w' => w' = w ∧ (r = .ok () → user.Admits w.store)) w₀ w := by
  unfold Services.enforceLimit
  split
  · rename_i hunlimited
    exact ⟨rfl, fun _ => .inl hunlimited⟩
  · split
    · rename_i hnone
      exact ⟨rfl, fun _ => .inr fun limit hlimit => by simp [hnone] at hlimit⟩
    · rename_i limit hlimit
      apply turn_ask_seq rfl
      · rintro used _ ⟨rfl, rfl⟩
        change turn _ _ _ (if _ then _ else _) _ _ _
        split
        · exact ⟨rfl, by rintro ⟨⟩⟩
        · rename_i hroom
          refine ⟨rfl, fun _ => .inr fun limit' h => ?_⟩
          rw [hlimit, Option.some.injEq] at h
          omega
      · rintro x _ ⟨-, -, rfl⟩
        exact ⟨rfl, by rintro ⟨⟩⟩

theorem turn_leastLoaded (best : Option (Nat × ServerNode)) (nodes : List ServerNode) :
    turn P.kernel c i (Services.leastLoaded best nodes)
      (fun r _ w' => w' = w ∧ ∀ node, r = .ok (some node) → best.isSome = true ∨ nodes ≠ []) w₀ w := by
  cases nodes with
  | nil =>
    refine ⟨rfl, fun node h => .inl ?_⟩
    have hmap : best.map (·.2) = some node := Except.ok.inj h
    rw [← Option.isSome_map, hmap]
    rfl
  | cons node nodes =>
    apply turn_mono (turn_writes (S := []) (Services.writes_leastLoaded best (node :: nodes)))
    rintro r _ w' ⟨-, h⟩
    exact ⟨h.eq, fun _ _ => .inr (by simp)⟩

theorem turn_chooseNode {serverNodeId : Option Text} :
    turn P.kernel c i (Services.chooseNode serverNodeId)
      (fun r _ w' => w' = w ∧ ∀ node, r = .ok node → w.store.HasNode serverNodeId) w₀ w := by
  cases serverNodeId with
  | some nodeId =>
    unfold Services.chooseNode Services.getServer
    simp only [bind_assoc]
    apply turn_ask_seq rfl
    · rintro _ w' ⟨rfl, hw⟩
      subst hw
      cases hfound : w'.store.getServerNode nodeId with
      | none => exact ⟨rfl, by rintro _ ⟨⟩⟩
      | some node =>
        simp only [Services.ensureSelectable, turn_bind, turn_ret]
        split
        · exact ⟨rfl, by rintro _ ⟨⟩⟩
        · rename_i hfor
          exact ⟨rfl, fun _ _ => ⟨node, hfound, by simpa using hfor⟩⟩
    · rintro x _ ⟨-, -, rfl⟩
      exact ⟨rfl, by rintro _ ⟨⟩⟩
  | none =>
    unfold Services.chooseNode Services.pickForNewDevice Services.listAvailable
    simp only [bind_assoc]
    apply turn_ask_seq rfl
    · rintro _ w' ⟨rfl, hw⟩
      -- among the nodes for new devices that are listed the least loaded one is picked
      subst hw
      apply turn_seq (turn_leastLoaded none (w'.store.listServerNodes.filter (·.forNewDevices)))
      · rintro picked w₁ _ ⟨rfl, hpicked⟩
        cases picked with
        | none => exact ⟨rfl, by rintro _ ⟨⟩⟩
        | some node =>
          refine ⟨rfl, fun _ _ => ?_⟩
          obtain ⟨chosen, hmem⟩ := List.exists_mem_of_ne_nil _ ((hpicked node rfl).resolve_left (by simp))
          obtain ⟨hlisted, hfor⟩ := List.mem_filter.mp hmem
          exact ⟨chosen, (List.mergeSort_perm _ _).subset hlisted, hfor⟩
      · rintro x _ _ ⟨rfl, -⟩
        exact ⟨rfl, by rintro _ ⟨⟩⟩
    · rintro x _ ⟨-, -, rfl⟩
      exact ⟨rfl, by rintro _ ⟨⟩⟩

/-- `create` asks an agent exactly if the user it was called with has room and a node is there. -/
theorem asksForPeer_iff {name : Text} {serverNodeId : Option Text} :
    AsksForPeer P i user name serverNodeId w ↔ user.Admits w.store ∧ w.store.HasNode serverNodeId := by
  refine ⟨?_, fun h => runs_provision h.1 h.2⟩
  rintro ⟨device, node, w', h⟩
  rcases runs_bind.mp h with ⟨x, ⟨⟩, -⟩ | ⟨_, w₁, hlimit, h⟩
  rcases runs_bind.mp h with ⟨x, ⟨⟩, -⟩ | ⟨chosen, w₂, hchosen, -⟩
  obtain ⟨_, rfl, hadmits⟩ := hlimit.ends turn_enforceLimit
  obtain ⟨_, -, hnode⟩ := hchosen.ends turn_chooseNode
  exact ⟨hadmits rfl, hnode chosen rfl⟩

end Turns

/-- The record `user` leaves room for one device more than `n`. -/
def User.Allows (user : User) (n : Nat) : Prop :=
  user.deviceLimitUnlimited = true ∨ ∀ limit, user.deviceLimit = some limit → (n : Int) < limit

/-- The user is stored as active and with at least the room of the record `user`. -/
def Store.Upholds (s : Store) (user : User) : Prop :=
  ∃ stored, s.getUser user.id = some stored ∧ stored.isActive = true ∧
    ∀ n, user.Allows n → stored.Allows n

/-- The account calls of one backend process, finished ones included. -/
abbrev Accounts (ω : Type) : Type := Loop (World ω) Op.Res Exc Unit AccountCall

/-- A `create` for the user waits for the storage lock. -/
def AwaitsLock (b : Services) (y : Accounts ω) (user : User) : Prop :=
  ∃ j name serverNodeId client,
    y.running j = some (.device (.create user name serverNodeId client),
      b.accountCall (.device (.create user name serverNodeId client)))

/-- A `create` begins with the user as stored and active, and no admin narrows a user for whom
one waits: neither by disabling it nor by a patch that leaves it less room. -/
def Considerate (b : Services) (y : Accounts ω) : AccountCall → Prop
  | .device (.create user ..) =>
    y.shared.store.getUser user.id = some user ∧ user.isActive = true
  | .setActive _ userId isActive =>
    isActive = true ∨ ∀ user, AwaitsLock b y user → user.id ≠ userId
  | .update _ userId patch => (∃ user, AwaitsLock b y user ∧ user.id = userId) →
    ∀ stored, y.shared.store.getUser userId = some stored →
      ∀ n, stored.Allows n → (patchUser stored [] patch).1.Allows n
  | _ => True

/-- The rest of the backend: it has no part in the users. -/
def LeavesUsers (w w' : World ω) : Prop := w'.store.users = w.store.users

/-- A step in which the call that starts, if one does, is considerate. -/
def ConsiderateStep (P : Platform ω) (b : Services) (y y' : Accounts ω) : Prop :=
  Loop.Step P.kernel LeavesUsers b.accountCall y y' ∧
    ∀ i call, y.running i = none → y'.running i = some (call, b.accountCall call) →
      Considerate b y call

section Upheld
variable {s s' : Store} {user stored : User}

theorem upholds_congr (h : s'.users = s.users) : s'.Upholds user ↔ s.Upholds user := by
  simp only [Store.Upholds, Store.getUser, h]

theorem admits_of_upholds (h : s.Upholds user) (hadmits : user.Admits s) : s.Admits user.id := by
  obtain ⟨stored, hstored, hactive, hroom⟩ := h
  have hid : stored.id = user.id := Table.key_of_get hstored
  refine ⟨stored, hstored, hactive, ?_⟩
  rw [User.Admits, hid]
  exact hroom _ hadmits

/-- A record is saved that stays active and keeps the room of the one it replaces. -/
theorem upholds_saveUser (h : s.Upholds user) (hstored : ∀ old, s.getUser stored.id = some old →
      old.isActive = true → stored.id = user.id →
      stored.isActive = true ∧ ∀ n, old.Allows n → stored.Allows n) :
    (s.saveUser stored).Upholds user := by
  obtain ⟨old, hold, hactive, hroom⟩ := h
  by_cases hid : user.id = stored.id
  · obtain ⟨hnew, hallows⟩ := hstored old (hid ▸ hold) hactive hid.symm
    exact ⟨stored, hid ▸ Table.get_put_self _ _, hnew, fun n hn => hallows n (hroom n hn)⟩
  · exact ⟨old, (Table.get_put_of_ne _ hid).trans hold, hactive, hroom⟩

end Upheld

section Instants
variable {α β : Type} {I : World ω → Prop} {w : World ω}

theorem always_ask_seq {e : Op} {f : e.Ans → Task β} (hI : I w)
    (hok : ∀ r w', P.effect i w e r w' → always (P.env i) I (f r) w')
    (herr : ∀ x w', P.failure w e x w' → I w') : always (P.env i) I (ask e >>= f) w := by
  refine ⟨hI, fun r w' hr => ?_⟩
  cases r with
  | ok a => exact hok a w' hr
  | error x => exact herr x w' hr

/-- What depends on the users only holds all through a task that leaves them alone. -/
theorem always_of_users (hcongr : ∀ w w' : World ω, w'.store.users = w.store.users → I w → I w')
    {p : Task α} (hp : p.Uses fun e => e.writes ≠ some .users) (hI : I w) :
    always (P.env i) I p w := by
  refine always_uses (fun w e r w' he hr hI => hcongr w w' ?_ hI) hp hI
  cases r with
  | ok a => exact (effect_frame hr).2 .users he
  | error x => exact (failure_frame hr).2 .users he

theorem always_bind_ret {p : Task α} {a : β} (h : always (P.env i) I p w) :
    always (P.env i) I (p >>= fun _ => ret a) w :=
  always_bind h (always_end h) fun _ _ h => h

/-- Through an update every user for whom a `create` waits stays upheld. -/
theorem always_updateUser {A : User → Prop} {actor : User} {userId : Text} {patch : List UserPatch}
    {w : World ω} (hI : ∀ user, A user → w.store.Upholds user)
    (hpatch : (∃ user, A user ∧ user.id = userId) → ∀ stored, w.store.getUser userId = some stored →
      ∀ n, stored.Allows n → (patchUser stored [] patch).1.Allows n) :
    always (P.env i) (fun w => ∀ user, A user → w.store.Upholds user)
      (Services.updateUser actor userId patch) w := by
  unfold Services.updateUser Services.getUser
  simp only [bind_assoc]
  refine always_ask_seq hI ?_ ?_
  swap
  · rintro x _ ⟨-, -, rfl⟩
    exact hI
  rintro _ w' ⟨rfl, hw⟩
  subst hw
  cases hfound : w'.store.getUser userId with
  | none => exact hI
  | some stored =>
    have hid : stored.id = userId := Table.key_of_get hfound
    change always _ _ (if _ then _ else _) _
    split
    · exact hI
    refine always_ask_seq hI ?_ ?_
    swap
    · rintro x _ ⟨-, -, rfl⟩
      exact hI
    rintro now v ⟨-, hv⟩
    subst hv
    refine always_ask_seq hI ?_ ?_
    swap
    · rintro x _ ⟨-, -, rfl⟩
      exact hI
    rintro _ _ rfl
    -- the user is saved here; audit and answer leave the users alone
    refine always_of_users (fun w w' h hI user huser => (upholds_congr h).mpr (hI user huser))
      (uses_of_writes (writes_bind (S := [.audit]) (writes_auditLog (by simp)) fun _ => writes_ret _)
        (by simp)) fun user huser => upholds_saveUser (hI user huser) fun old hold hactive hsame => ?_
    change v.store.getUser (patchUser stored [] patch).1.id = some old at hold
    change (patchUser stored [] patch).1.id = user.id at hsame
    rw [patchUser_id, hid] at hold hsame
    rw [hfound, Option.some.injEq] at hold
    subst hold
    exact ⟨(patchUser_isActive stored [] patch).trans hactive,
      hpatch ⟨user, huser, hsame.symm⟩ stored hfound⟩

/-- Through a change of the active flag that disables none of the users for whom a `create`
waits, these stay upheld. -/
theorem always_setActive {A : User → Prop} {actor : User} {userId : Text} {isActive : Bool}
    {w : World ω} (hI : ∀ user, A user → w.store.Upholds user)
    (hactive : isActive = true ∨ ∀ user, A user → user.id ≠ userId) :
    always (P.env i) (fun w => ∀ user, A user → w.store.Upholds user)
      (Services.setActive actor userId isActive) w := by
  unfold Services.setActive Services.getUser
  simp only [bind_assoc]
  refine always_ask_seq hI ?_ ?_
  swap
  · rintro x _ ⟨-, -, rfl⟩
    exact hI
  rintro _ w' ⟨rfl, hw⟩
  subst hw
  cases hfound : w'.store.getUser userId with
  | none => exact hI
  | some stored =>
    have hid : stored.id = userId := Table.key_of_get hfound
    change always _ _ (if _ then _ else _) _
    split
    · exact hI
    split
    · exact hI
    refine always_ask_seq hI ?_ ?_
    swap
    · rintro x _ ⟨-, -, rfl⟩
      exact hI
    rintro now v ⟨-, hv⟩
    subst hv
    refine always_ask_seq hI ?_ ?_
    swap
    · rintro x _ ⟨-, -, rfl⟩
      exact hI
    rintro _ _ rfl
    -- the user is saved here; dropping sessions and the audit leave the users alone
    refine always_of_users (fun w w' h hI user huser => (upholds_congr h).mpr (hI user huser))
      (uses_of_writes (S := [.sessions, .audit]) (writes_bind (writes_dropSessions (by simp)) fun _ =>
        writes_bind (writes_auditLog (by simp)) fun _ => writes_ret _) (by simp))
      fun user huser => upholds_saveUser (hI user huser) fun old hold _ hsame => ?_
    change v.store.getUser stored.id = some old at hold
    change stored.id = user.id at hsame
    rw [hid, hfound, Option.some.injEq] at hold
    subst hold
    refine ⟨hactive.resolve_right fun h => h user huser (hsame.symm.trans hid), fun n hn => hn⟩

end Instants

/-- What considerate steps preserve. -/
structure Accounts.Kept (P : Platform ω) (b : Services) (y : Accounts ω) : Prop where
  upheld : ∀ user, AwaitsLock b y user → y.shared.store.Upholds user
  quiet : ∀ j call p, y.running j = some (.device call, p) → p.Uses fun e => e.writes ≠ some .users
  begun : ∀ j user name serverNodeId client p,
    y.running j = some (.device (.create user name serverNodeId client), p) →
      p = b.accountCall (.device (.create user name serverNodeId client)) ∨
        p.Uses fun e => e ≠ .acquire
  -- the calls of an admin have no await
  prompt : ∀ j call p, y.running j = some (call, p) → (∃ d, call = .device d) ∨
    p.Uses fun e => e.suspends = false
  rest : ∀ j call p, y.active ≠ some j → y.running j = some (call, p) →
    p.atRest Op.suspends = true
  turn : ∀ j call p, y.active = some j → y.running j = some (call, p) →
    always (P.env j) (fun w => ∀ user, AwaitsLock b y user → w.store.Upholds user) p y.shared

section Steps
variable {y y' : Accounts ω} {w : World ω} {call : AccountCall} {p : Task Unit} {user : User}

theorem uses_create (user : User) (name : Text) (serverNodeId : Option Text)
    (client : ClientMeta) : ∃ k,
    b.accountCall (.device (.create user name serverNodeId client)) = .op .acquire k ∧
      ∀ r, (k r).Uses fun e => e ≠ .acquire := by
  obtain ⟨body, hbody, hwithin⟩ := Locked.create_locked (b := b) user client name serverNodeId
  have hcall : b.accountCall (.device (.create user name serverNodeId client)) =
      ((withStorageLock body >>= fun r => ret (.created r.1 r.2) : Task DeviceReply) >>=
        fun _ => ret ()) := by
    rw [← hbody]
    rfl
  refine ⟨_, hcall.trans rfl, ?_⟩
  rintro (x | _)
  · trivial
  · have hlock : ∀ e : Op, e.writes ≠ some .lock → e ≠ .acquire := by
      rintro _ h rfl
      exact h rfl
    have hsection : (tryFinally body (ask .release)).Uses fun e => e ≠ .acquire :=
      uses_bind (uses_attempt (Uses.mono (uses_of_within hwithin (by simp)) hlock)) fun r =>
        uses_bind (uses_bind (uses_perform (by simp)) fun r => uses_lift r) fun _ => uses_lift r
    exact uses_bind (uses_bind hsection fun _ => trivial) fun _ => trivial

theorem not_uses_create {name : Text} {serverNodeId : Option Text} {client : ClientMeta} :
    ¬ (b.accountCall (.device (.create user name serverNodeId client))).Uses
      fun e => e ≠ .acquire := by
  obtain ⟨k, hk, -⟩ := uses_create (b := b) user name serverNodeId client
  rw [hk]
  exact fun h => h.1 rfl

theorem uses_accountCall_device (call : DeviceCall) :
    (b.accountCall (.device call)).Uses fun e => e.writes ≠ some .users :=
  uses_bind (uses_of_within (Locked.within_deviceCall call) (by simp)) fun _ => trivial

/-- Who waits after a task was put: who waited before, or the task itself, at its beginning. -/
theorem awaitsLock_put (h : AwaitsLock b (y.put P.kernel w i call p) user) :
    AwaitsLock b y user ∨ ∃ name serverNodeId client,
      call = .device (.create user name serverNodeId client) ∧ p = b.accountCall call := by
  obtain ⟨j, name, serverNodeId, client, hj⟩ := h
  by_cases hji : j = i
  · subst hji
    rw [y.put_running_self, Option.some.injEq, Prod.mk.injEq] at hj
    obtain ⟨rfl, rfl⟩ := hj
    exact .inr ⟨name, serverNodeId, client, rfl, rfl⟩
  · rw [y.put_running_of_ne _ _ _ _ hji] at hj
    exact .inl ⟨j, name, serverNodeId, client, hj⟩

theorem kept_put (h : Accounts.Kept P b y) (hturn : y.active = none ∨ y.active = some i)
    (hquiet : ∀ d, call = .device d → p.Uses fun e => e.writes ≠ some .users)
    (hbegun : ∀ user name serverNodeId client,
      call = .device (.create user name serverNodeId client) →
        p = b.accountCall call ∨ p.Uses fun e => e ≠ .acquire)
    (hprompt : (∃ d, call = .device d) ∨ p.Uses fun e => e.suspends = false)
    (hI : always (P.env i) (fun v => ∀ user, AwaitsLock b (y.put P.kernel w i call p) user →
      v.store.Upholds user) p w) : Accounts.Kept P b (y.put P.kernel w i call p) := by
  have hself := y.put_running_self P.kernel w i call p
  have hother : ∀ {j}, j ≠ i → (y.put P.kernel w i call p).running j = y.running j :=
    fun hj => y.put_running_of_ne _ _ _ _ hj
  -- for each part: the task that was put, and the others as they were
  constructor
  · exact always_start hI
  · intro j d q hq
    by_cases hj : j = i
    · subst hj
      rw [hself, Option.some.injEq, Prod.mk.injEq] at hq
      exact hq.2 ▸ hquiet d hq.1
    · exact h.quiet j d q (hother hj ▸ hq)
  · intro j user name serverNodeId client q hq
    by_cases hj : j = i
    · subst hj
      rw [hself, Option.some.injEq, Prod.mk.injEq] at hq
      obtain ⟨rfl, rfl⟩ := hq
      exact hbegun user name serverNodeId client rfl
    · exact h.begun j user name serverNodeId client q (hother hj ▸ hq)
  · intro j d q hq
    by_cases hj : j = i
    · subst hj
      rw [hself, Option.some.injEq, Prod.mk.injEq] at hq
      obtain ⟨rfl, rfl⟩ := hq
      exact hprompt
    · exact h.prompt j d q (hother hj ▸ hq)
  -- it rests at an operation that suspends only if it gave up its turn
  · intro j d q hj hq
    by_cases hji : j = i
    · subst hji
      rw [hself, Option.some.injEq, Prod.mk.injEq] at hq
      obtain ⟨rfl, rfl⟩ := hq
      by_contra hp
      refine hj ?_
      change Loop.turnOf Op.suspends _ _ = _
      rw [Loop.turnOf, if_neg hp]
    · refine h.rest j d q ?_ (hother hji ▸ hq)
      rcases hturn with hnone | hmine
      · simp [hnone]
      · simpa [hmine] using Ne.symm hji
  -- the task whose turn it still is, is the one that was put
  · intro j d q hj hq
    have hij : i = j := by
      change Loop.turnOf _ _ _ = _ at hj
      rw [Loop.turnOf] at hj
      split at hj
      · cases hj
      · exact Option.some.inj hj
    subst hij
    rw [hself, Option.some.injEq, Prod.mk.injEq] at hq
    obtain ⟨rfl, rfl⟩ := hq
    exact hI

theorem kept_start (h : Accounts.Kept P b y) (hturn : y.active = none) (hcall : Considerate b y call) :
    Accounts.Kept P b (y.put P.kernel y.shared i call (b.accountCall call)) := by
  have hwaiting : ∀ user,
      AwaitsLock b (y.put P.kernel y.shared i call (b.accountCall call)) user →
        y.shared.store.Upholds user := by
    intro user huser
    rcases awaitsLock_put huser with hwaits | ⟨name, serverNodeId, client, rfl, -⟩
    · exact h.upheld user hwaits
    · exact ⟨user, hcall.1, hcall.2, fun _ hn => hn⟩
  have hbefore : (∀ d, call ≠ .device d) → ∀ user,
      AwaitsLock b (y.put P.kernel y.shared i call (b.accountCall call)) user → AwaitsLock b y user := by
    intro hnot user huser
    exact (awaitsLock_put huser).resolve_right fun ⟨_, _, _, hd, _⟩ => hnot _ hd
  refine kept_put h (.inl hturn) ?_ (fun _ _ _ _ _ => .inl rfl) ?_ ?_
  · rintro d rfl
    exact uses_accountCall_device d
  · cases call with
    | device d => exact .inl ⟨d, rfl⟩
    | update actor userId patch =>
      exact .inr (uses_bind (Uses.mono writes_updateUser fun _ he => he.1) fun _ => trivial)
    | setActive actor userId isActive =>
      exact .inr (uses_bind (Uses.mono writes_setActive fun _ he => he.1) fun _ => trivial)
  · cases call with
    | device d =>
      exact always_of_users (fun w w' hw hI user huser => (upholds_congr hw).mpr (hI user huser))
        (uses_accountCall_device d) hwaiting
    | update actor userId patch =>
      refine always_bind_ret (always_updateUser hwaiting ?_)
      rintro ⟨user, huser, hid⟩
      exact hcall ⟨user, hbefore (by simp) user huser, hid⟩
    | setActive actor userId isActive =>
      refine always_bind_ret (always_setActive hwaiting ?_)
      exact hcall.imp_right fun h user huser => h user (hbefore (by simp) user huser)

theorem kept_act {e : Op} {k : e.Res → Task Unit} {r : e.Res} (h : Accounts.Kept P b y)
    (hi : y.running i = some (call, .op e k)) (hturn : y.active = none ∨ y.active = some i)
    (hact : P.env i y.shared e r w) : Accounts.Kept P b (y.put P.kernel w i call (k r)) := by
  -- a create that has taken its first step no longer asks for the lock
  have hbegun : ∀ user name serverNodeId client,
      call = .device (.create user name serverNodeId client) → (k r).Uses fun e => e ≠ .acquire := by
    rintro user name serverNodeId client rfl
    rcases h.begun i user name serverNodeId client _ hi with hp | hp
    · obtain ⟨k', hk', huses⟩ := uses_create (b := b) user name serverNodeId client
      rw [hk'] at hp
      cases hp
      exact huses r
    · exact hp.2 r
  -- so whoever waits for it now waited before
  have hbefore : ∀ user, AwaitsLock b (y.put P.kernel w i call (k r)) user → AwaitsLock b y user := by
    intro user huser
    refine (awaitsLock_put huser).resolve_right ?_
    rintro ⟨name, serverNodeId, client, rfl, hp⟩
    exact not_uses_create (hp ▸ hbegun user name serverNodeId client rfl)
  refine kept_put h hturn ?_ (fun user name serverNodeId client hd =>
    .inr (hbegun user name serverNodeId client hd)) ?_ ?_
  · rintro d rfl
    exact (h.quiet i d _ hi).2 r
  · exact (h.prompt i call _ hi).imp_right fun hp => hp.2 r
  · rcases hturn with hnone | hmine
    -- a turn begins: the task is a call of the devices, which writes no user
    · have hwait : e.suspends = true := h.rest i call _ (by simp [hnone]) hi
      obtain ⟨d, rfl⟩ := (h.prompt i call _ hi).resolve_right fun hp => by
        rw [hp.1] at hwait
        cases hwait
      have hquiet := h.quiet i d _ hi
      have hall : always (P.env i) (fun v => ∀ user, AwaitsLock b y user → v.store.Upholds user)
          (.op e k) y.shared :=
        always_of_users (fun w w' hw hI user huser => (upholds_congr hw).mpr (hI user huser))
          hquiet h.upheld
      exact always_mono (hall.2 r w hact) fun v hv user huser => hv user (hbefore user huser)
    · exact always_mono ((h.turn i call _ hmine hi).2 r w hact) fun v hv user huser =>
        hv user (hbefore user huser)

theorem kept_step (h : Accounts.Kept P b y) (hstep : ConsiderateStep P b y y') : Accounts.Kept P b y' := by
  obtain ⟨hstep, hstarted⟩ := hstep
  cases hstep with
  | start i call hi hturn =>
    exact kept_start h hturn (hstarted i call hi (y.put_running_self ..))
  | act hi hturn hact => exact kept_act h hi hturn hact
  | tick hturn htick =>
    refine ⟨fun user huser => (upholds_congr htick).mpr (h.upheld user huser), h.quiet, h.begun,
      h.prompt, h.rest, fun j call p hj _ => ?_⟩
    rw [hturn] at hj
    cases hj

end Steps

/-- In every run in which each `create` begins with the user as stored and active, and in which no
admin disables or narrows a user for whom one waits: where it gets the lock, it comes to ask an
agent for a peer only if the stored user is active and has room for one more device. -/
theorem asks_only_if_admitted {w w' : World ω} {y : Accounts ω} {user : User} {name : Text}
    {serverNodeId : Option Text} {client : ClientMeta}
    (hrun : Relation.ReflTransGen (ConsiderateStep P b) { shared := w } y)
    (hwaits : y.running i = some (.device (.create user name serverNodeId client),
      b.accountCall (.device (.create user name serverNodeId client))))
    (hacquired : P.effect i y.shared .acquire () w')
    (hasks : AsksForPeer P i user name serverNodeId w') : w'.store.Admits user.id := by
  have hkept : Accounts.Kept P b y := by
    clear hwaits hacquired
    induction hrun with
    | refl =>
      refine ⟨?_, ?_, ?_, ?_, ?_, ?_⟩
      · rintro user ⟨j, name, serverNodeId, client, hj⟩
        cases hj
      all_goals intros; contradiction
    | tail _ hstep ih => exact kept_step ih hstep
  have hupheld := hkept.upheld user ⟨i, name, serverNodeId, client, hwaits⟩
  obtain ⟨-, rfl⟩ := hacquired
  exact admits_of_upholds hupheld (asksForPeer_iff.mp hasks).1

/-- Another user with room for one device, and an admin. -/
def otherUser : User := { Sample.user with id := lit "v", login := lit "other" }

def admin : User := { Sample.user with id := lit "a", login := lit "admin", role := .admin }

def threeUsers : World Unit :=
  { store := (Sample.store.saveUser otherUser).saveUser admin, agents := () }

def createPhone : AccountCall := .device (.create Sample.user (lit "phone") (some (lit "n")) {})

/-- The moves of a schedule, from one state to another. -/
def playAccounts (moves : List (Move AccountCall (Option Exc))) (y : Accounts Unit) : Accounts Unit :=
  Loop.play (Sample.scenario .database).platform.kernel (Sample.scenario .database).answer
    Sample.services.accountCall moves y

/-- A schedule that starts nothing. -/
theorem considerate_playActs (acts : List (Nat × Option Exc)) (y : Accounts Unit) :
    Relation.ReflTransGen (ConsiderateStep (Sample.scenario .database).platform Sample.services) y
      (playAccounts (acts.map fun a => .act a.1 a.2) y) := by
  have hanswer : ∀ i fault w e r w', (Sample.scenario .database).answer i fault w e = some (r, w') →
      (Sample.scenario .database).platform.env i w e r w' :=
    fun i fault _ _ _ _ h => (Sample.scenario .database).answer_env i fault h
  refine Relation.ReflTransGen.mono ?_ _ _
    (Loop.play_acts hanswer LeavesUsers Sample.services.accountCall acts y)
  rintro y y' ⟨hstep, hnone⟩
  refine ⟨hstep, fun i call hi hi' => ?_⟩
  rw [hnone i hi] at hi'
  cases hi'

/-- The start of one call, where no other has the turn. -/
theorem playAccounts_start {j : Nat} {call : AccountCall} {y : Accounts Unit}
    (hj : y.running j = none) (hturn : y.active = none) : playAccounts [.start j call] y =
      y.put (Sample.scenario .database).platform.kernel y.shared j call
        (Sample.services.accountCall call) := by
  simp only [playAccounts, Loop.play, hj, hturn]

theorem considerate_playStart {j : Nat} {call : AccountCall} {y : Accounts Unit}
    (hj : y.running j = none) (hturn : y.active = none)
    (hcall : Considerate Sample.services y call) :
    ConsiderateStep (Sample.scenario .database).platform Sample.services y
      (playAccounts [.start j call] y) := by
  rw [playAccounts_start hj hturn]
  refine ⟨.start j call hj hturn, fun i call' hi hi' => ?_⟩
  by_cases hij : i = j
  · subst hij
    rw [y.put_running_self, Option.some.injEq, Prod.mk.injEq] at hi'
    exact hi'.1 ▸ hcall
  · rw [y.put_running_of_ne _ _ _ _ hij, hi] at hi'
    cases hi'

/-- A user waits for the lock behind another user's device. -/
def phoneWaits : Accounts Unit :=
  playAccounts [.start 1 createPhone]
    (playAccounts ((List.replicate 8 (0, none)).map fun a => .act a.1 a.2)
      (playAccounts [.start 0 (.device (.create otherUser (lit "tablet") (some (lit "n")) {}))]
        { shared := threeUsers }))

/-- Meanwhile an admin makes a call; then the other device is issued and the lock is free. -/
def calledMeanwhile (call : AccountCall) : Accounts Unit :=
  playAccounts ((List.replicate 20 (2, none) ++ List.replicate 20 (0, none)).map
    fun a : Nat × Option Exc => .act a.1 a.2) (playAccounts [.start 2 call] phoneWaits)

section Meanwhile
variable (call : AccountCall)

theorem calledMeanwhile_reachable :
    Relation.ReflTransGen (Loop.Step (Sample.scenario .database).platform.kernel LeavesUsers
      Sample.services.accountCall) { shared := threeUsers } (calledMeanwhile call) := by
  have hplay : ∀ moves y, Relation.ReflTransGen (Loop.Step
      (Sample.scenario .database).platform.kernel LeavesUsers Sample.services.accountCall) y
      (playAccounts moves y) := (Sample.scenario .database).play_reachable _ _
  exact .trans (.trans (.trans (.trans (hplay _ _) (hplay _ _)) (hplay _ _)) (hplay _ _)) (hplay _ _)

/-- The user still waits. -/
theorem running_calledMeanwhile : (calledMeanwhile call).running 1 =
    some (createPhone, Sample.services.accountCall createPhone) := by
  have hacts : ∀ m ∈ (List.replicate 20 (2, none) ++ List.replicate 20 (0, none)).map
      fun a : Nat × Option Exc => (.act a.1 a.2 : Move AccountCall (Option Exc)), m.task ≠ 1 := by
    simp [Move.task]
  refine (Loop.play_running_of_ne hacts).trans ?_
  refine (Loop.play_running_of_ne (by simp [Move.task])).trans ?_
  rw [phoneWaits, playAccounts_start (by decide +kernel) (by decide +kernel)]
  exact Loop.put_running_self ..

variable {call}

theorem asks_calledMeanwhile
    (hused : (calledMeanwhile call).shared.store.countDevicesTowardLimit (lit "u") = 0)
    (hnode : ((calledMeanwhile call).shared.store.getServerNode (lit "n")).any
      (·.forNewDevices) = true) :
    AsksForPeer (Sample.scenario .database).platform 1 Sample.user (lit "phone") (some (lit "n"))
      { (calledMeanwhile call).shared with lock := some 1 } := by
  refine runs_provision (.inr fun limit hlimit => ?_) ((Option.any_eq_true _ _).mp hnode)
  have hlimit : limit = 1 := (Option.some.inj hlimit).symm
  change (((calledMeanwhile call).shared.store.countDevicesTowardLimit (lit "u") : Nat) : Int) < limit
  omega

end Meanwhile

/-- An admin gives the user room for another device while it waits for the lock. -/
theorem asks_only_if_admitted_widened :
    let y := calledMeanwhile (.update admin (lit "u") [.deviceLimit (some 2)])
    y.shared.lock = none ∧
      AsksForPeer (Sample.scenario .database).platform 1 Sample.user (lit "phone") (some (lit "n"))
        { y.shared with lock := some 1 } ∧
      y.shared.store.Admits (lit "u") := by
  intro y
  have hphone : Relation.ReflTransGen
      (ConsiderateStep (Sample.scenario .database).platform Sample.services)
      { shared := threeUsers } phoneWaits := by
    refine .tail (.trans (.single (considerate_playStart rfl rfl ?_)) (considerate_playActs _ _))
      (considerate_playStart (by decide +kernel) (by decide +kernel) ?_)
    · exact ⟨by decide +kernel, rfl⟩
    · exact ⟨by decide +kernel, rfl⟩
  have hrun : Relation.ReflTransGen
      (ConsiderateStep (Sample.scenario .database).platform Sample.services)
      { shared := threeUsers } y := by
    refine .trans (.tail hphone (considerate_playStart (by decide +kernel) (by decide +kernel) ?_))
      (considerate_playActs _ _)
    intro _ stored hstored n hn
    have hphone : phoneWaits.shared.store.getUser (lit "u") = some Sample.user := by decide +kernel
    rw [hphone, Option.some.injEq] at hstored
    subst hstored
    refine .inr fun limit hlimit => ?_
    have hone := hn.resolve_left (by decide) 1 rfl
    have htwo : (patchUser Sample.user [] [.deviceLimit (some 2)]).1.deviceLimit = some 2 := by
      decide +kernel
    rw [htwo, Option.some.injEq] at hlimit
    omega
  have hfree : y.shared.lock = none := by decide +kernel
  have hasks := @asks_calledMeanwhile (.update admin (lit "u") [.deviceLimit (some 2)])
    (by decide +kernel) (by decide +kernel)
  have hacquired : (Sample.scenario .database).platform.effect 1 y.shared .acquire ()
      { y.shared with lock := some 1 } := ⟨hfree, rfl⟩
  have hadmits := asks_only_if_admitted hrun (running_calledMeanwhile _) hacquired hasks
  exact ⟨hfree, hasks, hadmits⟩

/-- The user is disabled while it waits for the lock. -/
theorem asks_for_disabled_user :
    let y := calledMeanwhile (.setActive admin (lit "u") false)
    Relation.ReflTransGen (Loop.Step (Sample.scenario .database).platform.kernel LeavesUsers
      Sample.services.accountCall) { shared := threeUsers } y ∧
    y.running 1 = some (createPhone, Sample.services.accountCall createPhone) ∧
    y.shared.lock = none ∧
    AsksForPeer (Sample.scenario .database).platform 1 Sample.user (lit "phone") (some (lit "n"))
      { y.shared with lock := some 1 } ∧
    ¬ y.shared.store.Admits (lit "u") := by
  intro y
  refine ⟨calledMeanwhile_reachable _, running_calledMeanwhile _, by decide +kernel, ?_, ?_⟩
  · exact asks_calledMeanwhile (by decide +kernel) (by decide +kernel)
  · rintro ⟨user, huser, hactive, -⟩
    have hdisabled : (y.shared.store.getUser (lit "u")).map (·.isActive) = some false := by
      decide +kernel
    rw [huser, Option.map_some, hactive] at hdisabled
    cases hdisabled

end VpnControl.Backend
