import VpnControl.Backend.JobLifecycle
import VpnControl.Backend.UnderLock

namespace VpnControl.Backend
open Strings Json Effects Prog Function

variable {ω : Type} {D : Deployment ω} {managed : Text → Prop} {i : Nat} {C₀ C : Cluster ω}
  {α β : Type}

/-- The patch leaves it alone whether the node is available. -/
def KeepsAvailability (patch : List ServerPatch) : Prop :=
  ∀ value, ServerPatch.isAvailableForNewDevices value ∉ patch

section Turns

/-- A task that has no part in jobs, secrets and nodes. -/
theorem turn_within {S : List Part} {p : Task α} (hp : Within S p) (hjobs : .jobs ∉ S)
    (hsecrets : .secrets ∉ S) (hnodes : .nodes ∉ S) (hC : Kept D managed i (fun _ => True) C₀ C) :
    turn D.parallel (setupContract D managed) i p (fun _ => Kept D managed i fun _ => True) C₀ C := by
  refine turn_preemptive (I := fun _ => True) (fun _ _ _ _ => trivial) ?_ hp hC.1 trivial
  intro C e r C' he hinv _ hstep
  have hadmissible : Admissible D managed i C e := by
    cases e with
    | putSecret => exact absurd (he .secrets rfl) hsecrets
    | saveSetupJob | transitionSetupJob => exact absurd (he .jobs rfl) hjobs
    | saveServerNode | assignNode => exact absurd (he .nodes rfl) hnodes
    | _ => trivial
  exact ⟨leaves_step hinv hadmissible hstep, trivial⟩

namespace Services

theorem patch_availability {node node' : ServerNode} {field : ServerPatch} {name : Text}
    (h : node.patch field = (name, some node')) (hfield : ∀ value, field ≠ .isAvailableForNewDevices value) :
    node'.id = node.id ∧ node'.isAvailableForNewDevices = node.isAvailableForNewDevices := by
  cases field with
  | isAvailableForNewDevices value => exact absurd rfl (hfield value)
  | agentSecret => cases h
  | _ =>
    have hnode := (Prod.mk.inj h).2
    split at hnode
    · cases hnode
    · cases hnode
      exact ⟨rfl, rfl⟩

theorem turn_patchServer {node : ServerNode} {changed : List Text} {patch : List ServerPatch}
    (hpatch : managed node.id → KeepsAvailability patch)
    (hC : Kept D managed i (Snapshot managed node) C₀ C) :
    turn D.parallel (setupContract D managed) i (patchServer node changed patch)
      (fun r C₀ C => Kept D managed i (fun _ => True) C₀ C ∧ ∀ node' changed',
        r = .ok (node', changed') → Snapshot managed node' C) C₀ C := by
  -- over the fields of the patch; only one of them can open the node
  induction patch generalizing node changed C₀ C with
  | nil =>
    refine ⟨hC.forget, ?_⟩
    rintro _ _ ⟨⟩
    exact hC.2
  | cons field patch ih =>
    have hrest : ∀ {node' : ServerNode}, node'.id = node.id →
        managed node'.id → KeepsAvailability patch :=
      fun hid hm value hmem => hpatch (hid ▸ hm) value (List.mem_cons_of_mem _ hmem)
    cases field with
    | agentSecret value =>
      change turn _ _ _ (if _ then _ else _) _ _ _
      split
      · refine turn_plain_seq (lasting_snapshot node) (plain_ask rfl) hC (fun sealed C₀ C hC => ?_)
          fun x C₀ C hC => ⟨hC.forget, by rintro _ _ ⟨⟩⟩
        exact ih (hrest rfl) ⟨hC.1, hC.2.congr rfl rfl⟩
      · exact ih (hrest rfl) ⟨hC.1, hC.2.congr rfl rfl⟩
    | isAvailableForNewDevices value =>
      have hfree : ¬ managed node.id := fun hm => hpatch hm value (by simp)
      have hany : ∀ {node' : ServerNode}, node'.id = node.id → Snapshot managed node' C :=
        fun hid => ⟨by rw [hid]; exact hC.2.stored, fun hm => absurd (hid ▸ hm) hfree⟩
      unfold patchServer
      split
      · exact ih (hrest rfl) hC
      · rename_i fieldName next hnode
        have hid : next.id = node.id := by
          have hnode := (Prod.mk.inj hnode).2
          split at hnode
          · cases hnode
          · cases hnode
            rfl
        exact ih (hrest hid) ⟨hC.1, hany hid⟩
    | _ =>
      unfold patchServer
      split
      · exact ih (hrest rfl) hC
      · rename_i hnode
        obtain ⟨hid, havailable⟩ := patch_availability hnode (by simp)
        exact ih (hrest hid) ⟨hC.1, hC.2.congr hid havailable⟩

theorem turn_updateServer {actor : User} {nodeId : Text} {patch : List ServerPatch}
    (hpatch : managed nodeId → KeepsAvailability patch)
    (hC : Kept D managed i (fun _ => True) C₀ C) :
    turn D.parallel (setupContract D managed) i (updateServer actor nodeId patch)
      (fun _ => Kept D managed i fun _ => True) C₀ C := by
  refine turn_seq (turn_getServer lasting_true hC) ?_ fun x C₀ C h => h.1
  rintro node C₀ C ⟨hC, hnode⟩
  obtain ⟨rfl, hsnapshot⟩ := hnode node rfl
  refine turn_seq (turn_patchServer hpatch ⟨hC.1, hsnapshot⟩) ?_ fun x C₀ C h => h.1
  rintro ⟨patched, changed⟩ C₀ C ⟨hC, hpatched⟩
  have hpatched := hpatched patched changed rfl
  change turn _ _ _ (if _ then _ else _) _ _ _
  split
  · exact hC
  · refine turn_plain_seq (lasting_snapshot patched) (plain_ask rfl) ⟨hC.1, hpatched⟩
      (fun now C₀ C hC => ?_) fun x C₀ C hC => hC.forget
    refine turn_seq (turn_saveNode lasting_true ⟨hC.1, hC.2.congr rfl rfl, trivial⟩) ?_
      fun x C₀ C h => h.forget
    exact fun _ C₀ C hC => turn_plain lasting_true
      (plain_bind (plain_auditLog _) fun _ => plain_ret _) hC.forget

theorem turn_setDisabled {actor : User} {nodeId : Text} {disabled : Bool}
    (hC : Kept D managed i (fun _ => True) C₀ C) :
    turn D.parallel (setupContract D managed) i (setDisabled actor nodeId disabled)
      (fun _ => Kept D managed i fun _ => True) C₀ C := by
  refine turn_seq (turn_getServer lasting_true hC) ?_ fun x C₀ C h => h.1
  rintro node C₀ C ⟨hC, hnode⟩
  refine turn_plain_seq (lasting_snapshot node) (plain_ask rfl) ⟨hC.1, (hnode node rfl).2⟩
    (fun now C₀ C hC => ?_) fun x C₀ C hC => hC.forget
  refine turn_seq (turn_saveNode lasting_true ⟨hC.1, hC.2.congr rfl rfl, trivial⟩) ?_
    fun x C₀ C h => h.forget
  exact fun _ C₀ C hC => turn_plain lasting_true
    (plain_bind (plain_auditLog _) fun _ => plain_ret _) hC.forget

end Services
end Turns

/-- A call of one of the services of the backend. -/
inductive BackendCall where
  | setup (call : SetupCall)
  | server (call : ServerCall)
  | device (call : DeviceCall)

def Services.backendCall (b : Services) : BackendCall → Task Unit
  | .setup call => do
    let _ ← b.setupCall call
    return ()
  | .server call => do
    let _ ← b.serverCall call
    return ()
  | .device call => do
    let _ ← b.deviceCall call
    return ()

/-- The call is no PATCH of the availability of the node. -/
def BackendCall.NoRelease (nodeId : Text) : BackendCall → Prop
  | .server (.update _ patched patch) => patched = nodeId → KeepsAvailability patch
  | _ => True

/-- The node is offered for new devices: it is listed as available, it can be the one that is
picked, or it is stored and passes the check for the one that is asked for. -/
def Offered (D : Deployment ω) (i : Nat) (C : Cluster ω) (node : ServerNode) : Prop :=
  (∃ nodes C', Runs (D.step i) Services.listAvailable C (.ok nodes) C' ∧ node ∈ nodes) ∨
  (∃ C', Runs (D.step i) Services.pickForNewDevice C (.ok (some node)) C') ∨
  C.store.getServerNode node.id = some node ∧
    ∃ C', Runs (D.step i) (Services.ensureSelectable node) C (.ok ()) C'

section Offered
variable {C' : Cluster ω} {node : ServerNode}

theorem runs_ask_step {e : Op} {r : e.Ans} (h : Runs (D.step i) (ask e) C (.ok r) C') :
    D.step i C e (.ok r) C' := by
  rcases runs_bind.mp h with ⟨x, ⟨⟩, -⟩ | ⟨a, C₁, hperform, hlift⟩
  obtain ⟨rfl, rfl⟩ := runs_lift.mp hlift
  obtain ⟨a, C₂, hstep, hret⟩ := runs_op.mp hperform
  obtain ⟨ha, rfl⟩ := runs_ret.mp hret
  cases ha
  exact hstep

theorem listed_of_runs {nodes : List ServerNode}
    (h : Runs (D.step i) Services.listAvailable C (.ok nodes) C') (hnode : node ∈ nodes) :
    node ∈ C.store.serverNodes.values ∧ node.forNewDevices = true := by
  rcases runs_bind.mp h with ⟨x, ⟨⟩, -⟩ | ⟨listed, C₁, hlist, hret⟩
  obtain ⟨hnodes, -⟩ := runs_ret.mp hret
  cases hnodes
  obtain ⟨w, ⟨rfl, -⟩, -⟩ := runs_ask_step hlist
  obtain ⟨hmem, hfor⟩ := List.mem_filter.mp hnode
  exact ⟨(List.mergeSort_perm _ _).subset hmem, hfor⟩

/-- The least loaded node is one of those that were looked at. -/
theorem mem_of_leastLoaded {best : Option (Nat × ServerNode)} {nodes : List ServerNode}
    (h : Runs (D.step i) (Services.leastLoaded best nodes) C (.ok (some node)) C') :
    node ∈ nodes ∨ best.map (·.2) = some node := by
  induction nodes generalizing best C with
  | nil =>
    obtain ⟨hbest, -⟩ := runs_ret.mp h
    exact .inr (Except.ok.inj hbest).symm
  | cons next nodes ih =>
    rcases runs_bind.mp h with ⟨x, ⟨⟩, -⟩ | ⟨count, C₁, -, hrest⟩
    cases best with
    | none =>
      rcases ih hrest with hmem | hnext
      · exact .inl (List.mem_cons_of_mem _ hmem)
      · cases hnext
        exact .inl List.mem_cons_self
    | some best =>
      obtain ⟨least, chosen⟩ := best
      rcases ih hrest with hmem | hnext
      · exact .inl (List.mem_cons_of_mem _ hmem)
      · split at hnext
        · cases hnext
          exact .inl List.mem_cons_self
        · exact .inr hnext

theorem Offered.forNewDevices (h : Offered D i C node) :
    node ∈ C.store.serverNodes.values ∧ node.forNewDevices = true := by
  rcases h with ⟨nodes, C', hlist, hmem⟩ | ⟨C', hpick⟩ | ⟨hget, C', hensure⟩
  · exact listed_of_runs hlist hmem
  · rcases runs_bind.mp hpick with ⟨x, ⟨⟩, -⟩ | ⟨candidates, C₁, hlist, hleast⟩
    rcases mem_of_leastLoaded hleast with hmem | hnone
    · exact listed_of_runs hlist hmem
    · cases hnone
  · refine ⟨Table.mem_values_iff.mpr hget, ?_⟩
    unfold Services.ensureSelectable at hensure
    split at hensure
    · cases (runs_fail.mp hensure).1
    · rename_i hfor
      simpa using hfor

end Offered

section Run
variable {b : Services} {nodeId : Text}

abbrev QuarantineLoop (ω : Type) (nodeId : Text) : Type :=
  Loop (Cluster ω) Op.Res Exc Unit {call : BackendCall // call.NoRelease nodeId}

theorem turn_backendCall {call : BackendCall} (hcall : call.NoRelease nodeId)
    (hinv : SetupInv D (· = nodeId) C) :
    turn D.parallel (setupContract D (· = nodeId)) i (b.backendCall call)
      (fun _ => (setupContract D (· = nodeId)).Leaves i) C C := by
  have hC : Kept D (· = nodeId) i (fun _ => True) C C :=
    ⟨⟨hinv, fun j _ => (setupContract D _).refl j C⟩, trivial⟩
  cases call with
  | setup call =>
    exact turn_seq (Services.turn_setupCall b call hinv) (fun _ _ _ h => h) fun _ _ _ h => h
  | device call =>
    exact turn_seq (turn_within (Locked.within_deviceCall call) (by simp) (by simp) (by simp) hC)
      (fun _ _ _ h => h.1) fun _ _ _ h => h.1
  | server call =>
    refine turn_seq (P := fun _ => Kept D (· = nodeId) i fun _ => True) ?_ (fun _ _ _ h => h.1)
      fun _ _ _ h => h.1
    cases call with
    | update actor patched patch => exact Services.turn_updateServer hcall hC
    | setDisabled actor patched disabled => exact Services.turn_setDisabled hC
    | healthCheck patched actorUserId => exact Services.turn_healthCheck b hC

/-- A node that the worker made for a job is offered for new devices only if the job was
successful and meant it so; a job that was cancelled or failed leaves its node in quarantine. -/
theorem quarantine {C₀ : Cluster ω} (hC : C₀.Initial) {y y' : QuarantineLoop ω nodeId}
    (h : Relation.ReflTransGen
      (Loop.Step D.parallel Cluster.Tick fun call => b.backendCall call.val) { shared := C₀ } y)
    (h' : Relation.ReflTransGen
      (Loop.Step D.parallel Cluster.Tick fun call => b.backendCall call.val) y y')
    {jobId : Text} (hmade : y.shared.history.MadeFor nodeId jobId) :
    (∀ i node, node.id = nodeId → Offered D i y.shared node →
      ∃ job, y.shared.store.getSetupJob jobId = some job ∧ job.status = .success ∧
        job.availableForNewDevices = true) ∧
    ∀ job, y.shared.store.getSetupJob jobId = some job →
      job.status = .cancelled ∨ job.status = .failed →
      ∀ i node, node.id = nodeId → ¬ Offered D i y'.shared node := by
  -- the invariant of the setup jobs holds in every state of a run
  have hinvariant : ∀ {z : QuarantineLoop ω nodeId}, Relation.ReflTransGen
      (Loop.Step D.parallel Cluster.Tick fun call => b.backendCall call.val) { shared := C₀ } z →
      Loop.Invariant D.parallel (setupContract D (· = nodeId))
        (fun i _ _ => (setupContract D (· = nodeId)).Leaves i) (fun _ => True) z :=
    Loop.invariant_reachable (fun _ _ _ _ _ hleaves => hleaves)
      (fun _ _ htick hinv => htick.keeps hinv)
      (fun _ call _ hinv => turn_backendCall call.property hinv) hC.inv
  have hopened : ∀ {z : QuarantineLoop ω nodeId} (_ : Relation.ReflTransGen
      (Loop.Step D.parallel Cluster.Tick fun call => b.backendCall call.val) { shared := C₀ } z),
      z.shared.history.MadeFor nodeId jobId → ∀ i node, node.id = nodeId →
        Offered D i z.shared node → Opened z.shared.store jobId := by
    rintro z hz hmade i node rfl hoffered
    obtain ⟨hmem, hfor⟩ := hoffered.forNewDevices
    have havailable : node.isAvailableForNewDevices = some true := by
      rw [ServerNode.forNewDevices, Bool.and_eq_true] at hfor
      exact (Option.getD_eq_iff.mp hfor.1).resolve_right (by simp)
    exact ((hinvariant hz).inv (active_parallel hz)).1.nodes node hmem rfl havailable jobId hmade
  -- between the two states the history grows and statuses only advance
  have hgrows : Grows y.shared y'.shared :=
    Loop.related_reachable (c := setupContract D (· = nodeId)) .refl (fun _ _ _ => .trans)
      (fun _ _ _ hrely => hrely.1.toGrows) (fun _ _ _ _ _ hleaves => hleaves)
      (fun _ _ htick hinv => htick.keeps hinv)
      (fun _ call _ hinv => turn_backendCall call.property hinv) (hinvariant h) (active_parallel h)
      h' (active_parallel (h.trans h'))
  refine ⟨fun i node hid hoffered => hopened h hmade i node hid hoffered, ?_⟩
  intro job hjob hstatus i node hid hoffered
  obtain ⟨later, j, before, hsplit, hhand⟩ := hmade
  obtain ⟨newer, hnewer⟩ := hgrows.history
  have hmade' : y'.shared.history.MadeFor nodeId jobId :=
    ⟨newer ++ later, j, before, by rw [← hnewer, hsplit, List.append_assoc], hhand⟩
  obtain ⟨job', hjob', hsuccess, -⟩ := hopened (h.trans h') hmade' i node hid hoffered
  obtain ⟨job'', hjob'', hprogress⟩ := hgrows.jobs jobId job hjob
  rw [hjob', Option.some.injEq] at hjob''
  subst hjob''
  -- a terminal status stays, so the job never becomes a success
  have hkept := hprogress.status.eq_of_terminal (by rcases hstatus with h | h <;> rw [h] <;> rfl)
  rw [hkept] at hsuccess
  rcases hstatus with h | h <;> rw [h] at hsuccess <;> cases hsuccess

end Run

/-- The job that the worker who drew the id had in hand. -/
def History.jobOf (id : Text) : History → Option Text
  | [] => none
  | (i, ⟨.uuid, .ok drawn⟩) :: before =>
    if drawn = id then inHand before i else jobOf id before
  | _ :: before => jobOf id before

theorem History.madeFor_of_jobOf {h : History} {id jobId : Text} (hjob : h.jobOf id = some jobId) :
    h.MadeFor id jobId := by
  fun_induction History.jobOf with
  | case1 => cases hjob
  | case2 i before => exact ⟨[], i, before, rfl, hjob⟩
  | case3 i before drawn hdrawn ih => exact (ih hjob).cons _
  | case4 x before hx ih => exact (ih hjob).cons _

namespace Sample

abbrev nodeId : Text := lit "iiiiiiiiiii"

/-- One process installs the node, in as many moves as that takes. -/
def offeredRun : QuarantineLoop Unit nodeId :=
  Loop.play ((scenario .database).deployment fun _ => 0).parallel
    ((scenario .database).answerAmong fun _ => 0) (fun call => services.backendCall call.val)
    ([.start 1 ⟨.setup (.create user form), trivial⟩] ++ acts 1 10 ++
      [.start 0 ⟨.setup (.work 3 2), trivial⟩] ++ acts 0 11 ++
      [.start 2 ⟨.setup (.operation 0), trivial⟩] ++ acts 2 3 ++ acts 0 11 ++
      [.start 3 ⟨.setup (.operation 1), trivial⟩] ++ acts 3 3 ++ acts 0 11 ++
      [.start 4 ⟨.setup (.operation 2), trivial⟩] ++ acts 4 3 ++ acts 0 15 ++
      [.start 5 ⟨.setup (.operation 3), trivial⟩] ++ acts 5 15 ++ acts 0 15)
    { shared := cluster {} }

end Sample

theorem quarantine_offered : ∃ node, node.id = Sample.nodeId ∧
    Offered ((Sample.scenario .database).deployment fun _ => 0) 0 Sample.offeredRun.shared node ∧
    ∃ job, Sample.offeredRun.shared.store.getSetupJob (lit "i") = some job ∧
      job.status = .success ∧ job.availableForNewDevices = true := by
  have hstored : (Sample.offeredRun.shared.store.getServerNode Sample.nodeId).map
      (·.forNewDevices) = some true := by decide +kernel
  obtain ⟨node, hnode, hfor⟩ := Option.map_eq_some_iff.mp hstored
  have hid : node.id = Sample.nodeId := Table.key_of_get hnode
  have hoffered : Offered ((Sample.scenario .database).deployment fun _ => 0) 0
      Sample.offeredRun.shared node := by
    refine .inr (.inr ⟨by rw [hid]; exact hnode, Sample.offeredRun.shared, ?_⟩)
    rw [Services.ensureSelectable, hfor]
    exact runs_ret.mpr ⟨rfl, rfl⟩
  refine ⟨node, hid, hoffered, ?_⟩
  exact (quarantine (Sample.initial_cluster {} fun _ => rfl)
    ((Sample.scenario .database).play_parallel _ _ _ _) .refl
    (History.madeFor_of_jobOf (by decide +kernel))).1 0 node hid hoffered

end VpnControl.Backend
