import VpnControl.Backend.WorkerTurns

namespace VpnControl.Backend
open Strings Json Effects Prog Function

variable {ω : Type} {D : Deployment ω} {managed : Text → Prop} {i : Nat} {C₀ C : Cluster ω}
  {α β : Type} {I : Cluster ω → Prop}

section Plain
variable (b : Services) (node : ServerNode)

namespace Services

theorem plain_request (method path : Text) (bodyObj : Option Doc) (signed : Bool) :
    Plain (b.request node method path bodyObj signed) := by
  have hsigned : ∀ body, Plain (b.signedHeaders node method path body) := by
    intro body
    unfold signedHeaders
    split
    · exact plain_fail _
    · exact plain_bind (plain_ask rfl) fun _ => plain_bind (plain_ask rfl) fun _ => plain_ret _
  have hheaders : ∀ body, Plain (b.headers node method path body bodyObj.isSome signed) := by
    intro body
    cases signed with
    | true => exact plain_bind (hsigned body) fun _ => plain_ret _
    | false => exact plain_ret _
  refine plain_bind (hheaders _) fun headers => plain_bind (uses_attempt (plain_ask rfl)) ?_
  rintro (x | response)
  · cases x <;> trivial
  · trivial

theorem plain_health : Plain (b.health node) :=
  plain_bind (plain_request b node _ _ _ _) fun _ => uses_lift _

theorem plain_status : Plain (b.status node) :=
  plain_bind (plain_request b node _ _ _ _) fun _ => uses_lift _

end Services
end Plain

/-- A node as it was read from the storage. -/
structure Snapshot (managed : Text → Prop) (node : ServerNode) (C : Cluster ω) : Prop where
  stored : C.store.getServerNode node.id ≠ none
  ok : NodeOk managed C node

theorem lasting_snapshot (node : ServerNode) :
    Lasting i (Snapshot (ω := ω) managed node) := by
  intro C C' h hC
  refine ⟨h.nodes _ hC.stored, fun hmanaged havailable jobId hmade => ?_⟩
  exact (hC.ok hmanaged havailable jobId (h.made _ _ hC.stored hmade)).mono h.jobs

theorem Snapshot.congr {node node' : ServerNode} (h : Snapshot managed node C)
    (hid : node'.id = node.id)
    (havailable : node'.isAvailableForNewDevices = node.isAvailableForNewDevices) :
    Snapshot managed node' C := by
  refine ⟨by rw [hid]; exact h.stored, ?_⟩
  rw [NodeOk, hid, havailable]
  exact h.ok

theorem lasting_madeFor (id jobId : Text) :
    Lasting i fun C : Cluster ω => C.history.MadeFor id jobId := by
  rintro C C' h ⟨later, j, before, hsplit, hhand⟩
  obtain ⟨newer, hnewer⟩ := h.history
  exact ⟨newer ++ later, j, before, by rw [← hnewer, hsplit, List.append_assoc], hhand⟩

theorem snapshot_of_stored {node : ServerNode} (hinv : SetupInv D managed C)
    (h : C.store.getServerNode node.id = some node) : Snapshot managed node C :=
  ⟨by simp [h], hinv.nodes node (Table.mem_values_iff.mpr h)⟩

theorem snapshot_nodeObject {P : Platform ω} {node : ServerNode} (hinv : SetupInv D managed C)
    (h : Snapshot managed node C) : Snapshot managed (P.nodeObject C.store node) C := by
  unfold Platform.nodeObject
  split
  · cases hget : C.store.getServerNode node.id with
    | none => exact h
    | some stored =>
      have hid : stored.id = node.id := Table.key_of_get hget
      rw [← hid] at hget
      exact snapshot_of_stored hinv hget
  · exact h

namespace Services

theorem turn_getServer (hI : Lasting i I) {nodeId : Text} (hC : Kept D managed i I C₀ C) :
    turn D.parallel (setupContract D managed) i (getServer nodeId)
      (fun r C₀ C => Kept D managed i I C₀ C ∧ ∀ node, r = .ok node →
        node.id = nodeId ∧ Snapshot managed node C) C₀ C := by
  have hread : turn D.parallel (setupContract D managed) i (ask (.getServerNode nodeId))
      (fun r C₀ C => Kept D managed i I C₀ C ∧ ∀ node, r = .ok (some node) →
        node.id = nodeId ∧ Snapshot managed node C) C₀ C := by
    refine turn_ask_admissible hI (fun _ _ _ => by trivial) ?_ hC
    intro C₁ r C₂ hinv _ hstep hleaves hI₂
    refine ⟨⟨hleaves, hI₂ rfl⟩, fun node hr => ?_⟩
    subst hr
    have hinv₂ := setupInv_step hinv (by trivial) hstep
    obtain ⟨w, hact, rfl⟩ := hstep
    obtain ⟨hnode, rfl⟩ : some node = C₁.store.getServerNode nodeId ∧ w = _ := hact
    have hid : node.id = nodeId := Table.key_of_get hnode.symm
    subst hid
    exact ⟨rfl, snapshot_of_stored hinv₂ hnode.symm⟩
  refine turn_seq hread ?_ fun x C₀ C h => ⟨h.1, by rintro _ ⟨⟩⟩
  rintro (_ | node) C₀ C ⟨hC, hnode⟩
  · exact ⟨hC, by rintro _ ⟨⟩⟩
  · refine ⟨hC, ?_⟩
    rintro _ ⟨⟩
    exact hnode node rfl

/-- A node object is the node as it was read, or as it is stored now. -/
theorem turn_nodeObject (hI : Lasting i I) {node : ServerNode}
    (hC : Kept D managed i (fun C => Snapshot managed node C ∧ I C) C₀ C) :
    turn D.parallel (setupContract D managed) i (ask (.nodeObject node))
      (fun r C₀ C => Kept D managed i I C₀ C ∧ ∀ node', r = .ok node' → Snapshot managed node' C)
      C₀ C := by
  refine turn_ask_admissible ((lasting_snapshot node).and hI) (fun _ _ _ => by trivial) ?_ hC
  intro C₁ r C₂ hinv hC₁ hstep hleaves hI₂
  refine ⟨⟨hleaves, (hI₂ rfl).2⟩, fun node' hr => ?_⟩
  subst hr
  have hsnapshot := (hI₂ rfl).1
  have hinv₂ := setupInv_step hinv (by trivial) hstep
  obtain ⟨w, hact, rfl⟩ := hstep
  obtain ⟨rfl, rfl⟩ : node' = D.platform.nodeObject C₁.store node ∧ w = _ := hact
  exact snapshot_nodeObject hinv₂ hsnapshot

theorem turn_saveNode (hI : Lasting i I) {node : ServerNode}
    (hC : Kept D managed i (fun C => Snapshot managed node C ∧ I C) C₀ C) :
    turn D.parallel (setupContract D managed) i (ask (.saveServerNode node))
      (fun _ => Kept D managed i fun C => Snapshot managed node C ∧ I C) C₀ C := by
  have hadmissible : ∀ C, SetupInv D managed C → Snapshot managed node C ∧ I C →
      Admissible D managed i C (.saveServerNode node) := fun C _ hC => hC.1.ok
  refine turn_ask_admissible ((lasting_snapshot node).and hI) hadmissible ?_ hC
  exact fun C₁ r C₂ _ _ _ hleaves hI₂ => ⟨hleaves, hI₂ rfl⟩

theorem turn_assignNode (hI : Lasting i I) {node : ServerNode}
    (hC : Kept D managed i (fun C => Snapshot managed node C ∧ I C) C₀ C) :
    turn D.parallel (setupContract D managed) i (ask (.assignNode node))
      (fun _ => Kept D managed i fun C => Snapshot managed node C ∧ I C) C₀ C := by
  have hadmissible : ∀ C, SetupInv D managed C → Snapshot managed node C ∧ I C →
      Admissible D managed i C (.assignNode node) := fun C _ hC => hC.1.ok
  refine turn_ask_admissible ((lasting_snapshot node).and hI) hadmissible ?_ hC
  exact fun C₁ r C₂ _ _ _ hleaves hI₂ => ⟨hleaves, hI₂ rfl⟩

/-- A node made for the job in hand. -/
theorem turn_createFromSetup (hI : Lasting i I) {job : SetupJob} {baseUrl keyId secret : Text}
    (hhand : ∀ C, I C → InHand i job.id C) (hC : Kept D managed i I C₀ C) :
    turn D.parallel (setupContract D managed) i (createFromSetup job baseUrl keyId secret)
      (fun r C₀ C => Kept D managed i I C₀ C ∧ ∀ node, r = .ok node →
        C.history.MadeFor node.id job.id) C₀ C := by
  refine turn_plain_seq hI (plain_ask rfl) hC (fun now C₀ C hC => ?_) fun x C₀ C hC =>
    ⟨hC, by rintro _ ⟨⟩⟩
  have hdraw : turn D.parallel (setupContract D managed) i (ask .uuid)
      (fun r C₀ C => Kept D managed i I C₀ C ∧ ∀ id, r = .ok id →
        C.history.MadeFor id job.id) C₀ C := by
    refine turn_ask_admissible hI (fun _ _ _ => by trivial) ?_ hC
    intro C₁ r C₂ _ hI₁ hstep hleaves hI₂
    refine ⟨⟨hleaves, hI₂ rfl⟩, fun id hr => ?_⟩
    subst hr
    exact ⟨[], i, C₁.history, D.step_history hstep, (hhand C₁ hI₁).inHand⟩
  refine turn_seq hdraw ?_ fun x C₀ C h => ⟨h.1, by rintro _ ⟨⟩⟩
  rintro id C₀ C ⟨hC, hmade⟩
  have hlasting := hI.and (lasting_madeFor id job.id)
  refine turn_plain_seq hlasting (plain_ask rfl) ⟨hC.1, hC.2, hmade id rfl⟩
    (fun sealed C₀ C hC => ?_) fun x C₀ C hC => ⟨⟨hC.1, hC.2.1⟩, by rintro _ ⟨⟩⟩
  refine turn_seq (P := fun _ => Kept D managed i fun C => I C ∧ C.history.MadeFor id job.id)
    (turn_ask_admissible hlasting ?_ ?_ hC) ?_ ?_
  · intro C _ _ _ havailable
    cases havailable
  · exact fun C₁ r C₂ _ _ _ hleaves hI₂ => ⟨hleaves, hI₂ rfl⟩
  · intro _ C₀ C hC
    refine ⟨⟨hC.1, hC.2.1⟩, ?_⟩
    rintro _ ⟨⟩
    exact hC.2.2
  · intro x C₀ C hC
    exact ⟨⟨hC.1, hC.2.1⟩, by rintro _ ⟨⟩⟩

/-- The node made for a successful job may be opened as the job says. -/
theorem turn_activateAfterSetup (hI : Lasting i I) {job : SetupJob} {nodeId : Text}
    (hC : Kept D managed i (fun C => I C ∧ Known job C ∧ Succeeded job.id C ∧
      C.history.MadeFor nodeId job.id) C₀ C) :
    turn D.parallel (setupContract D managed) i
      (activateAfterSetup nodeId job.availableForNewDevices)
      (fun _ => Kept D managed i I) C₀ C := by
  have hlasting := hI.and ((lasting_known job).and
    ((lasting_succeeded job.id).and (lasting_madeFor nodeId job.id)))
  refine turn_seq (turn_getServer hlasting hC) ?_ fun x C₀ C h => ⟨h.1.1, h.1.2.1⟩
  rintro node C₀ C ⟨hC, hnode⟩
  obtain ⟨rfl, -⟩ := hnode node rfl
  refine turn_plain_seq hlasting (plain_ask rfl) hC (fun now C₀ C hC => ?_) fun x C₀ C hC =>
    ⟨hC.1, hC.2.1⟩
  refine turn_seq (P := fun _ => Kept D managed i I)
    (turn_ask_admissible hlasting ?_ ?_ hC) (fun _ C₀ C hC => hC) fun x C₀ C hC => hC
  · rintro C hinv ⟨-, ⟨stored, hget, -, hstored⟩, ⟨stored', hget', hstatus⟩, hmade⟩
    -- the job that the node was made for is the successful one
    intro _ havailable jobId' hmade'
    obtain rfl := hinv.made _ _ _ hmade hmade'
    rw [hget, Option.some.injEq] at hget'
    subst hget'
    exact ⟨stored, hget, hstatus, hstored.trans (Option.some.inj havailable)⟩
  · exact fun C₁ r C₂ _ _ _ hleaves hI₂ => ⟨hleaves, (hI₂ rfl).1⟩

theorem turn_checkFailed {node : ServerNode} {now : Time} {actorUserId : Option Text} {e : AppError}
    (hC : Kept D managed i (Snapshot managed node) C₀ C) :
    turn D.parallel (setupContract D managed) i (checkFailed node now actorUserId e)
      (fun _ => Kept D managed i fun _ => True) C₀ C := by
  refine turn_seq (turn_nodeObject lasting_true ⟨hC.1, hC.2, trivial⟩) ?_ fun x C₀ C h => h.1
  rintro node C₀ C ⟨hC, hnode⟩
  refine turn_seq (turn_saveNode lasting_true
    ⟨hC.1, (hnode node rfl).congr rfl rfl, trivial⟩) ?_ fun x C₀ C h => h.forget
  intro _ C₀ C hC
  exact turn_plain lasting_true (plain_bind (plain_auditLog _) fun _ => plain_ret _) hC.forget

theorem turn_checkPassed {node : ServerNode} {previousStatus : ServerStatus} {now : Time}
    {actorUserId : Option Text} {payload : Doc} (hC : Kept D managed i (Snapshot managed node) C₀ C) :
    turn D.parallel (setupContract D managed) i
      (checkPassed node previousStatus now actorUserId payload)
      (fun _ => Kept D managed i fun _ => True) C₀ C := by
  refine turn_seq (turn_nodeObject lasting_true ⟨hC.1, hC.2, trivial⟩) ?_ fun x C₀ C h => h.1
  rintro node C₀ C ⟨hC, hnode⟩
  refine turn_seq (turn_assignNode lasting_true
    ⟨hC.1, (hnode node rfl).congr rfl rfl, trivial⟩) ?_ fun x C₀ C h => h.forget
  rintro _ C₀ C ⟨hleaves, hsnapshot, -⟩
  rw [turn_bind, turn_lift]
  cases hstatus : checkedStatus _ payload with
  | error x => exact ⟨hleaves, trivial⟩
  | ok status =>
    refine turn_seq (turn_saveNode lasting_true
      ⟨hleaves, hsnapshot.congr rfl rfl, trivial⟩) ?_ fun x C₀ C h => h.forget
    intro _ C₀ C hC
    refine turn_plain lasting_true ?_ hC.forget
    change Plain (if _ then _ else _)
    split
    · exact plain_bind (plain_auditLog _) fun _ => plain_ret _
    · exact plain_ret _

theorem turn_healthCheck (b : Services) {nodeId : Text} {actorUserId : Option Text}
    (hC : Kept D managed i (fun _ => True) C₀ C) :
    turn D.parallel (setupContract D managed) i (b.healthCheck nodeId actorUserId)
      (fun _ => Kept D managed i fun _ => True) C₀ C := by
  refine turn_seq (turn_getServer lasting_true hC) ?_ fun x C₀ C h => h.1
  rintro node C₀ C ⟨hC, hnode⟩
  have hsnapshot := (hnode node rfl).2
  refine turn_plain_seq (lasting_snapshot node) (plain_ask rfl) ⟨hC.1, hsnapshot⟩
    (fun now C₀ C hC => ?_) fun x C₀ C hC => hC.forget
  have hcall : Plain (b.health node >>= fun _ => ask (.nodeObject node) >>= fun node =>
      b.status node) :=
    plain_bind (plain_health b node) fun _ => plain_bind (plain_ask rfl) fun node =>
      plain_status b node
  refine turn_seq_attempt (turn_plain (lasting_snapshot node) hcall hC) ?_
  rintro (x | payload) C₀ C hC
  · cases x with
    | app e =>
      change turn _ _ _ (if _ then _ else _) _ _ _
      split
      · exact hC.forget
      · exact turn_checkFailed hC
    | _ => exact hC.forget
  · exact turn_checkPassed hC

theorem turn_operationTask (b : Services) (t : Nat) (hC : Kept D managed i (fun _ => True) C₀ C) :
    turn D.parallel (setupContract D managed) i (b.operationTask t)
      (fun _ => Kept D managed i fun _ => True) C₀ C := by
  refine turn_seq_attempt (turn_plain lasting_true (plain_ask rfl) hC) ?_
  rintro (x | operation) C₀ C hC
  · exact turn_plain lasting_true (plain_ask rfl) hC
  refine turn_seq_attempt (P := fun _ => Kept D managed i fun _ => True) ?_ fun r C₀ C hC =>
    turn_plain lasting_true (plain_ask rfl) hC
  cases operation with
  | runner phase job credentials sshSecret =>
    exact turn_plain lasting_true (plain_bind (plain_ask rfl) fun _ => plain_ret _) hC
  | healthCheck nodeId =>
    exact turn_seq (turn_healthCheck b hC) (fun _ C₀ C hC => hC) fun x C₀ C hC => hC

end Services
end VpnControl.Backend
