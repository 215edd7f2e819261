import VpnControl.Backend.Patches
import VpnControl.Backend.DeviceStates

namespace VpnControl.Backend
open Strings Json Effects Prog Services

/-- What an operator does to a node. -/
inductive InventoryCall where
  | create (actor : User) (new : NewServer)
  | server (call : ServerCall)

abbrev InventoryCall.Ret (_ : InventoryCall) : Type := ServerNode

def Services.inventoryCall (b : Services) : (call : InventoryCall) → Task call.Ret
  | .create actor new => createManual actor new
  | .server call => b.serverCall call

/-- A call as it was made, with the requests to the agents before it. -/
abbrev MadeInventoryCall (ω : Type) : Type :=
  Called (World (ω × Requests)) Exc InventoryCall.Ret

/-- Where the agent of a node is reached, and with which key. -/
structure Access where
  baseUrl : Option Text
  keyId : Option Text
  secret : Option Text
  deriving DecidableEq, Repr

def SecretBox.access (box : SecretBox) (node : ServerNode) : Access :=
  ⟨node.agentBaseUrl, node.agentKeyId, node.agentSecretEncrypted.bind box.decrypt⟩

/-- The headers that sign a request to an agent that is reached with `access`. -/
def SignedHeaders (b : Services) (access : Access) (method path : Text)
    (headers : List (Text × Text)) : Prop :=
  ∃ keyId secret timestamp, access.keyId = some keyId ∧ access.secret = some secret ∧
    headers = [(lit "X-Agent-Key-Id", keyId), (lit "X-Agent-Timestamp", timestamp),
      (lit "X-Agent-Signature", b.signAgentRequest secret method path timestamp [])]

/-- A request without a body, signed for the agent that is reached with `access`. -/
structure SignedFor (b : Services) (access : Access) (method path : Text) (request : Request) :
    Prop where
  baseUrl_eq : request.baseUrl = access.baseUrl
  method_eq : request.method = method
  path_eq : request.path = path
  body_eq : request.body = []
  headers : SignedHeaders b access method path request.headers

/-- The agent answers the signed request for its status, the second request from `before` on. -/
def StatusAnswered (b : Services) (access : Access) (before after : Requests) : Prop :=
  ∃ health request response, SignedFor b access (lit "GET") (lit "/status") request ∧
    response.statusCode = 200 ∧
    before ++ [health, (request, .ok response)] <+: after

/-- The status of a node was last changed by a health check whose signed request for the status
succeeded, made with what the node has now. -/
def Vouched {ω : Type} (box : SecretBox) (b : Services) (l : List (MadeInventoryCall ω))
    (requests : Requests) (nodeId : Text) (node : ServerNode) : Prop :=
  ∃ later c earlier actorUserId old, l = later ++ c :: earlier ∧
    c.call = .server (.healthCheck nodeId actorUserId) ∧
    c.before.store.getServerNode nodeId = some old ∧ old.status ≠ node.status ∧
    StatusAnswered b (box.access node) c.before.agents.2 requests ∧
    ∀ c' ∈ later, ∃ kept, c'.before.store.getServerNode nodeId = some kept ∧
      kept.status = node.status

/-- The field is none of the access to the agent, or stays as it is. -/
def ServerPatch.Keeps (access : Access) : ServerPatch → Prop
  | agentBaseUrl value => value = access.baseUrl
  | agentKeyId value => value = access.keyId
  | agentSecret value => (if optional value then value else none) = access.secret
  | _ => True

/-- A health check of the node. -/
def InventoryCall.checks (nodeId : Text) : InventoryCall → Bool
  | server (.healthCheck id _) => id = nodeId
  | _ => false

/-- An edit of a node that is online, or has warnings, leaves the access to its agent alone. -/
def InventoryCall.KeepsAccess (box : SecretBox) (s : Store) : InventoryCall → Prop
  | server (.update _ nodeId patch) => ∀ node, s.getServerNode nodeId = some node →
      node.selectable = true → ∀ field ∈ patch, field.Keeps (box.access node)
  | _ => True

instance (access : Access) : DecidablePred (ServerPatch.Keeps access)
  | .agentBaseUrl _ | .agentKeyId _ | .agentSecret _ => inferInstanceAs (Decidable (_ = _))
  | .name _ | .publicHost _ | .publicPort _ | .regionNote _ | .provider _ | .agentAllowedIpNote _
  | .isAvailableForNewDevices _ | .awgContainerName _ | .awgInterface _ | .awgConfigPath _
  | .clientsTablePath _ => isTrue trivial

instance (box : SecretBox) (s : Store) : DecidablePred (InventoryCall.KeepsAccess box s)
  | .server (.update _ nodeId patch) => inferInstanceAs (Decidable (∀ node ∈ s.getServerNode nodeId,
      node.selectable = true → ∀ field ∈ patch, field.Keeps (box.access node)))
  | .create .. | .server (.setDisabled ..) | .server (.healthCheck ..) => isTrue trivial

section Steps
variable {ω : Type} {P : Platform ω} {b : Services} {i : Nat} {nodeId : Text}
  {w w' w'' : World (ω × Requests)}

/-- The nodes that can be selected were so before, with the same access, unless a check of the
node that began in `w` succeeded. -/
def NodeStep (box : SecretBox) (b : Services) (nodeId : Text) (checked : Bool)
    (w w' : World (ω × Requests)) : Prop :=
  w.agents.2 <+: w'.agents.2 ∧ ∀ node', w'.store.getServerNode nodeId = some node' →
    node'.selectable = true → ∃ node, w.store.getServerNode nodeId = some node ∧
      box.access node' = box.access node ∧ (node'.status = node.status ∨
        checked = true ∧ StatusAnswered b (box.access node') w.agents.2 w'.agents.2)

variable {checked : Bool}

/-- The nodes stay as they are. -/
theorem nodeStep_frame (hnodes : w'.store.serverNodes = w.store.serverNodes)
    (hlog : w.agents.2 <+: w'.agents.2) : NodeStep P.box b nodeId checked w w' := by
  refine ⟨hlog, fun node' hnode' _ => ⟨node', ?_, rfl, .inl rfl⟩⟩
  rwa [Store.getServerNode, hnodes] at hnode'

theorem StatusAnswered.mono {access : Access} {before after after' : Requests}
    (h : StatusAnswered b access before after) (hlog : after <+: after') :
    StatusAnswered b access before after' := by
  obtain ⟨health, request, response, hrequest, hstatus, hwithin⟩ := h
  exact ⟨health, request, response, hrequest, hstatus, hwithin.trans hlog⟩

theorem NodeStep.frame (h : NodeStep P.box b nodeId checked w w')
    (hnodes : w''.store.serverNodes = w'.store.serverNodes) (hlog : w'.agents.2 <+: w''.agents.2) :
    NodeStep P.box b nodeId checked w w'' := by
  refine ⟨h.1.trans hlog, fun node' hnode' hsel => ?_⟩
  rw [Store.getServerNode, hnodes] at hnode'
  obtain ⟨node, hnode, haccess, hstatus⟩ := h.2 node' hnode' hsel
  exact ⟨node, hnode, haccess, hstatus.imp_right fun hs => ⟨hs.1, hs.2.mono hlog⟩⟩

theorem NodeStep.writes {S : List Part} (h : NodeStep P.box b nodeId checked w w')
    (hf : Frame S w' w'') (hnodes : .nodes ∉ S) (hagents : .agents ∉ S) :
    NodeStep P.box b nodeId checked w w'' :=
  h.frame (hf.same .nodes hnodes) (by rw [hf.same .agents hagents])

/-- A node is stored. -/
theorem NodeStep.save {saved : ServerNode} (h : NodeStep P.box b nodeId checked w w')
    (hsaved : nodeId = saved.id → saved.selectable = true → ∃ node,
      w.store.getServerNode nodeId = some node ∧ P.box.access saved = P.box.access node ∧
        (saved.status = node.status ∨
          checked = true ∧ StatusAnswered b (P.box.access saved) w.agents.2 w'.agents.2)) :
    NodeStep P.box b nodeId checked w { w' with store := w'.store.saveServerNode saved } := by
  refine ⟨h.1, fun node' hnode' hsel => ?_⟩
  rw [Store.getServerNode, Store.saveServerNode] at hnode'
  by_cases hid : nodeId = saved.id
  · subst hid
    rw [Table.get_put_self] at hnode'
    cases hnode'
    exact hsaved rfl hsel
  · rw [Table.get_put_of_ne _ hid] at hnode'
    exact h.2 node' hnode' hsel

/-- A node is assigned, which in memory stores it. -/
theorem NodeStep.assign (object : ServerNode) (h : NodeStep P.box b nodeId checked w w')
    (hobject : nodeId = object.id → ∃ node, w.store.getServerNode nodeId = some node ∧
      P.box.access object = P.box.access node ∧ object.status = node.status) :
    NodeStep P.box b nodeId checked w
      { w' with store := P.recorded.assignNode w'.store object } := by
  rw [Platform.assignNode]
  split
  · refine h.save fun hid _ => ?_
    obtain ⟨node, hnode, haccess, hstatus⟩ := hobject hid
    exact ⟨node, hnode, haccess, .inl hstatus⟩
  · exact h

/-- A node is stored, and the call ends with an entry of the audit. -/
theorem wp_saveNode {α : Type} {saved : ServerNode} {f : Unit → Task α}
    (hw : NodeStep P.box b nodeId checked w w') (htail : Writes [.audit] (f ()))
    (hsaved : nodeId = saved.id → saved.selectable = true → ∃ node,
      w.store.getServerNode nodeId = some node ∧ P.box.access saved = P.box.access node ∧
        (saved.status = node.status ∨
          checked = true ∧ StatusAnswered b (P.box.access saved) w.agents.2 w'.agents.2)) :
    wp (P.recorded.env i) (ask (.saveServerNode saved) >>= f)
      (fun _ w'' => NodeStep P.box b nodeId checked w w'') w' := by
  refine wp_keeps_seq rfl hw ?_
  rintro _ _ rfl
  exact wp_mono (wp_writes htail) fun _ _ hf =>
    (hw.save hsaved).writes hf (by decide) (by decide)

theorem wp_getServer {α : Type} {id : Text} {f : ServerNode → Task α} {I : World (ω × Requests) → Prop}
    (hw : I w) (hsome : ∀ node, w.store.getServerNode id = some node →
      wp (P.recorded.env i) (f node) (fun _ w' => I w') w) :
    wp (P.recorded.env i) (getServer id >>= f) (fun _ w' => I w') w := by
  rw [getServer, bind_assoc]
  refine wp_keeps_seq rfl hw ?_
  rintro _ w' ⟨rfl, hw'⟩
  subst hw'
  cases hnode : w'.store.getServerNode id with
  | none => exact hw
  | some node => exact hsome node hnode

theorem stored_self {s : Store} {id : Text} {node : ServerNode} (h : s.getServerNode id = some node) :
    s.getServerNode node.id = some node := by
  rw [show node.id = id from Table.key_of_get h]
  exact h

/-- A new node waits for its first check. -/
theorem step_createManual (actor : User) (new : NewServer) :
    wp (P.recorded.env i) (createManual actor new)
      (fun _ w' => NodeStep P.box b nodeId checked w w') w := by
  have hsame : NodeStep P.box b nodeId checked w w := nodeStep_frame rfl (List.prefix_refl _)
  refine wp_keeps_seq rfl hsame ?_
  rintro now _ ⟨rfl, rfl⟩
  refine wp_keeps_seq rfl hsame ?_
  rintro id _ ⟨hfresh, rfl⟩
  have hencrypt : Writes [] (encryptOptional new.agentSecret) := by
    rw [encryptOptional]
    split
    · exact writes_bind (writes_read rfl rfl) fun _ => writes_ret _
    · exact writes_ret _
  refine wp_writes_seq hencrypt (fun secret w' hf => ?_) fun x w' hf => by rw [hf.eq]; exact hsame
  obtain rfl := hf.eq
  refine wp_saveNode hsame (writes_bind (writes_auditLog (by simp)) fun _ => writes_ret _)
    fun _ hsel => by cases hsel

theorem step_setDisabled (actor : User) (id : Text) (disabled : Bool) :
    wp (P.recorded.env i) (setDisabled actor id disabled)
      (fun _ w' => NodeStep P.box b nodeId checked w w') w := by
  have hsame : NodeStep P.box b nodeId checked w w := nodeStep_frame rfl (List.prefix_refl _)
  refine wp_getServer hsame fun node hnode => ?_
  refine wp_keeps_seq rfl hsame ?_
  rintro now _ ⟨rfl, rfl⟩
  refine wp_saveNode hsame (writes_bind (writes_auditLog (by simp)) fun _ => writes_ret _)
    fun hid hsel => ⟨node, ?_, rfl, .inl ?_⟩
  · rw [hid]
    exact stored_self hnode
  · cases disabled with
    | true => cases hsel
    | false =>
      by_cases hdisabled : node.status = .disabled
      · simp [ServerNode.selectable, hdisabled] at hsel
      · simp [hdisabled]

/-- What a patch leaves of a node, if its fields leave the access alone. -/
structure Patched (box : SecretBox) (node patched : ServerNode) (keeps : Prop) : Prop where
  id : patched.id = node.id
  status : patched.status = node.status
  access : keeps → box.access patched = box.access node

/-- On a node a patch does what it does on the node's record, with what the box made of the
secrets. -/
def PatchedRecord (box : SecretBox) (node patched : ServerNode) (patch : List ServerPatch) : Prop :=
  ∃ encrypt, (∀ text, .agentSecret (some text) ∈ patch → text ≠ [] →
      box.encrypts text (encrypt text)) ∧
    ∀ attrs, (patched.toRecord : Record Empty) =
      (Target.server.patch encrypt node.toRecord attrs (ServerPatch.items patch)).1

namespace PatchedRecord
variable {box : SecretBox} {node patched : ServerNode} {patch : List ServerPatch}
  {field : ServerPatch}

theorem nil : PatchedRecord box node node [] := ⟨id, by simp, fun _ => rfl⟩

/-- A secret that is set, and perhaps replaced later on. -/
theorem secret {text sealed : Text} (htext : text ≠ []) (hsealed : box.encrypts text sealed)
    (h : PatchedRecord box { node with agentSecretEncrypted := some sealed } patched patch) :
    PatchedRecord box node patched (.agentSecret (some text) :: patch) := by
  obtain ⟨encrypt, hencrypt, hrecord⟩ := h
  by_cases hagain : .agentSecret (some text) ∈ patch
  · refine ⟨encrypt, fun text' htext' => ?_, fun attrs => ?_⟩
    · rcases List.mem_cons.mp htext' with h | h
      · cases h
        exact hencrypt text hagain
      · exact hencrypt text' h
    · have hitem : .agentSecret ∈ (ServerPatch.items (F := Empty) patch).map (·.1) :=
        List.mem_map.mpr ⟨_, List.mem_map_of_mem hagain, rfl⟩
      rw [hrecord (attrs ++ [.agentSecret]), ServerNode.toRecord_secret,
        Target.patch_overwritten _ hitem]
      exact (Target.patch_overwritten _ hitem).symm
  · refine ⟨Function.update encrypt text sealed, fun text' htext' hne => ?_, fun attrs => ?_⟩
    · by_cases hsame : text' = text
      · subst hsame
        rw [Function.update_self]
        exact hsealed
      · rw [Function.update_of_ne hsame]
        exact hencrypt text' (by simpa [hsame] using htext') hne
    · have hcongr : ∀ text', (.agentSecret, .str text') ∈ ServerPatch.items (F := Empty) patch →
          text' ≠ [] → Function.update encrypt text sealed text' = encrypt text' := by
        refine fun text' hitem _ => Function.update_of_ne ?_ _ _
        rintro rfl
        exact hagain (ServerPatch.mem_of_secret hitem)
      rw [hrecord (attrs ++ [.agentSecret]), ServerNode.toRecord_secret, ← Target.patch_congr hcongr]
      simp [ServerPatch.items, ServerPatch.attr, ServerPatch.value, Target.patch,
        Target.assign_secret, Target.encryptSecret, Value.ofOption, htext]

/-- A null or an empty text takes the secret away. -/
theorem cleared {value : Option Text} (hunset : ¬ optional value = true)
    (h : PatchedRecord box { node with agentSecretEncrypted := none } patched patch) :
    PatchedRecord box node patched (.agentSecret value :: patch) := by
  obtain ⟨encrypt, hencrypt, hrecord⟩ := h
  refine ⟨encrypt, fun text htext hne => ?_, fun attrs => ?_⟩
  · rcases List.mem_cons.mp htext with h | h
    · cases h
      exact absurd (decide_eq_true hne) hunset
    · exact hencrypt text h hne
  · have hnone : Target.encryptSecret encrypt (Value.ofOption (.str (F := Empty)) value) =
        Value.ofOption .str none := by
      cases value with
      | none => rfl
      | some text => exact if_pos (by simpa [optional] using hunset)
    rw [hrecord (attrs ++ [.agentSecret]), ServerNode.toRecord_secret, ← hnone]
    rfl

/-- Another field changes the node or leaves it as it is. -/
theorem other (hfield : field.attr ≠ .agentSecret)
    (h : PatchedRecord box ((node.patch field).2.getD node) patched patch) :
    PatchedRecord box node patched (field :: patch) := by
  obtain ⟨encrypt, hencrypt, hrecord⟩ := h
  have hassign : (Target.server.assign encrypt (node.toRecord : Record Empty) field.attr
      field.value).getD node.toRecord = ((node.patch field).2.getD node).toRecord := by
    rw [← ServerNode.toRecord_patch encrypt node hfield]
    cases (node.patch field).2 <;> rfl
  refine ⟨encrypt, fun text htext => ?_, fun attrs => ?_⟩
  · refine hencrypt text ((List.mem_cons.mp htext).resolve_left ?_)
    rintro rfl
    exact hfield rfl
  · obtain ⟨attrs', hpatch⟩ : ∃ attrs', Target.server.patch encrypt (node.toRecord : Record Empty)
        attrs (ServerPatch.items (field :: patch)) = Target.server.patch encrypt
          ((node.patch field).2.getD node).toRecord attrs' (ServerPatch.items patch) := by
      rw [← hassign]
      exact Target.patch_cons encrypt _ (field.attr, field.value)
    rw [hrecord attrs', hpatch]

end PatchedRecord

/-- Each turn of the loop over a patch is one of the steps of `PatchedRecord`. -/
theorem wp_patchServer (node : ServerNode) (changed : List Text) (patch : List ServerPatch) :
    wp (P.recorded.env i) (patchServer node changed patch) (fun out w' => w' = w ∧
      ∀ r, out = .ok r → PatchedRecord P.box node r.1 patch) w := by
  induction patch generalizing node changed with
  | nil =>
    refine ⟨rfl, ?_⟩
    rintro _ ⟨⟩
    exact .nil
  | cons field patch ih =>
    by_cases hfield : field.attr = .agentSecret
    · obtain ⟨value, rfl⟩ : ∃ value, field = .agentSecret value := by
        cases field <;> first | exact ⟨_, rfl⟩ | cases hfield
      rw [patchServer]
      split_ifs with hset
      · obtain ⟨text, rfl⟩ : ∃ text, value = some text := by
          cases value with
          | none => cases hset
          | some text => exact ⟨text, rfl⟩
        refine wp_ask_seq ?_ fun x w' hx => by cases (failure_immediate (e := .encrypt _) rfl hx).1
        rintro sealed _ ⟨hsealed, rfl⟩
        exact wp_mono (ih _ _) fun out w' h =>
          ⟨h.1, fun r hr => .secret (of_decide_eq_true hset) hsealed (h.2 r hr)⟩
      · exact wp_mono (ih _ _) fun out w' h => ⟨h.1, fun r hr => .cleared hset (h.2 r hr)⟩
    · obtain ⟨fieldName, next, hpatch⟩ : ∃ fieldName next, node.patch field = (fieldName, next) :=
        ⟨_, _, rfl⟩
      have hnext : ∀ changed', wp (P.recorded.env i) (patchServer (next.getD node) changed' patch)
          (fun out w' => w' = w ∧ ∀ r, out = .ok r → PatchedRecord P.box node r.1 (field :: patch)) w :=
        fun changed' => wp_mono (ih _ _) fun out w' h =>
          ⟨h.1, fun r hr => .other hfield (by rw [hpatch]; exact h.2 r hr)⟩
      have hloop : ∃ changed', patchServer node changed (field :: patch) =
          patchServer (next.getD node) changed' patch := by
        cases next with
        | none =>
          refine ⟨changed, ?_⟩
          cases field <;>
            first | exact absurd rfl hfield | simp only [patchServer, hpatch, Option.getD_none]
        | some next =>
          refine ⟨changed ++ [fieldName], ?_⟩
          cases field <;>
            first | exact absurd rfl hfield | simp only [patchServer, hpatch, Option.getD_some]
      obtain ⟨changed', hloop⟩ := hloop
      rw [hloop]
      exact hnext changed'

/-- What the record of a patched node shows of the node. -/
theorem patched_of_record {box : SecretBox} (hbox : box.Sound) {node patched : ServerNode}
    {patch : List ServerPatch} (hpatched : PatchedRecord box node patched patch) :
    Patched box node patched (∀ field ∈ patch, field.Keeps (box.access node)) := by
  obtain ⟨encrypt, hencrypt, hrecord⟩ := hpatched
  have h := hrecord []
  refine ⟨?_, ?_, fun hkeeps => ?_⟩
  · have hid := congrFun h .id
    rw [Target.patch_other (ServerPatch.attr_notMem (by decide) patch) (by decide)] at hid
    exact Value.str.inj hid
  · have hstatus := congrFun h .status
    rw [Target.patch_other (ServerPatch.attr_notMem (by decide) patch) (by decide)] at hstatus
    exact Value.status.inj hstatus
  · have hbase := congrFun h .agentBaseUrl
    have hkey := congrFun h .agentKeyId
    rw [Target.patch_keeps ?_ (by decide)] at hbase hkey
    · have hsecret : ∃ sealed, (patched.toRecord : Record Empty) .agentSecretEncrypted =
          .ofOption .str sealed ∧ sealed.bind box.decrypt = (box.access node).secret := by
        rw [h]
        refine Target.patch_secret (C := fun value => ∃ sealed, value = .ofOption .str sealed ∧
          sealed.bind box.decrypt = (box.access node).secret) ⟨_, rfl, rfl⟩ fun value hvalue => ?_
        obtain ⟨field, hfield, hitem⟩ := List.mem_map.mp hvalue
        cases field <;> cases hitem
        rename_i secret
        have hsame : (if optional secret then secret else none) = (box.access node).secret :=
          hkeeps _ hfield
        rw [← hsame]
        cases secret with
        | none => exact ⟨none, rfl, rfl⟩
        | some text =>
          by_cases htext : text = []
          · subst htext
            exact ⟨none, rfl, rfl⟩
          · refine ⟨some (encrypt text), if_neg htext, ?_⟩
            rw [if_pos (show optional (some text) = true from decide_eq_true htext)]
            exact hbox.decrypt text _ (hencrypt text hfield htext)
      obtain ⟨sealed, hsealed, hdecrypt⟩ := hsecret
      rw [SecretBox.access, Value.ofOption_str_inj hbase, Value.ofOption_str_inj hkey,
        Value.ofOption_str_inj hsealed, hdecrypt]
      rfl
    all_goals
      rintro _ hitem hattr
      obtain ⟨field, hfield, rfl⟩ := List.mem_map.mp hitem
      cases field <;> cases hattr
      exact congrArg (Value.ofOption .str) (hkeeps _ hfield)

theorem step_updateServer (hbox : P.box.Sound) (actor : User) (id : Text) (patch : List ServerPatch)
    (hkeeps : ∀ node, w.store.getServerNode id = some node → node.selectable = true →
      ∀ field ∈ patch, field.Keeps (P.box.access node)) :
    wp (P.recorded.env i) (updateServer actor id patch)
      (fun _ w' => NodeStep P.box b nodeId checked w w') w := by
  have hsame : NodeStep P.box b nodeId checked w w := nodeStep_frame rfl (List.prefix_refl _)
  refine wp_getServer hsame fun node hnode => ?_
  refine wp_seq (wp_patchServer node [] patch) ?_ ?_
  · rintro ⟨patched, changed⟩ _ ⟨rfl, hpatched⟩
    obtain ⟨hid, hstatus, haccess⟩ := patched_of_record hbox (hpatched _ rfl)
    change wp _ (if _ then _ else _) _ _
    split_ifs
    · exact hsame
    · refine wp_keeps_seq rfl hsame ?_
      rintro now _ ⟨rfl, rfl⟩
      refine wp_saveNode hsame (writes_bind (writes_auditLog (by simp)) fun _ => writes_ret _)
        fun hsaved hsel => ?_
      refine ⟨node, ?_, haccess (hkeeps node hnode ?_), .inl hstatus⟩
      · rw [hsaved]
        exact hid ▸ stored_self hnode
      · rw [ServerNode.selectable, ← hstatus]
        exact hsel
  · rintro x _ ⟨rfl, -⟩
    exact hsame

theorem wp_signedHeaders (node : ServerNode) (method path : Text) :
    wp (P.recorded.env i) (b.signedHeaders node method path []) (fun out w' => w' = w ∧
      ∀ headers, out = .ok headers → SignedHeaders b (P.box.access node) method path headers) w := by
  rw [Services.signedHeaders]
  split_ifs with hunset
  · exact ⟨rfl, by rintro _ ⟨⟩⟩
  · obtain ⟨keyId, hkey⟩ : ∃ keyId, node.agentKeyId = some keyId := by
      cases hkey : node.agentKeyId with
      | none => simp [hkey, optional] at hunset
      | some keyId => exact ⟨keyId, rfl⟩
    obtain ⟨sealed, hsealed⟩ : ∃ sealed, node.agentSecretEncrypted = some sealed := by
      cases hsealed : node.agentSecretEncrypted with
      | none => simp [hsealed, optional] at hunset
      | some sealed => exact ⟨sealed, rfl⟩
    rw [hkey, hsealed]
    refine wp_ask_seq ?_ ?_
    · rintro secret _ ⟨hsecret, rfl⟩
      refine wp_ask_seq ?_ ?_
      · rintro timestamp _ rfl
        refine ⟨rfl, ?_⟩
        rintro _ ⟨⟩
        refine ⟨keyId, secret, timestamp, hkey, ?_, rfl⟩
        rw [SecretBox.access, hsealed]
        exact hsecret
      · rintro x w' hx
        cases (failure_immediate (e := .utcNow) rfl hx).1
    · rintro x _ ⟨-, -, rfl⟩
      exact ⟨rfl, by rintro _ ⟨⟩⟩

/-- What a request leaves in the record. -/
theorem wp_request_recorded (node : ServerNode) (method path : Text) (signed : Bool) :
    wp (P.recorded.env i) (b.request node method path none signed) (fun out w' =>
      w'.store = w.store ∧ w.agents.2 <+: w'.agents.2 ∧ ∀ response, out = .ok response →
        ∃ request, w'.agents.2 = w.agents.2 ++ [(request, .ok response)] ∧
          (signed = true → SignedFor b (P.box.access node) method path request)) w := by
  have hheaders : wp (P.recorded.env i) (b.headers node method path [] false signed)
      (fun out w' => w' = w ∧ ∀ headers, out = .ok headers → signed = true →
        SignedHeaders b (P.box.access node) method path headers) w := by
    cases signed with
    | false => exact ⟨rfl, by rintro _ _ ⟨⟩⟩
    | true =>
      refine wp_seq (wp_signedHeaders node method path) ?_ ?_
      · rintro headers _ ⟨rfl, h⟩
        exact ⟨rfl, by rintro _ ⟨⟩ _; exact h _ rfl⟩
      · rintro x _ ⟨rfl, -⟩
        exact ⟨rfl, by rintro _ ⟨⟩⟩
  rw [Services.request]
  refine wp_seq hheaders ?_ ?_
  · rintro headers w' ⟨rfl, h⟩
    have hsent : ∀ (r : Except Exc AgentResponse) (w'' : World (ω × Requests)),
        P.recorded.env i w' (.request ⟨node.agentBaseUrl, method, path, headers, []⟩) r w'' →
        w''.store = w'.store ∧ w''.agents.2 = w'.agents.2 ++
          [(⟨node.agentBaseUrl, method, path, headers, []⟩, r)] := by
      intro r w'' hstep
      cases r with
      | ok response =>
        obtain ⟨agents, ⟨-, hlog⟩, rfl⟩ := hstep
        exact ⟨rfl, hlog⟩
      | error x =>
        obtain ⟨agents, ⟨-, hlog⟩, rfl⟩ := hstep
        exact ⟨rfl, hlog⟩
    rw [ask, wp_bind, wp_attempt, wp_bind, wp_perform]
    intro r w'' hstep
    obtain ⟨hstore, hlog⟩ := hsent r w'' hstep
    have hwithin : w'.agents.2 <+: w''.agents.2 := hlog ▸ List.prefix_append _ _
    cases r with
    | ok response =>
      refine ⟨hstore, hwithin, ?_⟩
      rintro _ ⟨⟩
      exact ⟨_, hlog, fun hsigned => ⟨rfl, rfl, rfl, rfl, h headers rfl hsigned⟩⟩
    | error x =>
      cases x with
      | transport reason => exact ⟨hstore, hwithin, by rintro _ ⟨⟩⟩
      | _ => exact ⟨hstore, hwithin, by rintro _ ⟨⟩⟩
  · rintro x _ ⟨rfl, -⟩
    exact ⟨rfl, List.prefix_refl _, by rintro _ ⟨⟩⟩

theorem nodeObject_self {ω : Type} {P : Platform ω} {s : Store} {node : ServerNode}
    (h : s.getServerNode node.id = some node) : P.nodeObject s node = node := by
  rw [Platform.nodeObject]
  split
  · rw [h, Option.getD_some]
  · rfl

theorem expect_ok {response : AgentResponse} {expectedStatus : Nat} {node : ServerNode} {payload : Doc}
    (h : b.expect response expectedStatus node = .ok payload) :
    response.statusCode = expectedStatus := by
  rw [Services.expect] at h
  split_ifs at h with hstatus
  exact hstatus

/-- The two requests of a health check. -/
theorem wp_agentCalls {node : ServerNode} (hnode : w.store.getServerNode node.id = some node) :
    wp (P.recorded.env i) (do
        let _ ← b.health node
        let node : ServerNode ← ask (.nodeObject node)
        b.status node) (fun out w' => w'.store = w.store ∧ w.agents.2 <+: w'.agents.2 ∧
      ∀ payload, out = .ok payload →
        StatusAnswered b (P.box.access node) w.agents.2 w'.agents.2) w := by
  rw [Services.health, bind_assoc]
  refine wp_seq (wp_request_recorded node _ _ false) ?_ ?_
  · rintro response w₁ ⟨hstore, hlog, hresponse⟩
    obtain ⟨health, hhealth, -⟩ := hresponse response rfl
    refine wp_seq (P := fun _ w' => w' = w₁) ((wp_lift _).mpr rfl) ?_ ?_
    · rintro _ _ rfl
      refine wp_ask_seq ?_ ?_
      · rintro _ w' ⟨rfl, hw'⟩
        subst hw'
        rw [nodeObject_self (by rw [hstore]; exact hnode), Services.status]
        refine wp_seq (wp_request_recorded node _ _ true) ?_ ?_
        · rintro response' w₂ ⟨hstore', hlog', hresponse'⟩
          obtain ⟨request, hrequest, hsigned⟩ := hresponse' response' rfl
          rw [wp_lift]
          refine ⟨hstore'.trans hstore, hlog.trans hlog', fun payload hpayload => ?_⟩
          refine ⟨(health, .ok response), request, response', hsigned rfl, expect_ok hpayload, ?_⟩
          rw [hrequest, hhealth, List.append_assoc]
          exact List.prefix_refl _
        · rintro x w₂ ⟨hstore', hlog', -⟩
          exact ⟨hstore'.trans hstore, hlog.trans hlog', by rintro _ ⟨⟩⟩
      · intro x w' hx
        obtain ⟨-, -, rfl⟩ := failure_immediate (e := .nodeObject _) rfl hx
        exact ⟨hstore, hlog, by rintro _ ⟨⟩⟩
    · rintro x _ rfl
      exact ⟨hstore, hlog, by rintro _ ⟨⟩⟩
  · rintro x w₁ ⟨hstore, hlog, -⟩
    exact ⟨hstore, hlog, by rintro _ ⟨⟩⟩

theorem step_checkFailed {node : ServerNode} {now : Time} {actorUserId : Option Text} {e : AppError}
    (h : NodeStep P.box b nodeId checked w w') :
    wp (P.recorded.env i) (checkFailed node now actorUserId e)
      (fun _ w'' => NodeStep P.box b nodeId checked w w'') w' := by
  refine wp_keeps_seq rfl h ?_
  rintro object _ ⟨-, rfl⟩
  refine wp_saveNode h (writes_bind (writes_auditLog (by simp)) fun _ => writes_ret _)
    fun _ hsel => ?_
  by_cases hdisabled : object.status = .disabled <;>
    simp [ServerNode.selectable, hdisabled] at hsel

theorem step_checkPassed {node : ServerNode} {previous : ServerStatus} {now : Time}
    {actorUserId : Option Text} {payload : Doc} (hnode : w.store.getServerNode node.id = some node)
    (hstore : w'.store = w.store) (hlog : w.agents.2 <+: w'.agents.2)
    (hanswered : StatusAnswered b (P.box.access node) w.agents.2 w'.agents.2) :
    wp (P.recorded.env i) (checkPassed node previous now actorUserId payload)
      (fun _ w'' => NodeStep P.box b nodeId (node.id = nodeId) w w'') w' := by
  have hw : NodeStep P.box b nodeId (node.id = nodeId) w w' := nodeStep_frame (by rw [hstore]) hlog
  refine wp_keeps_seq rfl hw ?_
  rintro _ w₁ ⟨rfl, hw₁⟩
  subst hw₁
  rw [show P.recorded.nodeObject w₁.store node = node from nodeObject_self (by rw [hstore]; exact hnode)]
  refine wp_keeps_seq rfl hw ?_
  rintro _ w₂ rfl
  have hassigned := NodeStep.assign (P := P) { node with
    lastSeenAt := some now, lastStatusPayload := some payload, lastError := none } hw
    fun hid => ⟨node, hid ▸ hnode, rfl, rfl⟩
  refine wp_seq (P := fun _ w' => w' = _) ((wp_lift _).mpr rfl) ?_ ?_
  · rintro status _ rfl
    refine wp_saveNode hassigned ?_ fun hid _ => ⟨node, ?_, rfl, .inr ⟨?_, ?_⟩⟩
    · change Writes _ (if _ then _ else _)
      split_ifs
      · exact writes_bind (writes_auditLog (by simp)) fun _ => writes_ret _
      · exact writes_ret _
    · rw [hid]
      exact hnode
    · exact decide_eq_true hid.symm
    · exact hanswered
  · rintro x _ rfl
    exact hassigned

theorem step_healthCheck (id : Text) (actorUserId : Option Text) :
    wp (P.recorded.env i) (b.healthCheck id actorUserId)
      (fun _ w' => NodeStep P.box b nodeId (id = nodeId) w w') w := by
  have hw : NodeStep P.box b nodeId (id = nodeId) w w := nodeStep_frame rfl (List.prefix_refl _)
  refine wp_getServer hw fun node hnode => ?_
  refine wp_keeps_seq rfl hw ?_
  rintro now w₀ ⟨-, rfl⟩
  refine wp_seq_attempt (wp_agentCalls (stored_self hnode)) ?_
  rintro r w' ⟨hstore, hlog, hanswered⟩
  have hw' : NodeStep P.box b nodeId (id = nodeId) w₀ w' :=
    nodeStep_frame (congrArg Store.serverNodes hstore) hlog
  cases r with
  | ok payload =>
    have hid : node.id = id := Table.key_of_get hnode
    subst hid
    exact step_checkPassed hnode hstore hlog (hanswered payload rfl)
  | error x =>
    cases x with
    | app e =>
      change wp _ (if _ then _ else _) _ _
      split_ifs
      · exact hw'
      · exact step_checkFailed hw'
    | _ => exact hw'

theorem step_inventoryCall (nodeId : Text) (hbox : P.box.Sound) (call : InventoryCall)
    (hkeeps : call.KeepsAccess P.box w.store) :
    wp (P.recorded.env i) (b.inventoryCall call)
      (fun _ w' => NodeStep P.box b nodeId (call.checks nodeId) w w') w := by
  cases call with
  | create actor new => exact step_createManual actor new
  | server call =>
    cases call with
    | update actor id patch => exact step_updateServer hbox actor id patch hkeeps
    | setDisabled actor id disabled => exact step_setDisabled actor id disabled
    | healthCheck id actorUserId => exact step_healthCheck id actorUserId

theorem Vouched.step {l : List (MadeInventoryCall ω)} {c : MadeInventoryCall ω}
    {node : ServerNode} (hstep : NodeStep P.box b nodeId (c.call.checks nodeId) c.before w)
    (hl : ∀ node, c.before.store.getServerNode nodeId = some node → node.selectable = true →
      Vouched P.box b l c.before.agents.2 nodeId node)
    (hnode : w.store.getServerNode nodeId = some node) (hsel : node.selectable = true) :
    Vouched P.box b (c :: l) w.agents.2 nodeId node := by
  obtain ⟨old, hold, haccess, hstatus⟩ := hstep.2 node hnode hsel
  by_cases hsame : old.status = node.status
  · have hselOld : old.selectable = true := by
      rw [ServerNode.selectable, hsame]
      exact hsel
    obtain ⟨later, check, earlier, actorUserId, before, rfl, hcheck, hbefore, hchanged, hanswered,
      hlater⟩ := hl old hold hselOld
    refine ⟨c :: later, check, earlier, actorUserId, before, rfl, hcheck, hbefore, hsame ▸ hchanged,
      haccess ▸ hanswered.mono hstep.1, fun c' hc' => ?_⟩
    rcases List.mem_cons.mp hc' with rfl | hc'
    · exact ⟨old, hold, hsame⟩
    · obtain ⟨kept, hkept, hkeptStatus⟩ := hlater c' hc'
      exact ⟨kept, hkept, hkeptStatus.trans hsame⟩
  · obtain ⟨hchecks, hanswered⟩ := hstatus.resolve_left (Ne.symm hsame)
    obtain ⟨actorUserId, hcall⟩ : ∃ actorUserId, c.call = .server (.healthCheck nodeId actorUserId) := by
      rcases c with ⟨_, _ | (_ | _ | ⟨id, actorUserId⟩), _⟩
      · cases hchecks
      · cases hchecks
      · cases hchecks
      · exact ⟨actorUserId, by rw [of_decide_eq_true hchecks]⟩
    exact ⟨[], c, l, actorUserId, old, rfl, hcall, hold, hsame, hanswered, by simp⟩

/-- In every run of calls in which no edit of a node that is online, or has warnings, changes how
its agent is reached: a node for new devices got its status from a check that succeeded with the
URL, the key and the secret that it has now. -/
theorem vouched_of_run {w₀ : World (ω × Requests)} {l : List (MadeInventoryCall ω)}
    (hbox : P.box.Sound)
    (hstart : ∀ node, w₀.store.getServerNode nodeId = some node → node.selectable = false)
    (hrun : Calls (P.recorded.env i) World.Later b.inventoryCall w₀ l w)
    (hkeeps : ∀ c ∈ l, c.call.KeepsAccess P.box c.before.store) {node : ServerNode}
    (hnode : w.store.getServerNode nodeId = some node) (hnew : node.forNewDevices = true) :
    Vouched P.box b l w.agents.2 nodeId node := by
  have hinv := hrun.invariant_of (G := fun w call => call.KeepsAccess P.box w.store)
    (I := fun l w => ∀ node, w.store.getServerNode nodeId = some node → node.selectable = true →
      Vouched P.box b l w.agents.2 nodeId node) ?_ ?_ ?_ hkeeps
  · exact hinv node hnode (Bool.and_eq_true _ _ ▸ hnew).2
  · rintro l w _ h ⟨now, -, rfl⟩
    exact h
  · intro l w call h hcall
    refine wp_mono (step_inventoryCall nodeId hbox call hcall) fun out w' hstep node hnode hsel => ?_
    exact Vouched.step (c := ⟨w, call, out⟩) hstep h hnode hsel
  · intro node hnode hsel
    rw [hstart node hnode] at hsel
    cases hsel

end Steps

namespace Sample

def newServer : NewServer where
  name := lit "node"
  publicHost := lit "node.example"
  agentBaseUrl := lit "http://a"
  agentKeyId := some (lit "key")
  agentSecret := some (lit "agent secret")

/-- The calls of a list, made one after the other in an empty installation. -/
def inventoryCalls (calls : List InventoryCall) :
    List (MadeInventoryCall Unit) × World (Unit × Requests) :=
  playCalls ((scenario .database).recorded.answer 0 none) services.inventoryCall calls
    ([], { agents := ((), []) })

theorem inventoryCalls_run (calls : List InventoryCall) :
    Calls ((scenario .database).platform.recorded.env 0) World.Later services.inventoryCall
      { agents := ((), []) } (inventoryCalls calls).1 (inventoryCalls calls).2 := by
  refine calls_playCalls (fun w e r w' h => ?_) calls .start
  exact Scenario.env_recorded _ (Scenario.answer_env _ 0 none h)

/-- A server is added, gets another URL before its first check, and another name after it. -/
def edits : List InventoryCall :=
  [.create user newServer, .server (.update user (lit "i") [.agentBaseUrl (some (lit "http://b"))]),
    .server (.healthCheck (lit "i") none), .server (.update user (lit "i") [.name (some (lit "new"))])]

/-- It gets another URL after its check. -/
def move : List InventoryCall :=
  [.create user newServer, .server (.healthCheck (lit "i") none),
    .server (.update user (lit "i") [.agentBaseUrl (some (lit "http://b"))])]

end Sample

theorem vouched_of_edits : ∃ node, (Sample.inventoryCalls Sample.edits).2.store.getServerNode (lit "i") =
      some node ∧ node.forNewDevices = true ∧
    Vouched Scenario.box Sample.services (Sample.inventoryCalls Sample.edits).1
      (Sample.inventoryCalls Sample.edits).2.agents.2 (lit "i") node := by
  have hnode : (match (Sample.inventoryCalls Sample.edits).2.store.getServerNode (lit "i") with
      | some node => node.forNewDevices
      | none => false) = true := by decide +kernel
  split at hnode
  · rename_i node hstored
    refine ⟨node, hstored, hnode, ?_⟩
    exact vouched_of_run Scenario.box_sound (by rintro _ ⟨⟩) (Sample.inventoryCalls_run Sample.edits)
      (by decide +kernel) hstored hnode
  · cases hnode

/-- After a check, an edit of the URL leaves the verdict of the agent that was there before. -/
theorem not_vouched_after_move :
    Calls ((Sample.scenario .database).platform.recorded.env 0) World.Later
      Sample.services.inventoryCall { agents := ((), []) } (Sample.inventoryCalls Sample.move).1
      (Sample.inventoryCalls Sample.move).2 ∧
    ∃ node, (Sample.inventoryCalls Sample.move).2.store.getServerNode (lit "i") = some node ∧
      node.forNewDevices = true ∧
      ¬ Vouched Scenario.box Sample.services (Sample.inventoryCalls Sample.move).1
        (Sample.inventoryCalls Sample.move).2.agents.2 (lit "i") node := by
  refine ⟨Sample.inventoryCalls_run _, ?_⟩
  have hnode : (match (Sample.inventoryCalls Sample.move).2.store.getServerNode (lit "i") with
      | some node => node.forNewDevices && node.agentBaseUrl = some (lit "http://b")
      | none => false) = true := by decide +kernel
  split at hnode
  · rename_i node hstored
    obtain ⟨hnew, hurl⟩ := (Bool.and_eq_true _ _ ▸ hnode : _ ∧ _)
    refine ⟨node, hstored, hnew, ?_⟩
    rintro ⟨_, _, _, _, _, _, _, _, _, ⟨_, request, response, hsigned, _, hwithin⟩, _⟩
    have hasked : ∀ asked ∈ (Sample.inventoryCalls Sample.move).2.agents.2,
        asked.1.baseUrl ≠ some (lit "http://b") := by decide +kernel
    have hmem : (request, .ok response) ∈ (Sample.inventoryCalls Sample.move).2.agents.2 :=
      hwithin.subset (List.mem_append_right _ (by simp))
    exact hasked _ hmem (hsigned.baseUrl_eq.trans (of_decide_eq_true hurl))
  · cases hnode

end VpnControl.Backend
