import VpnControl.Backend.NodeAgent
import VpnControl.Backend.UnderLock

namespace VpnControl.Backend
open Strings Json Effects Prog Function

/-- The requests to agents among operations, with their answers. -/
def exchanges (l : List (Sigma Op.Res)) : List (Request × Except Exc AgentResponse) :=
  l.filterMap fun
    | ⟨.request request, answer⟩ => some (request, answer)
    | _ => none

theorem exchanges_append (l l' : List (Sigma Op.Res)) :
    exchanges (l ++ l') = exchanges l ++ exchanges l' := List.filterMap_append

theorem exchanges_singleton {e : Op} (he : ∀ request, e ≠ .request request) (r : e.Res) :
    exchanges [⟨e, r⟩] = [] := by
  cases e <;> first | rfl | exact absurd rfl (he _)

/-- How the backend's call to revoke a peer ends: the agent let the request through and removed
the peer; or it refused the request, or none was made; or the node is unavailable; or something
else was raised and nothing was answered. -/
inductive RevokeEnds (A : NodeAgent) (st : NodeState) (key : Text) :
    NodeState → List (Request × Except Exc AgentResponse) → Except Exc Doc → Prop
  | removed {st' : NodeState} {request : Request} {response : AgentResponse} (payload : Doc)
      (hadmits : A.Admits st request) (hbefore : HasPeer st.container key)
      (hafter : ¬ HasPeer st'.container key) :
      RevokeEnds A st key st' [(request, .ok response)] (.ok payload)
  | refused {request : Request} {response : AgentResponse} (e : AppError)
      (hcode : e.code ≠ .agentUnavailable) (hadmits : ¬ A.Admits st request) :
      RevokeEnds A st key st [(request, .ok response)] (.error (.app e))
  | unset (e : AppError) (hcode : e.code ≠ .agentUnavailable) :
      RevokeEnds A st key st [] (.error (.app e))
  | unavailable {st' : NodeState} {sent : List (Request × Except Exc AgentResponse)} (e : AppError)
      (hcode : e.code = .agentUnavailable) : RevokeEnds A st key st' sent (.error (.app e))
  | raised {st' : NodeState} {sent : List (Request × Except Exc AgentResponse)} (x : Exc)
      (happ : ∀ e, x ≠ .app e) (hnone : ∀ request response, (request, .ok response) ∉ sent) :
      RevokeEnds A st key st' sent (.error x)

section Revoke
variable {kind : StorageKind} {box : SecretBox} {raises : Op → Exc → Prop}
  {binds : DeviceColumn → WireValue → Prop}
  {agentAt : Option Text → NodeAgent} {b : Services} {i : Nat} {node : ServerNode} {key : Text}
  {w w' : World (Option Text → NodeState)} {l : List (Sigma Op.Res)}

/-- The code of an answer that is no success. -/
theorem code_rejection (response : AgentResponse) (node : ServerNode) :
    (b.rejection response node).code =
      if response.statusCode ≥ 500 then .agentUnavailable else .agentRejected := by
  simp only [Services.rejection]
  split <;> rfl

/-- What the client makes of the answer to a request to revoke. -/
theorem revokeEnds_of_revocation {A : NodeAgent} {st st' : NodeState} {request : Request}
    {response : AgentResponse} (h : A.Revocation st request key st' response) :
    RevokeEnds A st key st' [(request, .ok response)] (b.revokeOutcome node (.ok response)) := by
  cases h with
  | removed payload hadmits hbefore hafter => exact .removed payload hadmits hbefore hafter
  | failed payload hadmits =>
    refine .unavailable _ ?_
    rw [code_rejection]
    rfl
  | refused status payload hadmits hstate hstatus hclient =>
    subst hstate
    have houtcome : b.revokeOutcome node (.ok ⟨status, payload, []⟩) =
        .error (.app (b.rejection ⟨status, payload, []⟩ node)) := if_neg hstatus
    rw [houtcome]
    refine .refused _ ?_ hadmits
    rw [code_rejection, if_neg (Nat.not_le.mpr hclient)]
    rintro ⟨⟩

/-- What comes of the request to revoke, once it is answered or lost. -/
theorem revokeEnds_of_exchange {sent : Request} {agents agents' : Option Text → NodeState}
    {r : Except Exc AgentResponse} (hmethod : sent.method = lit "DELETE")
    (hpath : sent.path = peerPath key) (hbody : sent.body = []) (hne : key ≠ [])
    (hexchange : (agentPlatform kind binds box raises agentAt).exchange agents sent r agents') :
    RevokeEnds (agentAt sent.baseUrl) (agents sent.baseUrl) key (agents' sent.baseUrl) [(sent, r)]
      (b.revokeOutcome node r) := by
  obtain ⟨st', hexchange, rfl, -⟩ := hexchange
  rw [update_self]
  rcases r with x | response
  · obtain ⟨happ, -⟩ := hexchange
    have hlost : ∀ request response, (request, .ok response) ∉
        [((sent, .error x) : Request × Except Exc AgentResponse)] := by
      simp
    cases x with
    | app e => exact absurd rfl (happ e)
    | transport reason => exact .unavailable (Services.unavailable node reason) rfl
    | _ => exact .raised _ happ hlost
  · obtain ⟨answer, hhandles, rfl⟩ := hexchange
    exact revokeEnds_of_revocation (NodeAgent.revocation_of_handles hmethod hpath hbody hne hhandles)

theorem wp_revokePeer (hne : key ≠ []) (hnone : exchanges l = []) :
    wp (logged ((agentPlatform kind binds box raises agentAt).env i)) (b.revokePeer node key)
      (fun out st => st.1.store = w.store ∧
        RevokeEnds (agentAt node.agentBaseUrl) (w.agents node.agentBaseUrl) key
          (st.1.agents node.agentBaseUrl) (exchanges st.2) out) (w, l) := by
  rw [Services.revokePeer, Services.request, Services.headers, if_pos rfl, Services.signedHeaders]
  -- no credentials for the node: nothing is sent
  by_cases hunset : (!optional node.agentKeyId || !optional node.agentSecretEncrypted) = true
  · rw [if_pos hunset]
    refine ⟨rfl, ?_⟩
    dsimp only
    rw [hnone]
    exact .unset (Services.secretRequired node) (by rintro ⟨⟩)
  · rw [if_neg hunset]
    simp only [bind_assoc]
    refine wp_logged_ask ?_ ?_
    · rintro secret w₁ ⟨-, rfl⟩
      refine wp_logged_ask ?_ ?_
      · rintro timestamp w₂ rfl
        simp only [pure_bind]
        -- up to here nothing was sent
        have hunsent : exchanges (l ++ [⟨.decrypt (node.agentSecretEncrypted.getD []), .ok secret⟩] ++
            [⟨.utcNow, .ok timestamp⟩]) = [] := by
          rw [exchanges_append, exchanges_append, hnone]
          rfl
        generalize l ++ [(⟨.decrypt (node.agentSecretEncrypted.getD []), .ok secret⟩ : Sigma Op.Res)] ++
          [⟨.utcNow, .ok timestamp⟩] = l' at hunsent ⊢
        refine wp_seq_attempt (P := fun r st => ∃ request agents, request.baseUrl = node.agentBaseUrl ∧
          request.method = lit "DELETE" ∧ request.path = peerPath key ∧ request.body = [] ∧
          exchanges st.2 = [(request, r)] ∧ st.1 = { w₂ with agents } ∧
          (agentPlatform kind binds box raises agentAt).exchange w₂.agents request r agents) ?_ ?_
        -- exactly one request, answered or failed
        · rw [← bind_pure (ask _)]
          refine wp_logged_ask ?_ ?_
          · rintro r w' ⟨agents, hexchange, rfl⟩
            refine ⟨_, agents, rfl, rfl, rfl, rfl, ?_, rfl, hexchange⟩
            rw [exchanges_append, hunsent]
            rfl
          · rintro x w' ⟨agents, hexchange, rfl⟩
            refine ⟨_, agents, rfl, rfl, rfl, rfl, ?_, rfl, hexchange⟩
            rw [exchanges_append, hunsent]
            rfl
        · rintro r ⟨_, l₁⟩ ⟨request, agents, hurl, hmethod, hpath, hbody, hsent, rfl, hexchange⟩
          have hends : RevokeEnds _ _ key _ [(request, r)] (b.revokeOutcome node r) :=
            revokeEnds_of_exchange hmethod hpath hbody hne hexchange
          rw [hurl, ← hsent] at hends
          rcases r with x | response
          · cases x <;> exact ⟨rfl, hends⟩
          · exact (wp_lift _).mpr ⟨rfl, hends⟩
      · rintro x _ ⟨hsafe, -⟩
        cases hsafe
    · rintro x _ ⟨-, rfl, rfl⟩
      refine ⟨rfl, .raised _ (by rintro _ ⟨⟩) ?_⟩
      rw [exchanges_append, hnone]
      rintro request response ⟨⟩

/-- How a call of `revoke` for a device with a public key ends: it asks nothing of the agent, and
returns at most a device that was revoked before; or the device is marked once the agent's call
has ended well, or badly but not because the node is unavailable; or what the call raised is
raised, with nothing written. -/
inductive RevokeRun (A : NodeAgent) (device : Device) (st : NodeState) (key : Text) (store : Store) :
    NodeState → Store → List (Request × Except Exc AgentResponse) → Except Exc Device → Prop
  | unasked {store' : Store} {out : Except Exc Device}
      (hout : ∀ d, out = .ok d → d = device ∧ device.status = .revoked) :
      RevokeRun A device st key store st store' [] out
  | settled {st' : NodeState} {store' : Store} {sent : List (Request × Except Exc AgentResponse)}
      {ending : Except Exc Doc} {out : Except Exc Device} (hstatus : device.status ≠ .revoked)
      (hends : RevokeEnds A st key st' sent ending)
      (hending : ∀ x, ending = .error x → ∃ e : AppError, x = .app e ∧ e.code ≠ .agentUnavailable)
      (hout : ∀ d, out = .ok d → d.status = .revoked) :
      RevokeRun A device st key store st' store' sent out
  | raised {st' : NodeState} {sent : List (Request × Except Exc AgentResponse)} (x : Exc)
      (hends : RevokeEnds A st key st' sent (.error x)) :
      RevokeRun A device st key store st' store sent (.error x)

/-- What is done without an await asks nothing of an agent. -/
theorem wp_logged_writes {ω α : Type} {P : Platform ω} {w : World ω} {S : List Part} {p : Task α}
    (hp : Writes S p) :
    wp (logged (P.env i)) p (fun _ st => Frame S w st.1 ∧ exchanges st.2 = exchanges l) (w, l) := by
  refine wp_uses (I := fun st : World ω × List (Sigma Op.Res) => Frame S w st.1 ∧
    exchanges st.2 = exchanges l) ?_ hp ⟨.refl S w, rfl⟩
  rintro ⟨w₁, l₁⟩ e r ⟨w₂, l₂⟩ ⟨hsuspends, hwrites⟩ ⟨hstep, hlog⟩ ⟨hframe, hsent⟩
  dsimp only at hlog
  subst hlog
  refine ⟨hframe.trans (env_frame hstep hwrites), ?_⟩
  rw [exchanges_append, hsent, exchanges_singleton (by rintro request rfl; cases hsuspends),
    List.append_nil]

theorem onOk_markRevoked (actor : User) (device : Device) (client : ClientMeta)
    {st : World (Option Text → NodeState) × List (Sigma Op.Res)} :
    wp (logged ((agentPlatform kind binds box raises agentAt).env i))
      (Services.markRevoked actor device client) (onOk fun d _ => d.status = .revoked) st := by
  refine wp_onOk_bind (wp_onOk_true _) fun now _ _ => ?_
  refine wp_onOk_bind (wp_onOk_true _) fun _ _ _ => ?_
  refine wp_onOk_bind (wp_onOk_true _) fun _ _ _ => ?_
  exact wp_onOk_bind (wp_onOk_true _) fun _ _ _ => wp_onOk_ret rfl

/-- The rest of `revoke`, for a device that is not revoked. -/
theorem wp_revokeAndMark {actor : User} {device : Device} {client : ClientMeta}
    (hkey : device.publicKey = some key) (hne : key ≠ []) (hstatus : device.status ≠ .revoked)
    (hnone : exchanges l = []) :
    wp (logged ((agentPlatform kind binds box raises agentAt).env i))
      (b.revokeOnNode (some node) device.publicKey >>= fun _ => Services.markRevoked actor device client)
      (fun out st => RevokeRun (agentAt node.agentBaseUrl) device (w.agents node.agentBaseUrl) key
        w.store (st.1.agents node.agentBaseUrl) st.1.store (exchanges st.2) out) (w, l) := by
  have hset : ¬ (!optional device.publicKey) = true := by
    rw [hkey, optional]
    simpa using hne
  rw [Services.revokeOnNode, if_neg hset, hkey, Option.getD_some, bind_assoc]
  refine wp_seq_attempt (wp_revokePeer hne hnone) ?_
  rintro ending ⟨w₁, l₁⟩ ⟨hstore, hends⟩
  have hmark : (∀ x, ending = .error x → ∃ e : AppError, x = .app e ∧ e.code ≠ .agentUnavailable) →
      wp (logged ((agentPlatform kind binds box raises agentAt).env i))
        (Services.markRevoked actor device client)
        (fun out st => RevokeRun (agentAt node.agentBaseUrl) device (w.agents node.agentBaseUrl) key
          w.store (st.1.agents node.agentBaseUrl) st.1.store (exchanges st.2) out) (w₁, l₁) := by
    intro hending
    refine wp_mono (wp_and (wp_logged_writes Locked.writes_markRevoked)
      (onOk_markRevoked actor device client)) ?_
    rintro out ⟨w₂, l₂⟩ ⟨⟨hframe, hsent⟩, hout⟩
    have hagents : w₂.agents = w₁.agents := hframe.2 .agents (by simp)
    dsimp only at hsent
    rw [hagents, hsent]
    exact .settled hstatus hends hending hout
  rcases ending with x | payload
  · cases x with
    | app e =>
      by_cases hcode : e.code = .agentUnavailable
      · rw [Services.settleRevoke, if_pos hcode]
        change RevokeRun _ _ _ _ _ _ w₁.store _ _
        rw [show w₁.store = w.store from hstore]
        exact .raised _ hends
      · rw [Services.settleRevoke, if_neg hcode]
        exact hmark (by rintro _ ⟨⟩; exact ⟨e, rfl, hcode⟩)
    | _ =>
      change RevokeRun _ _ _ _ _ _ w₁.store _ _
      rw [show w₁.store = w.store from hstore]
      exact .raised _ hends
  · exact hmark (by rintro _ ⟨⟩)

theorem wp_revoke {actor : User} {deviceId : Text} {device : Device} {client : ClientMeta}
    (hdevice : w.store.getDevice deviceId = some device)
    (hnode : w.store.getServerNode device.serverNodeId = some node)
    (hkey : device.publicKey = some key) (hne : key ≠ []) :
    wp (logged ((agentPlatform kind binds box raises agentAt).env i)) (b.revoke actor deviceId client)
      (fun out st => RevokeRun (agentAt node.agentBaseUrl) device (w.agents node.agentBaseUrl) key
        w.store (st.1.agents node.agentBaseUrl) st.1.store (exchanges st.2) out) (w, []) := by
  have hunasked : ∀ {x : Exc} {store' : Store}, RevokeRun (agentAt node.agentBaseUrl) device
      (w.agents node.agentBaseUrl) key w.store (w.agents node.agentBaseUrl) store' []
      (.error x) := .unasked (by rintro _ ⟨⟩)
  rw [Services.revoke, withStorageLock]
  refine wp_logged_ask ?_ ?_
  -- with the lock: the device, its node, and only then the agent
  · rintro _ w₁ ⟨-, rfl⟩
    rw [tryFinally]
    refine wp_seq_attempt (P := fun out st => RevokeRun (agentAt node.agentBaseUrl) device
      (w.agents node.agentBaseUrl) key w.store (st.1.agents node.agentBaseUrl) st.1.store
      (exchanges st.2) out) ?_ ?_
    · rw [Services.getForActor, bind_assoc]
      refine wp_logged_ask ?_ ?_
      · rintro _ w₂ ⟨rfl, rfl⟩
        change wp _ (_ >>= _) _ _
        rw [show w.store.getDevice deviceId = some device from hdevice]
        change wp _ ((if _ then _ else _) >>= _) _ _
        split
        · exact hunasked
        · change wp _ (if _ then _ else _) _ _
          split
          -- already revoked: the agent is not asked
          · rename_i hrevoked
            refine .unasked ?_
            rintro d ⟨⟩
            exact ⟨rfl, hrevoked⟩
          · rename_i hstatus
            refine wp_logged_ask ?_ ?_
            · rintro _ w₃ ⟨rfl, rfl⟩
              rw [show w.store.getServerNode device.serverNodeId = some node from hnode]
              exact wp_revokeAndMark (w := { w with lock := some i }) hkey hne hstatus rfl
            · rintro x w₃ ⟨-, -, rfl⟩
              exact hunasked
      · rintro x w₂ ⟨-, -, rfl⟩
        exact hunasked
    -- the lock is given back whatever the outcome
    · rintro out ⟨w₂, l₂⟩ hrun
      refine wp_logged_ask ?_ ?_
      · rintro _ w₃ rfl
        rw [wp_lift, exchanges_append, exchanges_singleton (by simp), List.append_nil]
        exact hrun
      · rintro x _ ⟨hsafe, -⟩
        cases hsafe
  · rintro x w₁ ⟨-, -, rfl⟩
    exact hunasked

end Revoke

namespace Sample

/-- A device with a public key. -/
def phone : Device where
  id := lit "d"
  userId := lit "u"
  serverNodeId := lit "n"
  name := lit "phone"
  publicKey := some (lit "a/b+c=")
  status := .active
  createdAt := 0
  updatedAt := 0

def emptyConfig : Text := lit "[Interface]\nAddress = 10.8.1.1/24\nListenPort = 51820\n"

def phoneConfig : Text :=
  emptyConfig ++ lit "[Peer]\nPublicKey = a/b+c=\nAllowedIPs = 10.8.1.2/32\n"

def phoneWorld (config remoteAddr : Text) : World (Option Text → NodeState) where
  store := store.saveDevice phone
  agents _ := nodeState config remoteAddr

def returnsRevoked : Except Exc Device → Bool
  | .ok d => d.status = .revoked
  | .error _ => false

/-- The device is revoked. -/
def revocationRun (config remoteAddr : Text) :
    Option (Except Exc Device × World (Option Text → NodeState) × List (Sigma Op.Res)) :=
  (signing.revoke user (lit "d") {}).respond (nodeResponder []).logged (phoneWorld config remoteAddr, [])

theorem exec_revocationRun {config remoteAddr : Text} {out : Except Exc Device}
    {w' : World (Option Text → NodeState)} {l : List (Sigma Op.Res)}
    (h : revocationRun config remoteAddr = some (out, w', l)) :
    Exec ((nodePlatform []).env 0) (signing.revoke user (lit "d") {}) (phoneWorld config remoteAddr) l
      out w' :=
  exec_respond_logged (h := nodeResponder []) (fun _ _ _ _ => nodeResponder_env) h

/-- The agent finds no peer and answers so. -/
theorem absentRun : ∃ out w' l, revocationRun emptyConfig (lit "10.1.2.3:5000") = some (out, w', l) ∧
    (∃ request response, (request, .ok response) ∈ exchanges l ∧
      nodeAgent.Admits (nodeState emptyConfig (lit "10.1.2.3:5000")) request) ∧
    ∃ device, w'.store.getDevice (lit "d") = some device ∧ device.status = .active := by
  have hactive : (revocationRun emptyConfig (lit "10.1.2.3:5000")).any (fun r =>
      ((exchanges r.2.2).any fun x => x.2.isOk &&
        nodeAgent.Admits (nodeState emptyConfig (lit "10.1.2.3:5000")) x.1) &&
      (r.2.1.store.getDevice (lit "d")).any (·.status = .active)) = true := by
    decide +kernel
  obtain ⟨⟨out, w', l⟩, hrun, hactive⟩ := (Option.any_eq_true _ _).mp hactive
  rw [Bool.and_eq_true] at hactive
  obtain ⟨⟨request, x | response⟩, hmem, hadmits⟩ := List.any_eq_true.mp hactive.1
  · cases hadmits
  · obtain ⟨device, hdevice, hstatus⟩ := (Option.any_eq_true _ _).mp hactive.2
    exact ⟨out, w', l, hrun, ⟨request, response, hmem, of_decide_eq_true hadmits⟩, device, hdevice,
      of_decide_eq_true hstatus⟩

theorem not_hasPeer_emptyConfig (remoteAddr : Text) :
    ¬ HasPeer (nodeState emptyConfig remoteAddr).container (lit "a/b+c=") := by
  have hparse : (Awg.parseConfig emptyConfig).toOption.all (·.peers = []) = true := by decide +kernel
  rintro ⟨text, cfg, hfile, hok, hpeer⟩
  cases hfile
  rw [hok] at hparse
  have hnone : cfg.peers = [] := of_decide_eq_true hparse
  rw [Awg.Config.findPeer, hnone] at hpeer
  exact hpeer rfl

theorem getDevice_phoneWorld (config remoteAddr : Text) :
    (phoneWorld config remoteAddr).store.getDevice (lit "d") = some phone := Table.get_put_self _ _

theorem getServerNode_phoneWorld (config remoteAddr : Text) :
    (phoneWorld config remoteAddr).store.getServerNode phone.serverNodeId = some node :=
  Table.get_put_self _ _

end Sample

section Absent
variable {kind : StorageKind} {box : SecretBox} {raises : Op → Exc → Prop}
  {binds : DeviceColumn → WireValue → Prop}
  {agentAt : Option Text → NodeAgent} {b : Services} {i : Nat} {node : ServerNode} {key : Text}
  {w w' : World (Option Text → NodeState)} {l : List (Sigma Op.Res)}

/-- Whatever the agent of its node does about the request: when a device with a public key is
returned, it is revoked, and the node has its peer no longer, just if it had it no longer before,
or the device was not revoked and the agent let the request through. -/
theorem revoked_peer_absent_iff {actor : User} {deviceId : Text} {device : Device} {client : ClientMeta}
    (hdevice : w.store.getDevice deviceId = some device)
    (hnode : w.store.getServerNode device.serverNodeId = some node)
    (hkey : device.publicKey = some key) (hne : key ≠ []) {d : Device}
    (h : Exec ((agentPlatform kind binds box raises agentAt).env i) (b.revoke actor deviceId client) w l
      (.ok d) w') :
    d.status = .revoked ∧
    (¬ HasPeer (w'.agents node.agentBaseUrl).container key ↔
      ¬ HasPeer (w.agents node.agentBaseUrl).container key ∨
      device.status ≠ .revoked ∧ ∃ exchange ∈ exchanges l,
        (agentAt node.agentBaseUrl).Admits (w.agents node.agentBaseUrl) exchange.1) := by
  have hrun := (wp_iff_exec _).mp (wp_revoke (b := b) hdevice hnode hkey hne) _ _ _ (exec_logged h [])
  rw [List.nil_append] at hrun
  dsimp only at hrun
  generalize w'.agents node.agentBaseUrl = st' at hrun ⊢
  generalize w'.store = store' at hrun
  generalize exchanges l = sent at hrun ⊢
  -- the agent was not asked, or it was and the revocation went on
  cases hrun with
  | unasked hout =>
    obtain ⟨rfl, hrevoked⟩ := hout d rfl
    exact ⟨hrevoked, by simp [hrevoked]⟩
  | settled hstatus hends hending hout =>
    refine ⟨hout d rfl, ?_⟩
    cases hends with
    | removed payload hadmits hbefore hafter => simp [hstatus, hadmits, hafter]
    | refused e hcode hadmits => simp [hadmits]
    | unset e hcode => simp
    -- this error is raised again, so the call did not return
    | unavailable e hcode =>
      obtain ⟨e', heq, hcode'⟩ := hending _ rfl
      cases heq
      exact absurd hcode hcode'
    | raised x happ =>
      obtain ⟨e, rfl, -⟩ := hending _ rfl
      exact absurd rfl (happ e)

/-- The agent removes the peer. -/
theorem revoked_peer_removed : ∃ d w' l,
    Exec ((Sample.nodePlatform []).env 0) (Sample.signing.revoke Sample.user (lit "d") {})
      (Sample.phoneWorld Sample.phoneConfig (lit "10.1.2.3:5000")) l (.ok d) w' ∧
    d.status = .revoked ∧
    ¬ HasPeer (w'.agents Sample.node.agentBaseUrl).container (lit "a/b+c=") := by
  have hadmitted : (Sample.revocationRun Sample.phoneConfig (lit "10.1.2.3:5000")).any (fun r =>
      r.1.isOk && (exchanges r.2.2).any fun x => Sample.nodeAgent.Admits
        (Sample.nodeState Sample.phoneConfig (lit "10.1.2.3:5000")) x.1) = true := by
    decide +kernel
  obtain ⟨⟨x | d, w', l⟩, hrun, hadmitted⟩ := (Option.any_eq_true _ _).mp hadmitted
  · cases hadmitted
  · obtain ⟨exchange, hmem, hadmits⟩ := List.any_eq_true.mp hadmitted
    obtain ⟨hrevoked, hiff⟩ := revoked_peer_absent_iff (Sample.getDevice_phoneWorld _ _)
      (Sample.getServerNode_phoneWorld _ _) rfl (by decide +kernel) (Sample.exec_revocationRun hrun)
    exact ⟨d, w', l, Sample.exec_revocationRun hrun, hrevoked,
      hiff.mpr (.inr ⟨by decide, exchange, hmem, of_decide_eq_true hadmits⟩)⟩

/-- An agent that does not let the backend in keeps the peer of a revoked device. -/
theorem revoked_peer_remains : ∃ d w' l,
    (Sample.phoneWorld Sample.phoneConfig (lit "203.0.113.9:5000")).store.getDevice (lit "d") =
      some Sample.phone ∧
    Exec ((Sample.nodePlatform []).env 0) (Sample.signing.revoke Sample.user (lit "d") {})
      (Sample.phoneWorld Sample.phoneConfig (lit "203.0.113.9:5000")) l (.ok d) w' ∧
    d.status = .revoked ∧ HasPeer (w'.agents Sample.node.agentBaseUrl).container (lit "a/b+c=") := by
  have hremains : (Sample.revocationRun Sample.phoneConfig (lit "203.0.113.9:5000")).any (fun r =>
      Sample.returnsRevoked r.1 &&
        HasPeer (r.2.1.agents Sample.node.agentBaseUrl).container (lit "a/b+c=")) = true := by
    decide +kernel
  obtain ⟨⟨x | d, w', l⟩, hrun, hremains⟩ := (Option.any_eq_true _ _).mp hremains
  · cases hremains
  · rw [Bool.and_eq_true, decide_eq_true_iff] at hremains
    exact ⟨d, w', l, Sample.getDevice_phoneWorld _ _, Sample.exec_revocationRun hrun,
      of_decide_eq_true hremains.1, hremains.2⟩

/-- A device whose peer is gone from its node is never revoked by a call that the agent lets
through: the call raises, as if the node were unavailable if it is answered, and writes nothing. -/
theorem revoke_absent_raises {actor : User} {deviceId : Text} {device : Device} {client : ClientMeta}
    (hdevice : w.store.getDevice deviceId = some device) (hstatus : device.status ≠ .revoked)
    (hnode : w.store.getServerNode device.serverNodeId = some node)
    (hkey : device.publicKey = some key) (hne : key ≠ [])
    (habsent : ¬ HasPeer (w.agents node.agentBaseUrl).container key) {out : Except Exc Device}
    (h : Exec ((agentPlatform kind binds box raises agentAt).env i) (b.revoke actor deviceId client) w l out w')
    {request : Request} {answer : Except Exc AgentResponse} (hsent : (request, answer) ∈ exchanges l)
    (hadmits : (agentAt node.agentBaseUrl).Admits (w.agents node.agentBaseUrl) request) :
    (∃ x, out = .error x ∧
      ∀ response, answer = .ok response → ∃ e : AppError, x = .app e ∧ e.code = .agentUnavailable) ∧
    ¬ ∃ device', w'.store.getDevice deviceId = some device' ∧ device'.status = .revoked := by
  have hrun := (wp_iff_exec _).mp (wp_revoke (b := b) hdevice hnode hkey hne) _ _ _ (exec_logged h [])
  rw [List.nil_append] at hrun
  dsimp only at hrun
  generalize w'.agents node.agentBaseUrl = st' at hrun
  generalize exchanges l = sent at hrun hsent
  generalize w'.store = store' at hrun ⊢
  have hends : ∀ {ending}, RevokeEnds (agentAt node.agentBaseUrl) (w.agents node.agentBaseUrl) key st'
      sent ending → ∃ x, ending = .error x ∧ (∀ e : AppError, x = .app e → e.code = .agentUnavailable) ∧
        ∀ response, answer = .ok response → ∃ e, x = .app e := by
    -- the request can end in five ways; admitted, and with the peer absent, in two of them
    rintro ending (⟨payload, _, hbefore, -⟩ | ⟨e, hcode, hrefused⟩ | _ | ⟨e, hcode⟩ | ⟨x, happ, hnone⟩)
    · exact absurd hbefore habsent
    · obtain ⟨rfl, -⟩ := Prod.mk.inj (List.mem_singleton.mp hsent)
      exact absurd hadmits hrefused
    · cases hsent
    · refine ⟨_, rfl, ?_, fun _ _ => ⟨e, rfl⟩⟩
      rintro _ ⟨⟩
      exact hcode
    · refine ⟨x, rfl, fun e he => absurd he (happ e), ?_⟩
      rintro response rfl
      exact absurd hsent (hnone _ _)
  cases hrun with
  | unasked hout => cases hsent
  | settled _ hended hending _ =>
    obtain ⟨x, rfl, hcode, -⟩ := hends hended
    obtain ⟨e, rfl, hcode'⟩ := hending _ rfl
    exact absurd (hcode e rfl) hcode'
  | raised x hended =>
    obtain ⟨_, ⟨⟩, hcode, hanswered⟩ := hends hended
    refine ⟨⟨x, rfl, fun response hresponse => ?_⟩, ?_⟩
    · obtain ⟨e, rfl⟩ := hanswered response hresponse
      exact ⟨e, rfl, hcode e rfl⟩
    · rintro ⟨device', hdevice', hrevoked⟩
      rw [hdevice, Option.some.injEq] at hdevice'
      exact hstatus (hdevice' ▸ hrevoked)

end Absent

/-- The agent finds no peer, and the node counts as unavailable. -/
theorem revoke_absent_fails : ∃ out w' l,
    Exec ((Sample.nodePlatform []).env 0) (Sample.signing.revoke Sample.user (lit "d") {})
      (Sample.phoneWorld Sample.emptyConfig (lit "10.1.2.3:5000")) l out w' ∧
    (∃ e : AppError, out = .error (.app e) ∧ e.code = .agentUnavailable) ∧
    ¬ ∃ device, w'.store.getDevice (lit "d") = some device ∧ device.status = .revoked := by
  obtain ⟨out, w', l, hrun, ⟨request, response, hmem, hadmits⟩, -⟩ := Sample.absentRun
  obtain ⟨⟨x, rfl, hanswered⟩, hnot⟩ := revoke_absent_raises (Sample.getDevice_phoneWorld _ _)
    (by decide) (Sample.getServerNode_phoneWorld _ _) rfl (by decide +kernel)
    (Sample.not_hasPeer_emptyConfig _) (Sample.exec_revocationRun hrun) hmem hadmits
  obtain ⟨e, rfl, hcode⟩ := hanswered response rfl
  exact ⟨_, w', l, Sample.exec_revocationRun hrun, ⟨e, rfl, hcode⟩, hnot⟩

/-- A device whose peer is gone, a request that is let through and answered, and no revocation. -/
theorem absent_peer_keeps_device : ∃ out w' l,
    (Sample.phoneWorld Sample.emptyConfig (lit "10.1.2.3:5000")).store.getDevice (lit "d") =
      some Sample.phone ∧
    ¬ HasPeer (Sample.nodeState Sample.emptyConfig (lit "10.1.2.3:5000")).container (lit "a/b+c=") ∧
    Exec ((Sample.nodePlatform []).env 0) (Sample.signing.revoke Sample.user (lit "d") {})
      (Sample.phoneWorld Sample.emptyConfig (lit "10.1.2.3:5000")) l out w' ∧
    (∃ request response, (request, .ok response) ∈ exchanges l ∧
      Sample.nodeAgent.Admits (Sample.nodeState Sample.emptyConfig (lit "10.1.2.3:5000")) request) ∧
    ∃ device, w'.store.getDevice (lit "d") = some device ∧ device.status = .active := by
  obtain ⟨out, w', l, hrun, hadmitted, hactive⟩ := Sample.absentRun
  exact ⟨out, w', l, Sample.getDevice_phoneWorld _ _, Sample.not_hasPeer_emptyConfig _,
    Sample.exec_revocationRun hrun, hadmitted, hactive⟩

end VpnControl.Backend
