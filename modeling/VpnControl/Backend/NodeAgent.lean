import VpnControl.Backend.SignedRequests
import VpnControl.Backend.Urllib
import VpnControl.Agent.LockedRuns
import VpnControl.Awg.Reread

namespace VpnControl.Backend
open Strings Json Effects Prog HttpApi Function

/-- The agent of a node: its service, the texts of its errors, how it checks and reads what it is
sent, and how it shows its state. -/
structure NodeAgent where
  service : Agent.Service
  go : GoTexts
  auth : Authenticator
  hashes : Hashes
  decode : Bytes → Except Text Agent.IssueRequest
  inspect : Agent.Locked (Except Text Doc)
  peers : Agent.Locked (Except Text Doc)

/-- What an agent works with: its container, its clock and where the backend's requests come
from. -/
structure NodeState where
  container : Agent.World
  now : Int
  remoteAddr : Text

def issuedDoc (r : Agent.IssueResult) : Doc :=
  .obj [(lit "public_key", .str r.publicKey), (lit "client_ip", .str r.clientIP),
    (lit "config", .str r.config), (lit "vpn_url", .str r.vpnURL)]

def revokedDoc (r : Agent.RevokeResult) : Doc :=
  .obj [(lit "revoked", .bool r.revoked), (lit "public_key", .str r.publicKey)]

/-- A request as it arrives at the agent, if it can. -/
def Request.arriving (request : Request) (remoteAddr : Text) : Option HttpApi.Request :=
  match parseRequestURI (utf8 request.path) with
  | none => none
  | some url =>
    if htoken : ∀ c ∈ utf8 request.method, isTokenByte c = true then
      some
        { method := utf8 request.method, url
          header := request.headers.map fun h => (h.1, utf8 h.2)
          remoteAddr, method_token := htoken }
    else none

/-- What the transport makes of an answer: one without a body has no payload, and one that is no
JSON is an error text. -/
def received : Response → AgentResponse
  | .json status payload => ⟨status, payload, []⟩
  | .redirect _ => ⟨301, .null, []⟩
  | .notFound => ⟨404, .obj [(lit "error", .str (lit "404 page not found\n"))], []⟩
  | .badRequest => ⟨400, .null, []⟩

namespace NodeAgent
variable (A : NodeAgent)

/-- The answer of a call of the service, with its error as a text. -/
def answer {α : Type} (doc : α → Doc) (p : Agent.Locked α) : Agent.Locked (Except Text Doc) := do
  let r ← p.attempt
  return (r.mapError (·.message A.go)).map doc

def server : Server Agent.Locked where
  service :=
    { inspect := A.inspect, peers := A.peers
      issue := fun req => A.answer issuedDoc (A.service.issue req)
      revoke := fun key => A.answer revokedDoc (A.service.revoke (Urllib.decodeReplace key)) }
  auth := A.auth
  hashes := A.hashes
  decode := A.decode

/-- What the agent does about a request and answers; what cannot be read is a bad request. -/
def Handles (st : NodeState) (request : Request) (response : Response) (st' : NodeState) : Prop :=
  match request.arriving st.remoteAddr with
  | none => response = .badRequest ∧ st' = st
  | some r => ∃ container,
    Runs (lockEnv Text (Agent.dockerEnv fun _ _ => True))
      (A.server.serveHTTP st.now r (utf8 request.body)) st.container (.ok response) container ∧
    st' = { st with container }

/-- What comes of a request: without an answer, it may be that the agent never got it or that its
answer was lost. -/
def exchange (st : NodeState) (request : Request) :
    Except Exc AgentResponse → NodeState → Prop
  | .ok response, st' => ∃ answer, A.Handles st request answer st' ∧ response = received answer
  | .error x, st' => (∀ e, x ≠ .app e) ∧ (st' = st ∨ ∃ answer, A.Handles st request answer st')

/-- The agent lets a request to `/peers/` through. -/
def Admits (st : NodeState) (request : Request) : Prop :=
  ∃ r, request.arriving st.remoteAddr = some r ∧ route r.method r.url.escapedPath = .peer ∧
    A.auth.authorize A.hashes st.now r (utf8 request.body) = .ok ()

instance (st : NodeState) (request : Request) : Decidable (A.Admits st request) :=
  match hr : request.arriving st.remoteAddr with
  | none => isFalse fun ⟨r, hsome, _⟩ => by simp [hr] at hsome
  | some r => decidable_of_iff (route r.method r.url.escapedPath = .peer ∧
      A.auth.authorize A.hashes st.now r (utf8 request.body) = .ok ()) (by simp [Admits, hr])

end NodeAgent

/-- A backend whose requests go to agents, by their base URLs; without one there is no request. -/
def agentPlatform (kind : StorageKind) (binds : DeviceColumn → WireValue → Prop) (box : SecretBox)
    (raises : Op → Exc → Prop) (agentAt : Option Text → NodeAgent) :
    Platform (Option Text → NodeState) where
  kind := kind
  binds := binds
  box := box
  exchange agents request answer agents' := ∃ st',
    (agentAt request.baseUrl).exchange (agents request.baseUrl) request answer st' ∧
      agents' = update agents request.baseUrl st' ∧
      (request.baseUrl = none →
        answer = .error (.other (lit "TypeError")) ∧ st' = agents request.baseUrl)
  raises := raises

/-- The config in the container has a peer with this key; around the key, the agent overlooks
spaces. -/
def HasPeer (w : Agent.World) (publicKey : Text) : Prop :=
  ∃ text cfg, w.files .config = some text ∧ Awg.parseConfig text = .ok cfg ∧
    cfg.findPeer (trimSpace publicKey) ≠ none

instance (w : Agent.World) (publicKey : Text) : Decidable (HasPeer w publicKey) :=
  match hfile : w.files .config with
  | none => isFalse fun ⟨_, _, hsome, _⟩ => by simp [hfile] at hsome
  | some text =>
    match hparse : Awg.parseConfig text with
    | .error _ => isFalse fun ⟨_, _, hsome, hok, _⟩ => by
        simp only [hfile, Option.some.injEq] at hsome
        simp [← hsome, hparse] at hok
    | .ok cfg => decidable_of_iff ((cfg.findPeer (trimSpace publicKey)).isSome = true) (by
        simp [HasPeer, hfile, hparse, Option.isSome_iff_ne_none])

section Revocation
variable {allowed : (e : Agent.Op) → e.Res → Prop} {w : Agent.World}

theorem findPeer_removePeer (c : Awg.Config) (publicKey : Text) :
    (c.removePeer publicKey).1.findPeer publicKey = none :=
  List.find?_eq_none.mpr fun p hp => by simpa using (List.mem_filter.mp hp).2

/-- A config that is written has the peers it was rendered from, if it can be read. -/
theorem not_hasPeer_of_written {cfg : Awg.Config} {table : Awg.ClientsTable} {publicKey : Text}
    (hcfg : cfg.WellFormed)
    (hwrite : Agent.Written allowed (cfg.removePeer (trimSpace publicKey)).1 table w) :
    ¬ HasPeer w publicKey := by
  rintro ⟨text, cfg', hfile, hparse, hpeer⟩
  have hwf : (cfg.removePeer (trimSpace publicKey)).1.WellFormed :=
    ⟨hcfg.interface, fun p hp => hcfg.peers p (List.mem_of_mem_filter hp)⟩
  rw [hwrite.config, Option.some.injEq] at hfile
  subst hfile
  rw [Awg.parseConfig_renderConfig hwf (Awg.linesFit_of_parseConfig hparse), Except.ok.injEq]
    at hparse
  subst hparse
  exact hpeer (findPeer_removePeer cfg _)

/-- The service revokes only a peer that it finds, and then the config does not have it. -/
theorem wp_serviceRevoke (s : Agent.Service) (publicKey : Text) :
    wp (lockEnv Text (Agent.dockerEnv allowed)) (s.revoke publicKey)
      (onOk fun _ w' => HasPeer w publicKey ∧ ¬ HasPeer w' publicKey) w := by
  have hfail : ∀ x, onOk (fun (_ : Agent.RevokeResult) w' =>
      HasPeer w publicKey ∧ ¬ HasPeer w' publicKey) (.error x : Except Agent.ServiceError _) w := by
    rintro x _ ⟨⟩
  rw [Agent.Service.revoke]
  split
  · exact hfail _
  · refine wp_withLock (fun x => hfail _) (wp_mono (s.onOk_revokeLocked _) fun r w' h a ha => ?_)
    obtain ⟨-, cfg, table, hholds, -, hpeer, hwrite⟩ := h a ha
    obtain ⟨text, hfile, hparse⟩ := hholds.config
    exact ⟨⟨text, cfg, hfile, hparse, hpeer⟩,
      not_hasPeer_of_written (Awg.parseConfig_wellFormed hparse) hwrite⟩

end Revocation

/-- A request that is refused is answered with 401 or 403. -/
theorem authorize_error {a : Authenticator} {H : Hashes} {now : Int} {r : HttpApi.Request}
    {body : Bytes} {e : HttpError} (h : a.authorize H now r body = .error e) :
    e.status = 401 ∨ e.status = 403 := by
  have hallow : ∀ e, a.checkAllowlist r = .error e → e.status = 403 := by
    intro e he
    rw [Authenticator.checkAllowlist] at he
    split at he
    · cases he
      rfl
    · split at he
      · cases he
        rfl
      · split at he
        · cases he
        · cases he
          rfl
  have hskew : ∀ timestamp e, a.checkSkew now timestamp = .error e → e.status = 401 := by
    intro timestamp e he
    simp only [Authenticator.checkSkew] at he
    generalize (if sub now timestamp < 0 then -sub now timestamp else sub now timestamp) = delta at he
    split at he
    · cases he
      rfl
    · cases he
  have hsign : ∀ e, a.checkSignature H now r body = .error e → e.status = 401 := by
    intro e he
    rw [Authenticator.checkSignature] at he
    split at he
    · cases he
      rfl
    · dsimp only at he
      split at he
      · cases he
        rfl
      · rename_i timestamp _
        cases hs : a.checkSkew now timestamp with
        | error x =>
          rw [hs] at he
          cases he
          exact hskew timestamp _ hs
        | ok _ =>
          rw [hs] at he
          change (if _ then _ else _) = _ at he
          split at he
          · cases he
            rfl
          · cases he
  -- the allowlist is looked at first and answers 403, all later checks 401
  rw [Authenticator.authorize] at h
  cases ha : a.checkAllowlist r with
  | error x =>
    rw [ha] at h
    cases h
    exact .inr (hallow _ ha)
  | ok _ =>
    rw [ha] at h
    change (if _ then _ else _) = _ at h
    split at h
    · split at h
      · cases h
      · cases h
        exact .inl rfl
    · exact .inl (hsign _ h)

/-- A request to revoke reaches the handler of a peer, unless its path has to be cleaned. -/
theorem route_peerPath (key : Text) :
    route (utf8 (lit "DELETE")) (utf8 (peerPath key)) = .peer ∨
      ∃ path, route (utf8 (lit "DELETE")) (utf8 (peerPath key)) = .redirect path := by
  have hpath : ascii (utf8 (peerPath key)) = lit "/peers/" ++ ascii (utf8 (quote key)) := by
    have hdirectory : ascii (utf8 (lit "/peers/")) = lit "/peers/" := by decide +kernel
    rw [peerPath, utf8_append, ascii, List.map_append]
    exact congrArg (· ++ _) hdirectory
  have hstar : lit "/peers/" ++ ascii (utf8 (quote key)) ≠ ['*'] := by simp [lit_eq]
  have hconnect : utf8 (lit "DELETE") ≠ utf8 (lit "CONNECT") := by decide +kernel
  have hmatch : matchPath (lit "/peers/" ++ ascii (utf8 (quote key))) = .peer := by
    have hname : (unescape (utf8 (lit "peers"))).getD (utf8 (lit "peers")) = utf8 (lit "peers") := by
      decide +kernel
    have hsegment : ((lit "/peers/" ++ ascii (utf8 (quote key))).drop 1).takeWhile (· ≠ '/') =
        lit "peers" := by simp [lit_eq]
    have hrest : ((lit "/peers/" ++ ascii (utf8 (quote key))).drop 1).dropWhile (· ≠ '/') =
        '/' :: ascii (utf8 (quote key)) := by simp [lit_eq]
    have hhealth : utf8 (lit "peers") ≠ utf8 (lit "health") := by decide +kernel
    have hstatus : utf8 (lit "peers") ≠ utf8 (lit "status") := by decide +kernel
    simp only [matchPath, hsegment, hrest, hname, hhealth, hstatus, false_and, if_false, if_true,
      reduceCtorEq]
  rw [route, hpath]
  simp only [hstar, hconnect, if_false]
  split
  · exact .inr ⟨_, rfl⟩
  · exact .inl hmatch

namespace NodeAgent
variable {A : NodeAgent} {st st' : NodeState} {request : Request} {answer : Response} {key : Text}

/-- How the agent answers a request to revoke: it lets it through and either has removed the peer
or answers with an error of the server, or it refuses it and does nothing. -/
inductive Revocation (A : NodeAgent) (st : NodeState) (request : Request) (key : Text) (st' : NodeState) :
    AgentResponse → Prop
  | removed (payload : Doc) (hadmits : A.Admits st request) (hbefore : HasPeer st.container key)
      (hafter : ¬ HasPeer st'.container key) : Revocation A st request key st' ⟨200, payload, []⟩
  | failed (payload : Doc) (hadmits : A.Admits st request) :
      Revocation A st request key st' ⟨500, payload, []⟩
  | refused (status : Nat) (payload : Doc) (hadmits : ¬ A.Admits st request) (hstate : st' = st)
      (hstatus : status ≠ 200) (hclient : status < 500) :
      Revocation A st request key st' ⟨status, payload, []⟩

/-- The handler of a peer. -/
theorem wp_handlePeer {r : HttpApi.Request} {w : Agent.World} (hmethod : r.method = utf8 (lit "DELETE"))
    (hkey : Server.peerKey r = some (utf8 key)) (hne : key ≠ []) :
    wp (lockEnv Text (Agent.dockerEnv fun _ _ => True)) (A.server.handlePeer r) (fun out w' =>
      ∃ answer, out = .ok answer ∧
        ((∃ payload, answer = .json 200 payload ∧ HasPeer w key ∧ ¬ HasPeer w' key) ∨
          ∃ payload, answer = .json 500 payload)) w := by
  obtain ⟨c, key, rfl⟩ := List.exists_cons_of_ne_nil hne
  obtain ⟨b, bytes, hbytes⟩ := List.exists_cons_of_ne_nil (Urllib.utf8_ne_nil c key)
  have hdecode : Urllib.decodeReplace (b :: bytes) = c :: key := by
    rw [← hbytes]
    exact Urllib.decodeUpTo_utf8 _ _ (Urllib.length_le_utf8 _)
  rw [Server.handlePeer, if_neg (not_not.mpr hmethod), hkey, hbytes]
  change wp _ (A.answer revokedDoc (A.service.revoke (Urllib.decodeReplace (b :: bytes))) >>=
    fun result => ret (writeResult 200 result)) _ _
  rw [hdecode, answer, bind_assoc]
  refine wp_seq_attempt (wp_serviceRevoke A.service (c :: key)) ?_
  rintro (x | result) w' h
  · exact ⟨_, rfl, .inr ⟨_, rfl⟩⟩
  · obtain ⟨hbefore, hafter⟩ := h result rfl
    exact ⟨_, rfl, .inl ⟨_, rfl, hbefore, hafter⟩⟩

/-- A request to revoke arrives with its method and its path. -/
theorem arriving_revocation (hmethod : request.method = lit "DELETE")
    (hpath : request.path = peerPath key) {remoteAddr : Text} {r : HttpApi.Request}
    (hr : request.arriving remoteAddr = some r) :
    r.method = utf8 (lit "DELETE") ∧ r.url.escapedPath = utf8 (peerPath key) := by
  rw [Request.arriving, hpath] at hr
  cases hurl : parseRequestURI (utf8 (peerPath key)) with
  | none =>
    rw [hurl] at hr
    cases hr
  | some url =>
    rw [hurl] at hr
    simp only [Option.dite_none_right_eq_some] at hr
    obtain ⟨htoken, hr⟩ := hr
    cases hr
    exact ⟨congrArg utf8 hmethod,
      (escapedPath_parseRequestURI hurl (validEncoded_path (.revokePeer key))).1⟩

theorem revocation_of_handles (hmethod : request.method = lit "DELETE")
    (hpath : request.path = peerPath key) (hbody : request.body = []) (hne : key ≠ [])
    (h : A.Handles st request answer st') :
    Revocation A st request key st' (received answer) := by
  rw [Handles] at h
  -- a request line that net/http refuses never reaches the server
  cases hr : request.arriving st.remoteAddr with
  | none =>
    rw [hr] at h
    obtain ⟨rfl, rfl⟩ := h
    refine .refused 400 .null ?_ rfl (by decide) (by decide)
    rintro ⟨r, hr', -⟩
    rw [hr] at hr'
    cases hr'
  | some r =>
    rw [hr] at h
    obtain ⟨container, hruns, rfl⟩ := h
    have hadmits : A.Admits st request ↔ route r.method r.url.escapedPath = .peer ∧
        A.auth.authorize A.hashes st.now r (utf8 request.body) = .ok () := by
      rw [Admits, hr]
      simp
    obtain ⟨hmethod', hescaped⟩ := arriving_revocation hmethod hpath hr
    have hkey := peerKey_peerPath hescaped
    rw [Server.serveHTTP] at hruns
    rcases hmethod' ▸ hescaped ▸ route_peerPath key with hroute | ⟨path, hroute⟩
    · rw [hroute] at hruns hadmits
      simp only [true_and] at hadmits
      -- the body is empty, so the limit of one MiB does not matter
      have hlength : ¬ (utf8 request.body).length > 1048576 := by
        rw [hbody]
        decide
      dsimp only at hruns
      have hserver : A.server.auth.authorize A.server.hashes st.now r (utf8 request.body) =
        A.auth.authorize A.hashes st.now r (utf8 request.body) := rfl
      rw [Server.withAuth, if_neg hlength, hserver] at hruns
      cases hauth : A.auth.authorize A.hashes st.now r (utf8 request.body) with
      | error e =>
        rw [hauth] at hadmits
        rw [hauth] at hruns
        obtain ⟨heq, rfl⟩ := runs_ret.mp hruns
        cases heq
        refine .refused e.status _ (fun h => by cases hadmits.mp h) rfl ?_ ?_
        · rcases authorize_error hauth with he | he <;> rw [he] <;> decide
        · rcases authorize_error hauth with he | he <;> rw [he] <;> decide
      | ok _ =>
        rw [hauth] at hruns
        obtain ⟨_, ⟨⟩, hanswer⟩ := hruns.post (wp_handlePeer hmethod' hkey hne)
        rcases hanswer with ⟨payload, rfl, hbefore, hafter⟩ | ⟨payload, rfl⟩
        · exact .removed payload (hadmits.mpr hauth) hbefore hafter
        · exact .failed payload (hadmits.mpr hauth)
    -- ServeMux redirects a path that is not clean, before the middleware
    · rw [hroute] at hruns hadmits
      obtain ⟨heq, rfl⟩ := runs_ret.mp hruns
      cases heq
      refine .refused 301 .null (fun h => ?_) rfl (by decide) (by decide)
      cases (hadmits.mp h).1

end NodeAgent
/-- A platform whose requests can end in more ways. -/
theorem env_of_exchange {ω : Type} {P : Platform ω}
    {exchange : ω → Request → Except Exc AgentResponse → ω → Prop}
    (hexchange : ∀ agents request r agents', P.exchange agents request r agents' →
      exchange agents request r agents') {i : Nat} {w w' : World ω} {e : Op} {r : e.Res}
    (h : P.env i w e r w') : Platform.env { P with exchange } i w e r w' := by
  cases e with
  | request request =>
    rcases r with x | response
    · obtain ⟨agents, h, rfl⟩ := h
      exact ⟨agents, hexchange _ _ _ _ h, rfl⟩
    · obtain ⟨agents, h, rfl⟩ := h
      exact ⟨agents, hexchange _ _ _ _ h, rfl⟩
  | _ => rcases r with x | a <;> exact h

namespace Sample

def nodeAgent : NodeAgent where
  service := Agent.exampleService
  go := ⟨id, id, id, id⟩
  auth := HttpApi.Sample.authenticator
  hashes := HttpApi.Sample.hashes
  decode _ := .ok ⟨lit "phone", [], lit "node.example"⟩
  inspect := ret (.ok .null)
  peers := ret (.ok .null)

/-- A container in which everything works. -/
abbrev nodeHandler (runtime : Text) :
    Handler Agent.World (LockOp Agent.Op) (LockRes Text Agent.Op.Res) :=
  lockHandler Text (Agent.healthy runtime)

/-- The answer of the agent, and what is left of its container. -/
def nodeAnswer (runtime : Text) (st : NodeState) (request : Request) : Option (Response × NodeState) :=
  match request.arriving st.remoteAddr with
  | none => some (.badRequest, st)
  | some r =>
    match (nodeAgent.server.serveHTTP st.now r (utf8 request.body)).runWith (nodeHandler runtime)
      st.container with
    | (.ok response, container) => some (response, { st with container })
    | (.error _, _) => none

def nodeScenario (runtime : Text) : Scenario (Option Text → NodeState) where
  kind := .database
  agent _ agents request :=
    if request.baseUrl = none then (.error (.other (lit "TypeError")), agents)
    else
      match nodeAnswer runtime (agents request.baseUrl) request with
      | some (response, st) => (.ok (received response), update agents request.baseUrl st)
      | none => (.error (.transport []), agents)
  raises _ _ := false

/-- The backend's clock shows the moment of the time stamp. -/
def nodeResponder (runtime : Text) : Responder (World (Option Text → NodeState)) Op Op.Res
  | w, .utcNow => some (.ok (lit "2026-07-07T10:00:00Z"), w)
  | w, e => (nodeScenario runtime).answer 0 none w e

abbrev nodePlatform (runtime : Text) : Platform (Option Text → NodeState) :=
  agentPlatform .database (nodeScenario runtime).platform.binds Scenario.box
    (nodeScenario runtime).platform.raises fun _ => nodeAgent

theorem handles_of_nodeAnswer {runtime : Text} {st st' : NodeState} {request : Request}
    {response : Response} (h : nodeAnswer runtime st request = some (response, st')) :
    nodeAgent.Handles st request response st' := by
  rw [nodeAnswer] at h
  rw [NodeAgent.Handles]
  cases hr : request.arriving st.remoteAddr with
  | none =>
    rw [hr] at h
    cases h
    exact ⟨rfl, rfl⟩
  | some r =>
    simp only [hr] at h
    have hruns : Runs (lockEnv Text (Agent.dockerEnv fun _ _ => True))
        (nodeAgent.server.serveHTTP st.now r (utf8 request.body)) st.container _ _ :=
      wp_runWith (lockHandler_lockEnv fun w e => ⟨Agent.healthy_step runtime w e, trivial⟩)
        ((wp_iff_exec _).mpr fun l out s' hexec => ⟨l, hexec⟩)
    split at h
    · rename_i answer container heq
      rw [heq] at hruns
      cases h
      exact ⟨container, hruns, rfl⟩
    · cases h

theorem nodeResponder_env {runtime : Text} {w w' : World (Option Text → NodeState)} {e : Op} {r : e.Res}
    (h : nodeResponder runtime w e = some (r, w')) : (nodePlatform runtime).env 0 w e r w' := by
  have hscenario : ∀ {e : Op} {r : e.Res}, (nodeScenario runtime).answer 0 none w e = some (r, w') →
      (nodePlatform runtime).env 0 w e r w' := by
    intro e r h
    refine env_of_exchange (P := (nodeScenario runtime).platform) ?_
      ((nodeScenario runtime).answer_env 0 none h)
    rintro agents request answer agents' ⟨fault, heq⟩
    simp only [nodeScenario] at heq
    split at heq
    · cases heq
      exact ⟨_, ⟨by rintro _ ⟨⟩, .inl rfl⟩, (update_eq_self _ _).symm, fun _ => ⟨rfl, rfl⟩⟩
    · rename_i hurl
      split at heq
      · rename_i response st hanswer
        cases heq
        exact ⟨st, ⟨response, handles_of_nodeAnswer hanswer, rfl⟩, rfl, fun h => absurd h hurl⟩
      · cases heq
        exact ⟨_, ⟨by rintro _ ⟨⟩, .inl rfl⟩, (update_eq_self _ _).symm, fun h => absurd h hurl⟩
  cases e with
  | utcNow =>
    cases h
    rfl
  | _ => exact hscenario h

/-- A container with one file, the config. -/
def nodeState (config remoteAddr : Text) : NodeState where
  container :=
    { files := fun | .config => some config | _ => none
      applied := none }
  now := HttpApi.Sample.now
  remoteAddr := remoteAddr

end Sample
end VpnControl.Backend
