import VpnControl.Agent.Consistency
import VpnControl.Awg.WrittenTable

namespace VpnControl.Agent
open Awg Strings Effects Prog System

theorem rollbackError_cases (cause : ServiceError)
    (restoreConfig restoreClients sync : Except Text Unit) :
    (restoreConfig = .ok () ∧ restoreClients = .ok () ∧ sync = .ok ()) ∨
      ∃ details, Service.rollbackError cause restoreConfig restoreClients sync =
        .rollbackFailed cause details := by
  cases restoreConfig <;> cases restoreClients <;> cases sync <;>
    simp [Service.rollbackError, Service.detail]

/-- An error other than a failed rollback leaves the two files as they were. -/
theorem unchanged_of_reverts {allowed : (e : Op) → e.Res → Prop} {α : Type} {p : Docker α} {w : World}
    (h : wp (recorded allowed) p (Service.ErrorsRevert w) (w, [])) :
    wp (dockerEnv allowed) p (fun out w' => ∀ x, out = .error x →
      (∀ cause details, x ≠ .rollbackFailed cause details) → Unchanged w w') w := by
  apply wp_of_logged
  apply wp_mono h
  intro out st hrevert x hx hnot
  rcases hrevert x hx with hspared | ⟨-, -, cause, rc, rt, rs, -, -, hcause, hc, ht, -⟩
  · exact hspared.1
  · rcases rollbackError_cases cause rc rt rs with ⟨h₁, h₂, -⟩ | ⟨details, h₁⟩
    · exact ⟨hc h₁, ht h₂⟩
    · exact absurd (hcause.trans h₁) (hnot cause details)

/-- What every completed section leaves behind, as long as no rollback failed. -/
def Good (fmt : FloatFormat) (first : Config) (w : World) (h : History) : Prop :=
  Recovered h → Consistent fmt first w h

theorem Recovered.init {h : History} {e : Call × Except ServiceError Reply}
    (hrec : Recovered (h ++ [e])) : Recovered h :=
  fun c cause details hmem => hrec c cause details (List.mem_append_left _ hmem)

section Sections
variable {s : Service} {first : Config} {w : World} {h : History} {c : Call}

theorem good_failed {w' : World} {x : ServiceError} (hgood : Good s.fmt first w h)
    (hsame : (∀ cause details, x ≠ .rollbackFailed cause details) → Unchanged w w') :
    Good s.fmt first w' (h ++ [(c, .error x)]) := by
  intro hrec
  refine (hgood hrec.init).failed (hsame ?_) x
  rintro cause details rfl
  exact hrec c cause details (by simp)

theorem good_issue (hgood : Good s.fmt first w h) (req : IssueRequest) (endpointHost : Text) :
    wp (dockerEnv KeyAnswers) ((s.issueLocked req endpointHost).map .issued)
      (fun out w' => Good s.fmt first w' (h ++ [(c, out)])) w := by
  rw [wp_map]
  apply wp_mono (wp_and
    (unchanged_of_reverts (s.issueLocked_reverts (Service.spared_start w) req endpointHost))
    (s.onOk_issueLocked req endpointHost))
  rintro r w' ⟨hsame, hdone⟩
  cases r with
  | error x => exact good_failed hgood (hsame x rfl)
  | ok r =>
    obtain ⟨cfg, table, hprepared, hwrite⟩ := hdone r rfl
    exact fun hrec => (hgood hrec.init).issued hprepared hwrite

theorem good_revoke (hgood : Good s.fmt first w h) (publicKey : Text) :
    wp (dockerEnv KeyAnswers) ((s.revokeLocked publicKey).map .revoked)
      (fun out w' => Good s.fmt first w' (h ++ [(c, out)])) w := by
  rw [wp_map]
  apply wp_mono (wp_and
    (unchanged_of_reverts (s.revokeLocked_reverts (Service.spared_start w) publicKey))
    (s.onOk_revokeLocked publicKey))
  rintro r w' ⟨hsame, hdone⟩
  cases r with
  | error x => exact good_failed hgood (hsame x rfl)
  | ok r =>
    obtain ⟨rfl, cfg, table, hholds, hvalid, -, hwrite⟩ := hdone r rfl
    exact fun hrec => (hgood hrec.init).revoked hholds hvalid hwrite

end Sections

/-- The steps of any number of agent processes that share one lock file, with no other
writer of the files. -/
abbrev AgentStep (s : Service) :
    System World Op.Res Text ServiceError Reply Call →
      System World Op.Res Text ServiceError Reply Call → Prop :=
  Step (dockerEnv KeyAnswers) (fun _ _ => False) s.call

theorem outside_call (s : Service) (first : Config) (c : Call) :
    Outside (Good s.fmt first)
      (fun c h p w => wp (dockerEnv KeyAnswers) p (fun out w' => Good s.fmt first w' (h ++ [(c, out)])) w)
      c (s.call c) := by
  cases c with
  | issue req =>
    unfold Service.call Service.issue
    simp only
    split
    · exact .ended (.error ServiceError.nameRequired)
    · split
      · exact .ended (.error ServiceError.endpointHostRequired)
      · rw [map_withLock]
        exact .before _ _ fun w h hgood => good_issue hgood req _
  | revoke publicKey =>
    unfold Service.call Service.revoke
    simp only
    split
    · exact .ended (.error ServiceError.publicKeyRequired)
    · rw [map_withLock]
      exact .before _ _ fun w h hgood => good_revoke hgood _

theorem consistent_start {fmt : FloatFormat} {first : Config} {w : World} {text : Text}
    (hfile : w.files .config = some text) (hparse : parseConfig text = .ok first)
    (hvalid : first.validate = .ok ()) : Consistent fmt first w [] :=
  ⟨⟨text, first, hfile, hparse, hvalid, by simp [unrevoked], fun p hp _ => hp⟩,
    by simp [unrevoked]⟩

/-- Any number of processes and any interleaving of their calls, none of which ends in a
failed rollback: whenever the lock is free, the files are consistent with the calls so far. -/
theorem consistent_of_runs (s : Service) {w : World} {text : Text} {first : Config}
    (hfile : w.files .config = some text) (hparse : parseConfig text = .ok first)
    (hvalid : first.validate = .ok ()) {y : System World Op.Res Text ServiceError Reply Call}
    (hrun : Relation.ReflTransGen (AgentStep s) { shared := w } y) (hfree : y.holder = none)
    (hrec : Recovered y.history) :
    Consistent s.fmt first y.shared y.history ∧
      ∀ r ∈ unrevoked y.history, ∀ r' ∈ unrevoked y.history,
        r.clientIP = r'.clientIP → r.publicKey = r'.publicKey := by
  have hgood : Good s.fmt first y.shared y.history :=
    good_reachable (discipline_wp _ _) (outside_call s first)
      (fun _ => consistent_start hfile hparse hvalid) hrun hfree
  exact ⟨hgood hrec, fun r hr r' hr' hip => (hgood hrec).clientIP_inj hr hr' hip⟩

/-- A config file with one client. -/
def exampleText : Text :=
  lit "[Interface]\nAddress = 10.8.1.1/24\nListenPort = 51820\n" ++
    lit "[Peer]\nPublicKey = a\nAllowedIPs = 10.8.1.2/32\n"

def exampleWorld : World where
  files
    | .config => some exampleText
    | .serverPublicKey => some (lit "server\n")
    | .presharedKey => some (lit "psk\n")
    | _ => none
  applied := some exampleText

/-- A service over files without numbers. -/
def exampleService : Service where
  opts := {}
  envEndpointHost := []
  fmt := ClientsTable.Sample.floatFormat
  deflate := id

def exampleIssue : Call := .issue ⟨lit "phone", [], lit "host"⟩

def exampleRevoke : Call := .revoke (lit "a")

/-- What the two calls do while they have the lock. -/
def issueSection (s : Service) : Docker Reply :=
  (s.issueLocked ⟨lit "phone", [], lit "host"⟩ (lit "host")).map .issued

def revokeSection (s : Service) : Docker Reply := (s.revokeLocked (lit "a")).map .revoked

theorem call_exampleIssue (s : Service) :
    s.call exampleIssue = withLock (.acquireLock s.opts.lockPath) (issueSection s) := by
  have hname : trimSpace (lit "phone") ≠ [] := by decide +kernel
  have htrim : trimSpace (lit "host") = lit "host" := by decide +kernel
  have hne : lit "host" ≠ [] := by simp [lit_eq]
  have hhost : firstNonEmpty [lit "host", s.opts.endpointHost, s.envEndpointHost] = lit "host" := by
    simp [firstNonEmpty, htrim, hne]
  rw [exampleIssue, Service.call, Service.issue, if_neg hname]
  simp only [hhost, if_neg hne]
  exact map_withLock ..

theorem call_exampleRevoke (s : Service) :
    s.call exampleRevoke = withLock (.acquireLock s.opts.lockPath) (revokeSection s) := by
  have hkey : trimSpace (lit "a") = lit "a" := by decide +kernel
  have hne : lit "a" ≠ [] := by simp [lit_eq]
  rw [exampleRevoke, Service.call, Service.revoke]
  simp only [hkey, if_neg hne]
  exact map_withLock ..

/-- The key of the client that a call has added. -/
def issuedKey : Except ServiceError Reply → Option Text
  | .ok (.issued r) => some r.publicKey
  | _ => none

def revokedKey : Except ServiceError Reply → Option Text
  | .ok (.revoked r) => some r.publicKey
  | _ => none

theorem issued_of_issuedKey {out : Option (Except ServiceError Reply)} {key : Text}
    (h : out.bind issuedKey = some key) : ∃ r, out = some (.ok (.issued r)) ∧ r.publicKey = key := by
  rw [Option.bind_eq_some_iff] at h
  obtain ⟨_ | ⟨_ | _⟩, rfl, hkey⟩ := h
  · cases hkey
  · exact ⟨_, rfl, Option.some.inj hkey⟩
  · cases hkey

theorem revoked_of_revokedKey {out : Option (Except ServiceError Reply)} {key : Text}
    (h : out.bind revokedKey = some key) :
    ∃ r, out = some (.ok (.revoked r)) ∧ r.publicKey = key := by
  rw [Option.bind_eq_some_iff] at h
  obtain ⟨_ | ⟨_ | _⟩, rfl, hkey⟩ := h
  · cases hkey
  · cases hkey
  · exact ⟨_, rfl, Option.some.inj hkey⟩

/-- The answers that the runs here are about. -/
def checked (e : Op) (r : e.Res) : Bool := decide (KeyAnswers e r)

/-- A client is issued and then another one revoked. -/
def exampleSession : Option ((Docker Reply × World) × (Docker Reply × World)) := do
  let x ← (issueSection exampleService).play working checked 40 exampleWorld
  let y ← (revokeSection exampleService).play working checked 40 x.2
  return (x, y)

theorem exampleSession_outcomes :
    (exampleSession.any fun z => z.1.1.outcome.bind issuedKey = some (lit "public") ∧
      z.2.1.outcome.bind revokedKey = some (lit "a")) = true := by
  decide +kernel

/-- Two processes: one issues a client, the other one then revokes the client of the first
config. -/
theorem consistent_of_runs_issued_revoked :
    ∃ y : System World Op.Res Text ServiceError Reply Call,
      Relation.ReflTransGen (AgentStep exampleService) { shared := exampleWorld } y ∧
      (∃ r r', y.history = [(exampleIssue, .ok (.issued r)), (exampleRevoke, .ok (.revoked r'))] ∧
        r.publicKey = lit "public" ∧ r'.publicKey = lit "a") ∧
      Consistent exampleService.fmt
        (exampleConfig [{ publicKey := lit "a", allowedIPs := [lit "10.8.1.2/32"] }])
        y.shared y.history ∧
      ∀ r ∈ unrevoked y.history, ∀ r' ∈ unrevoked y.history,
        r.clientIP = r'.clientIP → r.publicKey = r'.publicKey := by
  obtain ⟨⟨⟨p, w⟩, p', w'⟩, hsession, hkeys⟩ := (Option.any_eq_true ..).mp exampleSession_outcomes
  simp only [exampleSession, Option.bind_eq_bind, Option.bind_eq_some_iff, Option.pure_def,
    Option.some.injEq, Prod.mk.injEq] at hsession
  obtain ⟨_, hissue, _, hrevoke, rfl, rfl⟩ := hsession
  simp only [decide_eq_true_eq] at hkeys
  obtain ⟨r, hout, hr⟩ := issued_of_issuedKey hkeys.1
  obtain ⟨r', hout', hr'⟩ := revoked_of_revokedKey hkeys.2
  have henv : ∀ w e, checked e (working w e).1 = true →
      dockerEnv KeyAnswers w e (working w e).1 (working w e).2 :=
    fun w e h => ⟨healthy_step _ w e, of_decide_eq_true h⟩
  have hfirst : Relation.ReflTransGen (AgentStep exampleService) { shared := exampleWorld }
      { shared := w, history := [(exampleIssue, .ok (.issued r))] } :=
    runs_call (i := 0) henv (call_exampleIssue exampleService) rfl rfl hissue hout
  have hsecond : Relation.ReflTransGen (AgentStep exampleService)
      { shared := w, history := [(exampleIssue, .ok (.issued r))] }
      { shared := w', history := [(exampleIssue, .ok (.issued r)), (exampleRevoke, .ok (.revoked r'))] } :=
    runs_call (i := 1) henv (call_exampleRevoke exampleService) rfl rfl hrevoke hout'
  have hrun := hfirst.trans hsecond
  have hrec : Recovered [(exampleIssue, .ok (.issued r)), (exampleRevoke, .ok (.revoked r'))] := by
    simp [Recovered]
  exact ⟨_, hrun, ⟨r, r', rfl, hr, hr'⟩, consistent_of_runs exampleService rfl (by decide +kernel)
    (by decide +kernel) hrun rfl hrec⟩

end VpnControl.Agent
