import VpnControl.Backend.Sessions

namespace VpnControl.Backend
open Strings Json Effects Prog

namespace MadeCall
variable {ω : Type} (b : Services)

/-- The login and the address of an attempt that passed the limiter and was rejected. -/
def rejection : MadeCall ω → Option (Text × Option Text)
  | ⟨_, .login login _ client, .error (.app e)⟩ =>
    if e.code = .unauthorized then some (b.normalizeLogin login, client.ip) else none
  | _ => none

/-- The login of an attempt that succeeded. -/
def success : MadeCall ω → Option Text
  | ⟨_, .login login .., .ok _⟩ => some (b.normalizeLogin login)
  | _ => none

/-- The call was made in the closed window of time that begins at `start`. -/
def within (start width : Time) (c : MadeCall ω) : Bool :=
  start ≤ c.before.now && c.before.now ≤ start + width

/-- The call is a rejected attempt that counts under the key. -/
def failsUnder (key : Text) (c : MadeCall ω) : Bool :=
  (c.rejection b).any fun (login, ip) => key ∈ failureKeys login ip

/-- The call is a login that clears the key. -/
def clears (key : Text) (c : MadeCall ω) : Bool := (c.success b).any fun login => key = loginKey login

end MadeCall

/-- The rejected attempts under a key since it was last cleared. -/
def failures {ω : Type} (b : Services) (key : Text) (l : List (MadeCall ω)) : List (MadeCall ω) :=
  (l.takeWhile fun c => !c.clears b key).filter fun c => c.failsUnder b key

section Keys

theorem ipKey_ne_loginKey (ip login : Text) : ipKey ip ≠ loginKey login := by
  rw [ipKey, loginKey, lit_eq, lit_eq]
  exact fun h => absurd (List.cons.inj h).1 (by decide)

theorem loginKey_mem_failureKeys {key login : Text} {ip : Option Text} :
    loginKey key ∈ failureKeys login ip ↔ login = key := by
  rw [failureKeys, List.mem_cons]
  constructor
  · rintro (h | h)
    · exact (List.append_cancel_left h).symm
    · split at h
      · exact absurd (List.mem_singleton.mp h).symm (ipKey_ne_loginKey _ _)
      · cases h
  · rintro rfl
    exact .inl rfl

theorem ipKey_mem_failureKeys {address login : Text} {ip : Option Text} (h : address ≠ []) :
    ipKey address ∈ failureKeys login ip ↔ ip = some address := by
  rw [failureKeys, List.mem_cons, or_iff_right (ipKey_ne_loginKey _ _)]
  cases ip with
  | none => simp [optional]
  | some ip =>
    by_cases hip : ip = []
    · simp [optional, hip, Ne.symm h]
    · simp [optional, hip, ipKey, eq_comm]

end Keys

section Counts
variable {ω : Type} {P : Platform ω} {s : Store} {key key' : Text} {since cutoff at' : Time}

theorem countLoginFailures_prune (h : cutoff ≤ since) :
    (P.pruneLoginFailures s key' cutoff).countLoginFailures key since =
      s.countLoginFailures key since := by
  rw [Platform.pruneLoginFailures, Store.countLoginFailures, List.countP_filter]
  refine List.countP_congr fun ⟨k, at'⟩ _ => ?_
  rw [Bool.and_eq_true, and_iff_left_iff_imp]
  intro hk
  simp only [Bool.and_eq_true, decide_eq_true_eq] at hk
  cases P.kind <;> simp [Nat.le_trans h hk.2]

theorem countLoginFailures_record :
    (s.recordLoginFailure key' at').countLoginFailures key since =
      s.countLoginFailures key since + if key' = key ∧ since ≤ at' then 1 else 0 := by
  rw [Store.recordLoginFailure, Store.countLoginFailures, List.countP_append]
  simp [Store.countLoginFailures, List.countP_cons]

theorem countLoginFailures_clear (h : key ≠ key') :
    (s.clearLoginFailures key').countLoginFailures key since = s.countLoginFailures key since := by
  rw [Store.clearLoginFailures, Store.countLoginFailures, List.countP_filter]
  refine List.countP_congr fun ⟨k, at'⟩ _ => ?_
  simp only [Bool.and_eq_true, decide_eq_true_eq]
  constructor
  · exact fun h => h.1
  · rintro ⟨rfl, h'⟩
    exact ⟨⟨rfl, h'⟩, h⟩

/-- The failures that count from a later time on are fewer. -/
theorem countLoginFailures_mono (h : cutoff ≤ since) :
    s.countLoginFailures key since ≤ s.countLoginFailures key cutoff := by
  refine List.countP_mono_left fun ⟨k, at'⟩ _ hk => ?_
  simp only [Bool.and_eq_true, decide_eq_true_eq] at hk ⊢
  exact ⟨hk.1, Nat.le_trans h hk.2⟩

end Counts

/-- What a call does to the recorded failures: what is recorded for the window that ends with the
call stays, unless the key is cleared; a rejected attempt is recorded, and found fewer failures
than are allowed. -/
structure RateStep {ω : Type} (b : Services) (c : MadeCall ω) (w' : World ω) : Prop where
  now : w'.now = c.before.now
  recorded : ∀ {key since}, c.before.now - minutes b.settings.loginRateLimitWindowMinutes ≤ since →
    c.clears b key = false → c.before.store.countLoginFailures key since +
      (if c.failsUnder b key = true ∧ since ≤ c.before.now then 1 else 0) ≤
        w'.store.countLoginFailures key since
  limited : ∀ {key}, c.failsUnder b key = true → c.before.store.countLoginFailures key
    (c.before.now - minutes b.settings.loginRateLimitWindowMinutes) <
      b.settings.loginRateLimitAttempts

/-- What holds of the recorded failures after the calls `l`. -/
structure RateInv {ω : Type} (b : Services) (l : List (MadeCall ω)) (w : World ω) : Prop where
  recorded : ∀ key since, w.now - minutes b.settings.loginRateLimitWindowMinutes ≤ since →
    (failures b key l).countP (fun c => since ≤ c.before.now) ≤
      w.store.countLoginFailures key since
  bounded : ∀ key start, (failures b key l).countP
    (MadeCall.within start (minutes b.settings.loginRateLimitWindowMinutes)) ≤
      b.settings.loginRateLimitAttempts

section Inv
variable {ω : Type} {b : Services} {l : List (MadeCall ω)} {c : MadeCall ω} {w w' : World ω}

theorem failures_cons_of_clears {key : Text} (h : c.clears b key = true) :
    failures b key (c :: l) = [] := by
  rw [failures, List.takeWhile_cons_of_neg (by simp [h])]
  rfl

theorem failures_cons {key : Text} (h : c.clears b key = false) (p : MadeCall ω → Bool) :
    (failures b key (c :: l)).countP p =
      (failures b key l).countP p + if c.failsUnder b key = true ∧ p c = true then 1 else 0 := by
  rw [failures, List.takeWhile_cons_of_pos (by simp [h]), List.countP_filter, List.countP_cons,
    failures, List.countP_filter]
  simp [and_comm]

theorem RateInv.later (h : RateInv b l w) (hnow : w.now ≤ w'.now) (hstore : w'.store = w.store) :
    RateInv b l w' where
  recorded key since hsince := by
    rw [hstore]
    exact h.recorded key since (Nat.le_trans (Nat.sub_le_sub_right hnow _) hsince)
  bounded := h.bounded

theorem RateInv.call (hinv : RateInv b l c.before) (hstep : RateStep b c w') :
    RateInv b (c :: l) w' where
  recorded key since hsince := by
    rw [hstep.now] at hsince
    cases hclears : c.clears b key with
    | true =>
      rw [failures_cons_of_clears hclears]
      exact Nat.zero_le _
    | false =>
      rw [failures_cons hclears]
      have hold := hinv.recorded key since hsince
      have hnew := hstep.recorded hsince hclears
      simp only [decide_eq_true_eq]
      omega
  bounded key start := by
    cases hclears : c.clears b key with
    | true =>
      rw [failures_cons_of_clears hclears]
      exact Nat.zero_le _
    | false =>
      rw [failures_cons hclears]
      split
      · rename_i hnew
        obtain ⟨hfails, hwithin⟩ := hnew
        simp only [MadeCall.within, Bool.and_eq_true, decide_eq_true_eq] at hwithin
        -- the window reaches back no further than the one that the limiter looked at
        have hcutoff : c.before.now - minutes b.settings.loginRateLimitWindowMinutes ≤ start := by
          exact Nat.sub_le_iff_le_add.mpr hwithin.2
        have hle : (failures b key l).countP
            (MadeCall.within start (minutes b.settings.loginRateLimitWindowMinutes)) ≤
              (failures b key l).countP fun c => start ≤ c.before.now := by
          refine List.countP_mono_left fun c _ hc => ?_
          rw [MadeCall.within, Bool.and_eq_true] at hc
          exact hc.1
        have hrecorded := hinv.recorded key start hcutoff
        have hmono : c.before.store.countLoginFailures key start ≤
            c.before.store.countLoginFailures key _ := countLoginFailures_mono hcutoff
        calc
          _ ≤ c.before.store.countLoginFailures key start + 1 := by
            exact Nat.succ_le_succ (hle.trans hrecorded)
          _ ≤ c.before.store.countLoginFailures key
              (c.before.now - minutes b.settings.loginRateLimitWindowMinutes) + 1 := by
            exact Nat.succ_le_succ hmono
          _ ≤ b.settings.loginRateLimitAttempts := hstep.limited hfails
      · exact hinv.bounded key start

end Inv

section Calls
variable {ω : Type} {P : Platform ω} {b : Services} {i : Nat} {w w₀ : World ω} {α : Type}
  {Q : Post (World ω) Exc α}

/-- No count of failures since `cutoff` or later has changed, and no time has passed. -/
structure SameCounts (cutoff : Time) (w w' : World ω) : Prop where
  now : w'.now = w.now
  counts : ∀ {key since}, cutoff ≤ since →
    w'.store.countLoginFailures key since = w.store.countLoginFailures key since

theorem wp_countLoginFailures (hworks : P.StorageWorks) {key : Text} {cutoff : Time}
    {f : Nat → Task α} (hf : ∀ w', SameCounts cutoff w w' →
      wp (P.env i) (f (w.store.countLoginFailures key cutoff)) Q w') :
    wp (P.env i) (ask (.countLoginFailures key cutoff) >>= f) Q w := by
  apply wp_works_seq hworks rfl
  rintro _ _ ⟨rfl, rfl⟩
  exact hf _ ⟨rfl, countLoginFailures_prune⟩

/-- Who passes the limiter has fewer failures than allowed under each of the keys. -/
theorem wp_enforceRateLimit (hworks : P.StorageWorks) {login : Text} {ip : Option Text} {now : Time}
    {f : Unit → Task α}
    (hlimited : ∀ w', SameCounts (now - minutes b.settings.loginRateLimitWindowMinutes) w w' →
      Q (.error (.app Services.rateLimited)) w')
    (hpassed : ∀ w', SameCounts (now - minutes b.settings.loginRateLimitWindowMinutes) w w' →
      (∀ key ∈ failureKeys login ip, w.store.countLoginFailures key
        (now - minutes b.settings.loginRateLimitWindowMinutes) <
          b.settings.loginRateLimitAttempts) → wp (P.env i) (f ()) Q w') :
    wp (P.env i) (b.enforceRateLimit login ip now >>= f) Q w := by
  rw [Services.enforceRateLimit, Services.attempts]
  simp only [bind_assoc]
  -- first the key of the login, then that of the address if there is one
  apply wp_countLoginFailures hworks
  intro w₁ h₁
  change wp _ ((if _ then _ else _) >>= _) _ _
  split
  · rename_i hip
    rw [bind_assoc]
    apply wp_countLoginFailures hworks
    intro w₂ h₂
    -- counting prunes only what is older than the window
    have hsame : SameCounts (now - minutes b.settings.loginRateLimitWindowMinutes) w w₂ :=
      ⟨h₂.now.trans h₁.now, fun h => (h₂.counts h).trans (h₁.counts h)⟩
    change wp _ ((if _ then _ else _) >>= _) _ _
    split
    · exact hlimited w₂ hsame
    · rename_i hfew
      refine hpassed w₂ hsame fun key hkey => ?_
      rw [h₁.counts (Nat.le_refl _), ge_iff_le, Nat.not_le, Nat.max_lt] at hfew
      rw [failureKeys, if_pos hip, List.mem_cons, List.mem_singleton] at hkey
      rcases hkey with rfl | rfl
      · exact hfew.1
      · exact hfew.2
  · rename_i hip
    change wp _ ((if _ then _ else _) >>= _) _ _
    split
    · exact hlimited w₁ h₁
    · rename_i hfew
      refine hpassed w₁ h₁ fun key hkey => ?_
      rw [failureKeys, if_neg hip, List.mem_singleton] at hkey
      rw [hkey]
      exact Nat.not_le.mp hfew

theorem wp_recordFailures (hworks : P.StorageWorks) {now : Time} (keys : List Text)
    {f : Unit → Task α} (hf : ∀ w', w'.now = w.now →
      (∀ key since, w.store.countLoginFailures key since +
        (if key ∈ keys ∧ since ≤ now then 1 else 0) ≤ w'.store.countLoginFailures key since) →
      wp (P.env i) (f ()) Q w') :
    wp (P.env i) (Services.recordFailures now keys >>= f) Q w := by
  induction keys generalizing w with
  | nil => exact hf w rfl fun key since => by simp
  | cons key keys ih =>
    rw [Services.recordFailures, bind_assoc]
    apply wp_works_seq hworks rfl
    rintro _ _ rfl
    refine ih fun w' hnow hcounts => hf w' hnow fun key' since => ?_
    refine Nat.le_trans ?_ (hcounts key' since)
    rw [countLoginFailures_record]
    by_cases hsince : since ≤ now
    · by_cases hkey : key' = key
      · simp [hkey, hsince]
      · simp [hkey, Ne.symm hkey]
    · simp [hsince]

/-- A call that fails under no key and leaves the counts of those that it does not clear. -/
theorem RateStep.keeps {c : MadeCall ω} {w' : World ω}
    (hfails : ∀ key, c.failsUnder b key = false) (hnow : w'.now = c.before.now)
    (hcounts : ∀ {key since},
      c.before.now - minutes b.settings.loginRateLimitWindowMinutes ≤ since →
      c.clears b key = false → w'.store.countLoginFailures key since =
        c.before.store.countLoginFailures key since) : RateStep b c w' where
  now := hnow
  recorded {key since} hsince hclears := by
    rw [hcounts hsince hclears, hfails]
    simp
  limited {key} hkey := by
    rw [hfails] at hkey
    cases hkey

theorem rateStep_login (hworks : P.StorageWorks) (login password : Text) (client : ClientMeta) :
    wp (P.env i) (b.login login password client)
      (fun out w' => RateStep b ⟨w, .login login password client, out⟩ w') w := by
  apply wp_works_seq hworks rfl
  rintro _ w₁ ⟨rfl, rfl⟩
  apply wp_enforceRateLimit hworks
  · exact fun w₂ h₂ => .keeps (fun _ => rfl) h₂.now fun hsince _ => h₂.counts hsince
  intro w₂ h₂ hfew
  apply wp_works_seq hworks rfl
  rintro _ w₃ ⟨rfl, rfl⟩
  split
  · rw [Services.loginFailed]
    apply wp_recordFailures hworks
    intro w₄ hnow hcounts
    rw [wp_bind]
    refine wp_auditLog hworks fun audit => ?_
    refine ⟨hnow.trans h₂.now, fun {key since} hsince _ => ?_, fun {key} hkey => ?_⟩
    · rw [← h₂.counts hsince]
      change _ ≤ w₄.store.countLoginFailures key since
      simpa [MadeCall.failsUnder, MadeCall.rejection, Services.wrongCredentials, unauthorized]
        using hcounts key since
    · exact hfew key (by simpa [MadeCall.failsUnder, MadeCall.rejection, Services.wrongCredentials,
        unauthorized] using hkey)
  · rw [Services.loggedIn]
    apply wp_works_seq hworks rfl
    rintro _ _ rfl
    apply wp_works_seq hworks rfl
    rintro token _ ⟨hascii, rfl⟩
    apply wp_works_seq hworks rfl
    rintro id _ ⟨-, rfl⟩
    rw [hashSessionToken, if_pos hascii]
    apply wp_works_seq hworks rfl
    rintro _ _ rfl
    rw [wp_bind]
    refine wp_auditLog hworks fun audit => .keeps (fun _ => rfl) h₂.now fun hsince hclears => ?_
    refine Eq.trans (countLoginFailures_clear ?_) (h₂.counts hsince)
    simpa [MadeCall.clears, MadeCall.success] using hclears

theorem rateStep_of_writes {S : List Part} {call : UserCall} (hp : Writes S (b.userCall call))
    (hS : .failures ∉ S) (hcall : ∀ login password client, call ≠ .login login password client) :
    wp (P.env i) (b.userCall call) (fun out w' => RateStep b ⟨w, call, out⟩ w') w := by
  refine wp_mono (wp_writes hp) fun out w' h => .keeps (fun key => ?_) h.now fun _ _ => ?_
  · cases call with
    | login => exact absurd rfl (hcall _ _ _)
    | _ => rfl
  · rw [Store.countLoginFailures, h.same .failures hS]
    rfl

theorem rateStep_of_call (hworks : P.StorageWorks) (call : UserCall) :
    wp (P.env i) (b.userCall call) (fun out w' => RateStep b ⟨w, call, out⟩ w') w := by
  cases call with
  | login login password client => exact rateStep_login hworks login password client
  | resolveSession => exact rateStep_of_writes writes_resolveSession (by simp) (by simp)
  | logout => exact rateStep_of_writes writes_logout (by simp) (by simp)
  | currentAdmin => exact rateStep_of_writes writes_getCurrentAdmin (by simp) (by simp)
  | create => exact rateStep_of_writes writes_createUser (by simp) (by simp)
  | update => exact rateStep_of_writes writes_updateUser (by simp) (by simp)
  | resetPassword => exact rateStep_of_writes writes_resetPassword (by simp) (by simp)
  | setActive => exact rateStep_of_writes writes_setActive (by simp) (by simp)

variable {l : List (MadeCall ω)}

theorem rateInv_of_run (hworks : P.StorageWorks)
    (hrun : Calls (P.env i) World.Later b.userCall w₀ l w) : RateInv b l w := by
  refine hrun.invariant ?_ (fun l w call h => ?_) ?_
  · rintro l w _ h ⟨now, hnow, rfl⟩
    exact h.later hnow rfl
  · exact wp_mono (rateStep_of_call hworks call) fun out w' hstep => h.call hstep
  · exact ⟨fun key since _ => Nat.zero_le _, fun key start => Nat.zero_le _⟩

/-- Nothing clears the key of an address. -/
theorem failures_ipKey {address : Text} (h : address ≠ []) (p : MadeCall ω → Bool) :
    (failures b (ipKey address) l).countP p =
      l.countP fun c => p c && (c.rejection b).any fun r => r.2 = some address := by
  have htake : (l.takeWhile fun c => !c.clears b (ipKey address)) = l := by
    refine List.takeWhile_eq_self_iff.mpr fun c _ => ?_
    rw [MadeCall.clears]
    cases c.success b <;> simp [ipKey_ne_loginKey]
  rw [failures, htake, List.countP_filter]
  refine List.countP_congr fun c _ => ?_
  rw [MadeCall.failsUnder]
  cases c.rejection b <;> simp [ipKey_mem_failureKeys h]

theorem failures_loginKey (login : Text) (p : MadeCall ω → Bool) :
    (failures b (loginKey login) l).countP p =
      (l.takeWhile fun c => c.success b ≠ some login).countP fun c =>
        p c && (c.rejection b).any fun r => r.1 = login := by
  have hclears : (fun c : MadeCall ω => !c.clears b (loginKey login)) =
      fun c => decide (c.success b ≠ some login) := by
    funext c
    rw [MadeCall.clears]
    cases c.success b <;> simp [loginKey, eq_comm]
  rw [failures, hclears, List.countP_filter]
  refine List.countP_congr fun c _ => ?_
  rw [MadeCall.failsUnder]
  cases c.rejection b <;> simp [loginKey_mem_failureKeys]

/-- After any calls, made one after the other: in a closed window of time as long as the limiter's
lie at most as many rejected attempts from one address as it allows, and at most as many with one
login since this login last succeeded. -/
theorem rejections_of_run (hworks : P.StorageWorks)
    (hrun : Calls (P.env i) World.Later b.userCall w₀ l w) (start : Time) :
    (∀ address, address ≠ [] → l.countP (fun c =>
      c.within start (minutes b.settings.loginRateLimitWindowMinutes) &&
        (c.rejection b).any fun r => r.2 = some address) ≤ b.settings.loginRateLimitAttempts) ∧
    ∀ login, (l.takeWhile fun c => c.success b ≠ some login).countP (fun c =>
      c.within start (minutes b.settings.loginRateLimitWindowMinutes) &&
        (c.rejection b).any fun r => r.1 = login) ≤ b.settings.loginRateLimitAttempts := by
  have hinv := rateInv_of_run hworks hrun
  constructor
  · intro address haddress
    rw [← failures_ipKey haddress]
    exact hinv.bounded (ipKey address) start
  · intro login
    rw [← failures_loginKey]
    exact hinv.bounded (loginKey login) start

end Calls

/-- Six attempts with a wrong password from one address: the sixth is limited. -/
theorem rejections_of_burst :
    (Sample.calls Sample.loggedOut (List.replicate 6
      (.login (lit "user") (lit "no") { ip := some (lit "9") }))).1.countP (fun c =>
        c.within Sample.loggedOut.now (minutes 15) && (c.rejection Sample.services).any fun r =>
          r.2 = some (lit "9")) ≤ 5 :=
  (rejections_of_run (P := (Sample.scenario .database).platform) (fun _ _ _ h => by cases h)
    (Sample.calls_run Sample.loggedOut _) Sample.loggedOut.now).1 (lit "9") (by simp [lit_eq])

end VpnControl.Backend
