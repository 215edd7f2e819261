import VpnControl.HttpApi.Server

namespace VpnControl.HttpApi
open Strings Trim PercentCoding

section Encoding

theorem unhex_lowerHex {n : UInt8} (h : n < 16) : unhex (lowerHex n) = some n := by
  have hall : ∀ i : Fin 16, unhex (lowerHex (UInt8.ofNat i)) = some (UInt8.ofNat i) := by
    decide +kernel
  have hn : n.toNat < 16 := UInt8.lt_iff_toNat_lt.mp h
  simpa using hall ⟨n.toNat, hn⟩

theorem lowerHex_injective {m n : UInt8} (hm : m < 16) (hn : n < 16) (h : lowerHex m = lowerHex n) :
    m = n := by
  have hunhex := unhex_lowerHex hm
  rw [h, unhex_lowerHex hn] at hunhex
  exact (Option.some.inj hunhex).symm

theorem encodeToString_injective : Function.Injective encodeToString := by
  intro s
  induction s with
  | nil =>
    intro t h
    cases t with
    | nil => rfl
    | cons b t => cases h
  | cons b s ih =>
    intro t h
    cases t with
    | nil => cases h
    | cons c t =>
      simp only [encodeToString, List.flatMap_cons, List.cons_append, List.nil_append,
        List.cons.injEq] at h
      obtain ⟨hhi, hlo, hrest⟩ := h
      have hdiv := lowerHex_injective (div_lt b) (div_lt c) hhi
      have hmod := lowerHex_injective (mod_lt b) (mod_lt c) hlo
      have hbyte : ∀ b : UInt8, 16 * (b / 16) + b % 16 = b := by
        intro b
        apply UInt8.toNat_inj.mp
        have := b.toNat_lt
        simp
        omega
      rw [← hbyte b, hdiv, hmod, hbyte c, ih hrest]

variable {a b c d a' b' c' d' : Bytes}

theorem joinLines_four : joinLines [a, b, c, d] = a ++ 10 :: (b ++ 10 :: (c ++ 10 :: d)) := by
  simp [joinLines, List.intercalate]

/-- A text in front of the first `t` is known from the whole. -/
theorem append_cons_inj {t : UInt8} (ha : t ∉ a) (ha' : t ∉ a') (h : a ++ t :: b = a' ++ t :: b') :
    a = a' ∧ b = b' := by
  have hcut := cut_append_cons (w := b) ha
  rw [h, cut_append_cons ha'] at hcut
  have hpair := Option.some.inj hcut
  exact ⟨(congrArg Prod.fst hpair).symm, (congrArg Prod.snd hpair).symm⟩

/-- No length is written, but only the last line may contain a newline. -/
theorem joinLines_injective (ha : 10 ∉ a) (hb : 10 ∉ b) (hc : 10 ∉ c) (ha' : 10 ∉ a')
    (hb' : 10 ∉ b') (hc' : 10 ∉ c') (h : joinLines [a, b, c, d] = joinLines [a', b', c', d']) :
    a = a' ∧ b = b' ∧ c = c' ∧ d = d' := by
  rw [joinLines_four, joinLines_four] at h
  obtain ⟨hfirst, h₁⟩ := append_cons_inj ha ha' h
  obtain ⟨hsecond, h₂⟩ := append_cons_inj hb hb' h₁
  obtain ⟨hthird, hfourth⟩ := append_cons_inj hc hc' h₂
  exact ⟨hfirst, hsecond, hthird, hfourth⟩

end Encoding

section Request
variable {r r' : Request}

theorem Request.newline_notMem_method (r : Request) : 10 ∉ r.method := fun h =>
  absurd (r.method_token 10 h) (by decide +kernel)

theorem newline_notMem_requestPath (r : Request) : 10 ∉ requestPath r := by
  have hpath : 10 ∉ r.url.escapedPath := r.url.notMem_escapedPath (by decide +kernel)
  have hquery : 10 ∉ r.url.rawQuery := fun h => absurd (r.url.no_ctl 10 h) (by decide)
  rw [requestPath]
  split_ifs
  · exact hpath
  · simp [hpath, hquery]

/-- The path and the query of a request are known from what is signed of them. -/
theorem requestPath_injective (h : requestPath r = requestPath r') :
    r.url.escapedPath = r'.url.escapedPath ∧ r.url.rawQuery = r'.url.rawQuery := by
  have hmark : ∀ r : Request, 63 ∉ r.url.escapedPath := fun r =>
    r.url.notMem_escapedPath (by decide +kernel)
  rw [requestPath, requestPath] at h
  split_ifs at h with hq hq' hq'
  · exact ⟨h, hq.trans hq'.symm⟩
  · exact absurd (h ▸ List.mem_append_right _ List.mem_cons_self) (hmark r)
  · exact absurd (h ▸ List.mem_append_right _ List.mem_cons_self) (hmark r')
  · exact append_cons_inj (hmark r) (hmark r') h

end Request

section Authorize
variable {a : Authenticator} {H : Hashes} {now : Int} {r : Request} {body : Bytes}

/-- What a request has to carry to be authorized when there is a secret. -/
structure Signed (a : Authenticator) (H : Hashes) (now : Int) (r : Request) (body : Bytes) : Prop where
  allowed : a.checkAllowlist r = .ok ()
  keyID : r.get (lit "X-Agent-Key-Id") = utf8 a.keyID
  timestamp : ∃ t, parseTime (r.get (lit "X-Agent-Timestamp")) = some t ∧
    a.checkSkew now t = .ok ()
  signature : trimSpaceBytes (r.get (lit "X-Agent-Signature")) =
    signRequest H a.secret r.method (requestPath r) (r.get (lit "X-Agent-Timestamp")) body

theorem bind_ok {ε α : Type} {x : Except ε Unit} {y : Except ε α} {b : α} :
    (x >>= fun _ => y) = .ok b ↔ x = .ok () ∧ y = .ok b := by
  cases x <;> simp [bind, Except.bind]

theorem authorize_ok_iff (hsecret : a.secret ≠ []) :
    a.authorize H now r body = .ok () ↔ Signed a H now r body := by
  rw [Authenticator.authorize, bind_ok, if_neg hsecret, Authenticator.checkSignature]
  constructor
  · rintro ⟨hallowed, h⟩
    split_ifs at h with hkey
    dsimp only at h
    split at h
    · cases h
    · rename_i t ht
      obtain ⟨hskew, h⟩ := bind_ok.mp h
      split_ifs at h with hsignature
      exact ⟨hallowed, not_not.mp hkey, ⟨t, ht, hskew⟩, not_not.mp hsignature⟩
  · rintro ⟨hallowed, hkey, ⟨t, ht, hskew⟩, hsignature⟩
    refine ⟨hallowed, ?_⟩
    rw [if_neg (not_not.mpr hkey)]
    dsimp only
    rw [ht]
    refine bind_ok.mpr ⟨hskew, ?_⟩
    rw [if_neg (not_not.mpr hsignature)]

/-- The lines that are signed of a request. -/
def payload (H : Hashes) (r : Request) (body : Bytes) : Bytes :=
  joinLines [r.method, requestPath r, r.get (lit "X-Agent-Timestamp"),
    encodeToString (H.sha256 body)]

theorem Signed.newline_notMem (h : Signed a H now r body) :
    10 ∉ r.get (lit "X-Agent-Timestamp") := by
  obtain ⟨t, ht, -⟩ := h.timestamp
  exact fun hmem => absurd (stampByte_of_parseTime ht hmem) (by decide)

end Authorize

/-- A signature is good for one operation: two requests that carry it and are authorized agree in
all that the handlers read. -/
theorem signature_covers {a : Authenticator} {H : Hashes} {now now' : Int} {r r' : Request}
    {body body' : Bytes} (hsecret : a.secret ≠ [])
    (hsha : Set.InjOn H.sha256 {body, body'})
    (hhmac : Set.InjOn (H.hmacSha256 a.secret) {payload H r body, payload H r' body'})
    (h : a.authorize H now r body = .ok ()) (h' : a.authorize H now' r' body' = .ok ())
    (hsame : r.get (lit "X-Agent-Signature") = r'.get (lit "X-Agent-Signature")) :
    r.method = r'.method ∧ requestPath r = requestPath r' ∧
      r.get (lit "X-Agent-Timestamp") = r'.get (lit "X-Agent-Timestamp") ∧ body = body' ∧
      r.url.escapedPath = r'.url.escapedPath ∧ Server.peerKey r = Server.peerKey r' ∧
      ∀ (m : Type → Type) [Monad m] (s : Server m),
        s.next (route r.method r.url.escapedPath) r body =
          s.next (route r'.method r'.url.escapedPath) r' body' := by
  have hsigned := (authorize_ok_iff hsecret).mp h
  have hsigned' := (authorize_ok_iff hsecret).mp h'
  have hmac : H.hmacSha256 a.secret (payload H r body) =
      H.hmacSha256 a.secret (payload H r' body') := by
    apply encodeToString_injective
    exact hsigned.signature.symm.trans ((congrArg trimSpaceBytes hsame).trans hsigned'.signature)
  have hpayload : payload H r body = payload H r' body' := hhmac (by simp) (by simp) hmac
  obtain ⟨hmethod, hpath, htime, hhash⟩ := joinLines_injective r.newline_notMem_method
    (newline_notMem_requestPath r) hsigned.newline_notMem r'.newline_notMem_method
    (newline_notMem_requestPath r') hsigned'.newline_notMem hpayload
  have hbody : body = body' := hsha (by simp) (by simp) (encodeToString_injective hhash)
  have hescaped := (requestPath_injective hpath).1
  have hkey : Server.peerKey r = Server.peerKey r' := by rw [Server.peerKey, Server.peerKey, hescaped]
  refine ⟨hmethod, hpath, htime, hbody, hescaped, hkey, fun m _ s => ?_⟩
  rw [hmethod, hescaped, hbody]
  have hpeer : s.handlePeer r = s.handlePeer r' := by
    rw [Server.handlePeer, Server.handlePeer, hmethod, hkey]
  have hpeers : s.handlePeers r body' = s.handlePeers r' body' := by
    rw [Server.handlePeers, Server.handlePeers, hmethod]
  have hstatus : s.handleStatus r = s.handleStatus r' := by
    rw [Server.handleStatus, Server.handleStatus, hmethod]
  have hhealth : Server.handleHealth r = Server.handleHealth r' := by
    rw [Server.handleHealth, Server.handleHealth, hmethod]
  cases route r'.method r'.url.escapedPath with
  | status => exact hstatus
  | peers => exact hpeers
  | peer => exact hpeer
  | health => exact congrArg pure hhealth
  | _ => rfl

theorem signature_covers_revocation :
    Server.peerKey (Sample.revocation (lit "127.0.0.1:4000")) =
        Server.peerKey (Sample.revocation (lit "10.1.2.3:5000")) ∧
      ∀ (m : Type → Type) [Monad m] (s : Server m),
        s.next .peer (Sample.revocation (lit "127.0.0.1:4000")) [] =
          s.next .peer (Sample.revocation (lit "10.1.2.3:5000")) [] := by
  have h : Sample.authenticator.authorize Sample.hashes Sample.now
      (Sample.revocation (lit "127.0.0.1:4000")) [] = .ok () := by decide +kernel
  have h' : Sample.authenticator.authorize Sample.hashes (Sample.now + 59000000000)
      (Sample.revocation (lit "10.1.2.3:5000")) [] = .ok () := by decide +kernel
  have hhmac : Set.InjOn (Sample.hashes.hmacSha256 Sample.authenticator.secret)
      {payload Sample.hashes (Sample.revocation (lit "127.0.0.1:4000")) [],
        payload Sample.hashes (Sample.revocation (lit "10.1.2.3:5000")) []} := by
    rw [show payload Sample.hashes (Sample.revocation (lit "10.1.2.3:5000")) [] =
      payload Sample.hashes (Sample.revocation (lit "127.0.0.1:4000")) [] from rfl]
    simp
  obtain ⟨-, -, -, -, -, hkey, hnext⟩ :=
    signature_covers (by decide +kernel) (by simp) hhmac h h' rfl
  have hroute : ∀ remoteAddr, route (Sample.revocation remoteAddr).method
      (Sample.revocation remoteAddr).url.escapedPath = .peer := by
    have hroute' : route (utf8 (lit "DELETE")) (Sample.revocation []).url.escapedPath = .peer := by
      decide +kernel
    exact fun _ => hroute'
  refine ⟨hkey, fun m _ s => ?_⟩
  have hs := hnext m s
  rwa [hroute, hroute] at hs

end VpnControl.HttpApi
