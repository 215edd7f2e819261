import VpnControl.HttpApi.Auth
import VpnControl.Awg.Netip6Text

namespace VpnControl.HttpApi
open Strings Trim Netip BitPrefix

/-- The address that a request comes from, as the server reads it. -/
def Request.remoteIP (r : Request) : Option IP :=
  parseIP ((splitHostPort r.remoteAddr).getD r.remoteAddr)

/-- Every request from an address is refused. -/
def Authenticator.Rejects (a : Authenticator) (ip : IP) : Prop :=
  ∀ r : Request, r.remoteIP = some ip →
    a.checkAllowlist r = .error ⟨403, lit "remote address is not allowed"⟩

/-- What the server is given as the remote address of a connection. -/
def remoteText : IP → Text
  | .v4 a => string4 a ++ lit ":1"
  | .v6 a => '[' :: (string6 a ++ lit "]:1")

theorem notMem_string4 {c : Char} (h : ¬('0' ≤ c ∧ c ≤ '9')) (hdot : c ≠ '.') (a : BitVec 32) :
    c ∉ string4 a := by
  intro hc
  rcases mem_string4 hc with hc | hc
  · exact h hc
  · exact hdot hc

theorem splitHostPort_v4 (a : BitVec 32) :
    splitHostPort (remoteText (.v4 a)) = some (string4 a) := by
  have hreverse : (remoteText (.v4 a)).reverse = ['1'] ++ ':' :: (string4 a).reverse := by
    simp [remoteText, lit_eq]
  have hcolon : ':' ∉ string4 a := notMem_string4 (by decide) (by decide) a
  have hopen : '[' ∉ remoteText (.v4 a) := by
    have h : '[' ∉ string4 a := notMem_string4 (by decide) (by decide) a
    simp [remoteText, lit_eq, h]
  have hclose : ']' ∉ remoteText (.v4 a) := by
    have h : ']' ∉ string4 a := notMem_string4 (by decide) (by decide) a
    simp [remoteText, lit_eq, h]
  have hhead : (remoteText (.v4 a)).head? ≠ some '[' := fun h => hopen (List.mem_of_head? h)
  rw [splitHostPort, hreverse, cut_append_cons (by decide)]
  simp [hhead, hcolon, hopen, hclose]

theorem splitHostPort_v6 (a : BitVec 128) :
    splitHostPort (remoteText (.v6 a)) = some (string6 a) := by
  have hreverse : (remoteText (.v6 a)).reverse =
      ['1'] ++ ':' :: ']' :: ((string6 a).reverse ++ ['[']) := by
    simp [remoteText, lit_eq]
  have hclose : ']' ∉ string6 a := notMem_string6 a (by decide) (by decide)
  have hopen : '[' ∉ string6 a := notMem_string6 a (by decide) (by decide)
  have hcut : cut ']' (string6 a ++ lit "]:1") = some (string6 a, lit ":1") := by
    simpa [lit_eq] using cut_append_cons (w := [':', '1']) hclose
  rw [splitHostPort, hreverse, cut_append_cons (by decide)]
  simp only [remoteText, List.head?_cons, List.drop_one, List.tail_cons, hcut, if_true]
  simp [lit_eq, hopen]

/-- An address reaches the server in the form that it compares. -/
theorem remoteIP_remoteText {ip : IP} (h : ∀ a, ip = .v6 a → is4In6 a = false) {r : Request}
    (hr : r.remoteAddr = remoteText ip) : r.remoteIP = some ip := by
  rw [Request.remoteIP, hr]
  cases ip with
  | v4 a =>
    rw [splitHostPort_v4, Option.getD_some, parseIP, parseAddr_string4]
  | v6 a =>
    rw [splitHostPort_v6, Option.getD_some, parseIP, parseAddr_string6]
    simp [unmap, h a rfl]

namespace Authenticator
variable {a : Authenticator}

/-- An address is refused when no allowed network contains it. -/
theorem rejects_iff (hnets : a.allowedNets ≠ []) {ip : IP}
    (h : ∀ a, ip = .v6 a → is4In6 a = false) :
    a.Rejects ip ↔ ∀ net ∈ a.allowedNets, net.contains ip = false := by
  have hany : a.allowedNets.any (·.contains ip) = false ↔
      ∀ net ∈ a.allowedNets, net.contains ip = false := by simp
  rw [← hany]
  constructor
  · intro hrejects
    have hremote := remoteIP_remoteText (r := Sample.revocation (remoteText ip)) h rfl
    have hr := hrejects _ hremote
    rw [checkAllowlist, if_neg hnets] at hr
    rw [Request.remoteIP] at hremote
    simp only [hremote] at hr
    split at hr
    · cases hr
    · rename_i hcontains
      exact Bool.eq_false_of_not_eq_true hcontains
  · intro hnone r hr
    rw [checkAllowlist, if_neg hnets]
    rw [Request.remoteIP] at hr
    simp [hr, hnone]

end Authenticator
end VpnControl.HttpApi
