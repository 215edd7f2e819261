import VpnControl.HttpApi.Auth

namespace VpnControl.HttpApi
open Strings

/-- The difference of two instants as far as a duration reaches. -/
theorem toInt_sub (t u : Int) :
    (sub t u).toInt = max (-2 ^ 63) (min (2 ^ 63 - 1) (t - u)) := by
  have hmin : Int64.minValue.toInt = -2 ^ 63 := rfl
  have hmax : Int64.maxValue.toInt = 2 ^ 63 - 1 := rfl
  rw [sub, hmin, hmax, Int64.toInt_ofInt_of_le (by omega) (by omega)]

/-- The length of a duration as the program computes it: the least duration has no negative. -/
theorem toInt_delta (d : Duration) : (if d < 0 then -d else d).toInt =
    if d.toInt = -2 ^ 63 then -2 ^ 63 else |d.toInt| := by
  have hlow := d.le_toInt
  have hhigh := d.toInt_lt
  have hzero : d < 0 ↔ d.toInt < 0 := Int64.lt_iff_toInt_lt
  split_ifs with hneg hleast hleast
  · rw [Int64.toInt_neg, hleast]
    rfl
  · rw [Int64.toInt_neg, Int.bmod_eq_of_le (by omega) (by omega), abs_of_neg (hzero.mp hneg)]
  · rw [hzero] at hneg
    omega
  · rw [hzero, not_lt] at hneg
    rw [abs_of_nonneg hneg]

namespace Authenticator
variable {a : Authenticator} {now timestamp : Int}

/-- What the check of the time lets through. -/
theorem checkSkew_ok_iff : a.checkSkew now timestamp = .ok () ↔
    now - timestamp ≤ -2 ^ 63 ∨ min (2 ^ 63 - 1) |now - timestamp| ≤ a.allowedSkew.toInt := by
  have hlow := a.allowedSkew.le_toInt
  have hhigh := a.allowedSkew.toInt_lt
  have hok : a.checkSkew now timestamp = .ok () ↔
      (if sub now timestamp < 0 then -sub now timestamp else sub now timestamp).toInt ≤
        a.allowedSkew.toInt := by
    rw [checkSkew, ← Int.not_lt, ← Int64.lt_iff_toInt_lt]
    simp only [gt_iff_lt]
    split_ifs <;> simp_all
  rw [hok, toInt_delta, toInt_sub]
  rcases le_or_gt (now - timestamp) (-2 ^ 63) with hfar | hnear
  · rw [if_pos (by omega)]
    exact iff_of_true hlow (.inl hfar)
  · rw [if_neg (by omega), or_iff_right (by omega)]
    rcases le_or_gt 0 (now - timestamp) with hpos | hneg
    · rw [abs_of_nonneg hpos, max_eq_right (by omega), abs_of_nonneg (by omega)]
    · rw [abs_of_neg hneg, min_eq_right (by omega), max_eq_right (by omega), abs_of_neg hneg,
        min_eq_right (by omega)]

/-- The time is checked exactly as long as the difference is a duration, or too large for one on
the side of the past with an allowed skew that is not itself the largest duration. -/
theorem checkSkew_sound_iff :
    (a.checkSkew now timestamp = .ok () → |now - timestamp| ≤ a.allowedSkew.toInt) ↔
      -2 ^ 63 < now - timestamp ∧
        (now - timestamp < 2 ^ 63 ∨ a.allowedSkew.toInt ≠ 2 ^ 63 - 1) := by
  have hlow := a.allowedSkew.le_toInt
  have hhigh := a.allowedSkew.toInt_lt
  rw [checkSkew_ok_iff]
  constructor
  · intro h
    constructor
    · by_contra hfar
      have hskew := h (.inl (by omega))
      rw [abs_of_neg (by omega)] at hskew
      omega
    · by_contra! hfar
      have hskew := h (.inr (by omega))
      rw [abs_of_nonneg (by omega)] at hskew
      omega
  · rintro ⟨hnear, hside⟩ (hfar | hskew)
    · omega
    · rcases le_or_gt 0 (now - timestamp) with hpos | hneg
      · rw [abs_of_nonneg hpos] at hskew ⊢
        omega
      · rw [abs_of_neg hneg] at hskew ⊢
        omega

/-- The answers to a request whose time was accepted. -/
def PastSkew (a : Authenticator) (H : Hashes) (now : Int) (r : Request) (body : Bytes) : Prop :=
  a.authorize H now r body = .ok () ∨
    a.authorize H now r body = .error ⟨401, lit "invalid signature"⟩

/-- The request gets as far as the check of its time. -/
structure Timed (a : Authenticator) (r : Request) (timestamp : Int) : Prop where
  allowed : a.checkAllowlist r = .ok ()
  keyID : r.get (lit "X-Agent-Key-Id") = utf8 a.keyID
  parsed : parseTime (r.get (lit "X-Agent-Timestamp")) = some timestamp

theorem status_of_checkAllowlist {r : Request} {e : HttpError} (h : a.checkAllowlist r = .error e) :
    e.status = 403 := by
  rw [checkAllowlist] at h
  split_ifs at h
  · cases h
    rfl
  · split at h
    · cases h
      rfl
    · split_ifs at h
      cases h
      rfl

/-- The answers of the check of the signature, by what comes before it. -/
theorem checkSignature_cases (a : Authenticator) (H : Hashes) (now : Int) (r : Request)
    (body : Bytes) :
    (r.get (lit "X-Agent-Key-Id") ≠ utf8 a.keyID ∧
      a.checkSignature H now r body = .error ⟨401, lit "invalid key id"⟩) ∨
    (parseTime (r.get (lit "X-Agent-Timestamp")) = none ∧
      a.checkSignature H now r body = .error ⟨401, lit "invalid timestamp"⟩) ∨
    ∃ t, r.get (lit "X-Agent-Key-Id") = utf8 a.keyID ∧
      parseTime (r.get (lit "X-Agent-Timestamp")) = some t ∧
      ((a.checkSkew now t ≠ .ok () ∧
          a.checkSignature H now r body = .error ⟨401, lit "timestamp outside allowed skew"⟩) ∨
        (a.checkSkew now t = .ok () ∧ (a.checkSignature H now r body = .ok () ∨
          a.checkSignature H now r body = .error ⟨401, lit "invalid signature"⟩))) := by
  -- in the order of auth.go: key id, time stamp, skew, signature
  by_cases hkey : r.get (lit "X-Agent-Key-Id") = utf8 a.keyID
  · cases hparse : parseTime (r.get (lit "X-Agent-Timestamp")) with
    | none => exact .inr (.inl ⟨rfl, by simp [checkSignature, hkey, hparse]⟩)
    | some t =>
      refine .inr (.inr ⟨t, hkey, rfl, ?_⟩)
      have hsignature : a.checkSignature H now r body = a.checkSkew now t >>= fun _ =>
          if trimSpaceBytes (r.get (lit "X-Agent-Signature")) ≠ signRequest H a.secret r.method
            (requestPath r) (r.get (lit "X-Agent-Timestamp")) body then
            .error ⟨401, lit "invalid signature"⟩
          else .ok () := by
        simp only [checkSignature, hkey, hparse, ne_eq, not_true_eq_false, if_false]
      rw [hsignature]
      by_cases hdelta : (if sub now t < 0 then -sub now t else sub now t) > a.allowedSkew
      · have hskew : a.checkSkew now t = .error ⟨401, lit "timestamp outside allowed skew"⟩ :=
          if_pos hdelta
        rw [hskew]
        exact .inl ⟨by simp, rfl⟩
      · have hskew : a.checkSkew now t = .ok () := if_neg hdelta
        rw [hskew]
        refine .inr ⟨rfl, ?_⟩
        simp only [bind, Except.bind]
        split_ifs
        · exact .inr rfl
        · exact .inl rfl
  · exact .inl ⟨hkey, by simp [checkSignature, hkey]⟩

/-- A request gets past the check of its time when the checks before let it through. -/
theorem pastSkew_iff {H : Hashes} {r : Request} {body : Bytes} (hsecret : a.secret ≠ []) :
    a.PastSkew H now r body ↔
      ∃ timestamp, a.Timed r timestamp ∧ a.checkSkew now timestamp = .ok () := by
  rw [PastSkew, authorize]
  cases hallowed : a.checkAllowlist r with
  | error e =>
    have hstatus := status_of_checkAllowlist hallowed
    refine iff_of_false ?_ ?_
    · rintro (h | h)
      · cases h
      · cases h
        cases hstatus
    · rintro ⟨timestamp, htimed, -⟩
      cases hallowed.symm.trans htimed.allowed
  | ok u =>
    simp only [bind, Except.bind, if_neg hsecret]
    rcases a.checkSignature_cases H now r body with
      ⟨hkey, h⟩ | ⟨hparse, h⟩ | ⟨t, hkey, hparse, ⟨hskew, h⟩ | ⟨hskew, h⟩⟩
    · refine iff_of_false (by simp [h]) ?_
      rintro ⟨timestamp, htimed, -⟩
      exact hkey htimed.keyID
    · refine iff_of_false (by simp [h]) ?_
      rintro ⟨timestamp, htimed, -⟩
      cases hparse.symm.trans htimed.parsed
    · refine iff_of_false (by simp [h]) ?_
      rintro ⟨timestamp, htimed, hok⟩
      cases hparse.symm.trans htimed.parsed
      exact hskew hok
    · exact iff_of_true h ⟨t, ⟨hallowed, hkey, hparse⟩, hskew⟩

/-- `authorize` keeps to the allowed skew for the requests whose time is at most a duration after
the clock, and less than one before it if the allowed skew is itself the largest duration. -/
theorem skew_checked_iff {H : Hashes} {r : Request} {body : Bytes} (hsecret : a.secret ≠ []) :
    (a.PastSkew H now r body → ∃ timestamp,
      parseTime (r.get (lit "X-Agent-Timestamp")) = some timestamp ∧
        |now - timestamp| ≤ a.allowedSkew.toInt) ↔
    ∀ timestamp, a.Timed r timestamp → -2 ^ 63 < now - timestamp ∧
      (now - timestamp < 2 ^ 63 ∨ a.allowedSkew.toInt ≠ 2 ^ 63 - 1) := by
  rw [pastSkew_iff hsecret]
  constructor
  · intro h timestamp htimed
    refine checkSkew_sound_iff.mp fun hskew => ?_
    obtain ⟨t, hparse, hle⟩ := h ⟨timestamp, htimed, hskew⟩
    cases hparse.symm.trans htimed.parsed
    exact hle
  · rintro h ⟨timestamp, htimed, hskew⟩
    exact ⟨timestamp, htimed.parsed, checkSkew_sound_iff.mpr (h timestamp htimed) hskew⟩

end Authenticator

namespace Sample

/-- A request signed for the year 2400. -/
def future : Request where
  method := utf8 (lit "GET")
  url := { path := utf8 (lit "/status"), rawPath := [], no_ctl := isCTL_nil }
  header := [(lit "X-Agent-Key-Id", utf8 (lit "key")),
    (lit "X-Agent-Timestamp", utf8 (lit "2400-01-01T00:00:00Z")),
    (lit "X-Agent-Signature", signRequest hashes (utf8 secret) (utf8 (lit "GET"))
      (utf8 (lit "/status")) (utf8 (lit "2400-01-01T00:00:00Z")) [])]
  remoteAddr := lit "127.0.0.1:5000"

end Sample

namespace Authenticator

/-- In July 2026 the request of the year 2400 is let in. -/
theorem skew_unchecked : Sample.authenticator.authorize Sample.hashes Sample.now Sample.future [] = .ok () ∧
    ¬ ∃ timestamp, parseTime (Sample.future.get (lit "X-Agent-Timestamp")) = some timestamp ∧
      |Sample.now - timestamp| ≤ Sample.authenticator.allowedSkew.toInt := by
  have hparse : parseTime (Sample.future.get (lit "X-Agent-Timestamp")) =
      some ((Calendar.Stamp.seconds ⟨2400, 1, 1, 0, 0, 0⟩ : Int) * 1000000000) := by decide +kernel
  refine ⟨by decide +kernel, ?_⟩
  rintro ⟨timestamp, htime, hle⟩
  cases hparse.symm.trans htime
  revert hle
  decide +kernel

/-- The same request is no exception to `skew_checked_iff`. -/
theorem skew_checked_iff_future :
    (Sample.authenticator.PastSkew Sample.hashes Sample.now Sample.future [] → ∃ timestamp,
      parseTime (Sample.future.get (lit "X-Agent-Timestamp")) = some timestamp ∧
        |Sample.now - timestamp| ≤ Sample.authenticator.allowedSkew.toInt) ↔
    ∀ timestamp, Sample.authenticator.Timed Sample.future timestamp →
      -2 ^ 63 < Sample.now - timestamp ∧
        (Sample.now - timestamp < 2 ^ 63 ∨ Sample.authenticator.allowedSkew.toInt ≠ 2 ^ 63 - 1) :=
  skew_checked_iff (by decide +kernel)

end Authenticator
end VpnControl.HttpApi
