import VpnControl.Lib.PercentCoding
import VpnControl.Strings
import Mathlib.Data.FinEnum

namespace VpnControl.HttpApi
open Strings PercentCoding

/-- A Go string whose bytes count. -/
abbrev Bytes := List UInt8

def isByteOf (s : String) (c : UInt8) : Bool := (utf8 (lit s)).contains c

def alphanumeric (c : UInt8) : Bool :=
  (97 ≤ c && c ≤ 122) || (65 ≤ c && c ≤ 90) || (48 ≤ c && c ≤ 57)

/-- `shouldEscape` in a path. -/
def shouldEscape (c : UInt8) : Bool := !(alphanumeric c || isByteOf "-_.~$&+,/:;=@" c)

def escape (s : Bytes) : Bytes := encode (fun c => !shouldEscape c) s

/-- `unescape` of a path, and of a segment of one. -/
def unescape (s : Bytes) : Option Bytes := decode s

def validByte (c : UInt8) : Bool := isByteOf "!$&'()*+,;=:@[]%" c || !shouldEscape c

def validEncoded (s : Bytes) : Bool := s.all validByte

def isCTL (c : UInt8) : Bool := c < 32 || c == 127

theorem isCTL_nil : ∀ c ∈ ([] : Bytes), isCTL c = false := by simp

/-- `url.URL` as it is parsed from a request: there are no control bytes in its query. -/
structure URL where
  path : Bytes
  rawPath : Bytes := []
  rawQuery : Bytes := []
  no_ctl : ∀ c ∈ rawQuery, isCTL c = false := by simp
  deriving DecidableEq

/-- `setPath`: the text is kept only where it is not the default encoding. -/
def rawPath (p path : Bytes) : Bytes := if p = escape path then [] else p

/-- `url.ParseRequestURI` of a target in origin form. -/
def parseRequestURI (target : Bytes) : Option URL :=
  if h : (∀ c ∈ target, isCTL c = false) ∧ target.head? = some 47 then
    let p := target.takeWhile (· ≠ 63)
    (unescape p).map fun path =>
      { path, rawPath := rawPath p path, rawQuery := (target.dropWhile (· ≠ 63)).drop 1
        no_ctl := fun c hc => h.1 c ((List.dropWhile_suffix _).subset (List.mem_of_mem_drop hc)) }
  else none

namespace URL

def escapedPath (u : URL) : Bytes :=
  if u.rawPath ≠ [] ∧ validEncoded u.rawPath ∧ unescape u.rawPath = some u.path then u.rawPath
  else if u.path = [42] then u.path
  else escape u.path

end URL

theorem validByte_upperHex {n : UInt8} (h : n < 16) : validByte (upperHex n) = true := by
  have hall : ∀ i : Fin 16, validByte (upperHex (UInt8.ofNat i)) = true := by decide +kernel
  have hn : n.toNat < 16 := UInt8.lt_iff_toNat_lt.mp h
  simpa using hall ⟨n.toNat, hn⟩

theorem validEncoded_escape (s : Bytes) : validEncoded (escape s) = true := by
  rw [validEncoded, List.all_eq_true]
  intro c hc
  rcases mem_encode hc with hkeep | rfl | ⟨n, hn, rfl⟩
  · rw [validByte, hkeep, Bool.or_true]
  · decide +kernel
  · exact validByte_upperHex hn

/-- An escaped path has the bytes of a path only. -/
theorem URL.validByte_escapedPath (u : URL) {c : UInt8} (hc : c ∈ u.escapedPath) :
    validByte c = true := by
  rw [URL.escapedPath] at hc
  split_ifs at hc with hraw hstar
  · exact List.all_eq_true.mp hraw.2.1 c hc
  · rw [hstar, List.mem_singleton] at hc
    rw [hc]
    decide +kernel
  · exact List.all_eq_true.mp (validEncoded_escape _) c hc

theorem URL.notMem_escapedPath (u : URL) {c : UInt8} (hc : validByte c = false) :
    c ∉ u.escapedPath := fun hmem => by rw [u.validByte_escapedPath hmem] at hc; cases hc

/-- The path of a target that is validly encoded and has no query is kept as it was sent. -/
theorem escapedPath_parseRequestURI {target : Bytes} {u : URL}
    (h : parseRequestURI target = some u) (hvalid : validEncoded target = true) :
    u.escapedPath = target ∧ u.rawQuery = [] := by
  rw [parseRequestURI] at h
  split at h
  case isFalse => cases h
  case isTrue hctl =>
    have hquery : ∀ c ∈ target, decide (c ≠ 63) = true := by
      intro c hc
      have hbyte := List.all_eq_true.mp hvalid c hc
      rw [decide_eq_true_eq]
      rintro rfl
      exact absurd hbyte (by decide +kernel)
    have htake : target.takeWhile (· ≠ 63) = target := List.takeWhile_eq_self_iff.mpr hquery
    have hdrop : (target.dropWhile (· ≠ 63)).drop 1 = [] := by
      rw [List.dropWhile_eq_nil_iff.mpr hquery, List.drop_nil]
    have hne : target ≠ [] := by
      rintro rfl
      cases hctl.2
    obtain ⟨path, hpath, rfl⟩ := Option.map_eq_some_iff.mp h
    rw [htake] at hpath
    refine ⟨?_, hdrop⟩
    simp only [URL.escapedPath, htake, rawPath]
    by_cases hescape : target = escape path
    · -- the default encoding is not kept, and made again
      have hstar : path ≠ [42] := by
        rintro rfl
        rw [hescape] at hctl
        exact absurd hctl.2 (by decide +kernel)
      rw [if_pos hescape, if_neg (fun hnil => hnil.1 rfl), if_neg hstar, ← hescape]
    · rw [if_neg hescape, if_pos ⟨hne, hvalid, hpath⟩]

end VpnControl.HttpApi
