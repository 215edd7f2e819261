import VpnControl.Awg.ClientReadBack
import VpnControl.Lib.JsonRoundTrip

namespace VpnControl.Awg
open Strings Json SortedMap Netip

section Base64

/-- The six bits that a character of a base64 text stands for. -/
def base64Value (c : Char) : Option Nat :=
  (lit "ABCDEFGHIJKLMNOPQRSTUVWXYZabcdefghijklmnopqrstuvwxyz0123456789-_").findIdx? (· == c)

/-- The bytes of a base64 text without padding. -/
def decodeBase64URL : Text → Option (List UInt8)
  | [] => some []
  | [_] => none
  | [a, b] => do
    let n := (← base64Value a) * 64 + (← base64Value b)
    some [UInt8.ofNat (n / 16)]
  | [a, b, c] => do
    let n := ((← base64Value a) * 64 + (← base64Value b)) * 64 + (← base64Value c)
    some [UInt8.ofNat (n / 1024), UInt8.ofNat (n / 4)]
  | a :: b :: c :: d :: rest => do
    let n := (((← base64Value a) * 64 + (← base64Value b)) * 64 + (← base64Value c)) * 64 +
      (← base64Value d)
    let bytes ← decodeBase64URL rest
    some (UInt8.ofNat (n / 65536) :: UInt8.ofNat (n / 256) :: UInt8.ofNat n :: bytes)

theorem base64Value_base64Char {n : Nat} (h : n < 64) : base64Value (base64Char n) = some n := by
  have hall : ∀ k < 64, base64Value (base64Char k) = some k := by decide +kernel
  exact hall n h

theorem ofNat_eq {b : UInt8} {n : Nat} (h : n % 256 = b.toNat) : UInt8.ofNat n = b := by
  rw [← UInt8.toNat_inj, UInt8.toNat_ofNat']
  exact h

/-- What was encoded is decoded again. -/
theorem decodeBase64URL_base64URL (bytes : List UInt8) :
    decodeBase64URL (base64URL bytes) = some bytes := by
  -- three bytes are one number below 2 ^ 24, written as four digits in base 64
  induction bytes using base64URL.induct with
  | case1 => rfl
  | case2 a =>
    have ha := a.toNat_lt
    have h₁ : a.toNat * 65536 / 262144 < 64 := by omega
    have h₂ : a.toNat * 65536 / 4096 % 64 < 64 := Nat.mod_lt _ (by decide)
    have hbyte : UInt8.ofNat ((a.toNat * 65536 / 262144 * 64 + a.toNat * 65536 / 4096 % 64) / 16) =
        a := ofNat_eq (by omega)
    simp only [base64URL, decodeBase64URL, base64Value_base64Char h₁, base64Value_base64Char h₂,
      Option.bind_eq_bind, Option.bind_some, hbyte]
  | case3 a b =>
    have ha := a.toNat_lt
    have hb := b.toNat_lt
    generalize hn : a.toNat * 65536 + b.toNat * 256 = n
    have h₁ : n / 262144 < 64 := by omega
    have h₂ : n / 4096 % 64 < 64 := Nat.mod_lt _ (by decide)
    have h₃ : n / 64 % 64 < 64 := Nat.mod_lt _ (by decide)
    have hsum : (n / 262144 * 64 + n / 4096 % 64) * 64 + n / 64 % 64 = n / 64 := by omega
    have hfirst : UInt8.ofNat (n / 64 / 1024) = a := ofNat_eq (by omega)
    have hsecond : UInt8.ofNat (n / 64 / 4) = b := ofNat_eq (by omega)
    simp only [base64URL, decodeBase64URL, hn, base64Value_base64Char h₁,
      base64Value_base64Char h₂, base64Value_base64Char h₃, Option.bind_eq_bind, Option.bind_some,
      hsum, hfirst, hsecond]
  | case4 a b c rest ih =>
    have ha := a.toNat_lt
    have hb := b.toNat_lt
    have hc := c.toNat_lt
    generalize hn : a.toNat * 65536 + b.toNat * 256 + c.toNat = n at *
    have h₁ : n / 262144 < 64 := by omega
    have h₂ : n / 4096 % 64 < 64 := Nat.mod_lt _ (by decide)
    have h₃ : n / 64 % 64 < 64 := Nat.mod_lt _ (by decide)
    have h₄ : n % 64 < 64 := Nat.mod_lt _ (by decide)
    have hsum : ((n / 262144 * 64 + n / 4096 % 64) * 64 + n / 64 % 64) * 64 + n % 64 = n := by
      omega
    have hfirst : UInt8.ofNat (n / 65536) = a := ofNat_eq (by omega)
    have hsecond : UInt8.ofNat (n / 256) = b := ofNat_eq (by omega)
    have hthird : UInt8.ofNat n = c := ofNat_eq (by omega)
    simp only [base64URL, decodeBase64URL, hn, base64Value_base64Char h₁,
      base64Value_base64Char h₂, base64Value_base64Char h₃, base64Value_base64Char h₄,
      Option.bind_eq_bind, Option.bind_some, ih, hsum, hfirst, hsecond, hthird]

end Base64
section Container
variable {deflate : List UInt8 → List UInt8} {inflate : List UInt8 → Option (List UInt8)}

/-- The inflated bytes, if there are as many as the first four bytes say. -/
def qUncompress (inflate : List UInt8 → Option (List UInt8)) : List UInt8 → Option (List UInt8)
  | a :: b :: c :: d :: stream => do
    let data ← inflate stream
    if data.length = ((a.toNat * 256 + b.toNat) * 256 + c.toNat) * 256 + d.toNat then some data
    else none
  | _ => none

theorem qUncompress_qCompress (hinflate : ∀ xs, inflate (deflate xs) = some xs)
    {input out : List UInt8} (h : qCompress deflate input = some out) :
    qUncompress inflate out = some input := by
  rw [qCompress] at h
  split at h
  · cases h
  · rename_i hlen
    rw [Option.some.injEq] at h
    subst h
    have hn : input.length < 2 ^ 32 := by omega
    have hsum : ((input.length / 2 ^ 24 % 2 ^ 8 * 256 + input.length / 2 ^ 16 % 256 % 2 ^ 8) * 256 +
        input.length / 2 ^ 8 % 256 % 2 ^ 8) * 256 + input.length % 256 % 2 ^ 8 =
        input.length := by omega
    simp only [List.map_cons, List.map_nil, List.cons_append, List.nil_append, qUncompress,
      hinflate, Option.bind_eq_bind, Option.bind_some, UInt8.toNat_ofNat', hsum, if_true]

/-- The text that bytes are the encoding of. -/
def textOf (bytes : List UInt8) : Option Text :=
  bytes.toByteArray.utf8Decode?.map (·.toList)

theorem textOf_utf8 (s : Text) : textOf (utf8 s) = some s := by
  have h : (utf8 s).toByteArray.utf8Decode? = some s.toArray := List.utf8Decode?_utf8Encode
  rw [textOf, h]
  rfl

/-- What follows a prefix. -/
def afterPrefix (p s : Text) : Option Text := if p <+: s then some (s.drop p.length) else none

theorem afterPrefix_append (p s : Text) : afterPrefix p (p ++ s) = some s := by
  simp [afterPrefix]

def asText : Doc → Option Text
  | .str s => some s
  | _ => none

def asObject : Doc → Option GoMap
  | .obj m => some m
  | _ => none

def asArray : Doc → Option (List Doc)
  | .arr xs => some xs
  | _ => none

def textMember (m : GoMap) (key : String) : Option Text := (lookup m (lit key)).bind asText

/-- What a share URI holds: the outer object, the settings of its container and, nested in these
as a text, the client's own config. -/
structure Shared where
  root : GoMap
  awg : GoMap
  lastConfig : GoMap

def decodeShareURI (inflate : List UInt8 → Option (List UInt8)) (uri : Text) : Option Shared := do
  let encoded ← afterPrefix (lit "vpn://") uri
  let text ← textOf (← qUncompress inflate (← decodeBase64URL encoded))
  let root ← asObject (← parse text)
  let containers ← asArray (← lookup root (lit "containers"))
  let container ← asObject (← containers.head?)
  let awg ← asObject (← lookup container (lit "awg"))
  let lastConfig ← asObject (← parse (← textMember awg "last_config"))
  some { root, awg, lastConfig }

end Container

section Number

theorem decimal_digits (n : Nat) : decimal n ≠ [] ∧ (decimal n).all isDigit = true ∧
    ((decimal n).head? = some '0' → n = 0) := by
  induction n using Nat.strongRecOn with
  | ind n ih =>
    have hdigit : ∀ d < 10, isDigit (Nat.digitChar d) = true := by decide
    by_cases hn : n < 10
    · rw [decimal, Nat.toDigits_of_lt_base hn]
      simp [hdigit n hn]
    · obtain ⟨hne, hall, hhead⟩ := ih (n / 10) (by omega)
      rw [decimal, Nat.toDigits_of_base_le (by decide) (by omega), ← decimal]
      refine ⟨by simp, by simp [hall, hdigit (n % 10) (by omega)], fun h => ?_⟩
      rw [List.head?_append_of_ne_nil _ hne] at h
      have := hhead h
      omega

theorem isUnsigned_decimal (n : Nat) : isUnsigned (decimal n) = true := by
  obtain ⟨hne, hall, hhead⟩ := decimal_digits n
  obtain ⟨c, s, hs⟩ := List.exists_cons_of_ne_nil hne
  by_cases hc : c = '0'
  · have hn : n = 0 := hhead (by rw [hs, hc]; rfl)
    subst hn
    rfl
  · rw [hs, List.all_cons, Bool.and_eq_true] at hall
    have hrest : s.dropWhile isDigit = [] := by simpa using hall.2
    rw [hs, isUnsigned.eq_def]
    split
    · rename_i hcons
      exact absurd (List.cons.inj hcons).1 hc
    · rename_i hcons
      obtain ⟨rfl, rfl⟩ := List.cons.inj hcons
      rw [hall.1, hrest]
      rfl
    · rename_i hnil
      cases hnil

/-- Integers are written as JSON numbers. -/
theorem number_intLiteral (n : Int) : Number (intLiteral n) := by
  have hchars : ∀ k, ∀ c ∈ decimal k, numChar c = true := by
    intro k c hc
    rw [numChar, List.all_eq_true.mp (decimal_digits k).2.1 c hc]
    rfl
  cases n with
  | ofNat k =>
    refine ⟨?_, hchars k⟩
    obtain ⟨hne, hall, -⟩ := decimal_digits k
    have hunsigned := isUnsigned_decimal k
    obtain ⟨c, s, hs⟩ := List.exists_cons_of_ne_nil hne
    rw [intLiteral]
    rw [hs] at hall hunsigned ⊢
    rw [isNumber.eq_def]
    split
    · rename_i hcons
      obtain ⟨rfl, -⟩ := List.cons.inj hcons
      simp [isDigit] at hall
    · exact hunsigned
  | negSucc k =>
    refine ⟨isUnsigned_decimal (k + 1), ?_⟩
    intro c hc
    rcases List.mem_cons.mp hc with rfl | hc
    · rfl
    · exact hchars (k + 1) c hc

end Number
end VpnControl.Awg
