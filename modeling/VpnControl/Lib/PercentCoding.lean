import Mathlib.Data.List.Basic
import Mathlib.Data.UInt

namespace PercentCoding

def upperHex (n : UInt8) : UInt8 := if n < 10 then 48 + n else 55 + n

def unhex (b : UInt8) : Option UInt8 :=
  if 48 ≤ b ∧ b ≤ 57 then some (b - 48)
  else if 97 ≤ b ∧ b ≤ 102 then some (b - 87)
  else if 65 ≤ b ∧ b ≤ 70 then some (b - 55)
  else none

/-- A byte as `%` and two hexadecimal digits. -/
def encodeByte (b : UInt8) : List UInt8 := [37, upperHex (b / 16), upperHex (b % 16)]

/-- The bytes of `keep` stay as they are. -/
def encode (keep : UInt8 → Bool) (s : List UInt8) : List UInt8 :=
  s.flatMap fun b => if keep b then [b] else encodeByte b

/-- Every `%` has to be followed by two hexadecimal digits. -/
def decode : List UInt8 → Option (List UInt8)
  | [] => some []
  | [b] => if b = 37 then none else some [b]
  | [b, c] => if b = 37 ∨ c = 37 then none else some [b, c]
  | b :: x :: y :: s =>
    if b = 37 then
      match unhex x, unhex y with
      | some hi, some lo => (decode s).map ((16 * hi + lo) :: ·)
      | _, _ => none
    else (decode (x :: y :: s)).map (b :: ·)

/-- Escapes are decoded; a `%` without two hexadecimal digits stays as it is. -/
def decodeLenient : List UInt8 → List UInt8
  | b :: x :: y :: s =>
    if b = 37 then
      match unhex x, unhex y with
      | some hi, some lo => (16 * hi + lo) :: decodeLenient s
      | _, _ => b :: decodeLenient (x :: y :: s)
    else b :: decodeLenient (x :: y :: s)
  | s => s

section Digits

theorem unhex_upperHex {n : UInt8} (h : n < 16) : unhex (upperHex n) = some n := by
  have hall : ∀ i : Fin 16, unhex (upperHex (UInt8.ofNat i)) = some (UInt8.ofNat i) := by
    decide +kernel
  have hn : n.toNat < 16 := UInt8.lt_iff_toNat_lt.mp h
  simpa using hall ⟨n.toNat, hn⟩

theorem div_lt (b : UInt8) : b / 16 < 16 := by
  rw [UInt8.lt_iff_toNat_lt, UInt8.toNat_div]
  have := b.toNat_lt
  simp
  omega

theorem mod_lt (b : UInt8) : b % 16 < 16 := by
  rw [UInt8.lt_iff_toNat_lt, UInt8.toNat_mod]
  simp
  omega

theorem digits_eq (b : UInt8) : 16 * (b / 16) + b % 16 = b := by
  apply UInt8.toNat_inj.mp
  have := b.toNat_lt
  simp
  omega

end Digits

section Decode
variable {keep : UInt8 → Bool}

theorem decode_cons_of_ne {b : UInt8} (h : b ≠ 37) (s : List UInt8) :
    decode (b :: s) = (decode s).map (b :: ·) := by
  match s with
  | [] => simp [decode, h]
  | [c] => by_cases hc : c = 37 <;> simp [decode, h, hc]
  | _ :: _ :: _ => simp [decode, h]

theorem decode_encodeByte (b : UInt8) (s : List UInt8) :
    decode (encodeByte b ++ s) = (decode s).map (b :: ·) := by
  simp [encodeByte, decode, unhex_upperHex (div_lt b), unhex_upperHex (mod_lt b), digits_eq]

/-- Decoding undoes encoding, as long as the sign of an escape is escaped itself. -/
theorem decode_encode (hkeep : keep 37 = false) (s t : List UInt8) :
    decode (encode keep s ++ t) = (decode t).map (s ++ ·) := by
  induction s with
  | nil => simp [encode]
  | cons b s ih =>
    have hcons : encode keep (b :: s) ++ t =
        (if keep b then [b] else encodeByte b) ++ (encode keep s ++ t) := by
      simp [encode]
    rw [hcons]
    by_cases hb : keep b
    · have hne : b ≠ 37 := by
        rintro rfl
        rw [hkeep] at hb
        cases hb
      rw [if_pos hb, List.singleton_append, decode_cons_of_ne hne, ih, Option.map_map]
      rfl
    · rw [if_neg hb, decode_encodeByte, ih, Option.map_map]
      rfl

theorem decodeLenient_cons_of_ne {b : UInt8} (h : b ≠ 37) (s : List UInt8) :
    decodeLenient (b :: s) = b :: decodeLenient s := by
  match s with
  | [] => simp [decodeLenient]
  | [c] => simp [decodeLenient]
  | _ :: _ :: _ => simp [decodeLenient, h]

theorem decodeLenient_encodeByte (b : UInt8) (s : List UInt8) :
    decodeLenient (encodeByte b ++ s) = b :: decodeLenient s := by
  simp [encodeByte, decodeLenient, unhex_upperHex (div_lt b), unhex_upperHex (mod_lt b), digits_eq]

/-- The lenient decoding undoes encoding, too. -/
theorem decodeLenient_encode (hkeep : keep 37 = false) (s : List UInt8) :
    decodeLenient (encode keep s) = s := by
  induction s with
  | nil => rfl
  | cons b s ih =>
    rw [encode, List.flatMap_cons, ← encode]
    by_cases hb : keep b
    · have hne : b ≠ 37 := by
        rintro rfl
        rw [hkeep] at hb
        cases hb
      rw [if_pos hb, List.singleton_append, decodeLenient_cons_of_ne hne, ih]
    · rw [if_neg hb, decodeLenient_encodeByte, ih]

theorem encode_append (s t : List UInt8) : encode keep (s ++ t) = encode keep s ++ encode keep t :=
  List.flatMap_append

/-- A byte of an encoded text was kept, or belongs to an escape. -/
theorem mem_encode {s : List UInt8} {c : UInt8} (h : c ∈ encode keep s) :
    keep c = true ∨ c = 37 ∨ ∃ n, n < 16 ∧ c = upperHex n := by
  obtain ⟨b, -, hc⟩ := List.mem_flatMap.mp h
  split at hc
  · rename_i hb
    rw [List.mem_singleton.mp hc]
    exact .inl hb
  · simp only [encodeByte, List.mem_cons, List.not_mem_nil, or_false] at hc
    rcases hc with rfl | rfl | rfl
    · exact .inr (.inl rfl)
    · exact .inr (.inr ⟨_, div_lt b, rfl⟩)
    · exact .inr (.inr ⟨_, mod_lt b, rfl⟩)

end Decode
end PercentCoding
