import VpnControl.Backend.AgentClient
import VpnControl.HttpApi.Server

namespace VpnControl.Backend
open Strings Trim Effects Prog HttpApi PercentCoding Reader Calendar

section Bytes

theorem utf8_append (s t : Text) : utf8 (s ++ t) = utf8 s ++ utf8 t := List.flatMap_append

theorem utf8_cons (c : Char) (s : Text) : utf8 (c :: s) = utf8 [c] ++ utf8 s := utf8_append [c] s

theorem utf8_newline (s : Text) : utf8 ('\n' :: s) = 10 :: utf8 s := by
  rw [utf8_cons]
  rfl

theorem utf8_join_four (a b c d : Text) :
    utf8 (join [a, b, c, d] ['\n']) = joinLines [utf8 a, utf8 b, utf8 c, utf8 d] := by
  simp [join, joinLines, List.intercalate, utf8_append, utf8_newline]

end Bytes

section Quote

def unreservedByte (c : UInt8) : Bool := HttpApi.alphanumeric c || isByteOf "_.-~" c

theorem quote_cons (c : Char) (s : Text) : quote (c :: s) = quote [c] ++ quote s := by
  simp [quote]

/-- A character beyond ASCII has no byte of an ASCII character. -/
theorem le_of_mem_utf8EncodeChar {c : Char} (hc : 128 ≤ c.toNat) {b : UInt8}
    (hb : b ∈ String.utf8EncodeChar c) : 128 ≤ b.toNat := by
  have hv : ¬ c.val.toNat ≤ 127 := by
    have : c.toNat = c.val.toNat := rfl
    omega
  rw [String.utf8EncodeChar] at hb
  simp only [hv, if_false] at hb
  split_ifs at hb <;> simp only [List.mem_cons, List.not_mem_nil, or_false] at hb
  · rcases hb with rfl | rfl <;> simp <;> omega
  · rcases hb with rfl | rfl | rfl <;> simp <;> omega
  · rcases hb with rfl | rfl | rfl | rfl <;> simp <;> omega

theorem utf8_escape (b : UInt8) : utf8 ('%' :: hexDigits b) = encodeByte b := by
  have hall : ∀ i : Fin 256, utf8 ('%' :: hexDigits (UInt8.ofNat i)) = encodeByte (UInt8.ofNat i) := by
    decide +kernel
  simpa using hall ⟨b.toNat, b.toNat_lt⟩

theorem unreservedByte_lt {b : UInt8} (h : unreservedByte b = true) : b.toNat < 128 := by
  have hall : ∀ i : Fin 256, unreservedByte (UInt8.ofNat i) = true → i.val < 128 := by
    decide +kernel
  exact hall ⟨b.toNat, b.toNat_lt⟩ (by simpa using h)

theorem lt_of_unreserved {c : Char} (h : unreserved c = true) : c.toNat < 128 := by
  by_contra hc
  have hle {d : Char} (hd : d.toNat < 128) : ¬ c ≤ d := by
    intro hcd
    have : c.toNat ≤ d.toNat := hcd
    omega
  have hne {d : Char} (hd : d.toNat < 128) : c ≠ d := by
    rintro rfl
    exact hc hd
  simp [unreserved, hle, hne] at h

theorem utf8_quote_char (c : Char) : utf8 (quote [c]) = encode unreservedByte (utf8 [c]) := by
  by_cases hc : c.toNat < 128
  · have hall : ∀ i : Fin 128, utf8 (quote [Char.ofNat i]) =
        encode unreservedByte (utf8 [Char.ofNat i]) := by decide +kernel
    simpa using hall ⟨c.toNat, hc⟩
  · have hun : ¬ unreserved c = true := fun h => hc (lt_of_unreserved h)
    have hbyte : ∀ b ∈ String.utf8EncodeChar c, (if unreservedByte b then [b] else encodeByte b) =
        utf8 ('%' :: hexDigits b) := by
      intro b hb
      have hb128 := le_of_mem_utf8EncodeChar (by omega) hb
      have hkeep : ¬ unreservedByte b = true := fun h => by
        have := unreservedByte_lt h
        omega
      rw [if_neg hkeep, utf8_escape]
    have hchar : utf8 [c] = String.utf8EncodeChar c := by simp [utf8]
    have hquote : quote [c] = (String.utf8EncodeChar c).flatMap fun b => '%' :: hexDigits b := by
      simp [quote, hun]
    rw [hquote, hchar, encode, List.flatMap_congr hbyte, utf8, List.flatMap_assoc]
    rfl

/-- Both sides encode the bytes of a text in the same way. -/
theorem utf8_quote (s : Text) : utf8 (quote s) = encode unreservedByte (utf8 s) := by
  induction s with
  | nil => rfl
  | cons c s ih =>
    rw [quote_cons, utf8_append, utf8_cons c s, encode_append, utf8_quote_char, ih]

theorem unescape_quote (key : Text) :
    unescape (utf8 (quote key)) = some (utf8 key) := by
  have hdecode : decode (encode unreservedByte (utf8 key) ++ []) = (decode []).map (utf8 key ++ ·) :=
    decode_encode (by decide +kernel) (utf8 key) []
  rw [List.append_nil] at hdecode
  rw [utf8_quote, unescape, hdecode]
  simp [decode]

theorem validEncoded_quote (key : Text) :
    validEncoded (utf8 (quote key)) = true := by
  rw [utf8_quote, validEncoded, List.all_eq_true]
  intro c hc
  rcases mem_encode hc with hkeep | rfl | ⟨n, hn, rfl⟩
  · rw [unreservedByte, Bool.or_eq_true] at hkeep
    rw [validByte, shouldEscape]
    rcases hkeep with hkeep | hkeep
    · simp [hkeep]
    · have hmarks : ∀ c ∈ utf8 (lit "_.-~"), validByte c = true := by decide +kernel
      rw [isByteOf, List.contains_iff_mem] at hkeep
      exact hmarks c hkeep
  · decide +kernel
  · exact validByte_upperHex hn

end Quote

section Stamp

theorem reads_digit {d : Nat} (h : d < 10) : Reads digit (utf8 [Nat.digitChar d]) d := by
  have hall : ∀ i : Fin 10, utf8 [Nat.digitChar i] = [UInt8.ofNat (48 + i)] ∧
      digitValue (UInt8.ofNat (48 + i)) = some i.val := by decide
  obtain ⟨hbyte, hvalue⟩ := hall ⟨d, h⟩
  rw [hbyte]
  exact reads_token hvalue

theorem reads_exactly {c : Char} {b : UInt8} (h : utf8 [c] = [b]) :
    Reads (exactly b) (utf8 [c]) () := by
  rw [h]
  exact reads_token (if_pos rfl)

theorem reads_twoDigits {n : Nat} (fixed : Bool) (h : n < 100) :
    Reads (getnum fixed) (utf8 (twoDigits n)) n := by
  have hn : n / 10 * 10 + n % 10 = n := by omega
  have htwo : Reads (do
      let ones ← digit
      return n / 10 * 10 + ones) (utf8 [Nat.digitChar (n % 10)]) n := by
    have hones := (reads_digit (Nat.mod_lt n (by decide))).bind
      (f := fun ones => pure (n / 10 * 10 + ones)) reads_pure
    rwa [hn, List.append_nil] at hones
  rw [twoDigits, utf8_cons]
  refine (reads_digit (by omega)).bind ?_
  cases fixed with
  | true => exact htwo
  | false => exact htwo.orElse_left

theorem reads_longYear {year : Nat} (h : year < 10000) :
    Reads longYear (utf8 (twoDigits (year / 100) ++ twoDigits (year % 100))) year := by
  have hyear : ((year / 100 / 10 * 10 + year / 100 % 10) * 10 + year % 100 / 10) * 10 +
      year % 100 % 10 = year := by omega
  have hdigits : utf8 (twoDigits (year / 100) ++ twoDigits (year % 100)) =
      utf8 [Nat.digitChar (year / 100 / 10)] ++ (utf8 [Nat.digitChar (year / 100 % 10)] ++
        (utf8 [Nat.digitChar (year % 100 / 10)] ++ (utf8 [Nat.digitChar (year % 100 % 10)] ++ []))) := by
    simp [twoDigits, utf8]
  rw [hdigits]
  refine (reads_digit (by omega)).bind ?_
  refine (reads_digit (by omega)).bind ?_
  refine (reads_digit (by omega)).bind ?_
  refine (reads_digit (by omega)).bind ?_
  rw [hyear]
  exact reads_pure

/-- A time that the backend writes is read as that time. -/
theorem reads_stamp {t : Stamp} (ht : t.Valid) (hyear : t.year < 10000) :
    Reads stamp (utf8 (twoDigits (t.year / 100) ++ twoDigits (t.year % 100) ++
      '-' :: twoDigits t.month ++ '-' :: twoDigits t.day ++ 'T' :: twoDigits t.hour ++
      ':' :: twoDigits t.minute ++ ':' :: twoDigits t.second)) t := by
  have hmonth := ht.month_le
  have hday := ht.day_le.trans (daysIn_le t.month t.year)
  have hhour := ht.hour_lt
  have hminute := ht.minute_lt
  have hsecond := ht.second_lt
  have hbytes : utf8 (twoDigits (t.year / 100) ++ twoDigits (t.year % 100) ++
      '-' :: twoDigits t.month ++ '-' :: twoDigits t.day ++ 'T' :: twoDigits t.hour ++
      ':' :: twoDigits t.minute ++ ':' :: twoDigits t.second) =
      utf8 (twoDigits (t.year / 100) ++ twoDigits (t.year % 100)) ++ (utf8 ['-'] ++
        (utf8 (twoDigits t.month) ++ (utf8 ['-'] ++ (utf8 (twoDigits t.day) ++ (utf8 ['T'] ++
        (utf8 (twoDigits t.hour) ++ (utf8 [':'] ++ (utf8 (twoDigits t.minute) ++ (utf8 [':'] ++
        (utf8 (twoDigits t.second) ++ [])))))))))) := by simp [utf8]
  rw [hbytes]
  refine (reads_longYear hyear).bind ((reads_exactly rfl).bind ?_)
  refine (reads_twoDigits true (by omega)).bind ?_
  refine reads_require ⟨ht.month_pos, hmonth⟩ ((reads_exactly rfl).bind ?_)
  refine (reads_twoDigits true (by omega)).bind ((reads_exactly rfl).bind ?_)
  refine (reads_twoDigits false (by omega)).bind ?_
  refine reads_require hhour ((reads_exactly rfl).bind ?_)
  refine (reads_twoDigits true (by omega)).bind ?_
  refine reads_require hminute ((reads_exactly rfl).bind ?_)
  refine (reads_twoDigits true (by omega)).bind ?_
  exact reads_require hsecond reads_pure

/-- The agent reads the time stamp of a request as the moment the backend wrote it for. -/
theorem parseTime_rfc3339UtcNow {t : Stamp} (ht : t.Valid) (hyear : t.year < 10000) :
    parseTime (utf8 (rfc3339UtcNow t)) = some ((t.seconds : Int) * 1000000000) := by
  have hz : utf8 ['Z'] = [90] := rfl
  have hrun : instant.run (utf8 (rfc3339UtcNow t)) =
      some ((t.seconds : Int) * 1000000000, []) := by
    rw [rfc3339UtcNow, utf8_append, hz, instant, (reads_stamp ht hyear).run_bind, StateT.run_bind]
    have hfraction : fraction.run [90] = some (0, [90]) := rfl
    have hzone : zoneOffset.run [90] = some (0, []) := rfl
    have hday : 1 ≤ t.day ∧ t.day ≤ daysIn t.month t.year := ⟨ht.day_pos, ht.day_le⟩
    simp [hfraction, hzone, run_require hday]
  rw [parseTime, hrun]

end Stamp

section Spaces

def hexByte (c : UInt8) : Bool := (48 ≤ c && c ≤ 57) || (97 ≤ c && c ≤ 102)

theorem hexByte_lowerHex {n : UInt8} (h : n < 16) : hexByte (lowerHex n) = true := by
  have hall : ∀ i : Fin 16, hexByte (lowerHex (UInt8.ofNat i)) = true := by decide
  have hn : n.toNat < 16 := UInt8.lt_iff_toNat_lt.mp h
  simpa using hall ⟨n.toNat, hn⟩

theorem hexByte_encodeToString {s : Bytes} {c : UInt8} (hc : c ∈ encodeToString s) :
    hexByte c = true := by
  obtain ⟨b, -, hc⟩ := List.mem_flatMap.mp hc
  simp only [List.mem_cons, List.not_mem_nil, or_false] at hc
  rcases hc with rfl | rfl
  · exact hexByte_lowerHex (div_lt b)
  · exact hexByte_lowerHex (mod_lt b)

/-- A digest in hexadecimal has no blanks that could be taken off. -/
theorem trimSpaceBytes_hex {s : Bytes} (h : ∀ c ∈ s, hexByte c = true) : trimSpaceBytes s = s := by
  have hspaces : ∀ p ∈ spaceBytes, ∃ c ∈ p, hexByte c = false := by decide +kernel
  have hinfix : ∀ p ∈ spaceBytes, ¬ p ⊆ s := by
    intro p hp hsub
    obtain ⟨c, hc, hhex⟩ := hspaces p hp
    rw [h c (hsub hc)] at hhex
    cases hhex
  have hleft : spaceBytes.find? (· <+: s) = none :=
    List.find?_eq_none.mpr fun p hp => by simpa using fun hpre => hinfix p hp hpre.subset
  have hright : spaceBytes.find? (· <:+ s) = none :=
    List.find?_eq_none.mpr fun p hp => by simpa using fun hsuf => hinfix p hp hsuf.subset
  have hl : trimLeft s.length s = s := by
    cases hn : s.length with
    | zero => rfl
    | succ n => rw [trimLeft, hleft]
  have hr : trimRight s.length s = s := by
    cases hn : s.length with
    | zero => rfl
    | succ n => rw [trimRight, hright]
  rw [trimSpaceBytes, hl, hr]

/-- Printable text that does not begin or end with a blank has nothing to trim. -/
theorem trimSpace_printable {s : Text} (hprint : ∀ c ∈ s, ' ' ≤ c ∧ c ≤ '~')
    (hhead : s.head? ≠ some ' ') (hlast : s.getLast? ≠ some ' ') : trimSpace s = s := by
  have hgraphic : ∀ c ∈ s, c ≠ ' ' → isSpace c = false := by
    intro c hc hne
    obtain ⟨hlo, hhi⟩ := hprint c hc
    exact isSpace_graphic (lt_of_le_of_ne hlo (Ne.symm hne)) hhi
  have hleft : s.dropWhile isSpace = s := by
    rw [List.dropWhile_eq_self_iff]
    intro hl
    have hne : s[0] ≠ ' ' := fun h => hhead (by rw [List.head?_eq_getElem?, List.getElem?_eq_getElem hl, h])
    simp [hgraphic _ (List.getElem_mem hl) hne]
  have hright : s.rdropWhile isSpace = s := by
    rw [List.rdropWhile_eq_self_iff]
    intro hl
    have hne : s.getLast hl ≠ ' ' := fun h => hlast (by rw [List.getLast?_eq_getLast_of_ne_nil hl, h])
    simp [hgraphic _ (List.getLast_mem hl) hne]
  rw [trimSpace, trim, hleft, hright]

end Spaces
end VpnControl.Backend
