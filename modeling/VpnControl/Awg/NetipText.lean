import VpnControl.Awg.Netip

namespace VpnControl.Netip
open Strings Trim

theorem digitChar_eq (n : Nat) : digitChar n =
    ['0', '1', '2', '3', '4', '5', '6', '7', '8', '9', 'a', 'b', 'c', 'd', 'e', 'f'].getD n '0' := by
  simp [digitChar, lit_eq]

theorem digitChar_spec {d : Nat} (h : d < 10) :
    '0' ≤ digitChar d ∧ digitChar d ≤ '9' ∧ (digitChar d).toNat - '0'.toNat = d := by
  have hall : ∀ d < 10,
      '0' ≤ digitChar d ∧ digitChar d ≤ '9' ∧ (digitChar d).toNat - '0'.toNat = d := by
    simp only [digitChar_eq]
    decide
  exact hall d h

theorem parseIPv4Fields_digit {fields : List Nat} {val digLen d : Nat} {s : Text} (hd : d < 10)
    (hz : ¬(digLen = 1 ∧ val = 0)) (hv : val * 10 + d ≤ 255) :
    parseIPv4Fields fields val digLen (digitChar d :: s) =
      parseIPv4Fields fields (val * 10 + d) (digLen + 1) s := by
  obtain ⟨h₁, h₂, h₃⟩ := digitChar_spec hd
  rw [parseIPv4Fields, if_pos ⟨h₁, h₂⟩, if_neg hz]
  simp only [h₃]
  rw [if_neg (by omega)]

/-- The decimal text of a byte is read back as its value. -/
theorem parseIPv4Fields_appendDecimal {x : Nat} (hx : x < 256) (fields : List Nat) (s : Text) :
    ∃ digLen, 0 < digLen ∧
      parseIPv4Fields fields 0 0 (appendDecimal x ++ s) = parseIPv4Fields fields x digLen s := by
  by_cases h₁ : x < 10
  · refine ⟨1, by omega, ?_⟩
    have ht : appendDecimal x ++ s = digitChar x :: s := by
      simp [appendDecimal, show ¬ 100 ≤ x by omega, show ¬ 10 ≤ x by omega, Nat.mod_eq_of_lt h₁]
    rw [ht, parseIPv4Fields_digit h₁ (by omega) (by omega)]
    simp
  · by_cases h₂ : x < 100
    · refine ⟨2, by omega, ?_⟩
      have ht : appendDecimal x ++ s = digitChar (x / 10) :: digitChar (x % 10) :: s := by
        simp [appendDecimal, show ¬ 100 ≤ x by omega, show 10 ≤ x by omega,
          Nat.mod_eq_of_lt (show x / 10 < 10 by omega)]
      rw [ht, parseIPv4Fields_digit (by omega) (by omega) (by omega),
        parseIPv4Fields_digit (by omega) (by omega) (by omega)]
      congr 1
      omega
    · refine ⟨3, by omega, ?_⟩
      have ht : appendDecimal x ++ s =
          digitChar (x / 100) :: digitChar (x / 10 % 10) :: digitChar (x % 10) :: s := by
        simp [appendDecimal, show 100 ≤ x by omega, show 10 ≤ x by omega]
      rw [ht, parseIPv4Fields_digit (by omega) (by omega) (by omega),
        parseIPv4Fields_digit (by omega) (by omega) (by omega),
        parseIPv4Fields_digit (by omega) (by omega) (by omega)]
      congr 1
      omega

theorem appendDecimal_ne_nil (x : Nat) : appendDecimal x ≠ [] := by simp [appendDecimal]

theorem parseIPv4Fields_dot {fields : List Nat} {val digLen : Nat} {s : Text} (hd : 0 < digLen)
    (hs : s ≠ []) (hf : fields.length < 3) :
    parseIPv4Fields fields val digLen ('.' :: s) = parseIPv4Fields (fields ++ [val]) 0 0 s := by
  rw [parseIPv4Fields, if_neg (by decide), if_pos rfl, if_neg (by simp [hs]; omega),
    if_neg (by omega)]

/-- A byte, its dot and what follows. -/
theorem parseIPv4Fields_octet {x : Nat} (hx : x < 256) {fields : List Nat} {s : Text}
    (hs : s ≠ []) (hf : fields.length < 3) :
    parseIPv4Fields fields 0 0 (appendDecimal x ++ '.' :: s) =
      parseIPv4Fields (fields ++ [x]) 0 0 s := by
  obtain ⟨digLen, hpos, h⟩ := parseIPv4Fields_appendDecimal hx fields ('.' :: s)
  rw [h, parseIPv4Fields_dot hpos hs hf]

theorem octet_lt (a : BitVec 32) (i : Nat) : octet a i < 256 := Nat.mod_lt _ (by omega)

theorem ofBytes_octets (a : BitVec 32) :
    ofBytes [octet a 0, octet a 1, octet a 2, octet a 3] = a.toNat := by
  have h := a.isLt
  simp only [ofBytes, List.foldl, octet]
  omega

theorem parseIPv4_string4 (a : BitVec 32) : parseIPv4 (string4 a) = some (.v4 a) := by
  have hfields : parseIPv4Fields [] 0 0 (string4 a) =
      some [octet a 0, octet a 1, octet a 2, octet a 3] := by
    rw [string4, parseIPv4Fields_octet (octet_lt a 0) (by simp) (by simp),
      parseIPv4Fields_octet (octet_lt a 1) (by simp) (by simp),
      parseIPv4Fields_octet (octet_lt a 2) (appendDecimal_ne_nil _) (by simp)]
    obtain ⟨digLen, -, h⟩ :=
      parseIPv4Fields_appendDecimal (octet_lt a 3) [octet a 0, octet a 1, octet a 2] []
    rw [List.append_nil] at h
    simpa [parseIPv4Fields] using h
  rw [parseIPv4, hfields, Option.map_some, ofBytes_octets, BitVec.ofNat_toNat, BitVec.setWidth_eq]

theorem mem_appendDecimal {x : Nat} {c : Char} (hx : x < 256) (h : c ∈ appendDecimal x) :
    '0' ≤ c ∧ c ≤ '9' := by
  have hdigit : ∀ d, d < 10 → c = digitChar d → '0' ≤ c ∧ c ≤ '9' := by
    rintro d hd rfl
    exact ⟨(digitChar_spec hd).1, (digitChar_spec hd).2.1⟩
  rw [appendDecimal] at h
  simp only [List.mem_append, List.mem_singleton] at h
  rcases h with (h | h) | h
  · split at h
    · exact hdigit (x / 100) (by omega) (by simpa using h)
    · simp at h
  · split at h
    · exact hdigit (x / 10 % 10) (by omega) (by simpa using h)
    · simp at h
  · exact hdigit (x % 10) (by omega) h

/-- A dotted address is made of digits and dots. -/
theorem mem_string4 {a : BitVec 32} {c : Char} (h : c ∈ string4 a) :
    ('0' ≤ c ∧ c ≤ '9') ∨ c = '.' := by
  simp only [string4, List.mem_append, List.mem_cons] at h
  rcases h with h | h | h | h | h | h | h
  · exact .inl (mem_appendDecimal (octet_lt a 0) h)
  · exact .inr h
  · exact .inl (mem_appendDecimal (octet_lt a 1) h)
  · exact .inr h
  · exact .inl (mem_appendDecimal (octet_lt a 2) h)
  · exact .inr h
  · exact .inl (mem_appendDecimal (octet_lt a 3) h)

theorem slash_notMem_string4 (a : BitVec 32) : '/' ∉ string4 a := by
  intro h
  rcases mem_string4 h with h | h
  · exact absurd h (by decide)
  · exact absurd h (by decide)

theorem parseAddr_string4 (a : BitVec 32) : parseAddr (string4 a) = some (.v4 a) := by
  have hfind : (string4 a).find? (fun c => c == '.' || c == ':' || c == '%') = some '.' := by
    have hnone : (appendDecimal (octet a 0)).find?
        (fun c => c == '.' || c == ':' || c == '%') = none := by
      rw [List.find?_eq_none]
      intro c hc hp
      have hr := mem_appendDecimal (octet_lt a 0) hc
      simp only [Bool.or_eq_true, beq_iff_eq] at hp
      rcases hp with (rfl | rfl) | rfl <;> exact absurd hr (by decide)
    rw [string4, List.find?_append, hnone]
    rfl
  rw [parseAddr, hfind]
  exact parseIPv4_string4 a

/-- The text the agent writes for one client address is read back as its prefix. -/
theorem parsePrefix_host (a : BitVec 32) :
    parsePrefix (string4 a ++ lit "/32") = some (.host a) := by
  have hcut : cutLastSlash (string4 a ++ lit "/32") = some (string4 a, lit "32") := by
    rw [cutLastSlash, List.reverse_append]
    have h := cut_append_cons (c := '/') (a := ['2', '3']) (w := (string4 a).reverse) (by decide)
    simpa [lit_eq] using congrArg (Option.map fun r => (r.2.reverse, r.1.reverse)) h
  have hbits : parseBits (lit "32") = some 32 := by decide +kernel
  simp only [parsePrefix, hcut, Option.bind_eq_bind, Option.bind_some, parseAddr_string4, Addr.zone,
    if_true, hbits, Addr.bitLen]
  rfl

section Head
open Strings

/-- A text that does not start with white space. -/
def Flush (s : Text) : Prop := ∃ c w, s = c :: w ∧ isSpace c = false

theorem Flush.append {s : Text} (h : Flush s) (t : Text) : Flush (s ++ t) := by
  obtain ⟨c, w, rfl, hc⟩ := h
  exact ⟨c, w ++ t, rfl, hc⟩

theorem digitChar_isSpace (n : Nat) : isSpace (digitChar n) = false := by
  by_cases hn : n < 16
  · have hall : ∀ d < 16, isSpace (digitChar d) = false := by
      simp only [digitChar_eq]
      decide
    exact hall n hn
  · have hdigit : digitChar n = '0' := by
      have hlen : (lit "0123456789abcdef").length ≤ n := by simpa [lit_eq] using Nat.le_of_not_lt hn
      rw [digitChar, List.getD_eq_getElem?_getD, List.getElem?_eq_none hlen]
      rfl
    rw [hdigit]
    rfl

theorem flush_digit (n : Nat) (w : Text) : Flush (digitChar n :: w) :=
  ⟨_, w, rfl, digitChar_isSpace n⟩

theorem flush_appendDecimal (x : Nat) : Flush (appendDecimal x) := by
  rw [appendDecimal]
  split
  · exact flush_digit _ _
  · split
    · exact flush_digit _ _
    · exact flush_digit _ _

theorem flush_appendHex (x : Nat) : Flush (appendHex x) := by
  rw [appendHex]
  split
  · exact flush_digit _ _
  · split
    · exact flush_digit _ _
    · split
      · exact flush_digit _ _
      · exact flush_digit _ _

theorem flush_hexGroups (a : BitVec 128) (i : Nat) (is : List Nat) :
    Flush (hexGroups a (i :: is)) := by
  rw [hexGroups, List.map_cons]
  cases is with
  | nil => simpa [List.intercalate] using flush_appendHex (group a i)
  | cons k is =>
    simpa [List.intercalate] using (flush_appendHex (group a i)).append _

theorem flush_string6 (a : BitVec 128) : Flush (string6 a) := by
  rw [string6]
  split
  · exact flush_hexGroups a 0 _
  · rename_i i j _
    cases i with
    | zero =>
      exact ⟨':', ':' :: hexGroups a (List.range' j (8 - j)), by simp [hexGroups, lit_eq], rfl⟩
    | succ i =>
      rw [List.range_succ_eq_map, List.append_assoc]
      exact (flush_hexGroups a 0 _).append _

theorem flush_text (a : Addr) : Flush a.text := by
  cases a with
  | v4 a => exact (flush_appendDecimal _).append _
  | v6 a zone =>
    rw [Addr.text]
    apply Flush.append
    split
    · exact ⟨':', lit ":ffff:" ++ string4 (a.setWidth 32), by simp [lit_eq], rfl⟩
    · exact flush_string6 a

end Head

/-- The characters of what the address parsers accept. -/
def isAddrChar (c : Char) : Bool := (hexDigit c).isSome || c == '.' || c == ':' || c == '/'

theorem isAddrChar_of_digit {c : Char} (h : '0' ≤ c ∧ c ≤ '9') : isAddrChar c = true := by
  simp [isAddrChar, hexDigit, h]

/-- None of them is a blank or starts a comment. -/
theorem dot_le_of_isAddrChar {c : Char} (h : isAddrChar c = true) : '.' ≤ c := by
  have hchars : '.' ≤ '0' ∧ '.' ≤ 'a' ∧ '.' ≤ 'A' ∧ '.' ≤ ':' ∧ '.' ≤ '/' := by decide
  simp only [isAddrChar, hexDigit, Bool.or_eq_true, beq_iff_eq] at h
  rcases h with ((h | rfl) | rfl) | rfl
  · split_ifs at h with hdigit hlower hupper
    · exact Char.le_trans hchars.1 hdigit.1
    · exact Char.le_trans hchars.2.1 hlower.1
    · exact Char.le_trans hchars.2.2.1 hupper.1
    · cases h
  · exact Char.le_refl _
  · exact hchars.2.2.2.1
  · exact hchars.2.2.2.2

theorem parseIPv4Fields_chars {fields : List Nat} {val digLen : Nat} {s : Text} {r : List Nat}
    (h : parseIPv4Fields fields val digLen s = some r) : ∀ c ∈ s, isAddrChar c = true := by
  induction s generalizing fields val digLen with
  | nil => simp
  | cons c s ih =>
    rw [parseIPv4Fields] at h
    simp only at h
    split_ifs at h with hdigit
    · exact List.forall_mem_cons.mpr ⟨isAddrChar_of_digit hdigit, ih h⟩
    · exact List.forall_mem_cons.mpr ⟨by simp [*, isAddrChar], ih h⟩

theorem hexGroup_chars {off acc : Nat} {s : Text} {r : Nat × Nat × Text}
    (h : hexGroup off acc s = some r) :
    ∃ digits, s = digits ++ r.2.2 ∧ ∀ c ∈ digits, isAddrChar c = true := by
  induction s generalizing off acc with
  | nil =>
    cases h
    exact ⟨[], rfl, by simp⟩
  | cons c s ih =>
    rw [hexGroup] at h
    cases hd : hexDigit c with
    | none =>
      simp only [hd, Option.some.injEq] at h
      subst h
      exact ⟨[], rfl, by simp⟩
    | some d =>
      simp only [hd] at h
      split_ifs at h
      obtain ⟨digits, rfl, hdigits⟩ := ih h
      exact ⟨c :: digits, rfl, List.forall_mem_cons.mpr ⟨by simp [isAddrChar, hd], hdigits⟩⟩

theorem parseIPv6Groups_chars {ip : List Nat} {ellipsis : Option Nat} {n : Nat} {s : Text}
    {r : List Nat × Option Nat × Text} (h : parseIPv6Groups ip ellipsis n s = some r) :
    ∃ groups, s = groups ++ r.2.2 ∧ ∀ c ∈ groups, isAddrChar c = true := by
  have hcolon : isAddrChar ':' = true := rfl
  induction n generalizing ip ellipsis s with
  | zero =>
    cases h
    exact ⟨[], rfl, by simp⟩
  | succ n ih =>
    rw [parseIPv6Groups] at h
    obtain ⟨⟨off, acc, rest⟩, hgroup, h⟩ := Option.bind_eq_some_iff.mp h
    obtain ⟨digits, hs, hdigits⟩ := hexGroup_chars hgroup
    simp only at hs h
    by_cases hoff : off = 0
    · rw [if_pos hoff] at h
      cases h
    rw [if_neg hoff] at h
    split at h
    · split_ifs at h
      obtain ⟨fields, hfields, rfl⟩ := Option.map_eq_some_iff.mp h
      exact ⟨s, by simp, parseIPv4Fields_chars hfields⟩
    · cases h
      exact ⟨digits, hs, hdigits⟩
    · cases h
    · split_ifs at h
      cases h
      refine ⟨s, by simp, ?_⟩
      simpa [hs, hcolon, or_imp, forall_and] using hdigits
    · split_ifs at h
      obtain ⟨groups, rfl, hgroups⟩ := ih h
      refine ⟨digits ++ ':' :: ':' :: groups, by simp [hs], ?_⟩
      simpa [hcolon, or_imp, forall_and] using ⟨hdigits, hgroups⟩
    · obtain ⟨groups, rfl, hgroups⟩ := ih h
      refine ⟨digits ++ ':' :: groups, by simp [hs], ?_⟩
      simpa [hcolon, or_imp, forall_and] using ⟨hdigits, hgroups⟩
    · cases h

theorem parseIPv6_chars {s : Text} {addr : Addr} (h : parseIPv6 s = some addr)
    (hzone : addr.zone = []) : ∀ c ∈ s, isAddrChar c = true := by
  have hread : ∀ {zone : Text} {r : List Nat × Option Nat × Text},
      (if r.2.2 ≠ [] then none
        else (expandEllipsis r.1 r.2.1).map fun bytes => Addr.v6 (BitVec.ofNat 128 (ofBytes bytes)) zone) =
        some addr → r.2.2 = [] ∧ zone = [] := by
    intro zone r hr
    split_ifs at hr with hrest
    obtain ⟨bytes, -, rfl⟩ := Option.map_eq_some_iff.mp hr
    exact ⟨not_not.mp hrest, hzone⟩
  rw [parseIPv6] at h
  simp only [Option.bind_eq_bind] at h
  split at h
  · rw [Option.bind_some] at h
    simp only at h
    split at h
    all_goals obtain ⟨r, hgroups, hr⟩ := Option.bind_eq_some_iff.mp h
    · simp [isAddrChar]
    · obtain ⟨groups, rfl, hchars⟩ := parseIPv6Groups_chars hgroups
      rw [(hread hr).1, List.append_nil]
      exact List.forall_mem_cons.mpr ⟨rfl, List.forall_mem_cons.mpr ⟨rfl, hchars⟩⟩
    · obtain ⟨groups, rfl, hchars⟩ := parseIPv6Groups_chars hgroups
      rwa [(hread hr).1, List.append_nil]
  · cases h
  · rename_i hne _
    rw [Option.bind_some] at h
    split at h
    all_goals
      obtain ⟨r, -, hr⟩ := Option.bind_eq_some_iff.mp h
      exact absurd (hread hr).2 (by simpa using hne)

theorem parseAddr_chars {s : Text} {addr : Addr} (h : parseAddr s = some addr)
    (hzone : addr.zone = []) : ∀ c ∈ s, isAddrChar c = true := by
  rw [parseAddr] at h
  split at h
  · rw [parseIPv4] at h
    obtain ⟨fields, hfields, -⟩ := Option.map_eq_some_iff.mp h
    exact parseIPv4Fields_chars hfields
  · exact parseIPv6_chars h hzone
  · cases h

theorem parsePrefix_chars {s : Text} {p : Prefix} (h : parsePrefix s = some p) :
    ∀ c ∈ s, isAddrChar c = true := by
  rw [parsePrefix] at h
  obtain ⟨⟨addrText, bitsText⟩, hcut, h⟩ := Option.bind_eq_some_iff.mp h
  obtain ⟨addr, haddr, h⟩ := Option.bind_eq_some_iff.mp h
  by_cases hzone : addr.zone = []
  swap
  · simp only [if_neg hzone] at h
    cases h
  simp only [if_pos hzone] at h
  obtain ⟨bits, hbits, -⟩ := Option.bind_eq_some_iff.mp h
  rw [parseBits] at hbits
  split_ifs at hbits with hdigits
  have hs : s = addrText ++ '/' :: bitsText := by
    obtain ⟨⟨before, after⟩, hr, hparts⟩ := Option.map_eq_some_iff.mp hcut
    cases hparts
    have hreverse := congrArg List.reverse (cut_eq_some hr).1
    simpa using hreverse
  have hbitsText : ∀ c ∈ bitsText, isAddrChar c = true := by
    intro c hc
    simp only [not_or, not_not, List.all_eq_true, decide_eq_true_eq] at hdigits
    exact isAddrChar_of_digit (hdigits.2 c hc)
  rw [hs]
  exact List.forall_mem_append.mpr
    ⟨parseAddr_chars haddr hzone, List.forall_mem_cons.mpr ⟨rfl, hbitsText⟩⟩

end VpnControl.Netip
