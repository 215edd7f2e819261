import VpnControl.Lib.BitPrefix
import VpnControl.Strings

namespace VpnControl.Netip
open Trim BitPrefix

/-- `netip.Addr`; the zone of an IPv6 address may be empty. -/
inductive Addr where
  | v4 (a : BitVec 32)
  | v6 (a : BitVec 128) (zone : Text)
  deriving DecidableEq, Repr

namespace Addr

def bitLen : Addr → Nat
  | v4 _ => 32
  | v6 _ _ => 128

def is4 : Addr → Bool
  | v4 _ => true
  | v6 _ _ => false

def zone : Addr → Text
  | v4 _ => []
  | v6 _ z => z

end Addr

def digitChar (n : Nat) : Char := (lit "0123456789abcdef").getD n '0'

/-- The decimal text of one byte. -/
def appendDecimal (x : Nat) : Text :=
  (if 100 ≤ x then [digitChar (x / 100)] else []) ++
    (if 10 ≤ x then [digitChar (x / 10 % 10)] else []) ++ [digitChar (x % 10)]

/-- Byte `i` of a big-endian IPv4 address. -/
def octet (a : BitVec 32) (i : Nat) : Nat := a.toNat / 256 ^ (3 - i) % 256

def string4 (a : BitVec 32) : Text :=
  appendDecimal (octet a 0) ++ '.' :: (appendDecimal (octet a 1) ++
    '.' :: (appendDecimal (octet a 2) ++ '.' :: appendDecimal (octet a 3)))

/-- The hexadecimal text of a 16-bit group, without leading zeros. -/
def appendHex (x : Nat) : Text :=
  (if 0x1000 ≤ x then [digitChar (x / 0x1000)] else []) ++
    (if 0x100 ≤ x then [digitChar (x / 0x100 % 16)] else []) ++
    (if 0x10 ≤ x then [digitChar (x / 0x10 % 16)] else []) ++ [digitChar (x % 16)]

def group (a : BitVec 128) (i : Nat) : Nat := a.toNat / 65536 ^ (7 - i) % 65536

/-- The number of zero groups in a row from group `i` on. -/
def zeroRun (a : BitVec 128) (i : Nat) : Nat :=
  ((List.range' i (8 - i)).takeWhile fun j => group a j == 0).length

/-- The first longest run of at least two zero groups, as its start and end. -/
def longestRun (a : BitVec 128) : Option (Nat × Nat) :=
  (List.range 8).foldl (fun best i =>
    let l := zeroRun a i
    if 2 ≤ l ∧ (best.map fun r => r.2 - r.1).getD 0 < l then some (i, i + l) else best) none

/-- Groups joined by colons. -/
def hexGroups (a : BitVec 128) (is : List Nat) : Text :=
  [':'].intercalate (is.map fun i => appendHex (group a i))

def string6 (a : BitVec 128) : Text :=
  match longestRun a with
  | none => hexGroups a (List.range 8)
  | some (i, j) =>
    hexGroups a (List.range i) ++ lit "::" ++ hexGroups a (List.range' j (8 - j))

/-- An IPv4 address inside `::ffff:0:0/96`. -/
def is4In6 (a : BitVec 128) : Bool := a.toNat / 2 ^ 32 == 0xFFFF

/-- `Addr.String`. -/
def Addr.text : Addr → Text
  | .v4 a => string4 a
  | .v6 a zone =>
    (if is4In6 a then lit "::ffff:" ++ string4 (a.setWidth 32) else string6 a) ++
      if zone = [] then [] else '%' :: zone

/-- The fields of a dotted IPv4 address. `fields` are the complete ones, `val` and
`digLen` the value and the length of the one being read. -/
def parseIPv4Fields (fields : List Nat) (val digLen : Nat) : Text → Option (List Nat)
  | [] => if fields.length < 3 then none else some (fields ++ [val])
  | c :: s =>
    if '0' ≤ c ∧ c ≤ '9' then
      -- no leading zeros
      if digLen = 1 ∧ val = 0 then none
      else
        let val := val * 10 + (c.toNat - '0'.toNat)
        if 255 < val then none else parseIPv4Fields fields val (digLen + 1) s
    else if c = '.' then
      if digLen = 0 ∨ s = [] then none
      else if fields.length = 3 then none
      else parseIPv4Fields (fields ++ [val]) 0 0 s
    else none

/-- The number whose base-256 digits are the bytes. -/
def ofBytes (bytes : List Nat) : Nat := bytes.foldl (fun n b => n * 256 + b) 0

def parseIPv4 (s : Text) : Option Addr :=
  (parseIPv4Fields [] 0 0 s).map fun fields => .v4 (BitVec.ofNat 32 (ofBytes fields))

def hexDigit (c : Char) : Option Nat :=
  if '0' ≤ c ∧ c ≤ '9' then some (c.toNat - '0'.toNat)
  else if 'a' ≤ c ∧ c ≤ 'f' then some (c.toNat - 'a'.toNat + 10)
  else if 'A' ≤ c ∧ c ≤ 'F' then some (c.toNat - 'A'.toNat + 10)
  else none

/-- The hexadecimal digits a text starts with: how many there are, their value and
what follows them. More than four are refused. -/
def hexGroup (off acc : Nat) : Text → Option (Nat × Nat × Text)
  | [] => some (off, acc, [])
  | c :: s =>
    match hexDigit c with
    | none => some (off, acc, c :: s)
    | some d =>
      if 3 < off then none
      else if 65535 < acc * 16 + d then none else hexGroup (off + 1) (acc * 16 + d) s

/-- The loop of `parseIPv6`: `n` groups are still missing, `ip` are the bytes read so
far and `ellipsis` is the position of `::` among them. -/
def parseIPv6Groups (ip : List Nat) (ellipsis : Option Nat) :
    Nat → Text → Option (List Nat × Option Nat × Text)
  | 0, s => some (ip, ellipsis, s)
  | n + 1, s => do
    let (off, acc, rest) ← hexGroup 0 0 s
    if off = 0 then none
    else
      let ip' := ip ++ [acc / 256, acc % 256]
      match rest with
      -- the last four bytes in the form of an IPv4 address
      | '.' :: _ =>
        if ellipsis.isNone ∧ ip.length ≠ 12 then none
        else if 16 < ip.length + 4 then none
        else (parseIPv4Fields [] 0 0 s).map fun fields => (ip ++ fields, ellipsis, [])
      | [] => some (ip', ellipsis, [])
      | [':'] => none
      | [':', ':'] => if ellipsis.isSome then none else some (ip', some ip'.length, [])
      | ':' :: ':' :: s' =>
        if ellipsis.isSome then none else parseIPv6Groups ip' (some ip'.length) n s'
      | ':' :: s' => parseIPv6Groups ip' ellipsis n s'
      | _ :: _ => none

/-- The bytes with the zeros that `::` stands for. -/
def expandEllipsis (ip : List Nat) : Option Nat → Option (List Nat)
  | none => if ip.length < 16 then none else some ip
  | some e =>
    if ip.length < 16 then
      some (ip.take e ++ List.replicate (16 - ip.length) 0 ++ ip.drop e)
    else none

def parseIPv6 (s : Text) : Option Addr := do
  let (s, zone) ← match cut '%' s with
    | none => some (s, [])
    | some (_, []) => none
    | some (s, zone) => some (s, zone)
  let (ip, ellipsis, rest) ← match s with
    | [':', ':'] => some ([], some 0, [])
    | ':' :: ':' :: s => parseIPv6Groups [] (some 0) 8 s
    | s => parseIPv6Groups [] none 8 s
  if rest ≠ [] then none
  else (expandEllipsis ip ellipsis).map fun bytes => .v6 (BitVec.ofNat 128 (ofBytes bytes)) zone

/-- `netip.ParseAddr`: the first `.`, `:` or `%` decides. -/
def parseAddr (s : Text) : Option Addr :=
  match s.find? fun c => c == '.' || c == ':' || c == '%' with
  | some '.' => parseIPv4 s
  | some ':' => parseIPv6 s
  | _ => none

/-- A `netip.Prefix` that is valid: the length fits the address, which has no zone. -/
structure Prefix where
  addr : Addr
  bits : Nat
  bits_le : bits ≤ addr.bitLen
  zone_eq : addr.zone = []
  deriving DecidableEq, Repr

/-- The length after the slash: digits without a sign or a leading zero. -/
def parseBits (s : Text) : Option Nat :=
  if s = [] ∨ ¬ s.all (fun c => '0' ≤ c ∧ c ≤ '9') then none
  else if 1 < s.length ∧ s.head? = some '0' then none
  else some (s.foldl (fun n c => n * 10 + (c.toNat - '0'.toNat)) 0)

/-- The text before the last `/` and the text after it. -/
def cutLastSlash (s : Text) : Option (Text × Text) :=
  (cut '/' s.reverse).map fun r => (r.2.reverse, r.1.reverse)

def parsePrefix (s : Text) : Option Prefix := do
  let (addrText, bitsText) ← cutLastSlash s
  let addr ← parseAddr addrText
  let bits ← if addr.zone = [] then parseBits bitsText else none
  if h : bits ≤ addr.bitLen ∧ addr.zone = [] then some ⟨addr, bits, h.1, h.2⟩ else none

def decimal (n : Nat) : Text := Nat.toDigits 10 n

namespace Prefix

/-- `Prefix.String`. -/
def text (p : Prefix) : Text := p.addr.text ++ '/' :: decimal p.bits

/-- `Prefix.Overlaps`: the addresses agree as far as the shorter prefix reaches. -/
def overlaps (p q : Prefix) : Bool :=
  match p.addr, q.addr with
  | .v4 a, .v4 b => decide (Agree (min p.bits q.bits) a b)
  | .v6 a _, .v6 b _ => decide (Agree (min p.bits q.bits) a b)
  | _, _ => false

/-- `Prefix.Contains`. -/
def contains (p : Prefix) (x : Addr) : Bool :=
  match p.addr, x with
  | .v4 a, .v4 b => decide (Agree p.bits b a)
  | .v6 a _, .v6 b zone => decide (Agree p.bits b a) && zone == []
  | _, _ => false

/-- The address of `Prefix.Masked`. -/
def maskedAddr (p : Prefix) : Addr :=
  match p.addr with
  | .v4 a => .v4 (mask p.bits a)
  | .v6 a zone => .v6 (mask p.bits a) zone

/-- The prefix of one IPv4 address. -/
def host (a : BitVec 32) : Prefix := ⟨.v4 a, 32, Nat.le_refl 32, rfl⟩

theorem overlaps_comm (p q : Prefix) : p.overlaps q = q.overlaps p := by
  rw [Bool.eq_iff_iff]
  rcases p with ⟨a | ⟨a, z⟩, n, hn, ha⟩ <;> rcases q with ⟨b | ⟨b, y⟩, m, hm, hb⟩ <;>
    simp only [overlaps, decide_eq_true_eq, Bool.false_eq_true, Nat.min_comm n m]
  · exact ⟨Agree.symm, Agree.symm⟩
  · exact ⟨Agree.symm, Agree.symm⟩

theorem contains_v4 {a : BitVec 32} {n : Nat} {hn : n ≤ (Addr.v4 a).bitLen}
    {ha : (Addr.v4 a).zone = []} (x : Addr) :
    contains ⟨.v4 a, n, hn, ha⟩ x = true ↔ ∃ y, x = .v4 y ∧ Agree n y a := by
  cases x <;> simp [contains]

theorem contains_v6 {a : BitVec 128} {z : Text} {n : Nat} {hn : n ≤ (Addr.v6 a z).bitLen}
    {ha : (Addr.v6 a z).zone = []} (x : Addr) :
    contains ⟨.v6 a z, n, hn, ha⟩ x = true ↔ ∃ y, x = .v6 y [] ∧ Agree n y a := by
  cases x <;> simp [contains, and_comm]

/-- Two prefixes overlap when some address is in both. -/
theorem overlaps_iff (p q : Prefix) :
    p.overlaps q = true ↔ ∃ x, p.contains x = true ∧ q.contains x = true := by
  rcases p with ⟨a | ⟨a, z⟩, n, hn, ha⟩ <;> rcases q with ⟨b | ⟨b, y⟩, m, hm, hb⟩
  · have hn' : n ≤ 32 := hn
    have hm' : m ≤ 32 := hm
    simp only [contains_v4, overlaps, decide_eq_true_eq, agree_min_iff hn' hm']
    constructor
    · rintro ⟨x, hxa, hxb⟩
      exact ⟨.v4 x, ⟨x, rfl, hxa⟩, x, rfl, hxb⟩
    · rintro ⟨_, ⟨x, rfl, hxa⟩, y, hy, hyb⟩
      cases hy
      exact ⟨x, hxa, hyb⟩
  · simp [overlaps, contains_v4, contains_v6]
  · simp [overlaps, contains_v4, contains_v6]
  · have hn' : n ≤ 128 := hn
    have hm' : m ≤ 128 := hm
    simp only [contains_v6, overlaps, decide_eq_true_eq, agree_min_iff hn' hm']
    constructor
    · rintro ⟨x, hxa, hxb⟩
      exact ⟨.v6 x [], ⟨x, rfl, hxa⟩, x, rfl, hxb⟩
    · rintro ⟨_, ⟨x, rfl, hxa⟩, y, hy, hyb⟩
      cases hy
      exact ⟨x, hxa, hyb⟩

@[simp] theorem host_overlaps (a : BitVec 32) (q : Prefix) :
    (host a).overlaps q = q.contains (.v4 a) := by
  rcases q with ⟨b | ⟨b, z⟩, m, hm, hz⟩
  · have h : min 32 m = m := Nat.min_eq_right hm
    simp [host, overlaps, contains, h]
  · rfl

/-- A prefix contains the address it is written with. -/
theorem contains_addr (p : Prefix) : p.contains p.addr = true := by
  rcases p with ⟨a | ⟨a, z⟩, m, hm, hz⟩
  · simp [contains, Agree]
  · have hz' : z = [] := hz
    simp [contains, Agree, hz']

end Prefix
end VpnControl.Netip
