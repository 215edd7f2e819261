import VpnControl.Awg.Netip

namespace VpnControl.Backend.Ipaddress
open Trim Netip BitPrefix

/-- An `IPv4Network` or `IPv6Network` of Python; without a scope the scope is empty. -/
inductive IPNetwork where
  | v4 (networkAddress : BitVec 32) (prefixlen : Fin 33)
  | v6 (networkAddress : BitVec 128) (scopeId : Text) (prefixlen : Fin 129)
  deriving DecidableEq, Repr

def isDigit (c : Char) : Bool := '0' ≤ c && c ≤ '9'

/-- `isascii` and `isdigit`. -/
def decimalDigits (s : Text) : Bool := s ≠ [] && s.all isDigit

def decimalInt (s : Text) : Nat := s.foldl (fun n c => n * 10 + (c.toNat - '0'.toNat)) 0

def parseOctet (octet : Text) : Option Nat :=
  if !decimalDigits octet then none
  else if 3 < octet.length then none
  else if octet ≠ ['0'] ∧ octet.head? = some '0' then none
  else if 255 < decimalInt octet then none
  else some (decimalInt octet)

/-- `IPv4Address` of a text. -/
def ipv4Address (s : Text) : Option (BitVec 32) :=
  let octets := s.splitOn '.'
  if octets.length ≠ 4 then none
  else (octets.mapM parseOctet).map fun ns => BitVec.ofNat 32 (ofBytes ns)

def parseHextet (hextet : Text) : Option Nat := do
  let ds ← hextet.mapM hexDigit
  if hextet = [] ∨ 4 < hextet.length then none
  else some (ds.foldl (fun n d => n * 16 + d) 0)

/-- The parts of an IPv6 text, with an IPv4 suffix written in hexadecimal. -/
def ipv6Parts (s : Text) : Option (List Text) :=
  let parts := s.splitOn ':'
  let last := parts.getLastD []
  if parts.length < 3 then none
  else if '.' ∈ last then
    (ipv4Address last).map fun a =>
      parts.dropLast ++ [appendHex (a.toNat / 65536), appendHex (a.toNat % 65536)]
  else some parts

/-- How many parts stand before and after the one that is empty, which is not at an end. -/
def partsAround (parts : List Text) (skip : Nat) : Option (Nat × Nat) :=
  let hi := if parts.head? = some [] then skip - 1 else skip
  let lo := if parts.getLast? = some [] then parts.length - skip - 2 else parts.length - skip - 1
  if parts.head? = some [] ∧ hi ≠ 0 then none
  else if parts.getLast? = some [] ∧ lo ≠ 0 then none
  else if 7 < hi + lo then none
  else some (hi, lo)

def hextetsInt (hextets : List Nat) : BitVec 128 :=
  BitVec.ofNat 128 (hextets.foldl (fun n h => n * 65536 + h) 0)

/-- The address of an IPv6 text without a scope. -/
def ipv6Int (s : Text) : Option (BitVec 128) := do
  let parts ← ipv6Parts s
  if 9 < parts.length then none
  else
    match (List.range' 1 (parts.length - 2)).filter fun i => parts[i]? == some [] with
    | [] =>
      if parts.length ≠ 8 then none else (parts.mapM parseHextet).map hextetsInt
    | [skip] => do
      let (hi, lo) ← partsAround parts skip
      let high ← (parts.take hi).mapM parseHextet
      let low ← (parts.drop (parts.length - lo)).mapM parseHextet
      some (hextetsInt (high ++ List.replicate (8 - (hi + lo)) 0 ++ low))
    | _ => none

/-- `IPv6Address` of a text, and its scope. -/
def ipv6Address (s : Text) : Option (BitVec 128 × Text) :=
  match cut '%' s with
  | none => (ipv6Int s).map fun a => (a, [])
  | some (addr, scopeId) =>
    if scopeId = [] ∨ '%' ∈ scopeId then none else (ipv6Int addr).map fun a => (a, scopeId)

def prefixFromPrefixString (max : Nat) (s : Text) : Option (Fin (max + 1)) :=
  if decimalDigits s then
    if h : decimalInt s ≤ max then some ⟨decimalInt s, Nat.lt_succ_of_le h⟩ else none
  else none

def countRighthandZeroBits (number bits : Nat) : Nat :=
  ((List.range bits).takeWhile fun i => !number.testBit i).length

/-- The length of a netmask: ones and then zeros. -/
def prefixFromIpInt (ip : BitVec 32) : Option (Fin 33) :=
  let trailingZeroes := countRighthandZeroBits ip.toNat 32
  let prefixlen := 32 - trailingZeroes
  if ip.toNat / 2 ^ trailingZeroes = 2 ^ prefixlen - 1 then some (Fin.ofNat 33 prefixlen) else none

/-- The length of a netmask or of a hostmask. -/
def prefixFromIpString (s : Text) : Option (Fin 33) := do
  let ip ← ipv4Address s
  (prefixFromIpInt ip).or (prefixFromIpInt (~~~ip))

def splitAddrPrefix (s : Text) : Option (Text × Option Text) :=
  match s.splitOn '/' with
  | [addr] => some (addr, none)
  | [addr, mask] => some (addr, some mask)
  | _ => none

def ipv4Network (s : Text) : Option IPNetwork := do
  let (addr, netmask) ← splitAddrPrefix s
  let a ← ipv4Address addr
  let prefixlen ← match netmask with
    | none => some 32
    | some text => (prefixFromPrefixString 32 text).or (prefixFromIpString text)
  some (.v4 (mask prefixlen a) prefixlen)

/-- A scope is lost where host bits are cleared. -/
def ipv6Network (s : Text) : Option IPNetwork := do
  let (addr, netmask) ← splitAddrPrefix s
  let (a, scopeId) ← ipv6Address addr
  let prefixlen ← match netmask with
    | none => some 128
    | some text => prefixFromPrefixString 128 text
  some (.v6 (mask prefixlen a) (if mask prefixlen a = a then scopeId else []) prefixlen)

/-- `ip_network(value, strict=False)`. -/
def ipNetwork (value : Text) : Option IPNetwork := (ipv4Network value).or (ipv6Network value)

namespace IPNetwork

def prefixlen : IPNetwork → Nat
  | v4 _ n => n
  | v6 _ _ n => n

/-- `str` of a network. -/
def str : IPNetwork → Text
  | v4 a n => string4 a ++ '/' :: decimal n
  | v6 a scopeId n =>
    string6 a ++ (if scopeId = [] then [] else '%' :: scopeId) ++ '/' :: decimal n

end IPNetwork
end VpnControl.Backend.Ipaddress
