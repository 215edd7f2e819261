import VpnControl.Awg.Validate
import VpnControl.Awg.Runtime

namespace VpnControl.Awg
open Strings Netip BitPrefix

inductive AllocateError where
  | addressRequired
  | invalidAddress (address : Text)
  | onlyIPv4 (address : Text)
  | invalidPrefix (address : Text)
  | noFree (subnet : Prefix)
  deriving DecidableEq, Repr

def AllocateError.message (go : GoTexts) : AllocateError → Text
  | addressRequired => lit "interface Address is required"
  | invalidAddress address =>
    lit "invalid interface Address " ++ go.quote address ++ lit ": " ++ go.parsePrefix address
  | onlyIPv4 address => lit "only IPv4 allocation is supported, got " ++ go.quote address
  | invalidPrefix address => lit "invalid IPv4 prefix " ++ go.quote address
  | noFree subnet => lit "no free IPv4 addresses in " ++ go.quote subnet.text

/-- The IPv4 address that an AllowedIPs entry is written with. -/
def allowedIPv4Addr (value : Text) : Option Addr :=
  let value := trimSpace value
  if value = [] then none
  else
    match (parsePrefix value).map (·.addr) |>.filter Addr.is4 with
    | some addr => some addr
    | none => (parseAddr value).filter Addr.is4

/-- The addresses that are never handed out: the server's own one and those that the
AllowedIPs entries are written with. -/
def usedAddrs (server : Addr) (cfg : Config) (extraUsed : List Text) : List Addr :=
  server :: (cfg.peers.flatMap (·.allowedIPs) ++ extraUsed).filterMap allowedIPv4Addr

/-- The loop over the candidates: `n` are left, `candidate` is the next one. -/
def firstFree (used : List Addr) (candidate : Nat) : Nat → Option Addr
  | 0 => none
  | n + 1 =>
    if .v4 (BitVec.ofNat 32 candidate) ∉ used then some (.v4 (BitVec.ofNat 32 candidate))
    else firstFree used (candidate + 1) n

/-- Allocation in the subnet that the IPv4 address `a` with `bits` network bits is in. -/
def allocateIn (used : List Addr) (a : BitVec 32) (bits : Nat) : Option Addr :=
  let network := mask bits a
  let size := 2 ^ (32 - bits)
  if size ≤ 2 then if .v4 network ∉ used then some (.v4 network) else none
  else firstFree used (network.toNat + 1) (size - 2)

/-- What `Issue` passes on from the runtime. -/
def runtimeUsed (runtime : List RuntimePeer) : List Text := runtime.flatMap (·.allowedIPs)

def allocateFreeIPv4 (cfg : Config) (extraUsed : List Text) : Except AllocateError Addr :=
  match cfg.interfaceAddress with
  | none => .error .addressRequired
  | some address =>
    match parsePrefix address with
    | none => .error (.invalidAddress address)
    | some ⟨.v6 _ _, _, _, _⟩ => .error (.onlyIPv4 address)
    | some ⟨.v4 a, bits, hbits, hzone⟩ =>
      if bits = 0 then .error (.invalidPrefix address)
      else
        match allocateIn (usedAddrs (.v4 a) cfg extraUsed) a bits with
        | some addr => .ok addr
        | none => .error (.noFree ⟨.v4 (mask bits a), bits, hbits, hzone⟩)

end VpnControl.Awg
