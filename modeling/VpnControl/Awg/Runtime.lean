import VpnControl.Awg.Config

namespace VpnControl.Awg
open Strings

structure RuntimePeer where
  publicKey : Text := []
  endpoint : Text := []
  allowedIPs : List Text := []
  latestHandshake : Text := []
  transferReceived : Text := []
  transferSent : Text := []
  deriving DecidableEq, Repr

structure RuntimeStatus where
  interfaceName : Text := []
  publicKey : Text := []
  listenPort : Text := []
  peers : List RuntimePeer := []
  raw : Text := []
  deriving DecidableEq, Repr

/-- The trimmed rest of a line that starts with a label. -/
def labelled (label : String) (line : Text) : Option Text :=
  if lit label <+: line then some (trimSpace (trimPrefix (lit label) line)) else none

def parseRuntimePeerLine (peer : RuntimePeer) (line : Text) : RuntimePeer :=
  if let some value := labelled "endpoint:" line then { peer with endpoint := value }
  else if let some value := labelled "allowed ips:" line then
    { peer with allowedIPs := splitCSV value }
  else if let some value := labelled "latest handshake:" line then
    { peer with latestHandshake := value }
  else if let some value := labelled "transfer:" line then
    match value.splitOn ',' with
    | [] => peer
    | [received] =>
      { peer with transferReceived := trimSpace (trimSuffix (lit " received") received) }
    | received :: sent :: _ =>
      { peer with
        transferReceived := trimSpace (trimSuffix (lit " received") received)
        transferSent := trimSpace (trimSuffix (lit " sent") sent) }
  else peer

/-- The state of the loop over `awg show`: the current peer is not yet among the peers. -/
structure ShowState where
  status : RuntimeStatus
  current : Option RuntimePeer := none
  deriving DecidableEq, Repr

def flushRuntimePeer (st : ShowState) : RuntimeStatus :=
  { st.status with peers := st.status.peers ++ st.current.toList }

def parseShowLine (st : ShowState) (token : Text) : ShowState :=
  let line := trimSpace token
  if let some name := labelled "interface:" line then
    -- a peer ends where the next one, or an interface, begins
    { status := { flushRuntimePeer st with interfaceName := name } }
  else if let some key := labelled "peer:" line then
    { status := flushRuntimePeer st, current := some { publicKey := key } }
  else
    match st.current with
    | some peer => { st with current := some (parseRuntimePeerLine peer line) }
    | none =>
      if let some key := labelled "public key:" line then
        { st with status := { st.status with publicKey := key } }
      else if let some port := labelled "listening port:" line then
        { st with status := { st.status with listenPort := port } }
      else st

/-- The scanner's error is not looked at: a line over the limit ends the parse early. -/
def parseAWGShow (input : Text) : RuntimeStatus :=
  flushRuntimePeer ((scanLines input).1.foldl parseShowLine { status := { raw := input } })

def RuntimeStatus.hasPeer (s : RuntimeStatus) (publicKey : Text) : Bool :=
  s.peers.any (·.publicKey == publicKey)

end VpnControl.Awg
