import VpnControl.Awg.Netip

namespace VpnControl

/-- The texts that the Go library contributes to error messages: `%q`, and what
`netip.ParsePrefix`, `json.Unmarshal` and `strconv.Atoi` say about a text they refuse. -/
structure GoTexts where
  quote : Text → Text
  parsePrefix : Text → Text
  unmarshal : Text → Text
  atoi : Text → Text

namespace Awg
open Strings Trim

structure InterfaceLine where
  raw : Text
  key : Text
  value : Text
  commented : Bool
  hasKV : Bool
  deriving DecidableEq, Repr

/-- `extra` holds raw peer lines the agent does not manage. -/
structure Peer where
  publicKey : Text := []
  presharedKey : Text := []
  allowedIPs : List Text := []
  extra : List Text := []
  deriving DecidableEq, Repr

structure Config where
  interface : List InterfaceLine := []
  peers : List Peer := []
  deriving DecidableEq, Repr

structure Assignment where
  key : Text := []
  value : Text := []
  commented : Bool := false
  ok : Bool := false
  deriving DecidableEq, Repr

def isComment (trimmed : Text) : Bool := trimmed.head? == some '#'

def parseAssignment (line : Text) : Assignment :=
  let trimmed := trimSpace line
  if trimmed = [] then {}
  else
    let commented := isComment trimmed
    let body := if commented then trimSpace (trimPrefix ['#'] trimmed) else trimmed
    match cut '=' body with
    | none => { commented }
    | some (k, v) =>
      if trimSpace k = [] then { commented }
      else { key := trimSpace k, value := trimSpace v, commented, ok := true }

def splitCSV (value : Text) : List Text :=
  ((value.splitOn ',').map trimSpace).filter (· ≠ [])

inductive ParseError where
  | unsupportedSection (name : Text) (lineNo : Nat)
  | beforeSection (lineNo : Nat)
  | tokenTooLong
  | missingInterface
  deriving DecidableEq, Repr

def ParseError.message (go : GoTexts) : ParseError → Text
  | unsupportedSection name lineNo =>
    lit "unsupported section " ++ go.quote name ++ lit " on line " ++ Netip.decimal lineNo
  | beforeSection lineNo =>
    lit "line " ++ Netip.decimal lineNo ++ lit " appears before a section"
  | tokenTooLong => lit "bufio.Scanner: token too long"
  | missingInterface => lit "missing [Interface] section"

/-- The section being read; inside a peer section there is always a current peer. -/
inductive Section where
  | none
  | interface
  | peer (current : Peer)
  deriving DecidableEq, Repr

structure ParseState where
  cfg : Config := {}
  sect : Section := .none
  lineNo : Nat := 0
  deriving DecidableEq, Repr

def flushPeer (st : ParseState) : Config :=
  match st.sect with
  | .peer current => { st.cfg with peers := st.cfg.peers ++ [current] }
  | _ => st.cfg

/-- The name in a section header. -/
def headerName (trimmed : Text) : Option Text :=
  if ['['] <+: trimmed ∧ [']'] <:+ trimmed then
    some (trimSpace (trimSuffix [']'] (trimPrefix ['['] trimmed)))
  else none

def parseInterfaceLine (line : Text) : InterfaceLine :=
  let a := parseAssignment line
  { raw := line, key := a.key, value := a.value, commented := a.commented, hasKV := a.ok }

def parsePeerLine (current : Peer) (line : Text) : Peer :=
  let trimmed := trimSpace line
  if trimmed = [] then current
  else if isComment trimmed then { current with extra := current.extra ++ [trimmed] }
  else
    let a := parseAssignment line
    if !a.ok then { current with extra := current.extra ++ [trimmed] }
    else if a.key = lit "PublicKey" then { current with publicKey := a.value }
    else if a.key = lit "PresharedKey" ∨ a.key = lit "PreSharedKey" then
      { current with presharedKey := a.value }
    else if a.key = lit "AllowedIPs" then { current with allowedIPs := splitCSV a.value }
    else { current with extra := current.extra ++ [trimmed] }

def parseHeader (st : ParseState) (name : Text) (lineNo : Nat) : Except ParseError ParseState :=
  if toLower name = lit "interface" then
    .ok { cfg := flushPeer st, sect := .interface, lineNo }
  else if toLower name = lit "peer" then
    .ok { cfg := flushPeer st, sect := .peer {}, lineNo }
  else .error (.unsupportedSection name lineNo)

def parseBodyLine (st : ParseState) (line : Text) (lineNo : Nat) : Except ParseError ParseState :=
  match st.sect with
  | .interface =>
    let interface := st.cfg.interface ++ [parseInterfaceLine line]
    .ok { st with cfg := { st.cfg with interface }, lineNo }
  | .peer current => .ok { st with sect := .peer (parsePeerLine current line), lineNo }
  | .none => if trimSpace line = [] then .ok { st with lineNo } else .error (.beforeSection lineNo)

/-- One turn of the scanner's loop. -/
def parseLine (st : ParseState) (token : Text) : Except ParseError ParseState :=
  let line := trimRightCR token
  match headerName (trimSpace line) with
  | some name => parseHeader st name (st.lineNo + 1)
  | none => parseBodyLine st line (st.lineNo + 1)

def parseLines (st : ParseState) : List Text → Except ParseError ParseState
  | [] => .ok st
  | token :: tokens =>
    match parseLine st token with
    | .error e => .error e
    | .ok st' => parseLines st' tokens

def parseConfig (input : Text) : Except ParseError Config :=
  let (tokens, tooLong) := scanLines input
  match parseLines {} tokens with
  | .error e => .error e
  | .ok st =>
    if tooLong then .error .tokenTooLong
    else
      let cfg := flushPeer st
      if cfg.interface = [] then .error .missingInterface else .ok cfg

namespace Config

def interfaceValue (c : Config) (key : Text) : Option Text :=
  (c.interface.find? fun line => line.hasKV && equalFold line.key key).map (·.value)

def listenPort (c : Config) : Text := (c.interfaceValue (lit "ListenPort")).getD []

/-- The first of the interface addresses, unless it is blank. -/
def interfaceAddress (c : Config) : Option Text :=
  match c.interfaceValue (lit "Address") with
  | none => none
  | some value =>
    let first := match cut ',' value with
      | some (before, _) => before
      | none => value
    if trimSpace first = [] then none else some (trimSpace first)

def addPeer (c : Config) (peer : Peer) : Config := { c with peers := c.peers ++ [peer] }

/-- The config without the peers of a key, and whether there were any. -/
def removePeer (c : Config) (publicKey : Text) : Config × Bool :=
  ({ c with peers := c.peers.filter (·.publicKey ≠ publicKey) },
    c.peers.any (·.publicKey = publicKey))

def findPeer (c : Config) (publicKey : Text) : Option Peer :=
  c.peers.find? (·.publicKey = publicKey)

end Config

inductive ValidateError where
  | addressRequired
  | listenPortRequired
  | emptyPublicKey (number : Nat)
  | duplicatePublicKey (publicKey : Text)
  | emptyAllowedIPs (publicKey : Text)
  | invalidAllowedIPs (publicKey allowed : Text)
  | overlap (allowed publicKey : Text) (other : Netip.Prefix) (owner : Text)
  deriving DecidableEq, Repr

def ValidateError.message (go : GoTexts) : ValidateError → Text
  | addressRequired => lit "interface Address is required"
  | listenPortRequired => lit "interface ListenPort is required"
  | emptyPublicKey number => lit "peer " ++ Netip.decimal number ++ lit " has empty PublicKey"
  | duplicatePublicKey publicKey => lit "duplicate peer PublicKey " ++ go.quote publicKey
  | emptyAllowedIPs publicKey =>
    lit "peer " ++ go.quote publicKey ++ lit " has empty AllowedIPs"
  | invalidAllowedIPs publicKey allowed =>
    lit "peer " ++ go.quote publicKey ++ lit " has invalid AllowedIPs " ++ go.quote allowed ++
      lit ": " ++ go.parsePrefix allowed
  | overlap allowed publicKey other owner =>
    lit "AllowedIPs " ++ go.quote allowed ++ lit " of peer " ++ go.quote publicKey ++
      lit " overlaps " ++ go.quote other.text ++ lit " of peer " ++ go.quote owner

structure SeenPrefix where
  net : Netip.Prefix
  owner : Text
  deriving DecidableEq, Repr

/-- The loop over the AllowedIPs of one peer. -/
def validateAllowed (owner : Text) (seen : List SeenPrefix) :
    List Text → Except ValidateError (List SeenPrefix)
  | [] => .ok seen
  | allowed :: rest =>
    match Netip.parsePrefix allowed with
    | none => .error (.invalidAllowedIPs owner allowed)
    | some p =>
      match seen.find? fun other => other.owner ≠ owner && p.overlaps other.net with
      | some other => .error (.overlap allowed owner other.net other.owner)
      | none => validateAllowed owner (seen ++ [⟨p, owner⟩]) rest

/-- The loop over the peers; `number` counts them from one. -/
def validatePeers (number : Nat) (publicKeys : List Text) (seen : List SeenPrefix) :
    List Peer → Except ValidateError Unit
  | [] => .ok ()
  | peer :: rest =>
    if peer.publicKey = [] then .error (.emptyPublicKey number)
    else if peer.publicKey ∈ publicKeys then .error (.duplicatePublicKey peer.publicKey)
    else if peer.allowedIPs = [] then .error (.emptyAllowedIPs peer.publicKey)
    else
      match validateAllowed peer.publicKey seen peer.allowedIPs with
      | .error e => .error e
      | .ok seen' => validatePeers (number + 1) (publicKeys ++ [peer.publicKey]) seen' rest

def Config.validate (c : Config) : Except ValidateError Unit :=
  if c.interfaceAddress = none then .error .addressRequired
  else if c.listenPort = [] then .error .listenPortRequired
  else validatePeers 1 [] [] c.peers

def trimTrailingEmptyInterfaceLines (lines : List InterfaceLine) : List InterfaceLine :=
  lines.rdropWhile fun line => trimSpace line.raw = []

/-- The lines of one rendered peer, the blank one after it included. -/
def renderPeer (peer : Peer) : List Text :=
  [lit "[Peer]", lit "PublicKey = " ++ peer.publicKey] ++
    (if peer.presharedKey ≠ [] then [lit "PresharedKey = " ++ peer.presharedKey] else []) ++
    [lit "AllowedIPs = " ++ join peer.allowedIPs (lit ", ")] ++ peer.extra ++ [[]]

def renderLines (c : Config) : List Text :=
  lit "[Interface]" :: (trimTrailingEmptyInterfaceLines c.interface).map (·.raw) ++ [[]] ++
    c.peers.flatMap renderPeer

def renderConfig (c : Config) : Text := unlines '\n' (renderLines c)

end Awg
end VpnControl
