import VpnControl.Awg.SetconfRender
import VpnControl.Awg.Validate
import Mathlib.Data.List.Forall2

namespace VpnControl.Awg
open Strings Trim Netip

/-- The lines of a file up to its first section header, and its sections. -/
def splitBlocks : List Text → List Text × List Block
  | [] => ([], [])
  | l :: ls =>
    let (body, blocks) := splitBlocks ls
    match (sectionName l).map toLower with
    | none => (l :: body, blocks)
    | some name =>
      if name = lit "interface" then ([], .interface l body :: blocks)
      else ([], .peer l body :: blocks)

/-- The sections of a config file, as the agent sees them. -/
def fileBlocks (text : Text) : List Block := (splitBlocks (scanLines text).1).2

/-- The bodies of the peer sections, in their order. -/
def peerBodies (blocks : List Block) : List (List Text) :=
  blocks.filterMap fun
    | .interface _ _ => none
    | .peer _ body => some body

/-- The lines of all interface sections, in their order. -/
def interfaceBody (blocks : List Block) : List Text :=
  blocks.flatMap fun
    | .interface _ body => body
    | .peer _ _ => []

/-- What the agent's sections leave under one `[Peer]` header that `awg` sees: the lines of the
section that the header begins, if it begins one, and the lines that are kept as they are. -/
structure Span where
  body : List Text := []
  extra : List Text

/-- A line kept in a section may be one more header for `awg`. -/
def Block.spans : Block → List Span
  | interface _ _ => []
  | peer _ body => ⟨body, (peerSpans (keptLines body)).1⟩ ::
      (peerSpans (keptLines body)).2.map fun extra => ⟨[], extra⟩

/-- The sections in the order in which the agent writes them, the interface first. -/
def keptSpans (blocks : List Block) : List Span :=
  ((peerSpans (interfaceBody blocks)).2.map fun extra => ⟨[], extra⟩) ++ blocks.flatMap Block.spans

/-- The key of a peer stays what it is if the last line that `awg` takes for it has the value of
the last such line that is kept, or if none is kept, that of the last managed line. -/
structure KeyStays (awgKey : Text → Option Text) (managed : Option Text)
    (lines extra : List Text) : Prop where
  kept : ∀ value, (extra.filterMap awgKey).getLast? = some value →
    (lines.filterMap awgKey).getLast? = some value
  managed : (∀ l ∈ extra, awgKey l = none) →
    (lines.filterMap awgKey).getLast? = managed.bind written

/-- A network on the last managed `AllowedIPs` line, or on a line that is kept. -/
def Span.HasRoute (s : Span) (route : Except Text (Addr × Nat)) : Prop :=
  (∃ values, (managedAllowedIPs s.body).getLast? = some values ∧ route ∈ values.map awgRoute) ∨
    ∃ l ∈ s.extra, route ∈ (awgAllowedIPs l).map awgRoute

/-- Of the peer that `awg` reads from the lines nothing gets lost: no key changes with the order
of the lines, and no network is only on a managed line that a later one replaces. -/
structure Stays (lines : List Text) (s : Span) : Prop where
  publicKey : KeyStays awgPublicKey (managedPublicKeys s.body).getLast? lines s.extra
  presharedKey : KeyStays awgPresharedKey (managedPresharedKeys s.body).getLast? lines s.extra
  routes : ∀ l ∈ lines, ∀ entry ∈ awgAllowedIPs l, s.HasRoute (awgRoute entry)
  noOthers : ∀ route, s.HasRoute route → ∃ l ∈ lines, route ∈ (awgAllowedIPs l).map awgRoute

section Sections

theorem splitBlocks_body {body : List Text} {rest : List Text}
    (h : ∀ l ∈ body, sectionName l = none) :
    splitBlocks (body ++ rest) = (body ++ (splitBlocks rest).1, (splitBlocks rest).2) := by
  induction body with
  | nil => rfl
  | cons l body ih =>
    obtain ⟨hl, hbody⟩ := List.forall_mem_cons.mp h
    rw [List.cons_append, splitBlocks, ih hbody, hl]
    rfl

theorem splitBlocks_blocks {blocks : List Block} (h : ∀ b ∈ blocks, b.Valid) :
    splitBlocks (blocksLines blocks) = ([], blocks) := by
  induction blocks with
  | nil => rfl
  | cons b blocks ih =>
    obtain ⟨hb, hblocks⟩ := List.forall_mem_cons.mp h
    obtain ⟨n, hn, hname⟩ := hb.header
    rw [blocksLines, List.flatMap_cons, ← blocksLines, Block.lines, List.cons_append, splitBlocks,
      splitBlocks_body hb.body, ih hblocks, hn, Option.map_some, hname]
    cases b with
    | interface header body => simp [Block.name, Block.header, Block.body]
    | peer header body => simp [Block.name, Block.header, Block.body]

/-- What an accepted file consists of, in terms of `fileBlocks`. -/
theorem fileBlocks_spec {text : Text} {cfg : Config} (h : parseConfig text = .ok cfg) :
    ∃ pre, (rawLines text).map dropCR = pre ++ blocksLines (fileBlocks text) ∧
      (∀ l ∈ pre, trimSpace l = []) ∧ (∀ b ∈ fileBlocks text, b.Valid) ∧
      cfg = blocksConfig (fileBlocks text) := by
  obtain ⟨pre, blocks, hscan, hpre, hvalid, rfl, -⟩ := parseConfig_ok_iff.mp h
  have hname : ∀ l ∈ pre, sectionName l = none := by
    intro l hl
    rw [sectionName, trimSpace_trimRightCR, hpre l hl]
    rfl
  have hblocks : fileBlocks text = blocks := by
    rw [fileBlocks, hscan, splitBlocks_body hname, splitBlocks_blocks hvalid]
  have hlines : (rawLines text).map dropCR = (scanLines text).1 := by
    have hend : (scanLines text).2 = false := by rw [hscan]
    simp only [scanLines, List.span_eq_takeWhile_dropWhile, Bool.not_eq_false',
      List.isEmpty_iff, List.dropWhile_eq_nil_iff] at hend ⊢
    rw [List.takeWhile_eq_self_iff.mpr hend]
  refine ⟨pre, ?_, hpre, hblocks ▸ hvalid, by rw [hblocks]⟩
  rw [hlines, hscan, hblocks]

theorem blocksConfig_peers (blocks : List Block) :
    (blocksConfig blocks).peers = (peerBodies blocks).map (Block.readPeer {}) := by
  rw [blocksConfig, peerBodies]
  induction blocks with
  | nil => rfl
  | cons b blocks ih => cases b <;> simp_all [Block.peers]

end Sections

section Reading
variable {lines extra body : List Text} {blocks : List Block}

def Block.awgHeader : Block → AwgLine
  | interface _ _ => .interface
  | peer _ _ => .peer

/-- The peers that `awg` reads from a section. -/
def Block.awgPeers : Block → List AwgPeer
  | interface _ body => (readLines {} body).flush
  | peer _ body => (readLines ⟨[], some {}⟩ body).flush

theorem readLines_block {b : Block} (hheader : awgLine b.header = b.awgHeader) (st : AwgState) :
    (readLines st b.lines).flush = st.flush ++ b.awgPeers := by
  have hcons : readLines st b.lines = readLines (awgStep st b.header) b.body := rfl
  rw [hcons, awgStep, hheader]
  cases b <;> simp [flush_readLines, Block.awgHeader, Block.awgPeers, Block.body]

theorem readLines_blocks (hheaders : ∀ b ∈ blocks, awgLine b.header = b.awgHeader)
    (st : AwgState) :
    (readLines st (blocksLines blocks)).flush = st.flush ++ blocks.flatMap Block.awgPeers := by
  induction blocks generalizing st with
  | nil => simp [blocksLines, readLines]
  | cons b blocks ih =>
    obtain ⟨hb, hheaders⟩ := List.forall_mem_cons.mp hheaders
    rw [blocksLines, List.flatMap_cons, readLines_append, ← blocksLines, ih hheaders,
      readLines_block hb, List.flatMap_cons, List.append_assoc]

theorem readLines_other {st : AwgState} (h : ∀ l ∈ lines, awgLine l = .other) :
    readLines st lines = st := by
  induction lines with
  | nil => rfl
  | cons l lines ih =>
    obtain ⟨hl, hlines⟩ := List.forall_mem_cons.mp h
    have hstep : awgStep st l = st := by
      rw [awgStep, hl]
      cases st with
      | mk done current => cases current <;> rfl
    rw [readLines, List.foldl_cons, hstep]
    exact ih hlines

theorem awgLine_nil : awgLine [] = .other := awgLine_of_trimSpace rfl

/-- The interface lines that are written mean to `awg` what the ones of the file mean. -/
theorem flush_writtenInterface (blocks : List Block) :
    (readLines {} ((trimTrailingEmptyInterfaceLines (blocksConfig blocks).interface).map (·.raw) ++
      [[]])).flush = (readLines {} (interfaceBody blocks)).flush := by
  have hraw : ((blocksConfig blocks).interface).map (·.raw) =
      (interfaceBody blocks).map trimRightCR := by
    simp only [blocksConfig, interfaceBody, List.map_flatMap]
    apply List.flatMap_congr
    intro b _
    cases b with
    | interface header body => simp [Block.interfaceLines, parseInterfaceLine]
    | peer header body => rfl
  rw [readLines_append, readLines_other (by simp [awgLine_nil])]
  have hread : readLines {} ((interfaceBody blocks).map trimRightCR) =
      readLines {} (interfaceBody blocks) := readLines_congr fun l _ => awgLine_trimRightCR l
  rw [← hread, ← hraw]
  -- What the renderer cuts off at the end are lines of blanks.
  generalize (blocksConfig blocks).interface = lines
  have hsplit : trimTrailingEmptyInterfaceLines lines ++
      lines.rtakeWhile (fun line => trimSpace line.raw = []) = lines := by
    simp only [trimTrailingEmptyInterfaceLines, List.rdropWhile, List.rtakeWhile]
    rw [← List.reverse_append, List.takeWhile_append_dropWhile, List.reverse_reverse]
  have hcut : ∀ l ∈ (lines.rtakeWhile fun line => trimSpace line.raw = []).map (·.raw),
      awgLine l = .other := by
    intro l hl
    obtain ⟨line, hline, rfl⟩ := List.mem_map.mp hl
    exact awgLine_of_trimSpace (by simpa using List.mem_rtakeWhile_imp hline)
  conv_rhs => rw [← hsplit, List.map_append, readLines_append, readLines_other hcut]

/-- Under the header of a rendered peer `awg` reads up to the first kept line that is a header. -/
theorem flush_renderBody (p : Peer) :
    (readLines ⟨[], some {}⟩ (renderBody p)).flush =
      readPeerLines {} (renderBody { p with extra := (peerSpans p.extra).1 }) ::
        (peerSpans p.extra).2.map (readPeerLines {}) := by
  obtain ⟨fields, hfields⟩ : ∃ fields, ∀ extra, renderBody { p with extra } = fields ++ extra ++ [[]] :=
    ⟨[keyLine (lit "PublicKey") p.publicKey] ++
      (if p.presharedKey ≠ [] then [keyLine (lit "PresharedKey") p.presharedKey] else []) ++
      [keyLine (lit "AllowedIPs") (join p.allowedIPs (lit ", "))], fun _ => rfl⟩
  have hnot : ∀ l ∈ fields, (awgLine l).isHeader = false := fun l hl =>
    renderBody_not_header (p := { p with extra := [] }) (by simp) l (by simp [hfields, hl])
  have hbody : renderBody p = fields ++ p.extra ++ [[]] := hfields p.extra
  rw [hbody, readLines_append, readLines_other (by simp [awgLine_nil]), readLines_append,
    readLines_body hnot, flush_readLines, hfields]
  simp [readPeerLines, awgLine_nil, AwgPeer.apply]

theorem stripLine_append_plain {s : Text} (hs : ∀ c ∈ s, isAddrChar c = true) (rest : Text) :
    stripLine (s ++ rest) = s ++ stripLine rest := by
  induction s with
  | nil => rfl
  | cons c s ih =>
    obtain ⟨hc, hs⟩ := List.forall_mem_cons.mp hs
    have hdot := dot_le_of_isAddrChar hc
    have hhash : c ≠ '#' := by
      rintro rfl
      exact absurd hdot (by decide)
    have hblank : isBlank c = false := by
      have hspace : c ≠ ' ' := by
        rintro rfl
        exact absurd hdot (by decide)
      have hnat : 46 ≤ c.toNat := hdot
      simp only [isBlank, beq_eq_false_iff_ne.mpr hspace, Bool.false_or]
      simp only [Bool.and_eq_false_iff, decide_eq_false_iff_not]
      omega
    rw [List.cons_append, stripLine, if_neg hhash, hblank, if_neg (by simp), ih hs, List.cons_append]

theorem stripLine_join {entries : List Text} (h : ∀ a ∈ entries, ∀ c ∈ a, isAddrChar c = true) :
    stripLine (join entries (lit ", ")) = [','].intercalate entries := by
  induction entries with
  | nil => rfl
  | cons a entries ih =>
    obtain ⟨ha, hentries⟩ := List.forall_mem_cons.mp h
    cases entries with
    | nil =>
      have hplain := stripLine_append_plain ha []
      rw [List.append_nil, stripLine, List.append_nil] at hplain
      simpa [join] using hplain
    | cons b entries =>
      have hjoin : join (a :: b :: entries) (lit ", ") =
          a ++ ',' :: ' ' :: join (b :: entries) (lit ", ") := by
        simp [join, lit_eq]
      have hintercalate : [','].intercalate (a :: b :: entries) =
          a ++ ',' :: [','].intercalate (b :: entries) := by
        simp
      rw [hjoin, stripLine_append_plain ha, stripLine, if_neg (by decide), if_neg (by decide),
        stripLine, if_neg (by decide), if_pos (by decide), ih hentries, hintercalate]

/-- Of the networks that `Validate` lets through `awg` reads all, as they are. -/
theorem entries_written {entries : List Text} (hentry : ∀ a ∈ entries, AllowedEntry a)
    (hparsed : ∀ a ∈ entries, (parsePrefix a).isSome) :
    (written (join entries (lit ", "))).toList.flatMap awgEntries = entries := by
  have hplain : ∀ a ∈ entries, ∀ c ∈ a, isAddrChar c = true := by
    intro a ha
    obtain ⟨p, hp⟩ := Option.isSome_iff_exists.mp (hparsed a ha)
    exact parsePrefix_chars hp
  rw [written, stripLine_join hplain]
  cases entries with
  | nil => rfl
  | cons a entries =>
    have hne : [','].intercalate (a :: entries) ≠ [] := by
      obtain ⟨c, cs, rfl⟩ := List.exists_cons_of_ne_nil (hentry a (by simp)).ne_nil
      cases entries <;> simp
    have hsplit := List.splitOn_intercalate ',' (fun b hb => (hentry b hb).comma)
      (List.cons_ne_nil a entries)
    rw [if_neg hne]
    simp only [Option.toList_some, List.flatMap_cons, List.flatMap_nil, List.append_nil, awgEntries,
      hsplit]
    exact List.filter_eq_self.mpr fun b hb => by simpa using (hentry b hb).ne_nil

end Reading

section Written
variable {lines body : List Text} {s : Span} {text : Text} {cfg : Config}

/-- The peer that `awg` reads from what the agent writes. -/
def Span.peer (s : Span) : AwgPeer where
  publicKey := (((managedPublicKeys s.body).getLast?.bind written).toList ++
    s.extra.filterMap awgPublicKey).getLast?
  presharedKey := (((managedPresharedKeys s.body).getLast?.bind written).toList ++
    s.extra.filterMap awgPresharedKey).getLast?
  allowedIPs := (managedAllowedIPs s.body).getLast?.getD [] ++ s.extra.flatMap awgAllowedIPs

theorem peer_extra (lines : List Text) : Span.peer ⟨[], lines⟩ = readPeerLines {} lines := by
  rw [readPeerLines_eq]
  rfl

/-- The peers behind headers that only `awg` sees in the interface sections. -/
theorem flush_interfaceBody (blocks : List Block) :
    (readLines {} (interfaceBody blocks)).flush =
      ((peerSpans (interfaceBody blocks)).2.map fun extra => ⟨[], extra⟩).map Span.peer := by
  rw [flush_readLines, List.map_map]
  exact List.map_congr_left fun lines _ => (peer_extra lines).symm

theorem keyStays_iff {awgKey : Text → Option Text} {managed : Option Text} {extra : List Text} :
    (lines.filterMap awgKey).getLast? =
        ((managed.bind written).toList ++ extra.filterMap awgKey).getLast? ↔
      KeyStays awgKey managed lines extra := by
  rw [List.getLast?_append]
  cases hkept : (extra.filterMap awgKey).getLast? with
  | none =>
    have hnone : ∀ l ∈ extra, awgKey l = none :=
      List.filterMap_eq_nil_iff.mp (List.getLast?_eq_none_iff.mp hkept)
    have hlast : (managed.bind written).toList.getLast? = managed.bind written := by
      cases managed.bind written <;> rfl
    rw [Option.none_or, hlast]
    refine ⟨fun h => ⟨fun value hvalue => ?_, fun _ => h⟩, fun h => h.managed hnone⟩
    rw [hkept] at hvalue
    cases hvalue
  | some value =>
    rw [Option.some_or]
    refine ⟨fun h => ⟨fun value' hvalue => ?_, fun hnone => ?_⟩, fun h => h.kept value hkept⟩
    · rw [h, ← hkept, hvalue]
    · rw [List.filterMap_eq_nil_iff.mpr hnone] at hkept
      cases hkept

theorem hasRoute_iff (s : Span) (route : Except Text (Addr × Nat)) :
    route ∈ s.peer.allowedIPs.map awgRoute ↔ s.HasRoute route := by
  rw [Span.peer, List.map_append, List.mem_append, List.map_flatMap, List.mem_flatMap, Span.HasRoute]
  cases (managedAllowedIPs s.body).getLast? <;> simp

theorem samePeer_iff_stays (lines : List Text) (s : Span) :
    SamePeer (readPeerLines {} lines) s.peer ↔ Stays lines s := by
  have hlines : ∀ route, route ∈ (lines.flatMap awgAllowedIPs).map awgRoute ↔
      ∃ l ∈ lines, route ∈ (awgAllowedIPs l).map awgRoute := by
    intro route
    rw [List.map_flatMap, List.mem_flatMap]
  rw [readPeerLines_eq]
  constructor
  · intro h
    refine ⟨keyStays_iff.mp h.publicKey, keyStays_iff.mp h.presharedKey, ?_, fun route hroute => ?_⟩
    · intro l hl entry hentry
      exact (hasRoute_iff s _).mp ((h.allowedIPs _).mp
        ((hlines _).mpr ⟨l, hl, List.mem_map_of_mem hentry⟩))
    · exact (hlines route).mp ((h.allowedIPs route).mpr ((hasRoute_iff s route).mpr hroute))
  · intro h
    refine ⟨keyStays_iff.mpr h.publicKey, keyStays_iff.mpr h.presharedKey, fun route => ?_⟩
    rw [hlines, hasRoute_iff]
    refine ⟨?_, h.noOthers route⟩
    rintro ⟨l, hl, hroute⟩
    obtain ⟨entry, hentry, rfl⟩ := List.mem_map.mp hroute
    exact h.routes l hl entry hentry

theorem written_getD (value : Option Text) : written (value.getD []) = value.bind written := by
  cases value <;> rfl

/-- What `awg` reads under the headers of a peer section that is written. -/
theorem awgPeers_rendered (header : Text) (hpeer : (Block.readPeer {} body).Valid)
    (hwell : (Block.readPeer {} body).WellFormed) :
    (Block.peer (lit "[Peer]") (renderBody (Block.readPeer {} body))).awgPeers =
      (Block.peer header body).spans.map Span.peer := by
  have hextra : (Block.readPeer {} body).extra = keptLines body := by rw [readPeer_fields]
  have hentries := entries_written hwell.allowedIPs hpeer.parsed
  rw [Block.awgPeers, flush_renderBody, hextra, Block.spans, List.map_cons, List.map_map]
  congr 1
  · rw [readPeerLines_renderBody]
    simp only [hentries]
    rw [readPeer_fields, Span.peer]
    simp only [written_getD]
  · exact List.map_congr_left fun lines _ => (peer_extra lines).symm

/-- What the agent writes is to `awg` its sections in the order of writing. -/
theorem setconf_renderConfig (h : parseConfig text = .ok cfg) (hvalid : cfg.validate = .ok ()) :
    setconf (renderConfig cfg) = (keptSpans (fileBlocks text)).map Span.peer := by
  obtain ⟨-, -, -, -, hcfg⟩ := fileBlocks_spec h
  have hwell := parseConfig_wellFormed h
  have hpeers : cfg.peers = (peerBodies (fileBlocks text)).map (Block.readPeer {}) := by
    rw [hcfg, blocksConfig_peers]
  have hinterface : awgLine (lit "[Interface]") = .interface := by decide +kernel
  have hpeer : awgLine (lit "[Peer]") = .peer := by decide +kernel
  have hheaders : ∀ b ∈ renderBlocks cfg, awgLine b.header = b.awgHeader := by
    intro b hb
    rcases List.mem_cons.mp hb with rfl | hb
    · exact hinterface
    · obtain ⟨p, -, rfl⟩ := List.mem_map.mp hb
      exact hpeer
  have hspans : (cfg.peers.map fun p => Block.peer (lit "[Peer]") (renderBody p)).flatMap
      Block.awgPeers = ((fileBlocks text).flatMap Block.spans).map Span.peer := by
    have hread : ∀ body ∈ peerBodies (fileBlocks text),
        (Block.readPeer {} body).Valid ∧ (Block.readPeer {} body).WellFormed := by
      intro body hbody
      have hmem : Block.readPeer {} body ∈ cfg.peers := by
        rw [hpeers]
        exact List.mem_map_of_mem hbody
      exact ⟨(validate_ok.mp hvalid).peers.each _ hmem, hwell.peers _ hmem⟩
    rw [hpeers]
    clear hcfg hpeers h
    generalize fileBlocks text = blocks at hread ⊢
    induction blocks with
    | nil => rfl
    | cons b blocks ih =>
      cases b with
      | interface header body => exact ih hread
      | peer header body =>
        obtain ⟨⟨hpeer, hwell⟩, hread⟩ := List.forall_mem_cons.mp hread
        have hbody := awgPeers_rendered header hpeer hwell
        rw [List.flatMap_cons, List.map_append, ← ih hread, ← hbody]
        rfl
  rw [setconf, rawLines_renderConfig hwell, renderLines_eq, readLines_blocks hheaders, renderBlocks,
    List.flatMap_cons, hspans, Block.awgPeers, hcfg, flush_writtenInterface, flush_interfaceBody,
    keptSpans, List.map_append]
  rfl

end Written

section Agreeing
variable {blocks : List Block}

def Block.isPeer : Block → Bool
  | interface _ _ => false
  | peer _ _ => true

/-- Agent and `awg` see the same headers: those of the sections, and no others but inside a
first interface section that only peer sections follow. -/
structure HeadersAgree (blocks : List Block) : Prop where
  headers : ∀ b ∈ blocks, awgLine b.header = b.awgHeader
  peers : ∀ body ∈ peerBodies blocks, ∀ l ∈ body,
    (awgLine l).isHeader = false ∧ (awgLine (trimSpace l)).isHeader = false
  interface : (∀ l ∈ interfaceBody blocks, (awgLine l).isHeader = false) ∨
    ∃ header body rest, blocks = .interface header body :: rest ∧ ∀ b ∈ rest, b.isPeer = true

theorem flush_of_not_header {st : AwgState} {lines : List Text}
    (h : ∀ l ∈ lines, (awgLine l).isHeader = false) :
    (readLines st lines).flush = st.done ++ (st.current.map (readPeerLines · lines)).toList := by
  rw [flush_readLines, peerSpans_of_not_header h]
  simp

/-- Without headers that only `awg` sees, the sections come out in the agent's order. -/
theorem awgPeers_eq (h : HeadersAgree blocks) :
    blocks.flatMap Block.awgPeers =
      (readLines {} (interfaceBody blocks)).flush ++ (peerBodies blocks).map (readPeerLines {}) := by
  obtain ⟨-, hpeers, hinterface⟩ := h
  rcases hinterface with hnone | ⟨header, body, rest, rfl, hrest⟩
  -- awg sees no header in the interface sections, so peers come from the peer sections only
  · have hhidden : (readLines {} (interfaceBody blocks)).flush = [] := flush_of_not_header hnone
    rw [hhidden, List.nil_append]
    clear hhidden
    induction blocks with
    | nil => rfl
    | cons b blocks ih =>
      cases b with
      | interface header body =>
        rw [interfaceBody, List.flatMap_cons, ← interfaceBody] at hnone
        obtain ⟨hbody, hblocks⟩ := List.forall_mem_append.mp hnone
        rw [List.flatMap_cons, ih hpeers hblocks, Block.awgPeers, flush_of_not_header hbody]
        rfl
      | peer header body =>
        obtain ⟨hbody, hblocks⟩ := List.forall_mem_cons.mp hpeers
        rw [List.flatMap_cons, ih hblocks hnone, Block.awgPeers,
          flush_of_not_header fun l hl => (hbody l hl).1]
        rfl
  -- the one interface section comes first; what awg reads there precedes all peers
  · have hnone : interfaceBody rest = [] ∧
        rest.flatMap Block.awgPeers = (peerBodies rest).map (readPeerLines {}) := by
      replace hpeers : ∀ body ∈ peerBodies rest, ∀ l ∈ body, (awgLine l).isHeader = false :=
        fun body hbody l hl => (hpeers body hbody l hl).1
      induction rest with
      | nil => exact ⟨rfl, rfl⟩
      | cons b rest ih =>
        cases b with
        | interface header body => cases hrest _ List.mem_cons_self
        | peer header body =>
          obtain ⟨-, hrest⟩ := List.forall_mem_cons.mp hrest
          obtain ⟨hbody, hpeers⟩ := List.forall_mem_cons.mp hpeers
          obtain ⟨hnone, heq⟩ := ih hrest hpeers
          refine ⟨hnone, ?_⟩
          rw [List.flatMap_cons, heq, Block.awgPeers, flush_of_not_header hbody]
          rfl
    obtain ⟨hnone, heq⟩ := hnone
    have hbody : interfaceBody (.interface header body :: rest) = body := by
      rw [interfaceBody, List.flatMap_cons, ← interfaceBody, hnone, List.append_nil]
    rw [List.flatMap_cons, heq, hbody]
    rfl

theorem setconf_of_agree {text : Text} {cfg : Config} (h : parseConfig text = .ok cfg)
    (hagree : HeadersAgree (fileBlocks text)) :
    setconf text = (readLines {} (interfaceBody (fileBlocks text))).flush ++
      (peerBodies (fileBlocks text)).map (readPeerLines {}) := by
  obtain ⟨pre, hlines, hpre, -, -⟩ := fileBlocks_spec h
  have hblank : ∀ l ∈ pre, awgLine l = .other := fun l hl => awgLine_of_trimSpace (hpre l hl)
  rw [setconf, ← readLines_congr (fun l _ => awgLine_dropCR l), hlines, readLines_append,
    readLines_other hblank, readLines_blocks hagree.headers, awgPeers_eq hagree]
  rfl

theorem spans_of_agree (h : HeadersAgree blocks) :
    blocks.flatMap Block.spans = (peerBodies blocks).map fun body => ⟨body, keptLines body⟩ := by
  have hkept : ∀ body ∈ peerBodies blocks, peerSpans (keptLines body) = (keptLines body, []) := by
    refine fun body hbody => peerSpans_of_not_header fun t ht => ?_
    obtain ⟨l, hl, rfl⟩ := mem_keptLines ht
    exact (h.peers body hbody l hl).2
  clear h
  induction blocks with
  | nil => rfl
  | cons b blocks ih =>
    cases b with
    | interface header body => exact ih hkept
    | peer header body =>
      obtain ⟨hbody, hblocks⟩ := List.forall_mem_cons.mp hkept
      rw [List.flatMap_cons, ih hblocks, Block.spans, hbody]
      rfl

end Agreeing

/-- A key line that only `awg` knows comes after the managed ones once it is written. -/
example : ¬ Stays [lit "publickey = a", lit "PublicKey = b"]
    ⟨[lit "publickey = a", lit "PublicKey = b"], [lit "publickey = a"]⟩ := fun h =>
  absurd (h.publicKey.kept (lit "a") (by decide +kernel)) (by decide +kernel)

def oneRoutePerLine : Text := unlines '\n'
  [lit "[Interface]", lit "Address = 10.8.1.1/24", lit "ListenPort = 51820", [], lit "[Peer]",
    lit "PublicKey = a", lit "AllowedIPs = 10.8.1.2/32", lit "AllowedIPs = 10.9.0.0/16"]

def oneLine : Text := unlines '\n'
  [lit "[Interface]", lit "Address = 10.8.1.1/24", lit "ListenPort = 51820", [], lit "[Peer]",
    lit "PublicKey = a", lit "AllowedIPs = 10.8.1.2/32, 10.9.0.0/16"]

end VpnControl.Awg
