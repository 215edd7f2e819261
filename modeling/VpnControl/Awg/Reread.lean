import VpnControl.Awg.RoundTrip
import VpnControl.Awg.AllocateIP

namespace VpnControl.Awg
open Strings Trim

theorem trimTrailing_append_blank (lines : List InterfaceLine) :
    trimTrailingEmptyInterfaceLines (trimTrailingEmptyInterfaceLines lines ++ [blankInterfaceLine]) =
      trimTrailingEmptyInterfaceLines lines := by
  rw [trimTrailingEmptyInterfaceLines, List.rdropWhile_concat_pos _ _ _ (by rfl),
    trimTrailingEmptyInterfaceLines, List.rdropWhile_idempotent]

section Reread
variable {c : Config}

theorem renderConfig_reread (c : Config) : renderConfig (reread c) = renderConfig c := by
  rw [renderConfig, renderConfig, renderLines, renderLines]
  change unlines '\n' (_ :: (trimTrailingEmptyInterfaceLines
    (trimTrailingEmptyInterfaceLines c.interface ++ [blankInterfaceLine])).map _ ++ _ ++ _) = _
  rw [trimTrailing_append_blank]
  rfl

theorem validate_reread (hc : c.WellFormed) : (reread c).validate = c.validate := by
  rw [Config.validate, Config.validate, interfaceAddress_reread hc, listenPort_reread hc]
  rfl

theorem allocateFreeIPv4_reread (hc : c.WellFormed) (extraUsed : List Text) :
    allocateFreeIPv4 (reread c) extraUsed = allocateFreeIPv4 c extraUsed := by
  rw [allocateFreeIPv4, allocateFreeIPv4, interfaceAddress_reread hc]
  rfl

end Reread

/-- Whatever config is accepted: it can be written and read again, with the same peers and the
same interface but for blank lines at its end; writing it once more gives the same text, and what
is asked of it has the same answer before and after. -/
theorem rewrite_fixpoint {t : Text} {c : Config} (h : parseConfig t = .ok c)
    (hfit : LinesFit (renderConfig c)) :
    ∃ c', parseConfig (renderConfig c) = .ok c' ∧ c'.peers = c.peers ∧
      trimTrailingEmptyInterfaceLines c'.interface = trimTrailingEmptyInterfaceLines c.interface ∧
      renderConfig c' = renderConfig c ∧ c'.validate = c.validate ∧
      (∀ publicKey, c'.findPeer publicKey = c.findPeer publicKey) ∧
      (∀ key, c'.interfaceValue key = c.interfaceValue key) ∧
      ∀ extraUsed, allocateFreeIPv4 c' extraUsed = allocateFreeIPv4 c extraUsed := by
  have hc := parseConfig_wellFormed h
  exact ⟨reread c, parseConfig_renderConfig hc hfit, rfl, trimTrailing_append_blank _,
    renderConfig_reread c, validate_reread hc, fun _ => rfl, find?_reread hc,
    allocateFreeIPv4_reread hc⟩

/-- A config with a commented line, an unknown key and a repeated interface section. -/
def oddConfig : Text :=
  lit "[Interface]\r\n # a = b\nAddress = 10.8.1.1/24\n\n[Peer]\nPublicKey=k\nAllowedIPs=10.8.1.2/32,\n" ++
    lit "PersistentKeepalive = 25\n[interface]\nListenPort=1\n\n"

theorem rewrite_fixpoint_odd : ∃ c c', parseConfig oddConfig = .ok c ∧
    parseConfig (renderConfig c) = .ok c' ∧ c'.peers = c.peers ∧ renderConfig c' = renderConfig c := by
  have hparsed : (parseConfig oddConfig).toOption.isSome = true := by decide +kernel
  obtain ⟨c, hc⟩ := Option.isSome_iff_exists.mp hparsed
  have hc : parseConfig oddConfig = .ok c := by
    cases h : parseConfig oddConfig with
    | error e => simp [h, Except.toOption] at hc
    | ok d => simpa [h, Except.toOption] using hc
  have hfit : (parseConfig oddConfig).toOption.all
      (fun c => (rawLines (renderConfig c)).all tokenFits) = true := by decide +kernel
  have hlines : LinesFit (renderConfig c) := by
    rw [hc] at hfit
    simpa [Except.toOption, LinesFit] using hfit
  obtain ⟨c', hc', hpeers, -, hrender, -⟩ := rewrite_fixpoint hc hlines
  exact ⟨c, c', hc, hc', hpeers, hrender⟩

/-- A line that begins a peer section. -/
def peerHeader (token : Text) : Bool := (sectionName token).map toLower = some (lit "peer")

theorem peerHeader_body {l : Text} (h : sectionName l = none) : peerHeader l = false := by
  simp [peerHeader, h]

theorem countP_peerHeader_block {b : Block} (hb : b.Valid) :
    b.lines.countP peerHeader = b.peers.length := by
  obtain ⟨n, hn, hname⟩ := hb.header
  have hbody : b.body.countP peerHeader = 0 :=
    List.countP_eq_zero.mpr fun l hl => by simp [peerHeader_body (hb.body l hl)]
  have hheader : peerHeader b.header = decide (b.name = lit "peer") := by
    simp [peerHeader, hn, hname]
  rw [Block.lines, List.countP_cons, hbody, hheader]
  cases b with
  | interface _ _ => simp [Block.name, Block.peers, lit_eq]
  | peer _ _ => simp [Block.name, Block.peers]

/-- A config has as many peers as its text has headers of peer sections. -/
theorem peers_length_of_parseConfig {t : Text} {c : Config} (h : parseConfig t = .ok c) :
    c.peers.length = (scanLines t).1.countP peerHeader := by
  obtain ⟨pre, blocks, hscan, hpre, hvalid, rfl, -⟩ := parseConfig_ok_iff.mp h
  have hblank : pre.countP peerHeader = 0 := by
    refine List.countP_eq_zero.mpr fun l hl => ?_
    have hnone : sectionName l = none := by
      rw [sectionName, trimSpace_trimRightCR, hpre l hl]
      rfl
    simp [peerHeader_body hnone]
  have hblocks : (blocksLines blocks).countP peerHeader = (blocksConfig blocks).peers.length := by
    rw [blocksLines, blocksConfig, List.countP_flatMap, List.length_flatMap]
    exact congrArg List.sum (List.map_congr_left fun b hb => countP_peerHeader_block (hvalid b hb))
  rw [hscan, List.countP_append, hblank, hblocks, Nat.zero_add]

theorem rawLines_unlines_any (ls : List Text) :
    rawLines (unlines '\n' ls) = ls.flatMap (·.splitOn '\n') := by
  have hsplit : (unlines '\n' ls).splitOn '\n' = ls.flatMap (·.splitOn '\n') ++ [[]] := by
    induction ls with
    | nil => rfl
    | cons l ls ih => rw [unlines_cons, List.splitOn_append_cons_self, ih, List.flatMap_cons,
        List.append_assoc]
  rw [rawLines, hsplit]
  simp

/-- The lines that a scanner finds in what was written as one. -/
def scannedLines (l : Text) : List Text := (l.splitOn '\n').map dropCR

/-- Whatever stands in their fields, written peers begin with a header that is read as one. -/
theorem length_le_countP_peerHeader (peers : List Peer) :
    peers.length ≤ ((peers.flatMap renderPeer).flatMap scannedLines).countP peerHeader := by
  have hheader : scannedLines (lit "[Peer]") = [lit "[Peer]"] := by
    simp only [scannedLines, lit_eq]
    decide
  have hone : [lit "[Peer]"].countP peerHeader = 1 := by
    simp [peerHeader, header_peer.2.1, header_peer.2.2]
  induction peers with
  | nil => exact Nat.zero_le _
  | cons p peers ih =>
    rw [List.flatMap_cons, List.flatMap_append, List.countP_append, renderPeer_eq, List.flatMap_cons,
      hheader, List.countP_append, hone, List.length_cons]
    omega

theorem peers_length_le {c c' : Config} (h : parseConfig (renderConfig c') = .ok c) :
    c'.peers.length ≤ c.peers.length := by
  have hscan : (scanLines (renderConfig c')).1 = (renderLines c').flatMap scannedLines := by
    have hfit := linesFit_of_parseConfig h
    rw [scanLines, List.span_eq_takeWhile_dropWhile, List.takeWhile_eq_self_iff.mpr hfit,
      renderConfig, rawLines_unlines_any]
    exact List.map_flatMap ..
  rw [peers_length_of_parseConfig h, hscan, renderLines, List.flatMap_append, List.countP_append]
  exact (length_le_countP_peerHeader c'.peers).trans (Nat.le_add_left _ _)

theorem renderConfig_addPeer_ne {t : Text} {c : Config} (h : parseConfig t = .ok c) (p : Peer) :
    renderConfig (c.addPeer p) ≠ t := by
  rintro rfl
  have hle := peers_length_le h
  rw [Config.addPeer, List.length_append] at hle
  simp at hle

theorem renderConfig_removePeer_ne {t : Text} {c : Config} (h : parseConfig t = .ok c)
    {publicKey : Text} (hpeer : c.findPeer publicKey ≠ none) :
    renderConfig (c.removePeer publicKey).1 ≠ t := by
  rintro rfl
  have hc := parseConfig_wellFormed h
  have hwf : (c.removePeer publicKey).1.WellFormed :=
    ⟨hc.interface, fun p hp => hc.peers p (List.mem_of_mem_filter hp)⟩
  have hreread := parseConfig_renderConfig hwf (linesFit_of_parseConfig h)
  rw [h, Except.ok.injEq] at hreread
  have hpeers : c.peers = c.peers.filter (·.publicKey ≠ publicKey) := congrArg Config.peers hreread
  obtain ⟨peer, hfound⟩ := Option.ne_none_iff_exists'.mp hpeer
  have hkey : peer.publicKey = publicKey := by simpa using List.find?_some hfound
  have hmem : peer ∈ c.peers := List.mem_of_find?_eq_some hfound
  rw [hpeers, List.mem_filter] at hmem
  simp [hkey] at hmem

end VpnControl.Awg
