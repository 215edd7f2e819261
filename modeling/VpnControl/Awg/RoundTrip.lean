import VpnControl.Awg.PeerLine

namespace VpnControl.Awg
open Strings Trim

/-- A line as the renderer writes it: the scanner hands it back unchanged. -/
structure FileLine (l : Text) : Prop where
  newline : '\n' ∉ l
  noCR : trimRightCR l = l

theorem FileLine.dropCR {l : Text} (h : FileLine l) : dropCR l = l := by
  rw [Strings.dropCR, if_neg]
  intro hl
  obtain ⟨m, rfl⟩ := List.getLast?_eq_some_iff.mp hl
  have hr := h.noCR
  rw [trimRightCR, List.rdropWhile_concat_pos _ _ _ (by rfl)] at hr
  have := congrArg List.length hr
  have := (List.rdropWhile_prefix (· == '\r') m).length_le
  simp only [List.length_append, List.length_singleton] at *
  omega

theorem Field.noCR {v : Text} (hv : Field v) : trimRightCR v = v := by
  have ht : Trimmed isSpace v := hv.trimmed
  apply ht.rdropWhile_of_imp
  intro x hx
  rw [beq_iff_eq.mp hx]
  rfl

theorem Field.fileLine {v : Text} (hv : Field v) : FileLine v := ⟨hv.newline, hv.noCR⟩

/-- A key the renderer writes in front of a value. -/
structure KeyWord (key : Text) : Prop extends Field key where
  ne_nil : key ≠ []
  comment : isComment key = false
  equals : '=' ∉ key
  header : key.head? ≠ some '['

/-- A key with its value, as the renderer writes them. -/
def keyLine (key v : Text) : Text := key ++ lit " = " ++ v

section KeyLine
variable {key v : Text}

theorem keyLine_split (key v : Text) :
    keyLine key v = (key ++ [' ']) ++ '=' :: ' ' :: v := by simp [keyLine, lit_eq]

theorem keyLine_fileLine (hk : KeyWord key) (hv : Field v) : FileLine (keyLine key v) := by
  rw [keyLine_split]
  constructor
  · simp [hk.newline, hv.newline]
  · have hr := hv.noCR
    have hsplit : (key ++ [' ']) ++ '=' :: ' ' :: v = (key ++ [' ', '=']) ++ ' ' :: v := by simp
    rw [trimRightCR] at hr
    rw [hsplit, trimRightCR, rdropWhile_append_cons (by rfl), hr]

theorem dropWhile_key (hk : KeyWord key) (w : Text) :
    (key ++ w).dropWhile isSpace = key ++ w := by
  have hd : key.dropWhile isSpace = key := Trimmed.dropWhile hk.trimmed
  obtain ⟨c, cs, rfl⟩ := List.exists_cons_of_ne_nil hk.ne_nil
  have hc : isSpace c = false := by
    by_contra hne
    rw [List.dropWhile_cons_of_pos (by simpa using hne)] at hd
    have : (cs.dropWhile isSpace).length ≤ cs.length := (List.dropWhile_sublist isSpace).length_le
    rw [hd] at this
    simp at this
  simp [hc]

theorem trimSpace_keyLine (hk : KeyWord key) :
    trimSpace (keyLine key v) =
      (key ++ [' ']) ++ '=' :: (' ' :: v).rdropWhile isSpace := by
  rw [keyLine_split, trimSpace_append_cons (by rfl), dropWhile_key hk]

theorem head_keyLine (hk : KeyWord key) (w : Text) : (key ++ w).head? = key.head? := by
  obtain ⟨c, cs, rfl⟩ := List.exists_cons_of_ne_nil hk.ne_nil
  rfl

/-- Reading back a key with its value. -/
theorem parseAssignment_keyWord (hk : KeyWord key) (v : Text) :
    parseAssignment (keyLine key v) =
      { key := key, value := trimSpace v, commented := false, ok := true } := by
  have hcomment : isComment ((key ++ [' ']) ++ '=' :: (' ' :: v).rdropWhile isSpace) = false := by
    rw [isComment, List.append_assoc, head_keyLine hk]
    exact hk.comment
  have hcut : cut '=' ((key ++ [' ']) ++ '=' :: (' ' :: v).rdropWhile isSpace) =
      some (key ++ [' '], (' ' :: v).rdropWhile isSpace) :=
    cut_append_cons (by simpa using hk.equals)
  have hkey : trimSpace (key ++ [' ']) = key := by
    have h := trim_rdropWhile isSpace (key ++ [' '])
    rw [List.rdropWhile_concat_pos _ _ _ (by rfl), trim_rdropWhile] at h
    exact h.symm.trans hk.trimmed
  have hvalue : trimSpace ((' ' :: v).rdropWhile isSpace) = trimSpace v := by
    have h := trim_dropWhile isSpace (' ' :: v)
    rw [List.dropWhile_cons_of_pos (by rfl), trim_dropWhile] at h
    rw [trimSpace, trim_rdropWhile, ← h]
    rfl
  simp only [parseAssignment, trimSpace_keyLine hk, hcomment]
  rw [if_neg (by simp)]
  simp only [Bool.false_eq_true, if_false, hcut, hkey, hvalue, hk.ne_nil]

theorem parseAssignment_keyLine (hk : KeyWord key) (hv : Field v) :
    parseAssignment (keyLine key v) =
      { key := key, value := v, commented := false, ok := true } := by
  rw [parseAssignment_keyWord hk, hv.trimmed]

theorem peerLine_keyWord (hk : KeyWord key) (v : Text) :
    peerLine (keyLine key v) =
      assignmentLine (trimSpace (keyLine key v))
        { key := key, value := trimSpace v, commented := false, ok := true } := by
  have hcomment : isComment (trimSpace (keyLine key v)) = false := by
    rw [trimSpace_keyLine hk, isComment, List.append_assoc, head_keyLine hk]
    exact hk.comment
  rw [peerLine, if_neg (by rw [trimSpace_keyLine hk]; simp), hcomment, parseAssignment_keyWord hk]
  rfl

theorem peerLine_keyLine (hk : KeyWord key) (hv : Field v) :
    peerLine (keyLine key v) =
      assignmentLine (trimSpace (keyLine key v))
        { key := key, value := v, commented := false, ok := true } := by
  rw [peerLine_keyWord hk, hv.trimmed]

theorem headerName_eq_none {t : Text} (h : t.head? ≠ some '[') : headerName t = none := by
  rw [headerName, if_neg]
  rintro ⟨⟨w, rfl⟩, -⟩
  exact h rfl

theorem sectionName_keyLine (hk : KeyWord key) (v : Text) :
    sectionName (keyLine key v) = none := by
  rw [sectionName, trimSpace_trimRightCR, trimSpace_keyLine hk]
  apply headerName_eq_none
  rw [List.append_assoc, head_keyLine hk]
  exact hk.header

end KeyLine

/-- Letters and digits make a key. -/
theorem keyWord_of_all {key : Text} (hne : key ≠ []) (h : key.all Char.isAlphanum = true) :
    KeyWord key := by
  have hnot : ∀ {c : Char}, c.isAlphanum = false → c ∉ key := by
    intro c hc hmem
    have := List.all_eq_true.mp h c hmem
    rw [hc] at this
    cases this
  have hhead : ∀ {c : Char}, c.isAlphanum = false → key.head? ≠ some c :=
    fun hc hh => hnot hc (List.mem_of_head? hh)
  have hspace : ∀ c ∈ key, isSpace c = false := by
    intro c hc
    have hal := List.all_eq_true.mp h c hc
    have hrange := range_of_isAlphanum hal
    have hlo : (33 : Nat) ≤ c.toNat := by omega
    have hhi : c.toNat ≤ 126 := by omega
    exact isSpace_graphic hlo hhi
  exact ⟨⟨trimmed_of_forall hspace, hnot (by decide)⟩, hne,
    beq_false_of_ne (hhead (by decide)), hnot (by decide), hhead (by decide)⟩

theorem keyWord_publicKey : KeyWord (lit "PublicKey") :=
  keyWord_of_all (by simp [lit_eq]) (by simp only [lit_eq]; decide)

theorem keyWord_presharedKey : KeyWord (lit "PresharedKey") :=
  keyWord_of_all (by simp [lit_eq]) (by simp only [lit_eq]; decide)

theorem keyWord_allowedIPs : KeyWord (lit "AllowedIPs") :=
  keyWord_of_all (by simp [lit_eq]) (by simp only [lit_eq]; decide)

theorem peerLine_publicKey {v : Text} (hv : Field v) :
    peerLine (keyLine (lit "PublicKey") v) = .publicKey v := by
  rw [peerLine_keyLine keyWord_publicKey hv]
  simp [assignmentLine]

theorem peerLine_presharedKey {v : Text} (hv : Field v) :
    peerLine (keyLine (lit "PresharedKey") v) = .presharedKey v := by
  rw [peerLine_keyLine keyWord_presharedKey hv]
  simp [assignmentLine]

theorem peerLine_allowedIPs {v : Text} (hv : Field v) :
    peerLine (keyLine (lit "AllowedIPs") v) = .allowedIPs (splitCSV v) := by
  rw [peerLine_keyLine keyWord_allowedIPs hv]
  simp [assignmentLine]

theorem splitOn_join {w a : Text} {as : List Text} (hw : ',' ∉ w) (ha : ',' ∉ a)
    (has : ∀ b ∈ as, ',' ∉ b) :
    (w ++ join (a :: as) (lit ", ")).splitOn ',' = (w ++ a) :: as.map (' ' :: ·) := by
  induction as generalizing w a with
  | nil =>
    have h : ',' ∉ w ++ a := by simpa using ⟨hw, ha⟩
    simpa [join] using List.splitOn_eq_singleton h
  | cons b as ih =>
    have h : w ++ join (a :: b :: as) (lit ", ") =
        (w ++ a) ++ ',' :: ([' '] ++ join (b :: as) (lit ", ")) := by
      simp [join, lit_eq]
    rw [h, List.splitOn_append_cons_self_of_not_mem (by simpa using ⟨hw, ha⟩),
      ih (by decide) (has b (by simp)) fun c hc => has c (by simp [hc])]
    rfl

/-- A list of entries is read back from its rendering. -/
theorem splitCSV_join {as : List Text} (h : ∀ a ∈ as, AllowedEntry a) :
    splitCSV (join as (lit ", ")) = as := by
  cases as with
  | nil => rfl
  | cons a as =>
    have has : ∀ b ∈ as, ',' ∉ b := fun b hb => (h b (by simp [hb])).comma
    have hs := splitOn_join (w := []) (by simp) (h a (by simp)).comma has
    rw [List.nil_append, List.nil_append] at hs
    have hmap : (as.map (' ' :: ·)).map trimSpace = as := by
      rw [List.map_map]
      conv_rhs => rw [← List.map_id as]
      apply List.map_congr_left
      intro b hb
      have ht := trim_dropWhile isSpace (' ' :: b)
      rw [List.dropWhile_cons_of_pos (by rfl), trim_dropWhile] at ht
      exact ht.symm.trans (h b (by simp [hb])).trimmed
    rw [splitCSV, hs, List.map_cons, hmap, (h a (by simp)).trimmed, List.filter_eq_self]
    intro b hb
    simpa using (h b hb).ne_nil

theorem join_field {as : List Text} (h : ∀ a ∈ as, AllowedEntry a) :
    Field (join as (lit ", ")) := by
  cases as with
  | nil => exact .nil
  | cons a as =>
    induction as generalizing a with
    | nil => simpa [join] using (h a (by simp)).toField
    | cons b as ih =>
      have hrest := ih b fun c hc => h c (by simp [hc])
      have ha := h a (by simp)
      have hsplit : join (a :: b :: as) (lit ", ") =
          a ++ lit ", " ++ join (b :: as) (lit ", ") := by
        simp [join]
      have hne : join (b :: as) (lit ", ") ≠ [] := by
        have hb := (h b (by simp)).ne_nil
        cases as <;> simp [join, hb]
      rw [hsplit]
      constructor
      · obtain ⟨c, cs, rfl⟩ := List.exists_cons_of_ne_nil ha.ne_nil
        have hc : isSpace c = false := by
          have hd : (c :: cs).dropWhile isSpace = c :: cs := Trimmed.dropWhile ha.trimmed
          by_contra hcs
          rw [List.dropWhile_cons_of_pos (by simpa using hcs)] at hd
          have : (cs.dropWhile isSpace).length ≤ cs.length := (List.dropWhile_sublist isSpace).length_le
          rw [hd] at this
          simp at this
        have ht := trimmed_cons (a := cs ++ lit ", ") hc hne hrest.trimmed
        exact ht
      · have hsep : '\n' ∉ lit ", " := by simp [lit_eq]
        simp only [List.mem_append, not_or]
        exact ⟨⟨ha.newline, hsep⟩, hrest.newline⟩

/-- The lines of a rendered peer after its header. -/
def renderBody (p : Peer) : List Text :=
  [keyLine (lit "PublicKey") p.publicKey] ++
    (if p.presharedKey ≠ [] then [keyLine (lit "PresharedKey") p.presharedKey] else []) ++
    [keyLine (lit "AllowedIPs") (join p.allowedIPs (lit ", "))] ++ p.extra ++ [[]]

theorem lit_publicKey : lit "PublicKey = " = lit "PublicKey" ++ lit " = " := by simp [lit_eq]

theorem lit_presharedKey : lit "PresharedKey = " = lit "PresharedKey" ++ lit " = " := by
  simp [lit_eq]

theorem lit_allowedIPs : lit "AllowedIPs = " = lit "AllowedIPs" ++ lit " = " := by simp [lit_eq]

theorem renderPeer_eq (p : Peer) : renderPeer p = lit "[Peer]" :: renderBody p := by
  simp [renderPeer, renderBody, keyLine, lit_publicKey, lit_presharedKey, lit_allowedIPs]

/-- A line that may stand in a rendered section. -/
structure BodyLine (l : Text) : Prop extends FileLine l where
  header : sectionName l = none

theorem ExtraLine.bodyLine {e : Text} (he : ExtraLine e) : BodyLine e where
  toFileLine := he.fileLine
  header := by rw [sectionName, he.noCR, he.trimmed, he.header]

theorem keyLine_bodyLine {key v : Text} (hk : KeyWord key) (hv : Field v) :
    BodyLine (keyLine key v) :=
  ⟨keyLine_fileLine hk hv, sectionName_keyLine hk v⟩

theorem BodyLine.nil : BodyLine [] := ⟨⟨by simp, rfl⟩, rfl⟩

theorem renderBody_bodyLine {p : Peer} (hp : p.WellFormed) : ∀ l ∈ renderBody p, BodyLine l := by
  intro l hl
  simp only [renderBody, List.mem_append, List.mem_singleton] at hl
  rcases hl with (((rfl | hl) | rfl) | hl) | rfl
  · exact keyLine_bodyLine keyWord_publicKey hp.publicKey
  · split at hl
    · rw [List.mem_singleton.mp hl]
      exact keyLine_bodyLine keyWord_presharedKey hp.presharedKey
    · simp at hl
  · exact keyLine_bodyLine keyWord_allowedIPs (join_field hp.allowedIPs)
  · exact (hp.extra l hl).bodyLine
  · exact .nil

theorem foldl_extra (p : Peer) (es : List Text) :
    (es.map PeerLine.extra).foldl PeerLine.apply p = { p with extra := p.extra ++ es } := by
  induction es generalizing p with
  | nil => simp
  | cons e es ih => simp [ih, PeerLine.apply]

/-- Reading back one rendered peer. -/
theorem readPeer_renderBody {p : Peer} (hp : p.WellFormed) :
    Block.readPeer {} (renderBody p) = p := by
  have hips := peerLine_allowedIPs (join_field hp.allowedIPs)
  rw [splitCSV_join hp.allowedIPs] at hips
  have hextra : p.extra.map peerLine = p.extra.map PeerLine.extra :=
    List.map_congr_left fun e he => (hp.extra e he).kept
  have hblank : peerLine [] = .blank := rfl
  rw [readPeer_eq, renderBody]
  simp only [List.map_append, List.map_cons, List.map_nil, peerLine_publicKey hp.publicKey, hips,
    hextra, hblank, List.foldl_append, foldl_extra]
  by_cases hne : p.presharedKey = []
  · simp only [hne, ne_eq, not_true_eq_false, if_false]
    simp only [List.map_nil, List.foldl, PeerLine.apply, List.nil_append]
    rw [← hne]
  · simp only [ne_eq, hne, not_false_eq_true, if_true]
    simp [PeerLine.apply, peerLine_presharedKey hp.presharedKey]

/-- The blocks of a rendered config. -/
def renderBlocks (c : Config) : List Block :=
  .interface (lit "[Interface]")
      ((trimTrailingEmptyInterfaceLines c.interface).map (·.raw) ++ [[]]) ::
    c.peers.map fun p => .peer (lit "[Peer]") (renderBody p)

theorem renderLines_eq (c : Config) : renderLines c = blocksLines (renderBlocks c) := by
  have hpeers : c.peers.flatMap renderPeer =
      blocksLines (c.peers.map fun p => .peer (lit "[Peer]") (renderBody p)) := by
    rw [blocksLines, List.flatMap_map]
    exact List.flatMap_congr fun p _ => renderPeer_eq p
  rw [renderLines, hpeers]
  rfl

theorem mem_trimTrailing {c : Config} {l : InterfaceLine}
    (h : l ∈ trimTrailingEmptyInterfaceLines c.interface) : l ∈ c.interface :=
  (List.rdropWhile_prefix _ _).sublist.mem h

theorem InterfaceLine.WellFormed.bodyLine {l : InterfaceLine} (h : l.WellFormed) :
    BodyLine l.raw where
  newline := h.newline
  noCR := h.noCR
  header := by rw [sectionName, h.noCR, h.header]

theorem renderBlocks_body {c : Config} (hc : c.WellFormed) {b : Block} (hb : b ∈ renderBlocks c) :
    ∀ l ∈ b.body, BodyLine l := by
  rcases List.mem_cons.mp hb with rfl | hb
  · intro l hl
    rcases List.mem_append.mp hl with hl | hl
    · obtain ⟨i, hi, rfl⟩ := List.mem_map.mp hl
      exact (hc.interface i (mem_trimTrailing hi)).bodyLine
    · rw [List.mem_singleton.mp hl]
      exact .nil
  · obtain ⟨p, hp, rfl⟩ := List.mem_map.mp hb
    exact renderBody_bodyLine (hc.peers p hp)

theorem header_interface : FileLine (lit "[Interface]") ∧
    sectionName (lit "[Interface]") = some (lit "Interface") ∧
    toLower (lit "Interface") = lit "interface" :=
  ⟨⟨by simp only [lit_eq]; decide, by simp only [lit_eq]; decide⟩, by simp only [lit_eq]; decide, by simp only [lit_eq]; decide⟩

theorem header_peer : FileLine (lit "[Peer]") ∧ sectionName (lit "[Peer]") = some (lit "Peer") ∧
    toLower (lit "Peer") = lit "peer" :=
  ⟨⟨by simp only [lit_eq]; decide, by simp only [lit_eq]; decide⟩, by simp only [lit_eq]; decide, by simp only [lit_eq]; decide⟩

theorem renderBlocks_header {c : Config} {b : Block} (hb : b ∈ renderBlocks c) :
    FileLine b.header ∧ ∃ n, sectionName b.header = some n ∧ toLower n = b.name := by
  rcases List.mem_cons.mp hb with rfl | hb
  · exact ⟨header_interface.1, lit "Interface", header_interface.2⟩
  · obtain ⟨p, -, rfl⟩ := List.mem_map.mp hb
    exact ⟨header_peer.1, lit "Peer", header_peer.2⟩

theorem renderLines_fileLine {c : Config} (hc : c.WellFormed) : ∀ l ∈ renderLines c, FileLine l := by
  intro l hl
  rw [renderLines_eq] at hl
  obtain ⟨b, hb, hl⟩ := List.mem_flatMap.mp hl
  rcases List.mem_cons.mp hl with rfl | hl
  · exact (renderBlocks_header hb).1
  · exact (renderBlocks_body hc hb l hl).toFileLine

theorem rawLines_renderConfig {c : Config} (hc : c.WellFormed) :
    rawLines (renderConfig c) = renderLines c :=
  rawLines_unlines fun l hl => (renderLines_fileLine hc l hl).newline

def blankInterfaceLine : InterfaceLine := parseInterfaceLine []

/-- The config as it is after it has been written and read again. -/
def reread (c : Config) : Config :=
  { c with interface := trimTrailingEmptyInterfaceLines c.interface ++ [blankInterfaceLine] }

theorem blocksConfig_renderBlocks {c : Config} (hc : c.WellFormed) :
    blocksConfig (renderBlocks c) = reread c := by
  have hinterface : (trimTrailingEmptyInterfaceLines c.interface).map
      (fun l => parseInterfaceLine (trimRightCR l.raw)) =
      trimTrailingEmptyInterfaceLines c.interface := by
    conv_rhs => rw [← List.map_id (trimTrailingEmptyInterfaceLines c.interface)]
    apply List.map_congr_left
    intro l hl
    have hw := hc.interface l (mem_trimTrailing hl)
    rw [hw.noCR, hw.parsed]
    rfl
  have hpeers : c.peers.flatMap (fun p => [Block.readPeer {} (renderBody p)]) = c.peers := by
    conv_rhs => rw [← List.flatMap_singleton' c.peers]
    exact List.flatMap_congr fun p hp => by rw [readPeer_renderBody (hc.peers p hp)]
  rw [blocksConfig, renderBlocks]
  simp only [List.flatMap_cons, List.flatMap_map, Block.interfaceLines, Block.peers,
    List.map_append, List.map_map, List.nil_append, hpeers]
  simp only [Function.comp_def, hinterface, reread]
  simp [blankInterfaceLine, trimRightCR]

/-- A written config is read back: the peers as they were, and the interface lines with
one blank line for the blank lines at their end. -/
theorem parseConfig_renderConfig {c : Config} (hc : c.WellFormed) (hfit : LinesFit (renderConfig c)) :
    parseConfig (renderConfig c) = .ok (reread c) := by
  rw [LinesFit, rawLines_renderConfig hc] at hfit
  apply parseConfig_ok_iff.mpr
  refine ⟨[], renderBlocks c, ?_, by simp, ?_, (blocksConfig_renderBlocks hc).symm, ?_⟩
  · have hcr : (renderLines c).map dropCR = renderLines c := by
      conv_rhs => rw [← List.map_id (renderLines c)]
      exact List.map_congr_left fun l hl => (renderLines_fileLine hc l hl).dropCR
    rw [renderConfig, scanLines_unlines (fun l hl => (renderLines_fileLine hc l hl).newline) hfit,
      hcr, List.nil_append, renderLines_eq]
  · intro b hb
    exact ⟨(renderBlocks_header hb).2, fun l hl => (renderBlocks_body hc hb l hl).header⟩
  · simp [reread]

end VpnControl.Awg
