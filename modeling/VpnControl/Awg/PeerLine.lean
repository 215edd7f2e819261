import VpnControl.Awg.Blocks

namespace VpnControl.Awg
open Strings Trim

/-- What a line of a peer section does to the peer. -/
inductive PeerLine where
  | blank
  | extra (trimmed : Text)
  | publicKey (value : Text)
  | presharedKey (value : Text)
  | allowedIPs (values : List Text)
  deriving DecidableEq, Repr

def assignmentLine (trimmed : Text) (a : Assignment) : PeerLine :=
  if !a.ok then .extra trimmed
  else if a.key = lit "PublicKey" then .publicKey a.value
  else if a.key = lit "PresharedKey" ∨ a.key = lit "PreSharedKey" then .presharedKey a.value
  else if a.key = lit "AllowedIPs" then .allowedIPs (splitCSV a.value)
  else .extra trimmed

def peerLine (line : Text) : PeerLine :=
  if trimSpace line = [] then .blank
  else if isComment (trimSpace line) then .extra (trimSpace line)
  else assignmentLine (trimSpace line) (parseAssignment line)

def PeerLine.apply (p : Peer) : PeerLine → Peer
  | blank => p
  | extra trimmed => { p with extra := p.extra ++ [trimmed] }
  | publicKey value => { p with publicKey := value }
  | presharedKey value => { p with presharedKey := value }
  | allowedIPs values => { p with allowedIPs := values }

theorem parsePeerLine_eq (p : Peer) (line : Text) :
    parsePeerLine p line = (peerLine line).apply p := by
  simp only [parsePeerLine, peerLine, assignmentLine]
  split_ifs <;> rfl

theorem parseAssignment_congr {l m : Text} (h : trimSpace l = trimSpace m) :
    parseAssignment l = parseAssignment m := by
  simp only [parseAssignment, h]

theorem peerLine_congr {l m : Text} (h : trimSpace l = trimSpace m) : peerLine l = peerLine m := by
  simp only [peerLine, h, parseAssignment_congr h]

@[simp] theorem peerLine_trimRightCR (l : Text) : peerLine (trimRightCR l) = peerLine l :=
  peerLine_congr (trimSpace_trimRightCR l)

theorem readPeer_eq (p : Peer) (body : List Text) :
    Block.readPeer p body = (body.map peerLine).foldl PeerLine.apply p := by
  induction body generalizing p with
  | nil => rfl
  | cons l body ih =>
    rw [Block.readPeer, List.foldl_cons, ← Block.readPeer, ih, parsePeerLine_eq,
      peerLine_trimRightCR]
    rfl

/-- A piece of one line, without blanks at its ends. -/
structure Field (s : Text) : Prop where
  trimmed : trimSpace s = s
  newline : '\n' ∉ s

theorem Field.nil : Field [] := ⟨rfl, by simp⟩

theorem Field.trimSpace {l : Text} (h : '\n' ∉ l) : Field (trimSpace l) :=
  ⟨trimSpace_idem l, fun hn => h (mem_of_mem_trim hn)⟩

theorem parseAssignment_value {l : Text} (h : '\n' ∉ l) : Field (parseAssignment l).value := by
  rw [parseAssignment]
  split
  · exact .nil
  · simp only
    split
    · exact .nil
    · rename_i k v hcut
      split
      · exact .nil
      · apply Field.trimSpace
        intro hv
        have hbody := (cut_eq_some hcut).1
        have hmem : '\n' ∈ k ++ '=' :: v := by simp [hv]
        rw [← hbody] at hmem
        split at hmem
        · have hdrop := mem_of_mem_trim hmem
          rw [trimPrefix] at hdrop
          split at hdrop
          · exact h (mem_of_mem_trim (List.mem_of_mem_drop hdrop))
          · exact h (mem_of_mem_trim hdrop)
        · exact h (mem_of_mem_trim hmem)

structure AllowedEntry (a : Text) : Prop extends Field a where
  ne_nil : a ≠ []
  comma : ',' ∉ a

theorem mem_splitCSV {v a : Text} (hv : '\n' ∉ v) (h : a ∈ splitCSV v) : AllowedEntry a := by
  rw [splitCSV, List.mem_filter, List.mem_map] at h
  obtain ⟨⟨part, hpart, rfl⟩, hne⟩ := h
  obtain ⟨hcomma, hsub⟩ := mem_splitOn hpart
  exact { Field.trimSpace fun hn => hv (hsub hn) with
    ne_nil := by simpa using hne
    comma := fun hc => hcomma (mem_of_mem_trim hc) }

/-- A line of a peer section that is kept as it is: reading it again adds it again. -/
structure ExtraLine (e : Text) : Prop extends Field e where
  header : headerName e = none
  kept : peerLine e = .extra e

structure Peer.WellFormed (p : Peer) : Prop where
  publicKey : Field p.publicKey
  presharedKey : Field p.presharedKey
  allowedIPs : ∀ a ∈ p.allowedIPs, AllowedEntry a
  extra : ∀ e ∈ p.extra, ExtraLine e

/-- The fields of an interface line all come from its raw text, which is not a header. -/
structure InterfaceLine.WellFormed (l : InterfaceLine) : Prop where
  parsed : parseInterfaceLine l.raw = l
  newline : '\n' ∉ l.raw
  noCR : trimRightCR l.raw = l.raw
  header : headerName (trimSpace l.raw) = none

structure Config.WellFormed (c : Config) : Prop where
  interface : ∀ l ∈ c.interface, l.WellFormed
  peers : ∀ p ∈ c.peers, p.WellFormed

theorem Peer.WellFormed.empty : Peer.WellFormed {} :=
  ⟨.nil, .nil, by simp, by simp⟩

theorem ExtraLine.of_line {l t : Text} (hn : '\n' ∉ l) (hh : headerName (Strings.trimSpace l) = none)
    (h : peerLine l = .extra t) : ExtraLine t := by
  have ht : t = Strings.trimSpace l := by
    simp only [peerLine, assignmentLine] at h
    split_ifs at h <;> cases h <;> rfl
  subst ht
  exact { Field.trimSpace hn with
    header := hh
    kept := by rw [peerLine_congr (trimSpace_idem l), h] }

def PeerLine.WellFormed : PeerLine → Prop
  | blank => True
  | extra trimmed => ExtraLine trimmed
  | publicKey value => Field value
  | presharedKey value => Field value
  | allowedIPs values => ∀ a ∈ values, AllowedEntry a

theorem peerLine_wellFormed {l : Text} (hn : '\n' ∉ l)
    (hh : headerName (Strings.trimSpace l) = none) : (peerLine l).WellFormed := by
  have hv := parseAssignment_value hn
  cases hk : peerLine l with
  | blank => trivial
  | extra t => exact ExtraLine.of_line hn hh hk
  | publicKey v =>
    simp only [peerLine, assignmentLine] at hk
    split_ifs at hk
    cases hk
    exact hv
  | presharedKey v =>
    simp only [peerLine, assignmentLine] at hk
    split_ifs at hk
    cases hk
    exact hv
  | allowedIPs vs =>
    simp only [peerLine, assignmentLine] at hk
    split_ifs at hk
    cases hk
    exact fun a ha => mem_splitCSV hv.newline ha

theorem Peer.WellFormed.apply {p : Peer} (hp : p.WellFormed) {l : PeerLine}
    (hl : l.WellFormed) : (l.apply p).WellFormed := by
  cases l with
  | blank => exact hp
  | extra t =>
    refine ⟨hp.publicKey, hp.presharedKey, hp.allowedIPs, fun e he => ?_⟩
    rcases List.mem_append.mp he with he | he
    · exact hp.extra e he
    · rw [List.mem_singleton.mp he]
      exact hl
  | publicKey v => exact ⟨hl, hp.presharedKey, hp.allowedIPs, hp.extra⟩
  | presharedKey v => exact ⟨hp.publicKey, hl, hp.allowedIPs, hp.extra⟩
  | allowedIPs vs => exact ⟨hp.publicKey, hp.presharedKey, hl, hp.extra⟩

theorem readPeer_wellFormed {p : Peer} (hp : p.WellFormed) {body : List Text}
    (h : ∀ l ∈ body, '\n' ∉ l ∧ sectionName l = none) : (Block.readPeer p body).WellFormed := by
  rw [readPeer_eq]
  induction body generalizing p with
  | nil => exact hp
  | cons l body ih =>
    obtain ⟨hn, hh⟩ := h l (by simp)
    rw [sectionName, trimSpace_trimRightCR] at hh
    exact ih (hp.apply (peerLine_wellFormed hn hh)) fun m hm => h m (by simp [hm])

theorem parseInterfaceLine_wellFormed {l : Text} (hn : '\n' ∉ l) (hh : sectionName l = none) :
    (parseInterfaceLine (trimRightCR l)).WellFormed where
  parsed := rfl
  newline := fun h => hn ((List.rdropWhile_prefix _ l).sublist.mem h)
  noCR := List.rdropWhile_idempotent _ _
  header := hh

theorem blocksConfig_wellFormed {blocks : List Block} (hv : ∀ b ∈ blocks, b.Valid)
    (hn : ∀ b ∈ blocks, ∀ l ∈ b.body, '\n' ∉ l) : (blocksConfig blocks).WellFormed where
  interface := by
    intro l hl
    obtain ⟨b, hb, hlb⟩ := List.mem_flatMap.mp hl
    cases b with
    | interface header body =>
      obtain ⟨t, ht, rfl⟩ := List.mem_map.mp hlb
      exact parseInterfaceLine_wellFormed (hn _ hb t ht) ((hv _ hb).body t ht)
    | peer header body => simp [Block.interfaceLines] at hlb
  peers := by
    intro p hp
    obtain ⟨b, hb, hpb⟩ := List.mem_flatMap.mp hp
    cases b with
    | interface header body => simp [Block.peers] at hpb
    | peer header body =>
      rw [List.mem_singleton.mp hpb]
      exact readPeer_wellFormed .empty fun l hl => ⟨hn _ hb l hl, (hv _ hb).body l hl⟩

/-- Every accepted config is well formed. -/
theorem parseConfig_wellFormed {input : Text} {c : Config} (h : parseConfig input = .ok c) :
    c.WellFormed := by
  obtain ⟨pre, blocks, hscan, -, hv, rfl, -⟩ := parseConfig_ok_iff.mp h
  refine blocksConfig_wellFormed hv fun b hb l hl => ?_
  have hmem : l ∈ (scanLines input).1 := by
    rw [hscan]
    exact List.mem_append_right _ (List.mem_flatMap.mpr ⟨b, hb, List.mem_cons_of_mem _ hl⟩)
  exact newline_notMem_scanLines hmem

end VpnControl.Awg
