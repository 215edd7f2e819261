import VpnControl.Awg.Setconf

namespace VpnControl.Awg
open Strings Trim Netip

theorem awgValue_append (key w : Text) :
    awgValue key (key ++ w) = if w = [] then none else some w := by
  rw [awgValue, List.take_left', List.drop_left', List.length_append]
  · by_cases hw : w = []
    · simp [hw]
    · have := List.length_pos_of_ne_nil hw
      rw [if_pos ⟨rfl, by omega⟩, if_neg hw]
  · rfl
  · rfl

theorem awgValue_append_of_ne {key key' : Text} (w : Text) (hlen : key.length ≤ key'.length)
    (h : (key'.take key.length).map lowerASCII ≠ key.map lowerASCII) :
    awgValue key (key' ++ w) = none := by
  rw [awgValue, List.take_append_of_le_length hlen, if_neg]
  exact fun hkey => h hkey.1

theorem awgValue_of_head {c d : Char} {key line : Text} (h : lowerASCII c ≠ lowerASCII d) :
    awgValue (d :: key) (c :: line) = none := by
  rw [awgValue, if_neg]
  rintro ⟨hkey, -⟩
  rw [List.length_cons, List.take_succ_cons, List.map_cons, List.map_cons, List.cons.injEq] at hkey
  exact h hkey.1

theorem classify_of_head {c : Char} {line : Text} (h : lowerASCII c ≠ '[') :
    classify (c :: line) = classifyKey (c :: line) := by
  have hhead : ∀ rest, (c :: line).map lowerASCII ≠ '[' :: rest := by
    intro rest heq
    rw [List.map_cons, List.cons.injEq] at heq
    exact h heq.1
  have hinterface : lit "[interface]" = '[' :: lit "interface]" := by simp [lit_eq]
  have hpeer : lit "[peer]" = '[' :: lit "peer]" := by simp [lit_eq]
  rw [classify, hinterface, hpeer, if_neg (hhead _), if_neg (hhead _)]

/-- The line that a public key is written on, as `awg` reads it. -/
theorem awgLine_publicKey (v : Text) :
    awgLine (keyLine (lit "PublicKey") v) =
      if stripLine v = [] then .other else .publicKey (stripLine v) := by
  have hkey : lit "PublicKey" ++ '=' :: stripLine v = lit "PublicKey=" ++ stripLine v := by
    have h : lit "PublicKey=" = lit "PublicKey" ++ ['='] := by simp [lit_eq]
    rw [h, List.append_assoc]
    rfl
  have hhead : lit "PublicKey=" = 'P' :: lit "ublicKey=" := by simp [lit_eq]
  rw [awgLine, stripLine_keyLine (by simp [lit_eq, isBlank]), hkey]
  by_cases hv : stripLine v = []
  · rw [hv, if_pos rfl]
    decide +kernel
  · have hvalue := awgValue_append (lit "PublicKey=") (stripLine v)
    rw [if_neg hv] at hvalue ⊢
    rw [hhead, List.cons_append] at hvalue ⊢
    rw [classify_of_head (by decide), classifyKey, hhead, hvalue]

theorem awgLine_presharedKey (v : Text) :
    awgLine (keyLine (lit "PresharedKey") v) =
      if stripLine v = [] then .other else .presharedKey (stripLine v) := by
  have hkey : lit "PresharedKey" ++ '=' :: stripLine v = lit "PresharedKey=" ++ stripLine v := by
    have h : lit "PresharedKey=" = lit "PresharedKey" ++ ['='] := by simp [lit_eq]
    rw [h, List.append_assoc]
    rfl
  have hhead : lit "PresharedKey=" = 'P' :: lit "resharedKey=" := by simp [lit_eq]
  have hpublic : awgValue (lit "PublicKey=") (lit "PresharedKey=" ++ stripLine v) = none :=
    awgValue_append_of_ne _ (by simp [lit_eq]) (by simp only [lit_eq]; decide)
  rw [awgLine, stripLine_keyLine (by simp [lit_eq, isBlank]), hkey]
  by_cases hv : stripLine v = []
  · rw [hv, if_pos rfl]
    decide +kernel
  · have hvalue := awgValue_append (lit "PresharedKey=") (stripLine v)
    rw [if_neg hv] at hvalue ⊢
    rw [hhead, List.cons_append] at hvalue hpublic ⊢
    rw [classify_of_head (by decide), classifyKey, hpublic, hhead, hvalue]

theorem awgLine_allowedIPs (v : Text) :
    awgLine (keyLine (lit "AllowedIPs") v) =
      if stripLine v = [] then .other else .allowedIPs (awgEntries (stripLine v)) := by
  have hkey : lit "AllowedIPs" ++ '=' :: stripLine v = lit "AllowedIPs=" ++ stripLine v := by
    have h : lit "AllowedIPs=" = lit "AllowedIPs" ++ ['='] := by simp [lit_eq]
    rw [h, List.append_assoc]
    rfl
  have hhead : lit "AllowedIPs=" = 'A' :: lit "llowedIPs=" := by simp [lit_eq]
  have hpublic : lit "PublicKey=" = 'P' :: lit "ublicKey=" := by simp [lit_eq]
  have hpreshared : lit "PresharedKey=" = 'P' :: lit "resharedKey=" := by simp [lit_eq]
  rw [awgLine, stripLine_keyLine (by simp [lit_eq, isBlank]), hkey]
  by_cases hv : stripLine v = []
  · rw [hv, if_pos rfl]
    decide +kernel
  · have hvalue := awgValue_append (lit "AllowedIPs=") (stripLine v)
    rw [if_neg hv] at hvalue ⊢
    rw [hhead, List.cons_append] at hvalue ⊢
    rw [classify_of_head (by decide), classifyKey, hpublic, hpreshared, awgValue_of_head (by decide),
      awgValue_of_head (by decide), hhead, hvalue]

/-- The values that `awg` finds on a line of a peer section. -/
def awgPublicKey (l : Text) : Option Text :=
  match awgLine l with
  | .publicKey value => some value
  | _ => none

def awgPresharedKey (l : Text) : Option Text :=
  match awgLine l with
  | .presharedKey value => some value
  | _ => none

def awgAllowedIPs (l : Text) : List Text :=
  match awgLine l with
  | .allowedIPs values => values
  | _ => []

theorem readPeerLines_eq (body : List Text) :
    readPeerLines {} body =
      { publicKey := (body.filterMap awgPublicKey).getLast?
        presharedKey := (body.filterMap awgPresharedKey).getLast?
        allowedIPs := body.flatMap awgAllowedIPs } := by
  induction body using List.reverseRecOn with
  | nil => rfl
  | append_singleton body l ih =>
    have hstep : readPeerLines {} (body ++ [l]) = (readPeerLines {} body).apply (awgLine l) := by
      simp [readPeerLines]
    rw [hstep, ih]
    cases hl : awgLine l <;>
      simp [AwgPeer.apply, awgPublicKey, awgPresharedKey, awgAllowedIPs, hl, List.filterMap_append,
        List.flatMap_append, List.getLast?_append]

/-- The values that the agent finds on the lines of a peer section. -/
def managedPublicKeys (body : List Text) : List Text :=
  body.filterMap fun l => match peerLine l with
    | .publicKey value => some value
    | _ => none

def managedPresharedKeys (body : List Text) : List Text :=
  body.filterMap fun l => match peerLine l with
    | .presharedKey value => some value
    | _ => none

def managedAllowedIPs (body : List Text) : List (List Text) :=
  body.filterMap fun l => match peerLine l with
    | .allowedIPs values => some values
    | _ => none

/-- The lines of a peer section that the agent does not manage, as it keeps them. -/
def keptLines (body : List Text) : List Text :=
  body.filterMap fun l => match peerLine l with
    | .extra trimmed => some trimmed
    | _ => none

theorem readPeer_fields (body : List Text) :
    Block.readPeer {} body =
      { publicKey := (managedPublicKeys body).getLast?.getD []
        presharedKey := (managedPresharedKeys body).getLast?.getD []
        allowedIPs := (managedAllowedIPs body).getLast?.getD []
        extra := keptLines body } := by
  induction body using List.reverseRecOn with
  | nil => rfl
  | append_singleton body l ih =>
    have hstep : Block.readPeer {} (body ++ [l]) = (peerLine l).apply (Block.readPeer {} body) := by
      rw [readPeer_eq, readPeer_eq, List.map_append, List.foldl_append]
      rfl
    rw [hstep, ih]
    cases hl : peerLine l <;>
      simp [PeerLine.apply, managedPublicKeys, managedPresharedKeys, managedAllowedIPs, keptLines, hl,
        List.filterMap_append, List.getLast?_append]

theorem mem_keptLines {body : List Text} {t : Text} (h : t ∈ keptLines body) :
    ∃ l ∈ body, t = trimSpace l := by
  obtain ⟨l, hl, ht⟩ := List.mem_filterMap.mp h
  refine ⟨l, hl, ?_⟩
  simp only [peerLine, assignmentLine] at ht
  split_ifs at ht <;> simp_all

/-- A value behind a key, as `awg` reads what the agent writes: nothing if only blanks
and a comment are left. -/
def written (value : Text) : Option Text :=
  if stripLine value = [] then none else some (stripLine value)

/-- What `awg` reads from a rendered peer section. -/
theorem readPeerLines_renderBody (p : Peer) :
    readPeerLines {} (renderBody p) =
      { publicKey := ((written p.publicKey).toList ++ p.extra.filterMap awgPublicKey).getLast?
        presharedKey :=
          ((written p.presharedKey).toList ++ p.extra.filterMap awgPresharedKey).getLast?
        allowedIPs := (written (join p.allowedIPs (lit ", "))).toList.flatMap awgEntries ++
          p.extra.flatMap awgAllowedIPs } := by
  -- what awg reads on each of the lines that the agent writes
  have hpublic : ∀ v, [keyLine (lit "PublicKey") v].filterMap awgPublicKey = (written v).toList ∧
      [keyLine (lit "PublicKey") v].filterMap awgPresharedKey = [] ∧
      [keyLine (lit "PublicKey") v].flatMap awgAllowedIPs = [] := by
    intro v
    by_cases hv : stripLine v = [] <;>
      simp [awgPublicKey, awgPresharedKey, awgAllowedIPs, awgLine_publicKey, written, hv]
  have hpreshared : ∀ v, [keyLine (lit "PresharedKey") v].filterMap awgPublicKey = [] ∧
      [keyLine (lit "PresharedKey") v].filterMap awgPresharedKey = (written v).toList ∧
      [keyLine (lit "PresharedKey") v].flatMap awgAllowedIPs = [] := by
    intro v
    by_cases hv : stripLine v = [] <;>
      simp [awgPublicKey, awgPresharedKey, awgAllowedIPs, awgLine_presharedKey, written, hv]
  have hallowed : ∀ v, [keyLine (lit "AllowedIPs") v].filterMap awgPublicKey = [] ∧
      [keyLine (lit "AllowedIPs") v].filterMap awgPresharedKey = [] ∧
      [keyLine (lit "AllowedIPs") v].flatMap awgAllowedIPs =
        (written v).toList.flatMap awgEntries := by
    intro v
    by_cases hv : stripLine v = [] <;>
      simp [awgPublicKey, awgPresharedKey, awgAllowedIPs, awgLine_allowedIPs, written, hv]
  have hblank : [[]].filterMap awgPublicKey = [] ∧ [[]].filterMap awgPresharedKey = [] ∧
      [[]].flatMap awgAllowedIPs = [] := by decide +kernel
  have hwritten : (written []).toList = [] := rfl
  rw [readPeerLines_eq, renderBody]
  -- the PresharedKey line is left out if there is no key
  by_cases hpsk : p.presharedKey = []
  · simp only [hpsk, ne_eq, not_true_eq_false, if_false, List.append_nil, List.filterMap_append,
      List.flatMap_append, hpublic, hallowed, hblank, hwritten, List.nil_append]
  · simp only [hpsk, ne_eq, not_false_eq_true, if_true, List.append_nil, List.filterMap_append,
      List.flatMap_append, hpublic, hpreshared, hallowed, hblank, List.nil_append]

theorem renderBody_not_header {p : Peer} (h : ∀ e ∈ p.extra, (awgLine e).isHeader = false) :
    ∀ l ∈ renderBody p, (awgLine l).isHeader = false := by
  have hpublic : ∀ v, (awgLine (keyLine (lit "PublicKey") v)).isHeader = false := by
    intro v
    rw [awgLine_publicKey]
    split <;> rfl
  have hpreshared : ∀ v, (awgLine (keyLine (lit "PresharedKey") v)).isHeader = false := by
    intro v
    rw [awgLine_presharedKey]
    split <;> rfl
  have hallowed : ∀ v, (awgLine (keyLine (lit "AllowedIPs") v)).isHeader = false := by
    intro v
    rw [awgLine_allowedIPs]
    split <;> rfl
  intro l hl
  simp only [renderBody, List.mem_append, List.mem_singleton] at hl
  rcases hl with (((rfl | hl) | rfl) | hl) | rfl
  · exact hpublic _
  · split at hl
    · rw [List.mem_singleton.mp hl]
      exact hpreshared _
    · simp at hl
  · exact hallowed _
  · exact h l hl
  · decide +kernel

end VpnControl.Awg
