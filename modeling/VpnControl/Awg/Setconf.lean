import VpnControl.Awg.RoundTrip

namespace VpnControl.Awg
open Strings Trim Netip

/-- The blanks of C's `isspace`. -/
def isBlank (c : Char) : Bool := c == ' ' || (9 ≤ c.toNat && c.toNat ≤ 13)

/-- A line as `awg setconf` looks at it: without its comment and without blanks. -/
def stripLine : Text → Text
  | [] => []
  | c :: cs => if c = '#' then [] else if isBlank c then stripLine cs else c :: stripLine cs

/-- What `awg setconf` makes of a line; it does not look at the case of letters. -/
inductive AwgLine where
  | interface
  | peer
  | publicKey (value : Text)
  | presharedKey (value : Text)
  | allowedIPs (values : List Text)
  | other
  deriving DecidableEq, Repr

/-- The text behind a key with its equals sign, if the line starts with that and has more. -/
def awgValue (key line : Text) : Option Text :=
  if (line.take key.length).map lowerASCII = key.map lowerASCII ∧ key.length < line.length then
    some (line.drop key.length)
  else none

/-- The entries of a comma-separated value. -/
def awgEntries (value : Text) : List Text := (value.splitOn ',').filter (· ≠ [])

def classifyKey (line : Text) : AwgLine :=
  if let some value := awgValue (lit "PublicKey=") line then .publicKey value
  else if let some value := awgValue (lit "PresharedKey=") line then .presharedKey value
  else if let some value := awgValue (lit "AllowedIPs=") line then .allowedIPs (awgEntries value)
  else .other

def classify (line : Text) : AwgLine :=
  if line.map lowerASCII = lit "[interface]" then .interface
  else if line.map lowerASCII = lit "[peer]" then .peer
  else classifyKey line

def awgLine (l : Text) : AwgLine := classify (stripLine l)

def AwgLine.isHeader : AwgLine → Bool
  | interface => true
  | peer => true
  | _ => false

/-- A peer as `awg setconf` reads it: of a repeated key the last one counts, while the
AllowedIPs of all lines add up. -/
structure AwgPeer where
  publicKey : Option Text := none
  presharedKey : Option Text := none
  allowedIPs : List Text := []
  deriving DecidableEq, Repr

def AwgPeer.apply (p : AwgPeer) : AwgLine → AwgPeer
  | .publicKey value => { p with publicKey := some value }
  | .presharedKey value => { p with presharedKey := some value }
  | .allowedIPs values => { p with allowedIPs := p.allowedIPs ++ values }
  | _ => p

structure AwgState where
  done : List AwgPeer := []
  current : Option AwgPeer := none

def AwgState.flush (st : AwgState) : List AwgPeer := st.done ++ st.current.toList

def awgStep (st : AwgState) (l : Text) : AwgState :=
  match awgLine l with
  | .interface => ⟨st.flush, none⟩
  | .peer => ⟨st.flush, some {}⟩
  | line => { st with current := st.current.map (·.apply line) }

def readLines (st : AwgState) (lines : List Text) : AwgState := lines.foldl awgStep st

/-- The peers that `awg setconf` reads from a config file. -/
def setconf (text : Text) : List AwgPeer := (readLines {} (rawLines text)).flush

/-- What an AllowedIPs entry stands for: the masked network of a prefix or address. -/
def awgRoute (entry : Text) : Except Text (Addr × Nat) :=
  match parsePrefix entry with
  | some p => .ok (p.maskedAddr, p.bits)
  | none =>
    match parseAddr entry with
    | some a => .ok (a, a.bitLen)
    | none => .error entry

/-- Two readings of a peer agree: the same keys and the same set of networks. -/
structure SamePeer (p q : AwgPeer) : Prop where
  publicKey : p.publicKey = q.publicKey
  presharedKey : p.presharedKey = q.presharedKey
  allowedIPs : ∀ r, r ∈ p.allowedIPs.map awgRoute ↔ r ∈ q.allowedIPs.map awgRoute

/-- Two texts describe the same peers to `awg`, peer by peer. -/
def SamePeers (text text' : Text) : Prop := List.Forall₂ SamePeer (setconf text) (setconf text')

theorem SamePeer.refl (p : AwgPeer) : SamePeer p p := ⟨rfl, rfl, fun _ => Iff.rfl⟩

section Strip

theorem stripLine_of_blank {s : Text} (hs : ∀ c ∈ s, isBlank c = true) : stripLine s = [] := by
  induction s with
  | nil => rfl
  | cons c s ih =>
    obtain ⟨hc, hs⟩ := List.forall_mem_cons.mp hs
    have hne : c ≠ '#' := by
      rintro rfl
      cases hc
    rw [stripLine, if_neg hne, if_pos hc, ih hs]

theorem stripLine_append_blank {s : Text} (hs : ∀ c ∈ s, isBlank c = true) (l : Text) :
    stripLine (l ++ s) = stripLine l := by
  induction l with
  | nil => rw [List.nil_append, stripLine_of_blank hs, stripLine]
  | cons c l ih => rw [List.cons_append, stripLine, stripLine, ih]

theorem awgLine_trimRightCR (l : Text) : awgLine (trimRightCR l) = awgLine l := by
  have hsplit : l = trimRightCR l ++ l.rtakeWhile (· == '\r') := by
    simp only [trimRightCR, List.rdropWhile, List.rtakeWhile]
    rw [← List.reverse_append, List.takeWhile_append_dropWhile, List.reverse_reverse]
  have hblank : ∀ c ∈ l.rtakeWhile (· == '\r'), isBlank c = true := by
    intro c hc
    have hcr : c = '\r' := by simpa using List.mem_rtakeWhile_imp hc
    rw [hcr]
    rfl
  rw [awgLine, awgLine]
  conv_rhs => rw [hsplit, stripLine_append_blank hblank]

theorem awgLine_dropCR (l : Text) : awgLine (dropCR l) = awgLine l := by
  rw [dropCR]
  split
  · rename_i h
    obtain ⟨m, rfl⟩ := List.getLast?_eq_some_iff.mp h
    have hblank : ∀ c ∈ ['\r'], isBlank c = true := by simp [isBlank]
    rw [List.dropLast_concat, awgLine, awgLine, stripLine_append_blank hblank]
  · rfl

theorem mem_stripLine {l : Text} {c : Char} (h : c ∈ stripLine l) : c ∈ l := by
  induction l with
  | nil => simp [stripLine] at h
  | cons d l ih =>
    rw [stripLine] at h
    split_ifs at h
    · simp at h
    · exact List.mem_cons_of_mem _ (ih h)
    · rcases List.mem_cons.mp h with rfl | h
      · simp
      · exact List.mem_cons_of_mem _ (ih h)

theorem awgValue_eq_some {key line value : Text} (h : awgValue key line = some value) :
    (line.take key.length).map lowerASCII = key.map lowerASCII := by
  rw [awgValue] at h
  split at h
  · rename_i hkey
    exact hkey.1
  · cases h

/-- A line that means something to `awg` does not start with a blank of any kind. -/
theorem classify_cons_of_isSpace {c : Char} {line : Text} (hc : isSpace c = true) :
    classify (c :: line) = .other := by
  have hlower : lowerASCII c = c := by
    rw [lowerASCII, if_neg]
    rintro ⟨hlo, hhi⟩
    have h₁ : '!' ≤ 'A' := by decide
    have h₂ : 'Z' ≤ '~' := by decide
    rw [isSpace_graphic (Char.le_trans h₁ hlo) (Char.le_trans hhi h₂)] at hc
    cases hc
  have hhead : ∀ d rest, isSpace d = false → (c :: line).map lowerASCII ≠ d :: rest := by
    intro d rest hd h
    rw [List.map_cons, List.cons.injEq, hlower] at h
    rw [← h.1, hc] at hd
    cases hd
  have hvalue : ∀ d key, isSpace (lowerASCII d) = false → awgValue (d :: key) (c :: line) = none := by
    intro d key hd
    cases h : awgValue (d :: key) (c :: line) with
    | none => rfl
    | some value =>
      have hmap := awgValue_eq_some h
      rw [List.length_cons, List.take_succ_cons, List.map_cons, List.map_cons, List.cons.injEq,
        hlower] at hmap
      rw [← hmap.1, hc] at hd
      cases hd
  have hinterface : lit "[interface]" = '[' :: lit "interface]" := by simp [lit_eq]
  have hpeer : lit "[peer]" = '[' :: lit "peer]" := by simp [lit_eq]
  have hpublic : lit "PublicKey=" = 'P' :: lit "ublicKey=" := by simp [lit_eq]
  have hpreshared : lit "PresharedKey=" = 'P' :: lit "resharedKey=" := by simp [lit_eq]
  have hallowed : lit "AllowedIPs=" = 'A' :: lit "llowedIPs=" := by simp [lit_eq]
  rw [classify, hinterface, hpeer, if_neg (hhead _ _ (by decide)),
    if_neg (hhead _ _ (by decide)), classifyKey, hpublic, hpreshared, hallowed,
    hvalue _ _ (by decide), hvalue _ _ (by decide), hvalue _ _ (by decide)]

theorem awgLine_of_trimSpace {l : Text} (h : trimSpace l = []) : awgLine l = .other := by
  have hall : ∀ c ∈ l, isSpace c = true := by
    rcases all_or_split isSpace l with hall | ⟨a, c, w, rfl, hc⟩
    · exact hall
    · rw [trimSpace_append_cons hc] at h
      simp at h
  rw [awgLine]
  cases hs : stripLine l with
  | nil => decide +kernel
  | cons c rest =>
    have hmem : c ∈ stripLine l := by simp [hs]
    exact classify_cons_of_isSpace (hall c (mem_stripLine hmem))

end Strip

/-- The line of a key and its value as the agent writes them. -/
theorem stripLine_keyLine {key : Text} (hkey : ∀ c ∈ key, c ≠ '#' ∧ isBlank c = false) (v : Text) :
    stripLine (keyLine key v) = key ++ '=' :: stripLine v := by
  rw [keyLine_split]
  have happend : ∀ rest, stripLine (key ++ rest) = key ++ stripLine rest := by
    intro rest
    induction key with
    | nil => rfl
    | cons c key ih =>
      obtain ⟨⟨hc, hb⟩, hkey⟩ := List.forall_mem_cons.mp hkey
      rw [List.cons_append, stripLine, if_neg hc, hb, if_neg (by simp), ih hkey, List.cons_append]
  rw [List.append_assoc, happend]
  simp [stripLine, isBlank]

section Reading
variable {lines : List Text} {st : AwgState}

theorem readLines_append (st : AwgState) (as bs : List Text) :
    readLines st (as ++ bs) = readLines (readLines st as) bs := List.foldl_append ..

theorem readLines_congr {f : Text → Text} (h : ∀ l ∈ lines, awgLine (f l) = awgLine l) :
    readLines st (lines.map f) = readLines st lines := by
  induction lines generalizing st with
  | nil => rfl
  | cons l lines ih =>
    obtain ⟨hl, hlines⟩ := List.forall_mem_cons.mp h
    have hstep : awgStep st (f l) = awgStep st l := by simp only [awgStep, hl]
    rw [List.map_cons, readLines, List.foldl_cons, hstep]
    exact ih hlines

/-- What the lines of one section say about a peer. -/
def readPeerLines (p : AwgPeer) (body : List Text) : AwgPeer :=
  body.foldl (fun p l => p.apply (awgLine l)) p

theorem awgStep_of_not_header {l : Text} (h : (awgLine l).isHeader = false) :
    awgStep st l = { st with current := st.current.map (·.apply (awgLine l)) } := by
  rw [awgStep]
  split
  · rename_i hl
    rw [hl] at h
    cases h
  · rename_i hl
    rw [hl] at h
    cases h
  · rfl

theorem readLines_body (h : ∀ l ∈ lines, (awgLine l).isHeader = false) :
    readLines st lines = { st with current := st.current.map (readPeerLines · lines) } := by
  induction lines generalizing st with
  | nil => simp [readLines, readPeerLines]
  | cons l lines ih =>
    obtain ⟨hl, hlines⟩ := List.forall_mem_cons.mp h
    rw [readLines, List.foldl_cons, ← readLines, awgStep_of_not_header hl, ih hlines]
    simp [readPeerLines, Function.comp_def]

/-- The lines up to the first header that `awg` sees, and for each of its `[Peer]` headers the
lines up to the next header. -/
def peerSpans : List Text → List Text × List (List Text)
  | [] => ([], [])
  | l :: lines =>
    let (lead, spans) := peerSpans lines
    match awgLine l with
    | .interface => ([], spans)
    | .peer => ([], lead :: spans)
    | _ => (l :: lead, spans)

/-- A peer is read from the lines under its header. -/
theorem flush_readLines (st : AwgState) (lines : List Text) :
    (readLines st lines).flush = st.done ++
      (st.current.map (readPeerLines · (peerSpans lines).1)).toList ++
      (peerSpans lines).2.map (readPeerLines {}) := by
  induction lines generalizing st with
  | nil => simp [readLines, peerSpans, readPeerLines, AwgState.flush]
  | cons l lines ih =>
    have hcons : readLines st (l :: lines) = readLines (awgStep st l) lines := rfl
    rw [hcons, ih]
    cases hl : awgLine l <;> cases hcurrent : st.current <;>
      simp [awgStep, hl, hcurrent, peerSpans, AwgState.flush, readPeerLines]

theorem setconf_eq (text : Text) :
    setconf text = (peerSpans (rawLines text)).2.map (readPeerLines {}) := by
  rw [setconf, flush_readLines]
  rfl

theorem peerSpans_of_not_header (h : ∀ l ∈ lines, (awgLine l).isHeader = false) :
    peerSpans lines = (lines, []) := by
  induction lines with
  | nil => rfl
  | cons l lines ih =>
    obtain ⟨hl, hlines⟩ := List.forall_mem_cons.mp h
    rw [peerSpans, ih hlines]
    cases hkind : awgLine l <;> simp_all [AwgLine.isHeader]

end Reading
end VpnControl.Awg
