import VpnControl.Awg.Config

namespace VpnControl.Awg
open Strings Trim

/-- The section name a scanned line names, if it is a header. -/
def sectionName (token : Text) : Option Text := headerName (trimSpace (trimRightCR token))

/-- A header line of the config file with the lines up to the next header. -/
inductive Block where
  | interface (header : Text) (body : List Text)
  | peer (header : Text) (body : List Text)
  deriving DecidableEq, Repr

namespace Block

def header : Block → Text
  | interface h _ => h
  | peer h _ => h

def body : Block → List Text
  | interface _ b => b
  | peer _ b => b

def name : Block → Text
  | interface _ _ => lit "interface"
  | peer _ _ => lit "peer"

def lines (b : Block) : List Text := b.header :: b.body

/-- The header is one for the block's kind and no line of the body is a header. -/
structure Valid (b : Block) : Prop where
  header : ∃ n, sectionName b.header = some n ∧ toLower n = b.name
  body : ∀ l ∈ b.body, sectionName l = none

def interfaceLines : Block → List InterfaceLine
  | interface _ b => b.map fun l => parseInterfaceLine (trimRightCR l)
  | peer _ _ => []

/-- What the lines of a peer section say about the peer. -/
def readPeer (current : Peer) (body : List Text) : Peer :=
  body.foldl (fun p l => parsePeerLine p (trimRightCR l)) current

def peers : Block → List Peer
  | interface _ _ => []
  | peer _ b => [readPeer {} b]

end Block

/-- The config that a list of blocks describes. -/
def blocksConfig (blocks : List Block) : Config :=
  { interface := blocks.flatMap Block.interfaceLines, peers := blocks.flatMap Block.peers }

def blocksLines (blocks : List Block) : List Text := blocks.flatMap Block.lines

theorem parseLines_append (st : ParseState) (as bs : List Text) :
    parseLines st (as ++ bs) = match parseLines st as with
      | .error e => .error e
      | .ok st' => parseLines st' bs := by
  induction as generalizing st with
  | nil => rfl
  | cons a as ih =>
    simp only [List.cons_append, parseLines]
    cases parseLine st a with
    | error e => rfl
    | ok st' => exact ih st'

theorem parseLine_body (st : ParseState) {l : Text} (h : sectionName l = none) :
    parseLine st l = parseBodyLine st (trimRightCR l) (st.lineNo + 1) := by
  rw [sectionName] at h
  rw [parseLine]
  simp only [h]

theorem parseLine_header (st : ParseState) {l n : Text} (h : sectionName l = some n) :
    parseLine st l = parseHeader st n (st.lineNo + 1) := by
  rw [sectionName] at h
  rw [parseLine]
  simp only [h]

/-- The section that a block's header opens. -/
def Block.sect : Block → Section
  | interface _ _ => .interface
  | peer _ _ => .peer {}

theorem parseHeader_block (st : ParseState) {b : Block} {n : Text} (h : toLower n = b.name)
    (lineNo : Nat) : parseHeader st n lineNo = .ok ⟨flushPeer st, b.sect, lineNo⟩ := by
  rw [parseHeader, h]
  cases b with
  | interface _ _ => simp [Block.name, Block.sect]
  | peer _ _ => simp [Block.name, Block.sect]

theorem parseLine_block (st : ParseState) {b : Block} (hb : b.Valid) :
    parseLine st b.header = .ok ⟨flushPeer st, b.sect, st.lineNo + 1⟩ := by
  obtain ⟨n, hn, hl⟩ := hb.header
  rw [parseLine_header st hn]
  exact parseHeader_block st hl _

theorem parseLines_interface (cfg : Config) (n : Nat) {body : List Text}
    (h : ∀ l ∈ body, sectionName l = none) :
    parseLines ⟨cfg, .interface, n⟩ body = .ok ⟨⟨cfg.interface ++
      body.map (fun l => parseInterfaceLine (trimRightCR l)), cfg.peers⟩,
      .interface, n + body.length⟩ := by
  induction body generalizing cfg n with
  | nil => simp [parseLines]
  | cons l body ih =>
    rw [parseLines, parseLine_body _ (h l (by simp)), parseBodyLine]
    simp only
    rw [ih _ _ fun m hm => h m (by simp [hm])]
    simp [Nat.add_assoc, Nat.add_comm 1]

theorem parseLines_peer (cfg : Config) (p : Peer) (n : Nat) {body : List Text}
    (h : ∀ l ∈ body, sectionName l = none) :
    parseLines ⟨cfg, .peer p, n⟩ body =
      .ok ⟨cfg, .peer (Block.readPeer p body), n + body.length⟩ := by
  induction body generalizing p n with
  | nil => rfl
  | cons l body ih =>
    rw [parseLines, parseLine_body _ (h l (by simp)), parseBodyLine]
    simp only
    rw [ih _ _ fun m hm => h m (by simp [hm])]
    simp [Block.readPeer, Nat.add_assoc, Nat.add_comm 1]

/-- A block adds what it describes to the config, whatever was being read before. -/
theorem parseLines_block (st : ParseState) {b : Block} (hb : b.Valid) :
    ∃ st', parseLines st b.lines = .ok st' ∧ flushPeer st' =
      { interface := (flushPeer st).interface ++ b.interfaceLines,
        peers := (flushPeer st).peers ++ b.peers } := by
  rw [Block.lines, parseLines, parseLine_block st hb]
  cases b with
  | interface header body =>
    refine ⟨_, parseLines_interface (flushPeer st) (st.lineNo + 1) hb.body, ?_⟩
    simp [flushPeer, Block.interfaceLines, Block.peers, Block.body]
  | peer header body =>
    refine ⟨_, parseLines_peer (flushPeer st) {} (st.lineNo + 1) hb.body, ?_⟩
    simp [flushPeer, Block.interfaceLines, Block.peers, Block.body]

theorem parseLines_blocks (st : ParseState) {blocks : List Block} (h : ∀ b ∈ blocks, b.Valid) :
    ∃ st', parseLines st (blocksLines blocks) = .ok st' ∧ flushPeer st' =
      { interface := (flushPeer st).interface ++ (blocksConfig blocks).interface,
        peers := (flushPeer st).peers ++ (blocksConfig blocks).peers } := by
  induction blocks generalizing st with
  | nil => exact ⟨st, rfl, by simp [blocksConfig]⟩
  | cons b blocks ih =>
    obtain ⟨st₁, h₁, hf₁⟩ := parseLines_block st (h b (by simp))
    obtain ⟨st₂, h₂, hf₂⟩ := ih st₁ fun c hc => h c (by simp [hc])
    refine ⟨st₂, ?_, ?_⟩
    · rw [blocksLines, List.flatMap_cons, parseLines_append, h₁]
      exact h₂
    · rw [hf₂, hf₁]
      simp [blocksConfig]

theorem parseLines_preamble {st : ParseState} (hst : st.sect = .none) {pre : List Text}
    (h : ∀ l ∈ pre, trimSpace l = []) :
    parseLines st pre = .ok { st with lineNo := st.lineNo + pre.length } := by
  induction pre generalizing st with
  | nil => rfl
  | cons l pre ih =>
    have hl : trimSpace (trimRightCR l) = [] := by
      rw [trimSpace_trimRightCR, h l (by simp)]
    have hn : sectionName l = none := by
      rw [sectionName, hl]
      rfl
    rw [parseLines, parseLine_body st hn, parseBodyLine]
    simp only [hst, hl, if_true]
    have hst' : { st with lineNo := st.lineNo + 1 }.sect = .none := hst
    have hpre := ih hst' fun m hm => h m (by simp [hm])
    simpa [hst, Nat.add_assoc, Nat.add_comm 1] using hpre

theorem parseLine_of_header {st st' : ParseState} {l n : Text} (hn : sectionName l = some n)
    (h : parseLine st l = .ok st') :
    toLower n = lit "interface" ∨ toLower n = lit "peer" := by
  rw [parseLine_header st hn, parseHeader] at h
  split at h
  · exact .inl ‹_›
  · split at h
    · exact .inr ‹_›
    · cases h

/-- Every accepted list of lines is a body for the section it starts in, followed by
blocks. -/
theorem exists_blocks {st st' : ParseState} {tokens : List Text}
    (h : parseLines st tokens = .ok st') :
    ∃ body blocks, tokens = body ++ blocksLines blocks ∧ (∀ b ∈ blocks, b.Valid) ∧
      (∀ l ∈ body, sectionName l = none) ∧ (st.sect = .none → ∀ l ∈ body, trimSpace l = []) := by
  induction tokens generalizing st with
  | nil => exact ⟨[], [], rfl, by simp, by simp, by simp⟩
  | cons l tokens ih =>
    rw [parseLines] at h
    cases hl : parseLine st l with
    | error e =>
      rw [hl] at h
      cases h
    | ok st₁ =>
      rw [hl] at h
      obtain ⟨body, blocks, rfl, hv, hb, hblank⟩ := ih h
      cases hn : sectionName l with
      | some n =>
        rcases parseLine_of_header hn hl with hk | hk
        · refine ⟨[], .interface l body :: blocks, rfl, ?_, by simp, by simp⟩
          simpa using ⟨⟨⟨n, hn, hk⟩, hb⟩, hv⟩
        · refine ⟨[], .peer l body :: blocks, rfl, ?_, by simp, by simp⟩
          simpa using ⟨⟨⟨n, hn, hk⟩, hb⟩, hv⟩
      | none =>
        refine ⟨l :: body, blocks, rfl, hv, by simpa using ⟨hn, hb⟩, fun hst => ?_⟩
        rw [parseLine_body st hn, parseBodyLine] at hl
        simp only [hst] at hl
        split at hl
        · rename_i hblankl
          rw [Except.ok.injEq] at hl
          have hsect : st₁.sect = .none := by rw [← hl]
          rw [trimSpace_trimRightCR] at hblankl
          simpa using ⟨hblankl, hblank hsect⟩
        · cases hl

/-- What `parseConfig` accepts and what it then returns: blank lines, then blocks. -/
theorem parseConfig_ok_iff {input : Text} {cfg : Config} :
    parseConfig input = .ok cfg ↔ ∃ pre blocks,
      scanLines input = (pre ++ blocksLines blocks, false) ∧ (∀ l ∈ pre, trimSpace l = []) ∧
      (∀ b ∈ blocks, b.Valid) ∧ cfg = blocksConfig blocks ∧ cfg.interface ≠ [] := by
  have hrun : ∀ {pre : List Text} {blocks : List Block}, (∀ l ∈ pre, trimSpace l = []) →
      (∀ b ∈ blocks, b.Valid) → ∃ st, parseLines {} (pre ++ blocksLines blocks) = .ok st ∧
        flushPeer st = blocksConfig blocks := by
    intro pre blocks hpre hv
    obtain ⟨st, hst, hf⟩ := parseLines_blocks { lineNo := pre.length } hv
    refine ⟨st, ?_, by simpa [flushPeer] using hf⟩
    rw [parseLines_append, parseLines_preamble rfl hpre]
    simpa using hst
  constructor
  · intro h
    rw [parseConfig] at h
    split at h
    rename_i tokens tooLong hscan
    cases hp : parseLines {} tokens with
    | error e =>
      rw [hp] at h
      cases h
    | ok st =>
      simp only [hp] at h
      split at h
      · cases h
      · rename_i hlong
        split at h
        · cases h
        · rename_i hne
          rw [Except.ok.injEq] at h
          -- the lines that were accepted are blank ones and then whole sections
          obtain ⟨pre, blocks, rfl, hv, -, hpre⟩ := exists_blocks hp
          obtain ⟨st', hst', hf⟩ := hrun (hpre rfl) hv
          rw [hp, Except.ok.injEq] at hst'
          subst hst'
          refine ⟨pre, blocks, ?_, hpre rfl, hv, ?_, ?_⟩
          · rw [hscan, Bool.not_eq_true _ |>.mp hlong]
          · rw [← h, hf]
          · rwa [← h]
  · rintro ⟨pre, blocks, hscan, hpre, hv, rfl, hne⟩
    obtain ⟨st, hst, hf⟩ := hrun hpre hv
    simp [parseConfig, hscan, hst, hf, hne]

theorem linesFit_of_parseConfig {t : Text} {c : Config} (h : parseConfig t = .ok c) :
    LinesFit t := by
  obtain ⟨pre, blocks, hscan, -⟩ := parseConfig_ok_iff.mp h
  have hend : (scanLines t).2 = false := by rw [hscan]
  rw [LinesFit]
  simpa [scanLines, List.span_eq_takeWhile_dropWhile, List.dropWhile_eq_nil_iff] using hend

end VpnControl.Awg
