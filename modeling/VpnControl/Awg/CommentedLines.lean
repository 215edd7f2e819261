import VpnControl.Awg.Allocation
import VpnControl.Awg.ClientConfig

namespace VpnControl.Awg
open Strings Trim

/-- A line of the longer of two files, and whether the shorter one lacks it. -/
structure MarkedLine where
  text : Text
  inserted : Bool
  deriving DecidableEq, Repr

/-- Whether the lines after this one are in an interface section. -/
def inInterface (inside : Bool) (line : Text) : Bool :=
  match sectionName line with
  | some name => toLower name == lit "interface"
  | none => inside

def assigns (key line : Text) : Bool :=
  (parseAssignment line).ok && equalFold (parseAssignment line).key key

/-- A commented-out Address or ListenPort. -/
structure CommentedOut (line : Text) : Prop where
  commented : (parseAssignment line).commented = true
  key : assigns (lit "Address") line = true ∨ assigns (lit "ListenPort") line = true

instance (line : Text) : Decidable (CommentedOut line) :=
  decidable_of_iff ((parseAssignment line).commented = true ∧
    (assigns (lit "Address") line = true ∨ assigns (lit "ListenPort") line = true))
    ⟨fun h => ⟨h.1, h.2⟩, fun h => ⟨h.commented, h.key⟩⟩

/-- Only commented-out lines are inserted, and only into interface sections. -/
def Insertion (inside : Bool) : List MarkedLine → Prop
  | [] => True
  | m :: ms => (m.inserted = true → inside = true ∧ CommentedOut m.text) ∧
      Insertion (inInterface inside m.text) ms

instance decidableInsertion (inside : Bool) : ∀ ms, Decidable (Insertion inside ms)
  | [] => inferInstanceAs (Decidable True)
  | m :: ms =>
    have := decidableInsertion (inInterface inside m.text) ms
    inferInstanceAs (Decidable ((m.inserted = true → inside = true ∧ CommentedOut m.text) ∧
      Insertion (inInterface inside m.text) ms))

/-- The lines that both files have. -/
def sharedLines (ms : List MarkedLine) : List MarkedLine := ms.filter fun m => !m.inserted

/-- The lines of the interface sections. -/
def interfaceMarked (inside : Bool) : List MarkedLine → List MarkedLine
  | [] => []
  | m :: ms =>
    (if inside && (sectionName m.text).isNone then [m] else []) ++
      interfaceMarked (inInterface inside m.text) ms

/-- The lines of the interface sections that assign a key, commented out or not. -/
def assigning (key : Text) (ms : List MarkedLine) : List MarkedLine :=
  (interfaceMarked false ms).filter fun m => assigns key m.text

def lineValue (m : MarkedLine) : Text := (parseAssignment m.text).value

/-- The first of the addresses of an `Address` line. -/
def firstAddress (value : Text) : Text :=
  trimSpace (match cut ',' value with
    | some (before, _) => before
    | none => value)

/-- If an inserted line is the first that assigns the key, it says the same as the first
shared line that does, and nothing if there is none. -/
def Unshadowed (key : Text) (reading : Text → Text) (ms : List MarkedLine) : Prop :=
  ∀ m ∈ (assigning key ms).head?, m.inserted = true →
    reading (lineValue m) = ((sharedLines (assigning key ms)).head?.map (reading ∘ lineValue)).getD []

instance (key : Text) (reading : Text → Text) (ms : List MarkedLine) :
    Decidable (Unshadowed key reading ms) :=
  inferInstanceAs (Decidable (∀ m ∈ (assigning key ms).head?, m.inserted = true → _))

/-- The agent gets the same from both configs; a rendered client config has the
`ListenPort` in its Endpoint. -/
structure SameReading (c c' : Config) : Prop where
  address : c'.interfaceAddress = c.interfaceAddress
  listenPort : c'.listenPort = c.listenPort
  verdict : c'.validate = c.validate
  allocated : ∀ extraUsed, allocateFreeIPv4 c' extraUsed = allocateFreeIPv4 c extraUsed
  rendered : ∀ params, renderClientConfig c' params = renderClientConfig c params

section Parse
variable {st st' r r' : ParseState} {l : Text}

def ParseState.inside (st : ParseState) : Bool := st.sect == .interface

/-- A line that is read into the interface section is put at its end, as it is. -/
theorem parseLine_interface (h : parseLine st l = .ok r) :
    r.inside = inInterface st.inside l ∧ r.cfg.interface = st.cfg.interface ++
      if st.inside && (sectionName l).isNone then [parseInterfaceLine (trimRightCR l)] else [] := by
  cases hn : sectionName l with
  | some name =>
    rw [parseLine_header st hn, parseHeader] at h
    have hflush : (flushPeer st).interface = st.cfg.interface := by
      rw [flushPeer]
      split <;> rfl
    rw [inInterface, hn]
    split at h
    · rename_i hname
      rw [Except.ok.injEq] at h
      subst h
      simp [ParseState.inside, hname, hflush]
    · rename_i hname
      split at h
      · rw [Except.ok.injEq] at h
        subst h
        simp [ParseState.inside, hname, hflush]
      · cases h
  | none =>
    rw [parseLine_body st hn, parseBodyLine] at h
    rw [inInterface, hn]
    cases hs : st.sect with
    | interface =>
      simp only [hs, Except.ok.injEq] at h
      subst h
      simp [ParseState.inside, hs]
    | peer current =>
      simp only [hs, Except.ok.injEq] at h
      subst h
      simp [ParseState.inside, hs]
    | none =>
      simp only [hs] at h
      split at h
      · rw [Except.ok.injEq] at h
        subst h
        simp [ParseState.inside, hs]
      · cases h

/-- Two states that the same peers come out of. -/
structure ReadAlike (st st' : ParseState) : Prop where
  sect : st'.sect = st.sect
  peers : st'.cfg.peers = st.cfg.peers

theorem ReadAlike.inside (h : ReadAlike st st') : st'.inside = st.inside := by
  rw [ParseState.inside, ParseState.inside, h.sect]

theorem ReadAlike.flush (h : ReadAlike st st') : (flushPeer st').peers = (flushPeer st).peers := by
  rw [flushPeer, flushPeer, h.sect]
  cases st.sect <;> simp [h.peers]

/-- What the interface holds has no say in how a line is read. -/
theorem ReadAlike.parseLine (h : ReadAlike st st') (hr : parseLine st l = .ok r) :
    ∃ r', Awg.parseLine st' l = .ok r' ∧ ReadAlike r r' := by
  cases hn : sectionName l with
  | some name =>
    rw [parseLine_header st hn, parseHeader] at hr
    rw [parseLine_header st' hn, parseHeader]
    split at hr
    · rename_i hname
      rw [Except.ok.injEq] at hr
      subst hr
      rw [if_pos hname]
      exact ⟨_, rfl, rfl, h.flush⟩
    · rename_i hname
      rw [if_neg hname]
      split at hr
      · rename_i hpeer
        rw [Except.ok.injEq] at hr
        subst hr
        rw [if_pos hpeer]
        exact ⟨_, rfl, rfl, h.flush⟩
      · cases hr
  | none =>
    rw [parseLine_body st hn, parseBodyLine] at hr
    rw [parseLine_body st' hn, parseBodyLine, h.sect]
    cases hs : st.sect with
    | interface =>
      simp only [hs, Except.ok.injEq] at hr
      subst hr
      exact ⟨_, rfl, by simp, h.peers⟩
    | peer current =>
      simp only [hs, Except.ok.injEq] at hr
      subst hr
      exact ⟨_, rfl, rfl, h.peers⟩
    | none =>
      simp only [hs] at hr
      split at hr
      · rename_i hblank
        rw [Except.ok.injEq] at hr
        subst hr
        simp only [hblank, if_true]
        exact ⟨_, rfl, by simp, h.peers⟩
      · cases hr

theorem CommentedOut.sectionName_eq (h : CommentedOut l) : sectionName l = none := by
  rw [sectionName, trimSpace_trimRightCR]
  apply headerName_eq_none
  intro hhead
  have hc := h.commented
  rw [parseAssignment] at hc
  split at hc
  · cases hc
  · have hnot : isComment (trimSpace l) = false := by
      rw [isComment, hhead]
      rfl
    simp only [hnot] at hc
    split at hc
    · cases hc
    · split at hc
      · cases hc
      · cases hc

end Parse

def MarkedLine.read (m : MarkedLine) : InterfaceLine := parseInterfaceLine (trimRightCR m.text)

theorem interfaceMarked_cons (inside : Bool) (m : MarkedLine) (ms : List MarkedLine) :
    interfaceMarked inside (m :: ms) =
      (if inside && (sectionName m.text).isNone then [m] else []) ++
        interfaceMarked (inInterface inside m.text) ms := rfl

/-- Where the shorter file is read, the longer one is read too, with the inserted lines
in its interface and the same peers. -/
theorem parseLines_insertion {ms : List MarkedLine} {st st' r : ParseState}
    (hms : Insertion st.inside ms) (hsame : ReadAlike st st')
    (hr : parseLines st ((sharedLines ms).map (·.text)) = .ok r) :
    ∃ r', parseLines st' (ms.map (·.text)) = .ok r' ∧ ReadAlike r r' ∧
      r.cfg.interface = st.cfg.interface ++
        (sharedLines (interfaceMarked st.inside ms)).map (·.read) ∧
      r'.cfg.interface = st'.cfg.interface ++ (interfaceMarked st.inside ms).map (·.read) := by
  -- over the lines, with the state of the parser for the text without and with the inserted ones
  induction ms generalizing st st' with
  | nil =>
    simp only [sharedLines, List.filter_nil, List.map_nil, parseLines, Except.ok.injEq] at hr
    subst hr
    exact ⟨st', rfl, hsame, by simp [interfaceMarked, sharedLines], by simp [interfaceMarked]⟩
  | cons m ms ih =>
    obtain ⟨hm, hrest⟩ := hms
    rw [interfaceMarked_cons]
    by_cases hi : m.inserted = true
    -- an inserted line only adds itself to the interface section
    · obtain ⟨hinside, hout⟩ := hm hi
      have hsect : st'.sect = .interface := by simpa [ParseState.inside, hsame.sect] using hinside
      have hnone := hout.sectionName_eq
      have hstep : parseLine st' m.text = .ok { st' with
          cfg := { st'.cfg with interface := st'.cfg.interface ++ [m.read] },
          lineNo := st'.lineNo + 1 } := by
        rw [parseLine_body st' hnone, parseBodyLine]
        simp only [hsect]
        rfl
      have hin : inInterface st.inside m.text = st.inside := by simp [inInterface, hnone]
      have hshared : sharedLines (m :: ms) = sharedLines ms := by simp [sharedLines, hi]
      rw [hin] at hrest ⊢
      rw [hshared] at hr
      have hsame' : ReadAlike st { st' with
          cfg := { st'.cfg with interface := st'.cfg.interface ++ [m.read] },
          lineNo := st'.lineNo + 1 } := ⟨hsame.sect, hsame.peers⟩
      obtain ⟨r', hr', hs', h₁, h₂⟩ := ih hrest hsame' hr
      refine ⟨r', ?_, hs', ?_, ?_⟩
      · rw [List.map_cons, parseLines, hstep]
        exact hr'
      · rw [h₁]
        simp [sharedLines, hinside, hnone, hi]
      · rw [h₂]
        simp [hinside, hnone]
    -- a shared line does the same to both states
    · have hshared : sharedLines (m :: ms) = m :: sharedLines ms := by simp [sharedLines, hi]
      rw [hshared, List.map_cons, parseLines] at hr
      cases hl : parseLine st m.text with
      | error e =>
        rw [hl] at hr
        cases hr
      | ok q =>
        rw [hl] at hr
        obtain ⟨q', hq', hsame'⟩ := hsame.parseLine hl
        obtain ⟨hqin, hq⟩ := parseLine_interface hl
        obtain ⟨-, hq₂⟩ := parseLine_interface hq'
        rw [← hqin] at hrest ⊢
        obtain ⟨r', hr', hs', h₁, h₂⟩ := ih hrest hsame' hr
        refine ⟨r', ?_, hs', ?_, ?_⟩
        · rw [List.map_cons, parseLines, hq']
          exact hr'
        · rw [h₁, hq]
          split <;> simp [sharedLines, hi, MarkedLine.read]
        · rw [h₂, hq₂, hsame.inside]
          split <;> simp [MarkedLine.read]

theorem parseConfig_run {t : Text} {c : Config} (h : parseConfig t = .ok c) :
    ∃ r, parseLines {} (scanLines t).1 = .ok r ∧ c = flushPeer r := by
  rw [parseConfig] at h
  split at h
  rename_i tokens tooLong hscan
  rw [hscan]
  cases hp : parseLines {} tokens with
  | error e =>
    rw [hp] at h
    cases h
  | ok r =>
    simp only [hp] at h
    split at h
    · cases h
    · split at h
      · cases h
      · rw [Except.ok.injEq] at h
        exact ⟨r, rfl, h.symm⟩

theorem flushPeer_interface (st : ParseState) : (flushPeer st).interface = st.cfg.interface := by
  rw [flushPeer]
  split <;> rfl

/-- What the configs of two files that differ by inserted lines have in common. -/
theorem parseConfig_insertion {t t' : Text} {c c' : Config} {ms : List MarkedLine}
    (hms : Insertion false ms) (hlines : (scanLines t).1 = (sharedLines ms).map (·.text))
    (hlines' : (scanLines t').1 = ms.map (·.text)) (hc : parseConfig t = .ok c)
    (hc' : parseConfig t' = .ok c') :
    c.interface = (sharedLines (interfaceMarked false ms)).map (·.read) ∧
      c'.interface = (interfaceMarked false ms).map (·.read) ∧ c'.peers = c.peers := by
  obtain ⟨r, hr, rfl⟩ := parseConfig_run hc
  obtain ⟨q, hq, rfl⟩ := parseConfig_run hc'
  rw [hlines] at hr
  rw [hlines'] at hq
  have hstart : Insertion (ParseState.inside {}) ms := hms
  have hnew : ReadAlike {} {} := ⟨rfl, rfl⟩
  obtain ⟨r', hr', hsame, h₁, h₂⟩ := parseLines_insertion hstart hnew hr
  rw [hq, Except.ok.injEq] at hr'
  subst hr'
  rw [flushPeer_interface, flushPeer_interface]
  exact ⟨h₁, h₂, hsame.flush⟩

section Values
variable {c c' : Config} {ms : List MarkedLine}

theorem parseAssignment_trimRightCR (l : Text) :
    parseAssignment (trimRightCR l) = parseAssignment l := by
  rw [parseAssignment, parseAssignment, trimSpace_trimRightCR]

theorem interfaceValue_marked {lines : List MarkedLine}
    (h : c.interface = lines.map (·.read)) (key : Text) :
    c.interfaceValue key = (lines.filter fun m => assigns key m.text).head?.map lineValue := by
  have hread : (fun line : InterfaceLine => line.hasKV && equalFold line.key key) ∘
      MarkedLine.read = fun m : MarkedLine => assigns key m.text := by
    funext m
    simp [MarkedLine.read, parseInterfaceLine, parseAssignment_trimRightCR, assigns]
  have hvalue : (fun line : InterfaceLine => line.value) ∘ MarkedLine.read = lineValue := by
    funext m
    simp [MarkedLine.read, parseInterfaceLine, parseAssignment_trimRightCR, lineValue]
  rw [Config.interfaceValue, h, List.find?_map, Option.map_map, hread, hvalue, List.head?_filter]

/-- What is read of a key, nothing if there is none. -/
def Config.said (c : Config) (key : Text) (reading : Text → Text) : Text :=
  ((c.interfaceValue key).map reading).getD []

theorem interfaceAddress_said (c : Config) : c.interfaceAddress =
    if c.said (lit "Address") firstAddress = [] then none
    else some (c.said (lit "Address") firstAddress) := by
  rw [Config.interfaceAddress, Config.said]
  cases c.interfaceValue (lit "Address") with
  | none => rfl
  | some value => rfl

theorem listenPort_said (c : Config) : c.listenPort = c.said (lit "ListenPort") id := by
  rw [Config.listenPort, Config.said, Option.map_id]
  rfl

theorem interfaceAddress_inj : c'.interfaceAddress = c.interfaceAddress ↔
    c'.said (lit "Address") firstAddress = c.said (lit "Address") firstAddress := by
  rw [interfaceAddress_said, interfaceAddress_said]
  constructor
  · intro h
    by_cases h₁ : c'.said (lit "Address") firstAddress = []
    · by_cases h₂ : c.said (lit "Address") firstAddress = []
      · rw [h₁, h₂]
      · simp [h₁, h₂] at h
    · by_cases h₂ : c.said (lit "Address") firstAddress = []
      · simp [h₁, h₂] at h
      · simpa [h₁, h₂] using h
  · intro h
    rw [h]

variable (h : c.interface = (sharedLines (interfaceMarked false ms)).map (·.read))
  (h' : c'.interface = (interfaceMarked false ms).map (·.read))
include h h'

theorem interfaceValue_shared (key : Text) :
    c.interfaceValue key = (sharedLines (assigning key ms)).head?.map lineValue ∧
      c'.interfaceValue key = (assigning key ms).head?.map lineValue := by
  refine ⟨?_, interfaceValue_marked h' key⟩
  rw [interfaceValue_marked h, sharedLines, sharedLines, assigning, List.filter_filter,
    List.filter_filter]
  simp only [Bool.and_comm]

theorem said_iff (key : Text) (reading : Text → Text) :
    c'.said key reading = c.said key reading ↔ Unshadowed key reading ms := by
  obtain ⟨hv, hv'⟩ := interfaceValue_shared h h' key
  rw [Config.said, Config.said, hv, hv', Option.map_map, Option.map_map, Unshadowed]
  cases hlines : assigning key ms with
  | nil => simp [sharedLines]
  | cons m rest =>
    by_cases hi : m.inserted = true
    · simp [hi]
    · simp [sharedLines, hi]

end Values

theorem commentedOut_of_mem {inside : Bool} {ms : List MarkedLine} (hms : Insertion inside ms)
    {m : MarkedLine} (hm : m ∈ interfaceMarked inside ms) (hi : m.inserted = true) :
    CommentedOut m.text := by
  induction ms generalizing inside with
  | nil => cases hm
  | cons a ms ih =>
    rw [interfaceMarked_cons] at hm
    rcases List.mem_append.mp hm with hm | hm
    · split at hm
      · rw [List.mem_singleton] at hm
        subst hm
        exact (hms.1 hi).2
      · cases hm
    · exact ih hms.2 hm

/-- No line assigns both an obfuscation field and an address or a port. -/
theorem assigns_awgField {key l : Text} (hkey : key ∈ awgFields) (hout : CommentedOut l) :
    assigns key l = false := by
  by_contra hboth
  rw [Bool.not_eq_false, assigns, Bool.and_eq_true, equalFold, beq_iff_eq] at hboth
  obtain ⟨-, hfold⟩ := hboth
  have hne : key.map lowerASCII ≠ (lit "Address").map lowerASCII ∧
      key.map lowerASCII ≠ (lit "ListenPort").map lowerASCII := by
    revert hkey
    simp only [awgFields, List.map_cons, List.map_nil, List.mem_cons, List.not_mem_nil, or_false]
    rintro (rfl | rfl | rfl | rfl | rfl | rfl | rfl | rfl | rfl | rfl | rfl | rfl | rfl | rfl |
      rfl | rfl) <;> simp only [lit_eq] <;> decide
  rcases hout.key with hk | hk
  · rw [assigns, Bool.and_eq_true, equalFold, beq_iff_eq] at hk
    exact hne.1 (hfold ▸ hk.2)
  · rw [assigns, Bool.and_eq_true, equalFold, beq_iff_eq] at hk
    exact hne.2 (hfold ▸ hk.2)

/-- Commented-out addresses and ports are without effect exactly when, for both keys, none of
them is the first line of its key, or the one that is says what the first shared line says. -/
theorem sameReading_iff {t t' : Text} {c c' : Config} {ms : List MarkedLine}
    (hms : Insertion false ms) (hlines : (scanLines t).1 = (sharedLines ms).map (·.text))
    (hlines' : (scanLines t').1 = ms.map (·.text)) (hc : parseConfig t = .ok c)
    (hc' : parseConfig t' = .ok c') :
    SameReading c c' ↔ Unshadowed (lit "Address") firstAddress ms ∧
      Unshadowed (lit "ListenPort") id ms := by
  obtain ⟨h, h', hpeers⟩ := parseConfig_insertion hms hlines hlines' hc hc'
  rw [← said_iff h h', ← said_iff h h', ← interfaceAddress_inj, ← listenPort_said,
    ← listenPort_said]
  constructor
  · intro hsame
    exact ⟨hsame.address, hsame.listenPort⟩
  · rintro ⟨haddress, hport⟩
    have hfields : ∀ key ∈ awgFields, c'.interfaceValue key = c.interfaceValue key := by
      intro key hkey
      obtain ⟨hv, hv'⟩ := interfaceValue_shared h h' key
      rw [hv, hv', sharedLines, List.filter_eq_self.mpr]
      intro m hm
      obtain ⟨hmem, hassigns⟩ := List.mem_filter.mp hm
      by_contra hi
      have hout := commentedOut_of_mem hms hmem (by simpa using hi)
      rw [assigns_awgField hkey hout] at hassigns
      cases hassigns
    refine ⟨haddress, hport, ?_, fun extraUsed => ?_, fun params => ?_⟩
    · rw [Config.validate, Config.validate, haddress, hport, hpeers]
    · rw [allocateFreeIPv4, allocateFreeIPv4, haddress]
      simp only [usedAddrs, hpeers]
    · have hlist : awgFields.filterMap (fun key => (c'.interfaceValue key).map fun value =>
          key ++ lit " = " ++ value ++ ['\n']) = awgFields.filterMap fun key =>
            (c.interfaceValue key).map fun value => key ++ lit " = " ++ value ++ ['\n'] :=
        List.filterMap_congr fun key hkey => by rw [hfields key hkey]
      rw [renderClientConfig, renderClientConfig, hport, hlist]

/-- A config with an old address and an old port commented out below those in force. -/
def movedLines : List MarkedLine :=
  [⟨lit "[Interface]", false⟩, ⟨lit "Address = 10.8.1.1/24", false⟩,
    ⟨lit "# Address = 10.9.0.1/24", true⟩, ⟨lit "ListenPort = 51820", false⟩,
    ⟨lit "# ListenPort = 49351", true⟩]

def markedText (ms : List MarkedLine) : Text := unlines '\n' (ms.map (·.text))

/-- The config of interface lines without peers. -/
def markedConfig (ms : List MarkedLine) : Config := { interface := ms.map (·.read) }

theorem sameReading_iff_moved :
    SameReading (markedConfig (sharedLines movedLines.tail)) (markedConfig movedLines.tail) ↔
      Unshadowed (lit "Address") firstAddress movedLines ∧
        Unshadowed (lit "ListenPort") id movedLines := by
  have hlines : (scanLines (markedText (sharedLines movedLines))).1 =
      (sharedLines movedLines).map (·.text) := by decide +kernel
  have hlines' : (scanLines (markedText movedLines)).1 = movedLines.map (·.text) := by
    decide +kernel
  exact sameReading_iff (by decide +kernel) hlines hlines' (by decide +kernel) (by decide +kernel)

/-- The same lines with the old ones on top. -/
def shadowedLines : List MarkedLine :=
  [⟨lit "[Interface]", false⟩, ⟨lit "# Address = 10.9.0.1/24", true⟩,
    ⟨lit "Address = 10.8.1.1/24", false⟩, ⟨lit "# ListenPort = 49351", true⟩,
    ⟨lit "ListenPort = 51820", false⟩]

/-- Then the agent takes both from the comments. -/
theorem comments_read : Insertion false shadowedLines ∧
    (scanLines (markedText (sharedLines shadowedLines))).1 =
      (sharedLines shadowedLines).map (·.text) ∧
    (scanLines (markedText shadowedLines)).1 = shadowedLines.map (·.text) ∧
    parseConfig (markedText (sharedLines shadowedLines)) =
      .ok (markedConfig (sharedLines shadowedLines.tail)) ∧
    parseConfig (markedText shadowedLines) = .ok (markedConfig shadowedLines.tail) ∧
    (markedConfig shadowedLines.tail).interfaceAddress = some (lit "10.9.0.1/24") ∧
    (markedConfig shadowedLines.tail).listenPort = lit "49351" ∧
    ¬SameReading (markedConfig (sharedLines shadowedLines.tail))
      (markedConfig shadowedLines.tail) := by
  refine ⟨by decide +kernel, by decide +kernel, by decide +kernel, by decide +kernel,
    by decide +kernel, by decide +kernel, by decide +kernel, fun h => ?_⟩
  have haddress := h.address
  revert haddress
  decide +kernel

end VpnControl.Awg
