import VpnControl.Lib.Json
import Mathlib.Data.List.TakeDrop

namespace Json

/-- A literal that the number scanner reads as a whole. -/
structure Number (literal : List Char) : Prop where
  grammar : isNumber literal = true
  chars : ∀ c ∈ literal, numChar c = true

/-- Every number in the document is a number literal. -/
inductive Doc.Valid : Doc → Prop
  | null : Valid .null
  | bool (b : Bool) : Valid (.bool b)
  | num {literal : List Char} (h : Number literal) : Valid (.num literal)
  | str (s : List Char) : Valid (.str s)
  | arr {xs : List Doc} (h : ∀ x ∈ xs, Valid x) : Valid (.arr xs)
  | obj {ms : List (List Char × Doc)} (h : ∀ m ∈ ms, Valid m.2) : Valid (.obj ms)

/-- A document with number literals only for numbers, nested no deeper than `n`. -/
structure Doc.Plain (n : Nat) (j : Doc) : Prop where
  valid : j.Valid
  depth : depth j ≤ n

theorem Doc.Plain.str (n : Nat) (s : List Char) : (Doc.str s).Plain n := ⟨.str s, Nat.zero_le n⟩

theorem Doc.Plain.num (n : Nat) {literal : List Char} (h : Number literal) :
    (Doc.num literal).Plain n := ⟨.num h, Nat.zero_le n⟩

theorem depth_le_elems {x : Doc} {xs : List Doc} (h : x ∈ xs) : depth x ≤ depthElems xs := by
  induction xs with
  | nil => simp at h
  | cons y xs ih =>
    rw [depthElems]
    rcases List.mem_cons.mp h with rfl | h
    · exact Nat.le_max_left _ _
    · exact Nat.le_trans (ih h) (Nat.le_max_right _ _)

theorem depth_le_members {m : List Char × Doc} {ms : List (List Char × Doc)} (h : m ∈ ms) :
    depth m.2 ≤ depthMembers ms := by
  induction ms with
  | nil => simp at h
  | cons y ms ih =>
    rw [depthMembers]
    rcases List.mem_cons.mp h with rfl | h
    · exact Nat.le_max_left _ _
    · exact Nat.le_trans (ih h) (Nat.le_max_right _ _)

theorem depthElems_le {xs : List Doc} {n : Nat} (h : ∀ x ∈ xs, depth x ≤ n) :
    depthElems xs ≤ n := by
  induction xs with
  | nil => exact Nat.zero_le n
  | cons x xs ih =>
    rw [depthElems]
    exact Nat.max_le.mpr ⟨h x (by simp), ih fun y hy => h y (by simp [hy])⟩

theorem depthMembers_le {ms : List (List Char × Doc)} {n : Nat} (h : ∀ m ∈ ms, depth m.2 ≤ n) :
    depthMembers ms ≤ n := by
  induction ms with
  | nil => exact Nat.zero_le n
  | cons m ms ih =>
    rw [depthMembers]
    exact Nat.max_le.mpr ⟨h m (by simp), ih fun y hy => h y (by simp [hy])⟩

theorem Doc.Plain.arr {n : Nat} {xs : List Doc} (h : ∀ x ∈ xs, x.Plain n) :
    (Doc.arr xs).Plain (n + 1) := by
  refine ⟨.arr fun x hx => (h x hx).valid, ?_⟩
  rw [Json.depth]
  exact Nat.succ_le_succ (depthElems_le fun x hx => (h x hx).depth)

theorem Doc.Plain.obj {n : Nat} {ms : List (List Char × Doc)} (h : ∀ m ∈ ms, m.2.Plain n) :
    (Doc.obj ms).Plain (n + 1) := by
  refine ⟨.obj fun m hm => (h m hm).valid, ?_⟩
  rw [Json.depth]
  exact Nat.succ_le_succ (depthMembers_le fun m hm => (h m hm).depth)

theorem Doc.Plain.members {n : Nat} {ms : List (List Char × Doc)} (h : (Doc.obj ms).Plain (n + 1)) :
    ∀ m ∈ ms, m.2.Plain n := by
  intro m hm
  have hd := h.depth
  rw [Json.depth] at hd
  cases h.valid with
  | obj hv => exact ⟨hv m hm, Nat.le_trans (depth_le_members hm) (Nat.le_of_succ_le_succ hd)⟩

section Strings
variable {st : Style}

theorem hexVal_hexChar {d : Nat} (h : d < 16) : hexVal (hexChar d) = some d := by
  have hall : ∀ d < 16, hexVal (hexChar d) = some d := by decide
  exact hall d h

theorem parseString_hex {n : Nat} (hn : n < 65536) (hs : isSurrogate n = false) (t : List Char) :
    parseString none ('\\' :: 'u' :: hex4 n ++ t) =
      (parseString none t).map fun r => (Char.ofNat n :: r.1, r.2) := by
  have hval : n / 4096 % 16 * 4096 + n / 256 % 16 * 256 + n / 16 % 16 * 16 + n % 16 = n := by omega
  simp only [hex4, List.cons_append, List.nil_append, parseString, hexVal4,
    hexVal_hexChar (Nat.mod_lt _ (by omega : 0 < 16)), Option.bind_eq_bind, Option.bind_some, hval]
  simp [hs, flush]

theorem parseString_plain {c : Char} (hq : c ≠ '"') (hb : c ≠ '\\') (hc : ¬c.toNat < 32)
    (t : List Char) :
    parseString none (c :: t) = (parseString none t).map fun r => (c :: r.1, r.2) := by
  rw [parseString.eq_def]
  split
  · simp_all
  · simp_all
  · simp_all
  · simp_all
  · rename_i c' s _ _ _ heq
    obtain ⟨rfl, rfl⟩ := List.cons.inj heq
    rw [if_neg (by simp [hb]; omega)]
    simp [flush]

/-- One escaped character is read back as itself. -/
theorem parseString_escapeChar (c : Char) (t : List Char) :
    parseString none (escapeChar st c ++ t) =
      (parseString none t).map fun r => (c :: r.1, r.2) := by
  have hcontrol : ∀ n, c.toNat = n → Char.ofNat n = c := fun n h => h ▸ Char.ofNat_toNat c
  rw [escapeChar]
  split_ifs with h₁ h₂ h₃ h₄ h₅ h₆ h₇ h₈
  · simp [parseString, simpleEscape, flush, h₁]
  · simp [parseString, simpleEscape, flush, h₂]
  · rw [← hcontrol 8 h₃]
    rfl
  · rw [← hcontrol 12 h₄]
    rfl
  · simp [parseString, simpleEscape, flush, h₅]
  · simp [parseString, simpleEscape, flush, h₆]
  · simp [parseString, simpleEscape, flush, h₇]
  · have hn : c.toNat < 0x2030 := by
      simp only [needsHex, Bool.or_eq_true, decide_eq_true_eq, beq_iff_eq, Bool.and_eq_true] at h₈
      rcases h₈ with ((h | h) | h) | ⟨-, (rfl | rfl) | rfl⟩
      · omega
      · omega
      · omega
      · decide
      · decide
      · decide
    rw [parseString_hex (by omega) (by simp [isSurrogate]; omega), hcontrol _ rfl]
  · apply parseString_plain h₁ h₂
    intro hlt
    simp [needsHex, hlt] at h₈

theorem parseString_print (s t : List Char) :
    parseString none (s.flatMap (escapeChar st) ++ '"' :: t) = some (s, t) := by
  induction s with
  | nil => simp [parseString, flush]
  | cons c s ih => rw [List.flatMap_cons, List.append_assoc, parseString_escapeChar, ih]; rfl

end Strings

section Layout

/-- Blanks only. -/
def Blank (w : List Char) : Prop := ∀ c ∈ w, isBlank c = true

theorem skip_append {w s : List Char} (hw : Blank w) : skip (w ++ s) = skip s := by
  induction w with
  | nil => rfl
  | cons c w ih =>
    have hc : isBlank c = true := hw c (by simp)
    simpa [skip, hc] using ih fun d hd => hw d (by simp [hd])

theorem skip_cons {c : Char} {s : List Char} (hc : isBlank c = false) : skip (c :: s) = c :: s := by
  simp [skip, hc]

theorem blank_newline (st : Style) (level : Nat) : Blank (newline st level) := by
  intro c hc
  rw [newline] at hc
  split at hc
  · simp at hc
  · rcases List.mem_cons.mp hc with rfl | hc
    · rfl
    · rw [List.eq_of_mem_replicate hc]
      rfl

/-- A number ends where such a text begins. -/
def NumStop (s : List Char) : Prop := ∀ c ∈ s.head?, numChar c = false

theorem numStop_blank {w s : List Char} (hw : Blank w) (hs : NumStop s) : NumStop (w ++ s) := by
  cases w with
  | nil => exact hs
  | cons c w =>
    intro d hd
    have hdc : d = c := by simpa using hd.symm
    have hc := hw c (by simp)
    simp only [isBlank, Bool.or_eq_true, beq_iff_eq] at hc
    rw [hdc]
    rcases hc with ((rfl | rfl) | rfl) | rfl <;> decide

variable {α : Type} {p : List Char → Option (α × List Char)} {f : α → List Char}

/-- `p` reads back what `f` writes of `x`, behind blanks and in front of a text that ends a
number. -/
def Reads (p : List Char → Option (α × List Char)) (f : α → List Char) (x : α) : Prop :=
  ∀ w rest, Blank w → NumStop rest → p (w ++ f x ++ rest) = some (x, rest)

theorem items_intercalate {right : Char} (hblank : isBlank right = false)
    (hcomma : ',' ≠ right) (hstop : numChar right = false)
    {sep tail : List Char} (hsep : Blank sep) (htail : Blank tail) {x : α} {xs : List α}
    (h : ∀ y ∈ x :: xs, Reads p f y) {n : Nat} (hn : xs.length < n) {w : List Char}
    (hw : Blank w) (rest : List Char) :
    items p right n (w ++ (',' :: sep).intercalate ((x :: xs).map f) ++ (tail ++ right :: rest)) =
      some (x :: xs, rest) := by
  induction xs generalizing x n w with
  | nil =>
    obtain ⟨n, rfl⟩ := Nat.exists_eq_succ_of_ne_zero (by omega : n ≠ 0)
    have hx := h x (by simp) w (tail ++ right :: rest) hw
      (numStop_blank htail (by intro c hc; rw [← Option.some.inj hc]; exact hstop))
    simp only [List.map_cons, List.map_nil, List.intercalate_singleton, items, hx,
      skip_append htail, skip_cons hblank, if_true]
  | cons y xs ih =>
    obtain ⟨n, rfl⟩ := Nat.exists_eq_succ_of_ne_zero (by omega : n ≠ 0)
    have hsplit : (',' :: sep).intercalate ((x :: y :: xs).map f) =
        f x ++ ',' :: (sep ++ (',' :: sep).intercalate ((y :: xs).map f)) := by simp
    have hx := h x (by simp) w
      (',' :: (sep ++ (',' :: sep).intercalate ((y :: xs).map f)) ++ (tail ++ right :: rest)) hw
      (by intro c hc; rw [← Option.some.inj hc]; decide)
    have hrest := ih (fun z hz => h z (by simp [hz])) (x := y) (n := n)
      (by simpa using hn) hsep
    rw [hsplit, List.append_assoc, List.append_assoc, ← List.append_assoc w, items, hx]
    simp only [List.cons_append, skip_cons (show isBlank ',' = false by decide), if_neg hcomma,
      if_true, hrest, Option.map_some]

theorem length_intercalate_le (sep : List Char) (hsep : sep ≠ []) (ls : List (List Char)) :
    ls.length ≤ (sep.intercalate ls).length + 1 := by
  induction ls with
  | nil => simp
  | cons l ls ih =>
    cases ls with
    | nil => simp
    | cons m ls =>
      have hpos : 0 < sep.length := List.length_pos_of_ne_nil hsep
      rw [List.intercalate_cons_cons]
      simp only [List.length_cons, List.length_append] at ih ⊢
      omega

/-- A bracketed list is read back. -/
theorem bracketed_brackets (st : Style) (level : Nat) (left : Char) {right : Char}
    (hblank : isBlank right = false) (hcomma : ',' ≠ right) (hstop : numChar right = false)
    {xs : List α} (h : ∀ y ∈ xs, Reads p f y)
    (hhead : ∀ y ∈ xs, ∃ c s, f y = c :: s ∧ isBlank c = false ∧ c ≠ right)
    (rest : List Char) :
    ∃ s, brackets st level left right (xs.map f) ++ rest = left :: s ∧
      bracketed p right s = some (xs, rest) := by
  cases xs with
  | nil =>
    refine ⟨right :: rest, rfl, ?_⟩
    simp only [bracketed, skip_cons hblank, if_true]
  | cons x xs =>
    refine ⟨newline st (level + 1) ++
      (',' :: newline st (level + 1)).intercalate ((x :: xs).map f) ++
      (newline st level ++ right :: rest), ?_, ?_⟩
    · simp [brackets]
    · obtain ⟨c, s, hc, hcb, hcr⟩ := hhead x (by simp)
      have hskip : ∃ t, skip (newline st (level + 1) ++
          (',' :: newline st (level + 1)).intercalate ((x :: xs).map f) ++
          (newline st level ++ right :: rest)) = c :: t := by
        rw [List.append_assoc, skip_append (blank_newline st _)]
        cases xs with
        | nil => exact ⟨_, by simp only [List.map_cons, List.map_nil, List.intercalate_singleton, hc,
            List.cons_append, skip_cons hcb]; rfl⟩
        | cons y ys => exact ⟨_, by simp only [List.map_cons, List.intercalate_cons_cons, hc,
            List.cons_append, skip_cons hcb]; rfl⟩
      obtain ⟨t, ht⟩ := hskip
      rw [bracketed, ht]
      simp only [if_neg hcr]
      apply items_intercalate hblank hcomma hstop (blank_newline st _) (blank_newline st _) h _
        (blank_newline st _)
      have hlen := length_intercalate_le (',' :: newline st (level + 1)) (by simp) ((x :: xs).map f)
      simp only [List.length_append, List.length_cons, List.length_map] at hlen ⊢
      omega

end Layout

section Value
variable (st : Style)

theorem number_head {literal : List Char} (h : Number literal) :
    ∃ c s, literal = c :: s ∧ (isDigit c = true ∨ c = '-') := by
  have hg := h.grammar
  match literal with
  | [] => simp [isNumber, isUnsigned] at hg
  | '-' :: s => exact ⟨'-', s, rfl, .inr rfl⟩
  | c :: s =>
    by_cases hm : c = '-'
    · exact ⟨c, s, rfl, .inr hm⟩
    · by_cases h0 : c = '0'
      · exact ⟨c, s, rfl, .inl (by rw [h0]; rfl)⟩
      · refine ⟨c, s, rfl, .inl ?_⟩
        rw [isNumber.eq_def] at hg
        split at hg
        · rename_i heq
          exact absurd (List.cons.inj heq).1 hm
        · rw [isUnsigned.eq_def] at hg
          split at hg
          · rename_i heq
            exact absurd (List.cons.inj heq).1 h0
          · rename_i heq
            rw [(List.cons.inj heq).1]
            exact (Bool.and_eq_true_iff.mp hg).1
          · rename_i heq
            cases heq

/-- A printed value starts with a character that no bracket and no blank is. -/
theorem print_head {j : Doc} (hj : j.Valid) (level : Nat) :
    ∃ c s, print st level j = c :: s ∧ isBlank c = false ∧ c ≠ ']' := by
  have hbrackets : ∀ (left right : Char) (items : List (List Char)),
      ∃ s, brackets st level left right items = left :: s := by
    intro left right items
    rw [brackets]
    split
    · exact ⟨_, rfl⟩
    · exact ⟨_, rfl⟩
  cases hj with
  | null => exact ⟨_, _, by rw [print], by decide, by decide⟩
  | bool b => cases b <;> exact ⟨_, _, by rw [print], by decide, by decide⟩
  | str s => exact ⟨_, _, by rw [print, printString], by decide, by decide⟩
  | num h =>
    obtain ⟨c, s, rfl, hc⟩ := number_head h
    refine ⟨c, s, by rw [print], ?_, ?_⟩
    · by_contra hb
      simp only [isBlank, Bool.not_eq_false, Bool.or_eq_true, beq_iff_eq] at hb
      rcases hb with ((rfl | rfl) | rfl) | rfl <;> revert hc <;> decide
    · rintro rfl
      revert hc
      decide
  | arr h =>
    obtain ⟨s, hs⟩ := hbrackets '[' ']' (printElems st (level + 1) _)
    exact ⟨_, s, by rw [print, hs], by decide, by decide⟩
  | obj h =>
    obtain ⟨s, hs⟩ := hbrackets '{' '}' (printMembers st (level + 1) _)
    exact ⟨_, s, by rw [print, hs], by decide, by decide⟩

theorem scalar_number {literal : List Char} (h : Number literal) {rest : List Char}
    (hrest : NumStop rest) : scalar (literal ++ rest) = some (.num literal, rest) := by
  obtain ⟨c, s, rfl, hc⟩ := number_head h
  have hne : ∀ d, isDigit d = false ∧ d ≠ '-' → c ≠ d := by
    rintro d ⟨hd, hm⟩ rfl
    rcases hc with hc | hc
    · simp [hc] at hd
    · exact hm hc
  have hspan : (c :: s ++ rest).span numChar = (c :: s, rest) := by
    rw [List.span_eq_takeWhile_dropWhile, List.takeWhile_append_of_pos h.chars,
      List.dropWhile_append_of_pos h.chars]
    cases rest with
    | nil => simp
    | cons d rest =>
      have hd := hrest d (by simp)
      simp [hd]
  rw [scalar.eq_def]
  split
  · rename_i heq
    exact absurd (List.cons.inj heq).1 (hne _ (by decide))
  · rename_i heq
    exact absurd (List.cons.inj heq).1 (hne _ (by decide))
  · rename_i heq
    exact absurd (List.cons.inj heq).1 (hne _ (by decide))
  · rename_i heq
    exact absurd (List.cons.inj heq).1 (hne _ (by decide))
  · rw [hspan]
    simp [h.grammar]

theorem valueWith_skip (nested : List Char → Option (Doc × List Char)) {w : List Char}
    (hw : Blank w) (s : List Char) : valueWith nested (w ++ s) = valueWith nested s := by
  simp only [valueWith, skip_append hw]

/-- What begins with no bracket is read at any depth. -/
theorem value_scalar (d : Nat) {w : List Char} (hw : Blank w) {c : Char}
    (hc : isBlank c = false ∧ c ≠ '[' ∧ c ≠ '\x7b') (s : List Char) :
    value d (w ++ c :: s) = scalar (c :: s) := by
  obtain ⟨hblank, harr, hobj⟩ := hc
  cases d with
  | zero => rw [value, skip_append hw, skip_cons hblank]
  | succ d =>
    rw [value, valueWith_skip _ hw, valueWith, skip_cons hblank]
    split
    · rename_i heq
      exact absurd (List.cons.inj heq).1 harr
    · rename_i heq
      exact absurd (List.cons.inj heq).1 hobj
    · rfl

theorem parseMember_print {p : List Char → Option (Doc × List Char)} {level : Nat}
    {m : List Char × Doc} (h : Reads p (print st level) m.2) :
    Reads (parseMember p) (printMember st level) m := by
  intro w rest hw hrest
  have hkey : printMember st level m ++ rest =
      '"' :: (m.1.flatMap (escapeChar st) ++ '"' ::
        (colon st ++ print st level m.2 ++ rest)) := by
    simp [printMember, printString]
  have hcolon : ∃ v, colon st ++ print st level m.2 ++ rest = ':' :: (v ++ print st level m.2 ++ rest) ∧
      Blank v := by
    rw [colon]
    split
    · exact ⟨[], rfl, by simp [Blank]⟩
    · exact ⟨[' '], rfl, by simp [Blank, isBlank]⟩
  obtain ⟨v, hv, hvb⟩ := hcolon
  rw [List.append_assoc, hkey, hv, parseMember, skip_append hw, skip_cons (by decide)]
  simp only [parseString_print, Option.bind_eq_bind, Option.bind_some,
    skip_cons (show isBlank ':' = false by decide), h v rest hvb hrest, Option.map_some]

/-- Every valid document is read back from its printed text. -/
theorem value_print {j : Doc} (hj : j.Valid) :
    ∀ d, depth j ≤ d → ∀ level, Reads (value d) (print st level) j := by
  -- over the tree; an array or an object takes one level of the depth that is left
  induction j using Doc.induct with
  | null =>
    intro d _ level w rest hw _
    rw [print, List.append_assoc, List.cons_append, value_scalar d hw (by decide)]
    rfl
  | bool b =>
    intro d _ level w rest hw _
    cases b with
    | true =>
      rw [print, List.append_assoc, List.cons_append, value_scalar d hw (by decide)]
      rfl
    | false =>
      rw [print, List.append_assoc, List.cons_append, value_scalar d hw (by decide)]
      rfl
  | num literal =>
    intro d _ level w rest hw hrest
    cases hj with
    | num h =>
      obtain ⟨c, s, rfl, hc⟩ := number_head h
      have hstart : isBlank c = false ∧ c ≠ '[' ∧ c ≠ '\x7b' := by
        refine ⟨?_, ?_, ?_⟩
        · by_contra hb
          simp only [isBlank, Bool.not_eq_false, Bool.or_eq_true, beq_iff_eq] at hb
          rcases hb with ((rfl | rfl) | rfl) | rfl <;> revert hc <;> decide
        · rintro rfl
          revert hc
          decide
        · rintro rfl
          revert hc
          decide
      -- a number ends where what follows no longer belongs to it
      rw [print, List.append_assoc, List.cons_append, value_scalar d hw hstart,
        ← List.cons_append, scalar_number h hrest]
  | str s =>
    intro d _ level w rest hw _
    have hprint : print st level (.str s) ++ rest =
        '"' :: (s.flatMap (escapeChar st) ++ '"' :: rest) := by simp [print, printString]
    rw [List.append_assoc, hprint, value_scalar d hw (by decide), scalar]
    simp only [parseString_print, Option.map_some]
  | arr xs ih =>
    intro d hd level w rest hw _
    cases hj with
    | arr h =>
      rw [depth] at hd
      obtain ⟨d, rfl⟩ := Nat.exists_eq_succ_of_ne_zero (by omega : d ≠ 0)
      have hread : ∀ x ∈ xs, Reads (value d) (print st (level + 1)) x := fun x hx =>
        ih x hx (h x hx) d (by have := depth_le_elems hx; omega) (level + 1)
      obtain ⟨s, hs, hb⟩ := bracketed_brackets st level '[' (by decide : isBlank ']' = false)
        (by decide) (by decide) hread (fun x hx => print_head st (h x hx) (level + 1)) rest
      rw [print, printElems_eq, List.append_assoc, hs, value, valueWith_skip _ hw, valueWith,
        skip_cons (by decide)]
      simp only [hb, Option.map_some]
  | obj ms ih =>
    intro d hd level w rest hw _
    cases hj with
    | obj h =>
      rw [depth] at hd
      obtain ⟨d, rfl⟩ := Nat.exists_eq_succ_of_ne_zero (by omega : d ≠ 0)
      have hread : ∀ m ∈ ms, Reads (parseMember (value d)) (printMember st (level + 1)) m :=
        fun m hm => parseMember_print st
          (ih m hm (h m hm) d (by have := depth_le_members hm; omega) (level + 1))
      obtain ⟨s, hs, hb⟩ := bracketed_brackets st level '{' (by decide : isBlank '}' = false)
        (by decide) (by decide) hread
        (fun m _ => ⟨'"', _, by simp only [printMember, printString, List.cons_append]; rfl,
          by decide, by decide⟩) rest
      rw [print, printMembers_eq, List.append_assoc, hs, value, valueWith_skip _ hw, valueWith,
        skip_cons (by decide)]
      simp only [hb, Option.map_some]

/-- Printing and parsing are inverse on valid documents that are not nested too deep, with
blanks after the text. -/
theorem parse_print {j : Doc} (hj : j.Valid) (hd : depth j ≤ maxNestingDepth) (level : Nat)
    {tail : List Char} (htail : Blank tail) : parse (print st level j ++ tail) = some j := by
  have hstop : NumStop tail := by
    have := numStop_blank htail (s := []) (by simp [NumStop])
    simpa using this
  have h := value_print st hj _ hd level [] tail (by simp [Blank]) hstop
  rw [List.nil_append] at h
  have hskip : skip tail = [] := by
    have := skip_append htail (s := [])
    simpa [skip] using this
  rw [parse, h]
  simp only [hskip, if_true]

end Value

section Depth
variable {α : Type} {p : List Char → Option (α × List Char)} {Q : α → Prop} {right : Char}

theorem items_all (hp : ∀ s x rest, p s = some (x, rest) → Q x) {n : Nat} {s rest : List Char}
    {xs : List α} (h : items p right n s = some (xs, rest)) : ∀ x ∈ xs, Q x := by
  induction n generalizing s xs with
  | zero => cases h
  | succ n ih =>
    rw [items] at h
    split at h
    · cases h
    · rename_i x t hx
      split at h
      · cases h
      · split at h
        · cases h
          exact List.forall_mem_singleton.mpr (hp s x t hx)
        · split at h
          · obtain ⟨⟨ys, u⟩, hys, heq⟩ := Option.map_eq_some_iff.mp h
            cases heq
            exact List.forall_mem_cons.mpr ⟨hp s x t hx, ih hys⟩
          · cases h

theorem bracketed_all (hp : ∀ s x rest, p s = some (x, rest) → Q x) {s rest : List Char}
    {xs : List α} (h : bracketed p right s = some (xs, rest)) : ∀ x ∈ xs, Q x := by
  rw [bracketed] at h
  split at h
  · cases h
  · split at h
    · cases h
      exact List.forall_mem_nil _
    · exact items_all hp h

theorem parseMember_all {Q : α → Prop} (hp : ∀ s x rest, p s = some (x, rest) → Q x)
    {s rest : List Char} {m : List Char × α} (h : parseMember p s = some (m, rest)) : Q m.2 := by
  rw [parseMember.eq_def] at h
  split at h
  · simp only [Option.bind_eq_bind, Option.bind_eq_some_iff] at h
    obtain ⟨⟨k, t⟩, -, h⟩ := h
    split at h
    · obtain ⟨⟨x, u⟩, hx, heq⟩ := Option.map_eq_some_iff.mp h
      cases heq
      exact hp _ _ _ hx
    · cases h
  · cases h

theorem depth_scalar {s rest : List Char} {j : Doc} (h : scalar s = some (j, rest)) :
    depth j = 0 := by
  rw [scalar.eq_def] at h
  split at h
  · obtain ⟨r, -, heq⟩ := Option.map_eq_some_iff.mp h
    cases heq
    rfl
  · cases h
    rfl
  · cases h
    rfl
  · cases h
    rfl
  · simp only at h
    split at h
    · cases h
      rfl
    · cases h

/-- What is read with a depth is nested no deeper. -/
theorem depth_value {d : Nat} {s rest : List Char} {j : Doc} (h : value d s = some (j, rest)) :
    depth j ≤ d := by
  induction d generalizing s j rest with
  | zero => exact Nat.le_of_eq (depth_scalar h)
  | succ d ih =>
    have hnested : ∀ s j rest, value d s = some (j, rest) → depth j ≤ d := fun _ _ _ => ih
    rw [value, valueWith.eq_def] at h
    split at h
    · obtain ⟨⟨xs, t⟩, hxs, heq⟩ := Option.map_eq_some_iff.mp h
      cases heq
      rw [depth]
      exact Nat.succ_le_succ (depthElems_le (bracketed_all hnested hxs))
    · obtain ⟨⟨ms, t⟩, hms, heq⟩ := Option.map_eq_some_iff.mp h
      cases heq
      rw [depth]
      exact Nat.succ_le_succ (depthMembers_le
        (bracketed_all (fun _ _ _ hm => parseMember_all hnested hm) hms))
    · exact depth_scalar h ▸ Nat.zero_le _

theorem depth_parse {s : List Char} {j : Doc} (h : parse s = some j) :
    depth j ≤ maxNestingDepth := by
  rw [parse] at h
  split at h
  · rename_i hvalue
    split at h
    · cases h
      exact depth_value hvalue
    · cases h
  · cases h

end Depth
end Json
