import VpnControl.Lib.Trim
import Mathlib.Data.List.Infix
import Mathlib.Algebra.GroupWithZero.Nat

namespace VpnControl

/-- A string of the program: its Unicode code points. -/
abbrev Text := List Char

instance : LawfulBEq Text := List.instLawfulBEq

/-- A string literal of the program. Sealed, so that no proof unfolds its characters
by accident. -/
@[irreducible] def lit (s : String) : Text := s.toList

theorem lit_eq (s : String) : lit s = s.toList := by
  unfold lit
  rfl

@[simp] theorem lit_inj {s t : String} : lit s = lit t ↔ s = t := by
  simp [lit_eq, String.toList_inj]

namespace Strings
open Trim

/-- `unicode.IsSpace`. -/
def isSpace (c : Char) : Bool :=
  let n := c.toNat
  (9 ≤ n && n ≤ 13) || n == 0x20 || n == 0x85 || n == 0xA0 || n == 0x1680 ||
    (0x2000 ≤ n && n ≤ 0x200A) || n == 0x2028 || n == 0x2029 || n == 0x202F || n == 0x205F ||
    n == 0x3000

def trimSpace (s : Text) : Text := trim isSpace s

/-- `strings.TrimRight(s, "\r")`. -/
def trimRightCR (s : Text) : Text := s.rdropWhile (· == '\r')

/-- `strings.TrimPrefix`. -/
def trimPrefix (p s : Text) : Text := if p <+: s then s.drop p.length else s

/-- `strings.TrimSuffix`. -/
def trimSuffix (p s : Text) : Text := if p <:+ s then s.take (s.length - p.length) else s

/-- `strings.Join`. -/
def join (parts : List Text) (sep : Text) : Text := sep.intercalate parts

def isASCII (c : Char) : Bool := c.toNat < 128

/-- `upper` of an ASCII word. -/
def upper (s : Text) : Text := s.map Char.toUpper

/-- The bytes of a string. -/
def utf8 (s : Text) : List UInt8 := s.flatMap String.utf8EncodeChar

def lowerASCII (c : Char) : Char :=
  if 'A' ≤ c ∧ c ≤ 'Z' then Char.ofNat (c.toNat + 32) else c

/-- `unicode.ToLower` as far as a comparison with an ASCII word can see it: besides
A–Z only U+0130 and the Kelvin sign have a lower case letter in ASCII. -/
def toLower (s : Text) : Text :=
  s.map fun c => if c = '\u0130' then 'i' else if c = '\u212A' then 'k' else lowerASCII c

/-- `strings.EqualFold` with an ASCII word `t`: besides the two cases of a letter, the
long s folds to `s` and the Kelvin sign to `k`. -/
def equalFold (s t : Text) : Bool :=
  s.map (fun c => if c = '\u017F' then 's' else if c = '\u212A' then 'k' else lowerASCII c) ==
    t.map lowerASCII

/-- The first of the values that is not blank, trimmed. -/
def firstNonEmpty (values : List Text) : Text :=
  ((values.map trimSpace).find? (· ≠ [])).getD []

/-- The length of a string in bytes. -/
def utf8Len (s : Text) : Nat := (s.map Char.utf8Size).sum

/-- `bufio.MaxScanTokenSize`. -/
def maxTokenSize : Nat := 64 * 1024

/-- `bufio.ScanLines` drops one carriage return from the end of a line. -/
def dropCR (l : Text) : Text := if l.getLast? = some '\r' then l.dropLast else l

/-- The lines of a text, without their `\n`; a last line may lack it. -/
def rawLines (input : Text) : List Text :=
  let ls := input.splitOn '\n'
  if ls.getLast? = some [] then ls.dropLast else ls

def tokenFits (l : Text) : Bool := utf8Len l < maxTokenSize

/-- What a `bufio.Scanner` hands out line by line, and whether it then stopped with
`ErrTooLong` instead of reaching the end. -/
def scanLines (input : Text) : List Text × Bool :=
  let (short, rest) := (rawLines input).span tokenFits
  (short.map dropCR, !rest.isEmpty)

/-- No line reaches the scanner's limit. -/
def LinesFit (input : Text) : Prop := ∀ l ∈ rawLines input, tokenFits l = true

instance (input : Text) : Decidable (LinesFit input) :=
  inferInstanceAs (Decidable (∀ l ∈ rawLines input, tokenFits l = true))

theorem trimSpace_append_cons {a w : Text} {c : Char} (hc : isSpace c = false) :
    trimSpace (a ++ c :: w) = a.dropWhile isSpace ++ c :: w.rdropWhile isSpace :=
  trim_append_cons hc

theorem trimSpace_idem (s : Text) : trimSpace (trimSpace s) = trimSpace s := trimmed_trim isSpace s

theorem isSpace_graphic {c : Char} (hlo : '!' ≤ c) (hhi : c ≤ '~') : isSpace c = false := by
  have h₁ : 33 ≤ c.toNat := hlo
  have h₂ : c.toNat ≤ 126 := hhi
  simp only [isSpace, Bool.or_eq_false_iff, Bool.and_eq_false_iff, decide_eq_false_iff_not,
    beq_eq_false_iff_ne]
  omega

/-- Letters and digits are between `0` and `z`. -/
theorem range_of_isAlphanum {c : Char} (h : c.isAlphanum = true) :
    48 ≤ c.toNat ∧ c.toNat ≤ 122 := by
  have hrange : ((decide (65 ≤ c.toNat ∧ c.toNat ≤ 90) ||
      decide (97 ≤ c.toNat) && decide (c.toNat ≤ 122)) ||
      decide (48 ≤ c.toNat) && decide (c.toNat ≤ 57)) = true := h
  simp only [Bool.or_eq_true, Bool.and_eq_true, decide_eq_true_eq] at hrange
  omega

theorem isSpace_cr : isSpace '\r' = true := rfl

theorem trimSpace_trimRightCR (s : Text) : trimSpace (trimRightCR s) = trimSpace s := by
  induction s using List.reverseRecOn with
  | nil => rfl
  | append_singleton s c ih =>
    by_cases hc : c = '\r'
    · subst hc
      have hd : trimRightCR (s ++ ['\r']) = trimRightCR s :=
        List.rdropWhile_concat_pos _ _ _ (by rfl)
      have ht : trimSpace (s ++ ['\r']) = trimSpace s := by
        have h₁ := trim_rdropWhile isSpace (s ++ ['\r'])
        rw [List.rdropWhile_concat_pos _ _ _ isSpace_cr, trim_rdropWhile] at h₁
        exact h₁.symm
      rw [hd, ih, ht]
    · rw [show trimRightCR (s ++ [c]) = s ++ [c] from
        List.rdropWhile_concat_neg _ _ _ (by simpa using hc)]

theorem rawLines_unlines {ls : List Text} (h : ∀ l ∈ ls, '\n' ∉ l) :
    rawLines (unlines '\n' ls) = ls := by
  rw [rawLines, splitOn_unlines ls h]
  simp

/-- What is written line by line is read back line by line. -/
theorem scanLines_unlines {ls : List Text} (hn : ∀ l ∈ ls, '\n' ∉ l)
    (hf : ∀ l ∈ ls, tokenFits l = true) :
    scanLines (unlines '\n' ls) = (ls.map dropCR, false) := by
  have hs : ls.span tokenFits = (ls, []) := by
    rw [List.span_eq_takeWhile_dropWhile, List.takeWhile_eq_self_iff.mpr hf,
      List.dropWhile_eq_nil_iff.mpr hf]
  rw [scanLines, rawLines_unlines hn, hs]
  rfl

theorem newline_notMem_rawLines {input l : Text} (h : l ∈ rawLines input) : '\n' ∉ l := by
  rw [rawLines] at h
  split at h
  · exact (mem_splitOn (List.mem_of_mem_dropLast h)).1
  · exact (mem_splitOn h).1

theorem mem_of_mem_dropCR {l : Text} {c : Char} (h : c ∈ dropCR l) : c ∈ l := by
  rw [dropCR] at h
  split at h
  · exact List.mem_of_mem_dropLast h
  · exact h

theorem newline_notMem_scanLines {input l : Text} (h : l ∈ (scanLines input).1) : '\n' ∉ l := by
  simp only [scanLines, List.span_eq_takeWhile_dropWhile, List.mem_map] at h
  obtain ⟨l', hl', rfl⟩ := h
  have hm : l' ∈ rawLines input := (List.takeWhile_prefix _).sublist.mem hl'
  exact fun hn => newline_notMem_rawLines hm (mem_of_mem_dropCR hn)

end Strings
end VpnControl
