import Mathlib.Data.List.Basic

/-! Token recognition of the POSIX shell, up to the expansion of parameters and commands. -/

namespace ShellWords

/-- A word keeps whether any of it was quoted: a quoted word is no reserved word, no
assignment and no pattern. -/
inductive Token where
  | word (text : List Char) (quoted : Bool)
  | operator (text : List Char)
  deriving DecidableEq, Repr

def isBlank (c : Char) : Bool := c == ' ' || c == '\t'

def operators : List (List Char) :=
  [['&'], ['&', '&'], ['('], [')'], [';'], [';', ';'], ['\n'], ['|'], ['|', '|'], ['<'], ['>'],
    ['>', '|'], ['<', '<'], ['>', '>'], ['<', '&'], ['>', '&'], ['<', '<', '-'], ['<', '>']]

/-- A character that ends a word outside quotes. -/
def isDelimiter (c : Char) : Bool := isBlank c || operators.contains [c]

/-- What was read of a token so far; a backslash waits for the character behind it. -/
inductive Scan where
  | between
  | comment
  | operator (text : List Char)
  | word (text : List Char) (quoted : Bool)
  | single (text : List Char)
  | double (text : List Char)
  | doubleBackslash (text : List Char)
  | backslash (before : Scan)
  deriving DecidableEq, Repr

namespace Scan

/-- The tokens that end where a new one starts. -/
def flush : Scan → List Token
  | operator text => [.operator text]
  | word text quoted => [.word text quoted]
  | _ => []

/-- The first character of a token. -/
def start (c : Char) : Scan :=
  if isBlank c then between
  else if c = '#' then comment
  else if operators.contains [c] then operator [c]
  else if c = '\\' then backslash between
  else if c = '\'' then single []
  else if c = '"' then double []
  else word [c] false

/-- A character behind a backslash outside quotes. -/
def escaped (c : Char) : Scan → List Token × Scan
  | word text _ => ([], word (text ++ [c]) true)
  | s => (s.flush, word [c] true)

def step : Scan → Char → List Token × Scan
  | between, c => ([], start c)
  | comment, c => ([], if c = '\n' then operator ['\n'] else comment)
  | operator text, c =>
    if text ++ [c] ∈ operators then ([], operator (text ++ [c]))
    else if c = '\\' then ([], backslash (operator text))
    else ([.operator text], start c)
  | word text quoted, c =>
    if isDelimiter c then ([.word text quoted], start c)
    else if c = '\\' then ([], backslash (word text quoted))
    else if c = '\'' then ([], single text)
    else if c = '"' then ([], double text)
    else ([], word (text ++ [c]) quoted)
  | single text, c => ([], if c = '\'' then word text true else single (text ++ [c]))
  | double text, c =>
    ([], if c = '"' then word text true
      else if c = '\\' then doubleBackslash text
      else double (text ++ [c]))
  | doubleBackslash text, c =>
    ([], if c = '\n' then double text
      else if c ∈ ['$', '\u0060', '"', '\\'] then double (text ++ [c])
      else double (text ++ ['\\', c]))
  -- a backslash and a newline join two lines
  | backslash before, c => if c = '\n' then ([], before) else escaped c before

/-- The tokens of a text that is read to its end: no quote may be open there. -/
def finish : Scan → Option (List Token)
  | between | comment => some []
  | operator text => some [.operator text]
  | word text quoted => some [.word text quoted]
  | _ => none

/-- Outside quotes, and not inside a word. -/
def Boundary : Scan → Prop
  | between | operator _ => True
  | _ => False

end Scan

open Scan

def scan : Scan → List Char → List Token × Scan
  | s, [] => ([], s)
  | s, c :: cs => ((s.step c).1 ++ (scan (s.step c).2 cs).1, (scan (s.step c).2 cs).2)

/-- The tokens of a script, if it leaves no quote open. -/
def tokenize (script : List Char) : Option (List Token) :=
  (scan between script).2.finish.map ((scan between script).1 ++ ·)

/-- A text that ends the word in front of it. -/
def Delimits (script : List Char) : Prop := ∀ c ∈ script.head?, isDelimiter c = true

/-- A text that reads as one quoted word wherever a word can start. -/
def Quotes (quoted text : List Char) : Prop :=
  ∀ s : Scan, s.Boundary → scan s quoted = (s.flush, word text true)

variable {s : Scan} {text : List Char} {quoted : Bool} {pre post q : List Char}

theorem scan_append (s : Scan) (a b : List Char) :
    scan s (a ++ b) =
      ((scan s a).1 ++ (scan (scan s a).2 b).1, (scan (scan s a).2 b).2) := by
  induction a generalizing s with
  | nil => simp [scan]
  | cons c a ih => simp [scan, ih]

/-- A single quote starts a word. -/
theorem step_quote (h : s.Boundary) : s.step '\'' = (s.flush, single []) := by
  cases s with
  | between => rfl
  | operator text =>
    have hnone : ∀ op ∈ operators, '\'' ∉ op := by decide
    have hmore : text ++ ['\''] ∉ operators := fun hmem => hnone _ hmem (by simp)
    rw [step, if_neg hmore, if_neg (by decide)]
    rfl
  | _ => cases h

theorem step_word_quote : (word text quoted).step '\'' = ([], single text) := rfl

theorem step_word_backslash :
    (word text quoted).step '\\' = ([], backslash (word text quoted)) := rfl

theorem step_backslash_quote :
    (backslash (word text quoted)).step '\'' = ([], word (text ++ ['\'']) true) := rfl

theorem step_single_quote : (single text).step '\'' = ([], word text true) := rfl

theorem step_single {c : Char} (h : c ≠ '\'') :
    (single text).step c = ([], single (text ++ [c])) := by
  rw [step, if_neg h]

theorem finish_boundary (h : s.Boundary) : s.finish = some s.flush := by
  cases s with
  | between => rfl
  | operator text => rfl
  | _ => cases h

/-- Behind a word that ends there the rest is read on its own. -/
theorem tokenize_word (text : List Char) (quoted : Bool) (hpost : Delimits post) :
    ((scan (word text quoted) post).2.finish.map ((scan (word text quoted) post).1 ++ ·)) =
      (tokenize post).map (Token.word text quoted :: ·) := by
  cases post with
  | nil => rfl
  | cons c post =>
    have hc : isDelimiter c = true := hpost c rfl
    have hword : (word text quoted).step c = ([.word text quoted], start c) := by
      simp [step, hc]
    have hbetween : between.step c = ([], start c) := rfl
    simp only [scan, hword, tokenize, hbetween, Option.map_map]
    rfl

/-- A quoted word between two texts is one token, and changes nothing about the others. -/
theorem tokenize_quotes (hq : Quotes q text) (hpre : (scan between pre).2.Boundary)
    (hpost : Delimits post) :
    tokenize (pre ++ (q ++ post)) =
      (tokenize pre).bind fun before =>
        (tokenize post).map fun after => before ++ Token.word text true :: after := by
  have hbefore : tokenize pre =
      some ((scan between pre).1 ++ (scan between pre).2.flush) := by
    rw [tokenize, finish_boundary hpre, Option.map_some]
  have hword := tokenize_word text true hpost
  rw [hbefore, Option.bind_some, tokenize, scan_append, scan_append, hq _ hpre]
  rw [show ((tokenize post).map fun after =>
      (scan between pre).1 ++ (scan between pre).2.flush ++ Token.word text true :: after) =
      ((tokenize post).map (Token.word text true :: ·)).map
        ((scan between pre).1 ++ (scan between pre).2.flush ++ ·) by rw [Option.map_map]; rfl,
    ← hword, Option.map_map]
  simp [Function.comp_def]

end ShellWords
