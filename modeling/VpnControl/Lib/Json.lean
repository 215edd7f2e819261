import Mathlib.Data.List.Basic

namespace Json

/-- A JSON text read as a tree: the members of an object in the order in which they
stand there, and a number as its literal. -/
inductive Doc where
  | null
  | bool (b : Bool)
  | num (literal : List Char)
  | str (s : List Char)
  | arr (xs : List Doc)
  | obj (ms : List (List Char × Doc))

/-- Induction over documents, with the hypothesis for every element and every member. -/
theorem Doc.induct {P : Doc → Prop} (null : P .null) (bool : ∀ b, P (.bool b))
    (num : ∀ l, P (.num l)) (str : ∀ s, P (.str s))
    (arr : ∀ xs, (∀ x ∈ xs, P x) → P (.arr xs))
    (obj : ∀ ms, (∀ m ∈ ms, P m.2) → P (.obj ms)) (j : Doc) : P j :=
  @Doc.rec P (fun xs => ∀ x ∈ xs, P x) (fun ms => ∀ m ∈ ms, P m.2) (fun m => P m.2)
    null bool num str arr obj (by simp) (fun x xs hx hxs => by simpa using ⟨hx, hxs⟩)
    (by simp) (fun m ms hm hms => List.forall_mem_cons.mpr ⟨hm, hms⟩) (fun _ _ h => h) j

mutual
/-- How deep arrays and objects are nested. -/
def depth : Doc → Nat
  | .arr xs => depthElems xs + 1
  | .obj ms => depthMembers ms + 1
  | _ => 0

def depthElems : List Doc → Nat
  | [] => 0
  | x :: xs => max (depth x) (depthElems xs)

def depthMembers : List (List Char × Doc) → Nat
  | [] => 0
  | (_, v) :: ms => max (depth v) (depthMembers ms)
end

/-- The scanner follows no deeper nesting, of a text it checks or of one it lays out. -/
def maxNestingDepth : Nat := 10000

section Print

/-- How a document is laid out: the number of blanks a level is indented by, if it is
spread over lines, and whether `<`, `>` and `&` are escaped. -/
structure Style where
  indent : Option Nat
  escapeHTML : Bool

variable (st : Style)

def hexChar (n : Nat) : Char :=
  ['0', '1', '2', '3', '4', '5', '6', '7', '8', '9', 'a', 'b', 'c', 'd', 'e', 'f'].getD n '0'

def hex4 (n : Nat) : List Char :=
  [hexChar (n / 4096 % 16), hexChar (n / 256 % 16), hexChar (n / 16 % 16), hexChar (n % 16)]

/-- The characters written as `\u` with four digits. -/
def needsHex (c : Char) : Bool :=
  c.toNat < 32 || c.toNat == 0x2028 || c.toNat == 0x2029 ||
    (st.escapeHTML && (c == '<' || c == '>' || c == '&'))

def escapeChar (c : Char) : List Char :=
  if c = '"' then ['\\', '"']
  else if c = '\\' then ['\\', '\\']
  else if c.toNat = 8 then ['\\', 'b']
  else if c.toNat = 12 then ['\\', 'f']
  else if c = '\n' then ['\\', 'n']
  else if c = '\r' then ['\\', 'r']
  else if c = '\t' then ['\\', 't']
  else if needsHex st c then '\\' :: 'u' :: hex4 c.toNat
  else [c]

def printString (s : List Char) : List Char := '"' :: (s.flatMap (escapeChar st) ++ ['"'])

def newline (level : Nat) : List Char :=
  match st.indent with
  | none => []
  | some n => '\n' :: List.replicate (level * n) ' '

/-- Items between brackets. -/
def brackets (level : Nat) (left right : Char) (items : List (List Char)) : List Char :=
  if items = [] then [left, right]
  else left :: (newline st (level + 1) ++ (',' :: newline st (level + 1)).intercalate items ++
    newline st level ++ [right])

def colon : List Char := if st.indent = none then [':'] else [':', ' ']

mutual
def print (level : Nat) : Doc → List Char
  | .null => ['n', 'u', 'l', 'l']
  | .bool true => ['t', 'r', 'u', 'e']
  | .bool false => ['f', 'a', 'l', 's', 'e']
  | .num literal => literal
  | .str s => printString st s
  | .arr xs => brackets st level '[' ']' (printElems (level + 1) xs)
  | .obj ms => brackets st level '{' '}' (printMembers (level + 1) ms)

def printElems (level : Nat) : List Doc → List (List Char)
  | [] => []
  | x :: xs => print level x :: printElems level xs

def printMembers (level : Nat) : List (List Char × Doc) → List (List Char)
  | [] => []
  | (k, v) :: ms => (printString st k ++ colon st ++ print level v) :: printMembers level ms
end

theorem printElems_eq (level : Nat) (xs : List Doc) :
    printElems st level xs = xs.map (print st level) := by
  induction xs with
  | nil => simp [printElems]
  | cons x xs ih => simp [printElems, ih]

def printMember (level : Nat) (m : List Char × Doc) : List Char :=
  printString st m.1 ++ colon st ++ print st level m.2

theorem printMembers_eq (level : Nat) (ms : List (List Char × Doc)) :
    printMembers st level ms = ms.map (printMember st level) := by
  induction ms with
  | nil => simp [printMembers]
  | cons m ms ih => simp [printMembers, printMember, ih]

/-- The text of a document that is not nested too deep. -/
def printNested (j : Doc) : Option (List Char) :=
  if depth j ≤ maxNestingDepth then some (print st 0 j) else none

end Print

section Parse

def isBlank (c : Char) : Bool := c == ' ' || c == '\t' || c == '\r' || c == '\n'

def skip (s : List Char) : List Char := s.dropWhile isBlank

def hexVal (c : Char) : Option Nat :=
  if '0' ≤ c ∧ c ≤ '9' then some (c.toNat - '0'.toNat)
  else if 'a' ≤ c ∧ c ≤ 'f' then some (c.toNat - 'a'.toNat + 10)
  else if 'A' ≤ c ∧ c ≤ 'F' then some (c.toNat - 'A'.toNat + 10)
  else none

def hexVal4 (a b c d : Char) : Option Nat := do
  let a ← hexVal a
  let b ← hexVal b
  let c ← hexVal c
  let d ← hexVal d
  some (a * 4096 + b * 256 + c * 16 + d)

def replacementChar : Char := '\uFFFD'

def isSurrogate (n : Nat) : Bool := 0xD800 ≤ n && n < 0xE000

/-- The code point of a surrogate pair. -/
def surrogatePair (hi lo : Nat) : Option Char :=
  if 0xD800 ≤ hi ∧ hi < 0xDC00 ∧ 0xDC00 ≤ lo ∧ lo < 0xE000 then
    some (Char.ofNat ((hi - 0xD800) * 0x400 + (lo - 0xDC00) + 0x10000))
  else none

def simpleEscape (c : Char) : Option Char :=
  match c with
  | '"' => some '"'
  | '\\' => some '\\'
  | '/' => some '/'
  | 'b' => some (Char.ofNat 8)
  | 'f' => some (Char.ofNat 12)
  | 'n' => some '\n'
  | 'r' => some '\r'
  | 't' => some '\t'
  | _ => none

def flush (pending : Option Nat) : List Char := if pending.isSome then [replacementChar] else []

/-- The rest of a string after its opening quote, up to the closing one. `pending` is a
surrogate that still waits for its partner; without one it is read as U+FFFD. -/
def parseString (pending : Option Nat) : List Char → Option (List Char × List Char)
  | [] => none
  | '"' :: s => some (flush pending, s)
  | '\\' :: 'u' :: a :: b :: c :: d :: s => do
    let n ← hexVal4 a b c d
    match pending.bind (surrogatePair · n) with
    | some x => (parseString none s).map fun r => (x :: r.1, r.2)
    | none =>
      if isSurrogate n then (parseString (some n) s).map fun r => (flush pending ++ r.1, r.2)
      else (parseString none s).map fun r => (flush pending ++ Char.ofNat n :: r.1, r.2)
  | '\\' :: c :: s => do
    let x ← simpleEscape c
    (parseString none s).map fun r => (flush pending ++ x :: r.1, r.2)
  | c :: s =>
    if c.toNat < 32 ∨ c = '\\' then none
    else (parseString none s).map fun r => (flush pending ++ c :: r.1, r.2)

def isDigit (c : Char) : Bool := '0' ≤ c && c ≤ '9'

def numChar (c : Char) : Bool :=
  isDigit c || c == '-' || c == '+' || c == '.' || c == 'e' || c == 'E'

def digits (s : List Char) : Bool := s ≠ [] && s.all isDigit

def isExponent : List Char → Bool
  | [] => true
  | 'e' :: '+' :: s | 'e' :: '-' :: s | 'E' :: '+' :: s | 'E' :: '-' :: s => digits s
  | 'e' :: s | 'E' :: s => digits s
  | _ => false

def isFraction : List Char → Bool
  | '.' :: s => s.head?.any isDigit && isExponent (s.dropWhile isDigit)
  | s => isExponent s

def isUnsigned : List Char → Bool
  | '0' :: s => isFraction s
  | c :: s => isDigit c && isFraction (s.dropWhile isDigit)
  | [] => false

/-- The grammar of a number literal. -/
def isNumber : List Char → Bool
  | '-' :: s => isUnsigned s
  | s => isUnsigned s

variable {α : Type}

/-- Items separated by commas up to the closing bracket; `n` bounds their number. -/
def items (p : List Char → Option (α × List Char)) (right : Char) :
    Nat → List Char → Option (List α × List Char)
  | 0, _ => none
  | n + 1, s =>
    match p s with
    | none => none
    | some (x, s) =>
      match skip s with
      | [] => none
      | c :: s =>
        if c = right then some ([x], s)
        else if c = ',' then (items p right n s).map fun r => (x :: r.1, r.2)
        else none

/-- What follows an opening bracket. -/
def bracketed (p : List Char → Option (α × List Char)) (right : Char) (s : List Char) :
    Option (List α × List Char) :=
  match skip s with
  | [] => none
  | c :: rest => if c = right then some ([], rest) else items p right s.length s

def parseMember (p : List Char → Option (α × List Char)) (s : List Char) :
    Option ((List Char × α) × List Char) :=
  match skip s with
  | '"' :: s => do
    let (k, s) ← parseString none s
    match skip s with
    | ':' :: s => (p s).map fun r => ((k, r.1), r.2)
    | _ => none
  | _ => none

/-- A value that is no array and no object. -/
def scalar (s : List Char) : Option (Doc × List Char) :=
  match s with
  | '"' :: s => (parseString none s).map fun r => (.str r.1, r.2)
  | 'n' :: 'u' :: 'l' :: 'l' :: s => some (.null, s)
  | 't' :: 'r' :: 'u' :: 'e' :: s => some (.bool true, s)
  | 'f' :: 'a' :: 'l' :: 's' :: 'e' :: s => some (.bool false, s)
  | s =>
    let (literal, rest) := s.span numChar
    if isNumber literal then some (.num literal, rest) else none

/-- A value whose elements and members are read by `nested`. -/
def valueWith (nested : List Char → Option (Doc × List Char)) (s : List Char) :
    Option (Doc × List Char) :=
  match skip s with
  | '[' :: s => (bracketed nested ']' s).map fun r => (.arr r.1, r.2)
  | '{' :: s => (bracketed (parseMember nested) '}' s).map fun r => (.obj r.1, r.2)
  | s => scalar s

/-- A value with arrays and objects nested up to a depth. -/
def value : Nat → List Char → Option (Doc × List Char)
  | 0, s => scalar (skip s)
  | depth + 1, s => valueWith (value depth) s

/-- A text that is one document, nested no deeper than the scanner follows. -/
def parse (s : List Char) : Option Doc :=
  match value maxNestingDepth s with
  | some (j, rest) => if skip rest = [] then some j else none
  | none => none

end Parse
end Json
