import VpnControl.Lib.Program
import VpnControl.Lib.ShellWords

/-! Scripts of the POSIX shell made of simple commands, `&&`, `;` and `if`, in which nothing is
expanded, and what a shell does with them. -/

namespace ShellScripts
open ShellWords Effects Prog

inductive Redirect where
  | toFile (path : List Char)
  | toDescriptor (descriptor : List Char)
  deriving DecidableEq, Repr

/-- A simple command: its name with its operands, and where its output goes. -/
structure Command where
  words : List (List Char)
  redirects : List Redirect
  deriving DecidableEq, Repr

inductive Script where
  | command (c : Command)
  | exit (status : Nat)
  | andThen (first second : Script)
  | seq (first second : Script)
  | ifElse (condition consequent alternative : Script)
  deriving DecidableEq, Repr

section Parse

/-- The characters that make an unquoted word an assignment, a pattern or an expansion. -/
def special : List Char := ['$', '\u0060', '*', '?', '[', '~', '=', '\x7b', '\x7d', '!']

def reserved : List (List Char) :=
  [['i', 'f'], ['t', 'h', 'e', 'n'], ['e', 'l', 's', 'e'], ['e', 'l', 'i', 'f'], ['f', 'i'],
    ['d', 'o'], ['d', 'o', 'n', 'e'], ['c', 'a', 's', 'e'], ['e', 's', 'a', 'c'],
    ['w', 'h', 'i', 'l', 'e'], ['u', 'n', 't', 'i', 'l'], ['f', 'o', 'r'], ['i', 'n']]

def isBare (text : List Char) : Token → Bool
  | .word other quoted => !quoted && other == text
  | .operator _ => false

def isReserved (token : Token) : Bool := reserved.any (isBare · token)

def isNumber (text : List Char) : Bool := !text.isEmpty && text.all Char.isDigit

def number (text : List Char) : Nat :=
  text.foldl (fun n c => 10 * n + (c.toNat - '0'.toNat)) 0

def redirects : List Token → Bool
  | .operator ('>' :: _) :: _ => true
  | .operator ('<' :: _) :: _ => true
  | _ => false

/-- The words and the redirections of a simple command, and the tokens behind it. -/
def parseSimple (c : Command) : List Token → Option (Command × List Token)
  | .word text quoted :: rest =>
    if quoted || text.all fun c => !special.contains c then
      -- a number in front of a redirection is the descriptor that it redirects
      if !quoted && isNumber text && redirects rest then none
      else parseSimple { c with words := c.words ++ [text] } rest
    else none
  | .operator ['>'] :: .word path _ :: rest =>
    parseSimple { c with redirects := c.redirects ++ [.toFile path] } rest
  | .operator ['>', '&'] :: .word descriptor _ :: rest =>
    parseSimple { c with redirects := c.redirects ++ [.toDescriptor descriptor] } rest
  | rest => some (c, rest)

/-- A simple command as a script; the only builtin that ends the shell is `exit`. -/
def simple (c : Command) : Option Script :=
  match c.words, c.redirects with
  | [], _ => none
  | name :: operands, targets =>
    if name = ['e', 'x', 'i', 't'] then
      match operands, targets with
      | [status], [] => if isNumber status then some (.exit (number status)) else none
      | _, _ => none
    else some (.command c)

def expect (text : List Char) : List Token → Option (List Token)
  | [] => none
  | token :: rest => if isBare text token then some rest else none

mutual

def parseCommand : Nat → List Token → Option (Script × List Token)
  | 0, _ => none
  | _ + 1, [] => none
  | fuel + 1, token :: rest =>
    if isBare ['i', 'f'] token then do
      let (condition, rest) ← parseList fuel rest
      let rest ← expect ['t', 'h', 'e', 'n'] rest
      let (consequent, rest) ← parseList fuel rest
      let rest ← expect ['e', 'l', 's', 'e'] rest
      let (alternative, rest) ← parseList fuel rest
      let rest ← expect ['f', 'i'] rest
      return (.ifElse condition consequent alternative, rest)
    else if isReserved token then none
    else do
      let (c, rest) ← parseSimple ⟨[], []⟩ (token :: rest)
      let script ← simple c
      return (script, rest)

def parseAndOr : Nat → List Token → Option (Script × List Token)
  | 0, _ => none
  | fuel + 1, tokens => do
    let (first, rest) ← parseCommand fuel tokens
    match rest with
    | .operator ['&', '&'] :: rest =>
      let (second, rest) ← parseAndOr fuel rest
      return (.andThen first second, rest)
    | rest => return (first, rest)

def parseList : Nat → List Token → Option (Script × List Token)
  | 0, _ => none
  | fuel + 1, tokens => do
    let (first, rest) ← parseAndOr fuel tokens
    match rest with
    | .operator [';'] :: rest =>
      -- the separator behind the last command
      if rest.head?.all isReserved then return (first, rest)
      else
        let (second, rest) ← parseList fuel rest
        return (.seq first second, rest)
    | rest => return (first, rest)

end

/-- A token is at most three rules deep. -/
def parse (tokens : List Token) : Option Script :=
  match parseList (3 * tokens.length + 3) tokens with
  | some (script, []) => some script
  | _ => none

def ofText (text : List Char) : Option Script := (tokenize text).bind parse

end Parse

/-- How a shell ends before the end of its script. -/
inductive Stop where
  | exited (status : Nat)
  | killed
  deriving DecidableEq, Repr

/-- What a shell does: each command ends with a status, unless the shell is killed
while it runs. -/
abbrev Shell (α : Type) : Type := Prog Command (fun _ => Option Nat) Stop α

def runCommand (c : Command) : Shell Nat :=
  op c fun
    | some status => ret status
    | none => fail .killed

/-- A script ends with the status of its last command. -/
def Script.run : Script → Shell Nat
  | command c => runCommand c
  | exit status => fail (.exited status)
  | andThen first second => do
    let status ← first.run
    if status = 0 then second.run else return status
  | seq first second => do
    let _ ← first.run
    second.run
  | ifElse condition consequent alternative => do
    let status ← condition.run
    if status = 0 then consequent.run else alternative.run

def Script.commands : Script → List Command
  | command c => [c]
  | exit _ => []
  | andThen first second => first.commands ++ second.commands
  | seq first second => first.commands ++ second.commands
  | ifElse condition consequent alternative =>
    condition.commands ++ consequent.commands ++ alternative.commands

theorem uses_run {P : Command → Prop} {script : Script} (h : ∀ c ∈ script.commands, P c) :
    script.run.Uses P := by
  induction script with
  | command c =>
    refine ⟨h c (by simp [Script.commands]), fun status => ?_⟩
    cases status <;> trivial
  | exit status => trivial
  | andThen first second hfirst hsecond =>
    simp only [Script.commands, List.mem_append] at h
    refine uses_bind (hfirst fun c hc => h c (.inl hc)) fun status => ?_
    split
    · exact hsecond fun c hc => h c (.inr hc)
    · trivial
  | seq first second hfirst hsecond =>
    simp only [Script.commands, List.mem_append] at h
    exact uses_bind (hfirst fun c hc => h c (.inl hc)) fun _ => hsecond fun c hc => h c (.inr hc)
  | ifElse condition consequent alternative hcondition hconsequent halternative =>
    simp only [Script.commands, List.mem_append] at h
    refine uses_bind (hcondition fun c hc => h c (.inl (.inl hc))) fun status => ?_
    split
    · exact hconsequent fun c hc => h c (.inl (.inr hc))
    · exact halternative fun c hc => h c (.inr hc)

/-- The status of a shell that was not killed. -/
def exitStatus : Except Stop Nat → Option Nat
  | .ok status => some status
  | .error (.exited status) => some status
  | .error .killed => none

/-- How a command that runs by itself ends. -/
def ending : Option Nat → Except Stop Nat
  | some status => .ok status
  | none => .error .killed

@[simp] theorem exitStatus_ending (status : Option Nat) : exitStatus (ending status) = status := by
  cases status <;> rfl

@[simp] theorem ending_eq_ok {status : Option Nat} {n : Nat} :
    ending status = .ok n ↔ status = some n := by
  cases status <;> simp [ending]

section Rules
variable {σ : Type} {env : Env σ Command fun _ => Option Nat} {Q P : Post σ Stop Nat} {s : σ}

theorem wp_command (c : Command) :
    wp env (Script.command c).run Q s ↔ ∀ status s', env s c status s' → Q (ending status) s' := by
  rw [Script.run, runCommand, wp_op]
  refine forall_congr' fun status => ?_
  cases status <;> rfl

/-- The second command runs from where the first one succeeds; where that fails, the
outcome is its own. -/
theorem wp_andThen {first second : Script} (hfirst : wp env first.run P s)
    (hsecond : ∀ s', P (.ok 0) s' → wp env second.run Q s')
    (hstop : ∀ out s', out ≠ .ok 0 → P out s' → Q out s') :
    wp env (Script.andThen first second).run Q s := by
  rw [Script.run]
  apply wp_seq hfirst
  · intro status s' h
    by_cases hzero : status = 0
    · subst hzero
      rw [if_pos rfl]
      exact hsecond s' h
    · rw [if_neg hzero]
      exact hstop (.ok status) s' (by simpa using hzero) h
  · exact fun x s' h => hstop (.error x) s' (by simp) h

theorem wp_seqScript {first second : Script} (hfirst : wp env first.run P s)
    (hsecond : ∀ status s', P (.ok status) s' → wp env second.run Q s')
    (hstop : ∀ x s', P (.error x) s' → Q (.error x) s') :
    wp env (Script.seq first second).run Q s := by
  rw [Script.run]
  exact wp_seq hfirst hsecond hstop

theorem wp_ifElse {condition consequent alternative : Script} (hcondition : wp env condition.run P s)
    (hzero : ∀ s', P (.ok 0) s' → wp env consequent.run Q s')
    (hother : ∀ status s', status ≠ 0 → P (.ok status) s' → wp env alternative.run Q s')
    (hstop : ∀ x s', P (.error x) s' → Q (.error x) s') :
    wp env (Script.ifElse condition consequent alternative).run Q s := by
  rw [Script.run]
  apply wp_seq hcondition
  · intro status s' h
    split
    · rename_i hstatus
      subst hstatus
      exact hzero s' h
    · rename_i hstatus
      exact hother status s' hstatus h
  · exact hstop

end Rules
end ShellScripts
