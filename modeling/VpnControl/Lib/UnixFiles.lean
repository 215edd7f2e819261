import VpnControl.Lib.ShellScripts
import Mathlib.Logic.Function.Basic
import Mathlib.Algebra.GroupWithZero.Nat

/-! What a few utilities do to the regular files of a system. A file has one path here: there are
no links, and no directories but those that exist already. -/

namespace UnixFiles
open ShellScripts Effects Function

/-- A file, with its permissions as `chmod` reads and `stat` writes them. -/
structure File where
  content : List Char
  mode : List Char
  deriving DecidableEq, Repr

/-- The files, what a command reads and what was printed so far. -/
structure Unix where
  files : List Char → Option File
  input : List Char
  output : List Char

namespace Unix

def put (s : Unix) (path : List Char) (file : Option File) : Unix :=
  { s with files := update s.files path file }

def print (s : Unix) (text : List Char) : Unix := { s with output := s.output ++ text }

variable (s : Unix) {path other : List Char} (file : Option File)

@[simp] theorem put_self : (s.put path file).files path = file := by
  unfold put
  exact update_self ..

theorem put_of_ne (h : other ≠ path) : (s.put path file).files other = s.files other := by
  unfold put
  exact update_of_ne h ..

@[simp] theorem print_output (text : List Char) : (s.print text).output = s.output ++ text := rfl

end Unix

inductive Utility where
  /-- `cat > path` -/
  | catTo (path : List Char)
  /-- `cat path` -/
  | cat (path : List Char)
  | printfTo (text path : List Char)
  | printf (text : List Char)
  | echo (text : List Char)
  /-- `echo` to the standard error -/
  | complain
  | chmod (mode path : List Char)
  /-- `mv -f` -/
  | mv (source target : List Char)
  /-- `cp -p` -/
  | cp (source target : List Char)
  /-- `rm -f` -/
  | rm (path : List Char)
  | sync
  /-- `test -f` and `test -e` -/
  | test (path : List Char)
  /-- `stat -c '%s %a'` -/
  | stat (path : List Char)
  deriving DecidableEq, Repr

section Utility

/-- An absolute path: no option, and the same file in every directory. -/
def isPath (word : List Char) : Bool := word.head? == some '/'

/-- Three octal digits that do not start with zero. -/
def isMode (word : List Char) : Bool :=
  word.length == 3 && word.all (fun c => '0' ≤ c && c ≤ '7') && word.head? != some '0'

/-- The text that `printf` makes of a format without conversions: the only escape is that of
a newline. -/
def formatted : List Char → Option (List Char)
  | [] => some []
  | '%' :: _ => none
  | '\\' :: 'n' :: rest => (formatted rest).map ('\n' :: ·)
  | '\\' :: _ => none
  | c :: rest => (formatted rest).map (c :: ·)

/-- The words of a line that `echo` prints, none of them with a backslash. -/
def echoed (words : List (List Char)) : Option (List Char) :=
  if words.any (fun word => word.contains '\\') || (words.head?.any fun w => w.head? == some '-') then none
  else some (List.intercalate [' '] words ++ ['\n'])

/-- What a command does, where that is known. -/
def utility (c : Command) : Option Utility :=
  match c.words, c.redirects with
  | [name], [] => if name = ['s', 'y', 'n', 'c'] then some .sync else none
  | [name], [.toFile path] =>
    if name = ['c', 'a', 't'] && isPath path then some (.catTo path) else none
  | [name, text], [.toFile path] =>
    if name = ['p', 'r', 'i', 'n', 't', 'f'] && isPath path then
      (formatted text).map (.printfTo · path)
    else none
  | name :: _, [.toDescriptor descriptor] =>
    if name = ['e', 'c', 'h', 'o'] && descriptor = ['2'] then some .complain else none
  | [name, operand], [] =>
    if name = ['c', 'a', 't'] then if isPath operand then some (.cat operand) else none
    else if name = ['p', 'r', 'i', 'n', 't', 'f'] then (formatted operand).map .printf
    else if name = ['e', 'c', 'h', 'o'] then (echoed [operand]).map .echo
    else none
  | [name, first, second], [] =>
    if name = ['c', 'h', 'm', 'o', 'd'] then
      if isMode first && isPath second then some (.chmod first second) else none
    else if name = ['r', 'm'] then
      if first = ['-', 'f'] && isPath second then some (.rm second) else none
    else if name = ['t', 'e', 's', 't'] then
      if first = ['-', 'f'] || first = ['-', 'e'] then
        if isPath second then some (.test second) else none
      else none
    else none
  | [name, option, first, second], [] =>
    if name = ['m', 'v'] then
      if option = ['-', 'f'] && isPath first && isPath second then some (.mv first second) else none
    else if name = ['c', 'p'] then
      if option = ['-', 'p'] && isPath first && isPath second then some (.cp first second) else none
    else if name = ['s', 't', 'a', 't'] then
      if option = ['-', 'c'] && first = ['%', 's', ' ', '%', 'a'] && isPath second then
        some (.stat second)
      else none
    else none
  | _, _ => none

end Utility

/-- The bytes of a text. -/
def size (text : List Char) : Nat := (text.map Char.utf8Size).sum

section Step

/-- A file whose content is replaced in place keeps its permissions; a new one has some. -/
def Replaced (s : Unix) (path content : List Char) (s' : Unix) : Prop :=
  ∃ mode, (∀ file, s.files path = some file → mode = file.mode) ∧
    s' = s.put path (some ⟨content, mode⟩)

/-- A redirected output that is written: when the command does not succeed, to some part,
or not at all. -/
def Written (s : Unix) (path content : List Char) (status : Option Nat) (s' : Unix) : Prop :=
  if status = some 0 then Replaced s path content s'
  else s' = s ∨ ∃ part, Replaced s path part s'

/-- One change of a directory entry: it is made, or it is not. -/
def AtOnce (s : Unix) (done : Unix → Prop) (status : Option Nat) (s' : Unix) : Prop :=
  match status with
  | some 0 => done s'
  | some _ => s' = s
  | none => s' = s ∨ done s'

def Printed (s : Unix) (text : List Char → Prop) (status : Option Nat) (s' : Unix) : Prop :=
  ∃ printed, (status = some 0 → text printed) ∧ s' = s.print printed

def Utility.step (s : Unix) : Utility → Option Nat → Unix → Prop
  | catTo path => Written s path s.input
  | printfTo text path => Written s path text
  | cat path => Printed s fun text => ∃ file, s.files path = some file ∧ text = file.content
  | printf text => Printed s (· = text)
  | echo text => Printed s (· = text)
  | complain => fun _ s' => s' = s
  | chmod mode path => AtOnce s fun s' =>
    ∃ file, s.files path = some file ∧ s' = s.put path (some { file with mode := mode })
  | mv source target => AtOnce s fun s' =>
    ∃ file, s.files source = some file ∧ s' = (s.put source none).put target (some file)
  | cp source target => fun status s' =>
    if status = some 0 then ∃ file, s.files source = some file ∧ s' = s.put target (some file)
    else ∃ copied, s' = s.put target copied
  | rm path => AtOnce s fun s' => s' = s.put path none
  | sync => fun _ s' => s' = s
  | test path => fun status s' =>
    s' = s ∧ ∀ n, status = some n → (n = 0 ↔ (s.files path).isSome = true)
  | stat path => Printed s fun text =>
    ∃ file, s.files path = some file ∧
      text = (Nat.repr (size file.content)).toList ++ [' '] ++ file.mode ++ ['\n']

/-- A utility that is not disturbed: its status and what it leaves. New files get the
permissions `644`. -/
def Utility.perform (s : Unix) : Utility → Nat × Unix
  | catTo path => (0, s.put path (some ⟨s.input, ((s.files path).map File.mode).getD ['6', '4', '4']⟩))
  | printfTo text path =>
    (0, s.put path (some ⟨text, ((s.files path).map File.mode).getD ['6', '4', '4']⟩))
  | cat path =>
    match s.files path with
    | some file => (0, s.print file.content)
    | none => (1, s)
  | printf text => (0, s.print text)
  | echo text => (0, s.print text)
  | complain => (0, s)
  | chmod mode path =>
    match s.files path with
    | some file => (0, s.put path (some { file with mode := mode }))
    | none => (1, s)
  | mv source target =>
    match s.files source with
    | some file => (0, (s.put source none).put target (some file))
    | none => (1, s)
  | cp source target =>
    match s.files source with
    | some file => (0, s.put target (some file))
    | none => (1, s)
  | rm path => (0, s.put path none)
  | sync => (0, s)
  | test path => (if (s.files path).isSome then 0 else 1, s)
  | stat path =>
    match s.files path with
    | some file =>
      (0, s.print ((Nat.repr (size file.content)).toList ++ [' '] ++ file.mode ++ ['\n']))
    | none => (1, s)

/-- Commands on files; a command that is none of these may do anything. -/
def utilities : Env Unix Command fun _ => Option Nat := fun s c status s' =>
  ∀ u, utility c = some u → u.step s status s'

/-- A system in which nothing disturbs a command; one that is not known is not found. -/
def undisturbed : Handler Unix Command fun _ => Option Nat := fun s c =>
  match utility c with
  | some u => (some (u.perform s).1, (u.perform s).2)
  | none => (some 127, s)

/-- The files that a utility may change. -/
def Utility.targets : Utility → List (List Char)
  | catTo path => [path]
  | printfTo _ path => [path]
  | chmod _ path => [path]
  | mv source target => [source, target]
  | cp _ target => [target]
  | rm path => [path]
  | _ => []

variable {s s' : Unix} {path content : List Char} {status : Option Nat}

theorem Replaced.frame (h : Replaced s path content s') {other : List Char} (hne : other ≠ path) :
    s'.files other = s.files other := by
  obtain ⟨mode, -, rfl⟩ := h
  exact s.put_of_ne _ hne

theorem Written.frame (h : Written s path content status s') {other : List Char}
    (hne : other ≠ path) : s'.files other = s.files other := by
  unfold Written at h
  split at h
  · exact h.frame hne
  · obtain rfl | ⟨part, h⟩ := h
    · rfl
    · exact h.frame hne

theorem AtOnce.cases {done : Unix → Prop} (h : AtOnce s done status s') : s' = s ∨ done s' := by
  unfold AtOnce at h
  split at h
  · exact .inr h
  · exact .inl h
  · exact h

theorem Printed.files {text : List Char → Prop} (h : Printed s text status s') :
    s'.files = s.files := by
  obtain ⟨printed, -, rfl⟩ := h
  rfl

theorem print_nil (s : Unix) : s.print [] = s := by
  simp [Unix.print]

theorem replaced_put (s : Unix) (path content : List Char) :
    Replaced s path content
      (s.put path (some ⟨content, ((s.files path).map File.mode).getD ['6', '4', '4']⟩)) := by
  refine ⟨_, ?_, rfl⟩
  intro file hfile
  rw [hfile]
  rfl

theorem printed_fails {text : List Char → Prop} : Printed s text (some 1) s :=
  ⟨[], by simp, (print_nil s).symm⟩

theorem printed_prints {text : List Char → Prop} {printed : List Char} (h : text printed) :
    Printed s text (some 0) (s.print printed) := ⟨printed, fun _ => h, rfl⟩

/-- What happens undisturbed is one of the things that can happen. -/
theorem Utility.step_perform (s : Unix) (u : Utility) :
    u.step s (some (u.perform s).1) (u.perform s).2 := by
  cases u with
  | catTo path => exact replaced_put s path s.input
  | printfTo text path => exact replaced_put s path text
  | printf text => exact printed_prints rfl
  | echo text => exact printed_prints rfl
  | complain => rfl
  | sync => rfl
  | rm path => rfl
  | cat path =>
    cases h : s.files path with
    | some file =>
      simp only [step, perform, h]
      exact printed_prints ⟨file, rfl, rfl⟩
    | none =>
      simp only [step, perform, h]
      exact printed_fails
  | stat path =>
    cases h : s.files path with
    | some file =>
      simp only [step, perform, h]
      exact printed_prints ⟨file, rfl, rfl⟩
    | none =>
      simp only [step, perform, h]
      exact printed_fails
  | chmod mode path =>
    cases h : s.files path with
    | some file =>
      simp only [step, perform, h]
      exact ⟨file, rfl, rfl⟩
    | none =>
      simp only [step, perform, h]
      rfl
  | mv source target =>
    cases h : s.files source with
    | some file =>
      simp only [step, perform, h]
      exact ⟨file, rfl, rfl⟩
    | none =>
      simp only [step, perform, h]
      rfl
  | cp source target =>
    cases h : s.files source with
    | some file =>
      simp only [step, perform, h, if_true]
      exact ⟨file, rfl, rfl⟩
    | none =>
      simp only [step, perform, h]
      exact ⟨s.files target, by rw [Unix.put, update_eq_self]⟩
  | test path =>
    refine ⟨rfl, ?_⟩
    rintro n hn
    obtain rfl := Option.some.inj hn
    simp only [perform]
    split <;> simp_all

theorem utilities_undisturbed (s : Unix) (c : Command) :
    utilities s c (undisturbed s c).1 (undisturbed s c).2 := by
  intro u hu
  simp only [undisturbed, hu]
  exact u.step_perform s

namespace Utility

theorem chmod_cases {mode : List Char} (h : step s (chmod mode path) status s') :
    s' = s ∨ ∃ file, s.files path = some file ∧ s' = s.put path (some { file with mode := mode }) := by
  rw [step] at h
  exact h.cases

theorem mv_cases {source target : List Char} (h : step s (mv source target) status s') :
    s' = s ∨ ∃ file, s.files source = some file ∧
      s' = (s.put source none).put target (some file) := by
  rw [step] at h
  exact h.cases

theorem rm_cases (h : step s (rm path) status s') : s' = s ∨ s' = s.put path none := by
  rw [step] at h
  exact h.cases

end Utility

/-- A utility changes no file but its targets. -/
theorem Utility.step_frame {u : Utility} (h : u.step s status s') {other : List Char}
    (hother : other ∉ u.targets) : s'.files other = s.files other := by
  cases u with
  | catTo path => exact h.frame (by simpa [targets] using hother)
  | printfTo text path => exact h.frame (by simpa [targets] using hother)
  | cat path => rw [h.files]
  | printf text => rw [h.files]
  | echo text => rw [h.files]
  | stat path => rw [h.files]
  | complain => rw [show s' = s from h]
  | sync => rw [show s' = s from h]
  | test path => rw [h.1]
  | chmod mode path =>
    obtain rfl | ⟨file, -, rfl⟩ := chmod_cases h
    · rfl
    · exact s.put_of_ne _ (by simpa [targets] using hother)
  | mv source target =>
    simp only [targets, List.mem_cons, List.not_mem_nil, or_false, not_or] at hother
    obtain rfl | ⟨file, -, rfl⟩ := mv_cases h
    · rfl
    · rw [Unix.put_of_ne _ _ hother.2, Unix.put_of_ne _ _ hother.1]
  | cp source target =>
    have hne : other ≠ target := by simpa [targets] using hother
    unfold step at h
    simp only at h
    split at h
    · obtain ⟨file, -, rfl⟩ := h
      exact s.put_of_ne _ hne
    · obtain ⟨copied, rfl⟩ := h
      exact s.put_of_ne _ hne
  | rm path =>
    obtain rfl | rfl := rm_cases h
    · rfl
    · exact s.put_of_ne _ (by simpa [targets] using hother)

/-- A command whose effect is known. -/
theorem wp_utility {c : Command} {u : Utility} {Q : Post Unix Stop Nat} (hu : utility c = some u)
    (h : ∀ status s', u.step s status s' → Q (ending status) s') :
    wp utilities (Script.command c).run Q s :=
  (wp_command c).mpr fun status s' hstep => h status s' (hstep u hu)

theorem wp_andThen_utility {c : Command} {u : Utility} {second : Script} {Q : Post Unix Stop Nat}
    (hu : utility c = some u)
    (hzero : ∀ s', u.step s (some 0) s' → wp utilities second.run Q s')
    (hstop : ∀ status s', status ≠ some 0 → u.step s status s' → Q (ending status) s') :
    wp utilities (Script.andThen (.command c) second).run Q s := by
  apply wp_andThen (P := fun out s' => ∃ status, out = ending status ∧ u.step s status s')
  · exact wp_utility hu fun status s' hstep => ⟨status, rfl, hstep⟩
  · rintro s' ⟨status, heq, hstep⟩
    rw [ending_eq_ok.mp heq.symm] at hstep
    exact hzero s' hstep
  · rintro out s' hne ⟨status, rfl, hstep⟩
    exact hstop status s' (by simpa using hne) hstep

theorem wp_seqScript_utility {c : Command} {u : Utility} {second : Script}
    {Q : Post Unix Stop Nat} (hu : utility c = some u)
    (hsecond : ∀ n s', u.step s (some n) s' → wp utilities second.run Q s')
    (hkilled : ∀ s', u.step s none s' → Q (.error .killed) s') :
    wp utilities (Script.seq (.command c) second).run Q s := by
  apply wp_seqScript (P := fun out s' => ∃ status, out = ending status ∧ u.step s status s')
  · exact wp_utility hu fun status s' hstep => ⟨status, rfl, hstep⟩
  · rintro n s' ⟨status, heq, hstep⟩
    rw [ending_eq_ok.mp heq.symm] at hstep
    exact hsecond n s' hstep
  · rintro x s' ⟨status, heq, hstep⟩
    cases status with
    | some n => cases heq
    | none =>
      cases heq
      exact hkilled s' hstep

/-- The branch of a test tells whether the file is there. -/
theorem wp_ifElse_test {c : Command} {consequent alternative : Script} {Q : Post Unix Stop Nat}
    (hu : utility c = some (.test path))
    (hthere : (s.files path).isSome = true → wp utilities consequent.run Q s)
    (hmissing : s.files path = none → wp utilities alternative.run Q s)
    (hkilled : Q (.error .killed) s) :
    wp utilities (Script.ifElse (.command c) consequent alternative).run Q s := by
  apply wp_ifElse (P := fun out s' => ∃ status, out = ending status ∧
    Utility.step s (.test path) status s')
  · exact wp_utility hu fun status s' hstep => ⟨status, rfl, hstep⟩
  · rintro s' ⟨status, heq, rfl, hstatus⟩
    exact hthere ((hstatus 0 (ending_eq_ok.mp heq.symm)).mp rfl)
  · rintro n s' hn ⟨status, heq, rfl, hstatus⟩
    refine hmissing ?_
    rw [← Option.not_isSome_iff_eq_none]
    exact fun hsome => hn ((hstatus n (ending_eq_ok.mp heq.symm)).mpr hsome)
  · rintro x s' ⟨status, heq, rfl, -⟩
    cases status with
    | some n => cases heq
    | none =>
      cases heq
      exact hkilled

/-- A script changes no files but the targets of its commands. -/
theorem wp_targets {script : Script} {targets : List (List Char)}
    (h : ∀ c ∈ script.commands, ∃ u, utility c = some u ∧ u.targets ⊆ targets) :
    wp utilities script.run (fun _ s' => ∀ other ∉ targets, s'.files other = s.files other) s := by
  refine wp_uses ?_ (uses_run h) fun _ _ => rfl
  rintro t c status t' ⟨u, hu, hsub⟩ hstep hsame other hother
  rw [u.step_frame (hstep u hu) fun hmem => hother (hsub hmem), hsame other hother]

end Step
end UnixFiles
