import VpnControl.Agent.Service
import VpnControl.Lib.ShellWords

namespace VpnControl.Agent
open Awg Strings ShellWords Scan

/-- The characters that stand for one in single quotes: a quote closes them, stands behind a
backslash and opens them again. -/
def shellQuote (value : Text) : Text :=
  if value = [] then ['\'', '\'']
  else ['\''] ++ value.flatMap (fun c => if c = '\'' then ['\'', '\\', '\'', '\''] else [c]) ++ ['\'']

/-- A run of `docker`: its input, if there is one, and its arguments. -/
structure DockerRun where
  input : Text := []
  args : List Text
  deriving DecidableEq

/-- What the shell of a run is given to execute. -/
def DockerRun.script (r : DockerRun) : Text := r.args.getLastD []

/-- `path.Base`. -/
def base (p : Text) : Text :=
  if p = [] then ['.']
  else
    let trimmed := p.rdropWhile (· == '/')
    let last := trimmed.reverse.takeWhile (· ≠ '/') |>.reverse
    if last = [] then ['/'] else last

namespace DockerClient

def exec (container : Text) (args : List Text) : DockerRun :=
  { args := [lit "exec", container] ++ args }

def execInput (container input : Text) (args : List Text) : DockerRun :=
  { input, args := [lit "exec", lit "-i", container] ++ args }

def shell (container script : Text) : DockerRun := exec container [lit "sh", lit "-lc", script]

/-- The file that is written before it takes the place of another one. -/
def tmpPath (filePath : Text) (unixNano : Int) : Text :=
  joinPath (dir filePath) (['.'] ++ base filePath ++ lit ".tmp." ++ intLiteral unixNano)

/-- The second of two runs is made when the first one succeeded. -/
def writeFileAtomic (container filePath data mode : Text) (unixNano : Int) : List DockerRun :=
  let tmp := tmpPath filePath unixNano
  [execInput container data [lit "sh", lit "-lc", lit "cat > " ++ shellQuote tmp],
    shell container (join [lit "chmod " ++ shellQuote mode ++ lit " " ++ shellQuote tmp,
      lit "mv -f " ++ shellQuote tmp ++ lit " " ++ shellQuote filePath,
      lit "chmod " ++ shellQuote mode ++ lit " " ++ shellQuote filePath,
      lit "sync"] (lit " && "))]

def backupFile (container filePath backupPath : Text) (required : Bool) : DockerRun :=
  shell container
    (lit "if test -f " ++ shellQuote filePath ++ lit "; then cp -p " ++ shellQuote filePath ++
      lit " " ++ shellQuote backupPath ++ lit "; " ++
      if required then
        lit "else echo missing required file " ++ shellQuote filePath ++ lit " >&2; exit 1; fi"
      else lit "else printf '[]\\n' > " ++ shellQuote backupPath ++ lit "; fi")

def removeFile (container filePath : Text) : DockerRun :=
  shell container (lit "rm -f " ++ shellQuote filePath ++ lit " && sync")

def restoreFile (container backupPath filePath mode : Text) : DockerRun :=
  shell container (join [lit "cp -p " ++ shellQuote backupPath ++ lit " " ++ shellQuote filePath,
    lit "chmod " ++ shellQuote mode ++ lit " " ++ shellQuote filePath, lit "sync"] (lit " && "))

def syncConf (container iface configPath : Text) : DockerRun :=
  exec container [lit "bash", lit "-lc", lit "awg syncconf " ++ shellQuote iface ++
    lit " <(awg-quick strip " ++ shellQuote configPath ++ lit ")"]

end DockerClient

section Quote

/-- The characters of a quoted value, read inside single quotes. -/
theorem scan_single (value text : Text) :
    scan (single text) (value.flatMap (fun c => if c = '\'' then ['\'', '\\', '\'', '\''] else [c]) ++
      ['\'']) = ([], word (text ++ value) true) := by
  induction value generalizing text with
  | nil => simp [scan, step_single_quote]
  | cons c value ih =>
    rw [List.flatMap_cons, List.append_assoc]
    by_cases hc : c = '\''
    · subst hc
      simp only [if_true, List.cons_append, List.nil_append, scan, step_single_quote,
        step_word_backslash, step_backslash_quote, step_word_quote, ih, List.append_assoc]
    · simp only [if_neg hc, List.cons_append, List.nil_append, scan, step_single hc, ih,
        List.append_assoc]

/-- A quoted value is one word, whatever it is. -/
theorem quotes_shellQuote (value : Text) : Quotes (shellQuote value) value := by
  intro s hs
  rw [shellQuote]
  split_ifs with hempty
  · subst hempty
    simp [scan, step_quote hs, step_single_quote]
  · rw [List.append_assoc, List.singleton_append, scan, step_quote hs, scan_single]
    simp

end Quote

section Tokens

def bare (s : String) : Token := .word (lit s) false

def operator (s : String) : Token := .operator (lit s)

/-- The tokens of a text behind which a word can start. -/
def leading (l : Text) : Option (List Token) :=
  match (scan between l).2 with
  | between => some (scan between l).1
  | .operator op => some ((scan between l).1 ++ [.operator op])
  | _ => none

/-- A value between two parts of a script. -/
theorem tokenize_value {l post : Text} {before : List Token} (hl : leading l = some before)
    (hpost : Delimits post) (value : Text) :
    tokenize (l ++ (shellQuote value ++ post)) =
      (tokenize post).map (before ++ Token.word value true :: ·) := by
  rw [leading] at hl
  have hboundary : (scan between l).2.Boundary ∧ tokenize l = some before := by
    rw [tokenize]
    cases hscan : (scan between l).2 <;> rw [hscan] at hl <;> simp_all [Boundary, finish]
  rw [tokenize_quotes (quotes_shellQuote value) hboundary.1 hpost, hboundary.2, Option.bind_some]

theorem tokenize_lastValue {l : Text} {before : List Token} (hl : leading l = some before)
    (value : Text) :
    tokenize (l ++ shellQuote value) = some (before ++ [Token.word value true]) := by
  have hend : Delimits [] := by simp [Delimits]
  have h := tokenize_value hl hend value
  rw [List.append_nil] at h
  exact h

theorem leading_space : leading (lit " ") = some [] := by
  simp only [lit_eq]
  decide

theorem delimits_append {l : Text} (h : l.head? = some ' ') (w : Text) : Delimits (l ++ w) := by
  cases l with
  | nil => cases h
  | cons c l =>
    obtain rfl : c = ' ' := Option.some.inj h
    simp [Delimits, isDelimiter, ShellWords.isBlank]

namespace DockerClient
variable (container filePath backupPath mode iface configPath : Text)

theorem tokenize_sync : tokenize (lit " && sync") = some [operator "&&", bare "sync"] := by
  simp only [operator, bare, lit_eq]
  decide

theorem delimits_sync : Delimits (lit " && sync") := by
  simp [Delimits, lit_eq, isDelimiter, ShellWords.isBlank]

theorem leading_chmod : leading (lit "chmod ") = some [bare "chmod"] := by
  simp only [bare, lit_eq]
  decide

theorem leading_andChmod : leading (lit " && chmod ") = some [operator "&&", bare "chmod"] := by
  simp only [operator, bare, lit_eq]
  decide

/-- A command on two values, with what comes behind it. -/
theorem tokenize_twoValues {l : Text} {before : List Token} (hl : leading l = some before)
    {post : Text} (hpost : Delimits post) (value value' : Text) :
    tokenize (l ++ (shellQuote value ++ (lit " " ++ (shellQuote value' ++ post)))) =
      (tokenize post).map (before ++ .word value true :: .word value' true :: ·) := by
  rw [tokenize_value hl (delimits_append (by simp [lit_eq]) _),
    tokenize_value leading_space hpost, Option.map_map]
  rfl

theorem tokenize_writeFileAtomic (data : Text) (unixNano : Int) :
    ((writeFileAtomic container filePath data mode unixNano).map DockerRun.script).map tokenize =
      [some [bare "cat", operator ">", .word (tmpPath filePath unixNano) true],
        some [bare "chmod", .word mode true, .word (tmpPath filePath unixNano) true, operator "&&",
          bare "mv", bare "-f", .word (tmpPath filePath unixNano) true, .word filePath true,
          operator "&&", bare "chmod", .word mode true, .word filePath true, operator "&&",
          bare "sync"]] := by
  generalize htmp : tmpPath filePath unixNano = tmp
  have hcat : leading (lit "cat > ") = some [bare "cat", operator ">"] := by
    simp only [operator, bare, lit_eq]
    decide
  have hmv : leading (lit " && mv -f ") = some [operator "&&", bare "mv", bare "-f"] := by
    simp only [operator, bare, lit_eq]
    decide
  have hscript : (writeFileAtomic container filePath data mode unixNano).map DockerRun.script =
      [lit "cat > " ++ shellQuote tmp,
        lit "chmod " ++ (shellQuote mode ++ (lit " " ++ (shellQuote tmp ++
          (lit " && mv -f " ++ (shellQuote tmp ++ (lit " " ++ (shellQuote filePath ++
            (lit " && chmod " ++ (shellQuote mode ++ (lit " " ++ (shellQuote filePath ++
              lit " && sync")))))))))))] := by
    simp [writeFileAtomic, htmp, execInput, shell, exec, DockerRun.script, join, List.intercalate,
      lit_eq]
  rw [hscript, List.map_cons, List.map_singleton, tokenize_lastValue hcat,
    tokenize_twoValues leading_chmod (delimits_append (by simp [lit_eq]) _),
    tokenize_twoValues hmv (delimits_append (by simp [lit_eq]) _),
    tokenize_twoValues leading_andChmod delimits_sync, tokenize_sync]
  rfl

theorem tokenize_backupFile (required : Bool) :
    tokenize (backupFile container filePath backupPath required).script =
      some ([bare "if", bare "test", bare "-f", .word filePath true, operator ";", bare "then",
        bare "cp", bare "-p", .word filePath true, .word backupPath true, operator ";",
        bare "else"] ++
        if required then [bare "echo", bare "missing", bare "required", bare "file",
          .word filePath true, operator ">&", bare "2", operator ";", bare "exit", bare "1",
          operator ";", bare "fi"]
        else [bare "printf", .word (lit "[]\\n") true, operator ">", .word backupPath true,
          operator ";", bare "fi"]) := by
  have hif : leading (lit "if test -f ") = some [bare "if", bare "test", bare "-f"] := by
    simp only [bare, lit_eq]
    decide
  have hthen : leading (lit "; then cp -p ") =
      some [operator ";", bare "then", bare "cp", bare "-p"] := by
    simp only [operator, bare, lit_eq]
    decide
  have hsemicolon : ∀ w, Delimits (';' :: w) := fun w => by
    simp [Delimits, isDelimiter, operators]
  cases required with
  | true =>
    have helse : leading (lit "; else echo missing required file ") = some [operator ";",
        bare "else", bare "echo", bare "missing", bare "required", bare "file"] := by
      simp only [operator, bare, lit_eq]
      decide
    have hrest : tokenize (lit " >&2; exit 1; fi") = some [operator ">&", bare "2", operator ";",
        bare "exit", bare "1", operator ";", bare "fi"] := by
      simp only [operator, bare, lit_eq]
      decide
    have hscript : (backupFile container filePath backupPath true).script =
        lit "if test -f " ++ (shellQuote filePath ++ (lit "; then cp -p " ++ (shellQuote filePath ++
          (lit " " ++ (shellQuote backupPath ++ (lit "; else echo missing required file " ++
            (shellQuote filePath ++ lit " >&2; exit 1; fi"))))))) := by
      simp [backupFile, shell, exec, DockerRun.script, lit_eq]
    rw [hscript, tokenize_value hif (by simp [lit_eq, hsemicolon]),
      tokenize_twoValues hthen (by simp [lit_eq, hsemicolon]),
      tokenize_value helse (by simp [lit_eq, Delimits, isDelimiter, ShellWords.isBlank]), hrest]
    rfl
  | false =>
    have helse : leading (lit "; else printf '[]\\n' > ") = some [operator ";", bare "else",
        bare "printf", .word (lit "[]\\n") true, operator ">"] := by
      simp only [operator, bare, lit_eq]
      decide
    have hrest : tokenize (lit "; fi") = some [operator ";", bare "fi"] := by
      simp only [operator, bare, lit_eq]
      decide
    have hscript : (backupFile container filePath backupPath false).script =
        lit "if test -f " ++ (shellQuote filePath ++ (lit "; then cp -p " ++ (shellQuote filePath ++
          (lit " " ++ (shellQuote backupPath ++ (lit "; else printf '[]\\n' > " ++
            (shellQuote backupPath ++ lit "; fi"))))))) := by
      simp [backupFile, shell, exec, DockerRun.script, lit_eq]
    rw [hscript, tokenize_value hif (by simp [lit_eq, hsemicolon]),
      tokenize_twoValues hthen (by simp [lit_eq, hsemicolon]),
      tokenize_value helse (by simp [lit_eq, hsemicolon]), hrest]
    rfl

theorem tokenize_removeFile :
    tokenize (removeFile container filePath).script =
      some [bare "rm", bare "-f", .word filePath true, operator "&&", bare "sync"] := by
  have hrm : leading (lit "rm -f ") = some [bare "rm", bare "-f"] := by
    simp only [bare, lit_eq]
    decide
  have hscript : (removeFile container filePath).script =
      lit "rm -f " ++ (shellQuote filePath ++ lit " && sync") := by
    simp [removeFile, shell, exec, DockerRun.script]
  rw [hscript, tokenize_value hrm delimits_sync, tokenize_sync]
  rfl

theorem tokenize_restoreFile :
    tokenize (restoreFile container backupPath filePath mode).script =
      some [bare "cp", bare "-p", .word backupPath true, .word filePath true, operator "&&",
        bare "chmod", .word mode true, .word filePath true, operator "&&", bare "sync"] := by
  have hcp : leading (lit "cp -p ") = some [bare "cp", bare "-p"] := by
    simp only [bare, lit_eq]
    decide
  have hscript : (restoreFile container backupPath filePath mode).script =
      lit "cp -p " ++ (shellQuote backupPath ++ (lit " " ++ (shellQuote filePath ++
        (lit " && chmod " ++ (shellQuote mode ++ (lit " " ++ (shellQuote filePath ++
          lit " && sync"))))))) := by
    simp [restoreFile, shell, exec, DockerRun.script, join, List.intercalate, lit_eq]
  rw [hscript, tokenize_twoValues hcp (delimits_append (by simp [lit_eq]) _),
    tokenize_twoValues leading_andChmod delimits_sync, tokenize_sync]
  rfl

theorem tokenize_syncConf :
    tokenize (syncConf container iface configPath).script =
      some [bare "awg", bare "syncconf", .word iface true, operator "<", operator "(",
        bare "awg-quick", bare "strip", .word configPath true, operator ")"] := by
  have hawg : leading (lit "awg syncconf ") = some [bare "awg", bare "syncconf"] := by
    simp only [bare, lit_eq]
    decide
  have hstrip : leading (lit " <(awg-quick strip ") =
      some [operator "<", operator "(", bare "awg-quick", bare "strip"] := by
    simp only [operator, bare, lit_eq]
    decide
  have hclose : tokenize (lit ")") = some [operator ")"] := by
    simp only [operator, lit_eq]
    decide
  have hscript : (syncConf container iface configPath).script =
      lit "awg syncconf " ++ (shellQuote iface ++ (lit " <(awg-quick strip " ++
        (shellQuote configPath ++ lit ")"))) := by
    simp [syncConf, exec, DockerRun.script]
  rw [hscript, tokenize_value hawg (delimits_append (by simp [lit_eq]) _),
    tokenize_value hstrip (by simp [lit_eq, Delimits, isDelimiter, operators]),
    hclose]
  rfl

/-- A quoted value is one word wherever a word can start, and so in every script: the words
that stand for paths, modes and interfaces are these, and the commands are always the same. -/
theorem shellQuote_one_word {pre post : Text} (hpre : (scan between pre).2.Boundary)
    (hpost : Delimits post) (value : Text) :
    tokenize (pre ++ shellQuote value ++ post) =
      ((tokenize pre).bind fun before =>
        (tokenize post).map fun after => before ++ .word value true :: after) ∧
    ∀ (container filePath backupPath mode iface configPath data : Text) (unixNano : Int),
      ((writeFileAtomic container filePath data mode unixNano).map DockerRun.script).map tokenize =
        [some [bare "cat", operator ">", .word (tmpPath filePath unixNano) true],
          some [bare "chmod", .word mode true, .word (tmpPath filePath unixNano) true,
            operator "&&", bare "mv", bare "-f", .word (tmpPath filePath unixNano) true,
            .word filePath true, operator "&&", bare "chmod", .word mode true, .word filePath true,
            operator "&&", bare "sync"]] ∧
      (∀ required, tokenize (backupFile container filePath backupPath required).script =
        some ([bare "if", bare "test", bare "-f", .word filePath true, operator ";", bare "then",
          bare "cp", bare "-p", .word filePath true, .word backupPath true, operator ";",
          bare "else"] ++
          if required then [bare "echo", bare "missing", bare "required", bare "file",
            .word filePath true, operator ">&", bare "2", operator ";", bare "exit", bare "1",
            operator ";", bare "fi"]
          else [bare "printf", .word (lit "[]\\n") true, operator ">", .word backupPath true,
            operator ";", bare "fi"])) ∧
      tokenize (removeFile container filePath).script =
        some [bare "rm", bare "-f", .word filePath true, operator "&&", bare "sync"] ∧
      tokenize (restoreFile container backupPath filePath mode).script =
        some [bare "cp", bare "-p", .word backupPath true, .word filePath true, operator "&&",
          bare "chmod", .word mode true, .word filePath true, operator "&&", bare "sync"] ∧
      tokenize (syncConf container iface configPath).script =
        some [bare "awg", bare "syncconf", .word iface true, operator "<", operator "(",
          bare "awg-quick", bare "strip", .word configPath true, operator ")"] := by
  constructor
  · rw [List.append_assoc, tokenize_quotes (quotes_shellQuote value) hpre hpost]
  · intro container filePath backupPath mode iface configPath data unixNano
    exact ⟨tokenize_writeFileAtomic container filePath mode data unixNano,
      tokenize_backupFile container filePath backupPath, tokenize_removeFile container filePath,
      tokenize_restoreFile container filePath backupPath mode,
      tokenize_syncConf container iface configPath⟩

/-- A path that tries to end its quotes and to start a command of its own. -/
theorem shellQuote_one_word_hostile :
    tokenize (lit "rm -f " ++ shellQuote (lit "a'; reboot #") ++ lit " && sync") =
      some [bare "rm", bare "-f", .word (lit "a'; reboot #") true, operator "&&", bare "sync"] := by
  have hrm : (scan between (lit "rm -f ")).2.Boundary := by
    have hscan : (scan between (lit "rm -f ")).2 = between := by
      simp only [lit_eq]
      decide
    rw [hscan]
    trivial
  rw [(shellQuote_one_word hrm delimits_sync (lit "a'; reboot #")).1, tokenize_sync]
  have hl : tokenize (lit "rm -f ") = some [bare "rm", bare "-f"] := by
    simp only [bare, lit_eq]
    decide
  rw [hl]
  simp

end DockerClient
end Tokens
end VpnControl.Agent
