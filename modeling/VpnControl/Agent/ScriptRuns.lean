import VpnControl.Agent.Scripts
import VpnControl.Lib.UnixFiles
import VpnControl.Lib.EveryInstant

namespace VpnControl.Agent
open Awg Strings ShellWords ShellScripts UnixFiles Effects Prog

section Client

/-- A client of `docker`: each run of it ends with a text or with an error text. -/
abbrev DockerCalls (α : Type) : Type := Prog DockerRun (fun _ => Except Text Text) Text α

def callDocker (r : DockerRun) : DockerCalls Text := do
  let answer ← perform r
  lift answer

/-- `strings.Fields`. -/
def fields (s : Text) : List Text := (s.splitOnP isSpace).filter (· ≠ [])

/-- `strconv.ParseInt` of a text without a sign, in base 10 and for 64 bits. -/
def parseSize (go : GoTexts) (text : Text) : Except Text Nat :=
  if !isNumber text then
    .error (lit "strconv.ParseInt: parsing " ++ go.quote text ++ lit ": invalid syntax")
  else if number text < 2 ^ 63 then .ok (number text)
  else .error (lit "strconv.ParseInt: parsing " ++ go.quote text ++ lit ": value out of range")

/-- What `stat` printed, or that the file is missing. -/
def parseFileInfo (go : GoTexts) (filePath out : Text) : Except Text FileInfo :=
  let out := trimSpace out
  if out = lit "missing" then .ok {}
  else
    match fields out with
    | [size, mode] =>
      match parseSize go size with
      | .ok size => .ok ⟨true, size, mode⟩
      | .error cause => .error (lit "parse stat size for " ++ filePath ++ lit ": " ++ cause)
    | _ => .error (lit "unexpected stat output for " ++ filePath ++ lit ": " ++ go.quote out)

namespace DockerClient

def readFile (container filePath : Text) : DockerRun := exec container [lit "cat", filePath]

def readFileOrEmptyArray (container filePath : Text) : DockerRun :=
  shell container (lit "if test -f " ++ shellQuote filePath ++ lit "; then cat " ++
    shellQuote filePath ++ lit "; else printf '[]\\n'; fi")

def statFile (container filePath : Text) : DockerRun :=
  shell container (lit "if test -e " ++ shellQuote filePath ++ lit "; then stat -c '%s %a' " ++
    shellQuote filePath ++ lit "; else echo missing; fi")

def fileInfo (go : GoTexts) (container filePath : Text) : DockerCalls FileInfo := do
  let out ← callDocker (statFile container filePath)
  lift (parseFileInfo go filePath out)

/-- One run after the other, while they succeed. -/
def callAll : List DockerRun → DockerCalls Unit
  | [] => ret ()
  | r :: rest => do
    let _ ← callDocker r
    callAll rest

end DockerClient
end Client

section Container

/-- What a run of `docker exec` starts inside the container. -/
def DockerRun.inside (r : DockerRun) : List Text :=
  match r.args with
  | [] => []
  | _ :: rest => if rest.head? = some (lit "-i") then rest.drop 2 else rest.drop 1

/-- A shell with its script, or a single command; there is none for a text that is no script. -/
def DockerRun.program (r : DockerRun) : Option (Shell Nat) :=
  match r.inside with
  | [name, option, script] =>
    if name = lit "sh" ∧ option = lit "-lc" then (ofText script).map Script.run
    else some (runCommand ⟨[name, option, script], []⟩)
  | words => some (runCommand ⟨words, []⟩)

/-- The files of a container and the config that its interface last was synced to. -/
structure Container where
  files : Text → Option File
  applied : Option Text

/-- A run that answers with a text has ended with status 0; one that failed may have been
stopped anywhere, or not even have started. -/
def dockerRuns : Env Container DockerRun fun _ => Except Text Text := fun c r answer c' =>
  ∀ p, r.program = some p →
    (c' = c ∧ ∃ text, answer = .error text) ∨
    ∃ out u, Runs utilities p ⟨c.files, r.input, []⟩ out u ∧ c' = { c with files := u.files } ∧
      ∀ text, answer = .ok text → exitStatus out = some 0 ∧ text = u.output

/-- A client of a container in which nothing disturbs a script. -/
def undisturbedDocker : Handler Container DockerRun fun _ => Except Text Text := fun c r =>
  match r.program with
  | some p =>
    let (out, u) := p.runWith undisturbed ⟨c.files, r.input, []⟩
    (if exitStatus out = some 0 then .ok u.output else .error u.output, { c with files := u.files })
  | none => (.error [], c)

variable (go : GoTexts) (o : Options) (container : Text)

/-- The operations of the service as the client performs them. -/
def containerStep (c : Container) : (e : Op) → e.Res → Container → Prop
  | .now, _, c' => c' = c
  | .mapOrder, _, c' => c' = c
  | .readFile file, r, c' =>
    Runs dockerRuns (callDocker (DockerClient.readFile container (file.text o))) c r c'
  | .readFileOrEmptyArray file, r, c' =>
    Runs dockerRuns (callDocker (DockerClient.readFileOrEmptyArray container (file.text o))) c r c'
  | .fileInfo file, r, c' =>
    Runs dockerRuns (DockerClient.fileInfo go container (file.text o)) c r c'
  | .writeFileAtomic file data mode, r, c' => ∃ unixNano,
    Runs dockerRuns (DockerClient.callAll
      (DockerClient.writeFileAtomic container (file.text o) data mode unixNano)) c r c'
  | .backupFile file backup required, r, c' =>
    Runs dockerRuns (DockerClient.callAll
      [DockerClient.backupFile container (file.text o) (backup.text o) required]) c r c'
  | .restoreFile backup file mode, r, c' =>
    Runs dockerRuns (DockerClient.callAll
      [DockerClient.restoreFile container (backup.text o) (file.text o) mode]) c r c'
  | .removeFile file, r, c' =>
    Runs dockerRuns (DockerClient.callAll [DockerClient.removeFile container (file.text o)]) c r c'
  | .syncConf, r, c' =>
    match r with
    | .ok _ => c' = { c with applied := (c.files o.configPath).map File.content }
    | .error _ => ∃ applied, c' = { c with applied := applied }
  | .awgShow, _, c' => c' = c
  | .generatePrivateKey, r, c' => c' = c ∧ ∀ key, r = .ok key → trimSpace key = key
  | .publicKey _, r, c' => c' = c ∧ ∀ key, r = .ok key → trimSpace key = key

/-- A client that is disturbed by nothing, on a container in which everything works. -/
def undisturbedContainer : Handler Container Op Op.Res
  | c, .readFile file =>
    (callDocker (DockerClient.readFile container (file.text o))).runWith undisturbedDocker c
  | c, .readFileOrEmptyArray file =>
    (callDocker (DockerClient.readFileOrEmptyArray container (file.text o))).runWith
      undisturbedDocker c
  | c, .fileInfo file =>
    (DockerClient.fileInfo go container (file.text o)).runWith undisturbedDocker c
  | c, .writeFileAtomic file data mode =>
    (DockerClient.callAll
      (DockerClient.writeFileAtomic container (file.text o) data mode 0)).runWith undisturbedDocker c
  | c, .backupFile file backup required =>
    (DockerClient.callAll
      [DockerClient.backupFile container (file.text o) (backup.text o) required]).runWith
      undisturbedDocker c
  | c, .restoreFile backup file mode =>
    (DockerClient.callAll
      [DockerClient.restoreFile container (backup.text o) (file.text o) mode]).runWith
      undisturbedDocker c
  | c, .removeFile file =>
    (DockerClient.callAll [DockerClient.removeFile container (file.text o)]).runWith
      undisturbedDocker c
  | c, .now => (⟨lit "20240101T000000", 0, lit "Mon Jan 1 00:00:00 2024"⟩, c)
  | c, .mapOrder => (⟨id, fun l => .refl l⟩, c)
  | c, .syncConf => (.ok (), { c with applied := (c.files o.configPath).map File.content })
  | c, .awgShow => (.ok (shown c.applied), c)
  | c, .generatePrivateKey => (.ok (lit "private"), c)
  | c, .publicKey _ => (.ok (lit "public"), c)

/-- A backup's name says that it is one. -/
def FilePath.Proper : FilePath → Prop
  | configBackup suffix => lit ".bak." <+: suffix
  | clientsTableBackup suffix => lit ".bak." <+: suffix
  | _ => True

instance : DecidablePred FilePath.Proper
  | .config => .isTrue trivial
  | .clientsTable => .isTrue trivial
  | .serverPublicKey => .isTrue trivial
  | .presharedKey => .isTrue trivial
  | .configBackup suffix => inferInstanceAs (Decidable (lit ".bak." <+: suffix))
  | .clientsTableBackup suffix => inferInstanceAs (Decidable (lit ".bak." <+: suffix))

/-- The files that are replaced by a renamed one. -/
def FilePath.Stateful (file : FilePath) : Prop := file = config ∨ file = clientsTable

/-- Paths under which the files do not get in each other's way. -/
structure Options.Separate : Prop where
  container : container.head? ≠ some '-'
  absolute : ∀ file : FilePath, (file.text o).head? = some '/'
  named : ∀ file : FilePath, file.Stateful → '/' ∉ base (file.text o)
  apart : ∀ a b : FilePath, a.Proper → b.Proper → a.text o = b.text o → a = b
  temporary : ∀ (a b : FilePath) (unixNano : Int), a.Stateful → b.Proper →
    DockerClient.tmpPath (a.text o) unixNano ≠ b.text o

/-- The operations that the service performs: the permissions are octal, and the files
are its own. -/
def Op.Proper : Op → Prop
  | .readFile file => file.Proper
  | .readFileOrEmptyArray file => file.Proper
  | .fileInfo file => file.Proper
  | .writeFileAtomic file _ mode => file.Stateful ∧ isMode mode = true
  | .backupFile file backup _ => file.Proper ∧ backup.Proper
  | .restoreFile backup file mode => backup.Proper ∧ file.Proper ∧ isMode mode = true
  | .removeFile file => file.Proper
  | _ => True

/-- The container as the service knows it: by content, and only the files that are its own. -/
def Container.view (c : Container) : World where
  files file := if file.Proper then (c.files (file.text o)).map File.content else none
  applied := c.applied

end Container

namespace DockerClient
variable (container filePath backupPath mode tmp : Text)

section Scripts

def words (words : List Text) : Script := .command ⟨words, []⟩

def writeScript : Script := .command ⟨[lit "cat"], [.toFile tmp]⟩

def replaceScript : Script :=
  .andThen (words [lit "chmod", mode, tmp])
    (.andThen (words [lit "mv", lit "-f", tmp, filePath])
      (.andThen (words [lit "chmod", mode, filePath]) (words [lit "sync"])))

def backupScript (required : Bool) : Script :=
  .ifElse (words [lit "test", lit "-f", filePath])
    (words [lit "cp", lit "-p", filePath, backupPath])
    (if required then
      .seq (.command ⟨[lit "echo", lit "missing", lit "required", lit "file", filePath],
        [.toDescriptor (lit "2")]⟩) (.exit 1)
    else .command ⟨[lit "printf", lit "[]\\n"], [.toFile backupPath]⟩)

def removeScript : Script :=
  .andThen (words [lit "rm", lit "-f", filePath]) (words [lit "sync"])

def restoreScript : Script :=
  .andThen (words [lit "cp", lit "-p", backupPath, filePath])
    (.andThen (words [lit "chmod", mode, filePath]) (words [lit "sync"]))

def readScript : Script :=
  .ifElse (words [lit "test", lit "-f", filePath]) (words [lit "cat", filePath])
    (words [lit "printf", lit "[]\\n"])

def statScript : Script :=
  .ifElse (words [lit "test", lit "-e", filePath])
    (words [lit "stat", lit "-c", lit "%s %a", filePath]) (words [lit "echo", lit "missing"])

end Scripts

section Texts

theorem ofText_restoreFile :
    ofText (restoreFile container backupPath filePath mode).script =
      some (restoreScript filePath backupPath mode) := by
  rw [ofText, tokenize_restoreFile, Option.bind_some]
  simp only [bare, operator, restoreScript, words, lit_eq]
  rfl

theorem ofText_removeFile :
    ofText (removeFile container filePath).script = some (removeScript filePath) := by
  rw [ofText, tokenize_removeFile, Option.bind_some]
  simp only [bare, operator, removeScript, words, lit_eq]
  rfl

theorem ofText_backupFile (required : Bool) :
    ofText (backupFile container filePath backupPath required).script =
      some (backupScript filePath backupPath required) := by
  rw [ofText, tokenize_backupFile, Option.bind_some]
  cases required with
  | true =>
    simp only [bare, operator, backupScript, words, lit_eq, if_true]
    rfl
  | false =>
    simp only [bare, operator, backupScript, words, lit_eq]
    rfl

theorem ofText_writeFileAtomic (data : Text) (unixNano : Int) :
    ((writeFileAtomic container filePath data mode unixNano).map DockerRun.script).map ofText =
      [some (writeScript (tmpPath filePath unixNano)),
        some (replaceScript filePath mode (tmpPath filePath unixNano))] := by
  have htokens := tokenize_writeFileAtomic container filePath mode data unixNano
  generalize tmpPath filePath unixNano = tmp at htokens ⊢
  have hparse := congrArg (List.map (Option.bind · parse)) htokens
  rw [List.map_map] at hparse
  refine hparse.trans ?_
  simp only [bare, operator, writeScript, replaceScript, words, lit_eq]
  rfl

theorem tokenize_readFileOrEmptyArray :
    tokenize (readFileOrEmptyArray container filePath).script =
      some [bare "if", bare "test", bare "-f", .word filePath true, operator ";", bare "then",
        bare "cat", .word filePath true, operator ";", bare "else", bare "printf",
        .word (lit "[]\\n") true, operator ";", bare "fi"] := by
  have hif : leading (lit "if test -f ") = some [bare "if", bare "test", bare "-f"] := by
    simp only [bare, lit_eq]
    decide
  have hthen : leading (lit "; then cat ") = some [operator ";", bare "then", bare "cat"] := by
    simp only [operator, bare, lit_eq]
    decide
  have helse : tokenize (lit "; else printf '[]\\n'; fi") = some [operator ";", bare "else",
      bare "printf", .word (lit "[]\\n") true, operator ";", bare "fi"] := by
    simp only [operator, bare, lit_eq]
    decide
  have hsemicolon : ∀ w, Delimits (';' :: w) := fun w => by
    simp [Delimits, isDelimiter, operators]
  have hscript : (readFileOrEmptyArray container filePath).script =
      lit "if test -f " ++ (shellQuote filePath ++ (lit "; then cat " ++ (shellQuote filePath ++
        lit "; else printf '[]\\n'; fi"))) := by
    simp [readFileOrEmptyArray, shell, exec, DockerRun.script]
  rw [hscript, tokenize_value hif (by simp [lit_eq, hsemicolon]),
    tokenize_value hthen (by simp [lit_eq, hsemicolon]), helse]
  rfl

theorem tokenize_statFile :
    tokenize (statFile container filePath).script =
      some [bare "if", bare "test", bare "-e", .word filePath true, operator ";", bare "then",
        bare "stat", bare "-c", .word (lit "%s %a") true, .word filePath true, operator ";",
        bare "else", bare "echo", bare "missing", operator ";", bare "fi"] := by
  have hif : leading (lit "if test -e ") = some [bare "if", bare "test", bare "-e"] := by
    simp only [bare, lit_eq]
    decide
  have hthen : leading (lit "; then stat -c '%s %a' ") = some [operator ";", bare "then",
      bare "stat", bare "-c", .word (lit "%s %a") true] := by
    simp only [operator, bare, lit_eq]
    decide
  have helse : tokenize (lit "; else echo missing; fi") = some [operator ";", bare "else",
      bare "echo", bare "missing", operator ";", bare "fi"] := by
    simp only [operator, bare, lit_eq]
    decide
  have hsemicolon : ∀ w, Delimits (';' :: w) := fun w => by
    simp [Delimits, isDelimiter, operators]
  have hscript : (statFile container filePath).script =
      lit "if test -e " ++ (shellQuote filePath ++ (lit "; then stat -c '%s %a' " ++
        (shellQuote filePath ++ lit "; else echo missing; fi"))) := by
    simp [statFile, shell, exec, DockerRun.script]
  rw [hscript, tokenize_value hif (by simp [lit_eq, hsemicolon]),
    tokenize_value hthen (by simp [lit_eq, hsemicolon]), helse]
  rfl

theorem ofText_readFileOrEmptyArray :
    ofText (readFileOrEmptyArray container filePath).script = some (readScript filePath) := by
  rw [ofText, tokenize_readFileOrEmptyArray, Option.bind_some]
  simp only [bare, operator, readScript, words, lit_eq]
  rfl

theorem ofText_statFile :
    ofText (statFile container filePath).script = some (statScript filePath) := by
  rw [ofText, tokenize_statFile, Option.bind_some]
  simp only [bare, operator, statScript, words, lit_eq]
  rfl

end Texts
end DockerClient
end VpnControl.Agent
