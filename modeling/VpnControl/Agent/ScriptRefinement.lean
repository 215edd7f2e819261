import VpnControl.Agent.ScriptEffects
import VpnControl.Agent.ScriptPaths
import VpnControl.Agent.Atomicity

namespace VpnControl.Agent
open Awg Strings ShellWords ShellScripts UnixFiles Effects Prog

namespace DockerClient

section Calls

/-- Only the files at these paths may have changed. -/
structure Touches (paths : List Text) (c c' : Container) : Prop where
  applied : c'.applied = c.applied
  files : ∀ other ∉ paths, c'.files other = c.files other

theorem Touches.refl (paths : List Text) (c : Container) : Touches paths c c := ⟨rfl, fun _ _ => rfl⟩

theorem Touches.trans {paths : List Text} {c c₁ c₂ : Container} (h₁ : Touches paths c c₁)
    (h₂ : Touches paths c₁ c₂) : Touches paths c c₂ :=
  ⟨h₂.applied.trans h₁.applied, fun other hother =>
    (h₂.files other hother).trans (h₁.files other hother)⟩

theorem Touches.mono {paths paths' : List Text} {c c' : Container} (h : Touches paths c c')
    (hsub : paths ⊆ paths') : Touches paths' c c' :=
  ⟨h.applied, fun other hother => h.files other fun hmem => hother (hsub hmem)⟩

variable {r : DockerRun} {script : Script} {c : Container}

theorem wp_callDocker {Q : Post Unix Stop Nat} {R : Post Container Text Text}
    (hprogram : r.program = some script.run)
    (hscript : wp utilities script.run Q ⟨c.files, r.input, []⟩)
    (hfail : ∀ text, R (.error text) c)
    (hdone : ∀ out u answer, Q out u →
      (∀ text, answer = .ok text → exitStatus out = some 0 ∧ text = u.output) →
      R answer { c with files := u.files }) :
    wp dockerRuns (callDocker r) R c := by
  intro answer c' hstep
  change wp dockerRuns (lift answer) R c'
  rw [wp_lift]
  rcases hstep _ hprogram with ⟨rfl, text, rfl⟩ | ⟨out, u, hruns, rfl, hanswer⟩
  · exact hfail text
  · exact hdone out u answer (hruns.post hscript) hanswer

theorem dockerRuns_undisturbed (c : Container) (r : DockerRun) :
    dockerRuns c r (undisturbedDocker c r).1 (undisturbedDocker c r).2 := by
  intro p hp
  refine .inr ⟨_, _, runs_runWith utilities_undisturbed p _, ?_⟩
  simp only [undisturbedDocker, hp]
  refine ⟨trivial, fun text htext => ?_⟩
  split at htext
  · cases htext
    exact ⟨‹_›, rfl⟩
  · cases htext

theorem containerStep_undisturbed (go : GoTexts) (o : Options) (container : Text) (c : Container)
    (e : Op) :
    containerStep go o container c e (undisturbedContainer go o container c e).1
      (undisturbedContainer go o container c e).2 := by
  have hkey : ∀ (key : String) (text : Text), (.ok (lit key) : Except Text Text) = .ok text →
      trimSpace (lit key) = lit key → trimSpace text = text := by
    rintro key text ⟨⟩ h
    exact h
  cases e with
  | now => rfl
  | mapOrder => rfl
  | awgShow => rfl
  | syncConf => rfl
  | generatePrivateKey => exact ⟨rfl, fun text h => hkey _ text h (by decide +kernel)⟩
  | publicKey _ => exact ⟨rfl, fun text h => hkey _ text h (by decide +kernel)⟩
  | readFile file => exact runs_runWith dockerRuns_undisturbed _ c
  | readFileOrEmptyArray file => exact runs_runWith dockerRuns_undisturbed _ c
  | fileInfo file => exact runs_runWith dockerRuns_undisturbed _ c
  | writeFileAtomic file data mode => exact ⟨0, runs_runWith dockerRuns_undisturbed _ c⟩
  | backupFile file backup required => exact runs_runWith dockerRuns_undisturbed _ c
  | restoreFile backup file mode => exact runs_runWith dockerRuns_undisturbed _ c
  | removeFile file => exact runs_runWith dockerRuns_undisturbed _ c

/-- A run that changes files: `always` holds wherever it stops, `done` when it succeeds. -/
theorem wp_changing {paths : List Text} (always done : (Text → Option File) → Prop)
    (hprogram : r.program = some script.run)
    (htargets : ∀ cmd ∈ script.commands, ∃ u, utility cmd = some u ∧ u.targets ⊆ paths)
    (hstart : always c.files)
    (hscript : wp utilities script.run (fun out u =>
      always u.files ∧ (exitStatus out = some 0 → done u.files)) ⟨c.files, r.input, []⟩) :
    wp dockerRuns (callDocker r) (fun out c' => Touches paths c c' ∧ always c'.files ∧
      ((∃ text, out = .ok text) → done c'.files)) c := by
  refine wp_callDocker hprogram (wp_and hscript (wp_targets htargets)) ?_ ?_
  · exact fun text => ⟨.refl paths c, hstart, by simp⟩
  · rintro out u answer ⟨⟨halways, hdone⟩, hframe⟩ hanswer
    refine ⟨⟨rfl, hframe⟩, halways, ?_⟩
    rintro ⟨text, rfl⟩
    exact hdone (hanswer text rfl).1

/-- A run that only reads: what it prints when it succeeds. -/
theorem wp_reading (prints : Text → Prop) (hprogram : r.program = some script.run)
    (htargets : ∀ cmd ∈ script.commands, ∃ u, utility cmd = some u ∧ u.targets ⊆ [])
    (hscript : wp utilities script.run (fun out u => exitStatus out = some 0 → prints u.output)
      ⟨c.files, r.input, []⟩) :
    wp dockerRuns (callDocker r) (fun out c' => c' = c ∧ ∀ text, out = .ok text → prints text) c := by
  refine wp_callDocker hprogram (wp_and hscript (wp_targets htargets)) ?_ ?_
  · exact fun text => ⟨rfl, by simp⟩
  · rintro out u answer ⟨hprints, hframe⟩ hanswer
    constructor
    · obtain ⟨files, applied⟩ := c
      congr
      funext other
      exact hframe other (by simp)
    · intro text htext
      obtain ⟨hstatus, rfl⟩ := hanswer text htext
      exact hprints hstatus

theorem wp_callAll_single {R : Post Container Text Unit}
    (h : wp dockerRuns (callDocker r) (fun out c' => R (out.map fun _ => ()) c') c) :
    wp dockerRuns (callAll [r]) R c := by
  apply wp_seq h
  · exact fun _ _ hR => hR
  · exact fun _ _ hR => hR

end Calls

section Programs
variable {container filePath backupPath mode : Text} (hcontainer : container.head? ≠ some '-')

theorem program_execInput (input script : Text) :
    (execInput container input [lit "sh", lit "-lc", script]).program =
      (ofText script).map Script.run := by
  simp [DockerRun.program, DockerRun.inside, execInput]

include hcontainer

theorem program_shell (script : Text) :
    (shell container script).program = (ofText (shell container script).script).map Script.run := by
  have hne : container ≠ lit "-i" := by
    rintro rfl
    simp [lit_eq] at hcontainer
  simp [DockerRun.program, DockerRun.inside, shell, exec, hne, DockerRun.script]

theorem program_readFile :
    (readFile container filePath).program = some (words [lit "cat", filePath]).run := by
  have hne : container ≠ lit "-i" := by
    rintro rfl
    simp [lit_eq] at hcontainer
  simp [DockerRun.program, DockerRun.inside, readFile, exec, hne, words, Script.run]

theorem program_of_script {r : DockerRun} {text : Text} {script : Script}
    (hr : r = shell container text) (hscript : ofText r.script = some script) :
    r.program = some script.run := by
  subst hr
  rw [program_shell hcontainer, hscript]
  rfl

theorem program_writeFileAtomic (data : Text) (unixNano : Int) :
    ∃ write replace,
      writeFileAtomic container filePath data mode unixNano = [write, replace] ∧
        write.input = data ∧
        write.program = some (writeScript (tmpPath filePath unixNano)).run ∧
        replace.program = some (replaceScript filePath mode (tmpPath filePath unixNano)).run := by
  have htexts := ofText_writeFileAtomic container filePath mode data unixNano
  rw [writeFileAtomic] at htexts ⊢
  simp only [List.map_cons, List.map_nil, List.cons.injEq, and_true] at htexts
  refine ⟨_, _, rfl, rfl, ?_, program_of_script hcontainer rfl htexts.2⟩
  rw [program_execInput, ← Option.map_some, ← htexts.1]
  rfl

end Programs

section Effects
variable {container filePath backupPath mode : Text} {c : Container}
  (hcontainer : container.head? ≠ some '-') (hpath : isPath filePath = true)

include hcontainer hpath

/-- Wherever the two runs stop, the file is the old one or the new one with its
permissions; when they succeed it is the new one, and nothing is left beside it. -/
theorem wp_writeFileAtomic (hmode : isMode mode = true) (data : Text) {unixNano : Int}
    (htmp : isPath (tmpPath filePath unixNano) = true) (hne : tmpPath filePath unixNano ≠ filePath) :
    wp dockerRuns (callAll (writeFileAtomic container filePath data mode unixNano)) (fun out c' =>
      Touches [filePath, tmpPath filePath unixNano] c c' ∧
        (c'.files filePath = c.files filePath ∨ c'.files filePath = some ⟨data, mode⟩) ∧
        (out = .ok () → c'.files filePath = some ⟨data, mode⟩ ∧
          c'.files (tmpPath filePath unixNano) = none)) c := by
  obtain ⟨write, replace, hruns, hinput, hwrite, hreplace⟩ :=
    program_writeFileAtomic hcontainer data unixNano
  rw [hruns]
  generalize tmpPath filePath unixNano = tmp at htmp hne hwrite hreplace ⊢
  have hfirst := wp_changing (c := c) (fun _ => True) (fun files => ∃ m, files tmp = some ⟨data, m⟩)
    hwrite (targets_writeScript htmp) trivial
    (wp_mono (wp_writeScript htmp) fun out u h => ⟨trivial, hinput ▸ h⟩)
  apply wp_seq hfirst
  · rintro text c₁ ⟨htouches, -, hdone⟩
    obtain ⟨m, hm⟩ := hdone ⟨text, rfl⟩
    have hsame : c₁.files filePath = c.files filePath :=
      htouches.files filePath (by simpa using hne.symm)
    apply wp_callAll_single
    apply wp_mono (wp_changing (c := c₁)
      (fun files => files filePath = c₁.files filePath ∨ files filePath = some ⟨data, mode⟩)
      (fun files => files filePath = some ⟨data, mode⟩ ∧ files tmp = none) hreplace
      (targets_replaceScript hmode hpath htmp) (.inl rfl) (wp_replaceScript hmode hpath htmp hne hm))
    rintro out c₂ ⟨htouches₂, halways, hdone₂⟩
    refine ⟨(htouches.mono (by simp)).trans htouches₂, hsame ▸ halways, fun hout => hdone₂ ?_⟩
    cases out with
    | ok text => exact ⟨text, rfl⟩
    | error text => cases hout
  · rintro text c₁ ⟨htouches, -, -⟩
    exact ⟨htouches.mono (by simp), .inl (htouches.files filePath (by simpa using hne.symm)),
      by simp⟩

theorem wp_backupFile (hbackup : isPath backupPath = true) (required : Bool) :
    wp dockerRuns (callAll [backupFile container filePath backupPath required]) (fun out c' =>
      Touches [backupPath] c c' ∧
        (out = .ok () → CopyOf required (c'.files backupPath) (c.files filePath))) c := by
  have hprogram := program_of_script hcontainer rfl
    (ofText_backupFile container filePath backupPath required)
  apply wp_callAll_single
  apply wp_mono (wp_changing (c := c) (fun _ => True)
    (fun files => CopyOf required (files backupPath) (c.files filePath)) hprogram
    (targets_backupScript hpath hbackup required) trivial
    (wp_mono (wp_backupScript hpath hbackup required) fun out u h => ⟨trivial, h⟩))
  rintro out c' ⟨htouches, -, hdone⟩
  refine ⟨htouches, fun hout => hdone ?_⟩
  cases out with
  | ok text => exact ⟨text, rfl⟩
  | error text => cases hout

theorem wp_removeFile :
    wp dockerRuns (callAll [removeFile container filePath]) (fun out c' =>
      Touches [filePath] c c' ∧ (c'.files filePath = c.files filePath ∨ c'.files filePath = none) ∧
        (out = .ok () → c'.files filePath = none)) c := by
  have hprogram := program_of_script hcontainer rfl (ofText_removeFile container filePath)
  apply wp_callAll_single
  apply wp_mono (wp_changing (c := c)
    (fun files => files filePath = c.files filePath ∨ files filePath = none)
    (fun files => files filePath = none) hprogram (targets_removeScript hpath) (.inl rfl)
    (wp_removeScript hpath))
  rintro out c' ⟨htouches, halways, hdone⟩
  refine ⟨htouches, halways, fun hout => hdone ?_⟩
  cases out with
  | ok text => exact ⟨text, rfl⟩
  | error text => cases hout

theorem wp_restoreFile (hmode : isMode mode = true) (hbackup : isPath backupPath = true) :
    wp dockerRuns (callAll [restoreFile container backupPath filePath mode]) (fun out c' =>
      Touches [filePath] c c' ∧ (out = .ok () → ∃ file, c.files backupPath = some file ∧
        c'.files filePath = some ⟨file.content, mode⟩)) c := by
  have hprogram := program_of_script hcontainer rfl
    (ofText_restoreFile container filePath backupPath mode)
  apply wp_callAll_single
  apply wp_mono (wp_changing (c := c) (fun _ => True)
    (fun files => ∃ file, c.files backupPath = some file ∧
      files filePath = some ⟨file.content, mode⟩) hprogram
    (targets_restoreScript hmode hpath hbackup) trivial
    (wp_mono (wp_restoreScript hmode hpath hbackup) fun out u h => ⟨trivial, h⟩))
  rintro out c' ⟨htouches, -, hdone⟩
  refine ⟨htouches, fun hout => hdone ?_⟩
  cases out with
  | ok text => exact ⟨text, rfl⟩
  | error text => cases hout

theorem wp_readFile :
    wp dockerRuns (callDocker (readFile container filePath)) (fun out c' =>
      c' = c ∧ ∀ text, out = .ok text → (c.files filePath).map File.content = some text) c :=
  wp_reading (fun text => (c.files filePath).map File.content = some text)
    (program_readFile hcontainer) (targets_catCommand hpath) (wp_catCommand hpath rfl)

theorem wp_readFileOrEmptyArray :
    wp dockerRuns (callDocker (readFileOrEmptyArray container filePath)) (fun out c' =>
      c' = c ∧ ∀ text, out = .ok text →
        text = ((c.files filePath).map File.content).getD (lit "[]\n")) c :=
  wp_reading (fun text => text = ((c.files filePath).map File.content).getD (lit "[]\n"))
    (program_of_script hcontainer rfl (ofText_readFileOrEmptyArray container filePath))
    (targets_readScript hpath) (wp_readScript hpath rfl)

theorem wp_statFile :
    wp dockerRuns (callDocker (statFile container filePath)) (fun out c' =>
      c' = c ∧ ∀ text, out = .ok text → text = statText (c.files filePath)) c :=
  wp_reading (· = statText (c.files filePath))
    (program_of_script hcontainer rfl (ofText_statFile container filePath))
    (targets_statScript hpath) (wp_statScript hpath rfl)

end Effects
/-- What is read out of the line of `stat` is whether the file is there. -/
theorem fileExists_of_stat {go : GoTexts} {file : Option File} {info : FileInfo}
    (h : parseFileInfo go filePath (statText file) = .ok info) : info.fileExists = file.isSome := by
  cases file with
  | none =>
    have hmissing : trimSpace (statText none) = lit "missing" := by
      simp only [statText, lit_eq]
      decide
    simp only [parseFileInfo, hmissing, if_true] at h
    cases h
    rfl
  | some file =>
    obtain ⟨hne, hdigits, -⟩ := decimal_digits (size file.content)
    obtain ⟨c, rest, hcons⟩ := List.exists_cons_of_ne_nil hne
    have hc : Json.isDigit c = true := List.all_eq_true.mp hdigits c (by simp [hcons])
    have hspace : isSpace c = false := by
      simp only [Json.isDigit, Bool.and_eq_true, decide_eq_true_eq] at hc
      exact isSpace_graphic (le_trans (by decide) hc.1) (le_trans hc.2 (by decide))
    have hdecimal : (Nat.repr (size file.content)).toList = c :: rest := by
      rw [← hcons, Nat.toList_repr]
      rfl
    have htext : trimSpace (statText (some file)) ≠ lit "missing" := by
      rw [statText, hdecimal, List.cons_append, List.cons_append, List.cons_append, trimSpace,
        ← List.nil_append (c :: _), Trim.trim_append_cons hspace]
      intro heq
      rw [lit_eq] at heq
      obtain rfl : c = 'm' := (List.cons.inj heq).1
      revert hc
      decide
    simp only [parseFileInfo, htext, if_false] at h
    split at h
    · split at h
      · cases h
        rfl
      · cases h
    · cases h

end DockerClient

section Refinement
variable {go : GoTexts} {o : Options} {container : Text} {c c' : Container}

theorem view_files {file : FilePath} (h : file.Proper) :
    (c.view o).files file = (c.files (file.text o)).map File.content := if_pos h

/-- What a change of one file is in the view. -/
theorem view_put {file : FilePath} (hproper : file.Proper)
    {paths : List Text} (htouches : DockerClient.Touches paths c c')
    (hpaths : ∀ b : FilePath, b.Proper → b ≠ file → b.text o ∉ paths) :
    c'.view o = (c.view o).put file ((c'.files (file.text o)).map File.content) := by
  unfold Container.view World.put
  rw [htouches.applied]
  congr 1
  funext b
  by_cases hb : b = file
  · subst hb
    rw [Function.update_self, if_pos hproper]
  · rw [Function.update_of_ne hb]
    change _ = if b.Proper then _ else _
    split
    · rw [htouches.files _ (hpaths b ‹_› hb)]
    · rfl

theorem put_same (w : World) (file : FilePath) : w.put file (w.files file) = w := by
  rw [World.put, Function.update_eq_self]

variable (hsep : o.Separate container)

include hsep

theorem isPath_text (file : FilePath) : isPath (file.text o) = true := by
  simpa [isPath] using hsep.absolute file

/-- The change of one file, seen without what happens beside it. -/
theorem view_target {file : FilePath} (hproper : file.Proper)
    (htouches : DockerClient.Touches [file.text o] c c') :
    c'.view o = (c.view o).put file ((c'.files (file.text o)).map File.content) := by
  refine view_put hproper htouches fun b hb hne hmem => hne ?_
  exact hsep.apart b file hb hproper (List.mem_singleton.mp hmem)

theorem writeFileAtomic_refines {file : FilePath} (hfile : file.Stateful) {data mode : Text}
    (hmode : isMode mode = true) {unixNano : Int} {r : Except Text Unit}
    (h : Runs dockerRuns (DockerClient.callAll
      (DockerClient.writeFileAtomic container (file.text o) data mode unixNano)) c r c') :
    dockerStep (c.view o) (.writeFileAtomic file data mode) r (c'.view o) := by
  have hproper : file.Proper := by
    rcases hfile with rfl | rfl
    · trivial
    · trivial
  obtain ⟨htmp, hne⟩ := DockerClient.tmpPath_spec (hsep.absolute file) (hsep.named file hfile) unixNano
  obtain ⟨htouches, halways, hdone⟩ := h.post (DockerClient.wp_writeFileAtomic (c := c)
    hsep.container (isPath_text hsep file) hmode data (by simpa [isPath] using htmp) hne)
  have hview : c'.view o = (c.view o).put file ((c'.files (file.text o)).map File.content) := by
    refine view_put hproper htouches fun b hb hbne hmem => ?_
    rw [List.mem_cons, List.mem_singleton] at hmem
    rcases hmem with heq | heq
    · exact hbne (hsep.apart b file hb hproper heq)
    · exact hsep.temporary file b unixNano hfile hb heq.symm
  by_cases hr : r = .ok ()
  · rw [(hdone hr).1] at hview
    exact .inr hview
  · rcases halways with hold | hnew
    · rw [hold, ← view_files hproper, put_same] at hview
      exact .inl ⟨hview, hr⟩
    · rw [hnew] at hview
      exact .inr hview

theorem backupFile_refines {file backup : FilePath} (hfile : file.Proper) (hbackup : backup.Proper)
    {required : Bool} {r : Except Text Unit}
    (h : Runs dockerRuns (DockerClient.callAll
      [DockerClient.backupFile container (file.text o) (backup.text o) required]) c r c') :
    dockerStep (c.view o) (.backupFile file backup required) r (c'.view o) := by
  obtain ⟨htouches, hdone⟩ := h.post (DockerClient.wp_backupFile (c := c) hsep.container
    (isPath_text hsep file) (isPath_text hsep backup) required)
  have hview := view_target hsep hbackup htouches
  cases r with
  | error text => exact ⟨_, hview⟩
  | ok _ =>
    have hcopy := hdone rfl
    change backupContent _ _ _ ≠ none ∧ _ = _
    rw [hview, backupContent, view_files hfile]
    cases hold : c.files (file.text o) with
    | some content =>
      rw [hold] at hcopy
      rw [show c'.files (backup.text o) = some content from hcopy]
      exact ⟨by simp, rfl⟩
    | none =>
      rw [hold] at hcopy
      obtain ⟨rfl, m, hm⟩ := hcopy
      rw [hm]
      exact ⟨by simp, rfl⟩

theorem restoreFile_refines {file backup : FilePath} (hfile : file.Proper) (hbackup : backup.Proper)
    {mode : Text} (hmode : isMode mode = true) {r : Except Text Unit}
    (h : Runs dockerRuns (DockerClient.callAll
      [DockerClient.restoreFile container (backup.text o) (file.text o) mode]) c r c') :
    dockerStep (c.view o) (.restoreFile backup file mode) r (c'.view o) := by
  obtain ⟨htouches, hdone⟩ := h.post (DockerClient.wp_restoreFile (c := c) hsep.container
    (isPath_text hsep file) hmode (isPath_text hsep backup))
  have hview := view_target hsep hfile htouches
  cases r with
  | error text => exact ⟨_, hview⟩
  | ok _ =>
    obtain ⟨copied, hcopied, hnew⟩ := hdone rfl
    change (c.view o).files backup ≠ none ∧ _ = _
    rw [hview, view_files hbackup, hcopied, hnew]
    exact ⟨by simp, rfl⟩

theorem removeFile_refines {file : FilePath} (hfile : file.Proper) {r : Except Text Unit}
    (h : Runs dockerRuns (DockerClient.callAll
      [DockerClient.removeFile container (file.text o)]) c r c') :
    dockerStep (c.view o) (.removeFile file) r (c'.view o) := by
  obtain ⟨htouches, halways, hdone⟩ := h.post (DockerClient.wp_removeFile (c := c) hsep.container
    (isPath_text hsep file))
  have hview := view_target hsep hfile htouches
  by_cases hr : r = .ok ()
  · rw [hdone hr] at hview
    exact .inr hview
  · rcases halways with hold | hgone
    · rw [hold, ← view_files hfile, put_same] at hview
      exact .inl ⟨hview, hr⟩
    · rw [hgone] at hview
      exact .inr hview

theorem fileInfo_refines {file : FilePath} (hfile : file.Proper) {r : Except Text FileInfo}
    (h : Runs dockerRuns (DockerClient.fileInfo go container (file.text o)) c r c') :
    dockerStep (c.view o) (.fileInfo file) r (c'.view o) := by
  have hstat := DockerClient.wp_statFile (c := c) hsep.container (isPath_text hsep file)
  have hinfo : wp dockerRuns (DockerClient.fileInfo go container (file.text o)) (fun out c' =>
      c' = c ∧ ∀ info, out = .ok info → info.fileExists = (c.files (file.text o)).isSome) c := by
    apply wp_seq hstat
    · rintro text c₁ ⟨rfl, htext⟩
      rw [wp_lift]
      refine ⟨rfl, fun info hparsed => ?_⟩
      rw [htext text rfl] at hparsed
      exact DockerClient.fileExists_of_stat hparsed
    · rintro text c₁ ⟨rfl, -⟩
      exact ⟨rfl, by simp⟩
  obtain ⟨rfl, hexists⟩ := h.post hinfo
  refine ⟨rfl, fun info hr => ?_⟩
  rw [hexists info hr, view_files hfile, Option.isSome_map]

/-- What the client makes of an operation is what the service relies on. -/
theorem containerStep_refines {e : Op} {r : e.Res} (he : e.Proper)
    (h : containerStep go o container c e r c') : dockerStep (c.view o) e r (c'.view o) := by
  cases e with
  -- what runs no script leaves the files, and so the view, alone
  | now => exact congrArg (Container.view o) h
  | mapOrder => exact congrArg (Container.view o) h
  | awgShow => exact congrArg (Container.view o) h
  | generatePrivateKey => exact ⟨congrArg (Container.view o) h.1, h.2⟩
  | publicKey _ => exact ⟨congrArg (Container.view o) h.1, h.2⟩
  | readFile file =>
    obtain ⟨rfl, htext⟩ := Runs.post h (DockerClient.wp_readFile (c := c) hsep.container
      (isPath_text hsep file))
    exact ⟨rfl, fun text hr => (view_files he).trans (htext text hr)⟩
  | readFileOrEmptyArray file =>
    obtain ⟨rfl, htext⟩ := Runs.post h (DockerClient.wp_readFileOrEmptyArray (c := c) hsep.container
      (isPath_text hsep file))
    refine ⟨rfl, fun text hr => ?_⟩
    rw [view_files he, ← htext text hr]
  | fileInfo file => exact fileInfo_refines hsep he h
  | writeFileAtomic file data mode =>
    obtain ⟨unixNano, hruns⟩ := h
    exact writeFileAtomic_refines hsep he.1 he.2 hruns
  | backupFile file backup required => exact backupFile_refines hsep he.1 he.2 h
  | restoreFile backup file mode => exact restoreFile_refines hsep he.2.1 he.1 he.2.2 h
  | removeFile file => exact removeFile_refines hsep he h
  -- a sync applies the config file as it is
  | syncConf =>
    cases r with
    | ok _ =>
      obtain rfl := h
      have hproper : FilePath.config.Proper := trivial
      have hconfig : (c.view o).files .config = (c.files o.configPath).map File.content :=
        view_files hproper
      change _ = ({ c.view o with applied := (c.view o).files .config } : World)
      rw [hconfig]
      rfl
    | error text =>
      obtain ⟨applied, rfl⟩ := h
      exact ⟨applied, rfl⟩

end Refinement
end VpnControl.Agent
