import VpnControl.Agent.ScriptRuns

namespace VpnControl.Agent
open Awg Strings ShellWords ShellScripts UnixFiles Effects Prog

namespace DockerClient
variable {s : Unix} {filePath backupPath mode tmp : Text}

section Utilities
variable (hmode : isMode mode = true) (hpath : isPath filePath = true)

include hpath

theorem utility_catTo : utility ⟨[lit "cat"], [.toFile filePath]⟩ = some (.catTo filePath) := by
  simp [utility, lit_eq, hpath]

theorem utility_cat : utility ⟨[lit "cat", filePath], []⟩ = some (.cat filePath) := by
  simp [utility, lit_eq, hpath]

theorem utility_printfTo :
    utility ⟨[lit "printf", lit "[]\\n"], [.toFile filePath]⟩ =
      some (.printfTo (lit "[]\n") filePath) := by
  simp [utility, lit_eq, hpath, formatted]

theorem utility_rm : utility ⟨[lit "rm", lit "-f", filePath], []⟩ = some (.rm filePath) := by
  simp [utility, lit_eq, hpath]

theorem utility_test {option : String} (hoption : option = "-f" ∨ option = "-e") :
    utility ⟨[lit "test", lit option, filePath], []⟩ = some (.test filePath) := by
  rcases hoption with rfl | rfl <;> simp [utility, lit_eq, hpath]

theorem utility_stat :
    utility ⟨[lit "stat", lit "-c", lit "%s %a", filePath], []⟩ = some (.stat filePath) := by
  simp [utility, lit_eq, hpath]

theorem utility_cp (hbackup : isPath backupPath = true) :
    utility ⟨[lit "cp", lit "-p", filePath, backupPath], []⟩ = some (.cp filePath backupPath) := by
  simp [utility, lit_eq, hpath, hbackup]

theorem utility_mv (htmp : isPath tmp = true) :
    utility ⟨[lit "mv", lit "-f", tmp, filePath], []⟩ = some (.mv tmp filePath) := by
  simp [utility, lit_eq, hpath, htmp]

include hmode in
theorem utility_chmod :
    utility ⟨[lit "chmod", mode, filePath], []⟩ = some (.chmod mode filePath) := by
  simp [utility, lit_eq, hmode, hpath]

omit hpath

theorem utility_sync : utility ⟨[lit "sync"], []⟩ = some .sync := by
  simp [utility, lit_eq]

theorem utility_complain (words : List Text) :
    utility ⟨lit "echo" :: words, [.toDescriptor (lit "2")]⟩ = some .complain := by
  simp [utility, lit_eq]

theorem utility_printf : utility ⟨[lit "printf", lit "[]\\n"], []⟩ = some (.printf (lit "[]\n")) := by
  simp [utility, lit_eq, formatted]

theorem utility_echo : utility ⟨[lit "echo", lit "missing"], []⟩ = some (.echo (lit "missing\n")) := by
  simp [utility, lit_eq, echoed]

end Utilities

/-- A copy of a file, or of an empty array for a file that may be missing. -/
def CopyOf (required : Bool) (copied : Option File) : Option File → Prop
  | some file => copied = some file
  | none => required = false ∧ ∃ m, copied = some ⟨lit "[]\n", m⟩

/-- What is printed of a file, or that it is missing. -/
def statText : Option File → Text
  | some file => (Nat.repr (size file.content)).toList ++ [' '] ++ file.mode ++ ['\n']
  | none => lit "missing\n"

section Scripts
variable (hmode : isMode mode = true) (hpath : isPath filePath = true)

/-- The last command of several scripts changes nothing. -/
theorem wp_sync {Q : Post Unix Stop Nat} (h : ∀ status, Q (ending status) s) :
    wp utilities (words [lit "sync"]).run Q s := by
  apply wp_utility utility_sync
  rintro status s' rfl
  exact h status

theorem wp_writeScript (htmp : isPath tmp = true) :
    wp utilities (writeScript tmp).run
      (fun out s' => exitStatus out = some 0 → ∃ m, s'.files tmp = some ⟨s.input, m⟩) s := by
  apply wp_utility (utility_catTo htmp)
  intro status s' h hstatus
  rw [exitStatus_ending] at hstatus
  subst hstatus
  obtain ⟨m, -, rfl⟩ : Replaced s tmp s.input s' := h
  exact ⟨m, s.put_self _⟩

include hmode hpath

/-- The file is the old one or the new one, with its permissions, wherever the script stops. -/
theorem wp_replaceScript (htmp : isPath tmp = true) (hne : tmp ≠ filePath) {data m : Text}
    (hdata : s.files tmp = some ⟨data, m⟩) :
    wp utilities (replaceScript filePath mode tmp).run (fun out s' =>
      (s'.files filePath = s.files filePath ∨ s'.files filePath = some ⟨data, mode⟩) ∧
        (exitStatus out = some 0 →
          s'.files filePath = some ⟨data, mode⟩ ∧ s'.files tmp = none)) s := by
  -- chmod on the temporary file, mv over the old one, chmod again, sync
  apply wp_andThen_utility (utility_chmod hmode htmp)
  · rintro s₁ ⟨file, hfile, rfl⟩
    obtain rfl : ⟨data, m⟩ = file := Option.some.inj (hdata.symm.trans hfile)
    have hold : (s.put tmp (some ⟨data, mode⟩)).files filePath = s.files filePath :=
      s.put_of_ne _ hne.symm
    apply wp_andThen_utility (utility_mv hpath htmp)
    · rintro s₂ ⟨file, hfile, rfl⟩
      rw [Unix.put_self] at hfile
      cases hfile
      apply wp_andThen_utility (utility_chmod hmode hpath)
      · rintro s₃ ⟨file, hfile, rfl⟩
        rw [Unix.put_self] at hfile
        cases hfile
        apply wp_sync
        intro status
        refine ⟨.inr (by simp), fun _ => ⟨by simp, ?_⟩⟩
        rw [Unix.put_of_ne _ _ hne, Unix.put_of_ne _ _ hne, Unix.put_self]
      -- the move took place, so the file is the new one whatever chmod did
      · rintro status s₃ hstatus h
        refine ⟨.inr ?_, fun hzero => absurd (by simpa using hzero) hstatus⟩
        rcases Utility.chmod_cases h with rfl | ⟨file, hfile, rfl⟩
        · exact Unix.put_self ..
        · rw [Unix.put_self] at hfile ⊢
          cases hfile
          rfl
    -- the move failed: the file is the old one, or the new one with its mode
    · rintro status s₂ hstatus h
      refine ⟨?_, fun hzero => absurd (by simpa using hzero) hstatus⟩
      rcases Utility.mv_cases h with rfl | ⟨file, hfile, rfl⟩
      · exact .inl hold
      · rw [Unix.put_self] at hfile
        cases hfile
        exact .inr (by simp)
  · rintro status s₁ hstatus h
    refine ⟨.inl ?_, fun hzero => absurd (by simpa using hzero) hstatus⟩
    rcases Utility.chmod_cases h with rfl | ⟨file, -, rfl⟩
    · rfl
    · exact s.put_of_ne _ hne.symm

omit hmode

theorem wp_backupScript (hbackup : isPath backupPath = true) (required : Bool) :
    wp utilities (backupScript filePath backupPath required).run (fun out s' =>
      exitStatus out = some 0 → CopyOf required (s'.files backupPath) (s.files filePath)) s := by
  apply wp_ifElse_test (utility_test hpath (.inl rfl))
  · intro hthere
    obtain ⟨file, hfile⟩ := Option.isSome_iff_exists.mp hthere
    apply wp_utility (utility_cp hpath hbackup)
    intro status s' h hstatus
    rw [exitStatus_ending] at hstatus
    subst hstatus
    obtain ⟨copied, hcopied, rfl⟩ : ∃ copied, s.files filePath = some copied ∧
      s' = s.put backupPath (some copied) := h
    rw [hfile] at hcopied ⊢
    cases hcopied
    exact Unix.put_self ..
  · intro hmissing
    rw [hmissing]
    cases required with
    | true =>
      apply wp_seqScript_utility (utility_complain _)
      · rintro n s' - ⟨⟩
      · rintro s' - ⟨⟩
    | false =>
      apply wp_utility (utility_printfTo hbackup)
      intro status s' h hstatus
      rw [exitStatus_ending] at hstatus
      subst hstatus
      obtain ⟨m, -, rfl⟩ : Replaced s backupPath (lit "[]\n") s' := h
      exact ⟨rfl, m, s.put_self _⟩
  · rintro ⟨⟩

theorem wp_removeScript :
    wp utilities (removeScript filePath).run (fun out s' =>
      (s'.files filePath = s.files filePath ∨ s'.files filePath = none) ∧
        (exitStatus out = some 0 → s'.files filePath = none)) s := by
  apply wp_andThen_utility (utility_rm hpath)
  · rintro s' rfl
    apply wp_sync
    exact fun _ => ⟨.inr (Unix.put_self ..), fun _ => Unix.put_self ..⟩
  · intro status s' hstatus h
    refine ⟨?_, fun hzero => absurd (by simpa using hzero) hstatus⟩
    rcases Utility.rm_cases h with rfl | rfl
    · exact .inl rfl
    · exact .inr (Unix.put_self ..)

include hmode in
theorem wp_restoreScript (hbackup : isPath backupPath = true) :
    wp utilities (restoreScript filePath backupPath mode).run (fun out s' =>
      exitStatus out = some 0 → ∃ file, s.files backupPath = some file ∧
        s'.files filePath = some ⟨file.content, mode⟩) s := by
  apply wp_andThen_utility (utility_cp hbackup hpath)
  · rintro s₁ ⟨file, hfile, rfl⟩
    apply wp_andThen_utility (utility_chmod hmode hpath)
    · rintro s₂ ⟨copied, hcopied, rfl⟩
      rw [Unix.put_self] at hcopied
      cases hcopied
      apply wp_sync
      exact fun _ _ => ⟨file, hfile, Unix.put_self ..⟩
    · intro status s₂ hstatus _ hzero
      exact absurd (by simpa using hzero) hstatus
  · intro status s₁ hstatus _ hzero
    exact absurd (by simpa using hzero) hstatus

/-- What is read is the content, or an empty array when the file is missing. -/
theorem wp_readScript (hstart : s.output = []) :
    wp utilities (readScript filePath).run (fun out s' => exitStatus out = some 0 →
      s'.output = ((s.files filePath).map File.content).getD (lit "[]\n")) s := by
  apply wp_ifElse_test (utility_test hpath (.inl rfl))
  · intro _
    apply wp_utility (utility_cat hpath)
    rintro status s' ⟨printed, hprinted, rfl⟩ hstatus
    rw [exitStatus_ending] at hstatus
    obtain ⟨file, hfile, rfl⟩ := hprinted hstatus
    rw [hfile, Unix.print_output, hstart]
    rfl
  · intro hmissing
    apply wp_utility utility_printf
    rintro status s' ⟨printed, hprinted, rfl⟩ hstatus
    rw [exitStatus_ending] at hstatus
    obtain rfl := hprinted hstatus
    rw [hmissing, Unix.print_output, hstart]
    rfl
  · rintro ⟨⟩

theorem wp_catCommand (hstart : s.output = []) :
    wp utilities (words [lit "cat", filePath]).run (fun out s' => exitStatus out = some 0 →
      (s.files filePath).map File.content = some s'.output) s := by
  apply wp_utility (utility_cat hpath)
  rintro status s' ⟨printed, hprinted, rfl⟩ hstatus
  rw [exitStatus_ending] at hstatus
  obtain ⟨file, hfile, rfl⟩ := hprinted hstatus
  rw [hfile, Unix.print_output, hstart]
  rfl

theorem wp_statScript (hstart : s.output = []) :
    wp utilities (statScript filePath).run (fun out s' =>
      exitStatus out = some 0 → s'.output = statText (s.files filePath)) s := by
  apply wp_ifElse_test (utility_test hpath (.inr rfl))
  · intro _
    apply wp_utility (utility_stat hpath)
    rintro status s' ⟨printed, hprinted, rfl⟩ hstatus
    rw [exitStatus_ending] at hstatus
    obtain ⟨file, hfile, rfl⟩ := hprinted hstatus
    rw [hfile, Unix.print_output, hstart]
    rfl
  · intro hmissing
    apply wp_utility utility_echo
    rintro status s' ⟨printed, hprinted, rfl⟩ hstatus
    rw [exitStatus_ending] at hstatus
    obtain rfl := hprinted hstatus
    rw [hmissing, Unix.print_output, hstart]
    rfl
  · rintro ⟨⟩

end Scripts

section Targets
variable (hmode : isMode mode = true) (hpath : isPath filePath = true)

theorem targets_writeScript (htmp : isPath tmp = true) :
    ∀ cmd ∈ (writeScript tmp).commands, ∃ u, utility cmd = some u ∧ u.targets ⊆ [tmp] := by
  simp only [writeScript, Script.commands, List.mem_singleton, forall_eq]
  exact ⟨_, utility_catTo htmp, by simp [Utility.targets]⟩

include hpath

theorem targets_backupScript (hbackup : isPath backupPath = true) (required : Bool) :
    ∀ cmd ∈ (backupScript filePath backupPath required).commands,
      ∃ u, utility cmd = some u ∧ u.targets ⊆ [backupPath] := by
  intro cmd hcmd
  simp only [backupScript, words, Script.commands, List.mem_append, List.mem_singleton] at hcmd
  obtain (rfl | rfl) | hcmd := hcmd
  · exact ⟨_, utility_test hpath (.inl rfl), by simp [Utility.targets]⟩
  · exact ⟨_, utility_cp hpath hbackup, by simp [Utility.targets]⟩
  · cases required with
    | true =>
      simp only [if_true, Script.commands, List.append_nil, List.mem_singleton] at hcmd
      subst hcmd
      exact ⟨_, utility_complain _, by simp [Utility.targets]⟩
    | false =>
      simp only [Bool.false_eq_true, if_false, Script.commands, List.mem_singleton] at hcmd
      subst hcmd
      exact ⟨_, utility_printfTo hbackup, by simp [Utility.targets]⟩

theorem targets_removeScript :
    ∀ cmd ∈ (removeScript filePath).commands,
      ∃ u, utility cmd = some u ∧ u.targets ⊆ [filePath] := by
  intro cmd hcmd
  simp only [removeScript, words, Script.commands, List.mem_append, List.mem_singleton] at hcmd
  obtain rfl | rfl := hcmd
  · exact ⟨_, utility_rm hpath, by simp [Utility.targets]⟩
  · exact ⟨_, utility_sync, by simp [Utility.targets]⟩

theorem targets_readScript :
    ∀ cmd ∈ (readScript filePath).commands, ∃ u, utility cmd = some u ∧ u.targets ⊆ [] := by
  intro cmd hcmd
  simp only [readScript, words, Script.commands, List.mem_append, List.mem_singleton] at hcmd
  obtain (rfl | rfl) | rfl := hcmd
  · exact ⟨_, utility_test hpath (.inl rfl), by simp [Utility.targets]⟩
  · exact ⟨_, utility_cat hpath, by simp [Utility.targets]⟩
  · exact ⟨_, utility_printf, by simp [Utility.targets]⟩

theorem targets_catCommand :
    ∀ cmd ∈ (words [lit "cat", filePath]).commands,
      ∃ u, utility cmd = some u ∧ u.targets ⊆ [] := by
  simp only [words, Script.commands, List.mem_singleton, forall_eq]
  exact ⟨_, utility_cat hpath, by simp [Utility.targets]⟩

theorem targets_statScript :
    ∀ cmd ∈ (statScript filePath).commands, ∃ u, utility cmd = some u ∧ u.targets ⊆ [] := by
  intro cmd hcmd
  simp only [statScript, words, Script.commands, List.mem_append, List.mem_singleton] at hcmd
  obtain (rfl | rfl) | rfl := hcmd
  · exact ⟨_, utility_test hpath (.inr rfl), by simp [Utility.targets]⟩
  · exact ⟨_, utility_stat hpath, by simp [Utility.targets]⟩
  · exact ⟨_, utility_echo, by simp [Utility.targets]⟩

include hmode

theorem targets_replaceScript (htmp : isPath tmp = true) :
    ∀ cmd ∈ (replaceScript filePath mode tmp).commands,
      ∃ u, utility cmd = some u ∧ u.targets ⊆ [filePath, tmp] := by
  intro cmd hcmd
  simp only [replaceScript, words, Script.commands, List.mem_append, List.mem_singleton] at hcmd
  obtain rfl | rfl | rfl | rfl := hcmd
  · exact ⟨_, utility_chmod hmode htmp, by simp [Utility.targets]⟩
  · exact ⟨_, utility_mv hpath htmp, by simp [Utility.targets]⟩
  · exact ⟨_, utility_chmod hmode hpath, by simp [Utility.targets]⟩
  · exact ⟨_, utility_sync, by simp [Utility.targets]⟩

theorem targets_restoreScript (hbackup : isPath backupPath = true) :
    ∀ cmd ∈ (restoreScript filePath backupPath mode).commands,
      ∃ u, utility cmd = some u ∧ u.targets ⊆ [filePath] := by
  intro cmd hcmd
  simp only [restoreScript, words, Script.commands, List.mem_append, List.mem_singleton] at hcmd
  obtain rfl | rfl | rfl := hcmd
  · exact ⟨_, utility_cp hbackup hpath, by simp [Utility.targets]⟩
  · exact ⟨_, utility_chmod hmode hpath, by simp [Utility.targets]⟩
  · exact ⟨_, utility_sync, by simp [Utility.targets]⟩

end Targets
end DockerClient
end VpnControl.Agent
