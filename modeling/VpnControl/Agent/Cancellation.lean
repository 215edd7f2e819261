import VpnControl.Agent.Atomicity
import VpnControl.Agent.LockedRuns
import VpnControl.Awg.Reread
import VpnControl.Lib.EveryInstant

namespace VpnControl.Agent
open Awg Strings Effects Prog

/-- The operation answers with an error. The clock and Go's maps do not depend on a context. -/
def Failed : (e : Op) → e.Res → Prop
  | .now, _ => True
  | .mapOrder, _ => True
  | .readFile _, r => ∃ x, r = .error x
  | .readFileOrEmptyArray _, r => ∃ x, r = .error x
  | .fileInfo _, r => ∃ x, r = .error x
  | .writeFileAtomic .., r => ∃ x, r = .error x
  | .backupFile .., r => ∃ x, r = .error x
  | .restoreFile .., r => ∃ x, r = .error x
  | .removeFile _, r => ∃ x, r = .error x
  | .syncConf, r => ∃ x, r = .error x
  | .awgShow, r => ∃ x, r = .error x
  | .generatePrivateKey, r => ∃ x, r = .error x
  | .publicKey _, r => ∃ x, r = .error x

/-- The operation, with the given answer, has or has not taken effect; a file is written, brought
back or removed as a whole, and always if the answer is a success. -/
def Took (w : World) : (e : Op) → e.Res → Bool → World → Prop
  | .writeFileAtomic file data _, r, took, w' =>
    (r = .ok () → took = true) ∧ w' = if took then w.put file (some data) else w
  | .restoreFile backup file _, r, took, w' =>
    (r = .ok () → took = true) ∧ w' = if took then w.put file (w.files backup) else w
  | .removeFile file, r, took, w' =>
    (r = .ok () → took = true) ∧ w' = if took then w.put file none else w
  | _, _, _, _ => True

/-- A call: the container, the operations up to the end of the request's context, each with
whether it took effect, and whether the context has ended. -/
structure CallState where
  world : World
  done : List (Op × Bool) := []
  ended : Bool := false

/-- While the context is live the container answers in any way. At any operation the context may
end: this one then fails, with or without its effect, and all later ones fail without effect. -/
def ctxEnv : Env CallState Op Op.Res := fun st e r st' =>
  if st.ended then Failed e r ∧ st' = st
  else dockerStep st.world e r st'.world ∧
    (∃ took, Took st.world e r took st'.world ∧ st'.done = st.done ++ [(e, took)]) ∧
    (st'.ended = true → Failed e r)

/-- A failure without effect is among the answers of the container. -/
theorem dockerStep_failed {w : World} {e : Op} {r : e.Res} (h : Failed e r) : dockerStep w e r w := by
  have hput : ∀ file, ∃ content, w = w.put file content := fun file =>
    ⟨w.files file, by rw [World.put, Function.update_eq_self]⟩
  cases e with
  | now => rfl
  | mapOrder => rfl
  | awgShow => rfl
  | readFile _ =>
    obtain ⟨x, rfl⟩ := h
    exact ⟨rfl, by simp⟩
  | readFileOrEmptyArray _ =>
    obtain ⟨x, rfl⟩ := h
    exact ⟨rfl, by simp⟩
  | fileInfo _ =>
    obtain ⟨x, rfl⟩ := h
    exact ⟨rfl, by simp⟩
  | writeFileAtomic _ _ _ =>
    obtain ⟨x, rfl⟩ := h
    exact .inl ⟨rfl, by simp⟩
  | backupFile _ backup _ =>
    obtain ⟨x, rfl⟩ := h
    exact hput backup
  | restoreFile _ file _ =>
    obtain ⟨x, rfl⟩ := h
    exact hput file
  | removeFile _ =>
    obtain ⟨x, rfl⟩ := h
    exact .inl ⟨rfl, by simp⟩
  | syncConf =>
    obtain ⟨x, rfl⟩ := h
    exact ⟨w.applied, rfl⟩
  | generatePrivateKey =>
    obtain ⟨x, rfl⟩ := h
    exact ⟨rfl, by simp⟩
  | publicKey _ =>
    obtain ⟨x, rfl⟩ := h
    exact ⟨rfl, by simp⟩

theorem dockerStep_of_ctxEnv {st st' : CallState} {e : Op} {r : e.Res} (h : ctxEnv st e r st') :
    dockerStep st.world e r st'.world := by
  unfold ctxEnv at h
  split at h
  · obtain ⟨hfailed, rfl⟩ := h
    exact dockerStep_failed hfailed
  · exact h.1

/-- An operation in a context that has ended, and one while it is live. -/
theorem ctxEnv_cases {st st' : CallState} {e : Op} {r : e.Res} (h : ctxEnv st e r st') :
    (Failed e r ∧ st' = st) ∨
    ∃ took, Took st.world e r took st'.world ∧ st'.done = st.done ++ [(e, took)] := by
  unfold ctxEnv at h
  split at h
  · exact .inl h
  · exact .inr h.2.1

/-- The text that an operation writes to the file, if it takes effect. -/
def Op.writes (file : FilePath) : Op × Bool → Option Text
  | (.writeFileAtomic target text _, true) => if target = file then some text else none
  | _ => none

/-- The file is restored, or removed, with effect. -/
def Op.takesBack (file : FilePath) : Op × Bool → Bool
  | (.restoreFile _ target _, true) => target = file
  | (.removeFile target, true) => target = file
  | _ => false

/-- The text that was written to the file. -/
def written (done : List (Op × Bool)) (file : FilePath) : Option Text :=
  done.findSome? (Op.writes file)

def takenBack (done : List (Op × Bool)) (file : FilePath) : Bool := done.any (Op.takesBack file)

theorem written_concat (done : List (Op × Bool)) (e : Op × Bool) (file : FilePath) :
    written (done ++ [e]) file = (written done file).or (Op.writes file e) := by
  simp [written, List.findSome?_append]

theorem takenBack_concat (done : List (Op × Bool)) (e : Op × Bool) (file : FilePath) :
    takenBack (done ++ [e]) file = (takenBack done file || Op.takesBack file e) := by
  simp [takenBack]

theorem writes_of_target_ne {e : Op} {file : FilePath} (h : e.target ≠ some file) (took : Bool) :
    Op.writes file (e, took) = none ∧ Op.takesBack file (e, took) = false := by
  cases took with
  | false => cases e <;> exact ⟨rfl, rfl⟩
  | true =>
    cases e with
    | writeFileAtomic target _ _ => exact ⟨if_neg fun heq => h (congrArg some heq), rfl⟩
    | restoreFile _ target _ | removeFile target =>
      exact ⟨rfl, decide_eq_false fun heq => h (congrArg some heq)⟩
    | _ => exact ⟨rfl, rfl⟩

/-- The config was not written, or taken back. -/
def KeepsConfig (done : List (Op × Bool)) : Prop :=
  written done .config = none ∨ takenBack done .config = true

/-- The clients table was not written except with the text it had, or taken back. -/
def KeepsTable (before : World) (done : List (Op × Bool)) : Prop :=
  (∀ data, written done .clientsTable = some data → before.files .clientsTable = some data) ∨
    takenBack done .clientsTable = true

/-- The context may end at this operation, with effect or without, after the earlier ones. -/
def SafeEnd (before : World) (earlier : List (Op × Bool)) : Op × Bool → Prop
  -- the writes: a config that is written by then is not taken back any more
  | (.writeFileAtomic .config _ _, took) => took = false
  | (.writeFileAtomic .clientsTable _ _, _) => False
  -- the rollback: what the earlier operations left, and the effect of this one
  | (.restoreFile _ .config _, took) => (KeepsConfig earlier ∨ took = true) ∧ KeepsTable before earlier
  | (.restoreFile _ .clientsTable _, took) =>
    KeepsConfig earlier ∧ (KeepsTable before earlier ∨ took = true)
  | (.removeFile .clientsTable, took) => KeepsConfig earlier ∧ (KeepsTable before earlier ∨ took = true)
  -- the reads, the backup, the syncs and the looks at the runtime
  | _ => KeepsConfig earlier ∧ KeepsTable before earlier

/-- The operation at which the context ends is the last one that may take effect; where the
context outlives the call, that is the last one of the call. -/
def EndsSafely (before : World) (done : List (Op × Bool)) : Prop :=
  ∀ earlier e, done = earlier ++ [e] → SafeEnd before earlier e

theorem endsSafely_concat {before : World} {done : List (Op × Bool)} {e : Op × Bool} :
    EndsSafely before (done ++ [e]) ↔ SafeEnd before done e := by
  constructor
  · exact fun h => h _ _ rfl
  · intro h earlier e' heq
    obtain ⟨rfl, hlast⟩ := List.append_inj' heq rfl
    cases hlast
    exact h

/-- A file is as before or, where a write was not taken back, as written. -/
def Reflects (before : World) (st : CallState) (file : FilePath) : Prop :=
  st.world.files file = if takenBack st.done file then before.files file
    else (written st.done file).elim (before.files file) some

/-- The two files are what the operations made of them, a written config is another one than
before, and the last operation tells whether something is left of the writes. -/
structure Reflected (before : World) (st : CallState) : Prop where
  config : Reflects before st .config
  clientsTable : Reflects before st .clientsTable
  changes : ∀ data, written st.done .config = some data → before.files .config ≠ some data
  ends : EndsSafely before st.done ↔ KeepsConfig st.done ∧ KeepsTable before st.done

theorem Reflected.keepsConfig_iff {before : World} {st : CallState} (h : Reflected before st) :
    st.world.files .config = before.files .config ↔ KeepsConfig st.done := by
  have hconfig := h.config
  unfold Reflects at hconfig
  cases hback : takenBack st.done .config with
  | true => simp [KeepsConfig, hback, hconfig]
  | false =>
    cases hwritten : written st.done .config with
    | none => simp [KeepsConfig, hwritten, hback, hconfig]
    | some data =>
      have hne := h.changes data hwritten
      simpa [KeepsConfig, hwritten, hback, hconfig] using hne.symm

theorem Reflected.keepsTable_iff {before : World} {st : CallState} (h : Reflected before st) :
    st.world.files .clientsTable = before.files .clientsTable ↔ KeepsTable before st.done := by
  have htable := h.clientsTable
  unfold Reflects at htable
  cases hback : takenBack st.done .clientsTable with
  | true => simp [KeepsTable, hback, htable]
  | false =>
    cases hwritten : written st.done .clientsTable with
    | none => simp [KeepsTable, hwritten, hback, htable]
    | some data => simp [KeepsTable, hwritten, hback, htable, eq_comm]

theorem unchanged_iff_endsSafely {before : World} {st : CallState} (h : Reflected before st) :
    Unchanged before st.world ↔ EndsSafely before st.done := by
  rw [h.ends, ← h.keepsConfig_iff, ← h.keepsTable_iff]
  exact ⟨fun ⟨hconfig, htable⟩ => ⟨hconfig, htable⟩, fun ⟨hconfig, htable⟩ => ⟨hconfig, htable⟩⟩

section Steps
variable {before : World} {backups : BackupSet} {st st' : CallState} {e : Op} {r : e.Res}

/-- A file that the operation does not replace. -/
theorem reflects_frame {file : FilePath} (h : Reflects before st file) (he : e.target ≠ some file)
    (hstep : ctxEnv st e r st') :
    Reflects before st' file ∧ written st'.done file = written st.done file ∧
      takenBack st'.done file = takenBack st.done file := by
  have hfile := dockerStep_frame (dockerStep_of_ctxEnv hstep) he
  have hdone : written st'.done file = written st.done file ∧
      takenBack st'.done file = takenBack st.done file := by
    rcases ctxEnv_cases hstep with ⟨-, rfl⟩ | ⟨took, -, hdone⟩
    · exact ⟨rfl, rfl⟩
    · obtain ⟨hwrites, htakes⟩ := writes_of_target_ne he took
      rw [hdone, written_concat, takenBack_concat, hwrites, htakes]
      simp
  refine ⟨?_, hdone⟩
  rw [Reflects, hfile, hdone.1, hdone.2]
  exact h

/-- A file that the operation replaces, if it takes effect. -/
theorem reflects_replace {file : FilePath} {content : Option Text} {took : Bool}
    (h : Reflects before st file)
    (hworld : st'.world = if took then st.world.put file content else st.world)
    (hdone : st'.done = st.done ++ [(e, took)])
    (hcontent : content = if takenBack (st.done ++ [(e, true)]) file then before.files file
      else (written (st.done ++ [(e, true)]) file).elim (before.files file) some) :
    Reflects before st' file := by
  rw [Reflects, hworld, hdone]
  cases took with
  | true => exact (st.world.put_self file content).trans hcontent
  | false =>
    have hnone : Op.writes file (e, false) = none ∧ Op.takesBack file (e, false) = false := by
      cases e <;> exact ⟨rfl, rfl⟩
    rw [written_concat, takenBack_concat, hnone.1, hnone.2, Option.or_none, Bool.or_false]
    exact h

theorem keepsConfig_concat {done : List (Op × Bool)} (he : e.target ≠ some .config) (took : Bool) :
    KeepsConfig (done ++ [(e, took)]) ↔ KeepsConfig done := by
  obtain ⟨hwrites, htakes⟩ := writes_of_target_ne he took
  simp [KeepsConfig, written_concat, takenBack_concat, hwrites, htakes]

theorem keepsTable_concat {done : List (Op × Bool)} (he : e.target ≠ some .clientsTable)
    (took : Bool) : KeepsTable before (done ++ [(e, took)]) ↔ KeepsTable before done := by
  obtain ⟨hwrites, htakes⟩ := writes_of_target_ne he took
  simp [KeepsTable, written_concat, takenBack_concat, hwrites, htakes]

/-- The operations between the backup and the end of a call that write no new text: a file is
brought back from its own backup. -/
def Op.TakingBack (backups : BackupSet) : Op → Prop
  | .writeFileAtomic .. => False
  | .backupFile .. => False
  | .restoreFile backup file _ =>
    (file = .config ∧ backup = backups.configPath) ∨
      (file = .clientsTable ∧ backup = backups.clientsTablePath ∧
        backups.clientsTableExisted = true)
  | .removeFile file => file = .clientsTable ∧ backups.clientsTableExisted = false
  | _ => True

theorem Op.TakingBack.sparesBackups (he : e.TakingBack backups) : e.SparesBackups := by
  intro suffix
  cases e with
  | writeFileAtomic => exact he.elim
  | restoreFile backup file mode => rcases he with ⟨rfl, -⟩ | ⟨rfl, -⟩ <;> simp [Op.target]
  | removeFile file =>
    obtain ⟨rfl, -⟩ := he
    simp [Op.target]
  | backupFile => exact he.elim
  | _ => simp [Op.target]

theorem safeEnd_spares {done : List (Op × Bool)} {took : Bool} (he : e.Spares) :
    SafeEnd before done (e, took) ↔ KeepsConfig done ∧ KeepsTable before done := by
  obtain ⟨hconfig, htable⟩ := he
  cases e with
  | writeFileAtomic file _ _ | restoreFile _ file _ | removeFile file =>
    cases file with
    | config => exact absurd rfl hconfig
    | clientsTable => exact absurd rfl htable
    | _ => rfl
  | _ => rfl

theorem Reflected.spares (h : Reflected before st) (he : e.Spares) (hstep : ctxEnv st e r st') :
    Reflected before st' := by
  obtain ⟨hconfig, hwritten, -⟩ := reflects_frame h.config he.1 hstep
  obtain ⟨htable, -⟩ := reflects_frame h.clientsTable he.2 hstep
  refine ⟨hconfig, htable, hwritten ▸ h.changes, ?_⟩
  rcases ctxEnv_cases hstep with ⟨-, rfl⟩ | ⟨took, -, hdone⟩
  · exact h.ends
  · rw [hdone, endsSafely_concat, safeEnd_spares he, keepsConfig_concat he.1, keepsTable_concat he.2]

theorem Reflected.restoreConfig (h : Reflected before st) (hb : Backed before backups st.world)
    {mode : Text} {r : Except Text Unit}
    (hstep : ctxEnv st (.restoreFile backups.configPath .config mode) r st') :
    Reflected before st' := by
  have htarget : (Op.restoreFile backups.configPath .config mode).target ≠ some .clientsTable := by
    simp [Op.target]
  obtain ⟨htable, -⟩ := reflects_frame h.clientsTable htarget hstep
  rcases ctxEnv_cases hstep with ⟨-, rfl⟩ | ⟨took, htook, hdone⟩
  · exact h
  · refine ⟨reflects_replace h.config htook.2 hdone ?_, htable, ?_, ?_⟩
    · rw [takenBack_concat, hb.config]
      simp [Op.takesBack]
    · rw [hdone, written_concat]
      cases took <;> simpa [Op.writes] using h.changes
    · rw [hdone, endsSafely_concat, keepsTable_concat htarget]
      cases took <;> simp [SafeEnd, KeepsConfig, written_concat, takenBack_concat, Op.writes, Op.takesBack]

/-- The two ways in which the clients table is taken back. -/
theorem Reflected.takeBackTable (h : Reflected before st) {content : Option Text} {took : Bool}
    (hstep : ctxEnv st e r st') (htarget : e.target = some .clientsTable)
    (hworld : st'.world = if took then st.world.put .clientsTable content else st.world)
    (hdone : st'.done = st.done ++ [(e, took)]) (hcontent : content = before.files .clientsTable)
    (htakes : ∀ took, Op.takesBack .clientsTable (e, took) = took)
    (hsafe : SafeEnd before st.done (e, took) ↔
      KeepsConfig st.done ∧ (KeepsTable before st.done ∨ took = true)) :
    Reflected before st' := by
  have hne : e.target ≠ some .config := by simp [htarget]
  obtain ⟨hconfig, hwritten, -⟩ := reflects_frame h.config hne hstep
  refine ⟨hconfig, reflects_replace h.clientsTable hworld hdone ?_, hwritten ▸ h.changes, ?_⟩
  · rw [takenBack_concat, htakes, Bool.or_true, if_pos rfl, hcontent]
  · have hnone : Op.writes .clientsTable (e, took) = none := by
      cases e with
      | writeFileAtomic => exact absurd (htakes true) (by simp [Op.takesBack])
      | _ => rfl
    rw [hdone, endsSafely_concat, keepsConfig_concat hne, hsafe]
    simp [KeepsTable, written_concat, takenBack_concat, hnone, htakes, or_assoc]

theorem Reflected.step (h : Reflected before st) (hb : Backed before backups st.world)
    (he : e.TakingBack backups) (hstep : ctxEnv st e r st') : Reflected before st' := by
  have hlive := ctxEnv_cases hstep
  cases e with
  | writeFileAtomic => exact he.elim
  | backupFile => exact he.elim
  | restoreFile backup file mode =>
    rcases he with ⟨rfl, rfl⟩ | ⟨rfl, rfl, hex⟩
    · exact h.restoreConfig hb hstep
    · rcases hlive with ⟨-, rfl⟩ | ⟨took, htook, hdone⟩
      · exact h
      · exact h.takeBackTable hstep rfl htook.2 hdone (hb.clientsTable hex) (by simp [Op.takesBack])
          .rfl
  | removeFile file =>
    obtain ⟨rfl, hex⟩ := he
    have hnone : before.files .clientsTable = none := by
      rw [hb.existed] at hex
      simpa using hex
    rcases hlive with ⟨-, rfl⟩ | ⟨took, htook, hdone⟩
    · exact h
    · exact h.takeBackTable hstep rfl htook.2 hdone hnone.symm (by simp [Op.takesBack]) .rfl
  | _ => exact h.spares (by simp [Op.Spares, Op.target]) hstep

/-- Nothing was done to the file yet. -/
structure Fresh (st : CallState) (file : FilePath) : Prop where
  written : written st.done file = none
  takenBack : takenBack st.done file = false

theorem Fresh.step {file : FilePath} (h : Fresh st file) (hfile : Reflects before st file)
    (he : e.target ≠ some file) (hstep : ctxEnv st e r st') : Fresh st' file := by
  obtain ⟨-, hwritten, htaken⟩ := reflects_frame hfile he hstep
  exact ⟨hwritten.trans h.written, htaken.trans h.takenBack⟩

/-- Neither file was written. -/
structure Untouched (before : World) (st : CallState) : Prop where
  reflected : Reflected before st
  config : Fresh st .config
  clientsTable : Fresh st .clientsTable

theorem Untouched.unchanged (h : Untouched before st) : Unchanged before st.world :=
  ⟨h.reflected.keepsConfig_iff.mpr (.inl h.config.written),
    h.reflected.keepsTable_iff.mpr (.inl (by simp [h.clientsTable.written]))⟩

theorem Untouched.step (h : Untouched before st) (he : e.Spares) (hstep : ctxEnv st e r st') :
    Untouched before st' :=
  ⟨h.reflected.spares he hstep, h.config.step h.reflected.config he.1 hstep,
    h.clientsTable.step h.reflected.clientsTable he.2 hstep⟩

theorem untouched_start (before : World) : Untouched before { world := before } :=
  ⟨⟨rfl, rfl, by simp [written], by simp [EndsSafely, KeepsConfig, KeepsTable, written]⟩,
    ⟨rfl, rfl⟩, ⟨rfl, rfl⟩⟩

/-- The config is written, the clients table is not. -/
structure ConfigWritten (before : World) (st : CallState) : Prop where
  reflected : Reflected before st
  written : ¬KeepsConfig st.done
  clientsTable : Fresh st .clientsTable

/-- Where the context ends at the write of the config, its effect decides. -/
theorem Untouched.writeConfig (h : Untouched before st) {data mode : Text} {r : Except Text Unit}
    (hchanges : before.files .config ≠ some data)
    (hstep : ctxEnv st (.writeFileAtomic .config data mode) r st') :
    Reflected before st' ∧ (r = .ok () → ConfigWritten before st') := by
  have htarget : (Op.writeFileAtomic .config data mode).target ≠ some .clientsTable := by
    simp [Op.target]
  obtain ⟨htable, -⟩ := reflects_frame h.reflected.clientsTable htarget hstep
  rcases ctxEnv_cases hstep with ⟨hfailed, rfl⟩ | ⟨took, htook, hdone⟩
  · refine ⟨h.reflected, ?_⟩
    rintro rfl
    cases hfailed with
    | intro x hx => cases hx
  · have hkeeps : KeepsConfig st'.done ↔ took = false := by
      rw [hdone, KeepsConfig, written_concat, takenBack_concat, h.config.written, h.config.takenBack]
      cases took <;> simp [Op.writes, Op.takesBack]
    have hreflected : Reflected before st' := by
      refine ⟨reflects_replace h.reflected.config htook.2 hdone ?_, htable, ?_, ?_⟩
      · rw [written_concat, takenBack_concat, h.config.written, h.config.takenBack]
        simp [Op.writes, Op.takesBack]
      · rw [hdone, written_concat, h.config.written]
        cases took with
        | false => simp [Op.writes]
        | true =>
          rintro _ ⟨⟩
          exact hchanges
      · have hkeepsTable : KeepsTable before st.done := .inl (by simp [h.clientsTable.written])
        rw [hkeeps, hdone, endsSafely_concat, keepsTable_concat htarget]
        simp [SafeEnd, hkeepsTable]
    refine ⟨hreflected, fun hr => ⟨hreflected, ?_, h.clientsTable.step h.reflected.clientsTable htarget hstep⟩⟩
    rw [hkeeps, htook.1 hr]
    simp

/-- Where the context ends at the write of the clients table, the config stays written. -/
theorem ConfigWritten.writeTable (h : ConfigWritten before st) {data mode : Text}
    {r : Except Text Unit} (hstep : ctxEnv st (.writeFileAtomic .clientsTable data mode) r st') :
    Reflected before st' := by
  have htarget : (Op.writeFileAtomic .clientsTable data mode).target ≠ some .config := by
    simp [Op.target]
  obtain ⟨hconfig, hwritten, -⟩ := reflects_frame h.reflected.config htarget hstep
  rcases ctxEnv_cases hstep with ⟨-, rfl⟩ | ⟨took, htook, hdone⟩
  · exact h.reflected
  · refine ⟨hconfig, reflects_replace h.reflected.clientsTable htook.2 hdone ?_,
      hwritten ▸ h.reflected.changes, ?_⟩
    · rw [written_concat, takenBack_concat, h.clientsTable.written, h.clientsTable.takenBack]
      simp [Op.writes, Op.takesBack]
    · rw [hdone, endsSafely_concat, keepsConfig_concat htarget]
      simp [SafeEnd, h.written]

end Steps

namespace Service
variable {before : World} {backups : BackupSet} {st : CallState} {α β : Type}

theorem untouched_uses {p : Docker α} (hp : p.Uses Op.Spares) (hst : Untouched before st) :
    wp ctxEnv p (fun _ => Untouched before) st :=
  wp_uses (P := Op.Spares) (I := Untouched before) (fun _ _ _ _ he hr h => h.step he hr) hp hst

theorem reflected_uses {p : Docker α} (hp : p.Uses (Op.TakingBack backups))
    (hst : Reflected before st) (hb : Backed before backups st.world) :
    wp ctxEnv p (fun _ => Reflected before) st := by
  apply wp_mono (wp_uses (P := Op.TakingBack backups)
    (I := fun st => Reflected before st ∧ Backed before backups st.world) ?_ hp ⟨hst, hb⟩)
  · exact fun _ _ h => h.1
  · intro st e r st' he hr h
    exact ⟨h.1.step h.2 he hr, h.2.step he.sparesBackups (dockerStep_of_ctxEnv hr)⟩

theorem backed_ctxEnv {p : Docker α} (hp : p.Uses Op.SparesBackups)
    (hb : Backed before backups st.world) :
    wp ctxEnv p (fun _ st => Backed before backups st.world) st :=
  wp_uses (P := Op.SparesBackups) (I := fun st : CallState => Backed before backups st.world)
    (fun _ _ _ _ he hr h => h.step he (dockerStep_of_ctxEnv hr)) hp hb

/-- What a program does with the container it also does while a context runs. -/
theorem onOk_ctxEnv {P : α → World → Prop} {p : Docker α}
    (h : wp (dockerEnv fun _ _ => True) p (onOk P) st.world) :
    wp ctxEnv p (onOk fun a st' => P a st'.world) st :=
  wp_refine CallState.world (fun _ _ _ _ hstep => ⟨dockerStep_of_ctxEnv hstep, trivial⟩) h

theorem rollback_takingBack (cause : ServiceError) :
    (rollback backups cause : Docker α).Uses (Op.TakingBack backups) := by
  have htable : (restoreClientsTable backups).Uses (Op.TakingBack backups) := by
    unfold restoreClientsTable
    split
    · rename_i hex
      exact uses_ask (.inr ⟨rfl, rfl, hex⟩)
    · rename_i hex
      exact uses_ask ⟨rfl, Bool.eq_false_iff.mpr hex⟩
  refine uses_bind (uses_ask (.inl ⟨rfl, rfl⟩)) fun _ => ?_
  exact uses_bind htable fun _ => uses_bind (uses_ask trivial) fun _ => trivial

theorem wp_writeFileAtomic {file : FilePath} {data : Text} {Q : Post CallState ServiceError Unit}
    (h : ∀ r st', ctxEnv st (.writeFileAtomic file data (lit "600")) r st' →
      Q (r.mapError .docker) st') : wp ctxEnv (writeFileAtomic file data) Q st := by
  intro r st' hstep
  exact (wp_lift _).mpr (h r st' hstep)

theorem reflected_writeState {cfg : Config} {table : ClientsTable} (hst : Untouched before st)
    (hchanges : before.files .config ≠ some (renderConfig cfg)) :
    wp ctxEnv (writeState cfg table) (fun _ => Reflected before) st := by
  apply wp_seq (P := fun out st' => Reflected before st' ∧ (out = .ok () → ConfigWritten before st'))
  · refine wp_writeFileAtomic fun r st' hstep => ?_
    obtain ⟨hreflected, hwritten⟩ := hst.writeConfig hchanges hstep
    refine ⟨hreflected, fun hr => hwritten ?_⟩
    cases r with
    | ok _ => rfl
    | error _ => cases hr
  · rintro ⟨⟩ st' ⟨-, hwritten⟩
    apply wp_seq (P := fun _ => ConfigWritten before)
    · exact (wp_lift _).mpr (hwritten rfl)
    · exact fun text st'' h => wp_writeFileAtomic fun r st''' hstep => h.writeTable hstep
    · exact fun _ _ h => h.reflected
  · exact fun _ _ h => h.1

theorem reflected_mutate {cfg : Config} {table : ClientsTable}
    {verify : RuntimeStatus → Except ServiceError Unit} (hst : Untouched before st)
    (hb : Backed before backups st.world)
    (hchanges : before.files .config ≠ some (renderConfig cfg)) :
    wp ctxEnv (mutate cfg table verify)
      (fun _ st => Reflected before st ∧ Backed before backups st.world) st := by
  refine wp_and ?_ (backed_ctxEnv (uses_mutate cfg table verify) hb)
  apply wp_seq (wp_and (reflected_writeState hst hchanges) (backed_ctxEnv (uses_writeState cfg table) hb))
  · rintro _ st' ⟨hreflected, hb'⟩
    refine reflected_uses ?_ hreflected hb'
    refine uses_bind (uses_run (uses_ask trivial)) fun _ => ?_
    exact uses_bind (uses_run (uses_ask trivial)) fun _ => uses_lift _
  · exact fun _ _ h => h.1

/-- Both calls: read, back up, and change under the guard of a rollback. -/
theorem reflected_guarded {P : α → Prop} {prepare : Docker α} (hprepare : prepare.Uses Op.ReadOnly)
    (hreads : wp (dockerEnv fun _ _ => True) prepare (onOk fun a _ => P a) before)
    {change : α → Docker Unit}
    (hchange : ∀ a {backups st}, P a → Untouched before st → Backed before backups st.world →
      wp ctxEnv (change a) (fun _ st => Reflected before st ∧ Backed before backups st.world) st)
    (answer : α → β) :
    wp ctxEnv (do
      let a ← prepare
      let backups ← backup
      withRollback backups (change a)
      return answer a) (fun _ => Reflected before) { world := before } := by
  apply wp_seq (wp_and (untouched_uses (hprepare.mono fun _ => Op.ReadOnly.spares)
    (untouched_start before)) (onOk_ctxEnv hreads))
  · rintro a st₁ ⟨h₁, ha⟩
    apply wp_seq (wp_and (untouched_uses uses_backup h₁) (onOk_ctxEnv (onOk_backup st₁.world)))
    · rintro backups st₂ ⟨h₂, hbacked⟩
      have hb := (hbacked backups rfl).of_unchanged h₁.unchanged
      apply wp_seq (P := fun _ => Reflected before)
      · apply wp_seq_attempt (hchange a (ha a rfl) h₂ hb)
        rintro r st₃ ⟨h₃, hb₃⟩
        cases r with
        | ok _ => exact h₃
        | error cause => exact reflected_uses (rollback_takingBack cause) h₃ hb₃
      · exact fun _ _ h => h
      · exact fun _ _ h => h
    · exact fun _ _ h => h.1.reflected
  · exact fun _ _ h => h.1.reflected

theorem issueLocked_reflected (s : Service) (req : IssueRequest) (endpointHost : Text) :
    wp ctxEnv (s.issueLocked req endpointHost) (fun _ => Reflected before) { world := before } := by
  have hreads : wp (dockerEnv fun _ _ => True) (s.prepareIssue req endpointHost)
      (onOk fun r _ => before.files .config ≠ some (renderConfig r.1)) before := by
    refine wp_mono (s.reads_prepareIssue req endpointHost) fun r w h a ha => ?_
    obtain ⟨cfg, table, runtime, privateKey, pskFile, ip, date, hholds, -, -, -, -, -, -, -, hcfg, -⟩ :=
      (h.2 a ha).made
    obtain ⟨text, htext, hparsed⟩ := hholds.config
    rw [htext, hcfg, ne_eq, Option.some.injEq]
    exact (renderConfig_addPeer_ne hparsed _).symm
  exact reflected_guarded (s.uses_prepareIssue req endpointHost) hreads
    (fun r _ _ hr h hb => reflected_mutate h hb hr) fun r => r.2.2

theorem revokeLocked_reflected (s : Service) (publicKey : Text) :
    wp ctxEnv (s.revokeLocked publicKey) (fun _ => Reflected before) { world := before } := by
  have hreads : wp (dockerEnv fun _ _ => True) (s.prepareRevoke publicKey)
      (onOk fun r _ => before.files .config ≠ some (renderConfig (r.1.removePeer publicKey).1))
      before := by
    refine wp_mono (s.reads_prepareRevoke publicKey) fun r w h a ha => ?_
    obtain ⟨hholds, -, hpeer⟩ := h.2 a ha
    obtain ⟨text, htext, hparsed⟩ := hholds.config
    rw [htext, ne_eq, Option.some.injEq]
    exact (renderConfig_removePeer_ne hparsed hpeer).symm
  refine reflected_guarded (s.uses_prepareRevoke publicKey) hreads (fun r backups st hr h hb => ?_)
    fun _ => RevokeResult.mk true publicKey
  -- the config is validated once more before it is written
  apply wp_seq (P := fun _ st' => st' = st)
  · exact (wp_lift _).mpr rfl
  · rintro _ _ rfl
    exact reflected_mutate h hb hr
  · rintro _ _ rfl
    exact ⟨h.reflected, hb⟩

end Service

/-- The rollback runs under the request's own context: after an error the two files are as before
the call exactly when the docker operation at which the context ends is one at which it safely
may, in view of the operations that took effect before it. -/
theorem unchanged_iff (s : Service) (c : Call) (before : World) :
    wp (lockEnv Text ctxEnv) (s.call c) (fun out st => ∀ x, out = .error x →
      (Unchanged before st.world ↔ EndsSafely before st.done)) { world := before } := by
  have hstart := (untouched_start before).reflected
  refine s.wp_call_onError
    (R := fun _ (st : CallState) => Unchanged before st.world ↔ EndsSafely before st.done)
    (fun _ => unchanged_iff_endsSafely hstart) ?_ ?_ c
  · exact fun req endpointHost => wp_mono (s.issueLocked_reflected req endpointHost)
      fun _ _ h _ _ => unchanged_iff_endsSafely h
  · exact fun publicKey => wp_mono (s.revokeLocked_reflected publicKey)
      fun _ _ h _ _ => unchanged_iff_endsSafely h

/-- The answer of an operation of a cancelled request. -/
def canceledAnswer : (e : Op) → e.Res
  | .now => ⟨[], 0, []⟩
  | .mapOrder => ⟨id, fun l => .refl l⟩
  | .readFile _ => .error (lit "context canceled")
  | .readFileOrEmptyArray _ => .error (lit "context canceled")
  | .fileInfo _ => .error (lit "context canceled")
  | .writeFileAtomic .. => .error (lit "context canceled")
  | .backupFile .. => .error (lit "context canceled")
  | .restoreFile .. => .error (lit "context canceled")
  | .removeFile _ => .error (lit "context canceled")
  | .syncConf => .error (lit "context canceled")
  | .awgShow => .error (lit "context canceled")
  | .generatePrivateKey => .error (lit "context canceled")
  | .publicKey _ => .error (lit "context canceled")

theorem failed_canceledAnswer (e : Op) : Failed e (canceledAnswer e) := by
  cases e
  case now => trivial
  case mapOrder => trivial
  all_goals exact ⟨_, rfl⟩

def interrupted : Op → Bool
  | .syncConf => true
  | .restoreFile .. => true
  | _ => false

/-- A container in which everything works until a sync or a restore, during which the
request is cancelled. -/
def cancelAtSync : Handler CallState Op Op.Res := fun st e =>
  if st.ended then (canceledAnswer e, st)
  else if interrupted e then
    (canceledAnswer e, { world := st.world, done := st.done ++ [(e, false)], ended := true })
  else ((healthy [] st.world e).1,
    { world := (healthy [] st.world e).2, done := st.done ++ [(e, true)] })

theorem cancelAtSync_ctxEnv (st : CallState) (e : Op) :
    ctxEnv st e (cancelAtSync st e).1 (cancelAtSync st e).2 := by
  by_cases hended : st.ended = true
  · simp only [ctxEnv, cancelAtSync, hended, if_true]
    exact ⟨failed_canceledAnswer e, trivial⟩
  rw [ctxEnv, if_neg hended, cancelAtSync, if_neg hended]
  by_cases he : interrupted e = true
  · rw [if_pos he]
    refine ⟨dockerStep_failed (failed_canceledAnswer e), ⟨false, ?_, rfl⟩,
      fun _ => failed_canceledAnswer e⟩
    cases e with
    | restoreFile => exact ⟨by rintro ⟨⟩, rfl⟩
    | syncConf => trivial
    | _ => cases he
  · rw [if_neg he]
    refine ⟨healthy_step [] st.world e, ⟨true, ?_, rfl⟩, by rintro ⟨⟩⟩
    cases e with
    | writeFileAtomic | removeFile => exact ⟨fun _ => rfl, rfl⟩
    | restoreFile => exact absurd rfl he
    | _ => trivial

/-- A revoke that is cancelled while it syncs: its outcome and the state it leaves. -/
def cancelledRevoke : Except ServiceError Reply × CallState :=
  (exampleService.call (.revoke (lit "a"))).runWith (lockHandler Text cancelAtSync)
    { world := exampleWorld }

/-- Nothing fails before the sync, and yet the files stay as they were written. -/
theorem cancelled_revoke_changes :
    Runs (lockEnv Text ctxEnv) (exampleService.call (.revoke (lit "a"))) { world := exampleWorld }
      cancelledRevoke.1 cancelledRevoke.2 ∧
    cancelledRevoke.1.isOk = false ∧ cancelledRevoke.2.ended = true ∧
    ¬Unchanged exampleWorld cancelledRevoke.2.world := by
  refine ⟨runs_runWith (lockHandler_lockEnv cancelAtSync_ctxEnv) _ _, by decide +kernel,
    by decide +kernel, ?_⟩
  rintro ⟨hconfig, -⟩
  have hchanged : cancelledRevoke.2.world.files .config ≠ exampleWorld.files .config := by
    decide +kernel
  exact hchanged hconfig

end VpnControl.Agent
