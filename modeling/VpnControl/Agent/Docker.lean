import VpnControl.Lib.Program
import VpnControl.Awg.ClientsTable
import Mathlib.Logic.Function.Basic

namespace VpnControl.Agent
open Awg Strings Effects Function

/-- `path.Clean`: the elements without `.` and with each `..` taking back the one before. -/
def cleanElements (rooted : Bool) (acc : List Text) : List Text → List Text
  | [] => acc
  | e :: es =>
    if e = [] ∨ e = ['.'] then cleanElements rooted acc es
    else if e = ['.', '.'] then
      match acc.getLast? with
      | some l =>
        if l = ['.', '.'] then cleanElements rooted (acc ++ [e]) es
        else cleanElements rooted acc.dropLast es
      | none => cleanElements rooted (if rooted then acc else [e]) es
    else cleanElements rooted (acc ++ [e]) es

def clean (p : Text) : Text :=
  let rooted := p.head? == some '/'
  let body := join (cleanElements rooted [] (p.splitOn '/')) ['/']
  if rooted then '/' :: body else if body = [] then ['.'] else body

/-- `path.Dir`. -/
def dir (p : Text) : Text := clean (p.rdropWhile (· ≠ '/'))

/-- `path.Join` of a directory and a name. -/
def joinPath (d name : Text) : Text := clean (if d = [] then name else d ++ '/' :: name)

structure Options where
  configPath : Text := []
  clientsTablePath : Text := []
  lockPath : Text := []
  endpointHost : Text := []

def defaultOptions : Options where
  configPath := lit "/opt/amnezia/awg/awg0.conf"
  clientsTablePath := lit "/opt/amnezia/awg/clientsTable"
  lockPath := lit "/var/lock/vpn-agent.lock"

def Options.withDefaults (o : Options) : Options where
  configPath := if o.configPath = [] then defaultOptions.configPath else o.configPath
  clientsTablePath :=
    if o.clientsTablePath = [] then defaultOptions.clientsTablePath else o.clientsTablePath
  lockPath := if o.lockPath = [] then defaultOptions.lockPath else o.lockPath
  endpointHost := o.endpointHost

/-- Where the server's public key and the preshared key are. -/
def keyPathsForConfig (configPath : Text) : Text × Text :=
  let d := dir configPath
  if d = ['.'] ∨ d = ['/'] then
    (lit "/opt/amnezia/awg/wireguard_server_public_key.key",
      lit "/opt/amnezia/awg/wireguard_psk.key")
  else
    (joinPath d (lit "wireguard_server_public_key.key"), joinPath d (lit "wireguard_psk.key"))

/-- The files in the container that the service works with. -/
inductive FilePath where
  | config
  | clientsTable
  | serverPublicKey
  | presharedKey
  | configBackup (suffix : Text)
  | clientsTableBackup (suffix : Text)
  deriving DecidableEq, Repr

def FilePath.text (o : Options) : FilePath → Text
  | config => o.configPath
  | clientsTable => o.clientsTablePath
  | serverPublicKey => (keyPathsForConfig o.configPath).1
  | presharedKey => (keyPathsForConfig o.configPath).2
  | configBackup suffix => o.configPath ++ suffix
  | clientsTableBackup suffix => o.clientsTablePath ++ suffix

/-- A point in time: in the layout of a backup's name, in nanoseconds, and in the layout
of a creation date. -/
structure Time where
  utc : Text
  unixNano : Int
  creationDate : Text

structure FileInfo where
  fileExists : Bool := false
  size : Nat := 0
  mode : Text := []

/-- What the service asks of the container, of the clock and of Go's map iteration. -/
inductive Op where
  | now
  | mapOrder
  | readFile (file : FilePath)
  | readFileOrEmptyArray (file : FilePath)
  | fileInfo (file : FilePath)
  | writeFileAtomic (file : FilePath) (data mode : Text)
  | backupFile (file backup : FilePath) (required : Bool)
  | restoreFile (backup file : FilePath) (mode : Text)
  | removeFile (file : FilePath)
  | syncConf
  | awgShow
  | generatePrivateKey
  | publicKey (privateKey : Text)

/-- An answer of the container is an error text or a value. -/
abbrev Op.Res : Op → Type
  | now => Time
  | mapOrder => MapOrder
  | readFile _ => Except Text Text
  | readFileOrEmptyArray _ => Except Text Text
  | fileInfo _ => Except Text FileInfo
  | writeFileAtomic .. => Except Text Unit
  | backupFile .. => Except Text Unit
  | restoreFile .. => Except Text Unit
  | removeFile _ => Except Text Unit
  | syncConf => Except Text Unit
  | awgShow => Except Text Text
  | generatePrivateKey => Except Text Text
  | publicKey _ => Except Text Text

/-- The file that an operation replaces. -/
def Op.target : Op → Option FilePath
  | writeFileAtomic file _ _ => some file
  | backupFile _ backup _ => some backup
  | restoreFile _ file _ => some file
  | removeFile file => some file
  | _ => none

/-- The operations that neither replace a file nor touch the interface. -/
def Op.ReadOnly (e : Op) : Prop := e.target = none ∧ e ≠ .syncConf

/-- The files of the container and the config that the interface last was synced to. -/
structure World where
  files : FilePath → Option Text
  applied : Option Text

def World.put (w : World) (file : FilePath) (content : Option Text) : World :=
  { w with files := update w.files file content }

@[simp] theorem World.put_self (w : World) (file : FilePath) (content : Option Text) :
    (w.put file content).files file = content := by
  unfold World.put
  exact update_self ..

theorem World.put_of_ne (w : World) {file other : FilePath} (h : other ≠ file)
    (content : Option Text) : (w.put file content).files other = w.files other := by
  unfold World.put
  exact update_of_ne h ..

/-- What is copied to a backup: an optional file that is missing counts as an empty array. -/
def backupContent (w : World) (file : FilePath) (required : Bool) : Option Text :=
  match w.files file with
  | some text => some text
  | none => if required then none else some (lit "[]\n")

/-- What an operation may answer and do. Every one may fail; a failed write may have
replaced the file, a failed copy may have left anything in its target, and a failed sync
anything on the interface. -/
def dockerStep (w : World) : (e : Op) → e.Res → World → Prop
  | .now, _, w' => w' = w
  | .mapOrder, _, w' => w' = w
  | .readFile file, r, w' => w' = w ∧ ∀ text, r = .ok text → w.files file = some text
  | .readFileOrEmptyArray file, r, w' =>
    w' = w ∧ ∀ text, r = .ok text → (w.files file).getD (lit "[]\n") = text
  | .fileInfo file, r, w' =>
    w' = w ∧ ∀ info, r = .ok info → info.fileExists = (w.files file).isSome
  -- a file is written as a whole or not at all
  | .writeFileAtomic file data _, r, w' => (w' = w ∧ r ≠ .ok ()) ∨ w' = w.put file (some data)
  | .backupFile file backup required, r, w' =>
    match r with
    | .ok _ => backupContent w file required ≠ none ∧
        w' = w.put backup (backupContent w file required)
    -- `cp` may break off anywhere
    | .error _ => ∃ content, w' = w.put backup content
  | .restoreFile backup file _, r, w' =>
    match r with
    | .ok _ => w.files backup ≠ none ∧ w' = w.put file (w.files backup)
    | .error _ => ∃ content, w' = w.put file content
  | .removeFile file, r, w' => (w' = w ∧ r ≠ .ok ()) ∨ w' = w.put file none
  | .syncConf, r, w' =>
    match r with
    | .ok _ => w' = { w with applied := w.files .config }
    | .error _ => ∃ applied, w' = { w with applied := applied }
  | .awgShow, _, w' => w' = w
  | .generatePrivateKey, r, w' => w' = w ∧ ∀ key, r = .ok key → trimSpace key = key
  | .publicKey _, r, w' => w' = w ∧ ∀ key, r = .ok key → trimSpace key = key

/-- The container, with its answers restricted to those that are `allowed`. -/
def dockerEnv (allowed : (e : Op) → e.Res → Prop) : Env World Op Op.Res :=
  fun w e r w' => dockerStep w e r w' ∧ allowed e r

theorem dockerStep_readOnly {w w' : World} {e : Op} {r : e.Res} (he : e.ReadOnly)
    (h : dockerStep w e r w') : w' = w := by
  obtain ⟨htarget, hsync⟩ := he
  cases e with
  | now => exact h
  | mapOrder => exact h
  | awgShow => exact h
  | readFile _ => exact h.1
  | readFileOrEmptyArray _ => exact h.1
  | fileInfo _ => exact h.1
  | generatePrivateKey => exact h.1
  | publicKey _ => exact h.1
  | writeFileAtomic _ _ _ => cases htarget
  | backupFile _ _ _ => cases htarget
  | restoreFile _ _ _ => cases htarget
  | removeFile _ => cases htarget
  | syncConf => exact absurd rfl hsync

/-- An operation changes no file but its target. -/
theorem dockerStep_frame {w w' : World} {e : Op} {r : e.Res} (h : dockerStep w e r w')
    {file : FilePath} (hfile : e.target ≠ some file) : w'.files file = w.files file := by
  have hput : ∀ {target} (content : Option Text), e.target = some target →
      w' = w.put target content → w'.files file = w.files file := by
    rintro target content ht rfl
    refine w.put_of_ne (fun heq => hfile ?_) content
    rw [ht, heq]
  cases e with
  | writeFileAtomic _ _ _ =>
    rcases h with ⟨rfl, -⟩ | h
    · rfl
    · exact hput _ rfl h
  | removeFile _ =>
    rcases h with ⟨rfl, -⟩ | h
    · rfl
    · exact hput _ rfl h
  | backupFile _ _ _ =>
    cases r with
    | ok _ => exact hput _ rfl h.2
    | error _ =>
      obtain ⟨content, h⟩ := h
      exact hput content rfl h
  | restoreFile _ _ _ =>
    cases r with
    | ok _ => exact hput _ rfl h.2
    | error _ =>
      obtain ⟨content, h⟩ := h
      exact hput content rfl h
  | syncConf =>
    cases r with
    | ok _ =>
      cases h
      rfl
    | error _ =>
      obtain ⟨applied, rfl⟩ := h
      rfl
  | now => rw [show w' = w from h]
  | mapOrder => rw [show w' = w from h]
  | awgShow => rw [show w' = w from h]
  | readFile _ => rw [h.1]
  | readFileOrEmptyArray _ => rw [h.1]
  | fileInfo _ => rw [h.1]
  | generatePrivateKey => rw [h.1]
  | publicKey _ => rw [h.1]

/-- A container in which everything works; `runtime` is what `awg show` prints. -/
def healthy (runtime : Text) : Handler World Op Op.Res
  | w, .now => (⟨lit "20240101T000000", 0, lit "Mon Jan 1 00:00:00 2024"⟩, w)
  | w, .mapOrder => (⟨id, fun l => .refl l⟩, w)
  | w, .readFile file =>
    match w.files file with
    | some text => (.ok text, w)
    | none => (.error (lit "No such file or directory"), w)
  | w, .readFileOrEmptyArray file => (.ok ((w.files file).getD (lit "[]\n")), w)
  | w, .fileInfo file => (.ok ⟨(w.files file).isSome, 0, lit "600"⟩, w)
  | w, .writeFileAtomic file data _ => (.ok (), w.put file (some data))
  | w, .backupFile file backup required =>
    match backupContent w file required with
    | some text => (.ok (), w.put backup (some text))
    | none => (.error (lit "missing required file"), w)
  | w, .restoreFile backup file _ =>
    match w.files backup with
    | some text => (.ok (), w.put file (some text))
    | none => (.error (lit "No such file or directory"), w)
  | w, .removeFile file => (.ok (), w.put file none)
  | w, .syncConf => (.ok (), { w with applied := w.files .config })
  | w, .awgShow => (.ok runtime, w)
  | w, .generatePrivateKey => (.ok (lit "private"), w)
  | w, .publicKey _ => (.ok (lit "public"), w)

theorem healthy_step (runtime : Text) (w : World) (e : Op) :
    dockerStep w e (healthy runtime w e).1 (healthy runtime w e).2 := by
  cases e with
  | now => rfl
  | mapOrder => rfl
  | awgShow => rfl
  | readFileOrEmptyArray _ => exact ⟨rfl, by simp [healthy]⟩
  | fileInfo _ => exact ⟨rfl, by simp [healthy]⟩
  | writeFileAtomic _ _ _ => exact .inr rfl
  | removeFile _ => exact .inr rfl
  | syncConf => rfl
  | generatePrivateKey =>
    refine ⟨rfl, ?_⟩
    rintro _ ⟨⟩
    decide +kernel
  | publicKey _ =>
    refine ⟨rfl, ?_⟩
    rintro _ ⟨⟩
    decide +kernel
  | readFile file =>
    simp only [healthy]
    cases h : w.files file with
    | some text => exact ⟨rfl, by simpa using h⟩
    | none => exact ⟨rfl, by simp⟩
  | backupFile file backup required =>
    simp only [healthy]
    cases h : backupContent w file required with
    | some text => exact ⟨by simp [h], by rw [h]⟩
    | none => exact ⟨w.files backup, by rw [World.put, update_eq_self]⟩
  | restoreFile backup file _ =>
    simp only [healthy]
    cases h : w.files backup with
    | some text => exact ⟨by simp [h], by rw [h]⟩
    | none => exact ⟨w.files file, by rw [World.put, update_eq_self]⟩

/-- What `awg show` prints of the config that the interface was synced to. -/
def shown (applied : Option Text) : Text :=
  match applied.map parseConfig with
  | some (.ok cfg) => cfg.peers.flatMap fun p => lit "peer: " ++ p.publicKey ++
      lit "\n  allowed ips: " ++ join p.allowedIPs (lit ", ") ++ ['\n']
  | _ => []

/-- A container in which everything works, also the interface. -/
def working : Handler World Op Op.Res := fun w e => healthy (shown w.applied) w e

end VpnControl.Agent
