import VpnControl.Agent.Service

namespace VpnControl.Agent
open Awg Strings Effects Prog

section Rules
variable {allowed : (e : Op) → e.Res → Prop} {w : World} {α β : Type}

/-- The outcome of a program that only reads: the container is as before, and a value
satisfies `P`. -/
def Reads (w : World) (P : α → Prop) : Post World ServiceError α :=
  fun r w' => w' = w ∧ ∀ a, r = .ok a → P a

theorem reads_ret {a : α} {P : α → Prop} (h : P a) :
    wp (dockerEnv allowed) (ret a) (Reads w P) w := by
  refine ⟨rfl, ?_⟩
  rintro _ ⟨⟩
  exact h

theorem reads_bind {P : α → Prop} {R : β → Prop} {p : Docker α} {f : α → Docker β}
    (hp : wp (dockerEnv allowed) p (Reads w P) w)
    (hf : ∀ a, P a → wp (dockerEnv allowed) (f a) (Reads w R) w) :
    wp (dockerEnv allowed) (p >>= f) (Reads w R) w := by
  apply wp_seq hp
  · rintro a _ ⟨rfl, ha⟩
    exact hf a (ha a rfl)
  · rintro x _ ⟨rfl, -⟩
    exact ⟨rfl, by simp⟩

theorem reads_lift {P : α → Prop} {x : Except ServiceError α} (h : ∀ a, x = .ok a → P a) :
    wp (dockerEnv allowed) (lift x) (Reads w P) w := by
  rw [wp_lift]
  exact ⟨rfl, h⟩

theorem reads_mapError {ε : Type} {f : ε → ServiceError} {x : Except ε α} :
    wp (dockerEnv allowed) (lift (x.mapError f)) (Reads w fun a => x = .ok a) w := by
  apply reads_lift
  intro a h
  cases x with
  | error e => cases h
  | ok b =>
    cases h
    rfl

theorem reads_refuseIf {p : Prop} [Decidable p] {x : ServiceError} :
    wp (dockerEnv allowed) (refuseIf p x) (Reads w fun _ => ¬p) w := by
  unfold refuseIf
  split
  · exact ⟨rfl, by simp⟩
  · exact reads_ret ‹_›

theorem reads_run {P : α → Prop} {p : Docker (Except Text α)}
    (h : wp (dockerEnv allowed) p (Reads w fun r => ∀ a, r = .ok a → P a) w) :
    wp (dockerEnv allowed) (run p) (Reads w P) w := by
  apply reads_bind h
  intro r hr
  apply reads_lift
  intro a ha
  cases r with
  | error x => cases ha
  | ok b =>
    cases ha
    exact hr a rfl

theorem reads_ask {e : Op} (he : e.ReadOnly) :
    wp (dockerEnv allowed) (ask e) (Reads w fun r => dockerStep w e r w ∧ allowed e r) w := by
  rintro r w' ⟨hstep, hallowed⟩
  obtain rfl := dockerStep_readOnly he hstep
  refine ⟨rfl, ?_⟩
  rintro _ ⟨⟩
  exact ⟨hstep, hallowed⟩

theorem reads_mono {P R : α → Prop} {p : Docker α} (h : wp (dockerEnv allowed) p (Reads w P) w)
    (hPR : ∀ a, P a → R a) : wp (dockerEnv allowed) p (Reads w R) w :=
  wp_mono h fun _ _ hr => ⟨hr.1, fun a ha => hPR a (hr.2 a ha)⟩

theorem reads_readFile (file : FilePath) :
    wp (dockerEnv allowed) (readFile file)
      (Reads w fun text => w.files file = some text ∧ allowed (.readFile file) (.ok text)) w := by
  apply reads_run
  apply reads_mono (reads_ask ⟨rfl, by simp⟩)
  rintro _ ⟨hstep, hallowed⟩ text rfl
  exact ⟨hstep.2 text rfl, hallowed⟩

theorem reads_readFileOrEmptyArray (file : FilePath) :
    wp (dockerEnv allowed) (readFileOrEmptyArray file)
      (Reads w fun text => (w.files file).getD (lit "[]\n") = text) w := by
  apply reads_run
  apply reads_mono (reads_ask ⟨rfl, by simp⟩)
  rintro _ ⟨hstep, -⟩ text rfl
  exact hstep.2 text rfl

theorem reads_fileInfo (file : FilePath) :
    wp (dockerEnv allowed) (fileInfo file)
      (Reads w fun info => info.fileExists = (w.files file).isSome) w := by
  apply reads_run
  apply reads_mono (reads_ask ⟨rfl, by simp⟩)
  rintro _ ⟨hstep, -⟩ info rfl
  exact hstep.2 info rfl

theorem reads_awgShow :
    wp (dockerEnv allowed) awgShow (Reads w fun _ => True) w :=
  reads_run (reads_mono (reads_ask ⟨rfl, by simp⟩) fun _ _ _ _ => trivial)

theorem reads_generatePrivateKey :
    wp (dockerEnv allowed) generatePrivateKey (Reads w fun _ => True) w :=
  reads_run (reads_mono (reads_ask ⟨rfl, by simp⟩) fun _ _ _ _ => trivial)

theorem reads_derivePublicKey (privateKey : Text) :
    wp (dockerEnv allowed) (derivePublicKey privateKey)
      (Reads w fun key => trimSpace key = key ∧ allowed (.publicKey privateKey) (.ok key)) w := by
  apply reads_run
  apply reads_mono (reads_ask ⟨rfl, by simp⟩)
  rintro _ ⟨hstep, hallowed⟩ key rfl
  exact ⟨hstep.2 key rfl, hallowed⟩

theorem Reads.onOk {P : α → Prop} {p : Docker α} (h : wp (dockerEnv allowed) p (Reads w P) w) :
    wp (dockerEnv allowed) p (onOk fun a w' => w' = w ∧ P a) w :=
  wp_mono h fun _ _ hr a ha => ⟨hr.1, hr.2 a ha⟩

theorem onOk_run {P : α → World → Prop} {p : Docker (Except Text α)}
    (h : wp (dockerEnv allowed) p (onOk fun r w' => ∀ a, r = .ok a → P a w') w) :
    wp (dockerEnv allowed) (run p) (onOk P) w := by
  apply wp_onOk_bind h
  intro r w' hr
  rw [wp_lift]
  intro a ha
  cases r with
  | error x => cases ha
  | ok b =>
    cases ha
    exact hr a rfl

theorem onOk_ask (e : Op) :
    wp (dockerEnv allowed) (ask e) (onOk fun r w' => dockerStep w e r w' ∧ allowed e r) w := by
  rintro r w' h _ ⟨⟩
  exact h

theorem onOk_backupFile (file backup : FilePath) (required : Bool) :
    wp (dockerEnv allowed) (backupFile file backup required)
      (onOk fun _ w' => w' = w.put backup (backupContent w file required)) w := by
  apply onOk_run
  apply wp_mono (onOk_ask _)
  rintro r w' h a ha _ rfl
  exact (h _ ha).1.2

theorem onOk_writeFileAtomic (file : FilePath) (data : Text) :
    wp (dockerEnv allowed) (writeFileAtomic file data) (onOk fun _ w' =>
      w' = w.put file (some data) ∧ allowed (.writeFileAtomic file data (lit "600")) (.ok ())) w := by
  apply onOk_run
  apply wp_mono (onOk_ask _)
  rintro r w' h a ha _ rfl
  obtain ⟨⟨-, hne⟩ | hstep, hallowed⟩ := h _ ha
  · exact absurd rfl hne
  · exact ⟨hstep, hallowed⟩

theorem onOk_syncConf :
    wp (dockerEnv allowed) syncConf
      (onOk fun _ w' => w' = { w with applied := w.files .config }) w := by
  apply onOk_run
  apply wp_mono (onOk_ask _)
  rintro r w' h a ha _ rfl
  exact (h _ ha).1

end Rules
end VpnControl.Agent
