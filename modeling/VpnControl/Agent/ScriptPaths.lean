import VpnControl.Agent.ScriptRuns
import VpnControl.Awg.ShareURI

namespace VpnControl.Agent
open Awg Strings

section Paths

/-- A name that stands for itself in a path. -/
structure PathName (name : Text) : Prop where
  ne_nil : name ≠ []
  ne_dot : name ≠ ['.']
  ne_dots : name ≠ ['.', '.']
  noSlash : '/' ∉ name

variable {name : Text}

theorem cleanElements_name (hname : PathName name) (rooted : Bool) (acc es : List Text) :
    cleanElements rooted acc (es ++ [name]) = cleanElements rooted acc es ++ [name] := by
  induction es generalizing acc with
  | nil => simp [cleanElements, hname.ne_nil, hname.ne_dot, hname.ne_dots]
  | cons e es ih =>
    simp only [List.cons_append, cleanElements]
    split
    · exact ih acc
    · split
      · split
        · split
          · exact ih _
          · exact ih _
        · exact ih _
      · exact ih _

/-- A name joined to a directory stays the last element of the path. -/
theorem joinPath_name (hname : PathName name) {d : Text} (hd : d.head? = some '/') :
    joinPath d name =
      '/' :: join (cleanElements true [] (d.splitOn '/') ++ [name]) ['/'] := by
  obtain ⟨c, rest, rfl⟩ := List.exists_cons_of_ne_nil (fun h : d = [] => by simp [h] at hd)
  obtain rfl : c = '/' := Option.some.inj hd
  have hsplit : ('/' :: rest ++ '/' :: name).splitOn '/' = ('/' :: rest).splitOn '/' ++ [name] := by
    rw [List.splitOn_eq_splitOnP, List.splitOnP_append_cons _ _ (by simp),
      ← List.splitOn_eq_splitOnP, ← List.splitOn_eq_splitOnP,
      List.splitOn_eq_singleton hname.noSlash]
  have hrooted : ((('/' :: rest) ++ '/' :: name).head? == some '/') = true := rfl
  rw [joinPath, if_neg (by simp), clean]
  simp only [hrooted, if_true]
  rw [hsplit, cleanElements_name hname]

/-- A path that ends in a name, and its base. -/
theorem base_name (hname : PathName name) (pre : Text) : base (pre ++ '/' :: name) = name := by
  have hlast : (pre ++ '/' :: name).rdropWhile (· == '/') = pre ++ '/' :: name := by
    rw [List.rdropWhile_eq_self_iff]
    intro hne
    rw [List.getLast_append_of_right_ne_nil _ _ (by simp), List.getLast_cons hname.ne_nil]
    intro hslash
    exact hname.noSlash (by
      rw [← beq_iff_eq.mp hslash]
      exact List.getLast_mem _)
  have htake : ((pre ++ '/' :: name).reverse.takeWhile (· ≠ '/')).reverse = name := by
    rw [List.reverse_append, List.reverse_cons, List.append_assoc,
      List.takeWhile_append_of_pos (by
        intro c hc
        have hne : c ≠ '/' := fun h => hname.noSlash (h ▸ List.mem_reverse.mp hc)
        simpa using hne)]
    simp
  unfold base
  rw [if_neg (by simp)]
  simp only [hlast, htake, if_neg hname.ne_nil]

theorem join_name (es : List Text) :
    ∃ pre, '/' :: join (es ++ [name]) ['/'] = pre ++ '/' :: name ∧
      (pre = [] ∨ pre.head? = some '/') := by
  induction es with
  | nil => exact ⟨[], by simp [join], .inl rfl⟩
  | cons e es ih =>
    obtain ⟨pre, hpre, -⟩ := ih
    refine ⟨'/' :: e ++ pre, ?_, .inr rfl⟩
    rw [join, List.cons_append, List.intercalate_cons_of_ne_nil (by simp), List.append_assoc,
      List.singleton_append, ← join, hpre]
    simp

theorem exists_joinPath (hname : PathName name) {d : Text} (hd : d.head? = some '/') :
    ∃ pre, joinPath d name = pre ++ '/' :: name ∧ (pre = [] ∨ pre.head? = some '/') := by
  rw [joinPath_name hname hd]
  exact join_name _

theorem head_clean {p : Text} (h : p.head? = some '/') : (clean p).head? = some '/' := by
  simp [clean, h]

theorem head_dir {p : Text} (h : p.head? = some '/') : (dir p).head? = some '/' := by
  refine head_clean ?_
  obtain ⟨c, rest, rfl⟩ := List.exists_cons_of_ne_nil (fun hp : p = [] => by simp [hp] at h)
  obtain rfl : c = '/' := Option.some.inj h
  generalize hkept : ('/' :: rest).rdropWhile (· ≠ '/') = kept
  have hprefix : kept <+: '/' :: rest := hkept ▸ List.rdropWhile_prefix _ _
  cases kept with
  | nil =>
    rw [List.rdropWhile_eq_nil_iff] at hkept
    simpa using hkept '/' (by simp)
  | cons c kept =>
    obtain ⟨l, hl⟩ := hprefix
    cases hl
    rfl

namespace DockerClient
variable {filePath : Text}

theorem intLiteral_noSlash (n : Int) : '/' ∉ intLiteral n := by
  have hdecimal : ∀ n : Nat, '/' ∉ Netip.decimal n := by
    intro n hmem
    have hdigit := List.all_eq_true.mp (decimal_digits n).2.1 _ hmem
    revert hdigit
    decide
  cases n with
  | ofNat n => exact hdecimal n
  | negSucc n => simpa [intLiteral] using hdecimal (n + 1)

theorem pathName_tmp (h : '/' ∉ base filePath) (unixNano : Int) :
    PathName (['.'] ++ base filePath ++ lit ".tmp." ++ intLiteral unixNano) := by
  generalize hname : ['.'] ++ base filePath ++ lit ".tmp." ++ intLiteral unixNano = name
  have hlong : 5 < name.length := by
    rw [← hname]
    simp only [List.length_append, lit_eq]
    simp
    omega
  refine ⟨?_, ?_, ?_, ?_⟩
  · rintro rfl
    simp at hlong
  · rintro rfl
    simp at hlong
  · rintro rfl
    simp at hlong
  · rw [← hname]
    simp [h, intLiteral_noSlash, lit_eq]

/-- A file and the one that takes its place are in one directory, under different names. -/
theorem tmpPath_spec (habsolute : filePath.head? = some '/') (h : '/' ∉ base filePath)
    (unixNano : Int) :
    (tmpPath filePath unixNano).head? = some '/' ∧ tmpPath filePath unixNano ≠ filePath := by
  obtain ⟨pre, hpre, hhead⟩ := exists_joinPath (pathName_tmp h unixNano) (head_dir habsolute)
  have htmp : tmpPath filePath unixNano =
      pre ++ '/' :: (['.'] ++ base filePath ++ lit ".tmp." ++ intLiteral unixNano) := hpre
  constructor
  · rw [htmp]
    rcases hhead with rfl | hhead
    · rfl
    · rw [List.head?_append, hhead]
      rfl
  · intro heq
    have hbase := base_name (pathName_tmp h unixNano) pre
    rw [← htmp, heq] at hbase
    have hlength := congrArg List.length hbase
    simp only [List.length_append, List.length_singleton] at hlength
    omega

end DockerClient
end Paths

section DefaultOptions

/-- The names of the files in their directory, with the default options. -/
def FilePath.name : FilePath → Text
  | config => lit "awg0.conf"
  | clientsTable => lit "clientsTable"
  | serverPublicKey => lit "wireguard_server_public_key.key"
  | presharedKey => lit "wireguard_psk.key"
  | configBackup suffix => lit "awg0.conf" ++ suffix
  | clientsTableBackup suffix => lit "clientsTable" ++ suffix

theorem text_defaultOptions (file : FilePath) :
    file.text defaultOptions = lit "/opt/amnezia/awg/" ++ file.name := by
  cases file with
  | config => simp [FilePath.text, FilePath.name, defaultOptions, lit_eq]
  | clientsTable => simp [FilePath.text, FilePath.name, defaultOptions, lit_eq]
  | serverPublicKey =>
    simp only [FilePath.text, FilePath.name, keyPathsForConfig, defaultOptions, lit_eq]
    decide
  | presharedKey =>
    simp only [FilePath.text, FilePath.name, keyPathsForConfig, defaultOptions, lit_eq]
    decide
  | configBackup suffix => simp [FilePath.text, FilePath.name, defaultOptions, lit_eq]
  | clientsTableBackup suffix => simp [FilePath.text, FilePath.name, defaultOptions, lit_eq]

theorem head_name (file : FilePath) : ∀ rest, file.name ≠ '.' :: rest := by
  intro rest
  cases file <;> simp [FilePath.name, lit_eq]

theorem name_inj {a b : FilePath} (ha : a.Proper) (hb : b.Proper) (h : a.name = b.name) : a = b := by
  have hsuffix : ∀ {suffix : Text}, lit ".bak." <+: suffix → suffix ≠ [] := by
    rintro _ ⟨rest, rfl⟩
    simp [lit_eq]
  cases a <;> cases b <;> simp_all [FilePath.name, FilePath.Proper, lit_eq]

theorem tmpPath_defaultOptions {file : FilePath} (hfile : file.Stateful) (unixNano : Int) :
    ∃ rest, DockerClient.tmpPath (file.text defaultOptions) unixNano =
      lit "/opt/amnezia/awg/" ++ '.' :: rest := by
  have hdir : dir (file.text defaultOptions) = lit "/opt/amnezia/awg" ∧
      '/' ∉ base (file.text defaultOptions) := by
    rcases hfile with rfl | rfl
    · simp only [FilePath.text, defaultOptions, lit_eq]
      decide
    · simp only [FilePath.text, defaultOptions, lit_eq]
      decide
  have helements : cleanElements true [] ((lit "/opt/amnezia/awg").splitOn '/') =
      [lit "opt", lit "amnezia", lit "awg"] := by
    simp only [lit_eq]
    decide
  rw [DockerClient.tmpPath, hdir.1,
    joinPath_name (DockerClient.pathName_tmp hdir.2 unixNano) (by simp [lit_eq]), helements]
  exact ⟨base (file.text defaultOptions) ++ lit ".tmp." ++ intLiteral unixNano,
    by simp [join, lit_eq]⟩

theorem separate_defaultOptions : defaultOptions.Separate (lit "amnezia-awg2") where
  container := by simp [lit_eq]
  absolute file := by
    rw [text_defaultOptions]
    simp [lit_eq]
  named file hfile := by
    rcases hfile with rfl | rfl
    · simp only [FilePath.text, defaultOptions, lit_eq]
      decide
    · simp only [FilePath.text, defaultOptions, lit_eq]
      decide
  apart a b ha hb h := by
    rw [text_defaultOptions, text_defaultOptions] at h
    exact name_inj ha hb (List.append_cancel_left h)
  temporary a b unixNano ha hb heq := by
    obtain ⟨rest, htmp⟩ := tmpPath_defaultOptions ha unixNano
    rw [htmp, text_defaultOptions] at heq
    exact head_name b rest (List.append_cancel_left heq).symm

end DefaultOptions
end VpnControl.Agent
