import VpnControl.Agent.Service

namespace VpnControl.Awg
open Strings Trim

/-- The key on a line of `awg show` that begins a peer. -/
def peerKey (line : Text) : Option Text := labelled "peer:" (trimSpace line)

/-- The text lists a peer: some line of it names the key. -/
def Listed (text k : Text) : Prop := ∃ l ∈ rawLines text, peerKey l = some k

/-- Every peer on or after the first line that is too long for the scanner is also listed before
that line. -/
def Unhidden (text : Text) : Prop :=
  ∀ l ∈ (rawLines text).dropWhile tokenFits, ∀ k, peerKey l = some k →
    ∃ m ∈ (rawLines text).takeWhile tokenFits, peerKey m = some k

section Scan

theorem trimSpace_dropCR (l : Text) : trimSpace (dropCR l) = trimSpace l := by
  rw [dropCR]
  split_ifs with h
  · obtain ⟨pre, rfl⟩ := List.getLast?_eq_some_iff.mp h
    have hcr : trimRightCR (pre ++ ['\r']) = trimRightCR pre :=
      List.rdropWhile_concat_pos _ _ _ (by rfl)
    rw [List.dropLast_concat, ← trimSpace_trimRightCR (pre ++ ['\r']), hcr, trimSpace_trimRightCR]
  · rfl

theorem peerKey_dropCR (l : Text) : peerKey (dropCR l) = peerKey l := by
  rw [peerKey, trimSpace_dropCR, peerKey]

/-- A line has one label at most of two that begin with different characters. -/
theorem labelled_eq_none {label label' : String} {c c' : Char} {rest rest' value line : Text}
    (hlabel : lit label = c :: rest) (hlabel' : lit label' = c' :: rest') (hne : c ≠ c')
    (h : labelled label line = some value) : labelled label' line = none := by
  rw [labelled] at h ⊢
  split_ifs at h with hprefix
  rw [if_neg]
  intro hprefix'
  rw [hlabel] at hprefix
  rw [hlabel'] at hprefix'
  obtain ⟨s, rfl⟩ := hprefix
  obtain ⟨t, ht⟩ := hprefix'
  rw [List.cons_append, List.cons_append, List.cons.injEq] at ht
  exact hne ht.1.symm

@[simp] theorem publicKey_parseRuntimePeerLine (peer : RuntimePeer) (line : Text) :
    (parseRuntimePeerLine peer line).publicKey = peer.publicKey := by
  rw [parseRuntimePeerLine]
  split
  · rfl
  split
  · rfl
  split
  · rfl
  split
  · split <;> rfl
  · rfl

/-- The keys of all peers read so far, the current one's last. -/
def shownKeys (st : ShowState) : List Text := (flushRuntimePeer st).peers.map (·.publicKey)

/-- A line adds the key of the peer that it begins, if it begins one. -/
theorem shownKeys_parseShowLine (st : ShowState) (token : Text) :
    shownKeys (parseShowLine st token) = shownKeys st ++ (peerKey token).toList := by
  have hinterface : lit "interface:" = 'i' :: lit "nterface:" := by simp [lit_eq]
  have hpeer : lit "peer:" = 'p' :: lit "eer:" := by simp [lit_eq]
  rw [peerKey, parseShowLine]
  simp only
  cases hi : labelled "interface:" (trimSpace token) with
  | some name =>
    rw [labelled_eq_none hinterface hpeer (by decide) hi]
    simp [shownKeys, flushRuntimePeer]
  | none =>
    cases hp : labelled "peer:" (trimSpace token) with
    | some key => simp [shownKeys, flushRuntimePeer]
    | none =>
      cases hc : st.current with
      | some peer => simp [shownKeys, flushRuntimePeer, hc]
      | none =>
        simp only
        split
        · simp [shownKeys, flushRuntimePeer, hc]
        split
        · simp [shownKeys, flushRuntimePeer, hc]
        · simp

theorem shownKeys_foldl (st : ShowState) (tokens : List Text) :
    shownKeys (tokens.foldl parseShowLine st) = shownKeys st ++ tokens.filterMap peerKey := by
  induction tokens generalizing st with
  | nil => simp
  | cons token tokens ih =>
    rw [List.foldl_cons, ih, shownKeys_parseShowLine]
    cases hk : peerKey token <;> simp [hk]

/-- `HasPeer` finds the peers that are listed before the first line over the limit. -/
theorem hasPeer_iff (text k : Text) : (parseAWGShow text).hasPeer k = true ↔
    ∃ l ∈ (rawLines text).takeWhile tokenFits, peerKey l = some k := by
  have hkeys : (parseAWGShow text).peers.map (·.publicKey) =
      ((rawLines text).takeWhile tokenFits).filterMap peerKey := by
    have hfold := shownKeys_foldl { status := { raw := text } } (scanLines text).1
    rw [scanLines, List.span_eq_takeWhile_dropWhile] at hfold
    rw [parseAWGShow, scanLines, List.span_eq_takeWhile_dropWhile]
    refine hfold.trans ?_
    rw [List.filterMap_map]
    exact List.filterMap_congr fun l _ => peerKey_dropCR l
  have hmem : k ∈ (parseAWGShow text).peers.map (·.publicKey) ↔
      ∃ l ∈ (rawLines text).takeWhile tokenFits, peerKey l = some k := by
    rw [hkeys, List.mem_filterMap]
  rw [← hmem]
  simp [RuntimeStatus.hasPeer]

theorem hasPeer_iff_listed (text : Text) :
    (∀ k, (parseAWGShow text).hasPeer k = true ↔ Listed text k) ↔ Unhidden text := by
  have hsplit : (rawLines text).takeWhile tokenFits ++ (rawLines text).dropWhile tokenFits =
      rawLines text := List.takeWhile_append_dropWhile
  constructor
  · intro h l hl k hk
    have hlisted : Listed text k := ⟨l, hsplit ▸ List.mem_append_right _ hl, hk⟩
    exact (hasPeer_iff text k).mp ((h k).mpr hlisted)
  · intro h k
    rw [hasPeer_iff]
    constructor
    · rintro ⟨l, hl, hk⟩
      exact ⟨l, hsplit ▸ List.mem_append_left _ hl, hk⟩
    · rintro ⟨l, hl, hk⟩
      rw [← hsplit] at hl
      rcases List.mem_append.mp hl with hl | hl
      · exact ⟨l, hl, hk⟩
      · exact h l hl k hk

end Scan
end VpnControl.Awg

namespace VpnControl.Agent
open Awg Strings Effects Prog

namespace Service
variable {σ : Type} {env : Env σ Op Op.Res} (s : Service)

/-- The last operation was a look at the runtime, which did not show the peer. -/
def SeenGone (publicKey : Text) (l : List (Sigma Op.Res)) : Prop :=
  ∃ text, l.getLast? = some ⟨.awgShow, .ok text⟩ ∧ (parseAWGShow text).hasPeer publicKey = false

theorem mutate_seen (cfg : Config) (table : ClientsTable) (publicKey : Text)
    (st : σ × List (Sigma Op.Res)) :
    wp (logged env) (mutate cfg table (verifyRevoked publicKey))
      (onOk fun _ st' => SeenGone publicKey st'.2) st := by
  refine wp_onOk_bind (wp_onOk_true _) fun _ st _ => wp_onOk_bind (wp_onOk_true _) fun _ st _ => ?_
  rintro r st' ⟨-, hlog⟩
  cases r with
  | error x => rintro _ ⟨⟩
  | ok text =>
    change wp (logged env) (lift (verifyRevoked publicKey (parseAWGShow text))) _ st'
    rw [wp_lift]
    intro u hu
    rw [verifyRevoked] at hu
    split_ifs at hu with hpeer
    exact ⟨text, by rw [hlog, List.getLast?_concat], by simpa using hpeer⟩

/-- A revocation that succeeds ends with a look at the runtime without the peer. -/
theorem revokeLocked_seen (publicKey : Text) (st : σ × List (Sigma Op.Res)) :
    wp (logged env) (s.revokeLocked publicKey) (onOk fun _ st' => SeenGone publicKey st'.2) st := by
  refine wp_onOk_bind (wp_onOk_true _) ?_
  rintro ⟨cfg, table⟩ st -
  refine wp_onOk_bind (wp_onOk_true _) fun backups st _ => ?_
  refine wp_onOk_bind (P := fun _ st' => SeenGone publicKey st'.2) ?_ fun _ st h => wp_onOk_ret h
  have hremove : wp (logged env) (removePeer publicKey cfg table)
      (onOk fun _ st' => SeenGone publicKey st'.2) st :=
    wp_onOk_bind (wp_onOk_true _) fun _ st _ => mutate_seen _ _ publicKey st
  refine wp_seq_attempt hremove fun r st h => ?_
  cases r with
  | ok u => exact wp_onOk_ret (h u rfl)
  | error cause =>
    refine wp_onOk_bind (wp_onOk_true _) fun _ st _ => wp_onOk_bind (wp_onOk_true _) fun _ st _ =>
      wp_onOk_bind (wp_onOk_true _) fun _ st _ => ?_
    rintro _ ⟨⟩

theorem revokeLocked_listed {publicKey : Text} {w w' : σ} {l : List (Sigma Op.Res)} {r : RevokeResult}
    (h : Exec env (s.revokeLocked publicKey) w l (.ok r) w') :
    ∃ text, l.getLast? = some ⟨.awgShow, .ok text⟩ ∧ (Unhidden text → ¬ Listed text publicKey) := by
  have hseen := (wp_iff_exec _).mp (s.revokeLocked_seen publicKey (w, [])) _ _ _
    (exec_logged h []) r rfl
  rw [List.nil_append] at hseen
  obtain ⟨text, hlast, hpeer⟩ := hseen
  refine ⟨text, hlast, fun hunhidden hlisted => ?_⟩
  rw [((hasPeer_iff_listed text).mpr hunhidden publicKey).mpr hlisted] at hpeer
  cases hpeer

end Service

/-- `HasPeer` tells for every key whether the text lists it, and `Revoke` succeeds only without
the peer in the runtime, exactly as far as no line over the limit hides a peer. -/
theorem listed_iff_unhidden (text : Text) :
    ((∀ k, (parseAWGShow text).hasPeer k = true ↔ Listed text k) ↔ Unhidden text) ∧
    ∀ (s : Service) (σ : Type) (env : Env σ Op Op.Res) (publicKey : Text) (w w' : σ)
      (l : List (Sigma Op.Res)) (r : RevokeResult),
      Exec env (s.revokeLocked publicKey) w (l ++ [⟨.awgShow, .ok text⟩]) (.ok r) w' →
      Unhidden text → ¬ Listed text publicKey := by
  refine ⟨hasPeer_iff_listed text, fun s σ env publicKey w w' l r hexec hunhidden => ?_⟩
  obtain ⟨text', hlast, hgone⟩ := s.revokeLocked_listed hexec
  rw [List.getLast?_concat, Option.some.injEq] at hlast
  cases hlast
  exact hgone hunhidden

/-- A peer behind a line over the limit is not seen. -/
theorem hasPeer_behind {long line k : Text} (hlong : tokenFits long = false) (hn : '\n' ∉ long)
    (hline : '\n' ∉ line) (hkey : peerKey line = some k) :
    Listed (Trim.unlines '\n' [long, line]) k ∧
      (parseAWGShow (Trim.unlines '\n' [long, line])).hasPeer k = false := by
  have hlines : rawLines (Trim.unlines '\n' [long, line]) = [long, line] :=
    rawLines_unlines (by simp only [List.forall_mem_cons]; exact ⟨hn, hline, by simp⟩)
  refine ⟨⟨line, by rw [hlines]; simp, hkey⟩, ?_⟩
  rw [Bool.eq_false_iff, ne_eq, hasPeer_iff, hlines, List.takeWhile_cons_of_neg (by rw [hlong]; simp)]
  rintro ⟨l, hl, -⟩
  cases hl

theorem utf8Len_replicate (n : Nat) : utf8Len (List.replicate n 'x') = n := by
  have hsize : Char.utf8Size 'x' = 1 := by decide
  simp [utf8Len, hsize]

/-- A line of 64 KiB in front of a peer. -/
theorem peer_hidden : Listed (Trim.unlines '\n' [List.replicate maxTokenSize 'x', lit "peer: k"]) (lit "k") ∧
    (parseAWGShow (Trim.unlines '\n' [List.replicate maxTokenSize 'x', lit "peer: k"])).hasPeer
      (lit "k") = false := by
  refine hasPeer_behind ?_ (fun h => ?_) (by simp [lit_eq]) (by decide +kernel)
  · rw [tokenFits, utf8Len_replicate, decide_eq_false_iff_not]
    exact Nat.lt_irrefl _
  · cases List.eq_of_mem_replicate h

end VpnControl.Agent
