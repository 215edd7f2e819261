import VpnControl.Awg.ClientsTableUpdates

namespace VpnControl.Awg
open Strings Json SortedMap

section Depth
variable {fmt : FloatFormat} {iter : MapOrder} {x y : Doc} {n : Nat}

theorem depthElems_decode {xs ys : List Doc}
    (ih : ∀ x ∈ xs, ∀ y, decodeAny fmt x = some y → depth y ≤ depth x)
    (h : decodeElems fmt xs = some ys) : depthElems ys ≤ depthElems xs := by
  apply depthElems_le
  intro y hy
  obtain ⟨x, hx, hd⟩ := mem_decodeElems h y hy
  exact (ih x hx y hd).trans (depth_le_elems hx)

theorem depth_decodeMembers {ms es : List (Text × Doc)}
    (ih : ∀ m ∈ ms, ∀ y, decodeAny fmt m.2 = some y → depth y ≤ depth m.2)
    (h : decodeMembers fmt ms = some es) : ∀ e ∈ es, depth e.2 ≤ depthMembers ms := by
  intro e he
  obtain ⟨m, hm, hd⟩ := mem_decodeMembers h e he
  exact (ih m hm e.2 hd).trans (depth_le_members hm)

theorem depthMembers_insertAll {es : List (Text × Doc)} (h : ∀ e ∈ es, depth e.2 ≤ n) :
    depthMembers (insertAll [] es) ≤ n := by
  apply depthMembers_le
  intro e he
  rcases mem_insertAll he with he | he
  · exact h e he
  · exact absurd he List.not_mem_nil

/-- Decoding nests nothing deeper. -/
theorem depth_decodeAny (h : decodeAny fmt x = some y) : depth y ≤ depth x := by
  induction x using Doc.induct generalizing y with
  | null =>
    rw [decodeAny] at h
    cases h
    exact Nat.le_refl _
  | bool b =>
    rw [decodeAny] at h
    cases h
    exact Nat.le_refl _
  | num literal =>
    rw [decodeAny] at h
    obtain ⟨r, -, rfl⟩ := Option.map_eq_some_iff.mp h
    exact Nat.le_refl _
  | str s =>
    rw [decodeAny] at h
    cases h
    exact Nat.le_refl _
  | arr xs ih =>
    rw [decodeAny] at h
    obtain ⟨ys, hys, rfl⟩ := Option.map_eq_some_iff.mp h
    rw [depth, depth]
    exact Nat.succ_le_succ (depthElems_decode (fun x hx _ => ih x hx) hys)
  | obj ms ih =>
    rw [decodeAny] at h
    obtain ⟨es, hes, rfl⟩ := Option.map_eq_some_iff.mp h
    rw [depth, depth]
    exact Nat.succ_le_succ
      (depthMembers_insertAll (depth_decodeMembers (fun m hm _ => ih m hm) hes))

/-- No value of the client data is nested deeper than `n`. -/
def Shallow (n : Nat) (m : GoMap) : Prop := ∀ e ∈ m, depth e.2 ≤ n

theorem shallow_decodeMembers {m : GoMap} (hm : Shallow n m) {ms es : List (Text × Doc)}
    (h : decodeMembers fmt ms = some es) (hms : depthMembers ms ≤ n) :
    Shallow n (insertAll m es) := by
  intro e he
  rcases mem_insertAll he with he | he
  · exact (depth_decodeMembers (fun _ _ _ => depth_decodeAny) h e he).trans hms
  · exact hm e he

theorem shallow_decodeField {r r' : ClientRecord} (hr : Shallow n r.userData) {m : Text × Doc}
    (h : decodeField fmt r m = some r') (hm : depth m.2 ≤ n + 1) : Shallow n r'.userData := by
  rw [decodeField] at h
  split at h
  · split at h
    · cases h
      exact hr
    · cases h
      exact hr
    · cases h
  · split at h
    · split at h
      · cases h
        exact fun e he => absurd he List.not_mem_nil
      · rename_i ms hobj
        obtain ⟨es, hes, rfl⟩ := Option.map_eq_some_iff.mp h
        rw [hobj, depth] at hm
        exact shallow_decodeMembers hr hes (Nat.le_of_succ_le_succ hm)
      · cases h
    · cases h
      exact hr

theorem shallow_decodeFields {r r' : ClientRecord} (hr : Shallow n r.userData)
    {ms : List (Text × Doc)} (h : decodeFields fmt r ms = some r')
    (hms : depthMembers ms ≤ n + 1) : Shallow n r'.userData := by
  induction ms generalizing r with
  | nil =>
    cases h
    exact hr
  | cons m ms ih =>
    obtain ⟨r₁, h₁, h⟩ := Option.bind_eq_some_iff.mp h
    obtain ⟨hm, hrest⟩ := Nat.max_le.mp hms
    exact ih (shallow_decodeField hr h₁ hm) h hrest

theorem shallow_decodeRecord {r : ClientRecord} (h : decodeRecord fmt x = some r)
    (hx : depth x ≤ n + 2) : Shallow n r.userData := by
  rw [decodeRecord.eq_def] at h
  split at h
  · cases h
    exact fun e he => absurd he List.not_mem_nil
  · exact shallow_decodeFields (fun e he => absurd he List.not_mem_nil) h
      (Nat.le_of_succ_le_succ hx)
  · cases h

theorem shallow_decodeRecords {xs : List Doc} {rs : List ClientRecord}
    (h : decodeRecords fmt xs = some rs) (hxs : depthElems xs ≤ n + 2) :
    ∀ r ∈ rs, Shallow n r.userData := by
  induction xs generalizing rs with
  | nil =>
    cases h
    exact List.forall_mem_nil _
  | cons x xs ih =>
    simp only [decodeRecords, Option.bind_eq_bind, Option.bind_eq_some_iff] at h
    obtain ⟨r, hr, rs', hrs, h⟩ := h
    cases h
    obtain ⟨hx, hrest⟩ := Nat.max_le.mp hxs
    exact List.forall_mem_cons.mpr ⟨shallow_decodeRecord hr hx, ih hrs hrest⟩

end Depth

namespace ClientsTable

/-- A change of the table. -/
inductive Change where
  | addOrUpdate (publicKey name allowedIP creationDate : Text)
  | remove (publicKey : Text)
  deriving DecidableEq, Repr

def Change.isAddOrUpdate : Change → Bool
  | addOrUpdate .. => true
  | remove _ => false

def change (t : ClientsTable) : Change → ClientsTable
  | .addOrUpdate publicKey name allowedIP creationDate =>
    t.addOrUpdate publicKey name allowedIP creationDate
  | .remove publicKey => (t.remove publicKey).1

def changes (t : ClientsTable) (cs : List Change) : ClientsTable := cs.foldl change t

section Written
variable {fmt : FloatFormat} {iter iter' : MapOrder} {input : Text} {t : ClientsTable}

theorem change_canonical (h : t.Canonical fmt) (c : Change) : (t.change c).Canonical fmt := by
  cases c with
  | addOrUpdate publicKey name allowedIP creationDate =>
    exact addOrUpdate_canonical h publicKey name allowedIP creationDate
  | remove publicKey => exact remove_canonical h publicKey

theorem changes_canonical (h : t.Canonical fmt) (cs : List Change) :
    (t.changes cs).Canonical fmt := by
  induction cs generalizing t with
  | nil => exact h
  | cons c cs ih => exact ih (change_canonical h c)

/-- The nil slice becomes a slice with the first update. -/
theorem isSome_changes_iff (cs : List Change) :
    (t.changes cs).isSome ↔ t.isSome ∨ ∃ c ∈ cs, c.isAddOrUpdate = true := by
  induction cs generalizing t with
  | nil => simp [changes]
  | cons c cs ih =>
    change ((t.change c).changes cs).isSome ↔ _
    rw [ih]
    cases c with
    | addOrUpdate publicKey name allowedIP creationDate =>
      simp [change, addOrUpdate, Change.isAddOrUpdate]
    | remove publicKey => simp [change, remove, Change.isAddOrUpdate]

/-- A change after which the record of a client no longer has the value of a key. -/
def Change.Replaces (clientID key : Text) : Change → Prop
  | addOrUpdate publicKey _ allowedIP _ => publicKey = clientID ∧
      (key = lit "clientName" ∨ key = lit "allowedIps" ∧ allowedIP ≠ [])
  | remove publicKey => publicKey = clientID

/-- The values that the changes leave in a record can stand in the array form, three levels
below the outermost one. -/
def NestableRecord (cs : List Change) (r : ClientRecord) : Prop := ∀ e ∈ r.userData,
  depth e.2 + 3 ≤ maxNestingDepth ∨ ∃ c ∈ cs, c.Replaces r.clientID e.1

def Nestable (t : ClientsTable) (cs : List Change) : Prop :=
  ∀ r ∈ t.records, NestableRecord cs r

theorem nestable_of_shallow (h : ∀ r ∈ t.records, Shallow (maxNestingDepth - 3) r.userData)
    (cs : List Change) : t.Nestable cs := by
  intro r hr e he
  have hmax : maxNestingDepth = 10000 := rfl
  exact .inl (by have := h r hr e he; omega)

theorem depth_recordDoc {r : ClientRecord} (hn : 1 ≤ n) :
    depth (recordDoc r) ≤ n + 1 ↔ Shallow (n - 1) r.userData := by
  have hstr : depth (.str r.clientID) = 0 := rfl
  rw [recordDoc, depth, depthMembers, hstr, Nat.zero_max]
  by_cases hempty : r.userData = []
  · simp [hempty, depthMembers, Shallow]
  · rw [if_neg hempty, depthMembers, depthMembers, depth, Nat.max_zero]
    constructor
    · intro h e he
      have := depth_le_members he
      omega
    · intro h
      have := depthMembers_le h
      omega

/-- A table can be written when its values can stand in it. -/
theorem render_isOk_iff :
    (∃ text, renderClientsTable t = .ok text) ↔ t.Nestable [] := by
  have hok : (∃ text, renderClientsTable t = .ok text) ↔ depth (tableDoc t) ≤ maxNestingDepth := by
    simp [renderClientsTable_eq_ok]
  have hmax : maxNestingDepth = 10000 := rfl
  rw [hok]
  cases t with
  | none => exact iff_of_true (Nat.zero_le _) fun r hr => absurd hr List.not_mem_nil
  | some rs =>
    have hrecord : ∀ r : ClientRecord, depth (recordDoc r) ≤ maxNestingDepth - 1 ↔
        ∀ e ∈ r.userData, depth e.2 + 3 ≤ maxNestingDepth := by
      intro r
      rw [hmax, depth_recordDoc (n := 9998) (by omega)]
      exact forall₂_congr fun e _ => by omega
    have hnestable : ClientsTable.Nestable (some rs) [] ↔
        ∀ r ∈ rs, depth (recordDoc r) ≤ maxNestingDepth - 1 := by
      exact forall₂_congr fun r _ => by simp [NestableRecord, hrecord]
    rw [hnestable, tableDoc, depth]
    constructor
    · intro h r hr
      have := depth_le_elems (List.mem_map_of_mem (f := recordDoc) hr)
      omega
    · intro h
      have hrs : depthElems (rs.map recordDoc) ≤ maxNestingDepth - 1 :=
        depthElems_le (by simpa using h)
      omega

/-- Nested values of a record after an update: those the update does not replace. -/
theorem mem_updateUserData {m : GoMap} (hm : Sorted m) {name allowedIP creationDate : Text}
    {e : Text × Doc} (he : 0 < depth e.2) :
    e ∈ updateUserData m name allowedIP creationDate ↔
      e ∈ m ∧ e.1 ≠ lit "clientName" ∧ (e.1 = lit "allowedIps" → allowedIP = []) := by
  have hstr : ∀ k s, e ≠ (k, Doc.str s) := by
    rintro k s rfl
    exact absurd he (by simp [depth])
  obtain ⟨routed, hrouted⟩ : ∃ routed, routed = if allowedIP = [] then
      SortedMap.insert (lit "clientName") (.str name) m
    else SortedMap.insert (lit "allowedIps") (.str allowedIP)
      (SortedMap.insert (lit "clientName") (.str name) m) := ⟨_, rfl⟩
  have hnamed : Sorted (SortedMap.insert (lit "clientName") (.str name) m) := hm.insert _ _
  have hsorted : Sorted routed := by
    rw [hrouted]
    split_ifs
    · exact hnamed
    · exact hnamed.insert _ _
  have hmem : e ∈ routed ↔
      e ∈ m ∧ e.1 ≠ lit "clientName" ∧ (e.1 = lit "allowedIps" → allowedIP = []) := by
    rw [hrouted]
    split_ifs with hempty
    · rw [mem_insert_iff hm, or_iff_right (hstr _ _)]
      simp [hempty]
    · rw [mem_insert_iff hnamed, or_iff_right (hstr _ _), mem_insert_iff hm,
        or_iff_right (hstr _ _), and_assoc]
      simp [hempty]
  rw [← hmem]
  simp only [updateUserData]
  rw [← hrouted]
  split_ifs
  · rfl
  · have hold : (lookup routed (lit "creationDate")) = none := by
      rename_i h
      simpa using h
    rw [mem_insert_iff hsorted, or_iff_right (hstr _ _)]
    refine and_iff_left_of_imp fun hr heq => ?_
    rw [← heq, (lookup_eq_some_iff hsorted).mpr hr] at hold
    cases hold

/-- Values that are nested at all decide whether a record can be written. -/
theorem nestableRecord_iff {cs : List Change} {r : ClientRecord} :
    NestableRecord cs r ↔ ∀ e ∈ r.userData, 0 < depth e.2 →
      depth e.2 + 3 ≤ maxNestingDepth ∨ ∃ c ∈ cs, c.Replaces r.clientID e.1 := by
  have hmax : maxNestingDepth = 10000 := rfl
  refine forall₂_congr fun e _ => ⟨fun h _ => h, fun h => ?_⟩
  rcases Nat.eq_zero_or_pos (depth e.2) with hz | hpos
  · exact .inl (by omega)
  · exact h hpos

theorem nestableRecord_cons {c : Change} {cs : List Change} {r : ClientRecord}
    (h : ∀ key, ¬ c.Replaces r.clientID key) :
    NestableRecord (c :: cs) r ↔ NestableRecord cs r := by
  refine forall₂_congr fun e _ => or_congr_right ?_
  simp [h]

theorem nestableRecord_update {publicKey name allowedIP creationDate : Text} {cs : List Change}
    {r : ClientRecord} (hr : r.clientID = publicKey) (hsorted : Sorted r.userData) :
    NestableRecord cs { r with userData := updateUserData r.userData name allowedIP creationDate } ↔
      NestableRecord (.addOrUpdate publicKey name allowedIP creationDate :: cs) r := by
  have hreplaces : ∀ key, (Change.addOrUpdate publicKey name allowedIP creationDate).Replaces
      r.clientID key ↔ ¬(key ≠ lit "clientName" ∧ (key = lit "allowedIps" → allowedIP = [])) := by
    intro key
    rw [Change.Replaces, and_iff_right hr.symm]
    tauto
  rw [nestableRecord_iff, nestableRecord_iff]
  constructor
  · intro h e he hpos
    by_cases hkey : e.1 ≠ lit "clientName" ∧ (e.1 = lit "allowedIps" → allowedIP = [])
    · rcases h e ((mem_updateUserData hsorted hpos).mpr ⟨he, hkey⟩) hpos with hd | ⟨c, hc, hrep⟩
      · exact .inl hd
      · exact .inr ⟨c, List.mem_cons_of_mem _ hc, hrep⟩
    · exact .inr ⟨_, List.mem_cons_self, (hreplaces _).mpr hkey⟩
  · intro h e he hpos
    obtain ⟨he, hkey⟩ := (mem_updateUserData hsorted hpos).mp he
    rcases h e he hpos with hd | ⟨c, hc, hrep⟩
    · exact .inl hd
    · rcases List.mem_cons.mp hc with rfl | hc
      · exact absurd hkey ((hreplaces _).mp hrep)
      · exact .inr ⟨c, hc, hrep⟩

theorem nestable_remove {publicKey : Text} {cs : List Change} :
    (t.remove publicKey).1.Nestable cs ↔ t.Nestable (.remove publicKey :: cs) := by
  have hother : ∀ r : ClientRecord, r.clientID ≠ publicKey →
      (NestableRecord (.remove publicKey :: cs) r ↔ NestableRecord cs r) := fun r hr =>
    nestableRecord_cons fun _ hrep => hr (show publicKey = r.clientID from hrep).symm
  rw [Nestable, Nestable, records_remove]
  constructor
  · intro h r hr
    by_cases hkey : r.clientID = publicKey
    · exact fun e _ => .inr ⟨_, List.mem_cons_self, hkey.symm⟩
    · exact (hother r hkey).mpr
        (h r (List.mem_filter.mpr ⟨hr, by simpa using hkey⟩))
  · intro h r hr
    obtain ⟨hr, hkey⟩ := List.mem_filter.mp hr
    exact (hother r (by simpa using hkey)).mp (h r hr)

/-- The values after an update of a table in which each client has one record. -/
theorem nestable_addOrUpdate (hc : t.Canonical fmt) (hids : t.ids.Nodup)
    {publicKey name allowedIP creationDate : Text} {cs : List Change} :
    (t.addOrUpdate publicKey name allowedIP creationDate).Nestable cs ↔
      t.Nestable (.addOrUpdate publicKey name allowedIP creationDate :: cs) := by
  have hother : ∀ r : ClientRecord, r.clientID ≠ publicKey →
      (NestableRecord (.addOrUpdate publicKey name allowedIP creationDate :: cs) r ↔
        NestableRecord cs r) := fun r hr => nestableRecord_cons fun _ hrep => hr hrep.1.symm
  change (∀ r ∈ addOrUpdateRecords publicKey name allowedIP creationDate t.records, _) ↔
    ∀ r ∈ t.records, _
  rcases absent_or_first publicKey t.records with h | ⟨pre, r, post, hrs, hpre, hr⟩
  · rw [addOrUpdateRecords_of_absent h, List.forall_mem_append, List.forall_mem_singleton]
    have hnew : NestableRecord cs ⟨publicKey, updateUserData [] name allowedIP creationDate⟩ := by
      refine nestableRecord_iff.mpr fun e he hpos => ?_
      exact absurd ((mem_updateUserData List.Pairwise.nil hpos).mp he).1 List.not_mem_nil
    rw [and_iff_left hnew]
    exact forall₂_congr fun r hr => (hother r (h r hr)).symm
  · have hpost : ∀ r' ∈ post, r'.clientID ≠ publicKey := by
      intro r' hr' hkey
      rw [ids, hrs, List.map_append, List.map_cons, List.nodup_append, List.nodup_cons] at hids
      exact hids.2.1.1 (List.mem_map.mpr ⟨r', hr', hkey.trans hr.symm⟩)
    have hsorted : Sorted r.userData := (hc r (by simp [hrs])).sorted
    rw [hrs, addOrUpdateRecords_of_first hpre hr, List.forall_mem_append, List.forall_mem_append,
      List.forall_mem_cons, List.forall_mem_cons, nestableRecord_update hr hsorted]
    exact and_congr (forall₂_congr fun r hr => (hother r (hpre r hr)).symm)
      (and_congr_right fun _ => forall₂_congr fun r hr => (hother r (hpost r hr)).symm)

theorem nodup_change (h : t.ids.Nodup) (c : Change) : (t.change c).ids.Nodup := by
  cases c with
  | addOrUpdate publicKey name allowedIP creationDate =>
    change ((addOrUpdateRecords publicKey name allowedIP creationDate t.records).map _).Nodup
    rcases absent_or_first publicKey t.records with habs | ⟨pre, r, post, hrs, hpre, hr⟩
    · have hnot : publicKey ∉ t.ids := by
        intro hmem
        obtain ⟨r, hr, hkey⟩ := List.mem_map.mp hmem
        exact habs r hr hkey
      rw [addOrUpdateRecords_of_absent habs, List.map_append]
      exact List.nodup_append.mpr ⟨h, by simp, by simpa [ids] using hnot⟩
    · rw [hrs, addOrUpdateRecords_of_first hpre hr]
      rw [ids, hrs] at h
      simpa using h
  | remove publicKey =>
    change ((t.remove publicKey).1.records.map _).Nodup
    rw [records_remove]
    exact h.sublist (List.filter_sublist.map _)

theorem nestable_change_of_nestable (hc : t.Canonical fmt) (h : t.Nestable []) (c : Change) :
    (t.change c).Nestable [] := by
  cases c with
  | addOrUpdate publicKey name allowedIP creationDate =>
    change ∀ r ∈ addOrUpdateRecords publicKey name allowedIP creationDate t.records, _
    rcases absent_or_first publicKey t.records with habs | ⟨pre, r, post, hrs, hpre, hr⟩
    · rw [addOrUpdateRecords_of_absent habs, List.forall_mem_append, List.forall_mem_singleton]
      refine ⟨h, nestableRecord_iff.mpr fun e he hpos => ?_⟩
      exact absurd ((mem_updateUserData List.Pairwise.nil hpos).mp he).1 List.not_mem_nil
    · rw [Nestable, hrs, List.forall_mem_append, List.forall_mem_cons] at h
      have hsorted : Sorted r.userData := (hc r (by simp [hrs])).sorted
      rw [hrs, addOrUpdateRecords_of_first hpre hr, List.forall_mem_append, List.forall_mem_cons,
        nestableRecord_update hr hsorted]
      exact ⟨h.1, fun e he => (h.2.1 e he).imp_right fun hno => by simp at hno, h.2.2⟩
  | remove publicKey =>
    change ∀ r ∈ (t.remove publicKey).1.records, _
    rw [records_remove]
    exact fun r hr => h r (List.mem_of_mem_filter hr)

/-- Whether the table after some changes can be written is decided by the values it had before. -/
theorem nestable_changes_iff (hc : t.Canonical fmt) (h : t.ids.Nodup ∨ t.Nestable [])
    (cs : List Change) : (t.changes cs).Nestable [] ↔ t.Nestable cs := by
  rcases h with h | h
  · induction cs generalizing t with
    | nil => rfl
    | cons c cs ih =>
      change ((t.change c).changes cs).Nestable [] ↔ _
      rw [ih (change_canonical hc c) (nodup_change h c)]
      cases c with
      | addOrUpdate publicKey name allowedIP creationDate => exact nestable_addOrUpdate hc h
      | remove publicKey => exact nestable_remove
  · have hafter : ∀ cs : List Change, (t.changes cs).Nestable [] := by
      intro cs
      induction cs generalizing t with
      | nil => exact h
      | cons c cs ih => exact ih (change_canonical hc c) (nestable_change_of_nestable hc h c)
    exact iff_of_true (hafter cs) fun r hr e he => (h r hr e he).imp_right fun hno => by simp at hno

/-- Each client has one record in what is read of an object, and an array is written as deep as
it was read. -/
theorem nodup_or_nestable {iter : MapOrder} {input : Text}
    (h : parseClientsTable fmt iter input = .ok t) : t.ids.Nodup ∨ t.Nestable [] := by
  have hnil : ∀ t : ClientsTable, t.records = [] → t.Nestable [] := fun t ht r hr => by simp [ht] at hr
  rw [parseClientsTable] at h
  split at h
  · cases h
    exact .inr (hnil _ rfl)
  split at h
  · cases h
  rename_i j hparse
  have hdepth := depth_parse hparse
  have hmax : maxNestingDepth = 10000 := rfl
  split at h
  -- the array form keeps repeated ids, but its records were nested less deep than the text
  · rename_i table htable
    cases h
    cases j with
    | null =>
      cases htable
      exact .inr (hnil _ rfl)
    | arr xs =>
      obtain ⟨rs, hrs, rfl⟩ := Option.map_eq_some_iff.mp htable
      rw [depth] at hdepth
      exact .inr (nestable_of_shallow (shallow_decodeRecords hrs (by omega)) [])
    | _ => cases htable
  · split at h
    · cases h
    · cases h
      exact .inr (hnil _ rfl)
    -- the legacy object has an id once, in whatever order Go ranges over it
    · rename_i legacy _ hlegacy
      cases h
      refine .inl (List.Perm.nodup_iff ((iter.perm _).map _) |>.mpr ?_)
      have hsorted : Sorted legacy := by
        rw [decodeLegacy.eq_def] at hlegacy
        split at hlegacy
        · cases hlegacy
          exact List.Pairwise.nil
        · obtain ⟨ns, -, rfl⟩ := Option.map_eq_some_iff.mp hlegacy
          exact Sorted.insertAll List.Pairwise.nil ns
        · cases hlegacy
      rw [List.map_map]
      exact List.pairwise_map.mpr (hsorted.imp fun hlt => ne_of_lt hlt)

/-- The text of an input that is read as Go's nil slice. -/
def IsNil (input : Text) : Prop :=
  Json.parse input = some .null ∨ Json.parse input = some (.obj [])

theorem insertAll_eq_nil {es : List (Text × GoMap)} (h : insertAll [] es = []) : es = [] := by
  cases es with
  | nil => rfl
  | cons e es =>
    have hlookup : lookup (insertAll [] (e :: es)) e.1 = none := by
      rw [h]
      rfl
    rw [lookup_insertAll, List.reverse_cons, lookup_append] at hlookup
    simp [lookup] at hlookup

theorem decodeLegacy_eq_nil {j : Doc} (h : decodeLegacy fmt j = some []) :
    j = .null ∨ j = .obj [] := by
  cases j with
  | null => exact .inl rfl
  | obj ms =>
    rw [decodeLegacy, Option.map_eq_some_iff] at h
    obtain ⟨es, hes, hnil⟩ := h
    cases insertAll_eq_nil hnil
    cases ms with
    | nil => exact .inr rfl
    | cons m ms => simp [decodeLegacyEntries, Option.bind_eq_some_iff] at hes
  | bool b => cases h
  | num literal => cases h
  | str s => cases h
  | arr xs => cases h

theorem parse_of_skip_eq_nil (h : skip input = []) : Json.parse input = none := by
  have hmax : maxNestingDepth = 9999 + 1 := rfl
  have hnumber : isNumber [] = false := rfl
  rw [Json.parse, hmax, value, valueWith, h]
  simp [scalar, hnumber]

/-- Only `null` and an object without entries are read as the nil slice. -/
theorem isSome_of_parseClientsTable (h : parseClientsTable fmt iter input = .ok t) :
    t.isSome ↔ ¬ IsNil input := by
  rw [parseClientsTable] at h
  split at h
  · rename_i hblank
    cases h
    simp [IsNil, parse_of_skip_eq_nil hblank]
  split at h
  · cases h
  rename_i j hparse
  rw [IsNil, hparse, Option.some.injEq, Option.some.injEq]
  split at h
  · rename_i table htable
    cases h
    cases j with
    | null =>
      cases htable
      simp
    | arr xs =>
      obtain ⟨rs, -, rfl⟩ := Option.map_eq_some_iff.mp htable
      simp
    | _ => cases htable
  · rename_i htable
    split at h
    · cases h
    · rename_i hlegacy
      cases h
      exact iff_of_false (by simp) fun hno => hno (decodeLegacy_eq_nil hlegacy)
    · rename_i legacy hne hlegacy
      cases h
      have hj : ¬(j = .null ∨ j = .obj []) := by
        rintro (rfl | rfl)
        · cases htable
        · rw [decodeLegacy, decodeLegacyEntries, Option.map_some, Option.some.injEq] at hlegacy
          exact hne hlegacy.symm
      simpa using hj

/-- A rendered table is a JSON array of records. -/
def IsRecordArray (text : Text) : Prop := ∃ rs : List ClientRecord,
  Json.parse text = some (.arr (rs.map recordDoc))

theorem isRecordArray_render (h : t.Canonical fmt) {text : Text}
    (hr : renderClientsTable t = .ok text) : IsRecordArray text ↔ t.isSome := by
  rw [IsRecordArray, parse_render h hr]
  cases t with
  | none => simp [tableDoc]
  | some rs => exact iff_of_true ⟨rs, rfl⟩ rfl

namespace Sample

/-- A format for tables without numbers. -/
def floatFormat : FloatFormat where
  round _ := none
  number h := by cases h
  stable h := by cases h

def mapOrder : MapOrder where
  order l := l
  perm l := .refl l

end Sample

/-- What is written after any changes is an array that is read back as it was, unless the table
began as the nil slice and nothing was added to it, or a value that was read of an object stands
too deep in an array. -/
theorem written_array_iff (h : parseClientsTable fmt iter input = .ok t) (cs : List Change) :
    (∃ text, renderClientsTable (t.changes cs) = .ok text ∧ IsRecordArray text ∧
        ∃ t', parseClientsTable fmt iter' text = .ok t' ∧ t'.records = (t.changes cs).records) ↔
      (¬ IsNil input ∨ ∃ c ∈ cs, c.isAddOrUpdate = true) ∧ t.Nestable cs := by
  have hbefore := parseClientsTable_canonical h
  have hcanonical := changes_canonical hbefore cs
  rw [← isSome_of_parseClientsTable h, ← isSome_changes_iff,
    ← nestable_changes_iff hbefore (nodup_or_nestable h) cs, ← render_isOk_iff]
  constructor
  · rintro ⟨text, hr, harray, -⟩
    exact ⟨(isRecordArray_render hcanonical hr).mp harray, text, hr⟩
  · rintro ⟨hsome, text, hr⟩
    exact ⟨text, hr, (isRecordArray_render hcanonical hr).mpr hsome, _,
      parseClientsTable_render hcanonical hr, rfl⟩

end Written

theorem Sample.render_nil : renderClientsTable none = .ok (lit "null\n") := by
  rw [renderClientsTable_eq_ok]
  exact ⟨Nat.zero_le _, by simp [tableDoc, print, lit_eq]⟩

theorem Sample.parse_nil :
    parseClientsTable Sample.floatFormat Sample.mapOrder (lit "null\n") = .ok none := by
  have hcanonical : ClientsTable.Canonical Sample.floatFormat none := by
    intro r hr
    cases hr
  exact parseClientsTable_render hcanonical Sample.render_nil

/-- The nil slice with a record added behind a removal. -/
theorem written_array_iff_added :
    let cs : List Change := [.remove (lit "key"),
      .addOrUpdate (lit "key") (lit "phone") (lit "10.8.1.2/32") (lit "Mon Jan 5 10:00:00 2026")]
    (∃ text, renderClientsTable (changes none cs) = .ok text ∧ IsRecordArray text ∧
        ∃ t', parseClientsTable Sample.floatFormat Sample.mapOrder text = .ok t' ∧
          t'.records = (changes none cs).records) ∧
      (changes none cs).ids = [lit "key"] := by
  intro cs
  have hupdate : ∃ c ∈ cs, c.isAddOrUpdate = true :=
    ⟨_, List.mem_cons_of_mem _ List.mem_cons_self, rfl⟩
  have hnestable : ClientsTable.Nestable none cs := fun r hr => absurd hr List.not_mem_nil
  exact ⟨(written_array_iff Sample.parse_nil cs).mpr ⟨.inr hupdate, hnestable⟩, rfl⟩

/-- The nil slice with a key removed is written as `null`. -/
theorem written_null :
    parseClientsTable Sample.floatFormat Sample.mapOrder (lit "null\n") = .ok none ∧
    renderClientsTable (changes none [.remove (lit "key")]) = .ok (lit "null\n") ∧
    ¬ IsRecordArray (lit "null\n") := by
  have hcanonical := parseClientsTable_canonical Sample.parse_nil
  refine ⟨Sample.parse_nil, Sample.render_nil, ?_⟩
  rw [isRecordArray_render hcanonical Sample.render_nil]
  simp

end ClientsTable
end VpnControl.Awg
