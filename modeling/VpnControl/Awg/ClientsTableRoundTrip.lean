import VpnControl.Awg.ClientsTable

namespace VpnControl.Awg
open Strings Json SortedMap

variable {fmt : FloatFormat} {iter : MapOrder}

/-- A value as `json.Unmarshal` leaves it: decoding it again changes nothing. -/
structure Stable (fmt : FloatFormat) (v : Doc) : Prop where
  decode : decodeAny fmt v = some v
  valid : v.Valid

structure Canonical (fmt : FloatFormat) (m : GoMap) : Prop where
  sorted : Sorted m
  stable : ∀ e ∈ m, Stable fmt e.2

def ClientsTable.Canonical (fmt : FloatFormat) (t : ClientsTable) : Prop :=
  ∀ r ∈ t.records, Awg.Canonical fmt r.userData

theorem Canonical.nil : Canonical fmt [] := ⟨List.Pairwise.nil, by simp⟩

theorem Stable.str (s : Text) : Stable fmt (.str s) := ⟨by rw [decodeAny], .str s⟩

theorem Canonical.insert {m : GoMap} (h : Canonical fmt m) (k : Text) {v : Doc}
    (hv : Stable fmt v) : Canonical fmt (SortedMap.insert k v m) := by
  refine ⟨h.sorted.insert k v, fun e he => ?_⟩
  rcases mem_insert he with rfl | he
  · exact hv
  · exact h.stable e he

theorem Canonical.insertAll {m : GoMap} (h : Canonical fmt m) {es : List (Text × Doc)}
    (hes : ∀ e ∈ es, Stable fmt e.2) : Canonical fmt (SortedMap.insertAll m es) := by
  refine ⟨h.sorted.insertAll es, fun e he => ?_⟩
  rcases mem_insertAll he with he | he
  · exact hes e he
  · exact h.stable e he

theorem mem_decodeElems {xs ys : List Doc} (h : decodeElems fmt xs = some ys) :
    ∀ y ∈ ys, ∃ x ∈ xs, decodeAny fmt x = some y := by
  induction xs generalizing ys with
  | nil =>
    rw [decodeElems, Option.some.injEq] at h
    simp [← h]
  | cons x xs ih =>
    simp only [decodeElems, Option.bind_eq_bind, Option.bind_eq_some_iff] at h
    obtain ⟨y, hy, ys', hys, h⟩ := h
    rw [Option.some.injEq] at h
    subst h
    intro z hz
    rcases List.mem_cons.mp hz with rfl | hz
    · exact ⟨x, by simp, hy⟩
    · obtain ⟨x', hx', hd⟩ := ih hys z hz
      exact ⟨x', by simp [hx'], hd⟩

theorem mem_decodeMembers {ms es : List (Text × Doc)} (h : decodeMembers fmt ms = some es) :
    ∀ e ∈ es, ∃ m ∈ ms, decodeAny fmt m.2 = some e.2 := by
  induction ms generalizing es with
  | nil =>
    rw [decodeMembers, Option.some.injEq] at h
    simp [← h]
  | cons m ms ih =>
    simp only [decodeMembers, Option.bind_eq_bind, Option.bind_eq_some_iff] at h
    obtain ⟨y, hy, es', hes, h⟩ := h
    rw [Option.some.injEq] at h
    subst h
    intro e he
    rcases List.mem_cons.mp he with rfl | he
    · exact ⟨m, by simp, hy⟩
    · obtain ⟨m', hm', hd⟩ := ih hes e he
      exact ⟨m', by simp [hm'], hd⟩

theorem decodeElems_stable {xs : List Doc} (h : ∀ x ∈ xs, Stable fmt x) :
    decodeElems fmt xs = some xs := by
  induction xs with
  | nil => rw [decodeElems]
  | cons x xs ih =>
    simp [decodeElems, (h x (by simp)).decode, ih fun y hy => h y (by simp [hy])]

theorem decodeMembers_stable {ms : List (Text × Doc)} (h : ∀ m ∈ ms, Stable fmt m.2) :
    decodeMembers fmt ms = some ms := by
  induction ms with
  | nil => rw [decodeMembers]
  | cons m ms ih =>
    have hm := (h m (by simp)).decode
    simp [decodeMembers, hm, ih fun y hy => h y (by simp [hy])]

theorem Canonical.stable_obj {m : GoMap} (h : Canonical fmt m) : Stable fmt (.obj m) := by
  refine ⟨?_, .obj fun e he => (h.stable e he).valid⟩
  have hall : SortedMap.insertAll [] m = m := insertAll_sorted h.sorted
  rw [decodeAny, decodeMembers_stable h.stable, Option.map_some, hall]

/-- Decoding gives values that decoding leaves as they are. -/
theorem decodeAny_stable {j v : Doc} (h : decodeAny fmt j = some v) : Stable fmt v := by
  induction j using Doc.induct generalizing v with
  | null =>
    rw [decodeAny, Option.some.injEq] at h
    exact h ▸ ⟨by rw [decodeAny], .null⟩
  | bool b =>
    rw [decodeAny, Option.some.injEq] at h
    exact h ▸ ⟨by rw [decodeAny], .bool b⟩
  | num l =>
    rw [decodeAny, Option.map_eq_some_iff] at h
    obtain ⟨r, hr, rfl⟩ := h
    exact ⟨by rw [decodeAny, fmt.stable hr, Option.map_some], .num (fmt.number hr)⟩
  | str s =>
    rw [decodeAny, Option.some.injEq] at h
    exact h ▸ .str s
  | arr xs ih =>
    rw [decodeAny, Option.map_eq_some_iff] at h
    obtain ⟨ys, hys, rfl⟩ := h
    have hstable : ∀ y ∈ ys, Stable fmt y := by
      intro y hy
      obtain ⟨x, hx, hd⟩ := mem_decodeElems hys y hy
      exact ih x hx hd
    exact ⟨by rw [decodeAny, decodeElems_stable hstable, Option.map_some],
      .arr fun y hy => (hstable y hy).valid⟩
  | obj ms ih =>
    rw [decodeAny, Option.map_eq_some_iff] at h
    obtain ⟨es, hes, rfl⟩ := h
    have hstable : ∀ e ∈ es, Stable fmt e.2 := by
      intro e he
      obtain ⟨m, hm, hd⟩ := mem_decodeMembers hes e he
      exact ih m hm hd
    exact (Canonical.nil.insertAll hstable).stable_obj

theorem decodeMembers_canonical {m : GoMap} (hm : Canonical fmt m) {ms es : List (Text × Doc)}
    (h : decodeMembers fmt ms = some es) : Canonical fmt (SortedMap.insertAll m es) := by
  apply hm.insertAll
  intro e he
  obtain ⟨x, -, hd⟩ := mem_decodeMembers h e he
  exact decodeAny_stable hd

theorem decodeField_canonical {r r' : ClientRecord} (hr : Canonical fmt r.userData)
    {m : Text × Doc} (h : decodeField fmt r m = some r') : Canonical fmt r'.userData := by
  rw [decodeField] at h
  split at h
  · split at h
    · cases h
      exact hr
    · cases h
      exact hr
    · cases h
  · split at h
    · split at h
      · cases h
        exact .nil
      · obtain ⟨es, hes, rfl⟩ := Option.map_eq_some_iff.mp h
        exact decodeMembers_canonical hr hes
      · cases h
    · cases h
      exact hr

theorem decodeFields_canonical {r r' : ClientRecord} (hr : Canonical fmt r.userData)
    {ms : List (Text × Doc)} (h : decodeFields fmt r ms = some r') :
    Canonical fmt r'.userData := by
  induction ms generalizing r with
  | nil =>
    cases h
    exact hr
  | cons m ms ih =>
    obtain ⟨r₁, h₁, h⟩ := Option.bind_eq_some_iff.mp h
    exact ih (decodeField_canonical hr h₁) h

theorem decodeRecord_canonical {j : Doc} {r : ClientRecord} (h : decodeRecord fmt j = some r) :
    Canonical fmt r.userData := by
  rw [decodeRecord.eq_def] at h
  split at h
  · cases h
    exact .nil
  · exact decodeFields_canonical .nil h
  · cases h

theorem decodeRecords_canonical {xs : List Doc} {rs : List ClientRecord}
    (h : decodeRecords fmt xs = some rs) : ∀ r ∈ rs, Canonical fmt r.userData := by
  induction xs generalizing rs with
  | nil =>
    cases h
    simp
  | cons x xs ih =>
    simp only [decodeRecords, Option.bind_eq_bind, Option.bind_eq_some_iff] at h
    obtain ⟨r, hr, rs', hrs, h⟩ := h
    cases h
    exact List.forall_mem_cons.mpr ⟨decodeRecord_canonical hr, ih hrs⟩

theorem decodeLegacyEntries_canonical {ms : List (Text × Doc)} {es : List (Text × GoMap)}
    (h : decodeLegacyEntries fmt ms = some es) : ∀ e ∈ es, Canonical fmt e.2 := by
  induction ms generalizing es with
  | nil =>
    cases h
    simp
  | cons m ms ih =>
    simp only [decodeLegacyEntries, Option.bind_eq_bind, Option.bind_eq_some_iff] at h
    obtain ⟨e, he, es', hes, h⟩ := h
    cases h
    refine List.forall_mem_cons.mpr ⟨?_, ih hes⟩
    rw [decodeLegacyEntry] at he
    split at he
    · cases he
      exact .nil
    · obtain ⟨ns, hns, rfl⟩ := Option.map_eq_some_iff.mp he
      exact decodeMembers_canonical .nil hns
    · cases he

theorem decodeLegacy_canonical {j : Doc} {es : List (Text × GoMap)}
    (h : decodeLegacy fmt j = some es) : ∀ e ∈ es, Canonical fmt e.2 := by
  rw [decodeLegacy.eq_def] at h
  split at h
  · cases h
    simp
  · obtain ⟨ns, hns, rfl⟩ := Option.map_eq_some_iff.mp h
    intro e he
    rcases mem_insertAll he with he | he
    · exact decodeLegacyEntries_canonical hns e he
    · simp at he
  · cases h

theorem parseClientsTable_canonical {input : Text} {t : ClientsTable}
    (h : parseClientsTable fmt iter input = .ok t) : t.Canonical fmt := by
  rw [parseClientsTable] at h
  split at h
  · cases h
    simp [ClientsTable.Canonical, ClientsTable.records]
  · split at h
    · cases h
    · rename_i j _
      split at h
      · rename_i table htable
        cases h
        rw [decodeTable.eq_def] at htable
        split at htable
        · cases htable
          simp [ClientsTable.Canonical, ClientsTable.records]
        · obtain ⟨rs, hrs, rfl⟩ := Option.map_eq_some_iff.mp htable
          exact decodeRecords_canonical hrs
        · cases htable
      · split at h
        · cases h
        · cases h
          simp [ClientsTable.Canonical, ClientsTable.records]
        · rename_i legacy _ hlegacy
          cases h
          intro r hr
          have hr' := (iter.perm _).mem_iff.mp hr
          obtain ⟨e, he, rfl⟩ := List.mem_map.mp hr'
          exact decodeLegacy_canonical hlegacy e he

theorem recordDoc_valid {r : ClientRecord} (h : Canonical fmt r.userData) :
    (recordDoc r).Valid := by
  apply Doc.Valid.obj
  intro m hm
  rcases List.mem_cons.mp hm with rfl | hm
  · exact .str _
  · split at hm
    · simp at hm
    · rw [List.mem_singleton.mp hm]
      exact h.stable_obj.valid

theorem tableDoc_valid {t : ClientsTable} (h : t.Canonical fmt) : (tableDoc t).Valid := by
  cases t with
  | none => exact .null
  | some rs =>
    apply Doc.Valid.arr
    intro x hx
    obtain ⟨r, hr, rfl⟩ := List.mem_map.mp hx
    exact recordDoc_valid (h r hr)

theorem decodeField_clientID (r : ClientRecord) (s : Text) :
    decodeField fmt r (lit "clientId", .str s) = some { r with clientID := s } := by
  have hid : equalFold (lit "clientId") (lit "clientId") = true := by simp only [lit_eq]; decide
  simp [decodeField, hid]

theorem decodeField_userData (r : ClientRecord) {m : GoMap} (h : Canonical fmt m) :
    decodeField fmt r (lit "userData", .obj m) =
      some { r with userData := SortedMap.insertAll r.userData m } := by
  have hid : equalFold (lit "userData") (lit "clientId") = false := by simp only [lit_eq]; decide
  have hud : equalFold (lit "userData") (lit "userData") = true := by simp only [lit_eq]; decide
  simp [decodeField, hid, hud, decodeMembers_stable h.stable]

theorem decodeRecord_recordDoc {r : ClientRecord} (h : Canonical fmt r.userData) :
    decodeRecord fmt (recordDoc r) = some r := by
  have hall : SortedMap.insertAll [] r.userData = r.userData := insertAll_sorted h.sorted
  rw [recordDoc, decodeRecord, decodeFields, decodeField_clientID, Option.bind_some]
  by_cases hempty : r.userData = []
  · rw [if_pos hempty, decodeFields, ← hempty]
  · rw [if_neg hempty, decodeFields, decodeField_userData _ h, Option.bind_some, decodeFields,
      hall]

theorem decodeTable_tableDoc {t : ClientsTable} (h : t.Canonical fmt) :
    decodeTable fmt (tableDoc t) = some t := by
  cases t with
  | none => rfl
  | some rs =>
    have hrs : decodeRecords fmt (rs.map recordDoc) = some rs := by
      induction rs with
      | nil => rfl
      | cons r rs ih =>
        have hr := decodeRecord_recordDoc (h r (by simp [ClientsTable.records]))
        have hrest := ih fun s hs => h s (by
          simp only [ClientsTable.records, Option.getD_some] at hs ⊢
          simp [hs])
        simp [decodeRecords, hr, hrest]
    simp [tableDoc, decodeTable, hrs]

theorem renderClientsTable_eq_ok {t : ClientsTable} {text : Text} :
    renderClientsTable t = .ok text ↔ depth (tableDoc t) ≤ maxNestingDepth ∧
      text = Json.print ⟨some 4, true⟩ 0 (tableDoc t) ++ ['\n'] := by
  rw [renderClientsTable, printNested]
  by_cases hd : depth (tableDoc t) ≤ maxNestingDepth
  · simp [hd, eq_comm]
  · simp [hd]

theorem parse_render {t : ClientsTable} (h : t.Canonical fmt) {text : Text}
    (hr : renderClientsTable t = .ok text) : Json.parse text = some (tableDoc t) := by
  obtain ⟨hd, rfl⟩ := renderClientsTable_eq_ok.mp hr
  exact parse_print _ (tableDoc_valid h) hd 0 (by simp [Blank, isBlank])

/-- A written clients table is read back as it was. -/
theorem parseClientsTable_render {t : ClientsTable} (h : t.Canonical fmt) {text : Text}
    (hr : renderClientsTable t = .ok text) : parseClientsTable fmt iter text = .ok t := by
  have hparse := parse_render h hr
  obtain ⟨-, rfl⟩ := renderClientsTable_eq_ok.mp hr
  obtain ⟨c, s, hc, hblank, -⟩ := print_head ⟨some 4, true⟩ (tableDoc_valid h) 0
  have hskip : skip (Json.print ⟨some 4, true⟩ 0 (tableDoc t) ++ ['\n']) ≠ [] := by
    rw [hc, List.cons_append, skip_cons hblank]
    simp
  rw [parseClientsTable, if_neg hskip, hparse]
  simp only [decodeTable_tableDoc h]

theorem updateUserData_canonical {m : GoMap} (h : Canonical fmt m)
    (name allowedIP creationDate : Text) :
    Canonical fmt (updateUserData m name allowedIP creationDate) := by
  have hnamed := h.insert (lit "clientName") (.str name)
  have hrouted := hnamed.insert (lit "allowedIps") (.str allowedIP)
  simp only [updateUserData]
  split_ifs
  · exact hnamed
  · exact hnamed.insert _ (.str creationDate)
  · exact hrouted
  · exact hrouted.insert _ (.str creationDate)

theorem addOrUpdate_canonical {t : ClientsTable} (h : t.Canonical fmt)
    (publicKey name allowedIP creationDate : Text) :
    (t.addOrUpdate publicKey name allowedIP creationDate).Canonical fmt := by
  have hrecords : ∀ rs : List ClientRecord, (∀ r ∈ rs, Canonical fmt r.userData) →
      ∀ r ∈ addOrUpdateRecords publicKey name allowedIP creationDate rs,
        Canonical fmt r.userData := by
    intro rs hrs
    induction rs with
    | nil => simpa [addOrUpdateRecords] using updateUserData_canonical .nil _ _ _
    | cons r rs ih =>
      obtain ⟨hr, hrs⟩ := List.forall_mem_cons.mp hrs
      rw [addOrUpdateRecords]
      split
      · exact List.forall_mem_cons.mpr ⟨updateUserData_canonical hr _ _ _, hrs⟩
      · exact List.forall_mem_cons.mpr ⟨hr, ih hrs⟩
  exact hrecords _ h

theorem remove_canonical {t : ClientsTable} (h : t.Canonical fmt) (publicKey : Text) :
    (t.remove publicKey).1.Canonical fmt := by
  cases t with
  | none => exact h
  | some rs => exact fun r hr => h r (List.mem_of_mem_filter hr)

theorem mem_ids_addOrUpdate {t : ClientsTable} {publicKey name allowedIP creationDate k : Text} :
    k ∈ (t.addOrUpdate publicKey name allowedIP creationDate).ids ↔ k ∈ t.ids ∨ k = publicKey := by
  have hrecords : ∀ rs : List ClientRecord,
      k ∈ (addOrUpdateRecords publicKey name allowedIP creationDate rs).map (·.clientID) ↔
        k ∈ rs.map (·.clientID) ∨ k = publicKey := by
    intro rs
    induction rs with
    | nil => simp [addOrUpdateRecords]
    | cons r rs ih =>
      rw [addOrUpdateRecords]
      split
      · rename_i hr
        simp only [List.map_cons, List.mem_cons, ← hr]
        tauto
      · simp only [List.map_cons, List.mem_cons, ih, or_assoc]
  exact hrecords t.records

theorem mem_ids_remove {t : ClientsTable} {publicKey k : Text} :
    k ∈ (t.remove publicKey).1.ids ↔ k ∈ t.ids ∧ k ≠ publicKey := by
  cases t with
  | none => simp [ClientsTable.remove, ClientsTable.ids, ClientsTable.records]
  | some rs =>
    simp only [ClientsTable.remove, ClientsTable.ids, ClientsTable.records, Option.map_some,
      Option.getD_some, List.mem_map, List.mem_filter, decide_eq_true_eq]
    constructor
    · rintro ⟨r, ⟨hr, hne⟩, rfl⟩
      exact ⟨⟨r, hr, rfl⟩, hne⟩
    · rintro ⟨⟨r, hr, rfl⟩, hne⟩
      exact ⟨r, ⟨hr, hne⟩, rfl⟩

end VpnControl.Awg
