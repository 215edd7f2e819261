import VpnControl.Awg.ClientsTableRoundTrip
import VpnControl.Lib.InPlace

namespace VpnControl.Awg
open Strings Json SortedMap

section UserData
/-- What an update does to the client data of a record. -/
structure Updated (name allowedIP creationDate : Text) (old new : GoMap) : Prop where
  clientName : lookup new (lit "clientName") = some (.str name)
  allowedIps : allowedIP ≠ [] → lookup new (lit "allowedIps") = some (.str allowedIP)
  creationDate : lookup new (lit "creationDate") =
    some ((lookup old (lit "creationDate")).getD (.str creationDate))
  others : ∀ k, k ≠ lit "clientName" → k ≠ lit "creationDate" →
    (k = lit "allowedIps" → allowedIP = []) → lookup new k = lookup old k

theorem updateUserData_updated (name allowedIP creationDate : Text) (m : GoMap) :
    Updated name allowedIP creationDate m (updateUserData m name allowedIP creationDate) := by
  have hnameDate : lit "clientName" ≠ lit "creationDate" := by simp
  have hipDate : lit "allowedIps" ≠ lit "creationDate" := by simp
  have hnameIP : lit "clientName" ≠ lit "allowedIps" := by simp
  -- the entries before the creation date is looked at
  obtain ⟨routed, hrouted⟩ : ∃ routed, routed = if allowedIP = [] then
      SortedMap.insert (lit "clientName") (.str name) m
    else SortedMap.insert (lit "allowedIps") (.str allowedIP)
      (SortedMap.insert (lit "clientName") (.str name) m) := ⟨_, rfl⟩
  have hname : lookup routed (lit "clientName") = some (.str name) := by
    rw [hrouted]
    split_ifs
    · exact lookup_insert_self _ _ _
    · rw [lookup_insert_of_ne hnameIP, lookup_insert_self]
  have hallowed : allowedIP ≠ [] → lookup routed (lit "allowedIps") = some (.str allowedIP) := by
    intro hne
    rw [hrouted, if_neg hne, lookup_insert_self]
  have hothers : ∀ k, k ≠ lit "clientName" → (k = lit "allowedIps" → allowedIP = []) →
      lookup routed k = lookup m k := by
    intro k hk hip
    rw [hrouted]
    split_ifs with hempty
    · exact lookup_insert_of_ne hk _ _
    · rw [lookup_insert_of_ne fun h => hempty (hip h), lookup_insert_of_ne hk]
  have hdate : lookup routed (lit "creationDate") = lookup m (lit "creationDate") :=
    hothers _ hnameDate.symm fun h => absurd h.symm hipDate
  have hnew : updateUserData m name allowedIP creationDate =
      if (lookup m (lit "creationDate")).isSome then routed
      else SortedMap.insert (lit "creationDate") (.str creationDate) routed := by
    simp only [updateUserData]
    rw [← hrouted, hdate]
  rw [hnew]
  cases hold : lookup m (lit "creationDate") with
  | some date =>
    rw [if_pos Option.isSome_some]
    exact ⟨hname, hallowed, by rw [hdate, hold, Option.getD_some], fun k hk _ => hothers k hk⟩
  | none =>
    rw [if_neg (by simp)]
    constructor
    · rw [lookup_insert_of_ne hnameDate, hname]
    · intro hne
      rw [lookup_insert_of_ne hipDate, hallowed hne]
    · rw [lookup_insert_self, hold, Option.getD_none]
    · intro k hk hkDate hip
      rw [lookup_insert_of_ne hkDate, hothers k hk hip]

end UserData

section Records
variable {publicKey name allowedIP creationDate : Text} {rs : List ClientRecord}

/-- Without a record of the key a new one is appended. -/
theorem addOrUpdateRecords_of_absent (h : ∀ r ∈ rs, r.clientID ≠ publicKey) :
    addOrUpdateRecords publicKey name allowedIP creationDate rs =
      rs ++ [⟨publicKey, updateUserData [] name allowedIP creationDate⟩] := by
  induction rs with
  | nil => rfl
  | cons r rs ih =>
    obtain ⟨hr, hrs⟩ := List.forall_mem_cons.mp h
    rw [addOrUpdateRecords, if_neg hr, ih hrs, List.cons_append]

/-- Otherwise the first record of the key changes in its place. -/
theorem addOrUpdateRecords_of_first {pre post : List ClientRecord} {r : ClientRecord}
    (hpre : ∀ r ∈ pre, r.clientID ≠ publicKey) (hr : r.clientID = publicKey) :
    addOrUpdateRecords publicKey name allowedIP creationDate (pre ++ r :: post) =
      pre ++ { r with userData := updateUserData r.userData name allowedIP creationDate } :: post := by
  induction pre with
  | nil => rw [List.nil_append, addOrUpdateRecords, if_pos hr, List.nil_append]
  | cons p pre ih =>
    obtain ⟨hp, hpre⟩ := List.forall_mem_cons.mp hpre
    rw [List.cons_append, addOrUpdateRecords, if_neg hp, ih hpre, List.cons_append]

theorem find?_append_first {pre post : List ClientRecord} {r : ClientRecord}
    (hpre : ∀ r ∈ pre, r.clientID ≠ publicKey) (hr : r.clientID = publicKey) :
    (pre ++ r :: post).find? (·.clientID = publicKey) = some r := by
  have hnone : pre.find? (·.clientID = publicKey) = none :=
    List.find?_eq_none.mpr fun p hp => by simpa using hpre p hp
  rw [List.find?_append, hnone, Option.none_or, List.find?_cons_of_pos (by simpa using hr)]

/-- A list without the key, or split at the first record of the key. -/
theorem absent_or_first (publicKey : Text) (rs : List ClientRecord) :
    (∀ r ∈ rs, r.clientID ≠ publicKey) ∨ ∃ pre r post, rs = pre ++ r :: post ∧
      (∀ r ∈ pre, r.clientID ≠ publicKey) ∧ r.clientID = publicKey := by
  induction rs with
  | nil => exact .inl (by simp)
  | cons r rs ih =>
    by_cases hr : r.clientID = publicKey
    · exact .inr ⟨[], r, rs, rfl, by simp, hr⟩
    · rcases ih with h | ⟨pre, r', post, rfl, hpre, hr'⟩
      · exact .inl (List.forall_mem_cons.mpr ⟨hr, h⟩)
      · exact .inr ⟨r :: pre, r', post, rfl, List.forall_mem_cons.mpr ⟨hr, hpre⟩, hr'⟩

end Records

namespace ClientsTable

/-- `Remove` as it runs: the kept records move to the front of the table's own array. -/
def removeInPlace (t : ClientsTable) (publicKey : Text) : ClientsTable × Bool :=
  (t.map (InPlace.filter fun r => r.clientID ≠ publicKey),
    t.records.any (·.clientID = publicKey))

theorem removeInPlace_eq (t : ClientsTable) (publicKey : Text) :
    t.removeInPlace publicKey = t.remove publicKey := by
  have hfilter : InPlace.filter (fun r : ClientRecord => r.clientID ≠ publicKey) =
      fun rs => rs.filter (·.clientID ≠ publicKey) :=
    funext fun rs => InPlace.filter_eq _ rs
  rw [removeInPlace, remove, hfilter]

theorem records_remove (t : ClientsTable) (publicKey : Text) :
    (t.remove publicKey).1.records = t.records.filter (·.clientID ≠ publicKey) := by
  cases t <;> rfl

/-- The records of other keys, in order. -/
def others (t : ClientsTable) (publicKey : Text) : List ClientRecord :=
  t.records.filter (·.clientID ≠ publicKey)

theorem others_addOrUpdate (t : ClientsTable) (publicKey name allowedIP creationDate : Text) :
    (t.addOrUpdate publicKey name allowedIP creationDate).others publicKey =
      t.others publicKey := by
  change (addOrUpdateRecords publicKey name allowedIP creationDate t.records).filter _ =
    t.records.filter _
  rcases absent_or_first publicKey t.records with h | ⟨pre, r, post, hrs, hpre, hr⟩
  · rw [addOrUpdateRecords_of_absent h]
    simp
  · rw [hrs, addOrUpdateRecords_of_first hpre hr]
    simp [hr]

/-- The record that is found after an update, next to the one that was found before. -/
theorem byPublicKey_addOrUpdate (t : ClientsTable)
    (publicKey name allowedIP creationDate : Text) :
    ∃ r, (t.addOrUpdate publicKey name allowedIP creationDate).byPublicKey publicKey = some r ∧
      Updated name allowedIP creationDate ((t.byPublicKey publicKey).map (·.userData) |>.getD [])
        r.userData := by
  change ∃ r, (addOrUpdateRecords publicKey name allowedIP creationDate t.records).find? _ =
    some r ∧ Updated _ _ _ (((t.records.find? _).map (·.userData)).getD []) r.userData
  rcases absent_or_first publicKey t.records with h | ⟨pre, r, post, hrs, hpre, hr⟩
  · have hnone : t.records.find? (·.clientID = publicKey) = none :=
      List.find?_eq_none.mpr fun p hp => by simpa using h p hp
    rw [addOrUpdateRecords_of_absent h, hnone, find?_append_first h rfl]
    exact ⟨_, rfl, updateUserData_updated _ _ _ _⟩
  · rw [hrs, addOrUpdateRecords_of_first hpre hr, find?_append_first hpre hr]
    exact ⟨_, find?_append_first hpre hr, updateUserData_updated _ _ _ _⟩

theorem length_addOrUpdate (t : ClientsTable) (publicKey name allowedIP creationDate : Text) :
    (t.addOrUpdate publicKey name allowedIP creationDate).records.length =
      t.records.length + if publicKey ∈ t.ids then 0 else 1 := by
  change (addOrUpdateRecords publicKey name allowedIP creationDate t.records).length = _
  rcases absent_or_first publicKey t.records with h | ⟨pre, r, post, hrs, hpre, hr⟩
  · have hids : publicKey ∉ t.ids := by
      intro hmem
      obtain ⟨r, hr, hkey⟩ := List.mem_map.mp hmem
      exact h r hr hkey
    rw [addOrUpdateRecords_of_absent h, if_neg hids, List.length_append, List.length_singleton]
  · have hids : publicKey ∈ t.ids := List.mem_map.mpr ⟨r, by simp [hrs], hr⟩
    rw [if_pos hids, hrs, addOrUpdateRecords_of_first hpre hr, List.length_append,
      List.length_append, List.length_cons, List.length_cons]
    rfl

theorem byPublicKey_remove (t : ClientsTable) (publicKey : Text) :
    (t.remove publicKey).1.byPublicKey publicKey = none := by
  rw [byPublicKey, records_remove]
  exact List.find?_eq_none.mpr fun r hr => by simpa using (List.mem_filter.mp hr).2

/-- An update and a removal change what belongs to the key and nothing else, in any table and
also when the key is repeated in it. -/
theorem update_frame (t : ClientsTable) (publicKey name allowedIP creationDate : Text) :
    ((t.addOrUpdate publicKey name allowedIP creationDate).others publicKey = t.others publicKey ∧
      (∃ r, (t.addOrUpdate publicKey name allowedIP creationDate).byPublicKey publicKey = some r ∧
        Updated name allowedIP creationDate
          ((t.byPublicKey publicKey).map (·.userData) |>.getD []) r.userData) ∧
      (t.addOrUpdate publicKey name allowedIP creationDate).records.length =
        t.records.length + if publicKey ∈ t.ids then 0 else 1) ∧
    (t.removeInPlace publicKey).1.records = t.others publicKey ∧
      ((t.removeInPlace publicKey).2 = true ↔ publicKey ∈ t.ids) ∧
      (t.removeInPlace publicKey).1.byPublicKey publicKey = none := by
  refine ⟨⟨t.others_addOrUpdate .., t.byPublicKey_addOrUpdate .., t.length_addOrUpdate ..⟩, ?_⟩
  rw [removeInPlace_eq]
  refine ⟨t.records_remove publicKey, ?_, t.byPublicKey_remove publicKey⟩
  simp [remove, ids]

end ClientsTable
end VpnControl.Awg
