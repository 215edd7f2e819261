import VpnControl.Agent.Service
import VpnControl.Lib.Upsert
import VpnControl.Lib.FallbackOrder
import Mathlib.Data.Prod.Lex
import Mathlib.Data.List.Rotate

namespace VpnControl.Netip.Addr

def value : Addr → Nat
  | v4 a => a.toNat
  | v6 a _ => a.toNat

/-- `Addr.Compare`; only an IPv6 address has a zone. -/
def compare (ip ip2 : Addr) : Ordering :=
  if ip.bitLen < ip2.bitLen then .lt
  else if ip2.bitLen < ip.bitLen then .gt
  else if ip.value < ip2.value then .lt
  else if ip2.value < ip.value then .gt
  else if ip.zone < ip2.zone then .lt
  else if ip2.zone < ip.zone then .gt
  else .eq

/-- The three things addresses are compared by, in their order. -/
def rank (ip : Addr) : ℕ ×ₗ ℕ ×ₗ Text := toLex (ip.bitLen, toLex (ip.value, ip.zone))

theorem rank_inj {a b : Addr} : a.rank = b.rank ↔ a = b := by
  constructor
  · intro h
    cases a <;> cases b <;> simp_all [rank, bitLen, value, zone, BitVec.toNat_inj]
  · rintro rfl
    rfl

theorem compare_eq_lt {a b : Addr} : a.compare b = .lt ↔ a.rank < b.rank := by
  simp only [rank, Prod.Lex.toLex_lt_toLex]
  unfold compare
  split_ifs <;> simp_all <;> omega

end VpnControl.Netip.Addr

namespace VpnControl.Agent
open Awg Strings Netip Json SortedMap

structure PeerView where
  publicKey : Text
  name : Text := []
  allowedIPsConfig : List Text := []
  allowedIPsRuntime : List Text := []
  inConfig : Bool := false
  inRuntime : Bool := false
  inClientsTable : Bool := false
  endpoint : Text := []
  latestHandshake : Text := []
  transferReceived : Text := []
  transferSent : Text := []
  userData : GoMap := []

/-- The views by their public keys. -/
abbrev Views := Table PeerView.publicKey

namespace PeerView

/-- The view that `get` makes for a key it has not seen. -/
def ofKey (publicKey : Text) : PeerView := { publicKey }

def addConfig (peer : Peer) (view : PeerView) : PeerView :=
  { view with inConfig := true, allowedIPsConfig := peer.allowedIPs }

def addRuntime (peer : RuntimePeer) (view : PeerView) : PeerView :=
  { view with
    inRuntime := true
    allowedIPsRuntime := peer.allowedIPs
    endpoint := peer.endpoint
    latestHandshake := peer.latestHandshake
    transferReceived := peer.transferReceived
    transferSent := peer.transferSent }

/-- The client's name, when the client data has one that is a text. -/
def clientName (record : ClientRecord) : Option Text :=
  match lookup record.userData (lit "clientName") with
  | some (.str name) => some name
  | _ => none

def addRecord (record : ClientRecord) (view : PeerView) : PeerView :=
  { view with
    inClientsTable := true
    userData := record.userData
    name := (clientName record).getD view.name }

@[simp] theorem publicKey_addConfig (peer : Peer) (view : PeerView) :
    (view.addConfig peer).publicKey = view.publicKey := rfl

@[simp] theorem publicKey_addRuntime (peer : RuntimePeer) (view : PeerView) :
    (view.addRuntime peer).publicKey = view.publicKey := rfl

@[simp] theorem publicKey_addRecord (record : ClientRecord) (view : PeerView) :
    (view.addRecord record).publicKey = view.publicKey := rfl

@[simp] theorem publicKey_ofKey (publicKey : Text) : (ofKey publicKey).publicKey = publicKey := rfl

def firstAllowedIP (view : PeerView) : Text :=
  match view.allowedIPsConfig, view.allowedIPsRuntime with
  | ip :: _, _ => ip
  | [], ip :: _ => ip
  | [], [] => []

end PeerView

def parseAddrForSort (value : Text) : Option Addr :=
  match parsePrefix value with
  | some pfx => some pfx.addr
  | none => parseAddr value

/-- The comparison that `mergePeers` sorts by. -/
def PeerView.less (left right : PeerView) : Bool :=
  match parseAddrForSort left.firstAllowedIP, parseAddrForSort right.firstAllowedIP with
  | some leftAddr, some rightAddr =>
    if leftAddr ≠ rightAddr then leftAddr.compare rightAddr == .lt
    else decide (left.publicKey < right.publicKey)
  | _, _ => decide (left.publicKey < right.publicKey)

/-- The map that the three loops fill. -/
def mergedViews (cfg : Config) (table : ClientsTable) (runtime : RuntimeStatus) : Views :=
  let views : Views := ({} : Views).upsertAll PeerView.ofKey (·.publicKey) PeerView.addConfig cfg.peers
  let views := views.upsertAll PeerView.ofKey (·.publicKey) PeerView.addRuntime runtime.peers
  views.upsertAll PeerView.ofKey (·.clientID) PeerView.addRecord table.records

/-- The order in which `range` visits the views. -/
structure ViewOrder where
  order : List PeerView → List PeerView
  perm : ∀ l, (order l).Perm l

def sortedViews (sort : SliceSort) (iter : ViewOrder) (views : Views) : List PeerView :=
  sort.slice PeerView.less (iter.order views.values)

def mergePeers (sort : SliceSort) (iter : ViewOrder) (cfg : Config) (table : ClientsTable)
    (runtime : RuntimeStatus) : List PeerView :=
  sortedViews sort iter (mergedViews cfg table runtime)

def Service.peers (s : Service) (sort : SliceSort) (iter : ViewOrder) : Docker (List PeerView) := do
  let (cfg, table, runtime) ← s.readState
  return mergePeers sort iter cfg table runtime

/-! ### What the views say -/

section Merge
open PeerView
variable (cfg : Config) (table : ClientsTable) (runtime : RuntimeStatus)

/-- The last peer of the config with a key. -/
def lastPeer (publicKey : Text) : Option Peer :=
  (Table.entriesOf (·.publicKey) cfg.peers publicKey).getLast?

def lastRuntimePeer (publicKey : Text) : Option RuntimePeer :=
  (Table.entriesOf (·.publicKey) runtime.peers publicKey).getLast?

def lastRecord (publicKey : Text) : Option ClientRecord :=
  (Table.entriesOf (·.clientID) table.records publicKey).getLast?

/-- A view says where its key occurs, and repeats the last entry that each source has for it. -/
structure PeerView.Merges (view : PeerView) : Prop where
  inConfig : view.inConfig = true ↔ view.publicKey ∈ cfg.peers.map (·.publicKey)
  inRuntime : view.inRuntime = true ↔ view.publicKey ∈ runtime.peers.map (·.publicKey)
  inClientsTable : view.inClientsTable = true ↔ view.publicKey ∈ table.ids
  allowedIPsConfig :
    view.allowedIPsConfig = ((lastPeer cfg view.publicKey).map (·.allowedIPs)).getD []
  allowedIPsRuntime :
    view.allowedIPsRuntime = ((lastRuntimePeer runtime view.publicKey).map (·.allowedIPs)).getD []
  endpoint : view.endpoint = ((lastRuntimePeer runtime view.publicKey).map (·.endpoint)).getD []
  latestHandshake :
    view.latestHandshake =
      ((lastRuntimePeer runtime view.publicKey).map (·.latestHandshake)).getD []
  transferReceived :
    view.transferReceived =
      ((lastRuntimePeer runtime view.publicKey).map (·.transferReceived)).getD []
  transferSent :
    view.transferSent = ((lastRuntimePeer runtime view.publicKey).map (·.transferSent)).getD []
  userData : view.userData = ((lastRecord table view.publicKey).map (·.userData)).getD []
  name : view.name = (((Table.entriesOf (·.clientID) table.records view.publicKey).filterMap
    PeerView.clientName).getLast?).getD []

/-- The view of a key after the three loops, which go one after the other over the entries
with that key. -/
def viewOf (publicKey : Text) : PeerView :=
  (Table.entriesOf (·.clientID) table.records publicKey).foldl (fun v r => v.addRecord r)
    ((Table.entriesOf (·.publicKey) runtime.peers publicKey).foldl (fun v p => v.addRuntime p)
      ((Table.entriesOf (·.publicKey) cfg.peers publicKey).foldl (fun v p => v.addConfig p)
        (.ofKey publicKey)))

theorem getD_mergedViews (k : Text) :
    ((mergedViews cfg table runtime).get k).getD (.ofKey k) = viewOf cfg table runtime k := by
  rw [mergedViews, Table.getD_upsertAll publicKey_ofKey publicKey_addRecord,
    Table.getD_upsertAll publicKey_ofKey publicKey_addRuntime,
    Table.getD_upsertAll publicKey_ofKey publicKey_addConfig, viewOf, Table.get_empty,
    Option.getD_none]

theorem isSome_get_mergedViews (k : Text) :
    ((mergedViews cfg table runtime).get k).isSome = true ↔
      k ∈ cfg.peers.map (·.publicKey) ∨ k ∈ runtime.peers.map (·.publicKey) ∨ k ∈ table.ids := by
  rw [mergedViews, Table.isSome_get_upsertAll publicKey_ofKey publicKey_addRecord,
    Table.isSome_get_upsertAll publicKey_ofKey publicKey_addRuntime,
    Table.isSome_get_upsertAll publicKey_ofKey publicKey_addConfig]
  simp [ClientsTable.ids, or_assoc]

/-- A part of the view that only the first loop writes. -/
theorem viewOf_config {γ : Type} {f : PeerView → γ} {g : Peer → γ}
    (hconfig : ∀ v p, f (PeerView.addConfig p v) = g p)
    (hruntime : ∀ v p, f (PeerView.addRuntime p v) = f v)
    (htable : ∀ v r, f (PeerView.addRecord r v) = f v) (k : Text) :
    f (viewOf cfg table runtime k) = ((lastPeer cfg k).map g).getD (f (.ofKey k)) := by
  rw [viewOf, List.foldl_keeps htable, List.foldl_keeps hruntime, List.foldl_overwrites hconfig,
    lastPeer]

theorem viewOf_runtime {γ : Type} {f : PeerView → γ} {g : RuntimePeer → γ}
    (hconfig : ∀ v p, f (PeerView.addConfig p v) = f v)
    (hruntime : ∀ v p, f (PeerView.addRuntime p v) = g p)
    (htable : ∀ v r, f (PeerView.addRecord r v) = f v) (k : Text) :
    f (viewOf cfg table runtime k) =
      ((lastRuntimePeer runtime k).map g).getD (f (.ofKey k)) := by
  rw [viewOf, List.foldl_keeps htable, List.foldl_overwrites hruntime, List.foldl_keeps hconfig,
    lastRuntimePeer]

theorem viewOf_table {γ : Type} {f : PeerView → γ} {g : ClientRecord → γ}
    (hconfig : ∀ v p, f (PeerView.addConfig p v) = f v)
    (hruntime : ∀ v p, f (PeerView.addRuntime p v) = f v)
    (htable : ∀ v r, f (PeerView.addRecord r v) = g r) (k : Text) :
    f (viewOf cfg table runtime k) = ((lastRecord table k).map g).getD (f (.ofKey k)) := by
  rw [viewOf, List.foldl_overwrites htable, List.foldl_keeps hruntime, List.foldl_keeps hconfig,
    lastRecord]

theorem viewOf_publicKey (k : Text) : (viewOf cfg table runtime k).publicKey = k := by
  rw [viewOf, List.foldl_keeps fun v r => publicKey_addRecord r v,
    List.foldl_keeps fun v p => publicKey_addRuntime p v,
    List.foldl_keeps fun v p => publicKey_addConfig p v, publicKey_ofKey]

theorem viewOf_name (k : Text) :
    (viewOf cfg table runtime k).name =
      (((Table.entriesOf (·.clientID) table.records k).filterMap clientName).getLast?).getD [] := by
  have hconfig (v : PeerView) (p : Peer) : (v.addConfig p).name = v.name := rfl
  have hruntime (v : PeerView) (p : RuntimePeer) : (v.addRuntime p).name = v.name := rfl
  have htable (v : PeerView) (r : ClientRecord) :
      (v.addRecord r).name = (clientName r).getD v.name := rfl
  rw [viewOf, List.foldl_sometimes htable, List.foldl_keeps hruntime, List.foldl_keeps hconfig]
  rfl

/-- Whether there is a last entry with a key. -/
theorem getD_getLast?_entriesOf {β : Type} (keyOf : β → Text) (es : List β) (k : Text) :
    (((Table.entriesOf keyOf es k).getLast?).map fun _ => true).getD false = true ↔
      k ∈ es.map keyOf := by
  cases h : (Table.entriesOf keyOf es k).getLast? with
  | none => simpa using Table.entriesOf_eq_nil_iff.mp (List.getLast?_eq_none_iff.mp h)
  | some e =>
    have hne : Table.entriesOf keyOf es k ≠ [] := by
      intro hnil
      simp [hnil] at h
    simpa using not_not.mp (mt Table.entriesOf_eq_nil_iff.mpr hne)

theorem viewOf_merges (k : Text) : (viewOf cfg table runtime k).Merges cfg table runtime := by
  have hk := viewOf_publicKey cfg table runtime k
  constructor <;> rw [hk]
  case inConfig =>
    rw [viewOf_config cfg table runtime (f := inConfig) (g := fun _ => true) (fun _ _ => rfl)
      (fun _ _ => rfl) fun _ _ => rfl]
    exact getD_getLast?_entriesOf _ _ _
  case inRuntime =>
    rw [viewOf_runtime cfg table runtime (f := inRuntime) (g := fun _ => true) (fun _ _ => rfl)
      (fun _ _ => rfl) fun _ _ => rfl]
    exact getD_getLast?_entriesOf _ _ _
  case inClientsTable =>
    rw [viewOf_table cfg table runtime (f := inClientsTable) (g := fun _ => true) (fun _ _ => rfl)
      (fun _ _ => rfl) fun _ _ => rfl]
    exact getD_getLast?_entriesOf _ _ _
  case allowedIPsConfig =>
    exact viewOf_config cfg table runtime (fun _ _ => rfl) (fun _ _ => rfl) (fun _ _ => rfl) k
  case allowedIPsRuntime =>
    exact viewOf_runtime cfg table runtime (fun _ _ => rfl) (fun _ _ => rfl) (fun _ _ => rfl) k
  case endpoint =>
    exact viewOf_runtime cfg table runtime (fun _ _ => rfl) (fun _ _ => rfl) (fun _ _ => rfl) k
  case latestHandshake =>
    exact viewOf_runtime cfg table runtime (fun _ _ => rfl) (fun _ _ => rfl) (fun _ _ => rfl) k
  case transferReceived =>
    exact viewOf_runtime cfg table runtime (fun _ _ => rfl) (fun _ _ => rfl) (fun _ _ => rfl) k
  case transferSent =>
    exact viewOf_runtime cfg table runtime (fun _ _ => rfl) (fun _ _ => rfl) (fun _ _ => rfl) k
  case userData =>
    exact viewOf_table cfg table runtime (fun _ _ => rfl) (fun _ _ => rfl) (fun _ _ => rfl) k
  case name => exact viewOf_name cfg table runtime k

theorem mem_keys_iff {views : Views} {k : Text} :
    k ∈ views.values.map (·.publicKey) ↔ (views.get k).isSome = true := by
  rw [Option.isSome_iff_exists, List.mem_map]
  apply exists_congr
  intro view
  exact Table.get_eq_some_iff.symm

theorem merges_of_mem {view : PeerView} (h : view ∈ (mergedViews cfg table runtime).values) :
    view.Merges cfg table runtime := by
  have hview := getD_mergedViews cfg table runtime view.publicKey
  rw [Table.mem_values_iff.mp h, Option.getD_some] at hview
  rw [hview]
  exact viewOf_merges cfg table runtime view.publicKey

theorem sortedViews_perm (sort : SliceSort) (iter : ViewOrder) (views : Views) :
    (sortedViews sort iter views).Perm views.values :=
  (sort.perm _ _).trans (iter.perm _)

/-- The result has one view for each key of the three sources, whatever the order of the map
and however the slice is sorted. -/
theorem mergePeers_merges (sort : SliceSort) (iter : ViewOrder) :
    let result := mergePeers sort iter cfg table runtime
    (result.map (·.publicKey)).Nodup ∧
      (∀ k, k ∈ result.map (·.publicKey) ↔
        k ∈ cfg.peers.map (·.publicKey) ∨ k ∈ runtime.peers.map (·.publicKey) ∨ k ∈ table.ids) ∧
      ∀ view ∈ result, view.Merges cfg table runtime := by
  intro result
  have hperm : result.Perm (mergedViews cfg table runtime).values := sortedViews_perm sort iter _
  refine ⟨?_, fun k => ?_, fun view hview => ?_⟩
  · exact (hperm.map _).nodup_iff.mpr (mergedViews cfg table runtime).nodup
  · rw [(hperm.map _).mem_iff, mem_keys_iff, isSome_get_mergedViews]
  · exact merges_of_mem cfg table runtime (hperm.mem_iff.mp hview)

end Merge

/-! ### The order of the views -/

/-- The address a view is sorted by, when it has one. -/
def PeerView.sortAddr (view : PeerView) : Option Addr := parseAddrForSort view.firstAllowedIP

/-- The comparison of views is one with two criteria. -/
theorem PeerView.less_iff (left right : PeerView) :
    left.less right = true ↔
      FallbackOrder.Before PeerView.publicKey (fun v => v.sortAddr.map Addr.rank) left right := by
  cases hl : left.sortAddr with
  | none =>
    rw [FallbackOrder.before_of_none_left (by simp [hl]), less]
    rw [sortAddr] at hl
    simp [hl]
  | some leftAddr =>
    cases hr : right.sortAddr with
    | none =>
      rw [FallbackOrder.before_of_none_right (by simp [hr]), less]
      rw [sortAddr] at hl hr
      simp [hl, hr]
    | some rightAddr =>
      rw [FallbackOrder.before_of_some (by rw [hl]; rfl) (by rw [hr]; rfl), less]
      rw [sortAddr] at hl hr
      by_cases h : leftAddr = rightAddr
      · simp [hl, hr, h]
      · simp [hl, hr, h, Addr.rank_inj, Addr.compare_eq_lt]

/-- Some view without an address has its key between those of two views with addresses, which
are in the other order than these keys. -/
def Views.Crossed (views : Views) : Prop :=
  ∃ x ∈ views.values, ∃ n ∈ views.values, ∃ y ∈ views.values,
    x.publicKey < n.publicKey ∧ n.publicKey < y.publicKey ∧ n.sortAddr = none ∧
      ∃ a b, x.sortAddr = some a ∧ y.sortAddr = some b ∧ b.compare a = .lt

/-- The comparison orders the views, so that the sorted sequence increases by it and does not
depend on the order in which the map is visited. -/
structure Views.Ordered (views : Views) : Prop where
  total : StrictTotalOn PeerView.less views.values
  increasing : ∀ (sort : SliceSort) (iter : ViewOrder),
    (sortedViews sort iter views).Pairwise fun left right => left.less right = true
  alike : ∀ (sort : SliceSort) (iter iter' : ViewOrder),
    sortedViews sort iter views = sortedViews sort iter' views

theorem crossed_iff (views : Views) :
    FallbackOrder.Crossed PeerView.publicKey (fun v => v.sortAddr.map Addr.rank) views.values ↔
      views.Crossed := by
  constructor
  · rintro ⟨x, hx, n, hn, y, hy, hxn, hny, rn, _, _, rx, ry, hlt⟩
    obtain ⟨a, hxa, rfl⟩ := Option.map_eq_some_iff.mp rx
    obtain ⟨b, hyb, rfl⟩ := Option.map_eq_some_iff.mp ry
    exact ⟨x, hx, n, hn, y, hy, hxn, hny, Option.map_eq_none_iff.mp rn, a, b, hxa, hyb,
      Addr.compare_eq_lt.mpr hlt⟩
  · rintro ⟨x, hx, n, hn, y, hy, hxn, hny, rn, a, b, hxa, hyb, hlt⟩
    refine ⟨x, hx, n, hn, y, hy, hxn, hny, by simp [rn], a.rank, b.rank, ?_, ?_, ?_⟩
    · simp [hxa]
    · simp [hyb]
    · exact Addr.compare_eq_lt.mp hlt

theorem strictTotalOn_iff (views : Views) :
    StrictTotalOn PeerView.less views.values ↔ ¬ views.Crossed := by
  rw [← crossed_iff]
  apply FallbackOrder.strictTotalOn_iff PeerView.less_iff
  intro x hx y hy hkey
  exact List.inj_on_of_nodup_map views.nodup hx hy hkey

/-- The documented order is kept exactly by views that are not crossed. -/
theorem ordered_iff (views : Views) : views.Ordered ↔ ¬ views.Crossed := by
  constructor
  · intro h
    exact (strictTotalOn_iff views).mp h.total
  · intro hc
    have htotal := (strictTotalOn_iff views).mpr hc
    have hnodup : views.values.Nodup := views.nodup.of_map
    have hvisit (iter : ViewOrder) : StrictTotalOn PeerView.less (iter.order views.values) :=
      htotal.perm (iter.perm _)
    refine ⟨htotal, fun sort iter => ?_, fun sort iter iter' => ?_⟩
    · exact sort.slice_increasing (hvisit iter) ((iter.perm _).nodup_iff.mpr hnodup)
    · exact sort.slice_eq_of_perm (hvisit iter') ((iter.perm _).trans (iter'.perm _).symm)

namespace Sample

/-- Two peers whose addresses are in the other order than their keys. -/
def crossedConfig : Config where
  peers :=
    [{ publicKey := ['A'], allowedIPs := [lit "10.8.1.5/32"] },
      { publicKey := ['C'], allowedIPs := [lit "10.8.1.1/32"] }]

/-- A client whose peer is gone, with its key between those of the peers. -/
def crossedTable : ClientsTable := some [{ clientID := ['B'] }]

def viewA : PeerView :=
  { publicKey := ['A'], allowedIPsConfig := [lit "10.8.1.5/32"], inConfig := true }

def viewB : PeerView := { publicKey := ['B'], inClientsTable := true }

def viewC : PeerView :=
  { publicKey := ['C'], allowedIPsConfig := [lit "10.8.1.1/32"], inConfig := true }

def inOrder : ViewOrder := ⟨id, fun l => .refl l⟩

/-- The map visited from its third entry on. -/
def fromThird : ViewOrder := ⟨fun l => l.rotate 2, fun l => List.rotate_perm l 2⟩

theorem mergedViews_crossed :
    (mergedViews crossedConfig crossedTable {}).values = [viewA, viewC, viewB] := rfl

theorem sortAddr_viewA : viewA.sortAddr = some (.v4 0x0A080105#32) := by
  simp only [PeerView.sortAddr, viewA, PeerView.firstAllowedIP, lit_eq]
  decide

theorem sortAddr_viewC : viewC.sortAddr = some (.v4 0x0A080101#32) := by
  simp only [PeerView.sortAddr, viewC, PeerView.firstAllowedIP, lit_eq]
  decide

theorem sortAddr_viewB : viewB.sortAddr = none := by decide

end Sample

/-- The three views come before each other in a circle. -/
theorem crossed_not_ordered :
    ¬ (mergedViews Sample.crossedConfig Sample.crossedTable {}).Ordered ∧
      mergePeers .insertion Sample.inOrder Sample.crossedConfig Sample.crossedTable {} =
        [Sample.viewC, Sample.viewA, Sample.viewB] ∧
      mergePeers .insertion Sample.fromThird Sample.crossedConfig Sample.crossedTable {} =
        [Sample.viewA, Sample.viewB, Sample.viewC] := by
  have hA := Sample.sortAddr_viewA
  have hB := Sample.sortAddr_viewB
  have hC := Sample.sortAddr_viewC
  unfold PeerView.sortAddr at hA hB hC
  -- A before B and B before C by their keys, C before A by their addresses
  have hAB : Sample.viewA.less Sample.viewB = true := by
    rw [PeerView.less, hA, hB]
    decide
  have hBA : Sample.viewB.less Sample.viewA = false := by
    rw [PeerView.less, hA, hB]
    decide
  have hBC : Sample.viewB.less Sample.viewC = true := by
    rw [PeerView.less, hB, hC]
    decide
  have hCB : Sample.viewC.less Sample.viewB = false := by
    rw [PeerView.less, hB, hC]
    decide
  have hCA : Sample.viewC.less Sample.viewA = true := by
    rw [PeerView.less, hA, hC]
    decide
  refine ⟨fun h => ?_, ?_, ?_⟩
  · have htotal := h.total
    rw [Sample.mergedViews_crossed] at htotal
    have hAA := htotal.trans _ (by simp) _ (by simp) Sample.viewA (by simp)
      (htotal.trans Sample.viewA (by simp) Sample.viewB (by simp) Sample.viewC (by simp) hAB hBC) hCA
    simp [htotal.irrefl Sample.viewA (by simp)] at hAA
  · simp [mergePeers, sortedViews, Sample.mergedViews_crossed, Sample.inOrder,
      SliceSort.insertion, insertBacks, insertBack, hCA, hBA]
  · have hrotate : [Sample.viewA, Sample.viewC, Sample.viewB].rotate 2 =
        [Sample.viewB, Sample.viewA, Sample.viewC] := rfl
    simp [mergePeers, sortedViews, Sample.mergedViews_crossed, Sample.fromThird, hrotate,
      SliceSort.insertion, insertBacks, insertBack, hAB, hCB]

end VpnControl.Agent
