import VpnControl.Backend.ServerService
import VpnControl.Lib.JsonPaths

namespace VpnControl.Backend
open Strings Json

def redactionMark : Doc := .str (lit "[redacted]")

theorem redactElems_eq (xs : List Doc) : redactElems xs = xs.map redact := by
  induction xs with
  | nil => rfl
  | cons x xs ih => rw [redactElems, ih, List.map_cons]

theorem redactMembers_eq (ms : List (Text × Doc)) :
    redactMembers ms =
      ms.map fun m => (m.1, if isSensitive m.1 then redactionMark else redact m.2) := by
  induction ms with
  | nil => rfl
  | cons m ms ih =>
    obtain ⟨k, v⟩ := m
    rw [redactMembers, ih, List.map_cons, redactionMark]

theorem redact_masks : Masks isSensitive redactionMark redact where
  mark_leaf := rfl
  surface x := by
    cases x with
    | arr xs => simp [redact, redactElems_eq, Doc.surface, Function.comp_def]
    | obj ms => simp [redact, redactMembers_eq, Doc.surface]
    | _ => rfl
  children x := by
    cases x with
    | arr xs => simp [redact, redactElems_eq, Doc.children]
    | obj ms => simp [redact, redactMembers_eq, Doc.children]
    | _ => rfl

/-- A redacted value: what no sensitive key leads to is there as it was, the values right
below sensitive keys are the mark. -/
structure Redacted (value result : Doc) : Prop where
  kept : SameAbove isSensitive value result
  marked : ∀ p ks x i k v, value.follow p = some (ks, x) → (∀ l ∈ ks, isSensitive l = false) →
    x.children[i]? = some (some k, v) → isSensitive k = true →
      result.follow (p ++ [i]) = some (ks ++ [k], redactionMark)
  hidden : ∀ p ks x k v, result.follow p = some (ks, x) → (some k, v) ∈ x.children →
    isSensitive k = true → v = redactionMark

theorem redacted_redact (value : Doc) : Redacted value (redact value) where
  kept := redact_masks.sameAbove value
  marked := fun _ _ _ _ _ _ hp hclean hv hk =>
    follow_append_child (redact_masks.follow hp hclean) (redact_masks.child_of_hidden hv hk)
  hidden := fun _ _ _ _ _ hp hv hk => redact_masks.hidden_mark hp hv hk

theorem auditLog_congr (r : AuditRecord) (metadata : List (Text × Doc))
    (h : SameAbove isSensitive (.obj r.metadata) (.obj metadata)) :
    auditLog { r with metadata } = auditLog r := by
  have hredact : redact (.obj metadata) = redact (.obj r.metadata) :=
    ((redact_masks.eq_iff _ _).mpr h).symm
  rw [auditLog, auditLog, hredact]

/-- What lies below sensitive keys does not reach the audit. -/
theorem redact_conceals :
    (∀ value, Redacted value (redact value)) ∧
      (∀ value other, redact value = redact other ↔ SameAbove isSensitive value other) ∧
      ∀ (r : AuditRecord) (metadata : List (Text × Doc)),
        SameAbove isSensitive (.obj r.metadata) (.obj metadata) →
          auditLog { r with metadata } = auditLog r :=
  ⟨redacted_redact, redact_masks.eq_iff, auditLog_congr⟩

/-- Metadata with secrets at two depths, one of them in a list. -/
def secretMetadata (sshSecret vpnUrl : Text) : List (Text × Doc) :=
  [(lit "ssh_secret", .str sshSecret), (lit "name", .str (lit "node")),
    (lit "nested", .arr [.obj [(lit "vpn_url", .str vpnUrl)]])]

theorem redact_conceals_nested :
    auditLog { action := lit "test", metadata := secretMetadata (lit "private") (lit "vpn://a") } =
      auditLog { action := lit "test", metadata := secretMetadata (lit "other") (lit "vpn://b") } := by
  have hsame (s u : Text) : redact (.obj (secretMetadata s u)) =
      redact (.obj (secretMetadata (lit "other") (lit "vpn://b"))) := by
    have h1 : isSensitive (lit "ssh_secret") = true := by
      simp only [isSensitive, sensitiveKeys, lit_eq]
      decide
    have h2 : isSensitive (lit "vpn_url") = true := by
      simp only [isSensitive, sensitiveKeys, lit_eq]
      decide
    simp [secretMetadata, redact, redactMembers, redactElems, h1, h2]
  exact redact_conceals.2.2
    { action := lit "test", metadata := secretMetadata (lit "other") (lit "vpn://b") } _
    ((redact_conceals.2.1 _ _).mp (hsame _ _).symm)

end VpnControl.Backend
