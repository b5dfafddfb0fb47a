import KeetaNode.Block.Sealing
import KeetaNode.Asn1.Block.RoundTrip

/-!
# Wire forms

What decoding gives back of encoded block data. A permission set comes back with its
flags in offset order and the removal of a certificate with the certificate's hash;
everything else comes back as it was. A multisig signer comes back only when all its
leaves are keyed accounts.

- `keetanetwork-block/src/transport.rs`
-/

namespace KeetaNode

open ByteCodec
open Asn1 (Tag Asn1Error Chrono LawfulChrono)

/-! ## Permissions -/

theorem Permissions.map_onWire_eq_iff {permissions : Option Permissions} :
    permissions.map Permissions.onWire = permissions ↔
      ∀ p ∈ permissions, AccessInPlace p.base.flags := by
  cases permissions with
  | none => simp
  | some p => simp [Permissions.onWire_eq_self_iff]

/-- Permissions with one wire form are equal exactly when `ACCESS` is in place in both
or in neither. -/
theorem Permissions.eq_iff_of_map_onWire {a b : Option Permissions}
    (h : a.map Permissions.onWire = b.map Permissions.onWire) :
    a = b ↔ ∀ p ∈ a, ∀ q ∈ b, (AccessInPlace p.base.flags ↔ AccessInPlace q.base.flags) := by
  cases a with
  | none =>
    cases b with
    | none => simp
    | some q => simp at h
  | some p =>
    cases b with
    | none => simp at h
    | some q =>
      simp only [Option.map_some, Option.some.injEq] at h
      have hbits : p.base.bits = q.base.bits := congrArg (fun r => r.base.bits) h
      have hexternal : p.external = q.external := congrArg (fun r => r.external) h
      obtain ⟨pbase, pexternal⟩ := p
      obtain ⟨qbase, qexternal⟩ := q
      subst hexternal
      simp [BaseSet.eq_iff_of_bits_eq hbits]

variable [Crypto]

/-! ## Operations -/

/-- The operation with its certificate referenced in canonical form. -/
def ManageCertificate.canonical (operation : ManageCertificate) : ManageCertificate :=
  { operation with certificateOrHash := operation.canonicalCertificateOrHash }

/-- A certificate kept by value does not have the length of a hash. -/
def ManageCertificate.Discernible (operation : ManageCertificate) : Prop :=
  ∀ certificate, operation.canonicalCertificateOrHash = .certificate certificate →
    certificate.bytes.length ≠ 32

namespace Operation

/-- Equality of canonical forms is equality up to the way removals name a certificate. -/
def canonical : Operation → Operation
  | .manageCertificate operation => .manageCertificate operation.canonical
  | operation => operation

/-- The permissions an operation carries. -/
def permissionSet : Operation → Option Permissions
  | .setInfo operation => operation.defaultPermission
  | .modifyPermissions operation => operation.permissions
  | _ => none

/-- The operation as it is read back. -/
def onWire : Operation → Operation
  | .setInfo operation =>
    .setInfo { operation with
      defaultPermission := operation.defaultPermission.map Permissions.onWire }
  | .modifyPermissions operation =>
    .modifyPermissions
      { operation with permissions := operation.permissions.map Permissions.onWire }
  | .manageCertificate operation => .manageCertificate operation.canonical
  | operation => operation

def Discernible : Operation → Prop
  | .manageCertificate operation => operation.Discernible
  | _ => True

end Operation

@[simp]
theorem ManageCertificate.canonicalCertificateOrHash_canonical (operation : ManageCertificate) :
    operation.canonical.canonicalCertificateOrHash = operation.canonicalCertificateOrHash := by
  obtain ⟨method, certificateOrHash, intermediates⟩ := operation
  cases method <;> cases certificateOrHash <;> rfl

@[simp]
theorem ManageCertificate.canonical_canonical (operation : ManageCertificate) :
    operation.canonical.canonical = operation.canonical := by
  simp only [canonical, ManageCertificate.mk.injEq, true_and, and_true]
  exact operation.canonicalCertificateOrHash_canonical

@[simp]
theorem ManageCertificate.toHash_canonical (operation : ManageCertificate) :
    operation.canonical.certificateOrHash.toHash = operation.certificateOrHash.toHash := by
  obtain ⟨method, certificateOrHash, intermediates⟩ := operation
  cases method <;> cases certificateOrHash <;> rfl

namespace Operation

@[simp]
theorem canonical_onWire (operation : Operation) :
    operation.onWire.canonical = operation.onWire := by
  cases operation <;> simp [onWire, canonical]

/-- **An operation is read back in canonical form exactly when `ACCESS` is in place in
its permissions.** -/
theorem onWire_eq_canonical_iff (operation : Operation) :
    operation.onWire = operation.canonical ↔
      ∀ p ∈ operation.permissionSet, AccessInPlace p.base.flags := by
  cases operation with
  | setInfo operation =>
    rw [permissionSet, ← Permissions.map_onWire_eq_iff]
    cases operation
    simp [onWire, canonical]
  | modifyPermissions operation =>
    rw [permissionSet, ← Permissions.map_onWire_eq_iff]
    cases operation
    simp [onWire, canonical]
  | _ => simp [onWire, canonical, permissionSet]

theorem canonical_eq_iff_of_onWire_eq {a b : Operation} (h : a.onWire = b.onWire) :
    a.canonical = b.canonical ↔ ∀ p ∈ a.permissionSet, ∀ q ∈ b.permissionSet,
      (AccessInPlace p.base.flags ↔ AccessInPlace q.base.flags) := by
  cases a <;> cases b <;>
    simp only [onWire, reduceCtorEq, setInfo.injEq, modifyPermissions.injEq] at h
  case setInfo.setInfo a b =>
    obtain ⟨nameA, descriptionA, metadataA, permissionA⟩ := a
    obtain ⟨nameB, descriptionB, metadataB, permissionB⟩ := b
    simp only [SetInfo.mk.injEq] at h
    obtain ⟨rfl, rfl, rfl, hpermission⟩ := h
    rw [permissionSet, permissionSet, ← Permissions.eq_iff_of_map_onWire hpermission]
    simp [canonical]
  case modifyPermissions.modifyPermissions a b =>
    obtain ⟨principalA, methodA, permissionsA, targetA⟩ := a
    obtain ⟨principalB, methodB, permissionsB, targetB⟩ := b
    simp only [ModifyPermissions.mk.injEq] at h
    obtain ⟨rfl, rfl, hpermissions, rfl⟩ := h
    rw [permissionSet, permissionSet, ← Permissions.eq_iff_of_map_onWire hpermissions]
    simp [canonical]
  all_goals simp [canonical, permissionSet, h]

end Operation

/-! ## Validation sees no difference -/

/-- The context of the operations as they are read back. -/
def OperationContext.onWire (ctx : OperationContext) : OperationContext :=
  { ctx with operations := ctx.operations.map Operation.onWire }

section Validation

variable (ctx : OperationContext)

theorem iterType_setRep_onWire :
    ctx.onWire.iterType Operation.asSetRep = ctx.iterType Operation.asSetRep := by
  simp only [OperationContext.iterType, OperationContext.onWire, List.filterMap_map]
  congr 1
  funext operation
  cases operation <;> rfl

/-- Only the permissions of a modification change. -/
theorem iterType_modifyPermissions_onWire :
    ctx.onWire.iterType Operation.asModifyPermissions =
      (ctx.iterType Operation.asModifyPermissions).map fun operation =>
        { operation with permissions := operation.permissions.map Permissions.onWire } := by
  simp only [OperationContext.iterType, OperationContext.onWire, List.filterMap_map,
    List.map_filterMap]
  congr 1
  funext operation
  cases operation <;> rfl

theorem iterType_manageCertificate_onWire :
    ctx.onWire.iterType Operation.asManageCertificate =
      (ctx.iterType Operation.asManageCertificate).map ManageCertificate.canonical := by
  simp only [OperationContext.iterType, OperationContext.onWire, List.filterMap_map,
    List.map_filterMap]
  congr 1
  funext operation
  cases operation <;> rfl

theorem rejectDuplicateSetFrom_onWire (account : GenericAccount) (found : List (String × String))
    (operations : List ModifyPermissions) :
    rejectDuplicateSetFrom account found (operations.map fun operation =>
        { operation with permissions := operation.permissions.map Permissions.onWire }) =
      rejectDuplicateSetFrom account found operations := by
  induction operations generalizing found with
  | nil => rfl
  | cons operation operations ih =>
    simp only [List.map_cons, rejectDuplicateSetFrom, ih]
    rfl

theorem SetInfo.validate_onWire (operation : SetInfo) :
    SetInfo.validate ctx.onWire { operation with
        defaultPermission := operation.defaultPermission.map Permissions.onWire } =
      operation.validate ctx := by
  have hdefault : SetInfo.checkDefaultPermission ctx.onWire { operation with
      defaultPermission := operation.defaultPermission.map Permissions.onWire } =
        operation.checkDefaultPermission ctx := by
    cases h : operation.defaultPermission with
    | none =>
      simp only [SetInfo.checkDefaultPermission, h, Option.map_none]
      rfl
    | some permission =>
      simp only [SetInfo.checkDefaultPermission, h, Option.map_some, Permissions.onWire_base,
        Permissions.onWire_external, BaseSet.isValidForDefault_onWire,
        BaseSet.checkAccountMatchesGroup_onWire]
      rfl
  simp only [SetInfo.validate, hdefault]
  rfl

theorem ModifyPermissions.validatePayload_onWire (operation : ModifyPermissions)
    (permissions : Permissions) :
    ModifyPermissions.validatePayload ctx.onWire { operation with
        permissions := operation.permissions.map Permissions.onWire } permissions.onWire =
      operation.validatePayload ctx permissions := by
  simp [ModifyPermissions.validatePayload, ModifyPermissions.checkPrincipal,
    ModifyPermissions.checkTarget, OperationContext.onWire, OperationContext.requireConfig]

theorem ModifyPermissions.validate_onWire (operation : ModifyPermissions) :
    ModifyPermissions.validate ctx.onWire { operation with
        permissions := operation.permissions.map Permissions.onWire } =
      operation.validate ctx := by
  have hpermissions : ModifyPermissions.checkPermissions ctx.onWire { operation with
      permissions := operation.permissions.map Permissions.onWire } =
        operation.checkPermissions ctx := by
    cases h : operation.permissions with
    | none => simp [ModifyPermissions.checkPermissions, h]
    | some permissions =>
      simp only [ModifyPermissions.checkPermissions, h, Option.map_some]
      have := operation.validatePayload_onWire ctx permissions
      rwa [h, Option.map_some] at this
  have hduplicate : ModifyPermissions.rejectDuplicateSet ctx.onWire =
      ModifyPermissions.rejectDuplicateSet ctx := by
    simp only [ModifyPermissions.rejectDuplicateSet, iterType_modifyPermissions_onWire]
    exact rejectDuplicateSetFrom_onWire _ _ _
  simp only [ModifyPermissions.validate, hpermissions, hduplicate]

variable [X509]

theorem ManageCertificate.validate_onWire (operation : ManageCertificate) :
    ManageCertificate.validate ctx.onWire operation.canonical = operation.validate ctx := by
  have hduplicate : ManageCertificate.rejectDuplicate ctx.onWire =
      ManageCertificate.rejectDuplicate ctx := by
    simp [ManageCertificate.rejectDuplicate, iterType_manageCertificate_onWire, Function.comp_def]
  -- only a removal changes, and a removal's certificate is not looked into
  have hmethod : ManageCertificate.checkMethod ctx.onWire operation.canonical =
      operation.checkMethod ctx := by
    obtain ⟨method, certificateOrHash, intermediates⟩ := operation
    cases method <;> cases certificateOrHash <;> rfl
  simp only [ManageCertificate.validate, hduplicate, hmethod]
  rfl

/-- **The wire form of an operation passes exactly the checks the operation passes.** -/
theorem Operation.validate_onWire (operation : Operation) :
    operation.onWire.validate ctx.onWire = operation.validate ctx := by
  cases operation with
  | setRep operation =>
    simp only [onWire, Operation.validate, SetRep.validate, iterType_setRep_onWire]
    rfl
  | setInfo operation => exact operation.validate_onWire ctx
  | modifyPermissions operation => exact operation.validate_onWire ctx
  | manageCertificate operation => exact operation.validate_onWire ctx
  | _ => rfl

omit [X509] in
@[simp]
theorem Operation.isSend_onWire (operation : Operation) :
    operation.onWire.isSend = operation.isSend := by
  cases operation <;> rfl

/-- An addition that passes its checks carries a certificate, which is longer than a hash. -/
theorem Operation.discernible_of_validate [LawfulX509] {operation : Operation}
    (h : operation.validate ctx = .ok ()) : operation.Discernible := by
  cases operation with
  | manageCertificate operation =>
    simp only [Operation.validate, ManageCertificate.validate, bind_eq_ok, rejectIf_eq_ok] at h
    obtain ⟨_, hset, _, -, _, hmethod, -⟩ := h
    obtain ⟨method, certificateOrHash, intermediates⟩ := operation
    intro certificate hcanonical
    cases method with
    | set => exact absurd rfl hset
    | subtract => cases certificateOrHash <;> cases hcanonical
    | add =>
      -- a certificate that is parsed has not the length of a hash
      cases hcanonical
      simp only [ManageCertificate.checkMethod, if_true, ManageCertificate.checkAddition,
        bind_eq_ok] at hmethod
      obtain ⟨parsed, hparsed, -⟩ := hmethod
      simp only [CertificateDer.toCertificate, asCertificateError] at hparsed
      split at hparsed <;> rename_i hx
      · exact Nat.ne_of_gt (LawfulX509.length_of_tryFrom hx)
      · cases hparsed
  | _ => trivial

end Validation

end KeetaNode
