import KeetaNode.Asn1.Time

/-!
# Transport form of blocks

The neutral domain types of `keetanetwork-asn1/src/block/types.rs`, which the
block codec writes and reads.
-/

namespace KeetaNode.Asn1

open ByteCodec

/-- Pair of base/external permission bitmasks. -/
structure Permissions where
  base : Int
  external : Int
  deriving DecidableEq, Repr

/-- Optional `Permissions` slot in MODIFY_PERMISSIONS operations. -/
inductive PermissionsOrNull where
  | permissions (value : Permissions)
  | null
  deriving DecidableEq, Repr

/-- Principal of a permissions grant. -/
inductive ModifyPermissionsPrincipal where
  | account (bytes : Bytes)
  | certificate (hash account : Bytes)
  deriving DecidableEq, Repr

/-- Multisig arguments carried inside a CREATE_IDENTIFIER operation. -/
structure MultisigArguments where
  signers : List Bytes
  quorum : Int
  deriving DecidableEq, Repr

/-- Optional intermediate-certificate slot in MANAGE_CERTIFICATE operations. -/
inductive IntermediateCertificates where
  | null
  | bundle (certificates : List Bytes)
  deriving DecidableEq, Repr

structure SendOp where
  recipient : Bytes
  amount : Int
  token : Bytes
  external : Option String
  deriving DecidableEq, Repr

structure SetRepOp where
  recipient : Bytes
  deriving DecidableEq, Repr

structure SetInfoOp where
  name : String
  description : String
  metadata : String
  defaultPermission : Option Permissions
  deriving DecidableEq, Repr

structure ModifyPermissionsOp where
  principal : ModifyPermissionsPrincipal
  method : Int
  permissions : PermissionsOrNull
  target : Option Bytes
  deriving DecidableEq, Repr

structure CreateIdentifierOp where
  identifier : Bytes
  multisig : Option MultisigArguments
  deriving DecidableEq, Repr

structure TokenAdminSupplyOp where
  amount : Int
  method : Int
  deriving DecidableEq, Repr

structure TokenAdminModifyBalanceOp where
  token : Bytes
  amount : Int
  method : Int
  deriving DecidableEq, Repr

structure ReceiveOp where
  amount : Int
  token : Bytes
  sender : Bytes
  isExact : Bool
  forward : Option Bytes
  deriving DecidableEq, Repr

structure ManageCertificateOp where
  method : Int
  certificateOrHash : Bytes
  intermediateCertificates : Option IntermediateCertificates
  deriving DecidableEq, Repr

/-- Operation discriminated on the transport by context tag `[0..=8] EXPLICIT`. -/
inductive Operation where
  | send (op : SendOp)
  | setRep (op : SetRepOp)
  | setInfo (op : SetInfoOp)
  | modifyPermissions (op : ModifyPermissionsOp)
  | createIdentifier (op : CreateIdentifierOp)
  | tokenAdminSupply (op : TokenAdminSupplyOp)
  | tokenAdminModifyBalance (op : TokenAdminModifyBalanceOp)
  | receive (op : ReceiveOp)
  | manageCertificate (op : ManageCertificateOp)
  deriving DecidableEq, Repr

/-- Block signer slot: a tree whose inner nodes are multisig addresses. -/
inductive Signer where
  /-- `NULL` placeholder used by V2 when the signer equals the account. -/
  | empty
  | single (account : Bytes)
  | multisig (address : Bytes) (signers : List Signer)

/-- A multisig node, as the tree codec takes and returns it. -/
structure MultisigSigner where
  address : Bytes
  signers : List Signer

/-- The signer a multisig node stands for. -/
def MultisigSigner.toSigner (multi : MultisigSigner) : Signer :=
  .multisig multi.address multi.signers

/-- Block signature(s). -/
inductive Signatures where
  | single (bytes : Bytes)
  | multiple (items : List Bytes)
  deriving DecidableEq, Repr

/-- Optional-or-`NULL` `INTEGER` wrapper used by V1 fields. -/
inductive IntegerOrNull where
  | value (integer : Int)
  | null
  deriving DecidableEq, Repr

/-- Optional-or-`NULL` `OCTET STRING` wrapper used by V1 fields. -/
inductive OctetStringOrNull where
  | value (bytes : Bytes)
  | null
  deriving DecidableEq, Repr

/-- V1 block envelope (legacy single-signer transport format). -/
structure BlockV1 where
  version : Int
  network : Int
  subnet : IntegerOrNull
  idempotent : Option Bytes
  date : Asn1Time
  signer : Bytes
  account : OctetStringOrNull
  previous : Bytes
  operations : List Operation
  signature : Option Bytes
  deriving DecidableEq, Repr

/-- V2 block body, wrapped on the transport by `[1] EXPLICIT`. -/
structure BlockV2 where
  network : Int
  subnet : Option Int
  idempotent : Option Bytes
  date : Asn1Time
  purpose : Int
  account : Bytes
  signer : Signer
  previous : Bytes
  operations : List Operation
  signatures : Option Signatures

/-- Either a V1 or V2 transport block. -/
inductive Block where
  | v1 (value : BlockV1)
  | v2 (value : BlockV2)

/-! ## Signer trees -/

/-- Induction over signer trees, with the children's hypothesis for every child. -/
@[elab_as_elim]
theorem Signer.treeInduction {motive : Signer → Prop} (empty : motive .empty)
    (single : ∀ account, motive (.single account))
    (multisig : ∀ address signers, (∀ s ∈ signers, motive s) → motive (.multisig address signers)) :
    ∀ signer, motive signer
  | .empty => empty
  | .single account => single account
  | .multisig address signers => multisig address signers (children signers)
where
  /-- The same for every tree of a list. -/
  children : ∀ signers : List Signer, ∀ s ∈ signers, motive s
    | [], _, hs => absurd hs List.not_mem_nil
    | t :: signers, s, hs =>
      match List.mem_cons.mp hs with
      | .inl h => h ▸ Signer.treeInduction empty single multisig t
      | .inr h => children signers s h

mutual

/-- No node of the tree is the `NULL` placeholder. -/
def Signer.IsNonempty : Signer → Prop
  | .empty => False
  | .single _ => True
  | .multisig _ signers => allNonempty signers

/-- No node of any of the trees is the `NULL` placeholder. -/
def allNonempty : List Signer → Prop
  | [] => True
  | s :: signers => s.IsNonempty ∧ allNonempty signers

end

end KeetaNode.Asn1
