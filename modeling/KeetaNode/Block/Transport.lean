import KeetaNode.Block.Validation
import KeetaNode.Asn1.Block.Codec

/-!
# Blocks on the wire

Conversions between block data and the transport types of `keetanetwork-asn1`, and
the encoding and decoding of whole blocks.

- `keetanetwork-block/src/transport.rs`

The conversions to transport types of the source that cannot fail are plain
functions here.
-/

namespace KeetaNode

open ByteCodec
open Asn1 (Tag Asn1Error Chrono)

variable [Crypto]

/-! ## Primitive helpers -/

def asCodecError {α : Type} : Except Asn1Error α → Except BlockError α
  | .ok a => .ok a
  | .error e => .error (.codec e)

def accountBytes (account : GenericAccount) : Bytes := account.toPublicKeyWithType

/-- `parse_account_with_type`: a kind octet followed by the key. -/
def parseAccount (bytes : Bytes) : Except BlockError GenericAccount :=
  asAccountError (GenericAccount.fromHex (hexEncode bytes))

def parseOptionalAccount : Option Bytes → Except BlockError (Option GenericAccount)
  | some bytes => do return some (← parseAccount bytes)
  | none => .ok none

def blockhashFromBytes (bytes : Bytes) : Except BlockError BlockHash :=
  match Octets.ofBytes 32 bytes with
  | some hash => .ok hash
  | none => .error (.crypto .invalidKeySize)

def signatureFromBytes (bytes : Bytes) : Except BlockError Signature :=
  match Octets.ofBytes 64 bytes with
  | some signature => .ok signature
  | none => .error (.invalidSignatureLength bytes.length)

/-! ## Permissions -/

def permissionsToTransport (value : Permissions) : Asn1.Permissions :=
  ⟨value.base.bits, value.external⟩

def permissionsFromTransport (value : Asn1.Permissions) : Except BlockError Permissions :=
  Permissions.fromBigints value.base value.external

def optionalPermissionsFromTransport :
    Option Asn1.Permissions → Except BlockError (Option Permissions)
  | some permissions => do return some (← permissionsFromTransport permissions)
  | none => .ok none

/-! ## MODIFY_PERMISSIONS -/

def principalToTransport : ModifyPermissionsPrincipal → Asn1.ModifyPermissionsPrincipal
  | .account account => .account (accountBytes account)
  | .certificate hash account => .certificate hash.bytes (accountBytes account)

def principalFromTransport :
    Asn1.ModifyPermissionsPrincipal → Except BlockError ModifyPermissionsPrincipal
  | .account bytes => do return .account (← parseAccount bytes)
  | .certificate hashBytes account =>
    match Octets.ofBytes 32 hashBytes with
    | none => .error .invalidPrincipal
    | some hash => do return .certificate hash (← parseAccount account)

def permissionsOrNullToTransport : Option Permissions → Asn1.PermissionsOrNull
  | some permissions => .permissions (permissionsToTransport permissions)
  | none => .null

def permissionsOrNullFromTransport :
    Asn1.PermissionsOrNull → Except BlockError (Option Permissions)
  | .permissions permissions => do return some (← permissionsFromTransport permissions)
  | .null => .ok none

def modifyPermissionsToTransport (value : ModifyPermissions) : Asn1.ModifyPermissionsOp where
  principal := principalToTransport value.principal
  method := value.method.toBigint
  permissions := permissionsOrNullToTransport value.permissions
  target := value.target.map accountBytes

def modifyPermissionsFromTransport (value : Asn1.ModifyPermissionsOp) :
    Except BlockError ModifyPermissions := do
  let principal ← principalFromTransport value.principal
  let permissions ← permissionsOrNullFromTransport value.permissions
  let method ← AdjustMethod.tryFrom value.method
  let target ← parseOptionalAccount value.target
  return { principal, method, permissions, target }

/-! ## CREATE_IDENTIFIER -/

def createArgumentsToTransport : IdentifierCreateArguments → Asn1.MultisigArguments
  | .multisig arguments => ⟨arguments.signers.map accountBytes, arguments.quorum⟩

def createIdentifierToTransport (value : CreateIdentifier) : Asn1.CreateIdentifierOp where
  identifier := accountBytes value.identifier
  multisig := value.createArguments.map createArgumentsToTransport

def createArgumentsFromTransport :
    Option Asn1.MultisigArguments → Except BlockError (Option IdentifierCreateArguments)
  | none => .ok none
  | some arguments => do
    let signers ← arguments.signers.mapM parseAccount
    return some (.multisig ⟨signers, arguments.quorum⟩)

def createIdentifierFromTransport (value : Asn1.CreateIdentifierOp) :
    Except BlockError CreateIdentifier := do
  let identifier ← parseAccount value.identifier
  let createArguments ← createArgumentsFromTransport value.multisig
  return { identifier, createArguments }

/-! ## MANAGE_CERTIFICATE -/

/-- A certificate and a hash share one field. -/
def certificateOrHashToTransport : CertificateOrHash → Bytes
  | .certificate certificate => certificate.bytes
  | .hash hash => hash.bytes

/-- What has the length of a hash is one. -/
def certificateOrHashFromTransport (bytes : Bytes) : CertificateOrHash :=
  match Octets.ofBytes 32 bytes with
  | some hash => .hash hash
  | none => .certificate ⟨bytes⟩

def intermediatesToTransport : IntermediateCertificates → Asn1.IntermediateCertificates
  | .none => .null
  | .bundle bundle => .bundle (bundle.map CertificateDer.bytes)

def intermediatesFromTransport : Asn1.IntermediateCertificates → IntermediateCertificates
  | .null => .none
  | .bundle bundle => .bundle (bundle.map CertificateDer.mk)

def manageCertificateToTransport (value : ManageCertificate) : Asn1.ManageCertificateOp where
  method := value.method.toBigint
  certificateOrHash := certificateOrHashToTransport value.canonicalCertificateOrHash
  intermediateCertificates := value.intermediateCertificates.map intermediatesToTransport

def manageCertificateFromTransport (value : Asn1.ManageCertificateOp) :
    Except BlockError ManageCertificate := do
  let method ← AdjustMethod.tryFrom value.method
  return {
    method
    certificateOrHash := certificateOrHashFromTransport value.certificateOrHash
    intermediateCertificates := value.intermediateCertificates.map intermediatesFromTransport }

/-! ## Operations -/

def operationToTransport : Operation → Asn1.Operation
  | .send op =>
    .send ⟨accountBytes op.recipient, op.amount, accountBytes op.token, op.external⟩
  | .setRep op => .setRep ⟨accountBytes op.recipient⟩
  | .setInfo op =>
    .setInfo ⟨op.name, op.description, op.metadata,
      op.defaultPermission.map permissionsToTransport⟩
  | .modifyPermissions op => .modifyPermissions (modifyPermissionsToTransport op)
  | .createIdentifier op => .createIdentifier (createIdentifierToTransport op)
  | .tokenAdminSupply op => .tokenAdminSupply ⟨op.amount, op.method.toBigint⟩
  | .tokenAdminModifyBalance op =>
    .tokenAdminModifyBalance ⟨accountBytes op.token, op.amount, op.method.toBigint⟩
  | .receive op =>
    .receive ⟨op.amount, accountBytes op.token, accountBytes op.sender, op.isExact,
      op.forward.map accountBytes⟩
  | .manageCertificate op => .manageCertificate (manageCertificateToTransport op)

def operationFromTransport : Asn1.Operation → Except BlockError Operation
  | .send op => do
    let recipient ← parseAccount op.recipient
    let token ← parseAccount op.token
    return .send ⟨recipient, op.amount, token, op.external⟩
  | .setRep op => do return .setRep ⟨← parseAccount op.recipient⟩
  | .setInfo op => do
    let permission ← optionalPermissionsFromTransport op.defaultPermission
    return .setInfo ⟨op.name, op.description, op.metadata, permission⟩
  | .modifyPermissions op => do return .modifyPermissions (← modifyPermissionsFromTransport op)
  | .createIdentifier op => do return .createIdentifier (← createIdentifierFromTransport op)
  | .tokenAdminSupply op => do
    let method ← AdjustMethod.tryFrom op.method
    return .tokenAdminSupply ⟨op.amount, method⟩
  | .tokenAdminModifyBalance op => do
    let token ← parseAccount op.token
    let method ← AdjustMethod.tryFrom op.method
    return .tokenAdminModifyBalance ⟨token, op.amount, method⟩
  | .receive op => do
    let token ← parseAccount op.token
    let sender ← parseAccount op.sender
    let forward ← parseOptionalAccount op.forward
    return .receive ⟨op.amount, token, sender, op.isExact, forward⟩
  | .manageCertificate op => do return .manageCertificate (← manageCertificateFromTransport op)

/-! ## Signer trees -/

mutual

def buildSigner : Signer → Asn1.Signer
  | .single account => .single (accountBytes account)
  | .multisig address signers => .multisig (accountBytes address) (buildSigners signers)

/-- The members of a multisig node. -/
def buildSigners : List Signer → List Asn1.Signer
  | [] => []
  | signer :: signers => buildSigner signer :: buildSigners signers

end

/-- Multisig signer tree depth limit enforced during decoding. -/
def maxParseSignerDepth : Nat := 3

mutual

/-- `parse_signer`: a child of a multisig node, at its depth. A leaf must be a keyed
account. -/
def parseSigner (depth : Nat) : Asn1.Signer → Except BlockError Signer
  | .single bytes => do
    let account ← parseAccount bytes
    rejectIf (account.keyType.supportsCrypto = false) .malformedSigner
    return .single account
  | .multisig address signers => do
    rejectIf (depth > maxParseSignerDepth)
      (.multisigSignerDepthExceeded depth maxParseSignerDepth)
    let address ← parseAccount address
    rejectIf (address.keyType ≠ .multisig) .malformedSigner
    return .multisig address (← parseSigners (depth + 1) signers)
  | .empty => .error .malformedSigner

/-- The members of a multisig node, in order. -/
def parseSigners (depth : Nat) : List Asn1.Signer → Except BlockError (List Signer)
  | [] => .ok []
  | signer :: signers => do
    let parsed ← parseSigner depth signer
    return parsed :: (← parseSigners depth signers)

end

/-- `parse_multisig` at the root, which is at depth 1 and not checked for it. -/
def parseMultisig (address : Bytes) (signers : List Asn1.Signer) : Except BlockError Signer := do
  let address ← parseAccount address
  rejectIf (address.keyType ≠ .multisig) .malformedSigner
  return .multisig address (← parseSigners 2 signers)

/-! ## Version 1 -/

def subnetToTransport : Option Int → Asn1.IntegerOrNull
  | some value => .value value
  | none => .null

def subnetFromTransport : Asn1.IntegerOrNull → Option Int
  | .value integer => some integer
  | .null => none

/-- A version 1 block has one signature or none. -/
def signatureToTransport : Option (List Signature) → Except BlockError (Option Bytes)
  | none => .ok none
  | some [only] => .ok (some only.bytes)
  | some _ => .error .v1SingleSignerOnly

def signatureFromTransport : Option Bytes → Except BlockError (Option (List Signature))
  | none => .ok none
  | some bytes => do return some [← signatureFromBytes bytes]

/-- The account is written only when it is not the signer. -/
def accountToTransport (account signer : GenericAccount) : Asn1.OctetStringOrNull :=
  if accountsEqual account signer then .null else .value (accountBytes account)

def accountFromTransport (signer : GenericAccount) :
    Asn1.OctetStringOrNull → Except BlockError GenericAccount
  | .null => .ok signer
  | .value bytes => do
    let parsed ← parseAccount bytes
    rejectIf (accountsEqual parsed signer = true) .redundantAccountField
    return parsed

def buildBlockV1 (data : BlockData) (signatures : Option (List Signature)) :
    Except BlockError Asn1.BlockV1 :=
  match data.signer with
  | .multisig _ _ => .error .v1SingleSignerOnly
  | .single signer => do
    let signature ← signatureToTransport signatures
    return {
      version := 0
      network := data.network
      subnet := subnetToTransport data.subnet
      idempotent := data.idempotent
      date := data.date
      signer := accountBytes signer
      account := accountToTransport data.account signer
      previous := data.previous.bytes
      operations := data.operations.map operationToTransport
      signature }

def blockV1ToParts (value : Asn1.BlockV1) :
    Except BlockError (BlockData × Option (List Signature)) := do
  rejectIf (value.version ≠ 0) .invalidVersion
  let signer ← parseAccount value.signer
  let account ← accountFromTransport signer value.account
  let signatures ← signatureFromTransport value.signature
  let previous ← blockhashFromBytes value.previous
  let operations ← value.operations.mapM operationFromTransport
  return ({
    version := .v1
    purpose := .generic
    network := value.network
    subnet := subnetFromTransport value.subnet
    idempotent := value.idempotent
    date := value.date
    account
    signer := .single signer
    previous
    operations }, signatures)

/-! ## Version 2 -/

/-- The signer is written only when it is not the account. -/
def signerToTransport (account : GenericAccount) : Signer → Asn1.Signer
  | .single signer =>
    if accountsEqual signer account then .empty else .single (accountBytes signer)
  | .multisig address signers => .multisig (accountBytes address) (buildSigners signers)

def signerFromTransport (account : GenericAccount) : Asn1.Signer → Except BlockError Signer
  | .empty => .ok (.single account)
  | .single bytes => do
    let signer ← parseAccount bytes
    rejectIf (accountsEqual signer account = true) .redundantAccountField
    return .single signer
  | .multisig address signers => parseMultisig address signers

/-- One signature is an octet string, several are a sequence. -/
def signaturesToTransport :
    Option (List Signature) → Except BlockError (Option Asn1.Signatures)
  | none => .ok none
  | some [] => .error .signatureRequired
  | some [only] => .ok (some (.single only.bytes))
  | some many => .ok (some (.multiple (many.map Octets.bytes)))

def signaturesFromTransport :
    Option Asn1.Signatures → Except BlockError (Option (List Signature))
  | none => .ok none
  | some (.single bytes) => do return some [← signatureFromBytes bytes]
  | some (.multiple many) => do
    rejectIf (many.length ≤ 1) .invalidSignatureSequence
    return some (← many.mapM signatureFromBytes)

def buildBlockV2 (data : BlockData) (signatures : Option (List Signature)) :
    Except BlockError Asn1.BlockV2 := do
  let signatures ← signaturesToTransport signatures
  return {
    network := data.network
    subnet := data.subnet
    idempotent := data.idempotent
    date := data.date
    purpose := data.purpose.toBigint
    account := accountBytes data.account
    signer := signerToTransport data.account data.signer
    previous := data.previous.bytes
    operations := data.operations.map operationToTransport
    signatures }

def blockV2ToParts (value : Asn1.BlockV2) :
    Except BlockError (BlockData × Option (List Signature)) := do
  let account ← parseAccount value.account
  let signer ← signerFromTransport account value.signer
  let signatures ← signaturesFromTransport value.signatures
  let purpose ← BlockPurpose.tryFrom value.purpose
  let previous ← blockhashFromBytes value.previous
  let operations ← value.operations.mapM operationFromTransport
  return ({
    version := .v2
    purpose
    network := value.network
    subnet := value.subnet
    idempotent := value.idempotent
    date := value.date
    account
    signer
    previous
    operations }, signatures)

/-! ## Whole blocks -/

/-- The transport block of the data's version. -/
def buildBlock (data : BlockData) (signatures : Option (List Signature)) :
    Except BlockError Asn1.Block :=
  match data.version with
  | .v1 => do return .v1 (← buildBlockV1 data signatures)
  | .v2 => do return .v2 (← buildBlockV2 data signatures)

def blockToParts : Asn1.Block → Except BlockError (BlockData × Option (List Signature))
  | .v1 value => blockV1ToParts value
  | .v2 value => blockV2ToParts value

variable [Tlv Tag Asn1Error] [Chrono]

omit [Chrono] in
def encodeBlock (data : BlockData) (signatures : Option (List Signature)) :
    Except BlockError Bytes := do
  asCodecError (Asn1.encodeBlock (← buildBlock data signatures))

def decodeBlock (bytes : Bytes) : Except BlockError (BlockData × Option (List Signature)) := do
  blockToParts (← asCodecError (Asn1.decodeBlock bytes))

end KeetaNode
