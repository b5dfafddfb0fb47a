import KeetaNode.Asn1.Block.SignerTree

/-!
# Block codec

The `der`-backed writer and reader of
`keetanetwork-asn1/src/block/codec/der_codec.rs`, function by function. A writer
appends to the bytes it is given; a reader consumes its input from the left.
-/

namespace KeetaNode.Asn1

open ByteCodec

variable [Tlv Tag Asn1Error]

/-- Context tag number of the V2 block wrapper. -/
def v2Tag : Fin 31 := 1
/-- Context tag of a certificate principal in MODIFY_PERMISSIONS. -/
def certificatePrincipalTag : Fin 31 := 1
/-- Context tag of multisig create arguments (the MULTISIG key type value). -/
def multisigArgumentsTag : Fin 31 := 7

/-- The content of the one SEQUENCE that fills `content`. -/
def soleSequence (content : Bytes) : Except Asn1Error Bytes :=
  within content (toEnd invalidBlock readSequence)

/-! ## `IntegerOrNull` and `OctetStringOrNull` -/

def encodeIntegerOrNull (out : Bytes) : IntegerOrNull → Except Asn1Error Bytes
  | .value integer => encodeBigint out integer
  | .null => encodeNull out

def decodeIntegerOrNull : Reader Asn1Error IntegerOrNull := do
  match (← peekTag) with
  | .integer => return .value (← readBigint)
  | .null =>
    readNull
    return .null
  | other => throw (unexpectedTag other)

def encodeOctetOrNull (out : Bytes) : OctetStringOrNull → Except Asn1Error Bytes
  | .value bytes => encodeOctet out bytes
  | .null => encodeNull out

def decodeOctetOrNull : Reader Asn1Error OctetStringOrNull := do
  match (← peekTag) with
  | .octetString => return .value (← readOctet)
  | .null =>
    readNull
    return .null
  | other => throw (unexpectedTag other)

/-! ## Signer and signatures -/

def encodeSigner (out : Bytes) : Signer → Except Asn1Error Bytes
  | .empty => encodeNull out
  | .single bytes => encodeOctet out bytes
  | .multisig address signers => do
    return out ++ (← encodeMultisigSigner ⟨address, signers⟩)

def decodeSigner : Reader Asn1Error Signer := do
  match (← peekTag) with
  | .null =>
    readNull
    return .empty
  | .octetString => return .single (← readOctet)
  | .sequence =>
    let content ← readSequence
    let multi ← decodeMultisigSigner content
    return multi.toSigner
  | other => throw (unexpectedTag other)

def encodeSignatures (out : Bytes) : Signatures → Except Asn1Error Bytes
  | .single bytes => encodeOctet out bytes
  | .multiple items => do
    let content ← appendEach encodeOctet [] items
    return out ++ (← wrapSequence content)

def decodeSignatures : Reader Asn1Error Signatures := do
  match (← peekTag) with
  | .octetString => return .single (← readOctet)
  | .sequence =>
    let content ← readSequence
    return .multiple (← within content (untilFinished readOctet))
  | other => throw (unexpectedTag other)

/-! ## Permissions -/

def encodePermissions (out : Bytes) (value : Permissions) : Except Asn1Error Bytes := do
  let content ← encodeBigint [] value.base
  let content ← encodeBigint content value.external
  return out ++ (← wrapSequence content)

def permissionsFields : Reader Asn1Error Permissions := do
  let base ← readBigint
  let external ← readBigint
  return { base, external }

def readPermissions : Reader Asn1Error Permissions := do
  let content ← readSequence
  within content (toEnd invalidBlock permissionsFields)

/-! ## Operation fields -/

def encodeSend (out : Bytes) (op : SendOp) : Except Asn1Error Bytes := do
  let out ← encodeOctet out op.recipient
  let out ← encodeBigint out op.amount
  let out ← encodeOctet out op.token
  appendOptional encodeUtf8 out op.external

def decodeSend : Reader Asn1Error SendOp := do
  let recipient ← readOctet
  let amount ← readBigint
  let token ← readOctet
  let external ← optionalRest readUtf8
  return { recipient, amount, token, external }

def encodeSetRep (out : Bytes) (op : SetRepOp) : Except Asn1Error Bytes :=
  encodeOctet out op.recipient

def decodeSetRep : Reader Asn1Error SetRepOp := do
  let recipient ← readOctet
  return { recipient }

def encodeSetInfo (out : Bytes) (op : SetInfoOp) : Except Asn1Error Bytes := do
  let out ← encodeUtf8 out op.name
  let out ← encodeUtf8 out op.description
  let out ← encodeUtf8 out op.metadata
  appendOptional encodePermissions out op.defaultPermission

def decodeSetInfo : Reader Asn1Error SetInfoOp := do
  let name ← readUtf8
  let description ← readUtf8
  let metadata ← readUtf8
  let defaultPermission ← optionalRest readPermissions
  return { name, description, metadata, defaultPermission }

def encodePrincipal (out : Bytes) : ModifyPermissionsPrincipal → Except Asn1Error Bytes
  | .account bytes => encodeOctet out bytes
  | .certificate hash account => do
    let content ← encodeOctet [] hash
    let content ← encodeOctet content account
    let sequence ← wrapSequence content
    return out ++ (← wrapContext certificatePrincipalTag sequence)

def certificatePrincipalFields : Reader Asn1Error ModifyPermissionsPrincipal := do
  let hash ← readOctet
  let account ← readOctet
  return .certificate hash account

def decodePrincipal : Reader Asn1Error ModifyPermissionsPrincipal := do
  match (← peekTag) with
  | .octetString => return .account (← readOctet)
  | .contextSpecific true number =>
    if number = certificatePrincipalTag then
      let (_, value) ← readAny
      let content ← soleSequence value
      within content (toEnd invalidBlock certificatePrincipalFields)
    else throw (unexpectedTag (.contextSpecific true number))
  | other => throw (unexpectedTag other)

def encodePermissionsOrNull (out : Bytes) : PermissionsOrNull → Except Asn1Error Bytes
  | .permissions permissions => encodePermissions out permissions
  | .null => encodeNull out

def decodePermissionsOrNull : Reader Asn1Error PermissionsOrNull := do
  match (← peekTag) with
  | .null =>
    readNull
    return .null
  | .sequence => return .permissions (← readPermissions)
  | other => throw (unexpectedTag other)

def encodeModifyPermissions (out : Bytes) (op : ModifyPermissionsOp) : Except Asn1Error Bytes := do
  let out ← encodePrincipal out op.principal
  let out ← encodeBigint out op.method
  let out ← encodePermissionsOrNull out op.permissions
  appendOptional encodeOctet out op.target

def decodeModifyPermissions : Reader Asn1Error ModifyPermissionsOp := do
  let principal ← decodePrincipal
  let method ← readBigint
  let permissions ← decodePermissionsOrNull
  let target ← optionalRest readOctet
  return { principal, method, permissions, target }

def encodeMultisigArguments (out : Bytes) (arguments : MultisigArguments) :
    Except Asn1Error Bytes := do
  let signers ← appendEach encodeOctet [] arguments.signers
  let content ← wrapSequence signers
  let content ← encodeBigint content arguments.quorum
  let sequence ← wrapSequence content
  return out ++ (← wrapContext multisigArgumentsTag sequence)

def multisigArgumentsFields : Reader Asn1Error MultisigArguments := do
  let signersContent ← readSequence
  let signers ← within signersContent (untilFinished readOctet)
  let quorum ← readBigint
  return { signers, quorum }

def decodeMultisigArguments : Reader Asn1Error MultisigArguments := do
  match (← peekTag) with
  | .contextSpecific true number =>
    if number = multisigArgumentsTag then
      let (_, value) ← readAny
      let content ← soleSequence value
      within content (toEnd invalidBlock multisigArgumentsFields)
    else throw (unexpectedTag (.contextSpecific true number))
  | other => throw (unexpectedTag other)

def encodeCreateIdentifier (out : Bytes) (op : CreateIdentifierOp) : Except Asn1Error Bytes := do
  let out ← encodeOctet out op.identifier
  appendOptional encodeMultisigArguments out op.multisig

def decodeCreateIdentifier : Reader Asn1Error CreateIdentifierOp := do
  let identifier ← readOctet
  let multisig ← optionalRest decodeMultisigArguments
  return { identifier, multisig }

def encodeTokenAdminSupply (out : Bytes) (op : TokenAdminSupplyOp) : Except Asn1Error Bytes := do
  let out ← encodeBigint out op.amount
  encodeBigint out op.method

def decodeTokenAdminSupply : Reader Asn1Error TokenAdminSupplyOp := do
  let amount ← readBigint
  let method ← readBigint
  return { amount, method }

def encodeTokenAdminModifyBalance (out : Bytes) (op : TokenAdminModifyBalanceOp) :
    Except Asn1Error Bytes := do
  let out ← encodeOctet out op.token
  let out ← encodeBigint out op.amount
  encodeBigint out op.method

def decodeTokenAdminModifyBalance : Reader Asn1Error TokenAdminModifyBalanceOp := do
  let token ← readOctet
  let amount ← readBigint
  let method ← readBigint
  return { token, amount, method }

def encodeReceive (out : Bytes) (op : ReceiveOp) : Except Asn1Error Bytes := do
  let out ← encodeBigint out op.amount
  let out ← encodeOctet out op.token
  let out ← encodeOctet out op.sender
  let out ← encodeBool out op.isExact
  appendOptional encodeOctet out op.forward

def decodeReceive : Reader Asn1Error ReceiveOp := do
  let amount ← readBigint
  let token ← readOctet
  let sender ← readOctet
  let isExact ← readBool
  let forward ← optionalRest readOctet
  return { amount, token, sender, isExact, forward }

def encodeIntermediateCertificates (out : Bytes) :
    IntermediateCertificates → Except Asn1Error Bytes
  | .null => encodeNull out
  | .bundle certificates => do
    let content ← appendEach encodeOctet [] certificates
    return out ++ (← wrapSequence content)

def decodeIntermediateCertificates : Reader Asn1Error IntermediateCertificates := do
  match (← peekTag) with
  | .null =>
    readNull
    return .null
  | .sequence =>
    let content ← readSequence
    return .bundle (← within content (untilFinished readOctet))
  | other => throw (unexpectedTag other)

def encodeManageCertificate (out : Bytes) (op : ManageCertificateOp) : Except Asn1Error Bytes := do
  let out ← encodeBigint out op.method
  let out ← encodeOctet out op.certificateOrHash
  appendOptional encodeIntermediateCertificates out op.intermediateCertificates

def decodeManageCertificate : Reader Asn1Error ManageCertificateOp := do
  let method ← readBigint
  let certificateOrHash ← readOctet
  let intermediateCertificates ← optionalRest decodeIntermediateCertificates
  return { method, certificateOrHash, intermediateCertificates }

/-! ## Operations -/

omit [Tlv Tag Asn1Error] in
def operationTag : Operation → Fin 31
  | .send _ => 0
  | .setRep _ => 1
  | .setInfo _ => 2
  | .modifyPermissions _ => 3
  | .createIdentifier _ => 4
  | .tokenAdminSupply _ => 5
  | .tokenAdminModifyBalance _ => 6
  | .receive _ => 7
  | .manageCertificate _ => 8

def encodeFields : Operation → Except Asn1Error Bytes
  | .send op => encodeSend [] op
  | .setRep op => encodeSetRep [] op
  | .setInfo op => encodeSetInfo [] op
  | .modifyPermissions op => encodeModifyPermissions [] op
  | .createIdentifier op => encodeCreateIdentifier [] op
  | .tokenAdminSupply op => encodeTokenAdminSupply [] op
  | .tokenAdminModifyBalance op => encodeTokenAdminModifyBalance [] op
  | .receive op => encodeReceive [] op
  | .manageCertificate op => encodeManageCertificate [] op

def encodeOperation (operation : Operation) : Except Asn1Error Bytes := do
  let fields ← encodeFields operation
  wrapContext (operationTag operation) (← wrapSequence fields)

def decodeFields (number : Fin 31) : Reader Asn1Error Operation := do
  match number.val with
  | 0 => return .send (← decodeSend)
  | 1 => return .setRep (← decodeSetRep)
  | 2 => return .setInfo (← decodeSetInfo)
  | 3 => return .modifyPermissions (← decodeModifyPermissions)
  | 4 => return .createIdentifier (← decodeCreateIdentifier)
  | 5 => return .tokenAdminSupply (← decodeTokenAdminSupply)
  | 6 => return .tokenAdminModifyBalance (← decodeTokenAdminModifyBalance)
  | 7 => return .receive (← decodeReceive)
  | 8 => return .manageCertificate (← decodeManageCertificate)
  | _ => throw invalidBlock

def decodeOperation : Reader Asn1Error Operation := do
  let (tag, value) ← readAny
  match tag with
  | .contextSpecific true number =>
    let content ← soleSequence value
    within content (toEnd invalidBlock (decodeFields number))
  | _ => throw invalidBlock

def encodeOperations (out : Bytes) (operations : List Operation) : Except Asn1Error Bytes := do
  let content ← appendEach (fun out operation => do return out ++ (← encodeOperation operation))
    [] operations
  return out ++ (← wrapSequence content)

def decodeOperations : Reader Asn1Error (List Operation) := do
  let content ← readSequence
  within content (untilFinished decodeOperation)

/-! ## Blocks -/

def encodeV1 (value : BlockV1) : Except Asn1Error Bytes := do
  let content ← encodeBigint [] value.version
  let content ← encodeBigint content value.network
  let content ← encodeIntegerOrNull content value.subnet
  let content ← appendOptional encodeOctet content value.idempotent
  let content ← encodeTime content value.date
  let content ← encodeOctet content value.signer
  let content ← encodeOctetOrNull content value.account
  let content ← encodeOctet content value.previous
  let content ← encodeOperations content value.operations
  let content ← appendOptional encodeOctet content value.signature
  wrapSequence content

def encodeV2 (body : BlockV2) : Except Asn1Error Bytes := do
  let content ← encodeBigint [] body.network
  let content ← appendOptional encodeBigint content body.subnet
  let content ← appendOptional encodeOctet content body.idempotent
  let content ← encodeTime content body.date
  let content ← encodeBigint content body.purpose
  let content ← encodeOctet content body.account
  let content ← encodeSigner content body.signer
  let content ← encodeOctet content body.previous
  let content ← encodeOperations content body.operations
  let content ← appendOptional encodeSignatures content body.signatures
  wrapContext v2Tag (← wrapSequence content)

def encodeBlock : Block → Except Asn1Error Bytes
  | .v1 value => encodeV1 value
  | .v2 value => encodeV2 value

variable [Chrono]

def v1Fields : Reader Asn1Error BlockV1 := do
  let version ← readBigint
  let network ← readBigint
  let subnet ← decodeIntegerOrNull
  let idempotent ← optionalTag .octetString readOctet
  let date ← readTime
  let signer ← readOctet
  let account ← decodeOctetOrNull
  let previous ← readOctet
  let operations ← decodeOperations
  let signature ← optionalRest readOctet
  return { version, network, subnet, idempotent, date, signer, account, previous, operations,
           signature }

def decodeV1 (bytes : Bytes) : Except Asn1Error BlockV1 := do
  let value ← within bytes (do
    let (tag, value) ← readAny
    rejectIf (tag ≠ .sequence) invalidBlock
    finished invalidBlock
    return value)
  within value (toEnd invalidBlock v1Fields)

def v2Fields : Reader Asn1Error BlockV2 := do
  let network ← readBigint
  let subnet ← optionalTag .integer readBigint
  let idempotent ← optionalTag .octetString readOctet
  let date ← readTime
  let purpose ← readBigint
  let account ← readOctet
  let signer ← decodeSigner
  let previous ← readOctet
  let operations ← decodeOperations
  let signatures ← optionalRest decodeSignatures
  return { network, subnet, idempotent, date, purpose, account, signer, previous, operations,
           signatures }

def decodeV2 (bytes : Bytes) : Except Asn1Error BlockV2 := do
  let value ← within bytes (do
    let (tag, value) ← readAny
    rejectIf (tag ≠ .contextSpecific true v2Tag) invalidBlock
    finished invalidBlock
    return value)
  let body ← soleSequence value
  within body (toEnd invalidBlock v2Fields)

/-- Dispatch on the outer tag (`0x30` for V1, `0xA1` for V2). -/
def decodeBlock (bytes : Bytes) : Except Asn1Error Block :=
  match bytes.head? with
  | some 0x30 => Block.v1 <$> decodeV1 bytes
  | some 0xA1 => Block.v2 <$> decodeV2 bytes
  | _ => .error invalidBlock

end KeetaNode.Asn1
