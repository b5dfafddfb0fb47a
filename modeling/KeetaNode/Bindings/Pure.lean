import KeetaNode.Bindings.Registry
import KeetaNode.Block.Amount
import KeetaNode.Block.Time
import KeetaNode.Vote.Fees
import KeetaNode.Vote.Staple

/-!
# The operations behind the flat interface

What the calls compute, apart from the handles: arguments are texts and numbers, and errors are
reduced to a code and a message.

- `keetanetwork-client-wasi/src/pure.rs`
- `keetanetwork-bindings/src/parse.rs`
-/

namespace KeetaNode.Bindings

open ByteCodec
open Asn1 (Tag Asn1Error Chrono OidCodec)

/-- The codes and messages of the errors of the other crates. -/
structure ErrorTexts where
  block : BlockError → CodedError
  vote : VoteError → CodedError
  account : AccountError → String

/-! ## Texts -/

inductive ParseError where
  | amount
  | adjustMethod
  | purpose
  | identifierType
  | permissionFlag

namespace ParseError

def code : ParseError → String
  | amount => "INVALID_AMOUNT"
  | adjustMethod => "INVALID_ADJUST_METHOD"
  | purpose => "INVALID_PURPOSE"
  | identifierType => "INVALID_IDENTIFIER_TYPE"
  | permissionFlag => "INVALID_PERMISSION_FLAG"

def message : ParseError → String
  | amount => "amount must be a decimal integer"
  | adjustMethod => "method must be add, subtract, or set"
  | purpose => "purpose must be generic or fee"
  | identifierType => "identifier type must be network, token, or storage"
  | permissionFlag => "unknown base permission flag"

def coded (error : ParseError) : CodedError := ⟨error.code, error.message⟩

end ParseError

def adjustMethod (method : String) : Except CodedError AdjustMethod :=
  match method with
  | "add" => .ok .add
  | "subtract" => .ok .subtract
  | "set" => .ok .set
  | _ => .error ParseError.adjustMethod.coded

/-- `purpose` of the parser, and `block_purpose`. -/
def blockPurpose (value : String) : Except CodedError BlockPurpose :=
  match value with
  | "generic" => .ok .generic
  | "fee" => .ok .fee
  | _ => .error ParseError.purpose.coded

def identifierType (kind : String) : Except CodedError KeyPairType :=
  match kind with
  | "network" => .ok .network
  | "token" => .ok .token
  | "storage" => .ok .storage
  | _ => .error ParseError.identifierType.coded

def blockTime (unixMillis : Int64) : Except CodedError BlockTime :=
  match KeetaNode.fromUnixMillis unixMillis.toInt with
  | some time => .ok time
  | none => .error ⟨"INVALID_DATE", "unix milliseconds out of range"⟩

def blockVersion (version : UInt32) : Except CodedError BlockVersion :=
  match version with
  | 1 => .ok .v1
  | 2 => .ok .v2
  | _ => .error ⟨"INVALID_BLOCK_VERSION", "block version must be 1 or 2"⟩

/-- `str::lines`: a line ends with a line feed, or with a carriage return and a line feed; the
last one need not end. -/
def lines (text : String) : List String :=
  let pieces := text.toList.splitOn '\n'
  let ended := pieces.dropLast.map fun line =>
    if line.getLast? = some '\r' then line.dropLast else line
  let rest := pieces.getLast?.filter fun line => line ≠ []
  (ended ++ rest.toList).map String.ofList

/-- The bytes of a hexadecimal argument. -/
def decodeHex (text : String) (code message : String) : Except CodedError Bytes :=
  match hexDecode text with
  | some bytes => .ok bytes
  | none => .error ⟨code, message⟩

def parseAmount [BigIntParser] (amount : String) : Except CodedError Int :=
  match Amount.fromStr amount with
  | .ok amount => .ok amount
  | .error _ => .error ⟨"INVALID_AMOUNT", "amount must be a decimal or 0x-hex integer"⟩

variable [Crypto]

/-! ## Operations -/

def opSetRep (recipient : GenericAccount) : Operation := .setRep ⟨recipient⟩

/-- An empty reference is none. -/
def opSend [BigIntParser] (recipient : GenericAccount) (amount : String) (token : GenericAccount)
    (external : String) : Except CodedError Operation := do
  let external := if external = "" then none else some external
  return .send { recipient, amount := ← parseAmount amount, token, external }

def opReceive [BigIntParser] (sender : GenericAccount) (amount : String) (token : GenericAccount)
    (isExact : Bool) (forward : Option GenericAccount) : Except CodedError Operation := do
  return .receive { amount := ← parseAmount amount, token, sender, isExact, forward }

def opTokenAdminSupply [BigIntParser] (amount method : String) : Except CodedError Operation := do
  return .tokenAdminSupply { amount := ← parseAmount amount, method := ← adjustMethod method }

def opTokenAdminModifyBalance [BigIntParser] (token : GenericAccount) (amount method : String) :
    Except CodedError Operation := do
  return .tokenAdminModifyBalance
    { token, amount := ← parseAmount amount, method := ← adjustMethod method }

def opSetInfo (name description metadata : String) (defaultPermission : Option Permissions) :
    Operation := .setInfo { name, description, metadata, defaultPermission }

def opCreateIdentifier (identifier : GenericAccount) : Operation :=
  .createIdentifier { identifier, createArguments := none }

def opCreateMultisig (multisig : GenericAccount) (signers : List GenericAccount)
    (quorum : UInt32) : Operation :=
  .createIdentifier {
    identifier := multisig
    createArguments := some (.multisig { signers, quorum := quorum.toNat }) }

def opModifyPermissions (principal : GenericAccount) (permissions : Permissions)
    (method : AdjustMethod) (target : Option GenericAccount) : Operation :=
  .modifyPermissions
    { principal := .account principal, method, permissions := some permissions, target }

def decodeCertificateDer (certificate : String) : Except CodedError CertificateDer := do
  return ⟨← decodeHex certificate "INVALID_CERTIFICATE" "certificate must be hex DER"⟩

/-- No intermediates are encoded as none, not as an empty bundle. -/
def opManageCertificateAdd (certificate : String) (intermediates : List String) :
    Except CodedError Operation := do
  let certificate ← decodeCertificateDer certificate
  let intermediates ← if intermediates = [] then pure IntermediateCertificates.none
    else IntermediateCertificates.bundle <$> intermediates.mapM decodeCertificateDer
  return .manageCertificate {
    method := .add
    certificateOrHash := .certificate certificate
    intermediateCertificates := some intermediates }

def opManageCertificateRemove (hash : String) : Except CodedError Operation :=
  match (hexDecode hash).bind (Octets.ofBytes 32) with
  | some digest => .ok (.manageCertificate {
      method := .subtract
      certificateOrHash := .hash digest
      intermediateCertificates := none })
  | none => .error ⟨"INVALID_CERTIFICATE_HASH", "certificate hash must be 32-byte hex"⟩

/-! ## Blocks, votes and staples -/

def signerSingle (account : GenericAccount) : Signer := .single account

def signerMultisig (address : GenericAccount) (signers : List GenericAccount) : Signer :=
  .multisig address (signers.map .single)

section Codec

variable [X509] [Tlv Tag Asn1Error] [Chrono] [OidCodec] [NumBigint] (texts : ErrorTexts)

def generateIdentifier (account : GenericAccount) (kind : KeyPairType)
    (previous : Option (Octets 32)) (index : UInt32) : Except CodedError GenericAccount :=
  (account.generateIdentifier kind previous index).mapError fun error =>
    ⟨"IDENTIFIER", texts.account error⟩

def blockFromHex (value : String) : Except CodedError Block := do
  let bytes ← decodeHex value "INVALID_BLOCK" "block must be hex"
  (Block.ofBytes bytes).mapError texts.block

def buildUnsigned (builder : BlockBuilder) (clock : Option BlockTime) :
    Except CodedError UnsignedBlock :=
  (builder.build clock).mapError texts.block

def signUnsigned (unsigned : UnsignedBlock)
    (signatureOf : GenericAccount → Bytes → Except AccountError Bytes) : Except CodedError Block :=
  (unsigned.sign signatureOf).mapError texts.block

def voteFromBytes (bytes : Bytes) : Except CodedError Vote :=
  (Vote.verify bytes).mapError texts.vote

def voteStapleNew [Zlib] (blocks : List Block) (votes : List Vote) (momentMillis : Int64) :
    Except CodedError VoteStaple := do
  let moment ← blockTime momentMillis
  (VoteStaple.tryNew blocks votes .default moment).mapError texts.vote

def voteStapleBuild [Zlib] (blocks : List Block) (votes : List Vote) (momentMillis : Int64) :
    Except CodedError Bytes := do
  return (← voteStapleNew texts blocks votes momentMillis).compressedBytes

end Codec

def feesRequired (vote : Vote) : Bool := vote.decoded.fees.any Fees.required

def stapleFeeSends (staple : VoteStaple) (baseToken : GenericAccount)
    (priority : List GenericAccount) : List Operation :=
  (staple.votes.filterMap fun vote => vote.feeSend baseToken priority).map .send

/-- The hash of the payer's last block, in hexadecimal digits. -/
def stapleTipFor (staple : VoteStaple) (payer : GenericAccount) : Option String :=
  (staple.blocks.reverse.find? fun block => block.data.account = payer).map fun block =>
    hexEncode block.hash.bytes

end KeetaNode.Bindings
