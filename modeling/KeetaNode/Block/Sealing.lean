import KeetaNode.Block.Transport

/-!
# Unsigned and sealed blocks

An unsigned block is validated data with its encoding and hash. A sealed block
comes out of one constructor, which validates the data and verifies the signatures,
and which sealing, signing and decoding all go through.

- `keetanetwork-block/src/block.rs`
- `keetanetwork-block/src/builder.rs`
-/

namespace KeetaNode

open ByteCodec
open Asn1 (Tag Asn1Error Chrono)

variable [Crypto] [X509] [Tlv Tag Asn1Error]

/-- A fully constructed but not yet signed block. -/
structure UnsignedBlock where
  data : BlockData
  /-- The unsigned encoding. -/
  bytes : Bytes
  hash : BlockHash
  deriving DecidableEq

/-- A sealed block: valid data with verified signatures. -/
structure Block where
  data : BlockData
  signatures : List Signature
  /-- The signed encoding. -/
  bytes : Bytes
  hash : BlockHash
  deriving DecidableEq

/-! ## Sealing -/

/-- Each signature against the signer at its place; pairing them stops at the shorter
list. -/
def verifySignatures (hash : BlockHash) :
    Nat → List GenericAccount → List Signature → Except BlockError Unit
  | index, signer :: signers, signature :: signatures =>
    match signer.verify hash.bytes signature.bytes with
    | .error _ => .error (.invalidSignature index hash)
    | .ok _ => verifySignatures hash (index + 1) signers signatures
  | _, _, _ => .ok ()

/-- `TryFrom<BlockParts>`: encode, validate and verify. -/
def Block.ofParts (data : BlockData) (signatures : List Signature) : Except BlockError Block := do
  let unsignedBytes ← encodeBlock data none
  let hash := hashDefault unsignedBytes
  data.validate hash
  rejectIf (signatures = []) .signatureRequired
  rejectIf (data.version = .v1 ∧ signatures.length ≠ 1) .v1SingleSignerOnly
  let signers := data.signer.requiredSigners
  rejectIf (signatures.length ≠ signers.length)
    (.signatureCountMismatch signers.length signatures.length)
  verifySignatures hash 0 signers signatures
  let bytes ← encodeBlock data (some signatures)
  return { data, signatures, bytes, hash }

namespace UnsignedBlock

/-- `TryFrom<BlockData>`: everything except signatures is validated. -/
def ofData (data : BlockData) : Except BlockError UnsignedBlock := do
  let bytes ← encodeBlock data none
  let hash := hashDefault bytes
  data.validate hash
  return { data, bytes, hash }

/-- The accounts which must sign, in signature order. -/
def requiredSigners (block : UnsignedBlock) : List GenericAccount :=
  block.data.signer.requiredSigners

/-- Seal with signatures produced elsewhere. -/
def sealWith (block : UnsignedBlock) (signatures : List Signature) : Except BlockError Block :=
  Block.ofParts block.data signatures

/-- Sign with the keys the signers hold and seal. What an account signs with its key
is `signatureOf`; it fails for an account without one. -/
def sign (block : UnsignedBlock)
    (signatureOf : GenericAccount → Bytes → Except AccountError Bytes) :
    Except BlockError Block := do
  let signatures ← block.requiredSigners.mapM fun signer => do
    let raw ← asAccountError (signatureOf signer block.hash.bytes)
    signatureFromBytes raw
  block.sealWith signatures

end UnsignedBlock

/-! ## Building -/

/-- What a block follows in its account's chain. -/
inductive Previous where
  | hash (hash : BlockHash)
  | opening
  deriving DecidableEq

/-- The fields of a block that were set so far. -/
structure BlockBuilder where
  version : Option BlockVersion := none
  purpose : Option BlockPurpose := none
  network : Option Int := none
  subnet : Option Int := none
  idempotent : Option Bytes := none
  date : Option BlockTime := none
  account : Option GenericAccount := none
  signer : Option Signer := none
  previous : Option Previous := none
  operations : List Operation := []

namespace BlockBuilder

def required {α : Type} (field : BlockField) : Option α → Except BlockError α
  | some value => .ok value
  | none => .error (.missingField field)

omit [Crypto] [X509] [Tlv Tag Asn1Error] in
theorem required_eq_ok {α : Type} {field : BlockField} {given : Option α} {value : α} :
    required field given = .ok value ↔ given = some value := by
  cases given <;> simp [required]

/-- Build and validate the unsigned block. The clock is that of the standard library,
which a build without it does not have. -/
def build (builder : BlockBuilder) (clock : Option BlockTime) :
    Except BlockError UnsignedBlock := do
  let account ← required .account builder.account
  let network ← required .network builder.network
  let previous ← required .previous builder.previous
  let date ← required .date (builder.date <|> clock)
  UnsignedBlock.ofData {
    version := builder.version.getD .v2
    purpose := builder.purpose.getD .generic
    network
    subnet := builder.subnet
    idempotent := builder.idempotent
    date
    account
    signer := builder.signer.getD (.single account)
    previous := match previous with
      | .hash hash => hash
      | .opening => account.toOpeningHash
    operations := builder.operations }

end BlockBuilder

/-! ## Decoding -/

variable [Chrono]

/-- The signatures a sealed block must come with. -/
def requireSignatures : Option (List Signature) → Except BlockError (List Signature)
  | some signatures => .ok signatures
  | none => .error .signatureRequired

/-- `TryFrom<&[u8]>`: only canonical bytes are accepted. -/
def Block.ofBytes (bytes : Bytes) : Except BlockError Block := do
  let (data, signatures) ← decodeBlock bytes
  let signatures ← requireSignatures signatures
  let block ← Block.ofParts data signatures
  rejectIf (block.bytes ≠ bytes) .recalculatedBytesMismatch
  return block

/-- `Verifiable::verify`. -/
def Block.verify (bytes : Bytes) : Except BlockError Block := Block.ofBytes bytes

def UnsignedBlock.ofBytes (bytes : Bytes) : Except BlockError UnsignedBlock := do
  let (data, signatures) ← decodeBlock bytes
  rejectIf (signatures.isSome = true) .recalculatedBytesMismatch
  let block ← UnsignedBlock.ofData data
  rejectIf (block.bytes ≠ bytes) .recalculatedBytesMismatch
  return block

end KeetaNode
