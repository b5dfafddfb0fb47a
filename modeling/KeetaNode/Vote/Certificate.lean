import KeetaNode.Vote.Types
import KeetaNode.Asn1.Vote.Codec

/-!
# Vote certificates

Votes are X.509-shaped certificates: the mapping between votes and the transport
certificate, and the unsigned, signed and quote forms of a vote.

- `keetanetwork-vote/src/cert.rs`
- `keetanetwork-vote/src/vote.rs`
- `keetanetwork-vote/src/hash.rs`

The hexadecimal text of a serial number is the `num-bigint` crate's and stays a
parameter.
-/

namespace KeetaNode

open ByteCodec
open Asn1 (Tag Asn1Error Chrono OidCodec)

/-- Texts of integers in base 16. -/
class NumBigint where
  /-- `BigInt::to_str_radix(16)`. -/
  toStrRadix16 : Int → String
  /-- `BigInt::from_str_radix` with radix 16. -/
  fromStrRadix16 : String → Option Int

/-- A printed integer is read back. -/
class LawfulNumBigint [NumBigint] : Prop where
  fromStr_toStr : ∀ value, NumBigint.fromStrRadix16 (NumBigint.toStrRadix16 value) = some value

/-! ## Signature algorithms -/

/-- Signature algorithm carried in a vote's `signatureAlgo` field. -/
inductive SignatureAlgo where
  | ed25519
  | ecdsaWithSha3_256
  deriving DecidableEq, Repr

namespace SignatureAlgo

def toTransport : SignatureAlgo → Asn1.VoteSignatureAlgo
  | ed25519 => .ed25519
  | ecdsaWithSha3_256 => .ecdsaWithSha3_256

def fromTransport : Asn1.VoteSignatureAlgo → SignatureAlgo
  | .ed25519 => ed25519
  | .ecdsaWithSha3_256 => ecdsaWithSha3_256

@[simp] theorem fromTransport_toTransport (algo : SignatureAlgo) :
    fromTransport algo.toTransport = algo := by
  cases algo <;> rfl

@[simp] theorem toTransport_fromTransport (algo : Asn1.VoteSignatureAlgo) :
    (fromTransport algo).toTransport = algo := by
  cases algo <;> rfl

variable [Crypto]

def fromIssuer (account : GenericAccount) : Except VoteError SignatureAlgo :=
  match account.keyType with
  | .ed25519 => .ok ed25519
  | .ecdsaSecp256k1 | .ecdsaSecp256r1 => .ok ecdsaWithSha3_256
  | .network | .token | .storage | .multisig =>
    .error .malformedVoteSignatureSchemeDoesNotMatchIssuer

def matchesIssuer (algo : SignatureAlgo) (account : GenericAccount) : Bool :=
  match algo, account.keyType with
  | ed25519, .ed25519 => true
  | ecdsaWithSha3_256, .ecdsaSecp256k1 => true
  | ecdsaWithSha3_256, .ecdsaSecp256r1 => true
  | _, _ => false

theorem matchesIssuer_iff {algo : SignatureAlgo} {account : GenericAccount} :
    algo.matchesIssuer account = true ↔ fromIssuer account = .ok algo := by
  unfold matchesIssuer fromIssuer
  cases algo <;> cases account.keyType <;> simp

end SignatureAlgo

/-! ## Errors -/

/-- `decode_error_to_vote`. -/
def decodeErrorToVote : Asn1Error → VoteError
  | .invalidVoteVersion => .invalidVersion
  | .voteDecode slot =>
    match slot with
    | .wrapper => .malformedWrapper
    | .wrapperExtraData => .malformedWrapper
    | .tbsContent => .malformedVoteWrapper
    | .version => .malformedVoteContent
    | .versionValue => .malformedVoteVersion
    | .serial => .malformedVoteSerial
    | .signatureAlgorithm => .malformedVoteSignatureInformation
    | .issuer => .malformedVoteIssuerInformation
    | .validity => .malformedVoteValidityInformation
    | .subject => .malformedVoteSubjectInformation
    | .subjectPublicKey => .malformedVoteSubjectPublicKeyInformation
    | .extensions => .malformedVoteExtensions
    | .tbsExtraData => .malformedVoteContentExtraData
    | .wrapperSignatureAlgorithm => .malformedVoteSignatureInformation
    | .signatureValue => .malformedVoteSignatureValue
  | other => .asn1 other

def hashFromBytes (raw : Bytes) : Except VoteError BlockHash :=
  match Octets.ofBytes 32 raw with
  | some hash => .ok hash
  | none => .error .malformedHashesFromVoteDataUnsupportedHashType

/-! ## Distinguished names -/

def dnWithAttribute (oid : Asn1.VoteOid) (value : String) : Asn1.DistinguishedName :=
  ⟨[[⟨oid, value⟩]]⟩

/-- The value of the last attribute with the identifier. -/
def takeDnValue (dn : Asn1.DistinguishedName) (oid : Asn1.VoteOid) : Option String :=
  dn.rdns.flatten.foldl (fun found entry =>
    if entry.oid = oid then some entry.value else found) none

@[simp] theorem takeDnValue_dnWithAttribute (oid : Asn1.VoteOid) (value : String) :
    takeDnValue (dnWithAttribute oid value) oid = some value := by
  simp [takeDnValue, dnWithAttribute]

/-- The kind octet and the octets of a subject key. -/
def subjectKeyParts : Asn1.VoteSubjectPublicKey → KeyPairType × Bytes
  | .ed25519 key => (.ed25519, key)
  | .ecdsa .secp256k1 key => (.ecdsaSecp256k1, key)
  | .ecdsa .secp256r1 key => (.ecdsaSecp256r1, key)

variable [Crypto]

/-! ## Votes -/

/-- Decoded contents of a vote certificate. -/
structure DecodedVote where
  serial : Int
  signatureAlgo : SignatureAlgo
  issuer : GenericAccount
  validity : Validity
  blocks : List BlockHash
  fees : Option Fees
  signature : Bytes
  /-- The exact bytes the signature is over. -/
  tbsBytes : Bytes
  deriving DecidableEq

/-- A vote prior to signing. -/
structure UnsignedVote where
  serial : Int
  issuer : GenericAccount
  validity : Validity
  blocks : List BlockHash
  fees : Option Fees
  deriving DecidableEq

/-- A signed vote certificate with its bytes. -/
structure Vote where
  decoded : DecodedVote
  serialized : Bytes
  deriving DecidableEq

def UnsignedVote.tryNew (serial : Int) (issuer : GenericAccount) (validity : Validity)
    (blocks : List BlockHash) (fees : Option Fees) : Except VoteError UnsignedVote := do
  let _ ← SignatureAlgo.fromIssuer issuer
  rejectIf (blocks = []) .malformedVoteNoBlocksFound
  return { serial, issuer, validity, blocks, fees }

namespace Vote

/-- The digest of the serialized bytes (`VoteHash::of`). -/
def hash (vote : Vote) : Octets 32 := hashDefault vote.serialized

def isQuote (vote : Vote) : Bool :=
  match vote.decoded.fees with
  | some fees => fees.quote
  | none => false

def isPermanentAt (vote : Vote) (moment : BlockTime) (config : VoteConfig) : Bool :=
  vote.decoded.validity.isPermanentAt moment config

def verifySignature (vote : Vote) : Except VoteError Unit :=
  asVoteAccountError
    (vote.decoded.issuer.verifyForCert vote.decoded.tbsBytes vote.decoded.signature)

/-- The fees' quote flag, where there are fees, must be the one expected. -/
def assertQuoteFlag (vote : Vote) (expectedQuote : Bool) : Except VoteError Unit :=
  match vote.decoded.fees with
  | some fees => rejectIf (fees.quote ≠ expectedQuote) .malformedFeesQuoteInvalid
  | none => .ok ()

end Vote

/-- A vote restricted to the quote phase. -/
structure VoteQuote where
  vote : Vote
  deriving DecidableEq

namespace VoteQuote

def tryFromVote (vote : Vote) : Except VoteError VoteQuote := do
  vote.assertQuoteFlag true
  rejectIf (vote.isQuote = false) .feeNotQuote
  return ⟨vote⟩

end VoteQuote

/-! ## Subject keys -/

def subjectPublicKeyForIssuer (issuer : GenericAccount) :
    Except VoteError Asn1.VoteSubjectPublicKey :=
  let raw := issuer.toPublicKeyWithType.tail
  match issuer.keyType with
  | .ed25519 => .ok (.ed25519 raw)
  | .ecdsaSecp256k1 => .ok (.ecdsa .secp256k1 raw)
  | .ecdsaSecp256r1 => .ok (.ecdsa .secp256r1 raw)
  | .network | .token | .storage | .multisig =>
    .error .malformedVoteSignatureSchemeDoesNotMatchIssuer

def decodeSubjectPublicKey (value : Asn1.VoteSubjectPublicKey) :
    Except VoteError GenericAccount :=
  let (keyType, raw) := subjectKeyParts value
  orVoteError .malformedVoteSubjectPublicKeyInformation
    (GenericAccount.fromHex (hexEncode (keyType.toByte :: raw)))

/-! ## Extensions -/

/-- The loop variables of `collect_extensions`. -/
structure Collected where
  blocks : Option (List BlockHash)
  fees : Option Fees

section Codec

variable [Tlv Tag Asn1Error] [OidCodec]

/-- The fees extension, where there are fees. -/
def feesExtension : Option Fees → Except VoteError (List Asn1.Extension)
  | none => .ok []
  | some fees => do
    let body ← fees.toTransport
    let value ← asVoteAsn1Error (Asn1.encodeFees body)
    return [⟨Asn1.Oids.fees, true, value⟩]

def buildExtensionList (blocks : List BlockHash) (fees : Option Fees) :
    Except VoteError (List Asn1.Extension) := do
  let hashData : Asn1.HashData := ⟨Asn1.Oids.sha3_256, blocks.map Octets.bytes⟩
  let value ← asVoteAsn1Error (Asn1.encodeHashData hashData)
  let fees ← feesExtension fees
  return ⟨Asn1.Oids.hashData, true, value⟩ :: fees

def blocksFromExtension (value : Bytes) : Except VoteError (List BlockHash) := do
  let hashData ← orVoteError .malformedHashesFromVoteInvalidInput (Asn1.decodeHashData value)
  rejectIf (hashData.algorithm ≠ Asn1.Oids.sha3_256)
    .malformedHashesFromVoteDataUnsupportedHashFunc
  hashData.hashes.mapM hashFromBytes

def feesFromExtension (value : Bytes) : Except VoteError Fees := do
  let body ← orVoteError .malformedFeesFromVoteInvalidInput (Asn1.decodeFees value)
  Fees.fromTransport body

/-- One round: a later extension replaces an earlier one of the same kind, and an unknown
one must not be critical. -/
def collectExtension (collected : Collected) (extension : Asn1.Extension) :
    Except VoteError Collected :=
  if extension.oid = Asn1.Oids.hashData then do
    let blocks ← blocksFromExtension extension.value
    return { collected with blocks := some blocks }
  else if extension.oid = Asn1.Oids.fees then do
    let fees ← feesFromExtension extension.value
    return { collected with fees := some fees }
  else if extension.critical then .error .malformedVoteExtensionsValueCriticalType
  else .ok collected

def collectExtensions (extensions : List Asn1.Extension) :
    Except VoteError (List BlockHash × Option Fees) := do
  let collected ← extensions.foldlM collectExtension ⟨none, none⟩
  let blocks ← collected.blocks.elim (throw .malformedVoteNoBlocksFound) pure
  return (blocks, collected.fees)

/-! ## Certificates -/

variable [NumBigint]

def buildTbsInner (serial : Int) (signatureAlgo : SignatureAlgo) (issuer : GenericAccount)
    (validity : Validity) (blocks : List BlockHash) (fees : Option Fees) :
    Except VoteError Asn1.TbsCertificate := do
  let subjectPublicKey ← subjectPublicKeyForIssuer issuer
  let extensions ← buildExtensionList blocks fees
  return {
    serialNumber := serial
    signatureAlgo := signatureAlgo.toTransport
    issuer := dnWithAttribute Asn1.Oids.commonName issuer.toString
    validity := ⟨validity.start, validity.stop⟩
    subject := dnWithAttribute Asn1.Oids.serialNumber (NumBigint.toStrRadix16 serial)
    subjectPublicKey
    extensions }

def buildTbs (serial : Int) (signatureAlgo : SignatureAlgo) (issuer : GenericAccount)
    (validity : Validity) (blocks : List BlockHash) (fees : Option Fees) :
    Except VoteError Asn1.TbsCertificate := do
  let expected ← SignatureAlgo.fromIssuer issuer
  rejectIf (signatureAlgo ≠ expected) .malformedVoteSignatureSchemeDoesNotMatchIssuer
  buildTbsInner serial signatureAlgo issuer validity blocks fees

omit [Crypto] [NumBigint] in
def encodeTbs (tbs : Asn1.TbsCertificate) : Except VoteError Bytes :=
  asVoteAsn1Error (Asn1.encodeTbs tbs)

omit [Crypto] [NumBigint] in
def encodeVote (tbs : Asn1.TbsCertificate) (signatureAlgo : SignatureAlgo) (signature : Bytes) :
    Except VoteError Bytes :=
  asVoteAsn1Error (Asn1.encodeVote ⟨tbs, signatureAlgo.toTransport, signature⟩)

section Decode

variable [Chrono]

def decodeTransport (bytes : Bytes) : Except VoteError Asn1.DecodedVoteCertificate :=
  match Asn1.decodeVote bytes with
  | .ok decoded => .ok decoded
  | .error e => .error (decodeErrorToVote e)

/-- The issuer named in a certificate. -/
def decodeIssuer (tbs : Asn1.TbsCertificate) : Except VoteError GenericAccount :=
  match takeDnValue tbs.issuer Asn1.Oids.commonName with
  | none => .error .malformedVoteIssuerInformation
  | some text => orVoteError .malformedVoteIssuerInformation (GenericAccount.fromStr text)

/-- The serial number named in the subject must be the certificate's. -/
def checkSubjectSerial (tbs : Asn1.TbsCertificate) : Except VoteError Unit :=
  match (takeDnValue tbs.subject Asn1.Oids.serialNumber).bind NumBigint.fromStrRadix16 with
  | none => .error .malformedVoteSerial
  | some subjectSerial => rejectIf (subjectSerial ≠ tbs.serialNumber) .serialMismatch

def decodeWrapper (bytes : Bytes) : Except VoteError DecodedVote := do
  let decoded ← decodeTransport bytes
  rejectIf (decoded.tbs.signatureAlgo ≠ decoded.signatureAlgo)
    .malformedVoteSignatureSchemeDoesNotMatchWrapper
  let signatureAlgo := SignatureAlgo.fromTransport decoded.signatureAlgo
  let issuer ← decodeIssuer decoded.tbs
  rejectIf (signatureAlgo.matchesIssuer issuer = false)
    .malformedVoteSignatureSchemeDoesNotMatchIssuer
  checkSubjectSerial decoded.tbs
  let subject ← decodeSubjectPublicKey decoded.tbs.subjectPublicKey
  rejectIf (subject.toPublicKeyWithType ≠ issuer.toPublicKeyWithType)
    .malformedVoteSignatureSchemeDoesNotMatchIssuer
  let validity ← Validity.tryNew decoded.tbs.validity.notBefore decoded.tbs.validity.notAfter
  let (blocks, fees) ← collectExtensions decoded.tbs.extensions
  return {
    serial := decoded.tbs.serialNumber
    signatureAlgo
    issuer
    validity
    blocks
    fees
    signature := decoded.signature
    tbsBytes := decoded.tbsBytes }

end Decode

/-! ## Signing and verifying -/

namespace UnsignedVote

def tbsBytes (vote : UnsignedVote) : Except VoteError Bytes := do
  let algo ← SignatureAlgo.fromIssuer vote.issuer
  let tbs ← buildTbs vote.serial algo vote.issuer vote.validity vote.blocks vote.fees
  encodeTbs tbs

/-- Sign with `signForCert`, the certificate signatures of the signer. -/
def sign (vote : UnsignedVote) (signForCert : Bytes → Except AccountError Bytes) :
    Except VoteError Vote := do
  let algo ← SignatureAlgo.fromIssuer vote.issuer
  let tbs ← buildTbs vote.serial algo vote.issuer vote.validity vote.blocks vote.fees
  let tbsBytes ← encodeTbs tbs
  let signature ← asVoteAccountError (signForCert tbsBytes)
  let serialized ← encodeVote tbs algo signature
  return {
    decoded := {
      serial := vote.serial
      signatureAlgo := algo
      issuer := vote.issuer
      validity := vote.validity
      blocks := vote.blocks
      fees := vote.fees
      signature
      tbsBytes }
    serialized }

end UnsignedVote

namespace Vote

variable [Chrono]

/-- Decode a certificate without verifying its signature; only bytes that are encoded
again the same way are accepted. -/
def fromSerialized (bytes : Bytes) : Except VoteError Vote := do
  let decoded ← decodeWrapper bytes
  let tbs ← buildTbs decoded.serial decoded.signatureAlgo decoded.issuer decoded.validity
    decoded.blocks decoded.fees
  let canonicalTbs ← KeetaNode.encodeTbs tbs
  rejectIf (canonicalTbs ≠ decoded.tbsBytes) .malformedNonCanonicalEncoding
  let canonical ← KeetaNode.encodeVote tbs decoded.signatureAlgo decoded.signature
  rejectIf (canonical ≠ bytes) .malformedNonCanonicalEncoding
  return { decoded, serialized := bytes }

def verify (bytes : Bytes) : Except VoteError Vote := do
  let vote ← fromSerialized bytes
  vote.verifySignature
  vote.assertQuoteFlag false
  return vote

end Vote

namespace VoteQuote

def verify [Chrono] (bytes : Bytes) : Except VoteError VoteQuote := do
  let vote ← Vote.fromSerialized bytes
  vote.verifySignature
  tryFromVote vote

end VoteQuote

end Codec

end KeetaNode
