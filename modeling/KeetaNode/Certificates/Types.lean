import KeetaNode.Asn1.Vote.Codec
import KeetaNode.Block.Types

/-!
# X.509 certificates

The certificate of `keetanetwork-x509/src/certificates.rs` with the tests it offers on
one certificate or on a pair: names, key identifiers, constraints, validity and
signatures. The derived DER encoding of certificates, the parser of basic constraints
and the text of errors come from third-party crates and stay parameters (`CertificateCodec`);
sets of certificates are ordered by DER encoding, which the source calls consistent with
their equality, and are sets under equality here.

- `keetanetwork-x509/src/utils.rs`
- `keetanetwork-x509/src/error.rs`
- `keetanetwork-asn1/src/der.rs`, `keetanetwork-asn1/src/oids.rs`
- `keetanetwork-crypto/src/utils.rs`
-/

namespace KeetaNode.Certificates

open ByteCodec Asn1

/-! ## Data model -/

/-- `ObjectIdentifier`: its arcs. -/
structure ObjectIdentifier where
  arcs : List UInt32
  deriving DecidableEq, Repr

/-- `Any`: an element with an arbitrary tag. -/
structure AnyElement where
  tag : Tag
  value : Bytes
  deriving DecidableEq, Repr

structure AlgorithmIdentifier where
  algorithm : ObjectIdentifier
  parameters : Option AnyElement
  deriving DecidableEq, Repr

structure BitString where
  unusedBits : Fin 8
  rawBytes : Bytes
  deriving DecidableEq, Repr

/-- `BitString::from_bytes`: whole octets. -/
def BitString.fromBytes (bytes : Bytes) : BitString := ⟨0, bytes⟩

/-- `SubjectPublicKeyInfo`, and its `spki` form inside a certificate. -/
structure SubjectPublicKeyInfo where
  algorithm : AlgorithmIdentifier
  subjectPublicKey : BitString
  deriving DecidableEq, Repr

structure AttributeTypeAndValue where
  oid : ObjectIdentifier
  value : AnyElement
  deriving DecidableEq, Repr

/-- `RdnSequence`: the relative names in order, each a set of attributes. -/
structure DistinguishedName where
  rdns : List (List AttributeTypeAndValue)
  deriving DecidableEq, Repr

/-- `der::DateTime`: whole seconds from 1970 to 9999. -/
structure DateTime where
  moment : Asn1Time
  valid : moment.millis = 0 ∧ 1970 ≤ moment.year ∧ moment.year ≤ 9999
  deriving DecidableEq, Repr

/-- `x509_cert::time::Time`. -/
inductive Time where
  | utcTime (date : DateTime)
  | generalTime (date : DateTime)
  deriving DecidableEq, Repr

/-- The instant of a time, as a Unix timestamp in milliseconds. -/
def Time.toUtc : Time → Int
  | .utcTime date => unixMillis date.moment
  | .generalTime date => unixMillis date.moment

structure Validity where
  notBefore : Time
  notAfter : Time
  deriving DecidableEq, Repr

structure Extension where
  extnId : ObjectIdentifier
  critical : Bool
  extnValue : Bytes
  deriving DecidableEq, Repr

inductive Version where
  | v1 | v2 | v3
  deriving DecidableEq, Repr

structure TbsCertificate where
  version : Version
  serialNumber : Bytes
  signatureAlgorithm : AlgorithmIdentifier
  issuer : DistinguishedName
  validity : Validity
  subject : DistinguishedName
  subjectPublicKeyInfo : SubjectPublicKeyInfo
  issuerUniqueId : Option BitString
  subjectUniqueId : Option BitString
  extensions : Option (List Extension)
  deriving DecidableEq, Repr

structure Certificate where
  tbsCertificate : TbsCertificate
  signatureAlgorithm : AlgorithmIdentifier
  signature : BitString
  deriving DecidableEq, Repr

/-- `BTreeSet<Certificate>`: its members in the order of iteration. -/
structure CertificateSet where
  members : List Certificate
  nodup : members.Nodup
  deriving DecidableEq, Repr

/-- `BasicConstraints` of the `x509-cert` crate. -/
structure BasicConstraints where
  ca : Bool
  pathLenConstraint : Option UInt8
  deriving DecidableEq, Repr

namespace Oids

def ecPublicKey : ObjectIdentifier := ⟨[1, 2, 840, 10045, 2, 1]⟩
def ecdsaWithSha256 : ObjectIdentifier := ⟨[1, 2, 840, 10045, 4, 3, 2]⟩
def ecdsaWithSha3_256 : ObjectIdentifier := ⟨[2, 16, 840, 1, 101, 3, 4, 3, 10]⟩
def secp256r1 : ObjectIdentifier := ⟨[1, 2, 840, 10045, 3, 1, 7]⟩
def secp256k1 : ObjectIdentifier := ⟨[1, 3, 132, 0, 10]⟩
def ed25519 : ObjectIdentifier := ⟨[1, 3, 101, 112]⟩
def sha256WithRsa : ObjectIdentifier := ⟨[1, 2, 840, 113549, 1, 1, 11]⟩
def basicConstraints : ObjectIdentifier := ⟨[2, 5, 29, 19]⟩
def subjectKeyIdentifier : ObjectIdentifier := ⟨[2, 5, 29, 14]⟩
def authorityKeyIdentifier : ObjectIdentifier := ⟨[2, 5, 29, 35]⟩

end Oids

/-! ## Primitives -/

/-- What certificates take from the crates `der`, `x509-cert`, `sha2`, `k256` and `p256`. -/
class CertificateCodec where
  /-- The derived encoder of `TbsCertificate`. -/
  encodeTbs : TbsCertificate → Except DerError Bytes
  /-- The derived encoder of `Certificate`. -/
  encode : Certificate → Except DerError Bytes
  /-- `BasicConstraints::from_der`. -/
  basicConstraints : Bytes → Option BasicConstraints
  /-- `Sha256`. -/
  sha2_256 : Bytes → Octets 32
  /-- Whether an ECDSA signature has components in range (`Signature::from_bytes`). -/
  signatureAccepts : Algorithm → Octets 64 → Bool
  /-- `Display` of the two error types. -/
  displayDer : DerError → String
  displayAsn1 : Asn1Error → String

/-- `From<der::Error>`. -/
def ofDerError [CertificateCodec] (error : DerError) : CertificateError :=
  .asn1ParseError ("DER error: " ++ CertificateCodec.displayDer error)

/-- `From<Asn1Error>`. -/
def ofAsn1Error [CertificateCodec] (error : Asn1Error) : CertificateError :=
  .asn1ParseError ("ASN.1 error: " ++ CertificateCodec.displayAsn1 error)

/-! ## Names, extensions and validity -/

namespace Certificate

/-- `self-signed` by name: issuer and subject are equal. -/
def isSelfSigned (certificate : Certificate) : Bool :=
  certificate.tbsCertificate.issuer = certificate.tbsCertificate.subject

/-- The first extension with an identifier. -/
def extension (certificate : Certificate) (oid : ObjectIdentifier) : Option Extension :=
  match certificate.tbsCertificate.extensions with
  | some extensions => extensions.find? fun extension => extension.extnId = oid
  | none => none

/-- Basic constraints with `CA = true`. -/
def isCa [CertificateCodec] (certificate : Certificate) : Bool :=
  match certificate.extension Oids.basicConstraints with
  | some extension =>
    match CertificateCodec.basicConstraints extension.extnValue with
    | some constraints => constraints.ca
    -- an extension that cannot be parsed
    | none => false
  | none => false

def toNotBefore (certificate : Certificate) : Int :=
  certificate.tbsCertificate.validity.notBefore.toUtc

def isValidAt (certificate : Certificate) (time : Int) : Except CertificateError Bool :=
  let validity := certificate.tbsCertificate.validity
  if time < validity.notBefore.toUtc then .ok false
  else if time > validity.notAfter.toUtc then .ok false
  else .ok true

/-- The issuer's subject is this certificate's issuer. -/
def hasMatchingIssuerSubjectDn (certificate issuer : Certificate) : Bool :=
  certificate.tbsCertificate.issuer = issuer.tbsCertificate.subject

end Certificate

/-! ## Key identifiers -/

section KeyIdentifiers

variable [Tlv Tag Asn1Error]

/-- A subject key identifier is an OCTET STRING. -/
def parseKeyIdentifier (bytes : Bytes) : Option Bytes :=
  match (do openSlice bytes; readOctet.run bytes : Except Asn1Error _) with
  | .ok (identifier, _) => some identifier
  | .error _ => none

/-- The first element with the context-specific tag number 0. Every element takes an octet
at least, so that `fuel` may be the length of the content. -/
def findKeyIdentifier : (fuel : Nat) → (content : Bytes) → Option Bytes
  | 0, _ => none
  | _ + 1, [] => none
  | fuel + 1, content =>
    match (readAny.run content : Except Asn1Error ((Tag × Bytes) × Bytes)) with
    | .ok ((.contextSpecific _ 0, value), _) => some value
    | .ok (_, rest) => findKeyIdentifier fuel rest
    | .error _ => none

/-- An authority key identifier is a SEQUENCE with an optional `[0]` key identifier. -/
def parseAuthorityKeyIdentifier (bytes : Bytes) : Option Bytes :=
  match (do openSlice bytes; readSequence.run bytes : Except Asn1Error _) with
  | .ok (content, _) => findKeyIdentifier content.length content
  | .error _ => none

/-- An authority key identifier, where there is one, has to match the issuer's subject
key identifier. -/
def Certificate.hasValidAuthorityKeyIdentifier (certificate issuer : Certificate) : Bool :=
  match certificate.extension Oids.authorityKeyIdentifier with
  | some authKeyExt =>
    match issuer.extension Oids.subjectKeyIdentifier with
    | some subjectKeyExt =>
      match parseAuthorityKeyIdentifier authKeyExt.extnValue,
          parseKeyIdentifier subjectKeyExt.extnValue with
      | some authKeyId, some subjectKeyId => authKeyId = subjectKeyId
      | _, _ => false
    | none => false
  | none => true

end KeyIdentifiers

/-! ## Signatures -/

/-- `HashAlgorithm`, as far as signature algorithms name one. -/
inductive HashAlgorithm where
  | sha3_256 | sha2_256
  deriving DecidableEq, Repr

def HashAlgorithm.hash [Crypto] [CertificateCodec] : HashAlgorithm → Bytes → Bytes
  | .sha3_256, data => (Crypto.sha3_256 data).bytes
  | .sha2_256, data => (CertificateCodec.sha2_256 data).bytes

/-- An INTEGER with a length of one octet, off the front. -/
def takeInteger : Bytes → Option (Bytes × Bytes)
  | 0x02 :: length :: rest =>
    if rest.length < length.toNat then none
    else some (rest.take length.toNat, rest.drop length.toNat)
  | _ => none

/-- The last 32 octets, padded on the left with zeros. -/
def fitComponent (bytes : Bytes) : Bytes :=
  List.replicate (32 - bytes.length) 0 ++ bytes.drop (bytes.length - 32)

theorem length_fitComponent (bytes : Bytes) : (fitComponent bytes).length = 32 := by
  simp [fitComponent]
  omega

/-- `parse_der_ecdsa_signature`, with the two components in one array. -/
def derToRawSignature (der : Bytes) : Option (Octets 64) :=
  match der with
  | 0x30 :: seqLen :: content =>
    if der.length < 8 ∨ content.length < seqLen.toNat then none
    else do
      let (r, content) ← takeInteger content
      let (s, _) ← takeInteger content
      some ⟨fitComponent r ++ fitComponent s, by simp [length_fitComponent]⟩
  | _ => none

section Signatures

variable [Crypto] [CertificateCodec]

/-- `try_verify_ecdsa_secp256r1` and `try_verify_ecdsa_secp256k1`: a DER signature over the
declared digest of the certificate's contents. -/
def tryVerifyEcdsa (algorithm : Algorithm) (publicKey signature tbsDer : Bytes)
    (hash : HashAlgorithm) : Except CertificateError Bool :=
  match algorithm.publicKeyFrom publicKey with
  | none => .error .invalidCertificate
  | some key =>
    match derToRawSignature signature with
    | none => .ok false
    | some raw =>
      if CertificateCodec.signatureAccepts algorithm raw then
        .ok (Crypto.verifies algorithm key (hash.hash tbsDer) raw.bytes)
      else .error .invalidCertificate

/-- An Ed25519 signature is over the contents themselves. -/
def verifyEd25519Signature (publicKey signature tbsDer : Bytes) : Except CertificateError Bool :=
  if signature.length ≠ 64 then .ok false
  else
    match Algorithm.ed25519.publicKeyFrom publicKey with
    | none => .error .invalidCertificate
    | some key =>
      if Crypto.verifies .ed25519 key tbsDer signature then .ok true
      else .error .certificateSignatureVerificationFailed

variable [Tlv Tag Asn1Error] [OidCodec]

omit [Crypto] [CertificateCodec] [Tlv Tag Asn1Error] in
/-- The parameters as an OBJECT IDENTIFIER. -/
def AlgorithmIdentifier.parametersOid (algorithm : AlgorithmIdentifier) :
    Option ObjectIdentifier :=
  match algorithm.parameters with
  | some ⟨.objectIdentifier, content⟩ =>
    match OidCodec.decodeArcs content with
    | .ok arcs => some ⟨arcs⟩
    | .error _ => none
  | _ => none

omit [Tlv Tag Asn1Error] in
/-- ECDSA on the curve that the issuer's key declares. -/
def verifyEcdsaDeclaredCurve (issuerPublicKey : SubjectPublicKeyInfo) (signature tbsDer : Bytes)
    (hash : HashAlgorithm) : Except CertificateError Bool :=
  match issuerPublicKey.algorithm.parametersOid with
  | none => .ok false
  | some curve =>
    let publicKey := issuerPublicKey.subjectPublicKey.rawBytes
    if curve = Oids.secp256r1 then tryVerifyEcdsa .secp256r1 publicKey signature tbsDer hash
    else if curve = Oids.secp256k1 then tryVerifyEcdsa .secp256k1 publicKey signature tbsDer hash
    else .ok false

omit [Crypto] [Tlv Tag Asn1Error] in
/-- `SubjectPublicKeyInfo::try_from`: the identifier goes through its dotted form, and a
bit string is taken without its unused bits. -/
def SubjectPublicKeyInfo.tryFrom (info : SubjectPublicKeyInfo) :
    Except CertificateError SubjectPublicKeyInfo :=
  match OidCodec.encodeArcs info.algorithm.algorithm.arcs with
  | .ok _ => .ok { info with subjectPublicKey := ⟨0, info.subjectPublicKey.rawBytes⟩ }
  | .error error => .error (ofAsn1Error error)

namespace Certificate

omit [Tlv Tag Asn1Error] in
/-- Verify this certificate's signature under an issuer's key. -/
def verifySignature (certificate : Certificate) (issuerPublicKey : SubjectPublicKeyInfo) :
    Except CertificateError Bool :=
  let certSigOid := certificate.signatureAlgorithm.algorithm
  let keyAlgOid := issuerPublicKey.algorithm.algorithm
  let isCompatible : Bool :=
    if certSigOid = Oids.ecdsaWithSha3_256 ∨ certSigOid = Oids.ecdsaWithSha256 then
      keyAlgOid = Oids.ecPublicKey
    else if certSigOid = Oids.ed25519 then keyAlgOid = Oids.ed25519
    else false
  if isCompatible = false then .ok false
  else
    match CertificateCodec.encodeTbs certificate.tbsCertificate with
    | .error error => .error (ofDerError error)
    | .ok tbsDer =>
      let signature := certificate.signature.rawBytes
      let publicKey := issuerPublicKey.subjectPublicKey.rawBytes
      if certSigOid = Oids.ed25519 then verifyEd25519Signature publicKey signature tbsDer
      else if certSigOid = Oids.ecdsaWithSha3_256 then
        verifyEcdsaDeclaredCurve issuerPublicKey signature tbsDer .sha3_256
      else if certSigOid = Oids.ecdsaWithSha256 then
        verifyEcdsaDeclaredCurve issuerPublicKey signature tbsDer .sha2_256
      else if certSigOid = Oids.sha256WithRsa then .error .invalidCertificate
      else .ok false

/-- `is_issued_by`: any failure counts as no. -/
def isIssuedBy (certificate issuer : Certificate) : Bool :=
  match issuer.tbsCertificate.subjectPublicKeyInfo.tryFrom with
  | .error _ => false
  | .ok issuerPublicKey =>
    certificate.hasMatchingIssuerSubjectDn issuer &&
      certificate.hasValidAuthorityKeyIdentifier issuer &&
      (match certificate.verifySignature issuerPublicKey with
      | .ok verified => verified
      | .error _ => false)

/-- Names and key identifiers match, the signature verifies, and the issuer was valid when
this certificate was issued. -/
def isValidIssuerSubjectPair (certificate issuer : Certificate) :
    Except CertificateError Bool := do
  if !certificate.hasMatchingIssuerSubjectDn issuer then return false
  if !certificate.hasValidAuthorityKeyIdentifier issuer then return false
  let issuerPublicKey ← issuer.tbsCertificate.subjectPublicKeyInfo.tryFrom
  if !(← certificate.verifySignature issuerPublicKey) then return false
  if !(← issuer.isValidAt certificate.toNotBefore) then return false
  return true

omit [Crypto] [Tlv Tag Asn1Error] [OidCodec] in
def toDer (certificate : Certificate) : Except CertificateError Bytes :=
  match CertificateCodec.encode certificate with
  | .ok der => .ok der
  | .error error => .error (ofDerError error)

end Certificate

end Signatures

end KeetaNode.Certificates
