import KeetaNode.Asn1.Time

/-!
# Transport form of votes

The neutral domain types of `keetanetwork-asn1/src/vote/types.rs` and the object
identifiers of `keetanetwork-asn1/src/vote/oids.rs`.
-/

namespace KeetaNode.Asn1

open ByteCodec

/-- Backend-neutral object identifier: its arcs. -/
structure VoteOid where
  arcs : List UInt32
  deriving DecidableEq, Repr

/-- Dotted decimal form. -/
def VoteOid.toString (oid : VoteOid) : String :=
  ".".intercalate (oid.arcs.map fun arc => Nat.repr arc.toNat)

namespace Oids

/-- `commonName` attribute, used by the issuer DN. -/
def commonName : VoteOid := ⟨[2, 5, 4, 3]⟩
/-- `serialNumber` attribute, used by the subject DN. -/
def serialNumber : VoteOid := ⟨[2, 5, 4, 5]⟩
def ecPublicKey : VoteOid := ⟨[1, 2, 840, 10045, 2, 1]⟩
def secp256k1 : VoteOid := ⟨[1, 3, 132, 0, 10]⟩
def secp256r1 : VoteOid := ⟨[1, 2, 840, 10045, 3, 1, 7]⟩
def ed25519 : VoteOid := ⟨[1, 3, 101, 112]⟩
def sha3_256 : VoteOid := ⟨[2, 16, 840, 1, 101, 3, 4, 2, 8]⟩
def ecdsaWithSha3_256 : VoteOid := ⟨[2, 16, 840, 1, 101, 3, 4, 3, 10]⟩
/-- Block-hash extension carrier. -/
def hashData : VoteOid := ⟨[2, 16, 840, 1, 101, 3, 3, 1, 3]⟩
/-- Fees extension. -/
def fees : VoteOid := ⟨[1, 3, 6, 1, 4, 1, 62675, 0, 1, 0]⟩

end Oids

/-- Signature algorithm carried in a vote certificate. -/
inductive VoteSignatureAlgo where
  | ed25519
  | ecdsaWithSha3_256
  deriving DecidableEq, Repr

/-- The signature-algorithm OID for this scheme. -/
def VoteSignatureAlgo.oid : VoteSignatureAlgo → VoteOid
  | .ed25519 => Oids.ed25519
  | .ecdsaWithSha3_256 => Oids.ecdsaWithSha3_256

def VoteSignatureAlgo.tryFrom (oid : VoteOid) : Except Asn1Error VoteSignatureAlgo :=
  if oid = Oids.ed25519 then .ok .ed25519
  else if oid = Oids.ecdsaWithSha3_256 then .ok .ecdsaWithSha3_256
  else .error (.invalidOid oid.toString)

@[simp] theorem VoteSignatureAlgo.tryFrom_oid (algo : VoteSignatureAlgo) :
    VoteSignatureAlgo.tryFrom algo.oid = .ok algo := by
  cases algo <;> rfl

/-- Curve identifier carried inside an ECDSA `SubjectPublicKeyInfo`. -/
inductive EcdsaCurve where
  | secp256k1
  | secp256r1
  deriving DecidableEq, Repr

def EcdsaCurve.oid : EcdsaCurve → VoteOid
  | .secp256k1 => Oids.secp256k1
  | .secp256r1 => Oids.secp256r1

/-- `subjectPublicKeyInfo` of a vote certificate. -/
inductive VoteSubjectPublicKey where
  | ed25519 (key : Bytes)
  | ecdsa (curve : EcdsaCurve) (key : Bytes)
  deriving DecidableEq, Repr

/-- A single attribute of a `RelativeDistinguishedName`. -/
structure AttributeTypeAndValue where
  oid : VoteOid
  value : String
  deriving DecidableEq, Repr

/-- Ordered list of relative distinguished names, each a list of attributes. -/
structure DistinguishedName where
  rdns : List (List AttributeTypeAndValue)
  deriving DecidableEq, Repr

/-- Vote certificate validity window. -/
structure CertificateValidity where
  notBefore : Asn1Time
  notAfter : Asn1Time
  deriving DecidableEq, Repr

/-- One X.509 v3 `Extension` element. -/
structure Extension where
  oid : VoteOid
  critical : Bool
  value : Bytes
  deriving DecidableEq, Repr

/-- `tbsCertificate` body of a vote certificate. -/
structure TbsCertificate where
  serialNumber : Int
  signatureAlgo : VoteSignatureAlgo
  issuer : DistinguishedName
  validity : CertificateValidity
  subject : DistinguishedName
  subjectPublicKey : VoteSubjectPublicKey
  extensions : List Extension
  deriving DecidableEq, Repr

/-- Outer vote certificate (the transport form of a vote). -/
structure VoteCertificate where
  tbs : TbsCertificate
  signatureAlgo : VoteSignatureAlgo
  signature : Bytes
  deriving DecidableEq, Repr

/-- A decoded certificate with the exact bytes of its `tbsCertificate`. -/
structure DecodedVoteCertificate where
  tbs : TbsCertificate
  tbsBytes : Bytes
  signatureAlgo : VoteSignatureAlgo
  signature : Bytes
  deriving DecidableEq, Repr

/-- Uncompressed contents of a vote staple: signed blocks and signed votes. -/
structure VoteStapleBundle where
  blocks : List Bytes
  votes : List Bytes
  deriving DecidableEq, Repr

/-- Decoded body of the `hashData` extension. -/
structure HashData where
  algorithm : VoteOid
  hashes : List Bytes
  deriving DecidableEq, Repr

/-- One entry inside the `fees` extension. -/
structure FeeEntry where
  quote : Bool
  amount : Int
  payTo : Option Bytes
  token : Option Bytes
  deriving DecidableEq, Repr

/-- Decoded body of the `fees` extension. -/
inductive FeesBody where
  | single (entry : FeeEntry)
  | multiple (entries : List FeeEntry)
  deriving DecidableEq, Repr

end KeetaNode.Asn1
