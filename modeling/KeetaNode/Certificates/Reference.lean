import KeetaNode.Asn1.Reference
import KeetaNode.Certificates.Types
import KeetaNode.Crypto.Reference

/-!
# Sample certificates

The encoders of certificates that the `der` crate derives, written out over the
definite-length framing, and a few certificates with Ed25519 keys and signatures.
-/

namespace KeetaNode.Certificates

open ByteCodec Asn1

/-! ## Encoding -/

namespace Reference

/-- An element of definite length. -/
def element (tag : Tag) (content : Bytes) : Bytes :=
  tag.octet :: lengthOctets content.length ++ content

def oidElement (oid : ObjectIdentifier) : Bytes :=
  match Asn1.Reference.encodeArcs oid.arcs with
  | .ok content => element .objectIdentifier content
  | .error _ => []

def anyElement (any : AnyElement) : Bytes := element any.tag any.value

def algorithmElement (algorithm : AlgorithmIdentifier) : Bytes :=
  element .sequence
    (oidElement algorithm.algorithm ++ (algorithm.parameters.map anyElement).getD [])

def bitStringContent (bits : BitString) : Bytes := UInt8.ofNat bits.unusedBits :: bits.rawBytes

def nameElement (name : DistinguishedName) : Bytes :=
  element .sequence (name.rdns.flatMap fun attributes =>
    element .set (attributes.flatMap fun item =>
      element .sequence (oidElement item.oid ++ anyElement item.value)))

/-- A UTCTime has two digits of the year, a GeneralizedTime four. -/
def timeElement : Time → Bytes
  | .utcTime date =>
    element .utcTime (utf8Bytes (String.ofList (date.moment.formatSeconds.drop 2 ++ ['Z'])))
  | .generalTime date =>
    element .generalizedTime (utf8Bytes (String.ofList (date.moment.formatSeconds ++ ['Z'])))

def extensionElement (extension : Extension) : Bytes :=
  element .sequence (oidElement extension.extnId ++
    (if extension.critical then element .boolean [0xFF] else []) ++
    element .octetString extension.extnValue)

/-- The version number in its explicit tag, left out where it is the default. -/
def versionElement : Version → Bytes
  | .v1 => []
  | .v2 => element (.contextSpecific true 0) (element .integer [1])
  | .v3 => element (.contextSpecific true 0) (element .integer [2])

def spkiElement (info : SubjectPublicKeyInfo) : Bytes :=
  element .sequence (algorithmElement info.algorithm ++
    element .bitString (bitStringContent info.subjectPublicKey))

def uniqueIdElement (number : Fin 31) (id : Option BitString) : Bytes :=
  match id with
  | some bits => element (.contextSpecific false number) (bitStringContent bits)
  | none => []

def tbsElement (tbs : TbsCertificate) : Bytes :=
  element .sequence (versionElement tbs.version ++ element .integer tbs.serialNumber ++
    algorithmElement tbs.signatureAlgorithm ++ nameElement tbs.issuer ++
    element .sequence (timeElement tbs.validity.notBefore ++ timeElement tbs.validity.notAfter) ++
    nameElement tbs.subject ++ spkiElement tbs.subjectPublicKeyInfo ++
    uniqueIdElement 1 tbs.issuerUniqueId ++ uniqueIdElement 2 tbs.subjectUniqueId ++
    (match tbs.extensions with
    | some extensions =>
      element (.contextSpecific true 3) (element .sequence (extensions.flatMap extensionElement))
    | none => []))

def certificateElement (certificate : Certificate) : Bytes :=
  element .sequence (tbsElement certificate.tbsCertificate ++
    algorithmElement certificate.signatureAlgorithm ++
    element .bitString (bitStringContent certificate.signature))

/-- A BOOLEAN that is false by default, and a number of one octet. -/
def decodeBasicConstraints : Bytes → Option BasicConstraints
  | [0x30, 0x00] => some ⟨false, none⟩
  | [0x30, 0x03, 0x01, 0x01, 0xFF] => some ⟨true, none⟩
  | [0x30, 0x03, 0x02, 0x01, n] => if n < 0x80 then some ⟨false, some n⟩ else none
  | [0x30, 0x06, 0x01, 0x01, 0xFF, 0x02, 0x01, n] =>
    if n < 0x80 then some ⟨true, some n⟩ else none
  | _ => none

/-- No sample declares a SHA-256 digest or an ECDSA key. -/
scoped instance certificateCodec : CertificateCodec where
  encodeTbs tbs := .ok (tbsElement tbs)
  encode certificate := .ok (certificateElement certificate)
  basicConstraints := decodeBasicConstraints
  sha2_256 _ := ⟨List.replicate 32 0, rfl⟩
  signatureAccepts _ _ := false
  displayDer error := reprStr error
  displayAsn1 error := reprStr error

end Reference

/-! ## Samples -/

namespace Sample

open KeetaNode.Reference (aliceKey bobKey)

/-- A name of one common name. -/
def name (text : String) : DistinguishedName :=
  ⟨[[⟨⟨[2, 5, 4, 3]⟩, ⟨.ia5String, utf8Bytes text⟩⟩]]⟩

/-- The year 2025. -/
def validity : Validity where
  notBefore := .utcTime ⟨⟨2025, 1, 1, 0, 0, 0, 0, by decide⟩, by decide⟩
  notAfter := .utcTime ⟨⟨2025, 12, 31, 23, 59, 59, 0, by decide⟩, by decide⟩

def ed25519 : AlgorithmIdentifier := ⟨Oids.ed25519, none⟩

/-- Basic constraints with `CA = true`. -/
def authority : Extension := ⟨Oids.basicConstraints, true, [0x30, 0x03, 0x01, 0x01, 0xFF]⟩

def tbs (serial : UInt8) (subject issuer : String) (key : Bytes)
    (extensions : Option (List Extension)) : TbsCertificate where
  version := .v3
  serialNumber := [serial]
  signatureAlgorithm := ed25519
  issuer := name issuer
  validity
  subject := name subject
  subjectPublicKeyInfo := ⟨ed25519, .fromBytes key⟩
  issuerUniqueId := none
  subjectUniqueId := none
  extensions

/-- A certificate with the signature of a key's owner. -/
def signedBy (key : Bytes) (tbs : TbsCertificate) : Certificate where
  tbsCertificate := tbs
  signatureAlgorithm := ed25519
  signature := .fromBytes <|
    match KeetaNode.Reference.signatureBy key (Reference.tbsElement tbs) with
    | .ok signature => signature
    | .error _ => []

/-- Two authorities that have certified each other, and a subject of the first. -/
def crossA : Certificate := signedBy bobKey (tbs 1 "A" "B" aliceKey (some [authority]))

def crossB : Certificate := signedBy aliceKey (tbs 2 "B" "A" bobKey (some [authority]))

def subjectOfA : Certificate := signedBy aliceKey (tbs 3 "S" "A" bobKey none)

/-- A certificate in its own name with a signature of zeros, an end-entity certificate of
its key, and a certificate that the end entity has issued. -/
def forgedAnchor : Certificate where
  tbsCertificate := tbs 4 "R" "R" aliceKey none
  signatureAlgorithm := ed25519
  signature := .fromBytes (List.replicate 64 0)

def endEntity : Certificate := signedBy aliceKey (tbs 5 "M" "R" bobKey none)

def issuedByEndEntity : Certificate := signedBy bobKey (tbs 6 "E" "M" aliceKey none)

end Sample

end KeetaNode.Certificates
