import KeetaNode.Asn1.Vote.Types

/-!
# Vote codec

The `der`-backed writer and reader of
`keetanetwork-asn1/src/vote/codec/der_codec.rs`, function by function. The
content octets of an object identifier are the `const-oid` crate's and stay a
parameter (`OidCodec`).
-/

namespace KeetaNode.Asn1

open ByteCodec

/-- Content octets of object identifiers. -/
class OidCodec where
  /-- `ObjectIdentifier::new` on the dotted form, then its octets. -/
  encodeArcs : List UInt32 → Except Asn1Error Bytes
  /-- The arcs of `ObjectIdentifier::decode`. -/
  decodeArcs : Bytes → Except Asn1Error (List UInt32)

/-- Object identifiers are read back from the octets written for them. -/
class LawfulOidCodec [OidCodec] : Prop where
  decode_encode {arcs : List UInt32} {content : Bytes} :
    OidCodec.encodeArcs arcs = .ok content → OidCodec.decodeArcs content = .ok arcs

def versionTag : Fin 31 := 0
def extensionsTag : Fin 31 := 3
def hashDataOuterTag : Fin 31 := 0
def feeOuterTag : Fin 31 := 0
def feeMultipleTag : Fin 31 := 0
def feePayToTag : Fin 31 := 0
def feeTokenTag : Fin 31 := 1
def voteVersionValue : Int := 2

def slot (s : VoteDecodeSlot) : Asn1Error := .voteDecode s

def stapleSlot (s : VoteStapleDecodeSlot) : Asn1Error := .voteStapleDecode s

/-- The error for bytes left over after a structure. -/
def trailingData : Asn1Error := unexpectedTag .sequence

variable [Tlv Tag Asn1Error] [OidCodec]

/-! ## Shared pieces -/

def encodeOid (out : Bytes) (oid : VoteOid) : Except Asn1Error Bytes := do
  appendTlv .objectIdentifier out (← OidCodec.encodeArcs oid.arcs)

def decodeOid : Reader Asn1Error VoteOid := do
  let content ← readFixed .objectIdentifier
  return ⟨← OidCodec.decodeArcs content⟩

def encodeSignatureAlgoSequence (algo : VoteSignatureAlgo) : Except Asn1Error Bytes := do
  wrapSequence (← encodeOid [] algo.oid)

def decodeSignatureAlgoSequence : Reader Asn1Error VoteSignatureAlgo := do
  let inner ← readSequence
  let oid ← within inner (toEnd trailingData decodeOid)
  VoteSignatureAlgo.tryFrom oid

def encodeAttribute (attr : AttributeTypeAndValue) : Except Asn1Error Bytes := do
  let content ← encodeOid [] attr.oid
  let content ← encodeUtf8 content attr.value
  wrapSequence content

def encodeRdn (rdn : List AttributeTypeAndValue) : Except Asn1Error Bytes := do
  let content ← appendEach (fun out attr => do return out ++ (← encodeAttribute attr))
    [] rdn
  wrapSet content

def encodeDistinguishedName (dn : DistinguishedName) : Except Asn1Error Bytes := do
  let content ← appendEach (fun out rdn => do return out ++ (← encodeRdn rdn)) [] dn.rdns
  wrapSequence content

def attributeFields : Reader Asn1Error AttributeTypeAndValue := do
  let oid ← decodeOid
  let value ← readUtf8
  return { oid, value }

def decodeAttribute : Reader Asn1Error AttributeTypeAndValue := do
  let content ← readSequence
  within content (toEnd trailingData attributeFields)

def decodeRdn : Reader Asn1Error (List AttributeTypeAndValue) := do
  let content ← readSet
  within content (untilFinished decodeAttribute)

def decodeDistinguishedName : Reader Asn1Error DistinguishedName := do
  let content ← readSequence
  let rdns ← within content (untilFinished decodeRdn)
  return { rdns }

omit [OidCodec] in
def encodeValidity (validity : CertificateValidity) : Except Asn1Error Bytes := do
  let content ← encodeTime [] validity.notBefore
  let content ← encodeTime content validity.notAfter
  wrapSequence content

omit [OidCodec] in
def validityFields [Chrono] : Reader Asn1Error CertificateValidity := do
  let notBefore ← readTime
  let notAfter ← readTime
  return { notBefore, notAfter }

omit [OidCodec] in
def decodeValidity [Chrono] : Reader Asn1Error CertificateValidity := do
  let content ← readSequence
  within content (toEnd trailingData validityFields)

def encodeKeyAlgorithm : VoteSubjectPublicKey → Except Asn1Error Bytes
  | .ed25519 _ => encodeOid [] Oids.ed25519
  | .ecdsa curve _ => do
    let content ← encodeOid [] Oids.ecPublicKey
    encodeOid content curve.oid

omit [Tlv Tag Asn1Error] [OidCodec] in
/-- The BIT STRING contents of a subject public key. -/
def VoteSubjectPublicKey.key : VoteSubjectPublicKey → Bytes
  | .ed25519 key => key
  | .ecdsa _ key => key

def encodeSubjectPublicKeyInfo (spki : VoteSubjectPublicKey) : Except Asn1Error Bytes := do
  let algorithm ← wrapSequence (← encodeKeyAlgorithm spki)
  let bitString ← encodeBitString spki.key
  wrapSequence (algorithm ++ bitString)

/-- The key kind of an algorithm identifier: `none` for Ed25519, else the curve. -/
def decodeKeyAlgorithm : Reader Asn1Error (Option EcdsaCurve) := do
  let first ← decodeOid
  if first = Oids.ed25519 then
    finished trailingData
    return none
  else if first = Oids.ecPublicKey then
    let curve ← decodeOid
    finished trailingData
    if curve = Oids.secp256k1 then return some .secp256k1
    else if curve = Oids.secp256r1 then return some .secp256r1
    else throw (.invalidOid curve.toString)
  else throw (.invalidOid first.toString)

def subjectPublicKeyFields : Reader Asn1Error VoteSubjectPublicKey := do
  let algorithm ← readSequence
  let keyKind ← within algorithm decodeKeyAlgorithm
  let raw ← readBitString
  finished trailingData
  match keyKind with
  | none => return .ed25519 raw
  | some curve => return .ecdsa curve raw

def decodeSubjectPublicKeyInfo : Reader Asn1Error VoteSubjectPublicKey := do
  let content ← readSequence
  within content subjectPublicKeyFields

/-! ## Extensions -/

omit [OidCodec] in
/-- The criticality flag, whose default is left out. -/
def encodeCritical (out : Bytes) (critical : Bool) : Except Asn1Error Bytes :=
  if critical then encodeBool out true else .ok out

def encodeExtension (value : Extension) : Except Asn1Error Bytes := do
  let content ← encodeOid [] value.oid
  let content ← encodeCritical content value.critical
  let content ← encodeOctet content value.value
  wrapSequence content

/-- The criticality is `DEFAULT FALSE`: the value may follow the identifier directly. -/
def criticalByTag : Tag → Reader Asn1Error Bool
  | .boolean => readBool
  | .octetString => return false
  | actual => throw (unexpectedTag actual)

omit [OidCodec] in
def readCritical : Reader Asn1Error Bool := do
  criticalByTag (← probeTag)

def extensionFields : Reader Asn1Error Extension := do
  let oid ← decodeOid
  let critical ← readCritical
  let value ← readOctet
  return { oid, critical, value }

def decodeExtension (bytes : Bytes) : Except Asn1Error Extension := do
  let inner ← within bytes (toEnd trailingData readSequence)
  within inner (toEnd trailingData extensionFields)

def encodeExtensionsField (extensions : List Extension) : Except Asn1Error Bytes := do
  let content ← appendEach (fun out extension => do return out ++ (← encodeExtension extension))
    [] extensions
  wrapContext extensionsTag (← wrapSequence content)

def decodeExtensionElement : Reader Asn1Error Extension := do
  let tlv ← captureTlv .sequence unexpectedTag
  decodeExtension tlv

def decodeExtensionsField : Reader Asn1Error (List Extension) := do
  let inner ← readExplicitContext extensionsTag
  let sequence ← within inner (toEnd trailingData readSequence)
  within sequence (untilFinished decodeExtensionElement)

/-! ## Hash data and fees -/

def encodeHashData (value : HashData) : Except Asn1Error Bytes := do
  let hashes ← wrapSequence (← appendEach encodeOctet [] value.hashes)
  let inner ← encodeOid [] value.algorithm
  wrapContext hashDataOuterTag (← wrapSequence (inner ++ hashes))

def hashDataFields : Reader Asn1Error (VoteOid × Bytes) := do
  let algorithm ← decodeOid
  let hashes ← readSequence
  return (algorithm, hashes)

def decodeHashData (bytes : Bytes) : Except Asn1Error HashData := do
  let outer ← within bytes (toEnd trailingData (readExplicitContext hashDataOuterTag))
  let sequence ← within outer (toEnd trailingData readSequence)
  let (algorithm, content) ← within sequence (toEnd trailingData hashDataFields)
  let hashes ← within content (untilFinished readOctet)
  return { algorithm, hashes }

section Fees

omit [OidCodec]

def encodeFeeEntry (entry : FeeEntry) : Except Asn1Error Bytes := do
  let content ← encodeBool [] entry.quote
  let content ← encodeBigint content entry.amount
  let content ← appendOptional (appendTlv (.contextSpecific false feePayToTag)) content entry.payTo
  let content ← appendOptional (appendTlv (.contextSpecific false feeTokenTag)) content entry.token
  wrapSequence content

/-- One round of the loop over the optional fields of an entry: `pay_to`, then `token`. -/
def readFeeParty (parties : Option Bytes × Option Bytes) :
    Reader Asn1Error (Option Bytes × Option Bytes) := do
  match (← probeTag) with
  | .contextSpecific false number =>
    if number = feePayToTag then
      return (some (← readImplicitOctetContext feePayToTag), parties.2)
    else if number = feeTokenTag then
      return (parties.1, some (← readImplicitOctetContext feeTokenTag))
    else throw (unexpectedTag (.contextSpecific false number))
  | actual => throw (unexpectedTag actual)

def feeEntryFields : Reader Asn1Error FeeEntry := do
  let quote ← readBool
  let amount ← readBigint
  let (payTo, token) ← whileUnfinished readFeeParty (none, none)
  return { quote, amount, payTo, token }

def decodeFeeEntry (content : Bytes) : Except Asn1Error FeeEntry :=
  within content feeEntryFields

/-- A single entry goes inline, several in a list under a context tag of their own. -/
def encodeFeesInner : FeesBody → Except Asn1Error Bytes
  | .single entry => encodeFeeEntry entry
  | .multiple entries => do
    let content ← appendEach (fun out entry => do return out ++ (← encodeFeeEntry entry)) [] entries
    wrapContext feeMultipleTag (← wrapSequence content)

def encodeFees (value : FeesBody) : Except Asn1Error Bytes := do
  wrapContext feeOuterTag (← encodeFeesInner value)

def decodeFeeElement : Reader Asn1Error FeeEntry := do
  let content ← readSequence
  decodeFeeEntry content

def feesFields : Reader Asn1Error FeesBody := do
  match (← probeTag) with
  | .sequence =>
    let entry ← toEnd trailingData decodeFeeElement
    return .single entry
  | .contextSpecific true number =>
    if number = feeMultipleTag then
      let multi ← toEnd trailingData (readExplicitContext feeMultipleTag)
      let entries ← within multi (toEnd trailingData readSequence)
      return .multiple (← within entries (untilFinished decodeFeeElement))
    else throw (unexpectedTag (.contextSpecific true number))
  | actual => throw (unexpectedTag actual)

def decodeFees (bytes : Bytes) : Except Asn1Error FeesBody := do
  let inner ← within bytes (toEnd trailingData (readExplicitContext feeOuterTag))
  within inner feesFields

end Fees

/-! ## Certificates -/

def encodeTbs (tbs : TbsCertificate) : Except Asn1Error Bytes := do
  let version ← wrapContext versionTag (← encodeBigint [] voteVersionValue)
  let out ← encodeBigint version tbs.serialNumber
  let out := out ++ (← encodeSignatureAlgoSequence tbs.signatureAlgo)
  let out := out ++ (← encodeDistinguishedName tbs.issuer)
  let out := out ++ (← encodeValidity tbs.validity)
  let out := out ++ (← encodeDistinguishedName tbs.subject)
  let out := out ++ (← encodeSubjectPublicKeyInfo tbs.subjectPublicKey)
  let out := out ++ (← encodeExtensionsField tbs.extensions)
  wrapSequence out

def encodeVote (value : VoteCertificate) : Except Asn1Error Bytes := do
  let out ← encodeTbs value.tbs
  let out := out ++ (← encodeSignatureAlgoSequence value.signatureAlgo)
  let out := out ++ (← encodeBitString value.signature)
  wrapSequence out

variable [Chrono]

def tbsFields : Reader Asn1Error TbsCertificate := do
  let versionBytes ← orError (readExplicitContext versionTag) (slot .version)
  let version ← withinOr versionBytes (slot .versionValue)
    (toEnd (slot .versionValue) (orError readBigint (slot .versionValue)))
  rejectIf (version ≠ voteVersionValue) Asn1Error.invalidVoteVersion
  let serialNumber ← orError readBigint (slot .serial)
  let signatureAlgo ← orError decodeSignatureAlgoSequence (slot .signatureAlgorithm)
  let issuer ← orError decodeDistinguishedName (slot .issuer)
  let validity ← orError decodeValidity (slot .validity)
  let subject ← orError decodeDistinguishedName (slot .subject)
  let subjectPublicKey ← orError decodeSubjectPublicKeyInfo (slot .subjectPublicKey)
  let extensions ← orError decodeExtensionsField (slot .extensions)
  return { serialNumber, signatureAlgo, issuer, validity, subject, subjectPublicKey, extensions }

def decodeTbs (tbsBytes : Bytes) : Except Asn1Error TbsCertificate := do
  let content ← withinOr tbsBytes (slot .tbsContent)
    (toEnd (slot .tbsContent) (orError readSequence (slot .tbsContent)))
  withinOr content (slot .tbsContent) (toEnd (slot .tbsExtraData) tbsFields)

def wrapperFields : Reader Asn1Error DecodedVoteCertificate := do
  let tbsBytes ← orError (captureTlv .sequence unexpectedTag) (slot .tbsContent)
  let tbs ← decodeTbs tbsBytes
  let signatureAlgo ← orError decodeSignatureAlgoSequence (slot .wrapperSignatureAlgorithm)
  let signature ← orError readBitString (slot .signatureValue)
  return { tbs, tbsBytes, signatureAlgo, signature }

def decodeVote (bytes : Bytes) : Except Asn1Error DecodedVoteCertificate := do
  let inner ← withinOr bytes (slot .wrapper)
    (toEnd (slot .wrapperExtraData) (orError readSequence (slot .wrapper)))
  -- wrappers that are not exactly three elements are rejected before any slot is inspected
  let count ← withinOr inner (slot .wrapper) (countElements (slot .wrapper))
  rejectIf (count ≠ 3) (slot .wrapper)
  withinOr inner (slot .wrapper) (toEnd (slot .signatureValue) wrapperFields)

/-! ## Staples -/

section Staple

omit [OidCodec] [Chrono]

def encodeVoteStaple (bundle : VoteStapleBundle) : Except Asn1Error Bytes := do
  let blocks ← wrapSequence (← appendEach encodeOctet [] bundle.blocks)
  let votes ← wrapSequence (← appendEach encodeOctet [] bundle.votes)
  wrapSequence (blocks ++ votes)

def octetList (s : VoteStapleDecodeSlot) : Reader Asn1Error (List Bytes) := do
  let content ← orError readSequence (stapleSlot s)
  withinOr content (stapleSlot s) (untilFinished (orError readOctet (stapleSlot s)))

def bundleFields : Reader Asn1Error VoteStapleBundle := do
  let blocks ← octetList .blocks
  let votes ← octetList .votes
  return { blocks, votes }

def decodeVoteStaple (bytes : Bytes) : Except Asn1Error VoteStapleBundle := do
  let inner ← withinOr bytes (stapleSlot .wrapper)
    (toEnd (stapleSlot .wrapperExtraData) (orError readSequence (stapleSlot .wrapper)))
  let count ← withinOr inner (stapleSlot .wrapper) (countElements (stapleSlot .wrapper))
  rejectIf (count ≠ 2) (stapleSlot .wrapper)
  withinOr inner (stapleSlot .wrapper) (toEnd (stapleSlot .wrapperExtraData) bundleFields)

end Staple

end KeetaNode.Asn1
