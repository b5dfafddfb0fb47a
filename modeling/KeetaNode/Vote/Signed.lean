import KeetaNode.Vote.Certificate
import KeetaNode.Asn1.Vote.RoundTrip
import KeetaNode.Asn1.Reference
import KeetaNode.Crypto.Reference

/-!
# Signed votes on the wire

When a signed vote decodes from its own bytes, and when a decoded vote could have been
constructed.

- `keetanetwork-vote/src/vote.rs`
- `keetanetwork-vote/src/cert.rs`
-/

namespace KeetaNode

open ByteCodec
open Asn1 (Tag Asn1Error Chrono LawfulChrono OidCodec LawfulOidCodec)

/-! ## Extensions are read back -/

theorem mapM_hashFromBytes (blocks : List BlockHash) :
    (blocks.map Octets.bytes).mapM hashFromBytes = .ok blocks := by
  have hread : ∀ hash ∈ blocks, hashFromBytes hash.bytes = .ok (id hash) := by
    intro hash _
    simp [hashFromBytes]
  rw [mapM_map_eq_ok hread, List.map_id]

section Wire

variable [Crypto] [Tlv Tag Asn1Error] [OidCodec]

theorem buildExtensionList_eq_ok {blocks : List BlockHash} {fees : Option Fees}
    {extensions : List Asn1.Extension} (h : buildExtensionList blocks fees = .ok extensions) :
    ∃ value rest, extensions = ⟨Asn1.Oids.hashData, true, value⟩ :: rest ∧
      Asn1.encodeHashData ⟨Asn1.Oids.sha3_256, blocks.map Octets.bytes⟩ = .ok value ∧
      feesExtension fees = .ok rest := by
  simp only [buildExtensionList, bind_eq_ok, asVoteAsn1Error_eq_ok, pure_eq_ok,
    Except.ok.injEq] at h
  obtain ⟨value, hvalue, rest, hrest, rfl⟩ := h
  exact ⟨value, rest, rfl, hvalue, hrest⟩

variable [LawfulTlv Tag Asn1Error]

omit [Crypto] in
theorem blocksFromExtension_eq_ok [LawfulOidCodec] {blocks : List BlockHash} {value : Bytes}
    (h : Asn1.encodeHashData ⟨Asn1.Oids.sha3_256, blocks.map Octets.bytes⟩ = .ok value) :
    blocksFromExtension value = .ok blocks := by
  have halgorithm : ¬ Asn1.Oids.sha3_256 ≠ Asn1.Oids.sha3_256 := not_not.mpr rfl
  simp only [blocksFromExtension, Asn1.decodeHashData_encodeHashData h, orVoteError, ok_bind,
    rejectIf_neg halgorithm, mapM_hashFromBytes]

omit [OidCodec] in
theorem feesFromExtension_eq_ok_iff [LawfulCrypto] {fees parsed : Fees} {body : Asn1.FeesBody}
    {value : Bytes} (hbody : fees.toTransport = .ok body)
    (hvalue : Asn1.encodeFees body = .ok value) :
    feesFromExtension value = .ok parsed ↔
      parsed = fees ∧ ∀ quote, fees ≠ .multiple quote [] := by
  simp only [feesFromExtension, Asn1.decodeFees_encodeFees hvalue, orVoteError, ok_bind]
  exact Fees.fromTransport_toTransport hbody parsed

/-- What the extensions were built from is collected, unless the fees are an empty list. -/
theorem collectExtensions_eq_ok_iff [LawfulCrypto] [LawfulOidCodec] {blocks : List BlockHash}
    {fees : Option Fees} {extensions : List Asn1.Extension}
    (h : buildExtensionList blocks fees = .ok extensions) (found : List BlockHash × Option Fees) :
    collectExtensions extensions = .ok found ↔
      found = (blocks, fees) ∧ ∀ quote, fees ≠ some (.multiple quote []) := by
  obtain ⟨value, rest, rfl, hvalue, hrest⟩ := buildExtensionList_eq_ok h
  have hfirst : collectExtension ⟨none, none⟩ ⟨Asn1.Oids.hashData, true, value⟩ =
      .ok ⟨some blocks, none⟩ := by
    simp [collectExtension, blocksFromExtension_eq_ok hvalue]
  cases fees with
  | none =>
    cases hrest
    simp [collectExtensions, hfirst, eq_comm]
  | some fees =>
    simp only [feesExtension, bind_eq_ok, asVoteAsn1Error_eq_ok, pure_eq_ok, Except.ok.injEq]
      at hrest
    obtain ⟨body, hbody, feesValue, hfees, rfl⟩ := hrest
    -- the blocks come first, and the fees are added to them
    have hsecond : collectExtension ⟨some blocks, none⟩ ⟨Asn1.Oids.fees, true, feesValue⟩ =
        (feesFromExtension feesValue >>= fun fees => .ok ⟨some blocks, some fees⟩) := by
      have hoid : Asn1.Oids.fees ≠ Asn1.Oids.hashData := by decide
      simp [collectExtension, hoid]
    simp only [collectExtensions, List.foldlM_cons, List.foldlM_nil, hfirst, hsecond, ok_bind,
      bind_eq_ok, feesFromExtension_eq_ok_iff hbody hfees, pure_eq_ok, Except.ok.injEq]
    constructor
    · rintro ⟨collected, ⟨again, ⟨parsed, ⟨rfl, hne⟩, rfl⟩, rfl⟩, found', hfound', rfl⟩
      cases hfound'
      exact ⟨rfl, fun quote heq => hne quote (Option.some.inj heq)⟩
    · rintro ⟨rfl, hne⟩
      exact ⟨⟨some blocks, some fees⟩, ⟨_, ⟨fees, ⟨rfl, fun quote heq => hne quote
        (congrArg some heq)⟩, rfl⟩, rfl⟩, blocks, rfl, rfl⟩

/-! ## Certificates -/

variable [NumBigint]

omit [LawfulTlv Tag Asn1Error] in
theorem buildTbs_eq_ok {serial : Int} {algo : SignatureAlgo} {issuer : GenericAccount}
    {validity : Validity} {blocks : List BlockHash} {fees : Option Fees}
    {tbs : Asn1.TbsCertificate} :
    buildTbs serial algo issuer validity blocks fees = .ok tbs ↔
      SignatureAlgo.fromIssuer issuer = .ok algo ∧
        ∃ key extensions, subjectPublicKeyForIssuer issuer = .ok key ∧
          buildExtensionList blocks fees = .ok extensions ∧
          tbs = {
            serialNumber := serial
            signatureAlgo := algo.toTransport
            issuer := dnWithAttribute Asn1.Oids.commonName issuer.toString
            validity := ⟨validity.start, validity.stop⟩
            subject := dnWithAttribute Asn1.Oids.serialNumber (NumBigint.toStrRadix16 serial)
            subjectPublicKey := key
            extensions } := by
  simp only [buildTbs, buildTbsInner, bind_eq_ok, rejectIf_eq_ok, not_not, pure_eq_ok,
    Except.ok.injEq]
  constructor
  · rintro ⟨expected, hexpected, _, rfl, key, hkey, extensions, hextensions, rfl⟩
    exact ⟨hexpected, key, extensions, hkey, hextensions, rfl⟩
  · rintro ⟨halgo, key, extensions, hkey, hextensions, rfl⟩
    exact ⟨algo, halgo, (), rfl, key, hkey, extensions, hextensions, rfl⟩

omit [Tlv Tag Asn1Error] [OidCodec] [LawfulTlv Tag Asn1Error] [NumBigint] in
theorem decodeSubjectPublicKey_forIssuer [LawfulCrypto] {issuer : GenericAccount}
    {key : Asn1.VoteSubjectPublicKey} (h : subjectPublicKeyForIssuer issuer = .ok key) :
    decodeSubjectPublicKey key = .ok issuer := by
  have hparts : subjectKeyParts key = (issuer.keyType, issuer.publicKey) := by
    unfold subjectPublicKeyForIssuer at h
    cases hkind : issuer.keyType <;> simp only [hkind, reduceCtorEq, Except.ok.injEq] at h <;>
      · subst h
        rfl
  have hread := GenericAccount.fromHex_toPublicKeyWithType issuer
  simp only [GenericAccount.toPublicKeyWithType] at hread
  simp only [decodeSubjectPublicKey, hparts, hread, orVoteError]

variable [Chrono]

/-- A certificate that was built is decoded to what it was built from, unless the fees are
an empty list. -/
theorem decodeWrapper_encodeVote [LawfulCrypto] [LawfulOidCodec] [LawfulNumBigint] [LawfulChrono]
    {serial : Int} {algo : SignatureAlgo} {issuer : GenericAccount} {validity : Validity}
    {blocks : List BlockHash} {fees : Option Fees} {tbs : Asn1.TbsCertificate}
    {signature bytes tbsBytes : Bytes} (hvalidity : validity.rangeIsWellFormed = true)
    (htbs : buildTbs serial algo issuer validity blocks fees = .ok tbs)
    (htbsBytes : encodeTbs tbs = .ok tbsBytes) (hbytes : encodeVote tbs algo signature = .ok bytes)
    (decoded : DecodedVote) :
    decodeWrapper bytes = .ok decoded ↔
      decoded = ⟨serial, algo, issuer, validity, blocks, fees, signature, tbsBytes⟩ ∧
        ∀ quote, fees ≠ some (.multiple quote []) := by
  obtain ⟨halgo, key, extensions, hkey, hextensions, rfl⟩ := buildTbs_eq_ok.mp htbs
  simp only [encodeVote, encodeTbs, asVoteAsn1Error_eq_ok] at htbsBytes hbytes
  obtain ⟨found, hfound, hdecoded⟩ := Asn1.decodeVote_encodeVote hbytes
  rw [htbsBytes, Except.ok.injEq] at hfound
  subst hfound
  have hissuer : (algo.matchesIssuer issuer) = true := SignatureAlgo.matchesIssuer_iff.mpr halgo
  have hwindow : Validity.tryNew validity.start validity.stop = .ok validity :=
    Validity.tryNew_eq_ok.mpr ⟨rfl, hvalidity⟩
  -- every field is read as it was built; only an empty list of fees is refused
  simp only [decodeWrapper, decodeTransport, hdecoded, ok_bind,
    SignatureAlgo.fromTransport_toTransport, ne_eq, not_true_eq_false, rejectIf, if_false,
    decodeIssuer, takeDnValue_dnWithAttribute,
    GenericAccount.fromStr_toString, orVoteError, hissuer, Bool.true_eq_false, checkSubjectSerial,
    Option.bind_some, LawfulNumBigint.fromStr_toStr, decodeSubjectPublicKey_forIssuer hkey, hwindow,
    bind_eq_ok, collectExtensions_eq_ok_iff hextensions, pure_eq_ok, Except.ok.injEq]
  constructor
  · rintro ⟨found, ⟨rfl, hne⟩, rfl⟩
    exact ⟨rfl, hne⟩
  · rintro ⟨rfl, hne⟩
    exact ⟨(blocks, fees), ⟨rfl, hne⟩, rfl⟩

omit [LawfulTlv Tag Asn1Error] in
theorem Vote.fromSerialized_eq_ok {bytes : Bytes} {vote : Vote} :
    Vote.fromSerialized bytes = .ok vote ↔
      vote.serialized = bytes ∧ decodeWrapper bytes = .ok vote.decoded ∧
        ∃ tbs, buildTbs vote.decoded.serial vote.decoded.signatureAlgo vote.decoded.issuer
            vote.decoded.validity vote.decoded.blocks vote.decoded.fees = .ok tbs ∧
          KeetaNode.encodeTbs tbs = .ok vote.decoded.tbsBytes ∧
          KeetaNode.encodeVote tbs vote.decoded.signatureAlgo vote.decoded.signature =
            .ok bytes := by
  simp only [fromSerialized, bind_eq_ok, rejectIf_eq_ok, not_not, pure_eq_ok, Except.ok.injEq]
  constructor
  · rintro ⟨decoded, hdecoded, tbs, htbs, canonicalTbs, hcanonical, _, rfl, canonical, hbytes, _,
      rfl, rfl⟩
    exact ⟨rfl, hdecoded, tbs, htbs, hcanonical, hbytes⟩
  · rintro ⟨rfl, hdecoded, tbs, htbs, hcanonical, hbytes⟩
    exact ⟨vote.decoded, hdecoded, tbs, htbs, _, hcanonical, (), rfl, _, hbytes, (), rfl, rfl⟩

omit [LawfulTlv Tag Asn1Error] [Chrono] in
theorem UnsignedVote.sign_eq_ok {unsigned : UnsignedVote} {vote : Vote}
    {signForCert : Bytes → Except AccountError Bytes}
    (h : unsigned.sign signForCert = .ok vote) :
    ∃ algo tbs tbsBytes signature,
      buildTbs unsigned.serial algo unsigned.issuer unsigned.validity unsigned.blocks
        unsigned.fees = .ok tbs ∧
      KeetaNode.encodeTbs tbs = .ok tbsBytes ∧
      KeetaNode.encodeVote tbs algo signature = .ok vote.serialized ∧
      vote.decoded = ⟨unsigned.serial, algo, unsigned.issuer, unsigned.validity, unsigned.blocks,
        unsigned.fees, signature, tbsBytes⟩ := by
  simp only [sign, bind_eq_ok, asVoteAccountError_eq_ok, pure_eq_ok, Except.ok.injEq] at h
  obtain ⟨algo, -, tbs, htbs, tbsBytes, htbsBytes, signature, -, serialized, hbytes, rfl⟩ := h
  exact ⟨algo, tbs, tbsBytes, signature, htbs, htbsBytes, hbytes, rfl⟩

/-! ## Decoded votes are rebuilt -/

/-- The constructor takes the contents of a decoded vote, signs over the same octets, and
wrapping these with the vote's signature gives back the certificate. -/
def Vote.RebuildsTo (vote : Vote) (bytes : Bytes) : Prop :=
  ∃ unsigned, UnsignedVote.tryNew vote.decoded.serial vote.decoded.issuer vote.decoded.validity
      vote.decoded.blocks vote.decoded.fees = .ok unsigned ∧
    unsigned.tbsBytes = .ok vote.decoded.tbsBytes ∧
    ∃ algo tbs, SignatureAlgo.fromIssuer unsigned.issuer = .ok algo ∧
      buildTbs unsigned.serial algo unsigned.issuer unsigned.validity unsigned.blocks
        unsigned.fees = .ok tbs ∧
      encodeVote tbs algo vote.decoded.signature = .ok bytes

/-- A hash-data extension of the certificate lists at least one hash. -/
def ListsBlocks (bytes : Bytes) : Prop :=
  ∃ decoded, Asn1.decodeVote bytes = .ok decoded ∧
    ∃ extension ∈ decoded.tbs.extensions, extension.oid = Asn1.Oids.hashData ∧
      ∃ hashData, Asn1.decodeHashData extension.value = .ok hashData ∧ hashData.hashes ≠ []

omit [LawfulTlv Tag Asn1Error] in
theorem Vote.fromSerialized_of_verify {bytes : Bytes} {vote : Vote}
    (h : Vote.verify bytes = .ok vote) :
    Vote.fromSerialized bytes = .ok vote ∧ vote.verifySignature = .ok () ∧
      vote.assertQuoteFlag false = .ok () := by
  simp only [verify, bind_eq_ok, pure_eq_ok, Except.ok.injEq] at h
  obtain ⟨found, hfound, ⟨⟩, hsignature, ⟨⟩, hquote, rfl⟩ := h
  exact ⟨hfound, hsignature, hquote⟩

omit [LawfulTlv Tag Asn1Error] in
theorem VoteQuote.fromSerialized_of_verify {bytes : Bytes} {quote : VoteQuote}
    (h : VoteQuote.verify bytes = .ok quote) : Vote.fromSerialized bytes = .ok quote.vote := by
  simp only [verify, tryFromVote, bind_eq_ok, pure_eq_ok, Except.ok.injEq] at h
  obtain ⟨found, hfound, -, -, -, -, -, -, rfl⟩ := h
  exact hfound

/-- The hashes listed in an accepted certificate are the vote's block hashes. -/
theorem listsBlocks_iff [LawfulOidCodec] [LawfulChrono] {bytes : Bytes} {vote : Vote}
    (h : Vote.fromSerialized bytes = .ok vote) :
    ListsBlocks bytes ↔ vote.decoded.blocks ≠ [] := by
  obtain ⟨-, -, tbs, htbs, -, hbytes⟩ := Vote.fromSerialized_eq_ok.mp h
  obtain ⟨-, key, extensions, -, hextensions, rfl⟩ := buildTbs_eq_ok.mp htbs
  obtain ⟨value, rest, rfl, hvalue, hrest⟩ := buildExtensionList_eq_ok hextensions
  simp only [encodeVote, asVoteAsn1Error_eq_ok] at hbytes
  obtain ⟨tbsBytes, -, hdecoded⟩ := Asn1.decodeVote_encodeVote hbytes
  have hread := Asn1.decodeHashData_encodeHashData hvalue
  -- the fees extension is the only other one
  have hother : ∀ extension ∈ rest, extension.oid ≠ Asn1.Oids.hashData := by
    intro extension hmem
    cases hfees : vote.decoded.fees with
    | none =>
      rw [hfees] at hrest
      cases hrest
      cases hmem
    | some fees =>
      rw [hfees] at hrest
      simp only [feesExtension, bind_eq_ok, pure_eq_ok, Except.ok.injEq] at hrest
      obtain ⟨-, -, feesValue, -, rfl⟩ := hrest
      rw [List.mem_singleton.mp hmem]
      exact (by decide : Asn1.Oids.fees ≠ Asn1.Oids.hashData)
  constructor
  · rintro ⟨decoded, hfound, extension, hmem, hoid, hashData, hhashData, hne⟩ hblocks
    rw [hdecoded, Except.ok.injEq] at hfound
    subst hfound
    rcases List.mem_cons.mp hmem with rfl | hmem
    · rw [hread, Except.ok.injEq] at hhashData
      subst hhashData
      exact hne (by simp [hblocks])
    · exact hother extension hmem hoid
  · intro hblocks
    exact ⟨_, hdecoded, _, List.mem_cons_self, rfl, _, hread, by simpa using hblocks⟩

/-- **An accepted vote can be rebuilt from its contents exactly when its certificate lists
a block hash.** -/
theorem rebuildsTo_iff_listsBlocks [LawfulOidCodec] [LawfulChrono] (bytes : Bytes) (vote : Vote)
    (h : Vote.fromSerialized bytes = .ok vote ∨ Vote.verify bytes = .ok vote ∨
      VoteQuote.verify bytes = .ok ⟨vote⟩) :
    vote.RebuildsTo bytes ↔ ListsBlocks bytes := by
  -- the three readers share the first part, and the others only check more
  have haccepted : Vote.fromSerialized bytes = .ok vote := by
    rcases h with h | h | h
    · exact h
    · exact (Vote.fromSerialized_of_verify h).1
    · exact VoteQuote.fromSerialized_of_verify h
  obtain ⟨-, -, tbs, htbs, htbsBytes, hbytes⟩ := Vote.fromSerialized_eq_ok.mp haccepted
  have halgo := (buildTbs_eq_ok.mp htbs).1
  rw [listsBlocks_iff haccepted]
  constructor
  · rintro ⟨unsigned, hnew, -⟩
    simp only [UnsignedVote.tryNew, bind_eq_ok, rejectIf_eq_ok] at hnew
    obtain ⟨-, -, -, hblocks, -⟩ := hnew
    exact hblocks
  · intro hblocks
    refine ⟨⟨_, _, _, _, _⟩, ?_, ?_, vote.decoded.signatureAlgo, tbs, halgo, htbs, hbytes⟩
    · simp only [UnsignedVote.tryNew, halgo, ok_bind, rejectIf_neg hblocks, pure_eq_ok]
    · simp only [UnsignedVote.tbsBytes, halgo, htbs, ok_bind, htbsBytes]

/-! ## Signed votes decode -/

/-- The vote decodes from its own bytes to the same contents. -/
def Vote.DecodesFromBytes (vote : Vote) : Prop :=
  ∃ decoded, Vote.fromSerialized vote.serialized = .ok decoded ∧
    decoded.decoded.serial = vote.decoded.serial ∧
    decoded.decoded.issuer = vote.decoded.issuer ∧
    decoded.decoded.validity = vote.decoded.validity ∧
    decoded.decoded.blocks = vote.decoded.blocks ∧
    decoded.decoded.fees = vote.decoded.fees ∧
    decoded.decoded.signature = vote.decoded.signature ∧
    decoded.decoded.tbsBytes = vote.decoded.tbsBytes

variable [LawfulCrypto] [LawfulOidCodec] [LawfulNumBigint] [LawfulChrono]

/-- Decoding a signed vote's bytes gives back the vote, or fails when its fees are an empty
list. -/
theorem Vote.fromSerialized_of_sign {unsigned : UnsignedVote} {vote decoded : Vote}
    {signForCert : Bytes → Except AccountError Bytes}
    (h : unsigned.sign signForCert = .ok vote)
    (hvalidity : unsigned.validity.rangeIsWellFormed = true) :
    Vote.fromSerialized vote.serialized = .ok decoded ↔
      decoded = vote ∧ ∀ quote, unsigned.fees ≠ some (.multiple quote []) := by
  obtain ⟨algo, tbs, tbsBytes, signature, htbs, htbsBytes, hbytes, hvote⟩ :=
    UnsignedVote.sign_eq_ok h
  rw [fromSerialized_eq_ok, decodeWrapper_encodeVote hvalidity htbs htbsBytes hbytes, ← hvote]
  constructor
  · rintro ⟨hserialized, ⟨hdecoded, hfees⟩, -⟩
    refine ⟨?_, hfees⟩
    obtain ⟨contents, serialized⟩ := decoded
    subst hserialized hdecoded
    rfl
  · rintro ⟨rfl, hfees⟩
    refine ⟨rfl, ⟨rfl, hfees⟩, tbs, ?_⟩
    simp only [hvote]
    exact ⟨htbs, htbsBytes, hbytes⟩

/-- A signed vote is accepted from its own bytes when its signature verifies and its fees,
if it has any, are not those of a quote. -/
theorem Vote.verify_of_sign_fees {unsigned : UnsignedVote} {vote : Vote}
    {signForCert : Bytes → Except AccountError Bytes}
    (h : unsigned.sign signForCert = .ok vote)
    (hvalidity : unsigned.validity.rangeIsWellFormed = true)
    (hfees : ∀ quote, unsigned.fees ≠ some (.multiple quote []))
    (hquote : vote.assertQuoteFlag false = .ok ()) (hsignature : vote.verifySignature = .ok ()) :
    Vote.verify vote.serialized = .ok vote := by
  have hdecoded : Vote.fromSerialized vote.serialized = .ok vote :=
    (Vote.fromSerialized_of_sign h hvalidity).mpr ⟨rfl, hfees⟩
  rw [Vote.verify, hdecoded, ok_bind, hsignature, ok_bind, hquote, ok_bind, pure_eq_ok]

/-- A signed vote without fees is accepted from its own bytes when its signature verifies. -/
theorem Vote.verify_of_sign {unsigned : UnsignedVote} {vote : Vote}
    {signForCert : Bytes → Except AccountError Bytes}
    (h : unsigned.sign signForCert = .ok vote)
    (hvalidity : unsigned.validity.rangeIsWellFormed = true) (hfees : unsigned.fees = none)
    (hsignature : vote.verifySignature = .ok ()) : Vote.verify vote.serialized = .ok vote := by
  obtain ⟨algo, tbs, tbsBytes, signature, -, -, -, hvote⟩ := UnsignedVote.sign_eq_ok h
  have hquote : vote.assertQuoteFlag false = .ok () := by
    rw [assertQuoteFlag, hvote, hfees]
  exact Vote.verify_of_sign_fees h hvalidity (by simp [hfees]) hquote hsignature

/-- **A signed vote decodes from its own bytes exactly when its fees are not an empty
list.** -/
theorem decodesFromBytes_iff (serial : Int) (issuer : GenericAccount) (validity : Validity)
    (blocks : List BlockHash) (fees : Option Fees) (unsigned : UnsignedVote)
    (signForCert : Bytes → Except AccountError Bytes) (vote : Vote)
    (hvalidity : validity.rangeIsWellFormed = true)
    (hnew : UnsignedVote.tryNew serial issuer validity blocks fees = .ok unsigned)
    (hsign : unsigned.sign signForCert = .ok vote) :
    vote.DecodesFromBytes ↔ ∀ quote, fees ≠ some (.multiple quote []) := by
  simp only [UnsignedVote.tryNew, bind_eq_ok, rejectIf_eq_ok, pure_eq_ok, Except.ok.injEq] at hnew
  obtain ⟨algo, halgo, _, hblocks, rfl⟩ := hnew
  simp only [Vote.DecodesFromBytes, Vote.fromSerialized_of_sign hsign hvalidity]
  constructor
  · rintro ⟨decoded, ⟨rfl, hfees⟩, -⟩
    exact hfees
  · intro hfees
    exact ⟨vote, ⟨rfl, hfees⟩, rfl, rfl, rfl, rfl, rfl, rfl, rfl⟩

end Wire

/-! ## Samples -/

namespace Reference

scoped instance numBigint : NumBigint where
  toStrRadix16 := intToHex
  fromStrRadix16 := intOfHex

scoped instance lawfulNumBigint : LawfulNumBigint where
  fromStr_toStr := intOfHex_intToHex

end Reference

section Samples

open scoped Reference Asn1.Reference

namespace Sample

open Reference

/-- The hash of the sample block. -/
def blockHash : BlockHash :=
  ⟨octets 32 0x0570ce0ef5cd7e59c6deefdc707c47ea924e5503754ac981aeff8ee7b786e67c,
    length_octets _ _⟩

def validity : Validity := ⟨Asn1.Sample.date, Asn1.Sample.date⟩

/-- A vote of one of the sample accounts, before it is signed. -/
def unsignedVote (issuer : GenericAccount) (blocks : List BlockHash) (fees : Option Fees) :
    UnsignedVote :=
  { serial := 17, issuer, validity, blocks, fees }

def vote (issuer : GenericAccount) (blocks : List BlockHash) (fees : Option Fees) :
    Except VoteError Vote :=
  (unsignedVote issuer blocks fees).sign (signatureBy issuer.publicKey)

end Sample

open Sample Reference

example : (Sample.vote alice [blockHash] none >>= Vote.verifySignature).isOk = true := by
  decide +kernel

theorem decodesFromBytes_iff_sample :
    ∃ vote, Sample.vote alice [blockHash] none = .ok vote ∧
      (vote.DecodesFromBytes ↔ ∀ quote, none ≠ some (Fees.multiple quote [])) := by
  obtain ⟨vote, hvote⟩ := exists_eq_ok (by decide +kernel :
    (Sample.vote alice [blockHash] none).isOk = true)
  exact ⟨vote, hvote, decodesFromBytes_iff 17 alice validity [blockHash] none _ _ vote
    (by decide +kernel) rfl hvote⟩

/-- A vote with an empty fee list is signed, and its issuer cannot decode it. -/
theorem not_decodesFromBytes_emptyFees :
    ∃ unsigned vote, UnsignedVote.tryNew 17 alice validity [blockHash]
        (some (.multiple false [])) = .ok unsigned ∧
      unsigned.sign (signatureBy aliceKey) = .ok vote ∧ ¬ vote.DecodesFromBytes := by
  obtain ⟨vote, hvote⟩ := exists_eq_ok (by decide +kernel :
    (Sample.vote alice [blockHash] (some (.multiple false []))).isOk = true)
  refine ⟨_, vote, rfl, hvote, ?_⟩
  rintro ⟨decoded, hdecoded, -⟩
  rw [Vote.fromSerialized_of_sign hvote (by decide +kernel)] at hdecoded
  exact hdecoded.2 false rfl

theorem rebuildsTo_iff_listsBlocks_sample :
    ∃ bytes vote, Vote.fromSerialized bytes = .ok vote ∧
      (vote.RebuildsTo bytes ↔ ListsBlocks bytes) := by
  obtain ⟨vote, hvote⟩ := exists_eq_ok (by decide +kernel :
    (Sample.vote alice [blockHash] none).isOk = true)
  have hdecoded : Vote.fromSerialized vote.serialized = .ok vote :=
    (Vote.fromSerialized_of_sign hvote (by decide +kernel)).mpr ⟨rfl, by simp [unsignedVote]⟩
  exact ⟨_, vote, hdecoded, rebuildsTo_iff_listsBlocks _ vote (.inl hdecoded)⟩

/-- A signed certificate whose hash list is empty is accepted, and cannot be rebuilt. -/
theorem not_rebuildsTo_noBlocks :
    ∃ bytes vote, Vote.verify bytes = .ok vote ∧ ¬ vote.RebuildsTo bytes := by
  obtain ⟨⟨⟩, h⟩ := exists_eq_ok (by decide +kernel :
    (Sample.vote alice [] none >>= Vote.verifySignature).isOk = true)
  obtain ⟨vote, hvote, hsignature⟩ := bind_eq_ok.mp h
  refine ⟨_, vote, Vote.verify_of_sign hvote (by decide +kernel) rfl hsignature, ?_⟩
  rintro ⟨unsigned, hnew, -⟩
  obtain ⟨algo, tbs, tbsBytes, signature, -, -, -, hcontents⟩ := UnsignedVote.sign_eq_ok hvote
  simp only [UnsignedVote.tryNew, bind_eq_ok, rejectIf_eq_ok, hcontents] at hnew
  obtain ⟨-, -, -, hblocks, -⟩ := hnew
  exact hblocks rfl

end Samples

end KeetaNode
