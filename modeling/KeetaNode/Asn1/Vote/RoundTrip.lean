import KeetaNode.Asn1.Vote.Codec
import KeetaNode.Asn1.Reference

/-!
# The vote codec decodes what it encodes

One lemma per structure says that its reader reads back what its writer wrote.
The certificate's `tbsCertificate` bytes are captured by re-encoding the element
that was read, and agree with what `encodeTbs` produced.
-/

namespace KeetaNode.Asn1

open ByteCodec

section RoundTrip

variable [Tlv Tag Asn1Error] [LawfulTlv Tag Asn1Error] {out out' b v : Bytes}

/-! ## Fees -/

private theorem reads_readFeeParty_payTo {parties : Option Bytes × Option Bytes}
    (h : encodeTlv (ε := Asn1Error) (.contextSpecific false feePayToTag) v = .ok b) :
    Reads (readFeeParty parties) b (some v, parties.2) := by
  intro rest
  unfold readFeeParty
  rw [probeTag_run_bind h]
  exact (reads_readTagged h).bind_pure (fun x => (some x, parties.2)) rest

private theorem reads_readFeeParty_token {parties : Option Bytes × Option Bytes}
    (h : encodeTlv (ε := Asn1Error) (.contextSpecific false feeTokenTag) v = .ok b) :
    Reads (readFeeParty parties) b (parties.1, some v) := by
  intro rest
  unfold readFeeParty
  rw [probeTag_run_bind h]
  exact (reads_readTagged h).bind_pure (fun x => (parties.1, some x)) rest

/-- An optional field of a fee entry costs the loop at most one round. -/
private theorem rounds_appendOptional {number : Fin 31} {value : Option Bytes}
    (before after : Option Bytes × Option Bytes) (hnone : value = none → before = after)
    (hsome : ∀ v b, value = some v →
      encodeTlv (ε := Asn1Error) (.contextSpecific false number) v = .ok b →
      Reads (readFeeParty before) b after)
    (h : appendOptional (appendTlv (.contextSpecific false number)) out value = .ok out') :
    ∃ bs, out' = out ++ bs.flatten ∧ Rounds readFeeParty before bs after := by
  cases value with
  | none =>
    simp only [appendOptional, Except.ok.injEq] at h
    exact ⟨[], by simp [h], hnone rfl ▸ .nil _⟩
  | some v =>
    obtain ⟨b, rfl, hb⟩ := appendTlv_eq_ok h
    exact ⟨[b], by simp, .cons (encodeTlv_ne_nil hb) (hsome v b rfl hb) (.nil _)⟩

theorem encodeFeeEntry_element {entry : FeeEntry} (h : encodeFeeEntry entry = .ok b) :
    Element decodeFeeElement Tag.sequence entry b := by
  obtain ⟨c1, h1, h⟩ := bind_eq_ok.mp h
  obtain ⟨c2, h2, h⟩ := bind_eq_ok.mp h
  obtain ⟨c3, h3, h⟩ := bind_eq_ok.mp h
  obtain ⟨c4, h4, hb⟩ := bind_eq_ok.mp h
  have e1 := encodeBool_appends.nil h1
  obtain ⟨b2, rfl, e2⟩ := encodeBigint_appends _ _ _ h2
  obtain ⟨bs3, rfl, e3⟩ := rounds_appendOptional (none, none) (entry.payTo, none) (by simp_all)
    (fun v b hv hb => hv ▸ reads_readFeeParty_payTo hb) h3
  obtain ⟨bs4, rfl, e4⟩ := rounds_appendOptional (entry.payTo, none) (entry.payTo, entry.token)
    (by simp_all) (fun v b hv hb => hv ▸ reads_readFeeParty_token hb) h4
  have hfields : ReadsAll feeEntryFields (c1 ++ (b2 ++ (bs3 ++ bs4).flatten)) entry :=
    e1.reads.bind_all (e2.reads.bind_all ((e3.append e4).readsAll.bind_pure _))
  rw [List.flatten_append, ← List.append_assoc, ← List.append_assoc] at hfields
  exact element_sequence hb hfields

theorem decodeFees_encodeFees {value : FeesBody} (h : encodeFees value = .ok b) :
    decodeFees b = .ok value := by
  obtain ⟨inner, hinner, hb⟩ := bind_eq_ok.mp h
  have hfields : ReadsAll feesFields inner value := by
    cases value with
    | single entry =>
      have hentry := encodeFeeEntry_element hinner
      exact hentry.probe_all ((hentry.reads.all.toEnd _).bind_pure _)
    | multiple entries =>
      obtain ⟨content, hcontent, hinner⟩ := bind_eq_ok.mp hinner
      obtain ⟨sequence, hs, hinner⟩ := bind_eq_ok.mp hinner
      have hentries := appendEncoded_readsAll (fun _ _ => encodeFeeEntry_element) hcontent
      have hmulti := reads_readExplicitContext hinner
      have hlist := within_eq_ok hinner ((reads_readSequence hs).all.toEnd trailingData)
      exact (element_of_encodeTlv hinner hmulti).probe_all <| (hmulti.all.toEnd _).bind_nil <|
        ((reads_lift hlist).bind_nil ((reads_lift (within_eq_ok hs hentries)).bind_pure _)).all
  unfold decodeFees
  rw [within_encoded_eq_ok hb ((reads_readExplicitContext hb).all.toEnd _), ok_bind]
  exact within_eq_ok hb hfields

/-! ## Staples -/

theorem appendEach_orError_encodeOctet {items : List Bytes} (e : Asn1Error)
    (h : appendEach encodeOctet [] items = .ok out) :
    ReadsAll (untilFinished (orError readOctet e)) out items := by
  obtain ⟨bs, rfl, hbs⟩ := appendEach_eq_ok encodeOctet_appends h
  exact untilFinished_readsAll (hbs.imp fun _ _ hb => ⟨hb.ne_nil, hb.reads.orError e⟩)

theorem reads_octetList {items : List Bytes} {content : Bytes} (s : VoteStapleDecodeSlot)
    (hcontent : appendEach encodeOctet [] items = .ok content)
    (hb : encodeTlv (ε := Asn1Error) .sequence content = .ok b) : Reads (octetList s) b items :=
  ((reads_readSequence hb).orError _).bind_nil
    (reads_lift (withinOr_eq_ok hb _ (appendEach_orError_encodeOctet _ hcontent)))

theorem decodeVoteStaple_encodeVoteStaple {bundle : VoteStapleBundle}
    (h : encodeVoteStaple bundle = .ok b) : decodeVoteStaple b = .ok bundle := by
  obtain ⟨blocks, hblocks, h⟩ := bind_eq_ok.mp h
  obtain ⟨bs, hbs, h⟩ := bind_eq_ok.mp h
  obtain ⟨votes, hvotes, h⟩ := bind_eq_ok.mp h
  obtain ⟨vs, hvs, hb⟩ := bind_eq_ok.mp h
  have hcount : ReadsAll (countElements (stapleSlot .wrapper)) (bs ++ vs) 2 := by
    have := countElements_readsAll [bs, vs] (stapleSlot .wrapper) (by
      rintro x hx
      rcases List.mem_pair.mp hx with rfl | rfl
      · exact ⟨_, _, hbs⟩
      · exact ⟨_, _, hvs⟩)
    simpa using this
  have hfields : ReadsAll bundleFields (bs ++ vs) bundle :=
    ((reads_octetList .blocks hblocks hbs).bind
      ((reads_octetList .votes hvotes hvs).bind_pure _)).all
  unfold decodeVoteStaple
  rw [withinOr_encoded_eq_ok hb _ (((reads_readSequence hb).orError _).all.toEnd _), ok_bind,
    withinOr_eq_ok hb _ hcount, ok_bind, rejectIf_neg (by decide), ok_bind]
  exact withinOr_eq_ok hb _ (hfields.toEnd _)

/-- What a list of octet strings was read from is what it is written as. -/
theorem octetList_eq_ok {items : List Bytes} {input rest : Bytes} {s : VoteStapleDecodeSlot}
    (h : (octetList s).run input = .ok (items, rest)) :
    ∃ content sequence, appendEach encodeOctet [] items = .ok content ∧
      encodeTlv (ε := Asn1Error) .sequence content = .ok sequence ∧ input = sequence ++ rest := by
  obtain ⟨content, mid, hcontent, hlist⟩ := run_bind_eq_ok.mp h
  obtain ⟨sequence, hsequence, rfl⟩ := readTagged_eq_ok (orError_run_eq_ok.mp hcontent)
  -- the items are read from the content, and the reader goes on behind the sequence
  obtain ⟨hitems, rfl⟩ := lift_run_eq_ok.mp hlist
  obtain ⟨tail, hrun⟩ := run_of_withinOr_eq_ok hitems
  obtain ⟨-, bs, rfl, hbs⟩ := untilFinished_eq_ok
    (P := fun item b => encodeTlv (ε := Asn1Error) .octetString item = .ok b) (by
      intro input item rest hitem
      obtain ⟨b, hb, rfl⟩ := readFixed_eq_ok (orError_run_eq_ok.mp hitem)
      exact ⟨b, encodeTlv_ne_nil hb, rfl, hb⟩) hrun
  refine ⟨bs.flatten, sequence, ?_, hsequence, rfl⟩
  exact appendEach_of_forall₂ (fun out item b hb => by
    simp [encodeOctet, appendTlv, hb]) hbs []

/-- A staple that is accepted is encoded to the bytes it was decoded from. -/
theorem encodeVoteStaple_decodeVoteStaple {bundle : VoteStapleBundle}
    (h : decodeVoteStaple b = .ok bundle) : encodeVoteStaple bundle = .ok b := by
  obtain ⟨inner, hinner, hcounted⟩ := bind_eq_ok.mp h
  obtain ⟨count, hcount, hchecked⟩ := bind_eq_ok.mp hcounted
  obtain ⟨⟨⟩, -, hbody⟩ := bind_eq_ok.mp hchecked
  obtain ⟨rest, houter⟩ := run_of_withinOr_eq_ok hinner
  obtain ⟨sequence, hsequence, hb⟩ :=
    readTagged_eq_ok (orError_run_eq_ok.mp (toEnd_run_eq_ok.mp houter).1)
  rw [List.append_nil] at hb
  subst hb
  obtain ⟨rest, hfields⟩ := run_of_withinOr_eq_ok hbody
  obtain ⟨blocks, mid, hblocks, hafter⟩ := run_bind_eq_ok.mp (toEnd_run_eq_ok.mp hfields).1
  obtain ⟨votes, mid', hvotes, hbundle⟩ := run_bind_eq_ok.mp hafter
  obtain ⟨rfl, rfl⟩ := Prod.mk.inj (Except.ok.inj hbundle)
  obtain ⟨blocksContent, blocksSequence, hblocksContent, hblocksSequence, rfl⟩ :=
    octetList_eq_ok hblocks
  obtain ⟨votesContent, votesSequence, hvotesContent, hvotesSequence, rfl⟩ :=
    octetList_eq_ok hvotes
  rw [List.append_nil] at hsequence
  simp only [encodeVoteStaple, hblocksContent, hvotesContent, ok_bind, wrapSequence,
    hblocksSequence, hvotesSequence, hsequence]

/-! ## Certificate parts -/

section Parts

variable [OidCodec] [LawfulOidCodec]

theorem encodeOid_appends :
    Appends encodeOid fun oid b => Element decodeOid Tag.objectIdentifier oid b := by
  intro out oid out' h
  obtain ⟨content, hcontent, h⟩ := bind_eq_ok.mp h
  obtain ⟨b, rfl, hb⟩ := appendTlv_eq_ok h
  have harcs := LawfulOidCodec.decode_encode hcontent
  exact ⟨b, rfl, element_of_encodeTlv hb
    ((reads_readFixed hb).bind_nil ((reads_lift harcs).bind_pure _))⟩

theorem encodeSignatureAlgoSequence_element {algo : VoteSignatureAlgo}
    (h : encodeSignatureAlgoSequence algo = .ok b) :
    Element decodeSignatureAlgoSequence Tag.sequence algo b := by
  obtain ⟨content, hcontent, hb⟩ := bind_eq_ok.mp h
  have hoid := (encodeOid_appends.nil hcontent).reads.all.toEnd trailingData
  exact element_of_encodeTlv hb ((reads_readSequence hb).bind_nil
    ((reads_lift (within_eq_ok hb hoid)).bind_nil (reads_lift algo.tryFrom_oid)))

theorem encodeAttribute_element {attr : AttributeTypeAndValue} (h : encodeAttribute attr = .ok b) :
    Element decodeAttribute Tag.sequence attr b := by
  obtain ⟨c1, h1, h⟩ := bind_eq_ok.mp h
  obtain ⟨c2, h2, hb⟩ := bind_eq_ok.mp h
  have e1 := encodeOid_appends.nil h1
  obtain ⟨b2, rfl, e2⟩ := encodeUtf8_appends _ _ _ h2
  have hfields : Reads attributeFields (c1 ++ b2) attr := e1.reads.bind (e2.reads.bind_pure _)
  exact element_sequence hb (hfields.all.toEnd trailingData)

theorem encodeRdn_element {rdn : List AttributeTypeAndValue} (h : encodeRdn rdn = .ok b) :
    Element decodeRdn Tag.set rdn b := by
  obtain ⟨content, hcontent, hb⟩ := bind_eq_ok.mp h
  have hattrs := appendEncoded_readsAll (fun _ _ => encodeAttribute_element) hcontent
  exact element_of_encodeTlv hb
    ((reads_readTagged hb).bind_nil (reads_lift (within_eq_ok hb hattrs)))

theorem encodeDistinguishedName_element {dn : DistinguishedName}
    (h : encodeDistinguishedName dn = .ok b) :
    Element decodeDistinguishedName Tag.sequence dn b := by
  obtain ⟨content, hcontent, hb⟩ := bind_eq_ok.mp h
  have hrdns := appendEncoded_readsAll (fun _ _ => encodeRdn_element) hcontent
  exact element_of_encodeTlv hb ((reads_readSequence hb).bind_nil
    ((reads_lift (within_eq_ok hb hrdns)).bind_pure _))

/-- The algorithm identifier of a key is read back as its kind. -/
theorem encodeKeyAlgorithm_readsAll {spki : VoteSubjectPublicKey}
    (h : encodeKeyAlgorithm spki = .ok out) :
    ReadsAll decodeKeyAlgorithm out
      (match spki with | .ed25519 _ => none | .ecdsa curve _ => some curve) := by
  cases spki with
  | ed25519 key =>
    exact (encodeOid_appends.nil h).reads.all.bind_nil rfl
  | ecdsa curve key =>
    obtain ⟨c1, h1, h2⟩ := bind_eq_ok.mp h
    have e1 := encodeOid_appends.nil h1
    obtain ⟨b2, rfl, e2⟩ := encodeOid_appends _ _ _ h2
    refine e1.reads.bind_all ?_
    rw [if_neg (by decide), if_pos rfl]
    exact e2.reads.all.bind_nil (by cases curve <;> rfl)

theorem encodeSubjectPublicKeyInfo_element {spki : VoteSubjectPublicKey}
    (h : encodeSubjectPublicKeyInfo spki = .ok b) :
    Element decodeSubjectPublicKeyInfo Tag.sequence spki b := by
  obtain ⟨content, hcontent, h⟩ := bind_eq_ok.mp h
  obtain ⟨algorithm, halgorithm, h⟩ := bind_eq_ok.mp h
  obtain ⟨bitString, hbits, hb⟩ := bind_eq_ok.mp h
  have hkind := within_eq_ok halgorithm (encodeKeyAlgorithm_readsAll hcontent)
  have hbits := reads_readBitString hbits
  refine element_sequence hb ((reads_readSequence halgorithm).bind_all ?_)
  refine (reads_lift hkind).bind_all (hbits.all.bind_nil ?_)
  cases spki <;> rfl

omit [OidCodec] [LawfulOidCodec] in
/-- The criticality flag and the value after it; an absent flag is recognised by
the value's own tag. -/
theorem encodeCritical_readsAll {critical : Bool} {value c : Bytes}
    (hflag : encodeCritical out critical = .ok out')
    (hvalue : Element readOctet Tag.octetString value c) {α : Type} (g : Bool → Bytes → α) :
    ∃ b, out' = out ++ b ∧ ReadsAll (do
      let critical ← readCritical
      let value ← readOctet
      return g critical value) (b ++ c) (g critical value) := by
  cases critical with
  | true =>
    obtain ⟨b, rfl, hb⟩ := encodeBool_appends _ _ _ hflag
    exact ⟨b, rfl, (hb.probe hb.reads).reads.bind_all (hvalue.reads.bind_pure _).all⟩
  | false =>
    refine ⟨[], by simpa [encodeCritical, eq_comm] using hflag, ?_⟩
    obtain ⟨v, hv⟩ := hvalue.tlv
    have hprobe : readCritical.run ([] ++ c) = .ok (false, c) := by
      have hrest := probeTag_run_bind hv criticalByTag []
      rw [List.append_nil] at hrest
      exact hrest
    exact readsAll_bind hprobe (hvalue.reads.bind_pure _).all

theorem encodeExtension_eq_ok {value : Extension} (h : encodeExtension value = .ok b) :
    ∃ content, encodeTlv (ε := Asn1Error) .sequence content = .ok b ∧
      ReadsAll extensionFields content value := by
  obtain ⟨c1, h1, h⟩ := bind_eq_ok.mp h
  obtain ⟨c2, h2, h⟩ := bind_eq_ok.mp h
  obtain ⟨c3, h3, hb⟩ := bind_eq_ok.mp h
  have e1 := encodeOid_appends.nil h1
  obtain ⟨b3, rfl, e3⟩ := encodeOctet_appends _ _ _ h3
  obtain ⟨b2, rfl, e2⟩ := encodeCritical_readsAll h2 e3 fun critical bytes =>
    ({ oid := value.oid, critical, value := bytes } : Extension)
  rw [List.append_assoc] at hb
  exact ⟨_, hb, e1.reads.bind_all e2⟩

theorem decodeExtension_encodeExtension {value : Extension} (h : encodeExtension value = .ok b) :
    decodeExtension b = .ok value := by
  obtain ⟨content, hb, hfields⟩ := encodeExtension_eq_ok h
  unfold decodeExtension
  rw [within_encoded_eq_ok hb ((reads_readSequence hb).all.toEnd _), ok_bind]
  exact within_eq_ok hb (hfields.toEnd _)

theorem encodeExtension_element {value : Extension} (h : encodeExtension value = .ok b) :
    Element decodeExtensionElement Tag.sequence value b := by
  obtain ⟨content, hb, -⟩ := encodeExtension_eq_ok h
  exact element_of_encodeTlv hb ((reads_captureTlv hb _).bind_nil
    (reads_lift (decodeExtension_encodeExtension h)))

theorem encodeExtensionsField_element {extensions : List Extension}
    (h : encodeExtensionsField extensions = .ok b) :
    Element decodeExtensionsField (Tag.contextSpecific true extensionsTag) extensions b := by
  obtain ⟨content, hcontent, h⟩ := bind_eq_ok.mp h
  obtain ⟨sequence, hs, hb⟩ := bind_eq_ok.mp h
  have hitems := appendEncoded_readsAll (fun _ _ => encodeExtension_element) hcontent
  have hsequence := within_eq_ok hb ((reads_readSequence hs).all.toEnd trailingData)
  exact element_of_encodeTlv hb ((reads_readExplicitContext hb).bind_nil
    ((reads_lift hsequence).bind_nil (reads_lift (within_eq_ok hs hitems))))

theorem decodeHashData_encodeHashData {value : HashData} (h : encodeHashData value = .ok b) :
    decodeHashData b = .ok value := by
  obtain ⟨content, hcontent, h⟩ := bind_eq_ok.mp h
  obtain ⟨hashes, hhashes, h⟩ := bind_eq_ok.mp h
  obtain ⟨inner, hinner, h⟩ := bind_eq_ok.mp h
  obtain ⟨sequence, hs, hb⟩ := bind_eq_ok.mp h
  have hfields : Reads hashDataFields (inner ++ hashes) (value.algorithm, content) :=
    (encodeOid_appends.nil hinner).reads.bind ((reads_readSequence hhashes).bind_pure _)
  unfold decodeHashData
  rw [within_encoded_eq_ok hb ((reads_readExplicitContext hb).all.toEnd _), ok_bind,
    within_eq_ok hb ((reads_readSequence hs).all.toEnd _), ok_bind,
    within_eq_ok hs (hfields.all.toEnd _), ok_bind]
  simp only [within_eq_ok hhashes (appendEach_encodeOctet hcontent), ok_bind, pure_eq_ok]

/-! ## Certificates -/

variable [Chrono] [LawfulChrono]

omit [OidCodec] [LawfulOidCodec] in
theorem encodeValidity_element {validity : CertificateValidity}
    (h : encodeValidity validity = .ok b) : Element decodeValidity Tag.sequence validity b := by
  obtain ⟨c1, h1, h⟩ := bind_eq_ok.mp h
  obtain ⟨c2, h2, hb⟩ := bind_eq_ok.mp h
  have e1 := encodeTime_appends.nil h1
  obtain ⟨b2, rfl, e2⟩ := encodeTime_appends _ _ _ h2
  have hfields : Reads validityFields (c1 ++ b2) validity := e1.reads.bind (e2.reads.bind_pure _)
  exact element_sequence hb (hfields.all.toEnd trailingData)

theorem encodeTbs_eq_ok {tbs : TbsCertificate} (h : encodeTbs tbs = .ok b) :
    ∃ content, encodeTlv (ε := Asn1Error) .sequence content = .ok b ∧
      ReadsAll tbsFields content tbs := by
  obtain ⟨version, hversion, h⟩ := bind_eq_ok.mp h
  obtain ⟨b1, h1, h⟩ := bind_eq_ok.mp h
  obtain ⟨c2, h2, h⟩ := bind_eq_ok.mp h
  obtain ⟨b3, h3, h⟩ := bind_eq_ok.mp h
  obtain ⟨b4, h4, h⟩ := bind_eq_ok.mp h
  obtain ⟨b5, h5, h⟩ := bind_eq_ok.mp h
  obtain ⟨b6, h6, h⟩ := bind_eq_ok.mp h
  obtain ⟨b7, h7, h⟩ := bind_eq_ok.mp h
  obtain ⟨b8, h8, hb⟩ := bind_eq_ok.mp h
  obtain ⟨b2, rfl, e2⟩ := encodeBigint_appends _ _ _ h2
  have hvalue := (encodeBigint_appends.nil hversion).reads.orError (slot .versionValue)
  have hversion := withinOr_eq_ok h1 (slot .versionValue) (hvalue.all.toEnd (slot .versionValue))
  simp only [List.append_assoc] at hb
  refine ⟨_, hb, ?_⟩
  exact ((reads_readExplicitContext h1).orError _).bind_all <|
    (reads_lift hversion).bind_all (c := b2 ++ (b3 ++ (b4 ++ (b5 ++ (b6 ++ (b7 ++ b8)))))) <|
    (reads_lift (rejectIf_neg (by decide))).bind_all
      (c := b2 ++ (b3 ++ (b4 ++ (b5 ++ (b6 ++ (b7 ++ b8)))))) <|
    (e2.reads.orError _).bind_all <|
    ((encodeSignatureAlgoSequence_element h3).reads.orError _).bind_all <|
    ((encodeDistinguishedName_element h4).reads.orError _).bind_all <|
    ((encodeValidity_element h5).reads.orError _).bind_all <|
    ((encodeDistinguishedName_element h6).reads.orError _).bind_all <|
    ((encodeSubjectPublicKeyInfo_element h7).reads.orError _).bind_all
    (((encodeExtensionsField_element h8).reads.orError _).bind_pure _).all

theorem decodeTbs_encodeTbs {tbs : TbsCertificate} (h : encodeTbs tbs = .ok b) :
    decodeTbs b = .ok tbs := by
  obtain ⟨content, hb, hfields⟩ := encodeTbs_eq_ok h
  unfold decodeTbs
  rw [withinOr_encoded_eq_ok hb _ (((reads_readSequence hb).orError _).all.toEnd _), ok_bind]
  exact withinOr_eq_ok hb _ (hfields.toEnd _)

/-- A vote certificate is decoded with the very bytes of its `tbsCertificate`. -/
theorem decodeVote_encodeVote {value : VoteCertificate} (h : encodeVote value = .ok b) :
    ∃ tbsBytes, encodeTbs value.tbs = .ok tbsBytes ∧
      decodeVote b = .ok ⟨value.tbs, tbsBytes, value.signatureAlgo, value.signature⟩ := by
  obtain ⟨tbsBytes, htbs, h⟩ := bind_eq_ok.mp h
  obtain ⟨b2, h2, h⟩ := bind_eq_ok.mp h
  obtain ⟨b3, h3, hb⟩ := bind_eq_ok.mp h
  obtain ⟨content, hcontent, -⟩ := encodeTbs_eq_ok htbs
  have e2 := encodeSignatureAlgoSequence_element h2
  rw [List.append_assoc] at hb
  -- the elements are counted before they are read
  have hcount : ReadsAll (countElements (slot .wrapper)) (tbsBytes ++ (b2 ++ b3)) 3 := by
    have := countElements_readsAll [tbsBytes, b2, b3] (slot .wrapper) (by
      rintro x hx
      simp only [List.mem_cons, List.not_mem_nil, or_false] at hx
      rcases hx with rfl | rfl | rfl
      · exact ⟨_, _, hcontent⟩
      · exact ⟨_, e2.tlv⟩
      · exact ⟨_, _, h3⟩)
    simpa using this
  have hfields : ReadsAll wrapperFields (tbsBytes ++ (b2 ++ b3))
      ⟨value.tbs, tbsBytes, value.signatureAlgo, value.signature⟩ :=
    ((reads_captureTlv hcontent _).orError _).bind_all <|
      (reads_lift (decodeTbs_encodeTbs htbs)).bind_all (c := b2 ++ b3) <|
      (e2.reads.orError _).bind_all (((reads_readBitString h3).orError _).bind_pure _).all
  refine ⟨tbsBytes, htbs, ?_⟩
  unfold decodeVote
  rw [withinOr_encoded_eq_ok hb _ (((reads_readSequence hb).orError _).all.toEnd _), ok_bind,
    withinOr_eq_ok hb _ hcount, ok_bind, rejectIf_neg (by decide), ok_bind]
  exact withinOr_eq_ok hb _ (hfields.toEnd _)

/-- **The vote codec decodes what it encodes**: certificates, with the signed
bytes unchanged, and the bodies of the hash and fee extensions and of staples. -/
theorem voteCodec_round_trip :
    (∀ (value : VoteCertificate) (bytes : Bytes), encodeVote value = .ok bytes →
      ∃ tbsBytes, encodeTbs value.tbs = .ok tbsBytes ∧
        decodeVote bytes = .ok ⟨value.tbs, tbsBytes, value.signatureAlgo, value.signature⟩) ∧
    (∀ (value : HashData) (bytes : Bytes),
      encodeHashData value = .ok bytes → decodeHashData bytes = .ok value) ∧
    (∀ (value : FeesBody) (bytes : Bytes),
      encodeFees value = .ok bytes → decodeFees bytes = .ok value) ∧
    (∀ (value : VoteStapleBundle) (bytes : Bytes),
      encodeVoteStaple value = .ok bytes → decodeVoteStaple bytes = .ok value) :=
  ⟨fun _ _ => decodeVote_encodeVote, fun _ _ => decodeHashData_encodeHashData,
    fun _ _ => decodeFees_encodeFees, fun _ _ => decodeVoteStaple_encodeVoteStaple⟩

end Parts

end RoundTrip

namespace Sample

/-- A certificate over one block hash, with the fee extension not critical. -/
def voteCertificate : VoteCertificate where
  tbs := {
    serialNumber := 17
    signatureAlgo := .ed25519
    issuer := ⟨[[⟨Oids.commonName, "k"⟩]]⟩
    validity := ⟨date, date⟩
    subject := ⟨[[⟨Oids.serialNumber, "11"⟩]]⟩
    subjectPublicKey := .ecdsa .secp256r1 [2, 3]
    extensions := [⟨Oids.hashData, true, [1]⟩, ⟨Oids.fees, false, []⟩] }
  signatureAlgo := .ed25519
  signature := [5, 6]

def tbsBytes : Bytes :=
  [48, 129, 156, 160, 3, 2, 1, 2, 2, 1, 17, 48, 5, 6, 3, 43, 101, 112, 48, 12, 49, 10, 48, 8, 6, 3,
    85, 4, 3, 12, 1, 107, 48, 42, 24, 19, 50, 48, 50, 53, 48, 49, 48, 50, 48, 51, 48, 52, 48, 53,
    46, 53, 48, 48, 90, 24, 19, 50, 48, 50, 53, 48, 49, 48, 50, 48, 51, 48, 52, 48, 53, 46, 53, 48,
    48, 90, 48, 13, 49, 11, 48, 9, 6, 3, 85, 4, 5, 12, 2, 49, 49, 48, 26, 48, 19, 6, 7, 42, 134, 72,
    206, 61, 2, 1, 6, 8, 42, 134, 72, 206, 61, 3, 1, 7, 3, 3, 0, 2, 3, 163, 38, 48, 36, 48, 17, 6,
    9, 96, 134, 72, 1, 101, 3, 3, 1, 3, 1, 1, 255, 4, 1, 1, 48, 15, 6, 11, 43, 6, 1, 4, 1, 131, 233,
    83, 0, 1, 0, 4, 0]

def voteBytes : Bytes :=
  [48, 129, 171] ++ tbsBytes ++ [48, 5, 6, 3, 43, 101, 112, 3, 3, 0, 5, 6]

/-- Two fees, one with a token and one with a payee. -/
def feesBody : FeesBody := .multiple [⟨true, 300, none, some [4]⟩, ⟨true, 0, some [3], none⟩]

def feesBytes : Bytes :=
  [160, 27, 160, 25, 48, 23, 48, 10, 1, 1, 255, 2, 2, 1, 44, 129, 1, 4, 48, 9, 1, 1, 255, 2, 1, 0,
    128, 1, 3]

def hashDataBytes : Bytes :=
  [160, 20, 48, 18, 6, 9, 96, 134, 72, 1, 101, 3, 4, 2, 8, 48, 5, 4, 1, 7, 4, 0]

def stapleBytes : Bytes := [48, 11, 48, 7, 4, 1, 1, 4, 2, 2, 3, 48, 0]

end Sample

open scoped Asn1.Reference in
theorem voteCodec_round_trip_sample :
    (∃ tbsBytes, encodeTbs Sample.voteCertificate.tbs = .ok tbsBytes ∧
      decodeVote Sample.voteBytes = .ok ⟨Sample.voteCertificate.tbs, tbsBytes, .ed25519, [5, 6]⟩) ∧
    decodeHashData Sample.hashDataBytes = .ok ⟨Oids.sha3_256, [[7], []]⟩ ∧
    decodeFees Sample.feesBytes = .ok Sample.feesBody ∧
    decodeVoteStaple Sample.stapleBytes = .ok ⟨[[1], [2, 3]], []⟩ :=
  ⟨voteCodec_round_trip.1 Sample.voteCertificate Sample.voteBytes (by decide +kernel),
    voteCodec_round_trip.2.1 ⟨Oids.sha3_256, [[7], []]⟩ Sample.hashDataBytes (by decide +kernel),
    voteCodec_round_trip.2.2.1 Sample.feesBody Sample.feesBytes (by decide +kernel),
    voteCodec_round_trip.2.2.2 ⟨[[1], [2, 3]], []⟩ Sample.stapleBytes (by decide +kernel)⟩

end KeetaNode.Asn1
