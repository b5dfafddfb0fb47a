import KeetaNode.Asn1.Block.Codec
import KeetaNode.Asn1.Reference

/-!
# The block codec decodes exactly what it encodes

One lemma per writer says what it appends and that its reader reads that back;
an optional field is told apart from its neighbours by the tags those can start
with. The block round trip `decodeBlock_encodeBlock` is assembled from them.
-/

namespace KeetaNode.Asn1

open ByteCodec

section RoundTrip

variable [Tlv Tag Asn1Error] [LawfulTlv Tag Asn1Error] {out out' b v : Bytes}

/-! ## Nested content -/

theorem soleSequence_eq_ok {t : Tag} {sequence : Bytes}
    (hs : encodeTlv (ε := Asn1Error) .sequence v = .ok sequence)
    (h : encodeTlv (ε := Asn1Error) t sequence = .ok b) : soleSequence sequence = .ok v :=
  within_eq_ok h ((reads_readTagged hs).all.toEnd invalidBlock)

/-- A SEQUENCE inside a context tag, read through the tag. -/
theorem reads_soleSequence_within {α : Type} {t : Tag} {sequence : Bytes}
    {body : Reader Asn1Error α} {a : α}
    (hs : encodeTlv (ε := Asn1Error) .sequence v = .ok sequence)
    (h : encodeTlv (ε := Asn1Error) t sequence = .ok b) (hbody : ReadsAll body v a) :
    Reads (ε := Asn1Error) (do
      let (_, value) ← readAny
      let content ← soleSequence value
      within content body) b a :=
  (reads_readAny h).bind_nil
    ((reads_lift (soleSequence_eq_ok hs h)).bind_nil (reads_lift (within_eq_ok hs hbody)))

/-! ## Fields -/

/-- Tag a nullable integer starts with. -/
def IntegerOrNull.tag : IntegerOrNull → Tag
  | .value _ => .integer
  | .null => .null

theorem encodeIntegerOrNull_appends :
    Appends encodeIntegerOrNull fun a b => Element decodeIntegerOrNull a.tag a b := by
  intro out value out' h
  cases value with
  | value integer =>
    obtain ⟨b, rfl, hb⟩ := encodeBigint_appends _ _ _ h
    exact ⟨b, rfl, hb.peek (hb.reads.bind_pure _)⟩
  | null =>
    obtain ⟨b, rfl, hb⟩ := encodeNull_eq_ok h
    exact ⟨b, rfl, hb.peek (hb.reads.bind_pure _)⟩

/-- Tag a nullable octet string starts with. -/
def OctetStringOrNull.tag : OctetStringOrNull → Tag
  | .value _ => .octetString
  | .null => .null

theorem encodeOctetOrNull_appends :
    Appends encodeOctetOrNull fun a b => Element decodeOctetOrNull a.tag a b := by
  intro out value out' h
  cases value with
  | value bytes =>
    obtain ⟨b, rfl, hb⟩ := encodeOctet_appends _ _ _ h
    exact ⟨b, rfl, hb.peek (hb.reads.bind_pure _)⟩
  | null =>
    obtain ⟨b, rfl, hb⟩ := encodeNull_eq_ok h
    exact ⟨b, rfl, hb.peek (hb.reads.bind_pure _)⟩

/-- Tag a signer slot starts with. -/
def Signer.tag : Signer → Tag
  | .empty => .null
  | .single _ => .octetString
  | .multisig _ _ => .sequence

theorem encodeSigner_appends :
    Appends encodeSigner fun a b => Element decodeSigner a.tag a b := by
  intro out signer out' h
  cases signer with
  | empty =>
    obtain ⟨b, rfl, hb⟩ := encodeNull_eq_ok h
    exact ⟨b, rfl, hb.peek (hb.reads.bind_pure _)⟩
  | single account =>
    obtain ⟨b, rfl, hb⟩ := encodeOctet_appends _ _ _ h
    exact ⟨b, rfl, hb.peek (hb.reads.bind_pure _)⟩
  | multisig address signers =>
    obtain ⟨b, hb, hout⟩ := bind_eq_ok.mp h
    rw [pure_eq_ok, Except.ok.injEq] at hout
    rw [encodeMultisigSigner_eq] at hb
    obtain ⟨content, hcontent, hdecode⟩ := decodeMultisigSigner_encodeTree hb
    have hseq : Element readSequence Tag.sequence content b :=
      element_of_encodeTlv hcontent (reads_readTagged hcontent)
    exact ⟨b, hout.symm, hseq.peek (hseq.reads.bind_nil ((reads_lift hdecode).bind_pure _))⟩

/-- Tag of a signature slot. -/
def Signatures.tag : Signatures → Tag
  | .single _ => .octetString
  | .multiple _ => .sequence

theorem encodeSignatures_appends :
    Appends encodeSignatures fun a b => Element decodeSignatures a.tag a b := by
  intro out signatures out' h
  cases signatures with
  | single bytes =>
    obtain ⟨b, rfl, hb⟩ := encodeOctet_appends _ _ _ h
    exact ⟨b, rfl, hb.peek (hb.reads.bind_pure _)⟩
  | multiple items =>
    obtain ⟨b, rfl, hb⟩ := appended_octets Signatures.multiple h
    exact ⟨b, rfl, hb.peek hb.reads⟩

theorem encodePermissions_appends :
    Appends encodePermissions fun a b => Element readPermissions Tag.sequence a b := by
  intro out value out' h
  obtain ⟨c1, h1, h⟩ := bind_eq_ok.mp h
  obtain ⟨c2, h2, h⟩ := bind_eq_ok.mp h
  obtain ⟨b, hb, hout⟩ := bind_eq_ok.mp h
  rw [pure_eq_ok, Except.ok.injEq] at hout
  have e1 := encodeBigint_appends.nil h1
  obtain ⟨b2, rfl, e2⟩ := encodeBigint_appends _ _ _ h2
  have hfields : ReadsAll permissionsFields (c1 ++ b2) value :=
    (e1.reads.bind (e2.reads.bind_pure _)).all
  exact ⟨b, hout.symm, element_sequence hb (hfields.toEnd invalidBlock)⟩

/-! ## Operations -/

theorem encodeSend_readsAll {op : SendOp} (h : encodeSend [] op = .ok out) :
    ReadsAll decodeSend out op := by
  obtain ⟨c1, h1, h⟩ := bind_eq_ok.mp h
  obtain ⟨c2, h2, h⟩ := bind_eq_ok.mp h
  obtain ⟨c3, h3, h⟩ := bind_eq_ok.mp h
  have e1 := encodeOctet_appends.nil h1
  obtain ⟨b2, rfl, e2⟩ := encodeBigint_appends _ _ _ h2
  obtain ⟨b3, rfl, e3⟩ := encodeOctet_appends _ _ _ h3
  obtain ⟨b4, rfl, e4⟩ := appendOptional_rest encodeUtf8_appends h
  rw [List.append_assoc, List.append_assoc]
  exact e1.reads.bind_all (e2.reads.bind_all (e3.reads.bind_all (e4.bind_pure _)))

theorem encodeSetRep_readsAll {op : SetRepOp} (h : encodeSetRep [] op = .ok out) :
    ReadsAll decodeSetRep out op :=
  ((encodeOctet_appends.nil h).reads.bind_pure _).all

theorem encodeSetInfo_readsAll {op : SetInfoOp} (h : encodeSetInfo [] op = .ok out) :
    ReadsAll decodeSetInfo out op := by
  obtain ⟨c1, h1, h⟩ := bind_eq_ok.mp h
  obtain ⟨c2, h2, h⟩ := bind_eq_ok.mp h
  obtain ⟨c3, h3, h⟩ := bind_eq_ok.mp h
  have e1 := encodeUtf8_appends.nil h1
  obtain ⟨b2, rfl, e2⟩ := encodeUtf8_appends _ _ _ h2
  obtain ⟨b3, rfl, e3⟩ := encodeUtf8_appends _ _ _ h3
  obtain ⟨b4, rfl, e4⟩ := appendOptional_rest encodePermissions_appends h
  rw [List.append_assoc, List.append_assoc]
  exact e1.reads.bind_all (e2.reads.bind_all (e3.reads.bind_all (e4.bind_pure _)))

/-- Tag a principal starts with. -/
def ModifyPermissionsPrincipal.tag : ModifyPermissionsPrincipal → Tag
  | .account _ => .octetString
  | .certificate _ _ => .contextSpecific true certificatePrincipalTag

theorem encodePrincipal_appends :
    Appends encodePrincipal fun a b => Element decodePrincipal a.tag a b := by
  intro out principal out' h
  cases principal with
  | account bytes =>
    obtain ⟨b, rfl, hb⟩ := encodeOctet_appends _ _ _ h
    exact ⟨b, rfl, hb.peek (hb.reads.bind_pure _)⟩
  | certificate hash account =>
    obtain ⟨c1, h1, h⟩ := bind_eq_ok.mp h
    obtain ⟨c2, h2, h⟩ := bind_eq_ok.mp h
    obtain ⟨sequence, hs, h⟩ := bind_eq_ok.mp h
    obtain ⟨b, hb, hout⟩ := bind_eq_ok.mp h
    rw [pure_eq_ok, Except.ok.injEq] at hout
    have e1 := encodeOctet_appends.nil h1
    obtain ⟨b2, rfl, e2⟩ := encodeOctet_appends _ _ _ h2
    have hfields : ReadsAll certificatePrincipalFields (c1 ++ b2) (.certificate hash account) :=
      (e1.reads.bind (e2.reads.bind_pure _)).all
    have hread := reads_soleSequence_within hs hb (hfields.toEnd invalidBlock)
    refine ⟨b, hout.symm, (element_of_encodeTlv hb hread).peek ?_⟩
    simpa only [if_pos] using hread

/-- Tag a nullable permission pair starts with. -/
def PermissionsOrNull.tag : PermissionsOrNull → Tag
  | .permissions _ => .sequence
  | .null => .null

theorem encodePermissionsOrNull_appends :
    Appends encodePermissionsOrNull fun a b => Element decodePermissionsOrNull a.tag a b := by
  intro out value out' h
  cases value with
  | permissions permissions =>
    obtain ⟨b, rfl, hb⟩ := encodePermissions_appends _ _ _ h
    exact ⟨b, rfl, hb.peek (hb.reads.bind_pure _)⟩
  | null =>
    obtain ⟨b, rfl, hb⟩ := encodeNull_eq_ok h
    exact ⟨b, rfl, hb.peek (hb.reads.bind_pure _)⟩

theorem encodeModifyPermissions_readsAll {op : ModifyPermissionsOp}
    (h : encodeModifyPermissions [] op = .ok out) : ReadsAll decodeModifyPermissions out op := by
  obtain ⟨c1, h1, h⟩ := bind_eq_ok.mp h
  obtain ⟨c2, h2, h⟩ := bind_eq_ok.mp h
  obtain ⟨c3, h3, h⟩ := bind_eq_ok.mp h
  have e1 := encodePrincipal_appends.nil h1
  obtain ⟨b2, rfl, e2⟩ := encodeBigint_appends _ _ _ h2
  obtain ⟨b3, rfl, e3⟩ := encodePermissionsOrNull_appends _ _ _ h3
  obtain ⟨b4, rfl, e4⟩ := appendOptional_rest encodeOctet_appends h
  rw [List.append_assoc, List.append_assoc]
  exact e1.reads.bind_all (e2.reads.bind_all (e3.reads.bind_all (e4.bind_pure _)))

theorem encodeMultisigArguments_appends :
    Appends encodeMultisigArguments fun a b =>
      Element decodeMultisigArguments (Tag.contextSpecific true multisigArgumentsTag) a b := by
  intro out arguments out' h
  obtain ⟨signers, hsigners, h⟩ := bind_eq_ok.mp h
  obtain ⟨c1, h1, h⟩ := bind_eq_ok.mp h
  obtain ⟨c2, h2, h⟩ := bind_eq_ok.mp h
  obtain ⟨sequence, hs, h⟩ := bind_eq_ok.mp h
  obtain ⟨b, hb, hout⟩ := bind_eq_ok.mp h
  rw [pure_eq_ok, Except.ok.injEq] at hout
  obtain ⟨b2, rfl, e2⟩ := encodeBigint_appends _ _ _ h2
  have hsignersRead := reads_lift (within_eq_ok h1 (appendEach_encodeOctet hsigners))
  have hfields : ReadsAll multisigArgumentsFields (c1 ++ b2) arguments :=
    ((reads_readTagged h1).bind (hsignersRead.bind (e2.reads.bind_pure _))).all
  have hread := reads_soleSequence_within hs hb (hfields.toEnd invalidBlock)
  refine ⟨b, hout.symm, (element_of_encodeTlv hb hread).peek ?_⟩
  simpa only [if_pos] using hread

theorem encodeCreateIdentifier_readsAll {op : CreateIdentifierOp}
    (h : encodeCreateIdentifier [] op = .ok out) : ReadsAll decodeCreateIdentifier out op := by
  obtain ⟨c1, h1, h⟩ := bind_eq_ok.mp h
  have e1 := encodeOctet_appends.nil h1
  obtain ⟨b2, rfl, e2⟩ := appendOptional_rest encodeMultisigArguments_appends h
  exact e1.reads.bind_all (e2.bind_pure _)

theorem encodeTokenAdminSupply_readsAll {op : TokenAdminSupplyOp}
    (h : encodeTokenAdminSupply [] op = .ok out) : ReadsAll decodeTokenAdminSupply out op := by
  obtain ⟨c1, h1, h2⟩ := bind_eq_ok.mp h
  have e1 := encodeBigint_appends.nil h1
  obtain ⟨b2, rfl, e2⟩ := encodeBigint_appends _ _ _ h2
  exact (e1.reads.bind (e2.reads.bind_pure _)).all

theorem encodeTokenAdminModifyBalance_readsAll {op : TokenAdminModifyBalanceOp}
    (h : encodeTokenAdminModifyBalance [] op = .ok out) :
    ReadsAll decodeTokenAdminModifyBalance out op := by
  obtain ⟨c1, h1, h⟩ := bind_eq_ok.mp h
  obtain ⟨c2, h2, h3⟩ := bind_eq_ok.mp h
  have e1 := encodeOctet_appends.nil h1
  obtain ⟨b2, rfl, e2⟩ := encodeBigint_appends _ _ _ h2
  obtain ⟨b3, rfl, e3⟩ := encodeBigint_appends _ _ _ h3
  rw [List.append_assoc]
  exact (e1.reads.bind (e2.reads.bind (e3.reads.bind_pure _))).all

theorem encodeReceive_readsAll {op : ReceiveOp} (h : encodeReceive [] op = .ok out) :
    ReadsAll decodeReceive out op := by
  obtain ⟨c1, h1, h⟩ := bind_eq_ok.mp h
  obtain ⟨c2, h2, h⟩ := bind_eq_ok.mp h
  obtain ⟨c3, h3, h⟩ := bind_eq_ok.mp h
  obtain ⟨c4, h4, h⟩ := bind_eq_ok.mp h
  have e1 := encodeBigint_appends.nil h1
  obtain ⟨b2, rfl, e2⟩ := encodeOctet_appends _ _ _ h2
  obtain ⟨b3, rfl, e3⟩ := encodeOctet_appends _ _ _ h3
  obtain ⟨b4, rfl, e4⟩ := encodeBool_appends _ _ _ h4
  obtain ⟨b5, rfl, e5⟩ := appendOptional_rest encodeOctet_appends h
  rw [List.append_assoc, List.append_assoc, List.append_assoc]
  exact e1.reads.bind_all (e2.reads.bind_all (e3.reads.bind_all (e4.reads.bind_all
    (e5.bind_pure _))))

/-- Tag an intermediate-certificate slot starts with. -/
def IntermediateCertificates.tag : IntermediateCertificates → Tag
  | .null => .null
  | .bundle _ => .sequence

theorem encodeIntermediateCertificates_appends :
    Appends encodeIntermediateCertificates fun a b =>
      Element decodeIntermediateCertificates a.tag a b := by
  intro out value out' h
  cases value with
  | null =>
    obtain ⟨b, rfl, hb⟩ := encodeNull_eq_ok h
    exact ⟨b, rfl, hb.peek (hb.reads.bind_pure _)⟩
  | bundle certificates =>
    obtain ⟨b, rfl, hb⟩ := appended_octets IntermediateCertificates.bundle h
    exact ⟨b, rfl, hb.peek hb.reads⟩

theorem encodeManageCertificate_readsAll {op : ManageCertificateOp}
    (h : encodeManageCertificate [] op = .ok out) : ReadsAll decodeManageCertificate out op := by
  obtain ⟨c1, h1, h⟩ := bind_eq_ok.mp h
  obtain ⟨c2, h2, h⟩ := bind_eq_ok.mp h
  have e1 := encodeBigint_appends.nil h1
  obtain ⟨b2, rfl, e2⟩ := encodeOctet_appends _ _ _ h2
  obtain ⟨b3, rfl, e3⟩ := appendOptional_rest encodeIntermediateCertificates_appends h
  rw [List.append_assoc]
  exact e1.reads.bind_all (e2.reads.bind_all (e3.bind_pure _))

/-- The fields of an operation are read back under its own context tag. -/
theorem encodeFields_readsAll {operation : Operation} (h : encodeFields operation = .ok out) :
    ReadsAll (decodeFields (operationTag operation)) out operation := by
  cases operation with
  | send op => exact (encodeSend_readsAll h).bind_pure _
  | setRep op => exact (encodeSetRep_readsAll h).bind_pure _
  | setInfo op => exact (encodeSetInfo_readsAll h).bind_pure _
  | modifyPermissions op => exact (encodeModifyPermissions_readsAll h).bind_pure _
  | createIdentifier op => exact (encodeCreateIdentifier_readsAll h).bind_pure _
  | tokenAdminSupply op => exact (encodeTokenAdminSupply_readsAll h).bind_pure _
  | tokenAdminModifyBalance op => exact (encodeTokenAdminModifyBalance_readsAll h).bind_pure _
  | receive op => exact (encodeReceive_readsAll h).bind_pure _
  | manageCertificate op => exact (encodeManageCertificate_readsAll h).bind_pure _

theorem encodeOperation_element {operation : Operation} (h : encodeOperation operation = .ok b) :
    Element decodeOperation (Tag.contextSpecific true (operationTag operation)) operation b := by
  obtain ⟨fields, hfields, h⟩ := bind_eq_ok.mp h
  obtain ⟨sequence, hs, hb⟩ := bind_eq_ok.mp h
  have hbody := (encodeFields_readsAll hfields).toEnd invalidBlock
  exact element_of_encodeTlv hb ((reads_readAny hb).bind_nil
    ((reads_lift (soleSequence_eq_ok hs hb)).bind_nil (reads_lift (within_eq_ok hs hbody))))

theorem encodeOperations_appends :
    Appends encodeOperations fun a b => Element decodeOperations Tag.sequence a b := by
  intro out operations out' h
  obtain ⟨content, hcontent, h⟩ := bind_eq_ok.mp h
  obtain ⟨b, hb, hout⟩ := bind_eq_ok.mp h
  rw [pure_eq_ok, Except.ok.injEq] at hout
  exact ⟨b, hout.symm, element_sequence hb
    (appendEncoded_readsAll (fun _ _ => encodeOperation_element) hcontent)⟩

/-! ## Blocks -/

/-- Reading the outer element of a block. -/
private theorem within_outer {t : Tag} (h : encodeTlv (ε := Asn1Error) t v = .ok b) :
    within b (do
      let (tag, value) ← readAny
      rejectIf (tag ≠ t) invalidBlock
      finished invalidBlock
      return value : Reader Asn1Error Bytes) = .ok v := by
  refine within_encoded_eq_ok h ?_
  unfold ReadsAll
  have := (reads_readAny h).run_bind (fun p => (do
      rejectIf (p.1 ≠ t) invalidBlock
      finished invalidBlock
      return p.2 : Reader Asn1Error Bytes)) []
  rw [List.append_nil] at this
  refine this.trans ?_
  rw [rejectIf_neg (by simp)]
  rfl

theorem head_encodeV1 {block : BlockV1} (h : encodeV1 block = .ok b) : b.head? = some 0x30 := by
  unfold encodeV1 at h
  simp only [bind_eq_ok] at h
  obtain ⟨_, -, _, -, _, -, _, -, _, -, _, -, _, -, _, -, _, -, _, -, h⟩ := h
  exact LawfulTlv.head_encode h

theorem head_encodeV2 {block : BlockV2} (h : encodeV2 block = .ok b) : b.head? = some 0xA1 := by
  unfold encodeV2 at h
  simp only [bind_eq_ok] at h
  obtain ⟨_, -, _, -, _, -, _, -, _, -, _, -, _, -, _, -, _, -, _, -, _, -, h⟩ := h
  exact LawfulTlv.head_encode h

variable [Chrono] [LawfulChrono]

theorem decodeV1_encodeV1 {block : BlockV1} (h : encodeV1 block = .ok b) :
    decodeV1 b = .ok block := by
  obtain ⟨c1, h1, h⟩ := bind_eq_ok.mp h
  obtain ⟨c2, h2, h⟩ := bind_eq_ok.mp h
  obtain ⟨c3, h3, h⟩ := bind_eq_ok.mp h
  obtain ⟨c4, h4, h⟩ := bind_eq_ok.mp h
  obtain ⟨c5, h5, h⟩ := bind_eq_ok.mp h
  obtain ⟨c6, h6, h⟩ := bind_eq_ok.mp h
  obtain ⟨c7, h7, h⟩ := bind_eq_ok.mp h
  obtain ⟨c8, h8, h⟩ := bind_eq_ok.mp h
  obtain ⟨c9, h9, h⟩ := bind_eq_ok.mp h
  obtain ⟨c10, h10, h⟩ := bind_eq_ok.mp h
  have e1 := encodeBigint_appends.nil h1
  obtain ⟨b2, rfl, e2⟩ := encodeBigint_appends _ _ _ h2
  obtain ⟨b3, rfl, e3⟩ := encodeIntegerOrNull_appends _ _ _ h3
  obtain ⟨b4, rfl, e4⟩ := appendOptional_tag encodeOctet_appends h4
  obtain ⟨b5, rfl, e5⟩ := encodeTime_appends _ _ _ h5
  obtain ⟨b6, rfl, e6⟩ := encodeOctet_appends _ _ _ h6
  obtain ⟨b7, rfl, e7⟩ := encodeOctetOrNull_appends _ _ _ h7
  obtain ⟨b8, rfl, e8⟩ := encodeOctet_appends _ _ _ h8
  obtain ⟨b9, rfl, e9⟩ := encodeOperations_appends _ _ _ h9
  obtain ⟨b10, rfl, e10⟩ := appendOptional_rest encodeOctet_appends h10
  simp only [List.append_assoc] at h
  have hfields : ReadsAll v1Fields
      (c1 ++ (b2 ++ (b3 ++ (b4 ++ (b5 ++ (b6 ++ (b7 ++ (b8 ++ (b9 ++ b10))))))))) block :=
    e1.reads.bind_all <| e2.reads.bind_all <| e3.reads.bind_all <|
      -- the idempotent key is absent exactly when the date comes next
      readsAll_bind (e4 _ _ (e5.head.append _) (by decide)).1 <|
      e5.reads.bind_all <| e6.reads.bind_all <| e7.reads.bind_all <| e8.reads.bind_all <|
      e9.reads.bind_all (e10.bind_pure _)
  unfold decodeV1
  rw [within_outer h, ok_bind]
  exact within_eq_ok h (hfields.toEnd invalidBlock)

theorem decodeV2_encodeV2 {block : BlockV2} (h : encodeV2 block = .ok b) :
    decodeV2 b = .ok block := by
  obtain ⟨c1, h1, h⟩ := bind_eq_ok.mp h
  obtain ⟨c2, h2, h⟩ := bind_eq_ok.mp h
  obtain ⟨c3, h3, h⟩ := bind_eq_ok.mp h
  obtain ⟨c4, h4, h⟩ := bind_eq_ok.mp h
  obtain ⟨c5, h5, h⟩ := bind_eq_ok.mp h
  obtain ⟨c6, h6, h⟩ := bind_eq_ok.mp h
  obtain ⟨c7, h7, h⟩ := bind_eq_ok.mp h
  obtain ⟨c8, h8, h⟩ := bind_eq_ok.mp h
  obtain ⟨c9, h9, h⟩ := bind_eq_ok.mp h
  obtain ⟨c10, h10, h⟩ := bind_eq_ok.mp h
  obtain ⟨sequence, hs, hb⟩ := bind_eq_ok.mp h
  have e1 := encodeBigint_appends.nil h1
  obtain ⟨b2, rfl, e2⟩ := appendOptional_tag encodeBigint_appends h2
  obtain ⟨b3, rfl, e3⟩ := appendOptional_tag encodeOctet_appends h3
  obtain ⟨b4, rfl, e4⟩ := encodeTime_appends _ _ _ h4
  obtain ⟨b5, rfl, e5⟩ := encodeBigint_appends _ _ _ h5
  obtain ⟨b6, rfl, e6⟩ := encodeOctet_appends _ _ _ h6
  obtain ⟨b7, rfl, e7⟩ := encodeSigner_appends _ _ _ h7
  obtain ⟨b8, rfl, e8⟩ := encodeOctet_appends _ _ _ h8
  obtain ⟨b9, rfl, e9⟩ := encodeOperations_appends _ _ _ h9
  obtain ⟨b10, rfl, e10⟩ := appendOptional_rest encodeSignatures_appends h10
  simp only [List.append_assoc] at hs
  have hidempotent := e3 _ (b4 ++ (b5 ++ (b6 ++ (b7 ++ (b8 ++ (b9 ++ b10))))))
    (e4.head.append _) (by decide)
  -- what follows the subnet starts with the idempotent key or with the date
  have hsubnet := e2 _ _ hidempotent.2 (by split <;> decide)
  have hfields : ReadsAll v2Fields
      (c1 ++ (b2 ++ (b3 ++ (b4 ++ (b5 ++ (b6 ++ (b7 ++ (b8 ++ (b9 ++ b10))))))))) block :=
    e1.reads.bind_all <| readsAll_bind hsubnet.1 <| readsAll_bind hidempotent.1 <|
      e4.reads.bind_all <| e5.reads.bind_all <| e6.reads.bind_all <| e7.reads.bind_all <|
      e8.reads.bind_all <| e9.reads.bind_all (e10.bind_pure _)
  unfold decodeV2
  rw [within_outer hb, ok_bind, soleSequence_eq_ok hs hb, ok_bind]
  exact within_eq_ok hs (hfields.toEnd invalidBlock)

/-- **Block round trip.** Whatever the codec encodes, it decodes to the same value. -/
theorem decodeBlock_encodeBlock (block : Block) (h : encodeBlock block = .ok b) :
    decodeBlock b = .ok block := by
  cases block with
  | v1 value =>
    unfold decodeBlock
    rw [head_encodeV1 h]
    simp only [decodeV1_encodeV1 h, map_ok]
  | v2 value =>
    unfold decodeBlock
    rw [head_encodeV2 h]
    simp only [decodeV2_encodeV2 h, map_ok]

/-- **The block codec decodes exactly what it encodes.** Both versions, every
signer tree and operation list, and every combination of optional fields: if the
writer returns bytes, the reader returns the identical value. A date outside the
years 0 to 9999 and a `NULL` below the root of the signer tree are not written. -/
theorem blockCodec_round_trip :
    (∀ (value : BlockV1) (bytes : Bytes),
      encodeV1 value = .ok bytes → decodeBlock bytes = .ok (.v1 value)) ∧
    (∀ (value : BlockV2) (bytes : Bytes),
      encodeV2 value = .ok bytes → decodeBlock bytes = .ok (.v2 value)) :=
  ⟨fun value _ h => decodeBlock_encodeBlock (.v1 value) h,
    fun value _ h => decodeBlock_encodeBlock (.v2 value) h⟩

omit [Chrono] [LawfulChrono] in
/-- **The stack machines of the signer tree compute its recursive encoding**, at any depth. Both
loops stop, the writer with the encoding of the tree, which only the framing can refuse, and the
reader with the tree whose encoding it was given. -/
theorem multisigSigner_codec :
    (∀ value : MultisigSigner, value.toSigner.IsNonempty →
      Returns encodeStep [⟨value.address, value.signers, []⟩] (encodeTree value.toSigner) ∧
      encodeMultisigSigner value = encodeTree value.toSigner ∧
      ∀ e, encodeMultisigSigner value = .error e → Refused e) ∧
    (∀ (value : MultisigSigner) (bytes : Bytes), encodeMultisigSigner value = .ok bytes →
      ∃ content, encodeTlv (ε := Asn1Error) .sequence content = .ok bytes ∧
        decodeMultisigSigner content = .ok value) ∧
    (∀ content frame, openFrame content = .ok frame →
      Returns decodeStep [frame] (decodeMultisigSigner content)) ∧
    ∀ content value, decodeMultisigSigner content = .ok value →
      encodeContent value = .ok content ∧ encodeMultisigSigner value = wrapSequence content := by
  refine ⟨fun value hvalue => ⟨?_, encodeMultisigSigner_eq value, fun e h => ?_⟩,
    fun value bytes h => ?_, fun content frame hframe => ?_, fun content value h => ?_⟩
  · rw [← encodeMultisigSigner_eq value]
    exact returns_loop encodeStep_decreasing _ _
  · rw [encodeMultisigSigner_eq] at h
    exact encodeTree_eq_error hvalue h
  · rw [encodeMultisigSigner_eq] at h
    exact decodeMultisigSigner_encodeTree h
  · unfold decodeMultisigSigner
    rw [hframe, ok_bind]
    exact returns_loop decodeStep_decreasing _ _
  · have hcontent := encodeContent_of_decodeMultisigSigner h
    refine ⟨hcontent, ?_⟩
    rw [encodeMultisigSigner_eq, encodeTree_toSigner, hcontent, ok_bind]

end RoundTrip

namespace Sample

/-- A V1 block with an idempotent key, without subnet and signature. -/
def blockV1 : BlockV1 where
  version := 0
  network := 0x5382
  subnet := .null
  idempotent := some [1, 2]
  date := date
  signer := [1, 7]
  account := .null
  previous := [9]
  operations := [.setRep ⟨[1, 8]⟩]
  signature := none

def bytesV1 : Bytes :=
  [48, 53, 2, 1, 0, 2, 2, 83, 130, 5, 0, 4, 2, 1, 2, 24, 19, 50, 48, 50, 53, 48, 49, 48, 50, 48,
    51, 48, 52, 48, 53, 46, 53, 48, 48, 90, 4, 2, 1, 7, 5, 0, 4, 1, 9, 48, 8, 161, 6, 48, 4, 4, 2,
    1, 8]

/-- A V2 block with a nested signer tree and two signatures. -/
def blockV2 : BlockV2 where
  network := -129
  subnet := none
  idempotent := none
  date := date
  purpose := 0
  account := [7, 1]
  signer := .multisig [7, 1] [.single [1, 2], .multisig [7, 3] [.single [1, 4]]]
  previous := [9]
  operations := [.manageCertificate ⟨1, [5], some (.bundle [])⟩]
  signatures := some (.multiple [[6], [7]])

def bytesV2 : Bytes :=
  [161, 83, 48, 81, 2, 2, 255, 127, 24, 19, 50, 48, 50, 53, 48, 49, 48, 50, 48, 51, 48, 52, 48, 53,
    46, 53, 48, 48, 90, 2, 1, 0, 4, 2, 7, 1, 48, 22, 4, 2, 7, 1, 48, 16, 4, 2, 1, 2, 48, 10, 4, 2,
    7, 3, 48, 4, 4, 2, 1, 4, 4, 1, 9, 48, 12, 168, 10, 48, 8, 2, 1, 1, 4, 1, 5, 48, 0, 48, 6, 4, 1,
    6, 4, 1, 7]

/-- The signer tree of the V2 block. -/
def signers : MultisigSigner :=
  ⟨[7, 1], [.single [1, 2], .multisig [7, 3] [.single [1, 4]]]⟩

def signersBytes : Bytes :=
  [48, 22, 4, 2, 7, 1, 48, 16, 4, 2, 1, 2, 48, 10, 4, 2, 7, 3, 48, 4, 4, 2, 1, 4]

end Sample

open scoped Asn1.Reference in
theorem blockCodec_round_trip_sample :
    decodeBlock Sample.bytesV1 = .ok (.v1 Sample.blockV1) ∧
      decodeBlock Sample.bytesV2 = .ok (.v2 Sample.blockV2) :=
  ⟨blockCodec_round_trip.1 Sample.blockV1 Sample.bytesV1 (by decide +kernel),
    blockCodec_round_trip.2 Sample.blockV2 Sample.bytesV2 (by decide +kernel)⟩

open scoped Asn1.Reference in
theorem multisigSigner_codec_sample :
    encodeMultisigSigner Sample.signers = encodeTree Sample.signers.toSigner ∧
    (∃ content, encodeTlv (ε := Asn1Error) .sequence content = .ok Sample.signersBytes ∧
      decodeMultisigSigner content = .ok Sample.signers) ∧
    Returns decodeStep [⟨[7, 1], Sample.signersBytes.drop 8, []⟩]
      (decodeMultisigSigner (Sample.signersBytes.drop 2)) ∧
    encodeContent Sample.signers = .ok (Sample.signersBytes.drop 2) :=
  ⟨(multisigSigner_codec.1 Sample.signers ⟨trivial, ⟨trivial, trivial⟩, trivial⟩).2.1,
    multisigSigner_codec.2.1 Sample.signers Sample.signersBytes (by decide +kernel),
    multisigSigner_codec.2.2.1 (Sample.signersBytes.drop 2) _ rfl,
    (multisigSigner_codec.2.2.2 (Sample.signersBytes.drop 2) Sample.signers rfl).1⟩

end KeetaNode.Asn1
