import KeetaNode.Block.Unsigned

/-!
# Sealed blocks

A block that exists was authorised by every leaf of its signer tree, and it decodes
from its own bytes.

- `keetanetwork-block/src/block.rs`
- `keetanetwork-block/src/signer.rs`
-/

namespace KeetaNode

open ByteCodec
open Asn1 (Tag Asn1Error Chrono LawfulChrono)

section Sealing

variable [Crypto]

/-! ## What sealing checks -/

/-- A signature of an account over a block's hash. -/
def Verifies (hash : BlockHash) (signer : GenericAccount) (signature : Signature) : Prop :=
  signer.verify hash.bytes signature.bytes = .ok ()

/-- With as many signatures as signers, none is skipped. -/
theorem verifySignatures_eq_ok {hash : BlockHash} {index : Nat} {signers : List GenericAccount}
    {signatures : List Signature} (hlength : signatures.length = signers.length) :
    verifySignatures hash index signers signatures = .ok () ↔
      List.Forall₂ (Verifies hash) signers signatures := by
  induction signers generalizing index signatures with
  | nil =>
    obtain rfl := List.length_eq_zero_iff.mp hlength
    simp [verifySignatures]
  | cons signer signers ih =>
    cases signatures with
    | nil => simp at hlength
    | cons signature signatures =>
      simp only [List.length_cons, Nat.add_right_cancel_iff] at hlength
      rw [List.forall₂_cons, verifySignatures, Verifies]
      cases hverify : signer.verify hash.bytes signature.bytes with
      | error e => simp
      | ok u => simp [ih hlength]

/-- The distinct signing accounts among the leaves, by first occurrence. -/
def Signer.distinctKeyedLeaves (signer : Signer) : List GenericAccount :=
  (signer.leaves.filter fun leaf => leaf.keyType.supportsCrypto).eraseDups

section Signers

variable [LawfulCrypto] {hash : BlockHash} {signer : Signer} {signatures : List Signature}

theorem verified_of_mem_leaves
    (h : List.Forall₂ (Verifies hash) signer.requiredSigners signatures) {leaf : GenericAccount}
    (hleaf : leaf ∈ signer.leaves) : ∃ signature ∈ signatures, Verifies hash leaf signature := by
  rw [Signer.requiredSigners_eq] at h
  obtain ⟨i, hi⟩ := List.get_of_mem (List.mem_eraseDups.mpr hleaf)
  have hsignature : i < signatures.length := h.length_eq ▸ i.isLt
  have hverified := h.get i.isLt hsignature
  rw [Fin.eta, hi] at hverified
  exact ⟨signatures.get ⟨i, hsignature⟩, List.get_mem signatures _, hverified⟩

/-- Only an account with a key has a signature that verifies. -/
theorem keyedLeaves_of_verified
    (h : List.Forall₂ (Verifies hash) signer.requiredSigners signatures) : signer.KeyedLeaves := by
  intro leaf hleaf
  obtain ⟨signature, -, hverified⟩ := verified_of_mem_leaves h hleaf
  exact GenericAccount.supportsCrypto_of_verify hverified

theorem requiredSigners_eq_distinctKeyedLeaves (h : signer.KeyedLeaves) :
    signer.requiredSigners = signer.distinctKeyedLeaves := by
  rw [Signer.requiredSigners_eq, Signer.distinctKeyedLeaves, List.filter_eq_self.mpr h]

end Signers

variable [X509] [Tlv Tag Asn1Error]

namespace Block

/-- What the only constructor of blocks has checked. -/
structure Checked (block : Block) (unsignedBytes : Bytes) : Prop where
  unsigned : encodeBlock block.data none = .ok unsignedBytes
  hash_eq : block.hash = hashDefault unsignedBytes
  valid : block.data.validate block.hash = .ok ()
  nonempty : block.signatures ≠ []
  single : block.data.version = .v1 → block.signatures.length = 1
  verified : List.Forall₂ (Verifies block.hash) block.data.signer.requiredSigners block.signatures
  signed : encodeBlock block.data (some block.signatures) = .ok block.bytes

/-- **A block is made exactly when its parts pass all checks.** -/
theorem ofParts_eq_ok {data : BlockData} {signatures : List Signature} {block : Block} :
    ofParts data signatures = .ok block ↔
      block.data = data ∧ block.signatures = signatures ∧ ∃ bytes, block.Checked bytes := by
  simp only [ofParts, bind_eq_ok, rejectIf_eq_ok, pure_eq_ok, Except.ok.injEq]
  constructor
  · rintro ⟨unsigned, hunsigned, _, hvalid, _, hnonempty, _, hsingle, _, hlength, _, hverified,
      bytes, hbytes, rfl⟩
    rw [not_not] at hlength
    refine ⟨rfl, rfl, unsigned, hunsigned, rfl, hvalid, hnonempty, ?_, ?_, hbytes⟩
    · intro hv1
      by_contra hcount
      exact hsingle ⟨hv1, hcount⟩
    · exact (verifySignatures_eq_ok hlength).mp hverified
  · rintro ⟨rfl, rfl, unsigned, hchecked⟩
    -- the signatures that were verified are as many as the signers
    have hlength := hchecked.verified.length_eq.symm
    have hhash := hchecked.hash_eq
    refine ⟨unsigned, hchecked.unsigned, (), ?_, (), hchecked.nonempty, (), ?_, (),
      not_not.mpr hlength, (), ?_, block.bytes, hchecked.signed, ?_⟩
    · rw [← hhash]
      exact hchecked.valid
    · rintro ⟨hv1, hcount⟩
      exact hcount (hchecked.single hv1)
    · rw [← hhash]
      exact (verifySignatures_eq_ok hlength).mpr hchecked.verified
    · rw [← hhash]

end Block

/-- Signing is sealing with the signatures it collects. -/
theorem UnsignedBlock.sealWith_of_sign {unsigned : UnsignedBlock} {block : Block}
    {signatureOf : GenericAccount → Bytes → Except AccountError Bytes}
    (h : unsigned.sign signatureOf = .ok block) :
    ∃ signatures, unsigned.sealWith signatures = .ok block := by
  simp only [sign, bind_eq_ok] at h
  obtain ⟨signatures, -, hseal⟩ := h
  exact ⟨signatures, hseal⟩

variable [Chrono]

theorem Block.ofBytes_eq_ok {bytes : Bytes} {block : Block} :
    Block.ofBytes bytes = .ok block ↔
      ∃ data signatures, decodeBlock bytes = .ok (data, some signatures) ∧
        Block.ofParts data signatures = .ok block ∧ block.bytes = bytes := by
  simp only [Block.ofBytes, bind_eq_ok, rejectIf_eq_ok, pure_eq_ok, Except.ok.injEq, not_not]
  constructor
  · rintro ⟨⟨data, signatures⟩, hdecoded, found, hfound, made, hmade, -, hbytes, rfl⟩
    cases signatures with
    | none => cases hfound
    | some given =>
      cases hfound
      exact ⟨data, found, hdecoded, hmade, hbytes⟩
  · rintro ⟨data, given, hdecoded, hmade, hbytes⟩
    exact ⟨(data, some given), hdecoded, given, rfl, block, hmade, (), hbytes, rfl⟩

/-! ## Authorisation -/

/-- The ways to come by a block. -/
inductive Block.Obtained : Block → Prop
  | sealing {unsigned : UnsignedBlock} {signatures : List Signature} {block : Block} :
      unsigned.sealWith signatures = .ok block → Obtained block
  | signing {unsigned : UnsignedBlock} {block : Block}
      {signatureOf : GenericAccount → Bytes → Except AccountError Bytes} :
      unsigned.sign signatureOf = .ok block → Obtained block
  | decoding {bytes : Bytes} {block : Block} : Block.ofBytes bytes = .ok block → Obtained block
  | verifying {bytes : Bytes} {block : Block} : Block.verify bytes = .ok block → Obtained block

/-- Every leaf of the signer tree has signed the hash of the unsigned encoding. -/
structure Block.Authorised (block : Block) : Prop where
  hash_eq : ∃ unsigned, encodeBlock block.data none = .ok unsigned ∧
    block.hash = hashDefault unsigned
  valid : block.data.validate block.hash = .ok ()
  count : block.signatures.length = block.data.signer.distinctKeyedLeaves.length
  verified : ∀ (i : Nat) (hsigner : i < block.data.signer.distinctKeyedLeaves.length)
    (hsignature : i < block.signatures.length),
    (block.data.signer.distinctKeyedLeaves.get ⟨i, hsigner⟩).verify block.hash.bytes
      (block.signatures.get ⟨i, hsignature⟩).bytes = .ok ()
  single : block.data.version = .v1 → block.signatures.length = 1
  complete : ∀ leaf ∈ block.data.signer.leaves, ∃ signature ∈ block.signatures,
    leaf.verify block.hash.bytes signature.bytes = .ok ()

theorem Block.Obtained.checked {block : Block} (h : block.Obtained) :
    ∃ bytes, block.Checked bytes := by
  have hsealed : ∀ {unsigned : UnsignedBlock} {signatures : List Signature},
      unsigned.sealWith signatures = .ok block → ∃ bytes, block.Checked bytes := fun h =>
    (Block.ofParts_eq_ok.mp h).2.2
  have hdecoded : ∀ {bytes : Bytes}, Block.ofBytes bytes = .ok block →
      ∃ bytes, block.Checked bytes := by
    intro bytes h
    obtain ⟨data, signatures, -, hmade, -⟩ := Block.ofBytes_eq_ok.mp h
    exact (Block.ofParts_eq_ok.mp hmade).2.2
  cases h with
  | sealing h => exact hsealed h
  | signing h =>
    obtain ⟨signatures, hseal⟩ := UnsignedBlock.sealWith_of_sign h
    exact hsealed hseal
  | decoding h => exact hdecoded h
  | verifying h => exact hdecoded h

section Lawful

variable [LawfulCrypto]

/-- **Holding a block implies that its whole signer tree has authorised it.** -/
theorem Block.authorised_of_obtained (block : Block) (h : block.Obtained) : block.Authorised := by
  obtain ⟨unsigned, hchecked⟩ := h.checked
  have hverified := hchecked.verified
  have hkeyed := keyedLeaves_of_verified hverified
  have hsigners := requiredSigners_eq_distinctKeyedLeaves hkeyed
  rw [hsigners] at hverified
  exact {
    hash_eq := ⟨unsigned, hchecked.unsigned, hchecked.hash_eq⟩
    valid := hchecked.valid
    count := hverified.length_eq.symm
    verified := fun i hsigner hsignature => hverified.get hsigner hsignature
    single := hchecked.single
    complete := fun leaf hleaf => verified_of_mem_leaves hchecked.verified hleaf }

/-! ## Decoding a sealed block -/

variable [LawfulX509] [LawfulTlv Tag Asn1Error] [LawfulChrono]

/-- A block decodes from its bytes, to its data in wire form. -/
theorem Block.Checked.ofBytes {block : Block} {unsigned : Bytes} (h : block.Checked unsigned) :
    Block.ofBytes block.bytes = .ok { block with data := block.data.onWire } := by
  have hdata := BlockData.transportable_of_validate h.valid
  refine Block.ofBytes_eq_ok.mpr ⟨block.data.onWire, block.signatures, ?_, ?_, rfl⟩
  · exact (decodeBlock_eq_ok_iff hdata h.signed).mpr
      ⟨rfl, fun _ => keyedLeaves_of_verified h.verified⟩
  · -- the wire form is encoded to the same octets, so that the checks are the same
    refine Block.ofParts_eq_ok.mpr ⟨rfl, rfl, unsigned, ?_⟩
    exact {
      unsigned := by
        rw [encodeBlock_onWire]
        exact h.unsigned
      hash_eq := h.hash_eq
      valid := by
        rw [BlockData.validate_onWire]
        exact h.valid
      nonempty := h.nonempty
      single := h.single
      verified := h.verified
      signed := by
        rw [encodeBlock_onWire]
        exact h.signed }

/-- **Every sealed block verifies again from its own bytes**, and its hash is that of the
unsigned encoding. -/
theorem Block.ofBytes_of_sealed (unsigned : UnsignedBlock) (block : Block)
    (h : (∃ signatures, unsigned.sealWith signatures = .ok block) ∨
      ∃ signatureOf, unsigned.sign signatureOf = .ok block) :
    (∃ decoded, Block.ofBytes block.bytes = .ok decoded ∧ decoded.bytes = block.bytes ∧
        decoded.hash = block.hash ∧ decoded.signatures = block.signatures) ∧
      ∃ bytes, encodeBlock unsigned.data none = .ok bytes ∧ block.hash = hashDefault bytes := by
  have hsealed : ∃ signatures, unsigned.sealWith signatures = .ok block := by
    rcases h with h | ⟨signatureOf, h⟩
    · exact h
    · exact UnsignedBlock.sealWith_of_sign h
  obtain ⟨signatures, hseal⟩ := hsealed
  obtain ⟨hdata, -, bytes, hchecked⟩ := Block.ofParts_eq_ok.mp hseal
  refine ⟨⟨_, hchecked.ofBytes, rfl, rfl, rfl⟩, bytes, ?_, hchecked.hash_eq⟩
  rw [← hdata]
  exact hchecked.unsigned

end Lawful

end Sealing

/-! ## Samples -/

section Samples

open scoped Reference Asn1.Reference

namespace Sample

open Reference

/-- The signatures of alice and bob over the hash of the sample block. -/
def signatures : List Signature :=
  [⟨octets 64 (join [0x1d44911694ef3b8042503f82f61cb269a1e8652c12e73a2e,
      0x6c3a52e2cecc119ba2eaa8c40ee987b8c145cbb3c59ff7c70029075da8d8434f0b33c07ba061ea02]),
      length_octets _ _⟩,
    ⟨octets 64 (join [0x00e7edec341a0ded9d45d89045ab5d7b015a48a62cefed53,
      0xce7f410b4a6c056b85f2615bb0b857fccdd7b0432129e4f2b16e95e999af0150fffa6d6dc4b72309]),
      length_octets _ _⟩]

/-- The sample block, not yet signed. -/
def unsigned : Except BlockError UnsignedBlock := UnsignedBlock.ofData (blockData tree given)

end Sample

theorem Block.ofBytes_of_sealed_sample :
    ∃ unsigned block, Sample.unsigned = .ok unsigned ∧
      unsigned.sealWith Sample.signatures = .ok block ∧
      (∃ decoded, Block.ofBytes block.bytes = .ok decoded ∧ decoded.bytes = block.bytes ∧
          decoded.hash = block.hash ∧ decoded.signatures = block.signatures) ∧
        ∃ bytes, encodeBlock unsigned.data none = .ok bytes ∧ block.hash = hashDefault bytes := by
  obtain ⟨block, h⟩ := exists_eq_ok (by decide +kernel :
    (Sample.unsigned >>= fun unsigned => unsigned.sealWith Sample.signatures).isOk = true)
  obtain ⟨unsigned, hunsigned, hseal⟩ := bind_eq_ok.mp h
  exact ⟨unsigned, block, hunsigned, hseal,
    Block.ofBytes_of_sealed unsigned block (.inl ⟨Sample.signatures, hseal⟩)⟩

theorem Block.authorised_of_obtained_sample :
    ∃ unsigned block, Sample.unsigned = .ok unsigned ∧
      unsigned.sealWith Sample.signatures = .ok block ∧ block.Authorised := by
  obtain ⟨block, h⟩ := exists_eq_ok (by decide +kernel :
    (Sample.unsigned >>= fun unsigned => unsigned.sealWith Sample.signatures).isOk = true)
  obtain ⟨unsigned, hunsigned, hseal⟩ := bind_eq_ok.mp h
  exact ⟨unsigned, block, hunsigned, hseal, Block.authorised_of_obtained block (.sealing hseal)⟩

end Samples

end KeetaNode
