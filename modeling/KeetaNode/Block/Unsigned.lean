import KeetaNode.Block.RoundTrip
import KeetaNode.Crypto.Reference

/-!
# Unsigned blocks on the wire

When an unsigned block decodes from its own bytes, and how far its bytes, which are
what is signed, determine it.

- `keetanetwork-block/src/block.rs`
- `keetanetwork-block/src/transport.rs`
-/

namespace KeetaNode

open ByteCodec
open Asn1 (Tag Asn1Error Chrono LawfulChrono)

private theorem eq_of_map_eq {α β : Type} {f : α → β} {as bs : List α}
    (hinj : ∀ a ∈ as, ∀ b, f a = f b → a = b) (h : as.map f = bs.map f) : as = bs := by
  induction as generalizing bs with
  | nil => simpa using h.symm
  | cons a as ih =>
    cases bs with
    | nil => simp at h
    | cons b bs =>
      simp only [List.map_cons, List.cons.injEq] at h
      rw [hinj a (by simp) b h.1, ih (fun a' ha' => hinj a' (by simp [ha'])) h.2]

section Wire

variable [Crypto] [X509]

/-! ## What validation establishes -/

namespace BlockData

variable {data : BlockData} {hash : BlockHash}

/-- The parts of a successful validation. -/
theorem validate_eq_ok (h : data.validate hash = .ok ()) :
    data.validateVersion = .ok () ∧
      validateSignerField data.signer (ValidationConfig.forNetwork data.network).toOption = .ok () ∧
      data.validateOperations (ValidationConfig.forNetwork data.network).toOption = .ok () := by
  simp only [validate, bind_eq_ok, rejectIf_eq_ok] at h
  obtain ⟨_, -, _, -, _, -, _, -, _, hversion, _, hsigner, _, hoperations, -⟩ := h
  exact ⟨hversion, hsigner, hoperations⟩

omit [Crypto] [X509] in
/-- Every known network has the default configuration. -/
theorem forNetwork_toOption {network : Int} {config : ValidationConfig}
    (h : config ∈ (ValidationConfig.forNetwork network).toOption) :
    config = ValidationConfig.default := by
  unfold ValidationConfig.forNetwork at h
  cases hnetwork : Network.tryFrom network with
  | error e =>
    rw [hnetwork, error_bind] at h
    cases h
  | ok known =>
    rw [hnetwork, ok_bind] at h
    cases h
    rfl

/-- Each operation has passed its own checks. -/
theorem validate_of_mem {config : Option ValidationConfig} {index : Nat}
    {operations : List Operation} (h : data.validateOperationsFrom config index operations = .ok ())
    {operation : Operation} (hmem : operation ∈ operations) :
    ∃ at', operation.validate (data.operationContext config at') = .ok () := by
  induction operations generalizing index with
  | nil => cases hmem
  | cons first rest ih =>
    simp only [validateOperationsFrom, validateOperation, bind_eq_ok] at h
    obtain ⟨_, ⟨_, -, hfirst⟩, hrest⟩ := h
    rcases List.mem_cons.mp hmem with rfl | hmem
    · exact ⟨index, hfirst⟩
    · exact ih hrest hmem

theorem transportable_of_validate [LawfulX509] (h : data.validate hash = .ok ()) :
    data.Transportable := by
  obtain ⟨hversion, hsigner, hoperations⟩ := validate_eq_ok h
  constructor
  · intro operation hmem
    obtain ⟨at', hvalid⟩ := validate_of_mem hoperations hmem
    exact Operation.discernible_of_validate _ hvalid
  · intro hv1
    simp only [validateVersion, hv1, bind_eq_ok, rejectIf_eq_ok, ne_eq, not_not] at hversion
    obtain ⟨_, hgeneric, -⟩ := hversion
    exact hgeneric
  · apply admitted_of_validateSignerField _ hsigner
    intro config hconfig
    rw [forNetwork_toOption hconfig]
    rfl

/-! Validation does not tell data from their wire form. -/

theorem validateOperationsFrom_onWire (data : BlockData) (config : Option ValidationConfig)
    (index : Nat) (operations : List Operation) :
    data.onWire.validateOperationsFrom config index (operations.map Operation.onWire) =
      data.validateOperationsFrom config index operations := by
  induction operations generalizing index with
  | nil => rfl
  | cons operation operations ih =>
    have hcontext : data.onWire.operationContext config index =
        (data.operationContext config index).onWire := rfl
    simp only [List.map_cons, validateOperationsFrom, validateOperation, ih, hcontext,
      Operation.validate_onWire, Operation.isSend_onWire]
    rfl

theorem validate_onWire (data : BlockData) (hash : BlockHash) :
    data.onWire.validate hash = data.validate hash := by
  have hoperations : ∀ config, data.onWire.validateOperations config =
      data.validateOperations config := fun config =>
    data.validateOperationsFrom_onWire config 0 data.operations
  simp only [validate, hoperations]
  rfl

omit [X509] in
theorem onWire_eq_canonical_iff (data : BlockData) :
    data.onWire.canonical = data.canonical ↔
      ∀ operation ∈ data.operations, ∀ p ∈ operation.permissionSet,
        AccessInPlace p.base.flags := by
  simp only [onWire, canonical, List.map_map, mk.injEq, true_and, List.map_inj_left,
    Function.comp_apply, Operation.canonical_onWire, Operation.onWire_eq_canonical_iff]

end BlockData

/-! ## Decoding an unsigned block -/

namespace UnsignedBlock

variable [Tlv Tag Asn1Error]

theorem ofData_eq_ok {data : BlockData} {block : UnsignedBlock} :
    ofData data = .ok block ↔
      block.data = data ∧ encodeBlock data none = .ok block.bytes ∧
        block.hash = hashDefault block.bytes ∧ data.validate block.hash = .ok () := by
  simp only [ofData, bind_eq_ok, pure_eq_ok, Except.ok.injEq]
  constructor
  · rintro ⟨bytes, hbytes, _, hvalid, rfl⟩
    exact ⟨rfl, hbytes, rfl, hvalid⟩
  · rintro ⟨rfl, hbytes, hhash, hvalid⟩
    refine ⟨block.bytes, hbytes, (), ?_, ?_⟩
    · rw [← hhash]
      exact hvalid
    · rw [← hhash]

/-- The wire form of an unsigned block's data makes a block with the same bytes. -/
theorem ofData_onWire {data : BlockData} {block : UnsignedBlock} (h : ofData data = .ok block) :
    ofData data.onWire = .ok { block with data := data.onWire } := by
  obtain ⟨-, hbytes, hhash, hvalid⟩ := ofData_eq_ok.mp h
  refine ofData_eq_ok.mpr ⟨rfl, ?_, hhash, ?_⟩
  · rw [encodeBlock_onWire]
    exact hbytes
  · rw [BlockData.validate_onWire]
    exact hvalid

variable [Chrono]

/-- The block decodes from its own bytes to the same bytes, hash and fields. -/
def SurvivesWire (block : UnsignedBlock) : Prop :=
  ∃ decoded, ofBytes block.bytes = .ok decoded ∧ decoded.bytes = block.bytes ∧
    decoded.hash = block.hash ∧ decoded.data.canonical = block.data.canonical

variable [LawfulCrypto] [LawfulX509] [LawfulTlv Tag Asn1Error] [LawfulChrono]

/-- Decoding an unsigned block's bytes gives its wire form, or an error when an
identifier is a leaf of its signer tree. -/
theorem ofBytes_bytes_eq_ok_iff {data : BlockData} {block decoded : UnsignedBlock}
    (h : ofData data = .ok block) :
    ofBytes block.bytes = .ok decoded ↔
      decoded = { block with data := data.onWire } ∧ data.KeyedSigners := by
  obtain ⟨-, hbytes, -, hvalid⟩ := ofData_eq_ok.mp h
  have hdata := BlockData.transportable_of_validate hvalid
  simp only [ofBytes, bind_eq_ok, decodeBlock_eq_ok_iff hdata hbytes]
  constructor
  · rintro ⟨parts, ⟨rfl, hkeyed⟩, hrest⟩
    simp only [Option.isSome_none, rejectIf_eq_ok, ofData_onWire h, Except.ok.injEq,
      pure_eq_ok] at hrest
    obtain ⟨-, -, wire, rfl, -, -, rfl⟩ := hrest
    exact ⟨rfl, hkeyed⟩
  · rintro ⟨rfl, hkeyed⟩
    refine ⟨(data.onWire, none), ⟨rfl, hkeyed⟩, ?_⟩
    simp [ofData_onWire h, rejectIf_neg]

/-- **An unsigned block survives its own wire format exactly when the leaves of a multisig
signer are keyed and `ACCESS` is in place in every permission set.** -/
theorem survivesWire_iff (data : BlockData) (block : UnsignedBlock)
    (h : ofData data = .ok block) :
    block.SurvivesWire ↔
      (data.signer.isMultisig = true →
        ∀ leaf ∈ data.signer.leaves, leaf.keyType.supportsCrypto = true) ∧
      ∀ operation ∈ data.operations, ∀ p ∈ operation.permissionSet,
        AccessInPlace p.base.flags := by
  rw [← BlockData.onWire_eq_canonical_iff]
  have hdata : block.data = data := (ofData_eq_ok.mp h).1
  simp only [SurvivesWire, ofBytes_bytes_eq_ok_iff h, hdata]
  constructor
  · rintro ⟨decoded, ⟨rfl, hkeyed⟩, -, -, hsame⟩
    exact ⟨hkeyed, hsame⟩
  · rintro ⟨hkeyed, hsame⟩
    exact ⟨_, ⟨rfl, hkeyed⟩, rfl, rfl, hsame⟩

end UnsignedBlock

end Wire

/-! ## Samples -/

section Samples

/-- No sample has a certificate that would be parsed. -/
scoped instance Reference.x509 : X509 where
  Certificate := Empty
  tryFrom _ := .error .invalidCertificate
  subjectPublicKey := Empty.elim
  assertCanConstructValidGraph certificate _ := certificate.elim

instance Reference.lawfulX509 : LawfulX509 where
  length_of_tryFrom h := by cases h

namespace Sample

open Reference

/-- `ACCESS` and `UPDATE_INFO`, both given. -/
def given : Permissions := ⟨⟨9, [.access, .updateInfo], 9, by decide +kernel⟩, 0⟩

/-- `UPDATE_INFO`, which implies `ACCESS`. -/
def implied : Permissions := ⟨⟨9, [.updateInfo, .access], 8, by decide +kernel⟩, 0⟩

def certificate : CertificateDer := ⟨[48, 3, 2, 1, 5]⟩

/-- A block in which bob's permissions are modified and a certificate is removed. -/
def blockDataRemoving (certificateOrHash : CertificateOrHash) (signer : Signer)
    (permissions : Permissions) : BlockData where
  version := .v2
  purpose := .generic
  network := 0
  subnet := some 1
  idempotent := some [1, 2]
  date := Asn1.Sample.date
  account := alice
  signer := signer
  previous := ⟨List.replicate 32 7, by simp⟩
  operations := [.modifyPermissions ⟨.account bob, .set, some permissions, none⟩,
    .manageCertificate ⟨.subtract, certificateOrHash, none⟩]

def blockData : Signer → Permissions → BlockData := blockDataRemoving (.certificate certificate)

/-- A tree in which alice is a leaf twice. -/
def tree : Signer :=
  .multisig (identifier .multisig 0x11 KeyPairType.algorithm_multisig)
    [.single alice, .multisig (identifier .multisig 0x22 KeyPairType.algorithm_multisig)
      [.single bob, .single alice]]

/-- A tree with a storage account for a leaf. -/
def identifierTree : Signer :=
  .multisig (identifier .multisig 0x11 KeyPairType.algorithm_multisig)
    [.single alice, .single (identifier .storage 0x33 KeyPairType.algorithm_storage)]

end Sample

open scoped Reference Asn1.Reference

theorem UnsignedBlock.survivesWire_sample :
    ∃ block, UnsignedBlock.ofData (Sample.blockData Sample.tree Sample.given) = .ok block ∧
      block.SurvivesWire := by
  obtain ⟨block, h⟩ := exists_eq_ok
    (by decide +kernel :
      (UnsignedBlock.ofData (Sample.blockData Sample.tree Sample.given)).isOk = true)
  exact ⟨block, h, (UnsignedBlock.survivesWire_iff _ block h).mpr
    ⟨by decide +kernel, by decide +kernel⟩⟩

/-- A storage account among the leaves, and a permission set that implies `ACCESS`: both
blocks are made, the first does not decode and the second decodes to other data. -/
theorem UnsignedBlock.not_survivesWire_sample :
    (∃ block, UnsignedBlock.ofData (Sample.blockData Sample.identifierTree Sample.given) =
        .ok block ∧ ∀ decoded, UnsignedBlock.ofBytes block.bytes ≠ .ok decoded) ∧
      ∃ block, UnsignedBlock.ofData (Sample.blockData Sample.tree Sample.implied) = .ok block ∧
        ∃ decoded, UnsignedBlock.ofBytes block.bytes = .ok decoded ∧
          decoded.data.canonical ≠ block.data.canonical := by
  obtain ⟨first, hfirst⟩ := exists_eq_ok
    (by decide +kernel :
      (UnsignedBlock.ofData (Sample.blockData Sample.identifierTree Sample.given)).isOk = true)
  obtain ⟨second, hsecond⟩ := exists_eq_ok
    (by decide +kernel :
      (UnsignedBlock.ofData (Sample.blockData Sample.tree Sample.implied)).isOk = true)
  refine ⟨⟨first, hfirst, fun decoded hdecoded => ?_⟩, second, hsecond,
    { second with data := (Sample.blockData Sample.tree Sample.implied).onWire },
    (UnsignedBlock.ofBytes_bytes_eq_ok_iff hsecond).mpr ⟨rfl, ?_⟩, ?_⟩
  · have hkeyed := ((UnsignedBlock.ofBytes_bytes_eq_ok_iff hfirst).mp hdecoded).2 rfl
    exact absurd (hkeyed (Reference.identifier .storage 0x33 rfl) (by decide +kernel)) (by decide)
  · intro _
    simp only [Signer.KeyedLeaves]
    decide +kernel
  · rw [(UnsignedBlock.ofData_eq_ok.mp hsecond).1]
    show (Sample.blockData Sample.tree Sample.implied).onWire.canonical ≠ _
    decide +kernel

end Samples

/-! ## What is signed determines the block -/

section Preimage

variable [Crypto] [LawfulCrypto]

omit [LawfulCrypto] in
theorem buildSigner_injective : Function.Injective (buildSigner : Signer → Asn1.Signer) := by
  intro a
  induction a using Signer.treeInduction with
  | single account =>
    intro b h
    cases b with
    | single other => rw [accountBytes_injective (Asn1.Signer.single.inj h)]
    | multisig address signers => cases h
  | multisig address signers ih =>
    intro b h
    cases b with
    | single other => cases h
    | multisig other others =>
      obtain ⟨haddress, hsigners⟩ := Asn1.Signer.multisig.inj h
      rw [accountBytes_injective haddress]
      congr 1
      rw [buildSigners_eq_map, buildSigners_eq_map] at hsigners
      exact eq_of_map_eq (fun s hs b hb => ih s hs hb) hsigners

omit [LawfulCrypto] in
/-- The signer left out for the account is not any signer that is written. -/
theorem signerToTransport_injective (account : GenericAccount) :
    Function.Injective (signerToTransport account) := by
  intro a b h
  cases a with
  | single a =>
    cases b with
    | single b =>
      simp only [signerToTransport] at h
      -- a signer that is the account itself is left out
      split at h <;> split at h
      · rename_i ha hb
        rw [accountsEqual_eq_true.mp ha, accountsEqual_eq_true.mp hb]
      · cases h
      · cases h
      · rw [accountBytes_injective (Asn1.Signer.single.inj h)]
    | multisig address signers =>
      simp only [signerToTransport] at h
      split at h <;> cases h
  | multisig address signers =>
    cases b with
    | single b =>
      simp only [signerToTransport] at h
      split at h <;> cases h
    | multisig other others => exact buildSigner_injective h

theorem onWire_operations_eq {a b : List Operation} (ha : ∀ operation ∈ a, operation.Discernible)
    (hb : ∀ operation ∈ b, operation.Discernible)
    (h : a.map operationToTransport = b.map operationToTransport) :
    a.map Operation.onWire = b.map Operation.onWire := by
  have hread := mapM_operationFromTransport ha
  rw [h, mapM_operationFromTransport hb] at hread
  exact (Except.ok.inj hread).symm

theorem onWire_eq_of_buildBlockV1 {a b : BlockData} {block : Asn1.BlockV1}
    (ha : a.Transportable) (hb : b.Transportable) (hva : a.version = .v1) (hvb : b.version = .v1)
    (hblock : buildBlockV1 a none = .ok block) (hsame : buildBlockV1 b none = .ok block) :
    a.onWire = b.onWire := by
  have hpurposeA := ha.generic hva
  have hpurposeB := hb.generic hvb
  have hoperations := onWire_operations_eq ha.discernible hb.discernible
  obtain ⟨versionA, purposeA, networkA, subnetA, idempotentA, dateA, accountA, signerA, previousA,
    operationsA⟩ := a
  obtain ⟨versionB, purposeB, networkB, subnetB, idempotentB, dateB, accountB, signerB, previousB,
    operationsB⟩ := b
  simp only at hva hvb hpurposeA hpurposeB hoperations
  subst hva hvb hpurposeA hpurposeB
  cases signerA with
  | multisig address signers => cases hblock
  | single signerA =>
    cases signerB with
    | multisig address signers => cases hsame
    | single signerB =>
      rw [← hsame] at hblock
      simp only [buildBlockV1, signatureToTransport, ok_bind, pure_eq_ok, Except.ok.injEq,
        Asn1.BlockV1.mk.injEq, true_and, and_true] at hblock
      obtain ⟨rfl, hsubnet, rfl, rfl, hsigner, haccount, hprevious, hops⟩ := hblock
      obtain rfl := accountBytes_injective hsigner
      -- the account and the subnet are determined because they are read back
      have hreadAccount := accountFromTransport_toTransport accountA signerA
      rw [haccount, accountFromTransport_toTransport, Except.ok.injEq] at hreadAccount
      have hreadSubnet := congrArg subnetFromTransport hsubnet
      simp only [subnetFromTransport_toTransport] at hreadSubnet
      simp only [BlockData.onWire, hreadAccount, hreadSubnet, Octets.ext_bytes hprevious,
        hoperations hops]

theorem onWire_eq_of_buildBlockV2 {a b : BlockData} {block : Asn1.BlockV2}
    (ha : a.Transportable) (hb : b.Transportable) (hva : a.version = .v2) (hvb : b.version = .v2)
    (hblock : buildBlockV2 a none = .ok block) (hsame : buildBlockV2 b none = .ok block) :
    a.onWire = b.onWire := by
  have hoperations := onWire_operations_eq ha.discernible hb.discernible
  obtain ⟨versionA, purposeA, networkA, subnetA, idempotentA, dateA, accountA, signerA, previousA,
    operationsA⟩ := a
  obtain ⟨versionB, purposeB, networkB, subnetB, idempotentB, dateB, accountB, signerB, previousB,
    operationsB⟩ := b
  simp only at hva hvb hoperations
  subst hva hvb
  rw [← hsame] at hblock
  simp only [buildBlockV2, signaturesToTransport, ok_bind, pure_eq_ok, Except.ok.injEq,
    Asn1.BlockV2.mk.injEq, and_true] at hblock
  obtain ⟨rfl, rfl, rfl, rfl, hpurpose, haccount, hsigner, hprevious, hops⟩ := hblock
  obtain rfl := accountBytes_injective haccount
  have hread := congrArg BlockPurpose.tryFrom hpurpose
  rw [BlockPurpose.tryFrom_toBigint, BlockPurpose.tryFrom_toBigint, Except.ok.injEq] at hread
  simp only [BlockData.onWire, hread, signerToTransport_injective accountA hsigner,
    Octets.ext_bytes hprevious, hoperations hops]

/-- Data with one unsigned transport block have one wire form. -/
theorem onWire_eq_of_buildBlock {a b : BlockData} {block : Asn1.Block}
    (ha : a.Transportable) (hb : b.Transportable) (hblock : buildBlock a none = .ok block)
    (hsame : buildBlock b none = .ok block) : a.onWire = b.onWire := by
  unfold buildBlock at hblock hsame
  -- the versions are told apart by the block, and each has its own fields
  cases hva : a.version with
  | v1 =>
    simp only [hva, bind_eq_ok, pure_eq_ok, Except.ok.injEq] at hblock
    obtain ⟨value, hvalue, rfl⟩ := hblock
    cases hvb : b.version with
    | v1 =>
      simp only [hvb, bind_eq_ok, pure_eq_ok, Except.ok.injEq] at hsame
      obtain ⟨other, hother, heq⟩ := hsame
      cases heq
      exact onWire_eq_of_buildBlockV1 ha hb hva hvb hvalue hother
    | v2 =>
      simp only [hvb, bind_eq_ok, pure_eq_ok, Except.ok.injEq] at hsame
      obtain ⟨other, -, heq⟩ := hsame
      cases heq
  | v2 =>
    simp only [hva, bind_eq_ok, pure_eq_ok, Except.ok.injEq] at hblock
    obtain ⟨value, hvalue, rfl⟩ := hblock
    cases hvb : b.version with
    | v1 =>
      simp only [hvb, bind_eq_ok, pure_eq_ok, Except.ok.injEq] at hsame
      obtain ⟨other, -, heq⟩ := hsame
      cases heq
    | v2 =>
      simp only [hvb, bind_eq_ok, pure_eq_ok, Except.ok.injEq] at hsame
      obtain ⟨other, hother, heq⟩ := hsame
      cases heq
      exact onWire_eq_of_buildBlockV2 ha hb hva hvb hvalue hother

omit [LawfulCrypto] in
/-- Lists of operations with one wire form agree exactly when, place by place, `ACCESS` is
in place in both or in neither. -/
theorem canonical_operations_eq_iff {a b : List Operation}
    (h : a.map Operation.onWire = b.map Operation.onWire) :
    a.map Operation.canonical = b.map Operation.canonical ↔
      ∀ pair ∈ a.zip b, ∀ p ∈ pair.1.permissionSet, ∀ q ∈ pair.2.permissionSet,
        (AccessInPlace p.base.flags ↔ AccessInPlace q.base.flags) := by
  induction a generalizing b with
  | nil => cases b with
    | nil => simp
    | cons operation b => simp at h
  | cons first a ih => cases b with
    | nil => simp at h
    | cons other b =>
      simp only [List.map_cons, List.cons.injEq] at h
      simp only [List.map_cons, List.cons.injEq, List.zip_cons_cons, List.forall_mem_cons,
        ih h.2, Operation.canonical_eq_iff_of_onWire_eq h.1]

end Preimage

section Signed

variable [Crypto] [X509] [LawfulCrypto] [LawfulX509] [Tlv Tag Asn1Error]
  [LawfulTlv Tag Asn1Error] [Chrono] [LawfulChrono]

theorem onWire_eq_of_encodeBlock {a b : BlockData} {hashA hashB : BlockHash}
    (ha : a.validate hashA = .ok ()) (hb : b.validate hashB = .ok ()) {bytes : Bytes}
    (hbytes : encodeBlock a none = .ok bytes) (hsame : encodeBlock b none = .ok bytes) :
    a.onWire = b.onWire := by
  obtain ⟨block, hblock, hdecoded⟩ := encodeBlock_eq_ok hbytes
  obtain ⟨other, hother, hagain⟩ := encodeBlock_eq_ok hsame
  rw [hdecoded, Except.ok.injEq] at hagain
  subst hagain
  exact onWire_eq_of_buildBlock (BlockData.transportable_of_validate ha)
    (BlockData.transportable_of_validate hb) hblock hother

/-- **Two unsigned blocks with one encoding have one wire form, and agree in every field
exactly when `ACCESS` is in place in both or in neither of any two permission sets that
correspond.** -/
theorem agree_iff_of_encodeBlock_eq (a b : BlockData) (blockA blockB : UnsignedBlock)
    (ha : UnsignedBlock.ofData a = .ok blockA) (hb : UnsignedBlock.ofData b = .ok blockB)
    (hsame : encodeBlock a none = encodeBlock b none) :
    a.onWire = b.onWire ∧
      (a.canonical = b.canonical ↔
        ∀ pair ∈ a.operations.zip b.operations,
          ∀ p ∈ pair.1.permissionSet, ∀ q ∈ pair.2.permissionSet,
            (AccessInPlace p.base.flags ↔ AccessInPlace q.base.flags)) := by
  obtain ⟨-, hbytesA, -, hvalidA⟩ := UnsignedBlock.ofData_eq_ok.mp ha
  obtain ⟨-, hbytesB, -, hvalidB⟩ := UnsignedBlock.ofData_eq_ok.mp hb
  rw [hsame, hbytesB, Except.ok.injEq] at hbytesA
  rw [← hsame] at hbytesB
  have hwire := onWire_eq_of_encodeBlock hvalidA hvalidB hbytesB (by rw [← hsame, hbytesB])
  refine ⟨hwire, ?_⟩
  -- all fields but the operations are on the wire as they are
  have hoperations : a.operations.map Operation.onWire = b.operations.map Operation.onWire :=
    congrArg BlockData.operations hwire
  rw [← canonical_operations_eq_iff hoperations]
  obtain ⟨versionA, purposeA, networkA, subnetA, idempotentA, dateA, accountA, signerA, previousA,
    operationsA⟩ := a
  obtain ⟨versionB, purposeB, networkB, subnetB, idempotentB, dateB, accountB, signerB, previousB,
    operationsB⟩ := b
  simp only [BlockData.onWire, BlockData.mk.injEq] at hwire
  obtain ⟨rfl, rfl, rfl, rfl, rfl, rfl, rfl, rfl, rfl, -⟩ := hwire
  simp [BlockData.canonical]

end Signed

section Samples

open scoped Reference Asn1.Reference

/-- Removing a certificate by value and by hash is the same. -/
theorem agree_iff_of_encodeBlock_eq_sample :
    (∃ blockA blockB,
      UnsignedBlock.ofData (Sample.blockData Sample.tree Sample.given) = .ok blockA ∧
      UnsignedBlock.ofData (Sample.blockDataRemoving (.hash Sample.certificate.hash) Sample.tree
        Sample.given) = .ok blockB) ∧
      (Sample.blockData Sample.tree Sample.given).canonical =
        (Sample.blockDataRemoving (.hash Sample.certificate.hash) Sample.tree
          Sample.given).canonical := by
  obtain ⟨blockA, hA⟩ := exists_eq_ok
    (by decide +kernel :
      (UnsignedBlock.ofData (Sample.blockData Sample.tree Sample.given)).isOk = true)
  obtain ⟨blockB, hB⟩ := exists_eq_ok
    (by decide +kernel : (UnsignedBlock.ofData (Sample.blockDataRemoving
      (.hash Sample.certificate.hash) Sample.tree Sample.given)).isOk = true)
  exact ⟨⟨blockA, blockB, hA, hB⟩,
    (agree_iff_of_encodeBlock_eq _ _ blockA blockB hA hB (by decide +kernel)).2.mpr
      (by decide +kernel)⟩

/-- `ACCESS` given and `ACCESS` implied are written alike. -/
theorem encodeBlock_not_injective_sample :
    (∃ blockA blockB,
      UnsignedBlock.ofData (Sample.blockData Sample.tree Sample.given) = .ok blockA ∧
      UnsignedBlock.ofData (Sample.blockData Sample.tree Sample.implied) = .ok blockB) ∧
      encodeBlock (Sample.blockData Sample.tree Sample.given) none =
        encodeBlock (Sample.blockData Sample.tree Sample.implied) none ∧
      (Sample.blockData Sample.tree Sample.given).canonical ≠
        (Sample.blockData Sample.tree Sample.implied).canonical := by
  obtain ⟨blockA, hA⟩ := exists_eq_ok
    (by decide +kernel :
      (UnsignedBlock.ofData (Sample.blockData Sample.tree Sample.given)).isOk = true)
  obtain ⟨blockB, hB⟩ := exists_eq_ok
    (by decide +kernel :
      (UnsignedBlock.ofData (Sample.blockData Sample.tree Sample.implied)).isOk = true)
  exact ⟨⟨blockA, blockB, hA, hB⟩, by decide +kernel, by decide +kernel⟩

end Samples

end KeetaNode
