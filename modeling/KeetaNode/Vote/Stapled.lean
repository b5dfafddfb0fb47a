import KeetaNode.Block.Sealed
import KeetaNode.Vote.Signed
import KeetaNode.Vote.Staple

/-!
# Staples between nodes

What one node builds and another accepts: a staple does not depend on the order in which
its parts arrive, is accepted by its peers, can be rebuilt from what a peer accepted, and
has one uncompressed form.

- `keetanetwork-vote/src/staple.rs`
-/

namespace KeetaNode

open ByteCodec
open Asn1 (Tag Asn1Error Chrono LawfulChrono OidCodec LawfulOidCodec)

/-- The block as it is read back: permissions in the order of their offsets, removals by
the hash of a certificate. -/
def Block.onWire [Crypto] (block : Block) : Block := { block with data := block.data.onWire }

section Staples

variable [Crypto] [Tlv Tag Asn1Error] [Zlib]

namespace VoteStaple

/-! ## Order of arrival -/

/-- **A staple does not depend on the order in which its blocks and votes arrive.** -/
theorem tryNew_perm (blocks blocks' : List Block) (votes votes' : List Vote)
    (config : VoteConfig) (moment : BlockTime) (hblocks : blocks.Perm blocks')
    (hvotes : votes.Perm votes')
    (hinj : ∀ v ∈ votes, ∀ w ∈ votes, v.hash = w.hash → v = w) :
    ((∃ staple, tryNew blocks votes config moment = .ok staple) ↔
        ∃ staple, tryNew blocks' votes' config moment = .ok staple) ∧
      ∀ staple staple', tryNew blocks votes config moment = .ok staple →
        tryNew blocks' votes' config moment = .ok staple' →
        staple.blocks = staple'.blocks ∧ staple.votes = staple'.votes ∧
          staple.canonicalBytes = staple'.canonicalBytes ∧ staple.hash = staple'.hash := by
  -- what a staple is built from enters only up to the order of both lists
  have hsame : ∀ staple, tryNew blocks votes config moment = .ok staple ↔
      tryNew blocks' votes' config moment = .ok staple := by
    intro staple
    have hperm : staple.blocks.Perm blocks ↔ staple.blocks.Perm blocks' :=
      ⟨fun h => h.trans hblocks, fun h => h.trans hblocks.symm⟩
    rw [tryNew_eq_ok, tryNew_eq_ok, hperm, sortVotes_eq_of_perm hvotes hinj]
  refine ⟨exists_congr hsame, ?_⟩
  intro staple staple' h h'
  rw [hsame, h', Except.ok.injEq] at h
  subst h
  exact ⟨rfl, rfl, rfl, rfl⟩

/-! ## The invariant -/

/-- What holds of every staple. -/
structure Invariant (staple : VoteStaple) (config : VoteConfig) (moment : BlockTime) : Prop where
  hasVote : staple.votes ≠ []
  hasBlock : staple.blocks ≠ []
  blocks_eq : ∀ vote ∈ staple.votes, staple.blocks.map Block.hash = vote.decoded.blocks
  distinctIssuers : staple.votes.Pairwise fun v w =>
    v.decoded.issuer.toPublicKeyWithType ≠ w.decoded.issuer.toPublicKeyWithType
  noQuote : ∀ vote ∈ staple.votes, vote.isQuote = false
  active : ∀ vote ∈ staple.votes, vote.decoded.validity.ActiveAt moment config
  samePermanence : ∀ v ∈ staple.votes, ∀ w ∈ staple.votes,
    v.isPermanentAt moment config = w.isPermanentAt moment config
  noFees : ∀ vote ∈ staple.votes, vote.isPermanentAt moment config = true →
    vote.decoded.fees = none
  sorted : staple.votes.Pairwise fun v w => v.hash.bytes ≤ w.hash.bytes

omit [Tlv Tag Asn1Error] [Zlib] in
theorem Sound.invariant {staple : VoteStaple} {config : VoteConfig} {moment : BlockTime}
    (h : staple.Sound config moment) : staple.Invariant config moment := by
  obtain ⟨permanent, hall⟩ := h.endorsed
  exact {
    hasVote := h.votes_ne_nil
    hasBlock := h.blocks_ne_nil
    blocks_eq := fun vote hvote => (hall vote hvote).blocks_eq.symm
    distinctIssuers := List.pairwise_map.mp h.issuers_nodup
    noQuote := fun vote hvote => (hall vote hvote).notQuote
    active := fun vote hvote => Validity.ensureActiveAt_eq_ok.mp (hall vote hvote).active
    samePermanence := fun v hv w hw =>
      (hall v hv).permanent_eq.trans (hall w hw).permanent_eq.symm
    noFees := fun vote hvote hpermanent =>
      (hall vote hvote).noFees ((hall vote hvote).permanent_eq.symm.trans hpermanent)
    sorted := h.sorted }

variable [X509] [OidCodec] [NumBigint] [Chrono]

/-- The ways to come by a staple. -/
inductive Obtained (config : VoteConfig) (moment : BlockTime) : VoteStaple → Prop
  | building {blocks : List Block} {votes : List Vote} {staple : VoteStaple} :
      tryNew blocks votes config moment = .ok staple → Obtained config moment staple
  | verifying {bytes : Bytes} {staple : VoteStaple} :
      verify bytes config moment = .ok staple → Obtained config moment staple

/-- **Every staple satisfies the invariant, however it was obtained.** -/
theorem invariant_of_obtained (config : VoteConfig) (moment : BlockTime) (staple : VoteStaple)
    (h : Obtained config moment staple) : staple.Invariant config moment := by
  cases h with
  | building h => exact (tryNew_eq_ok.mp h).1.invariant
  | verifying h => exact (verify_eq_ok.mp h).2.2.2.invariant

/-! ## One uncompressed form -/

omit [Zlib] in
/-- Blocks and votes keep the bytes they were decoded from. -/
theorem decodeCanonical_eq_ok {bytes : Bytes} {blocks : List Block} {votes : List Vote} :
    decodeCanonical bytes = .ok (blocks, votes) ↔
      Asn1.decodeVoteStaple bytes = .ok ⟨blocks.map Block.bytes, votes.map Vote.serialized⟩ ∧
        (∀ block ∈ blocks, Block.ofBytes block.bytes = .ok block) ∧
        ∀ vote ∈ votes, Vote.verify vote.serialized = .ok vote := by
  have hblocks : ∀ raw block, asVoteBlockError (Block.ofBytes raw) = .ok block →
      block.bytes = raw := by
    intro raw block h
    obtain ⟨-, -, -, -, hbytes⟩ := Block.ofBytes_eq_ok.mp (asVoteBlockError_eq_ok.mp h)
    exact hbytes
  have hvotes : ∀ raw vote, Vote.verify raw = .ok vote → vote.serialized = raw := by
    intro raw vote h
    exact (Vote.fromSerialized_eq_ok.mp (Vote.fromSerialized_of_verify h).1).1
  have hbundle : ∀ bundle, decodeBundle bytes = .ok bundle ↔
      Asn1.decodeVoteStaple bytes = .ok bundle := by
    intro bundle
    unfold decodeBundle
    split <;> simp_all
  simp only [decodeCanonical, bind_eq_ok, hbundle, mapM_eq_ok_iff_of_inverse hblocks,
    mapM_eq_ok_iff_of_inverse hvotes, asVoteBlockError_eq_ok, pure_eq_ok, Except.ok.injEq,
    Prod.mk.injEq]
  constructor
  · rintro ⟨⟨rawBlocks, rawVotes⟩, hdecoded, blocks, ⟨rfl, hblock⟩, votes, ⟨rfl, hvote⟩, rfl, rfl⟩
    exact ⟨hdecoded, hblock, hvote⟩
  · rintro ⟨hdecoded, hblock, hvote⟩
    exact ⟨_, hdecoded, blocks, ⟨rfl, hblock⟩, votes, ⟨rfl, hvote⟩, rfl, rfl⟩

section Canonical

variable [LawfulTlv Tag Asn1Error]

/-- The uncompressed bytes of an accepted staple are those its contents encode to. -/
theorem encodeCanonical_of_verify {bytes : Bytes} {config : VoteConfig} {moment : BlockTime}
    {staple : VoteStaple} (h : verify bytes config moment = .ok staple) :
    encodeCanonical staple.blocks staple.votes = .ok staple.canonicalBytes := by
  obtain ⟨-, -, hdecoded, -⟩ := verify_eq_ok.mp h
  obtain ⟨hbundle, -, -⟩ := decodeCanonical_eq_ok.mp hdecoded
  rw [encodeCanonical, Asn1.encodeVoteStaple_decodeVoteStaple hbundle]
  rfl

/-- **Accepted staples with the same contents have the same uncompressed bytes and hash,
whatever bytes they came in.** -/
theorem canonical_of_verify (bytes bytes' : Bytes) (config config' : VoteConfig)
    (moment moment' : BlockTime) (staple staple' : VoteStaple)
    (h : verify bytes config moment = .ok staple)
    (h' : verify bytes' config' moment' = .ok staple') :
    encodeCanonical staple.blocks staple.votes = .ok staple.canonicalBytes ∧
      (staple.blocks.map Block.bytes = staple'.blocks.map Block.bytes →
        staple.votes.map Vote.serialized = staple'.votes.map Vote.serialized →
        staple.canonicalBytes = staple'.canonicalBytes ∧ staple.hash = staple'.hash) := by
  have hencoded := encodeCanonical_of_verify h
  refine ⟨hencoded, ?_⟩
  intro hblocks hvotes
  have hsame : staple.canonicalBytes = staple'.canonicalBytes := by
    have hencoded' := encodeCanonical_of_verify h'
    rw [encodeCanonical, ← hblocks, ← hvotes] at hencoded'
    exact Except.ok.inj (hencoded.symm.trans hencoded')
  exact ⟨hsame, congrArg hashDefault hsame⟩

end Canonical

/-! ## Peers accept what a node staples -/

section Accepted

variable [LawfulTlv Tag Asn1Error] [LawfulCrypto] [LawfulX509] [LawfulChrono] [LawfulZlib]
  {config : VoteConfig} {moment : BlockTime} {staple : VoteStaple}

/-- A sound staple is accepted from its compressed bytes. -/
theorem verify_deflated (hsound : staple.Sound config moment)
    (hblocks : ∀ block ∈ staple.blocks, ∃ unsigned, block.Checked unsigned)
    (hvotes : ∀ vote ∈ staple.votes, Vote.verify vote.serialized = .ok vote)
    (hcanonical : encodeCanonical staple.blocks staple.votes = .ok staple.canonicalBytes)
    (hdeflate : deflate staple.canonicalBytes = .ok staple.compressedBytes) :
    verify staple.compressedBytes config moment =
      .ok { staple with blocks := staple.blocks.map Block.onWire } := by
  have hhashes : (staple.blocks.map Block.onWire).map Block.hash =
      staple.blocks.map Block.hash := by
    rw [List.map_map]
    rfl
  have hbytes : (staple.blocks.map Block.onWire).map Block.bytes =
      staple.blocks.map Block.bytes := by
    rw [List.map_map]
    rfl
  have hinflate : inflate staple.compressedBytes = .ok staple.canonicalBytes := by
    rw [deflate, Except.ok.injEq] at hdeflate
    simp only [inflate, ← hdeflate, LawfulZlib.decompress_compress, Option.elim_some]
  -- a block goes through its bytes, which keep its hash, and a vote stays as it is
  refine verify_eq_ok.mpr ⟨rfl, hinflate, decodeCanonical_eq_ok.mpr ⟨?_, ?_, hvotes⟩, ?_⟩
  · rw [hbytes]
    exact Asn1.decodeVoteStaple_encodeVoteStaple (asVoteAsn1Error_eq_ok.mp hcanonical)
  · intro block hblock
    obtain ⟨given, hgiven, rfl⟩ := List.mem_map.mp hblock
    obtain ⟨unsigned, hchecked⟩ := hblocks given hgiven
    exact hchecked.ofBytes
  · refine ⟨hsound.votes_ne_nil, ?_, hsound.issuers_nodup, ?_, hsound.sorted⟩
    · intro hnil
      exact hsound.blocks_ne_nil (List.map_eq_nil_iff.mp hnil)
    · rw [hhashes]
      exact hsound.endorsed

/-- **A staple that a node builds is accepted by its peers, with the same contents, bytes and
hash.** -/
theorem verify_of_tryNew (blocks : List Block) (votes : List Vote) (config : VoteConfig)
    (moment : BlockTime) (staple : VoteStaple) (hblocks : ∀ block ∈ blocks, block.Obtained)
    (hvotes : ∀ vote ∈ votes, ∃ bytes, Vote.verify bytes = .ok vote)
    (h : tryNew blocks votes config moment = .ok staple) :
    ∃ accepted, verify staple.compressedBytes config moment = .ok accepted ∧
      accepted.blocks = staple.blocks.map Block.onWire ∧
      accepted.blocks.map Block.bytes = staple.blocks.map Block.bytes ∧
      accepted.blocks.map Block.hash = staple.blocks.map Block.hash ∧
      accepted.blocks.map Block.signatures = staple.blocks.map Block.signatures ∧
      accepted.votes = staple.votes ∧
      accepted.canonicalBytes = staple.canonicalBytes ∧ accepted.hash = staple.hash := by
  obtain ⟨hsound, -, hperm, hsorted, hcanonical, hdeflate⟩ := tryNew_eq_ok.mp h
  refine ⟨{ staple with blocks := staple.blocks.map Block.onWire },
    verify_deflated hsound ?_ ?_ hcanonical hdeflate, rfl, ?_, ?_, ?_, rfl, rfl, rfl⟩
  · intro block hblock
    exact (hblocks block (hperm.mem_iff.mp hblock)).checked
  · intro vote hvote
    rw [hsorted, (sortVotes_perm votes).mem_iff] at hvote
    obtain ⟨bytes, hverified⟩ := hvotes vote hvote
    -- the bytes that were verified are those that the vote keeps
    obtain ⟨rfl, -⟩ := Vote.fromSerialized_eq_ok.mp (Vote.fromSerialized_of_verify hverified).1
    exact hverified
  · rw [List.map_map]
    rfl
  · rw [List.map_map]
    rfl
  · rw [List.map_map]
    rfl

end Accepted

/-! ## Nodes rebuild what a peer accepts -/

/-- Building a staple again from the contents of an accepted one gives the same staple. -/
def Rebuilds (staple : VoteStaple) (config : VoteConfig) (moment : BlockTime) : Prop :=
  ∃ rebuilt, tryNew staple.blocks staple.votes config moment = .ok rebuilt ∧
    rebuilt.canonicalBytes = staple.canonicalBytes ∧ rebuilt.hash = staple.hash

/-- No two blocks of the bundle have the same hash. -/
def DistinctBlocks (bytes : Bytes) : Prop :=
  ∃ canonicalBytes bundle blocks, inflate bytes = .ok canonicalBytes ∧
    Asn1.decodeVoteStaple canonicalBytes = .ok bundle ∧
    bundle.blocks.mapM Block.ofBytes = .ok blocks ∧ (blocks.map Block.hash).Nodup

/-- **An accepted staple can be rebuilt exactly when its blocks are distinct.** -/
theorem rebuilds_iff_distinctBlocks [LawfulTlv Tag Asn1Error] (bytes : Bytes)
    (config : VoteConfig) (moment : BlockTime) (staple : VoteStaple)
    (h : verify bytes config moment = .ok staple) :
    staple.Rebuilds config moment ↔ DistinctBlocks bytes := by
  obtain ⟨-, hinflate, hdecoded, hsound⟩ := verify_eq_ok.mp h
  obtain ⟨hbundle, hblocks, -⟩ := decodeCanonical_eq_ok.mp hdecoded
  have hencoded := encodeCanonical_of_verify h
  have hread : (staple.blocks.map Block.bytes).mapM Block.ofBytes = .ok staple.blocks := by
    have := mapM_map_eq_ok (h := id) hblocks
    rwa [List.map_id] at this
  constructor
  · rintro ⟨rebuilt, hrebuilt, -, -⟩
    obtain ⟨-, hnodup, hperm, -⟩ := tryNew_eq_ok.mp hrebuilt
    exact ⟨_, _, _, hinflate, hbundle, hread, (hperm.map _).nodup_iff.mp hnodup⟩
  · rintro ⟨canonicalBytes, bundle, blocks, hinflate', hbundle', hread', hnodup⟩
    rw [hinflate, Except.ok.injEq] at hinflate'
    subst hinflate'
    rw [hbundle, Except.ok.injEq] at hbundle'
    subst hbundle'
    rw [hread, Except.ok.injEq] at hread'
    subst hread'
    -- the contents are the same, but the peer may have compressed them in another way
    refine ⟨{ staple with
      compressedBytes := Zlib.compressToVecZlib staple.canonicalBytes zlibDefaultLevel },
      ?_, rfl, rfl⟩
    exact tryNew_eq_ok.mpr ⟨⟨hsound.votes_ne_nil, hsound.blocks_ne_nil, hsound.issuers_nodup,
      hsound.endorsed, hsound.sorted⟩, hnodup, .refl _, (sortVotes_of_sorted hsound.sorted).symm,
      hencoded, rfl⟩

end VoteStaple

end Staples

/-! ## Samples -/

namespace Reference

/-- The two sums of `adler32`. -/
def adlerSums (bytes : Bytes) : Nat × Nat :=
  bytes.foldl
    (fun (a, b) octet => ((a + octet.toNat) % 65521, (b + a + octet.toNat) % 65521)) (1, 0)

def adler32 (bytes : Bytes) : Bytes :=
  octets 2 (adlerSums bytes).2 ++ octets 2 (adlerSums bytes).1

/-- A stream of stored blocks with one octet each. -/
def storedStream (bytes : Bytes) : Bytes :=
  [0x78, 0x01] ++ bytes.flatMap (fun octet => [0x00, 0x01, 0x00, 0xFE, 0xFF, octet]) ++
    [0x01, 0x00, 0x00, 0xFF, 0xFF] ++ adler32 bytes

/-- The octets of such blocks, and what follows the last of them. -/
def storedBlocks : Bytes → Option (Bytes × Bytes)
  | 0x00 :: 0x01 :: 0x00 :: 0xFE :: 0xFF :: octet :: rest =>
    (storedBlocks rest).map fun (octets, rest) => (octet :: octets, rest)
  | 0x01 :: 0x00 :: 0x00 :: 0xFF :: 0xFF :: rest => some ([], rest)
  | _ => none

def readStream : Bytes → Option Bytes
  | 0x78 :: 0x01 :: rest => do
    let (bytes, checksum) ← storedBlocks rest
    if checksum = adler32 bytes then some bytes else none
  | _ => none

theorem storedBlocks_flatMap (bytes rest : Bytes) :
    storedBlocks (bytes.flatMap (fun octet => [0x00, 0x01, 0x00, 0xFE, 0xFF, octet]) ++
      ([0x01, 0x00, 0x00, 0xFF, 0xFF] ++ rest)) = some (bytes, rest) := by
  induction bytes with
  | nil => rfl
  | cons octet bytes ih => simp_all [storedBlocks]

/-- Streams that need no compression, for the samples only. -/
scoped instance zlib : Zlib where
  compressToVecZlib bytes _ := storedStream bytes
  decompressToVecZlib := readStream

scoped instance lawfulZlib : LawfulZlib where
  decompress_compress bytes level := by
    have hstream : storedStream bytes = 0x78 :: 0x01 ::
        (bytes.flatMap (fun octet => [0x00, 0x01, 0x00, 0xFE, 0xFF, octet]) ++
          ([0x01, 0x00, 0x00, 0xFF, 0xFF] ++ adler32 bytes)) := by
      simp [storedStream]
    show readStream (storedStream bytes) = some bytes
    rw [hstream, readStream, storedBlocks_flatMap]
    simp

end Reference

section Samples

open scoped Reference Asn1.Reference
open Sample Reference

/-- The sample block and a vote of alice and of bob for it can be stapled. -/
theorem Sample.exists_staple :
    ∃ block v w staple, block.Obtained ∧ Vote.verify v.serialized = .ok v ∧
      Vote.verify w.serialized = .ok w ∧ v.hash ≠ w.hash ∧
      VoteStaple.tryNew [block] [v, w] .default Asn1.Sample.date = .ok staple := by
  obtain ⟨staple, h⟩ := exists_eq_ok (by decide +kernel : (do
    let unsigned ← asVoteBlockError Sample.unsigned
    let block ← asVoteBlockError (unsigned.sealWith Sample.signatures)
    let v ← Sample.vote alice [blockHash] none
    let w ← Sample.vote bob [blockHash] none
    v.verifySignature
    w.verifySignature
    rejectIf (v.hash = w.hash) .stapleInvalidConstruction
    VoteStaple.tryNew [block] [v, w] .default Asn1.Sample.date).isOk = true)
  simp only [bind_eq_ok, asVoteBlockError_eq_ok, rejectIf_eq_ok] at h
  obtain ⟨unsigned, -, block, hblock, v, hv, w, hw, ⟨⟩, hv', ⟨⟩, hw', -, hne, hstaple⟩ := h
  exact ⟨block, v, w, staple, .sealing hblock, Vote.verify_of_sign hv (by decide +kernel) rfl hv',
    Vote.verify_of_sign hw (by decide +kernel) rfl hw', hne, hstaple⟩

namespace VoteStaple

theorem tryNew_perm_sample :
    ∃ block v w staple staple',
      tryNew [block] [v, w] .default Asn1.Sample.date = .ok staple ∧
      tryNew [block] [w, v] .default Asn1.Sample.date = .ok staple' ∧
      staple.votes = staple'.votes ∧ staple.hash = staple'.hash := by
  obtain ⟨block, v, w, staple, -, -, -, hne, hstaple⟩ := Sample.exists_staple
  have hinj : ∀ a ∈ [v, w], ∀ b ∈ [v, w], a.hash = b.hash → a = b := by
    intro a ha b hb h
    rcases List.mem_pair.mp ha with rfl | rfl <;> rcases List.mem_pair.mp hb with rfl | rfl
    · rfl
    · exact absurd h hne
    · exact absurd h.symm hne
    · rfl
  obtain ⟨hiff, hsame⟩ := tryNew_perm [block] [block] [v, w] [w, v] .default Asn1.Sample.date
    (.refl _) (.swap w v []) hinj
  obtain ⟨staple', hstaple'⟩ := hiff.mp ⟨staple, hstaple⟩
  obtain ⟨-, hvotes, -, hhash⟩ := hsame staple staple' hstaple hstaple'
  exact ⟨block, v, w, staple, staple', hstaple, hstaple', hvotes, hhash⟩

theorem invariant_of_obtained_sample :
    ∃ block v w staple, tryNew [block] [v, w] .default Asn1.Sample.date = .ok staple ∧
      staple.Invariant .default Asn1.Sample.date := by
  obtain ⟨block, v, w, staple, -, -, -, -, hstaple⟩ := Sample.exists_staple
  exact ⟨block, v, w, staple, hstaple, invariant_of_obtained _ _ staple (.building hstaple)⟩

theorem verify_of_tryNew_sample :
    ∃ block v w staple, tryNew [block] [v, w] .default Asn1.Sample.date = .ok staple ∧
      ∃ accepted, verify staple.compressedBytes .default Asn1.Sample.date = .ok accepted ∧
        accepted.votes = staple.votes ∧ accepted.hash = staple.hash := by
  obtain ⟨block, v, w, staple, hblock, hv, hw, -, hstaple⟩ := Sample.exists_staple
  obtain ⟨accepted, haccepted, -, -, -, -, hvotes, -, hhash⟩ :=
    verify_of_tryNew [block] [v, w] .default Asn1.Sample.date staple
      (by simpa using hblock) (by
        intro vote hvote
        rcases List.mem_pair.mp hvote with rfl | rfl
        · exact ⟨_, hv⟩
        · exact ⟨_, hw⟩) hstaple
  exact ⟨block, v, w, staple, hstaple, accepted, haccepted, hvotes, hhash⟩

/-- The sample staple is accepted. -/
theorem exists_accepted :
    ∃ bytes staple, verify bytes .default Asn1.Sample.date = .ok staple := by
  obtain ⟨block, v, w, staple, hblock, hv, hw, -, hstaple⟩ := Sample.exists_staple
  obtain ⟨hsound, -, hperm, hsorted, hcanonical, hdeflate⟩ := tryNew_eq_ok.mp hstaple
  refine ⟨_, _, verify_deflated hsound ?_ ?_ hcanonical hdeflate⟩
  · intro found hfound
    rw [List.mem_singleton.mp (hperm.mem_iff.mp hfound)]
    exact hblock.checked
  · intro vote hvote
    rw [hsorted, (sortVotes_perm _).mem_iff] at hvote
    rcases List.mem_pair.mp hvote with rfl | rfl
    · exact hv
    · exact hw

theorem canonical_of_verify_sample :
    ∃ bytes staple, verify bytes .default Asn1.Sample.date = .ok staple ∧
      encodeCanonical staple.blocks staple.votes = .ok staple.canonicalBytes := by
  obtain ⟨bytes, staple, h⟩ := exists_accepted
  exact ⟨bytes, staple, h,
    (canonical_of_verify bytes bytes _ _ _ _ staple staple h h).1⟩

theorem rebuilds_iff_distinctBlocks_sample :
    ∃ bytes staple, verify bytes .default Asn1.Sample.date = .ok staple ∧
      (staple.Rebuilds .default Asn1.Sample.date ↔ DistinctBlocks bytes) := by
  obtain ⟨bytes, staple, h⟩ := exists_accepted
  exact ⟨bytes, staple, h, rebuilds_iff_distinctBlocks bytes _ _ staple h⟩

/-- A staple whose vote lists one block twice, and which holds the block twice, is accepted
and cannot be rebuilt. -/
theorem not_rebuilds_repeatedBlock :
    ∃ bytes staple, verify bytes .default Asn1.Sample.date = .ok staple ∧
      ¬ staple.Rebuilds .default Asn1.Sample.date := by
  obtain ⟨canonical, h⟩ := exists_eq_ok (by decide +kernel : (do
    let unsigned ← asVoteBlockError Sample.unsigned
    let block ← asVoteBlockError (unsigned.sealWith Sample.signatures)
    let v ← Sample.vote alice [blockHash, blockHash] none
    v.verifySignature
    validateVoteInvariants [v] .default Asn1.Sample.date
    assertBlockOrder [block, block] v.decoded.blocks
    encodeCanonical [block, block] [v]).isOk = true)
  simp only [bind_eq_ok, asVoteBlockError_eq_ok] at h
  obtain ⟨unsigned, -, block, hblock, v, hv, ⟨⟩, hsignature, ⟨⟩, hinvariants, ⟨⟩, horder,
    hcanonical⟩ := h
  obtain ⟨-, hissuers, expected, permanent, hall⟩ := validateVoteInvariants_eq_ok.mp hinvariants
  have hblocks : [block, block].map Block.hash = expected :=
    (assertHashesMatch_eq_ok.mp horder).trans (hall v (List.mem_singleton_self v)).blocks_eq
  let staple : VoteStaple := {
    blocks := [block, block]
    votes := [v]
    compressedBytes := storedStream canonical
    canonicalBytes := canonical }
  have hsound : staple.Sound .default Asn1.Sample.date :=
    ⟨by simp [staple], by simp [staple], hissuers, ⟨permanent, hblocks ▸ hall⟩, by simp [staple]⟩
  refine ⟨staple.compressedBytes, _, verify_deflated hsound ?_ ?_ hcanonical rfl, ?_⟩
  · intro found hfound
    obtain rfl : found = block := by simpa [staple] using hfound
    exact (Block.Obtained.sealing hblock).checked
  · intro vote hvote
    obtain rfl : vote = v := by simpa [staple] using hvote
    exact Vote.verify_of_sign hv (by decide +kernel) rfl hsignature
  · rintro ⟨rebuilt, hrebuilt, -⟩
    obtain ⟨-, hnodup, hperm, -⟩ := tryNew_eq_ok.mp hrebuilt
    have hrepeated := (hperm.map Block.hash).nodup_iff.mp hnodup
    simp [staple] at hrepeated

end VoteStaple

end Samples

end KeetaNode
