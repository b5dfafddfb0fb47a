import KeetaNode.Block.Sealing
import KeetaNode.Lib.Arrange
import KeetaNode.Vote.Certificate

/-!
# Vote staples

A staple bundles blocks with the votes that endorse them: its construction, which puts
the blocks in the order of the votes' block list and the votes in the order of their
hashes, and its verification from compressed bytes, which requires these orders.

- `keetanetwork-vote/src/staple.rs`

Compression is the `miniz_oxide` crate's and stays a parameter.

## Main results

- `validateVoteInvariants_eq_ok`: the checks against the first vote say the same of
  every vote
- `VoteStaple.tryNew_perm`: the order in which blocks and votes arrive does not matter
- `VoteStaple.sound_of_obtained`: what holds of every staple
-/

namespace KeetaNode

open ByteCodec
open Asn1 (Tag Asn1Error Chrono OidCodec)

/-- The zlib streams of `miniz_oxide`. -/
class Zlib where
  /-- `compress_to_vec_zlib`. -/
  compressToVecZlib : Bytes → (level : UInt8) → Bytes
  /-- `decompress_to_vec_zlib`. -/
  decompressToVecZlib : Bytes → Option Bytes

/-- A compressed stream is inflated to what was compressed. -/
class LawfulZlib [Zlib] : Prop where
  decompress_compress : ∀ bytes level,
    Zlib.decompressToVecZlib (Zlib.compressToVecZlib bytes level) = some bytes

def zlibDefaultLevel : UInt8 := 6

def deflate [Zlib] (input : Bytes) : Except VoteError Bytes :=
  .ok (Zlib.compressToVecZlib input zlibDefaultLevel)

def inflate [Zlib] (input : Bytes) : Except VoteError Bytes :=
  (Zlib.decompressToVecZlib input).elim (.error .malformedStaple) .ok

/-- A failed block call as an error of the vote crate. -/
def asVoteBlockError {α : Type} : Except BlockError α → Except VoteError α
  | .ok a => .ok a
  | .error e => .error (.block e)

@[simp] theorem asVoteBlockError_eq_ok {α : Type} {x : Except BlockError α} {a : α} :
    asVoteBlockError x = .ok a ↔ x = .ok a := by
  cases x <;> simp [asVoteBlockError]

def stapleDecodeError : Asn1Error → VoteError
  | .voteStapleDecode .blocks => .malformedStapleElement .blocks
  | .voteStapleDecode .votes => .malformedStapleElement .votes
  | _ => .malformedStaple

variable [Crypto]

/-- A bundle of blocks and the votes endorsing them. -/
structure VoteStaple where
  blocks : List Block
  votes : List Vote
  /-- The deflated wire bytes. -/
  compressedBytes : Bytes
  /-- The uncompressed bytes, used for hashing. -/
  canonicalBytes : Bytes
  deriving DecidableEq

/-- The digest of the uncompressed bytes (`VoteStapleHash::of`). -/
def VoteStaple.hash (staple : VoteStaple) : Octets 32 := hashDefault staple.canonicalBytes

/-! ## Validation -/

/-- Two sequences of hashes are the same in count and order. -/
def assertHashesMatch (actual expected : List BlockHash) : Except VoteError Unit := do
  rejectIf (actual.length ≠ expected.length) .stapleBlockCountMismatch
  rejectIf (∃ pair ∈ actual.zip expected, pair.1 ≠ pair.2) .stapleBlockOrderMismatch

def assertBlockHashesMatch (actual expected : List BlockHash) : Except VoteError Unit :=
  assertHashesMatch actual expected

def assertBlockOrder (blocks : List Block) (expected : List BlockHash) : Except VoteError Unit :=
  assertHashesMatch (blocks.map Block.hash) expected

def validateVoteAgainstRepresentative (vote : Vote) (expectedBlocks : List BlockHash)
    (representativePermanent : Bool) (config : VoteConfig) (moment : BlockTime) :
    Except VoteError Unit := do
  rejectIf (vote.isQuote = true) .malformedFeesQuoteInvalid
  vote.decoded.validity.ensureActiveAt moment config
  assertBlockHashesMatch vote.decoded.blocks expectedBlocks
  let votePermanent := vote.isPermanentAt moment config
  rejectIf (votePermanent ≠ representativePermanent) .staplePermanenceMismatch
  -- permanent votes may not carry fees
  rejectIf (votePermanent = true ∧ vote.decoded.fees.isSome = true) .malformedFeesInPermanentVote

/-- An issuer that has not voted before. -/
def checkIssuer (seenIssuers : List Bytes) (vote : Vote) : Except VoteError (List Bytes) := do
  let issuerBytes := vote.decoded.issuer.toPublicKeyWithType
  rejectIf (issuerBytes ∈ seenIssuers) .stapleDuplicateIssuer
  return seenIssuers ++ [issuerBytes]

def validateVoteInvariants (votes : List Vote) (config : VoteConfig) (moment : BlockTime) :
    Except VoteError Unit := do
  let representative ← votes.head?.elim (throw .stapleVotesAtLeastOne) pure
  let expectedBlocks := representative.decoded.blocks
  let representativePermanent := representative.isPermanentAt moment config
  let _ ← votes.foldlM (fun seenIssuers vote => do
    validateVoteAgainstRepresentative vote expectedBlocks representativePermanent config moment
    checkIssuer seenIssuers vote) []
  return ()

/-! ## Canonical order -/

def reorderBlocksToMatch (blocks : List Block) (expected : List BlockHash) :
    Except VoteError (List Block) :=
  arrange Block.hash .stapleMissingBlock expected blocks

/-- `compare_votes_by_hash`: hashes are compared octet by octet. -/
def precedesByHash (a b : Vote) : Prop := a.hash.bytes ≤ b.hash.bytes

instance decidablePrecedesByHash : DecidableRel (precedesByHash : Vote → Vote → Prop) :=
  fun a b => inferInstanceAs (Decidable (a.hash.bytes ≤ b.hash.bytes))

/-- `sort_by`, which is stable. -/
def sortVotes (votes : List Vote) : List Vote := votes.insertionSort precedesByHash

/-- One round of `assert_vote_order`; `prev` is the hash of the vote before. -/
def checkVoteOrder (prev : Option (Octets 32)) (vote : Vote) :
    Except VoteError (Option (Octets 32)) := do
  let current := vote.hash
  rejectIf (∃ previous ∈ prev, current.bytes < previous.bytes) .stapleInvalidConstruction
  return some current

def assertVoteOrder (votes : List Vote) : Except VoteError Unit := do
  let _ ← votes.foldlM checkVoteOrder none
  return ()

/-! ## What the checks say -/

omit [Crypto] in
theorem assertHashesMatch_eq_ok {actual expected : List BlockHash} {u : Unit} :
    assertHashesMatch actual expected = .ok u ↔ actual = expected := by
  simp only [assertHashesMatch, rejectIf_bind_eq_ok, rejectIf_eq_ok, not_not]
  constructor
  · rintro ⟨hlength, hpairs⟩
    rw [← List.forall₂_eq_eq_eq, List.forall₂_iff_zip]
    refine ⟨hlength, ?_⟩
    intro a b hmem
    by_contra hne
    exact hpairs ⟨(a, b), hmem, hne⟩
  · rintro rfl
    refine ⟨rfl, ?_⟩
    rintro ⟨pair, hmem, hne⟩
    have hsame : List.Forall₂ (· = ·) actual actual := List.forall₂_same.mpr fun _ _ => rfl
    exact hne ((List.forall₂_iff_zip.mp hsame).2 hmem)

/-- The typed key of a vote's issuer. -/
def Vote.issuerBytes (vote : Vote) : Bytes := vote.decoded.issuer.toPublicKeyWithType

/-- A vote that a staple over these blocks can hold. -/
structure Vote.Endorses (vote : Vote) (blocks : List BlockHash) (permanent : Bool)
    (config : VoteConfig) (moment : BlockTime) : Prop where
  notQuote : vote.isQuote = false
  active : vote.decoded.validity.ensureActiveAt moment config = .ok ()
  blocks_eq : vote.decoded.blocks = blocks
  permanent_eq : vote.isPermanentAt moment config = permanent
  noFees : permanent = true → vote.decoded.fees = none

section Checks

variable {vote : Vote} {votes : List Vote} {expected : List BlockHash} {permanent : Bool}
  {config : VoteConfig} {moment : BlockTime}

theorem validateVoteAgainstRepresentative_eq_ok {u : Unit} :
    validateVoteAgainstRepresentative vote expected permanent config moment = .ok u ↔
      vote.Endorses expected permanent config moment := by
  simp only [validateVoteAgainstRepresentative, assertBlockHashesMatch, bind_eq_ok,
    assertHashesMatch_eq_ok, rejectIf_eq_ok, not_not, Bool.not_eq_true, not_and,
    Option.isSome_eq_false_iff, Option.isNone_iff_eq_none]
  constructor
  · rintro ⟨_, hquote, ⟨⟩, hactive, _, hblocks, _, hpermanent, hfees⟩
    exact ⟨hquote, hactive, hblocks, hpermanent, fun h => hfees (hpermanent.trans h)⟩
  · rintro ⟨hquote, hactive, hblocks, hpermanent, hfees⟩
    exact ⟨(), hquote, (), hactive, (), hblocks, (), hpermanent,
      fun h => hfees (hpermanent.symm.trans h)⟩

theorem checkIssuer_eq_ok {seen seen' : List Bytes} :
    checkIssuer seen vote = .ok seen' ↔
      vote.issuerBytes ∉ seen ∧ seen' = seen ++ [vote.issuerBytes] := by
  simp only [checkIssuer, rejectIf_bind_eq_ok, pure_eq_ok, Except.ok.injEq]
  rw [eq_comm (a := seen')]
  rfl

/-- The loop over the votes: every vote endorses the blocks, and no issuer is seen twice. -/
theorem foldlM_votes_eq_ok (votes : List Vote) (expected : List BlockHash) (permanent : Bool)
    (config : VoteConfig) (moment : BlockTime) {seen : List Bytes} (hseen : seen.Nodup) :
    (∃ seen', votes.foldlM (fun seenIssuers vote => do
        validateVoteAgainstRepresentative vote expected permanent config moment
        checkIssuer seenIssuers vote) seen = .ok seen') ↔
      (∀ vote ∈ votes, vote.Endorses expected permanent config moment) ∧
        (seen ++ votes.map Vote.issuerBytes).Nodup := by
  induction votes generalizing seen with
  | nil => simp [hseen]
  | cons vote votes ih =>
    simp only [foldlM_cons_eq_ok, bind_eq_ok, validateVoteAgainstRepresentative_eq_ok,
      checkIssuer_eq_ok, List.forall_mem_cons, List.map_cons]
    constructor
    · rintro ⟨seen', mid, ⟨_, hendorses, hnew, rfl⟩, hrest⟩
      -- the issuers seen so far stay distinct with the new one
      have hmid : (seen ++ [vote.issuerBytes]).Nodup :=
        hseen.append (List.nodup_singleton _) (by simpa using hnew)
      obtain ⟨hall, hnodup⟩ := (ih hmid).mp ⟨seen', hrest⟩
      exact ⟨⟨hendorses, hall⟩, by simpa using hnodup⟩
    · rintro ⟨⟨hendorses, hall⟩, hnodup⟩
      have hsplit : (seen ++ [vote.issuerBytes] ++ votes.map Vote.issuerBytes).Nodup := by
        simpa using hnodup
      have hmid := (List.nodup_append.mp hsplit).1
      obtain ⟨seen', hrest⟩ := (ih hmid).mpr ⟨hall, hsplit⟩
      have hnew : vote.issuerBytes ∉ seen := by
        intro hmem
        exact (List.nodup_append.mp hmid).2.2 _ hmem _ (List.mem_singleton_self _) rfl
      exact ⟨seen', _, ⟨(), hendorses, hnew, rfl⟩, hrest⟩

/-- **The checks against the first vote say the same of every vote.** -/
theorem validateVoteInvariants_eq_ok {u : Unit} :
    validateVoteInvariants votes config moment = .ok u ↔
      votes ≠ [] ∧ (votes.map Vote.issuerBytes).Nodup ∧
        ∃ expected permanent, ∀ vote ∈ votes, vote.Endorses expected permanent config moment := by
  cases votes with
  | nil => simp [validateVoteInvariants]
  | cons representative rest =>
    have hloop := foldlM_votes_eq_ok (representative :: rest) representative.decoded.blocks
      (representative.isPermanentAt moment config) config moment List.nodup_nil
    simp only [validateVoteInvariants, List.head?_cons, Option.elim_some, pure_eq_ok, ok_bind,
      bind_eq_ok, exists_and_right, hloop, List.nil_append]
    constructor
    · rintro ⟨⟨hall, hnodup⟩, -⟩
      exact ⟨List.cons_ne_nil _ _, hnodup, _, _, hall⟩
    · rintro ⟨-, hnodup, expected, permanent, hall⟩
      have hfirst := hall representative List.mem_cons_self
      rw [← hfirst.blocks_eq, ← hfirst.permanent_eq] at hall
      exact ⟨⟨hall, hnodup⟩, trivial⟩

end Checks

/-! ### Order of votes -/

instance transPrecedesByHash : IsTrans Vote precedesByHash where
  trans _ _ _ h h' := List.le_trans h h'

instance totalPrecedesByHash : Std.Total (precedesByHash : Vote → Vote → Prop) where
  total _ _ := List.le_total _ _

theorem foldlM_checkVoteOrder_eq_ok {votes : List Vote} {previous : Octets 32} :
    (∃ last, votes.foldlM checkVoteOrder (some previous) = .ok last) ↔
      (∀ vote ∈ votes, previous.bytes ≤ vote.hash.bytes) ∧ votes.Pairwise precedesByHash := by
  induction votes generalizing previous with
  | nil => simp
  | cons vote votes ih =>
    have hstep : ∀ mid, checkVoteOrder (some previous) vote = .ok mid ↔
        previous.bytes ≤ vote.hash.bytes ∧ mid = some vote.hash := by
      intro mid
      simp only [checkVoteOrder, Option.mem_some_iff, exists_eq_left', rejectIf_bind_eq_ok,
        List.not_lt, pure_eq_ok, Except.ok.injEq, eq_comm (a := mid)]
    simp only [foldlM_cons_eq_ok, hstep, List.forall_mem_cons, List.pairwise_cons]
    constructor
    · rintro ⟨last, mid, ⟨hle, rfl⟩, hrest⟩
      obtain ⟨hall, hsorted⟩ := ih.mp ⟨last, hrest⟩
      exact ⟨⟨hle, fun later hlater => List.le_trans hle (hall later hlater)⟩, hall, hsorted⟩
    · rintro ⟨⟨hle, -⟩, hall, hsorted⟩
      obtain ⟨last, hrest⟩ := ih.mpr ⟨hall, hsorted⟩
      exact ⟨last, some vote.hash, ⟨hle, rfl⟩, hrest⟩

/-- Comparing neighbours compares all votes. -/
theorem assertVoteOrder_eq_ok {votes : List Vote} {u : Unit} :
    assertVoteOrder votes = .ok u ↔ votes.Pairwise precedesByHash := by
  cases votes with
  | nil => simp [assertVoteOrder]
  | cons vote votes =>
    have hfirst : checkVoteOrder none vote = .ok (some vote.hash) := by
      simp [checkVoteOrder, rejectIf_neg]
    simp only [assertVoteOrder, List.foldlM_cons, hfirst, ok_bind, bind_eq_ok, pure_eq_ok,
      foldlM_checkVoteOrder_eq_ok, List.pairwise_cons, and_true]
    rfl

theorem sortVotes_sorted (votes : List Vote) : (sortVotes votes).Pairwise precedesByHash :=
  List.pairwise_insertionSort precedesByHash votes

theorem sortVotes_perm (votes : List Vote) : (sortVotes votes).Perm votes :=
  List.perm_insertionSort precedesByHash votes

theorem sortVotes_of_sorted {votes : List Vote} (h : votes.Pairwise precedesByHash) :
    sortVotes votes = votes :=
  h.insertionSort_eq

/-- Where hashes tell votes apart, sorting forgets the order they came in. -/
theorem sortVotes_eq_of_perm {votes votes' : List Vote} (hperm : votes.Perm votes')
    (hinj : ∀ v ∈ votes, ∀ w ∈ votes, v.hash = w.hash → v = w) :
    sortVotes votes = sortVotes votes' := by
  refine List.Perm.eq_of_pairwise ?_ (sortVotes_sorted votes) (sortVotes_sorted votes')
    ((sortVotes_perm votes).trans (hperm.trans (sortVotes_perm votes').symm))
  intro v w hv hw hvw hwv
  have hv' : v ∈ votes := (sortVotes_perm votes).mem_iff.mp hv
  have hw' : w ∈ votes := hperm.mem_iff.mpr ((sortVotes_perm votes').mem_iff.mp hw)
  exact hinj v hv' w hw' (Octets.ext_bytes (List.le_antisymm hvw hwv))

/-! ## Transport -/

section Codec

variable [Tlv Tag Asn1Error]

def encodeCanonical (blocks : List Block) (votes : List Vote) : Except VoteError Bytes :=
  asVoteAsn1Error (Asn1.encodeVoteStaple ⟨blocks.map Block.bytes, votes.map Vote.serialized⟩)

def decodeBundle (bytes : Bytes) : Except VoteError Asn1.VoteStapleBundle :=
  match Asn1.decodeVoteStaple bytes with
  | .ok bundle => .ok bundle
  | .error e => .error (stapleDecodeError e)

def decodeCanonical [X509] [OidCodec] [NumBigint] [Chrono] (bytes : Bytes) :
    Except VoteError (List Block × List Vote) := do
  let bundle ← decodeBundle bytes
  let blocks ← bundle.blocks.mapM fun raw => asVoteBlockError (Block.ofBytes raw)
  let votes ← bundle.votes.mapM Vote.verify
  return (blocks, votes)

namespace VoteStaple

variable [Zlib]

def tryNew (blocks : List Block) (votes : List Vote) (config : VoteConfig) (moment : BlockTime) :
    Except VoteError VoteStaple := do
  rejectIf (votes = []) .stapleVotesAtLeastOne
  rejectIf (blocks = []) .stapleBlocksAtLeastOne
  validateVoteInvariants votes config moment
  let representative ← votes.head?.elim (throw .stapleVotesAtLeastOne) pure
  let representativeBlocks := representative.decoded.blocks
  let blocks ← reorderBlocksToMatch blocks representativeBlocks
  let votes := sortVotes votes
  let canonicalBytes ← encodeCanonical blocks votes
  let compressedBytes ← deflate canonicalBytes
  return { blocks, votes, compressedBytes, canonicalBytes }

def verify [X509] [OidCodec] [NumBigint] [Chrono] (compressed : Bytes) (config : VoteConfig)
    (moment : BlockTime) : Except VoteError VoteStaple := do
  let canonicalBytes ← inflate compressed
  let (blocks, votes) ← decodeCanonical canonicalBytes
  rejectIf (votes = []) .stapleVotesAtLeastOne
  rejectIf (blocks = []) .stapleBlocksAtLeastOne
  validateVoteInvariants votes config moment
  let representative ← votes.head?.elim (throw .stapleVotesAtLeastOne) pure
  assertBlockOrder blocks representative.decoded.blocks
  assertVoteOrder votes
  return { blocks, votes, compressedBytes := compressed, canonicalBytes }

end VoteStaple

/-! ## Staples -/

namespace VoteStaple

/-- What every staple satisfies, in the terms of its checks. -/
structure Sound (staple : VoteStaple) (config : VoteConfig) (moment : BlockTime) : Prop where
  votes_ne_nil : staple.votes ≠ []
  blocks_ne_nil : staple.blocks ≠ []
  issuers_nodup : (staple.votes.map Vote.issuerBytes).Nodup
  endorsed : ∃ permanent, ∀ vote ∈ staple.votes,
    vote.Endorses (staple.blocks.map Block.hash) permanent config moment
  sorted : staple.votes.Pairwise precedesByHash

variable [Zlib] {blocks : List Block} {votes : List Vote} {config : VoteConfig}
  {moment : BlockTime} {staple : VoteStaple}

/-- **A staple is built exactly from the blocks its votes list, each once, and from votes
that pass the checks.** -/
theorem tryNew_eq_ok : tryNew blocks votes config moment = .ok staple ↔
    staple.Sound config moment ∧ (staple.blocks.map Block.hash).Nodup ∧
      staple.blocks.Perm blocks ∧ staple.votes = sortVotes votes ∧
      encodeCanonical staple.blocks staple.votes = .ok staple.canonicalBytes ∧
      deflate staple.canonicalBytes = .ok staple.compressedBytes := by
  simp only [tryNew, bind_eq_ok, rejectIf_eq_ok, validateVoteInvariants_eq_ok, elim_throw_eq_ok,
    reorderBlocksToMatch, arrange_eq_ok, pure_eq_ok, Except.ok.injEq]
  constructor
  · rintro ⟨_, hvotes, _, hblocks, _, ⟨-, hissuers, expected, permanent, hall⟩, representative,
      hhead, arranged, ⟨hperm, hhashes, hnodup⟩, canonical, hcanonical, compressed, hcompressed,
      rfl⟩
    -- the order of the blocks is that of any of the votes, which all list the same
    have hsame := (hall representative (List.mem_of_mem_head? hhead)).blocks_eq
    rw [hsame] at hhashes hnodup
    have hsorted := sortVotes_perm votes
    refine ⟨⟨?_, ?_, ?_, ⟨permanent, ?_⟩, sortVotes_sorted votes⟩, hhashes ▸ hnodup, hperm, rfl,
      hcanonical, hcompressed⟩
    · intro hnil
      have hperm : ([] : List Vote).Perm votes := hnil ▸ hsorted
      exact hvotes hperm.symm.eq_nil
    · rintro rfl
      exact hblocks hperm.symm.eq_nil
    · exact (hsorted.map _).nodup_iff.mpr hissuers
    · intro vote hvote
      rw [hhashes]
      exact hall vote (hsorted.mem_iff.mp hvote)
  · rintro ⟨hsound, hnodup, hperm, hvotes, hcanonical, hcompressed⟩
    obtain ⟨permanent, hall⟩ := hsound.endorsed
    have hsorted : staple.votes.Perm votes := hvotes ▸ sortVotes_perm votes
    have hendorsed : ∀ vote ∈ votes,
        vote.Endorses (staple.blocks.map Block.hash) permanent config moment :=
      fun vote hvote => hall vote (hsorted.mem_iff.mpr hvote)
    have hne : votes ≠ [] := by
      rintro rfl
      exact hsound.votes_ne_nil hsorted.eq_nil
    obtain ⟨representative, hhead⟩ : ∃ representative, votes.head? = some representative :=
      ⟨votes.head hne, List.head?_eq_some_head hne⟩
    have hsame := (hendorsed representative (List.mem_of_mem_head? hhead)).blocks_eq
    refine ⟨(), hne, (), ?_, (), ⟨hne, (hsorted.map _).nodup_iff.mp hsound.issuers_nodup, _, _,
      hendorsed⟩, representative, hhead, staple.blocks, ⟨hperm, hsame.symm, hsame ▸ hnodup⟩, ?_⟩
    · rintro rfl
      exact hsound.blocks_ne_nil hperm.eq_nil
    · rw [← hvotes]
      exact ⟨_, hcanonical, _, hcompressed, rfl⟩

/-- **A staple is accepted exactly when its decoded contents pass the checks.** -/
theorem verify_eq_ok [X509] [OidCodec] [NumBigint] [Chrono] {bytes : Bytes} :
    verify bytes config moment = .ok staple ↔
      staple.compressedBytes = bytes ∧ inflate bytes = .ok staple.canonicalBytes ∧
        decodeCanonical staple.canonicalBytes = .ok (staple.blocks, staple.votes) ∧
        staple.Sound config moment := by
  simp only [verify, bind_eq_ok, rejectIf_eq_ok, validateVoteInvariants_eq_ok, elim_throw_eq_ok,
    assertBlockOrder, assertHashesMatch_eq_ok, assertVoteOrder_eq_ok, pure_eq_ok,
    Except.ok.injEq, Prod.exists]
  constructor
  · rintro ⟨canonical, hinflate, blocks, votes, hdecoded, _, hvotes, _, hblocks, _,
      ⟨-, hissuers, expected, permanent, hall⟩, representative, hhead, _, hhashes, _, hsorted, rfl⟩
    have hsame := (hall representative (List.mem_of_mem_head? hhead)).blocks_eq
    refine ⟨rfl, hinflate, hdecoded, hvotes, hblocks, hissuers, ⟨permanent, ?_⟩, hsorted⟩
    rw [hhashes, hsame]
    exact hall
  · rintro ⟨rfl, hinflate, hdecoded, hsound⟩
    obtain ⟨permanent, hall⟩ := hsound.endorsed
    obtain ⟨representative, hhead⟩ : ∃ representative, staple.votes.head? = some representative :=
      ⟨staple.votes.head hsound.votes_ne_nil, List.head?_eq_some_head hsound.votes_ne_nil⟩
    have hsame := (hall representative (List.mem_of_mem_head? hhead)).blocks_eq
    exact ⟨_, hinflate, _, _, hdecoded, (), hsound.votes_ne_nil, (), hsound.blocks_ne_nil, (),
      ⟨hsound.votes_ne_nil, hsound.issuers_nodup, _, _, hall⟩, representative, hhead, (),
      hsame.symm, (), hsound.sorted, rfl⟩

end VoteStaple

end Codec

end KeetaNode
