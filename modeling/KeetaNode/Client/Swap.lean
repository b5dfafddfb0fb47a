import KeetaNode.Client.Publish

/-!
# Atomic swaps

A maker's block sends one token to its counterparty and receives another one from it. The
counterparty reads the two legs back from the operations of the block, checks them and
answers with a block of its own that sends what the maker asked for.

- `keetanetwork-client/src/swap.rs`
- `keetanetwork-client/src/user.rs` (`create_swap_request`, `accept_swap_request`, `swap_legs`,
  `resolve_swap_amount`)

## Main results

- `resolveSwapAmount_eq_ok_iff`: what a taker agrees to
- `swap_of_create`: a request is acceptable by its counterparty
- `checksAll_iff`: when the legs that were checked are all legs of the block
-/

namespace KeetaNode.Client

open ByteCodec
open Asn1 (Tag Asn1Error)

section Swap

variable [Crypto]

/-! ## Requests -/

/-- The maker's side of a swap. -/
structure CreateSwapRequest where
  counterparty : GenericAccount
  sendToken : GenericAccount
  sendAmount : Int
  receiveToken : GenericAccount
  receiveAmount : Int
  receiveExact : Bool

/-- An optional token and amount used to validate or adjust a leg. -/
structure SwapTokenAmount where
  token : Option GenericAccount
  amount : Option Int

/-- What a taker asserts of the legs: `receive` of what the maker sends, `send` of what the
taker sends. -/
structure SwapExpectation where
  receive : Option SwapTokenAmount
  send : Option SwapTokenAmount

/-- The taker's side of a swap. -/
structure AcceptSwapRequest where
  block : Block
  expected : Option SwapExpectation

/-! ## Legs of a block -/

/-- One turn of the scan: a leg replaces an earlier one of its kind. -/
def keepLeg (legs : Option Send × Option Receive) : Operation → Option Send × Option Receive
  | .send value => (some value, legs.2)
  | .receive value => (legs.1, some value)
  | _ => legs

def swapLegs (block : Block) : Except ClientError (Send × Receive) := do
  let (send, receive) := block.data.operations.foldl keepLeg (none, none)
  let send ← send.elim (throw .swapMissingSend) pure
  let receive ← receive.elim (throw .swapMissingReceive) pure
  return (send, receive)

def assertSwapToken (token : GenericAccount) (expected : SwapTokenAmount) :
    Except ClientError Unit :=
  match expected.token with
  | some wanted => rejectIf (token.toString ≠ wanted.toString) .swapTokenMismatch
  | none => .ok ()

def assertSwapAmount (amount : Int) (expected : SwapTokenAmount) : Except ClientError Unit :=
  match expected.amount with
  | some wanted => rejectIf (amount ≠ wanted) .swapAmountMismatch
  | none => .ok ()

/-- The checks of the leg that the maker sends. -/
def assertSwapReceive (send : Send) : Option SwapTokenAmount → Except ClientError Unit
  | some expected => do
    assertSwapToken send.token expected
    assertSwapAmount send.amount expected
  | none => .ok ()

/-- The checks of the leg that the taker sends, and its amount. -/
def resolveSwapSend (receive : Receive) : Option SwapTokenAmount → Except ClientError Int
  | some expected => do
    assertSwapToken receive.token expected
    match expected.amount with
    | some amount => do
      rejectIf (amount < receive.amount) .swapAmountTooLow
      rejectIf (receive.isExact = true ∧ receive.amount ≠ amount) .swapExactMismatch
      return amount
    | none => return receive.amount
  | none => .ok receive.amount

/-- The amount the taker sends: by default the one the maker asks for. -/
def resolveSwapAmount (send : Send) (receive : Receive) :
    Option SwapExpectation → Except ClientError Int
  | some expected => do
    assertSwapReceive send expected.receive
    resolveSwapSend receive expected.send
  | none => .ok receive.amount

/-! ## The two parties -/

namespace UserClient

variable [X509] [Tlv Tag Asn1Error]

/-- The maker's block. -/
def createSwapRequest (user : UserClient)
    (signatureOf : GenericAccount → Bytes → Except AccountError Bytes) (now : ℕ → BlockTime)
    (heads : ℕ → GenericAccount → Except ClientError (Option BlockHash))
    (request : CreateSwapRequest) : Except ClientError Block := do
  let builder ← user.signedBuilder
  let builder := builder.send (.resolved request.counterparty) (.resolved request.sendToken)
    request.sendAmount
  let builder := builder.receiveWith (.resolved request.counterparty)
    (.resolved request.receiveToken) request.receiveAmount request.receiveExact none
  let (_, blocks) ← builder.build signatureOf now heads []
  match blocks with
  | [block] => return block
  | _ => throw .swapMultiBlock

/-- The taker's matching block, followed by the maker's. -/
def acceptSwapRequest (user : UserClient)
    (signatureOf : GenericAccount → Bytes → Except AccountError Bytes) (now : ℕ → BlockTime)
    (heads : ℕ → GenericAccount → Except ClientError (Option BlockHash))
    (request : AcceptSwapRequest) : Except ClientError (List Block) := do
  let account ← user.accountOr none
  let (send, receive) ← swapLegs request.block
  rejectIf (send.recipient.toString ≠ receive.sender.toString) .swapAccountMismatch
  rejectIf (send.recipient.toString ≠ account.toString) .swapAccountMismatch
  let sendAmount ← resolveSwapAmount send receive request.expected
  let maker := request.block.data.account
  let builder ← user.signedBuilder
  let builder := builder.send (.resolved maker) (.resolved receive.token) sendAmount
  let (_, blocks) ← builder.build signatureOf now heads []
  return blocks ++ [request.block]

end UserClient

/-! ## What a taker agrees to -/

/-- The expectation is met by the legs. -/
structure SwapExpectation.Met (expected : SwapExpectation) (send : Send) (receive : Receive) :
    Prop where
  receiveToken : ∀ leg ∈ expected.receive, ∀ token ∈ leg.token, send.token = token
  receiveAmount : ∀ leg ∈ expected.receive, ∀ amount ∈ leg.amount, send.amount = amount
  sendToken : ∀ leg ∈ expected.send, ∀ token ∈ leg.token, receive.token = token
  sendAmount : ∀ leg ∈ expected.send, ∀ amount ∈ leg.amount,
    receive.amount ≤ amount ∧ (receive.isExact = true → receive.amount = amount)

/-- The amount a taker with this expectation sends for a requested amount. -/
def SwapExpectation.amountFor (expected : SwapExpectation) (requested : Int) : Int :=
  (expected.send.bind SwapTokenAmount.amount).getD requested

theorem assertSwapAmount_eq_ok {amount : Int} {expected : SwapTokenAmount} {u : Unit} :
    assertSwapAmount amount expected = .ok u ↔ ∀ wanted ∈ expected.amount, amount = wanted := by
  unfold assertSwapAmount
  cases expected.amount <;> simp

section Lawful

variable [LawfulCrypto]

theorem assertSwapToken_eq_ok {token : GenericAccount} {expected : SwapTokenAmount} {u : Unit} :
    assertSwapToken token expected = .ok u ↔ ∀ wanted ∈ expected.token, token = wanted := by
  unfold assertSwapToken
  cases expected.token <;> simp [GenericAccount.toString_injective.eq_iff]

theorem assertSwapReceive_eq_ok {send : Send} {expected : Option SwapTokenAmount} {u : Unit} :
    assertSwapReceive send expected = .ok u ↔ ∀ leg ∈ expected,
      (∀ token ∈ leg.token, send.token = token) ∧ ∀ amount ∈ leg.amount, send.amount = amount := by
  cases expected with
  | none => simp [assertSwapReceive]
  | some leg =>
    simp [assertSwapReceive, bind_eq_ok, assertSwapToken_eq_ok, assertSwapAmount_eq_ok]

theorem resolveSwapSend_eq_ok {receive : Receive} {expected : Option SwapTokenAmount}
    {resolved : Int} :
    resolveSwapSend receive expected = .ok resolved ↔
      (∀ leg ∈ expected, (∀ token ∈ leg.token, receive.token = token) ∧
        ∀ amount ∈ leg.amount,
          receive.amount ≤ amount ∧ (receive.isExact = true → receive.amount = amount)) ∧
        resolved = (expected.bind SwapTokenAmount.amount).getD receive.amount := by
  cases expected with
  | none =>
    simp only [resolveSwapSend, Except.ok.injEq, Option.bind_none, Option.getD_none,
      Option.not_mem_none, false_imp_iff, implies_true, true_and]
    exact eq_comm
  | some leg =>
    simp only [resolveSwapSend, bind_eq_ok, assertSwapToken_eq_ok, exists_const, Option.mem_def,
      Option.some.injEq, forall_eq', Option.bind_some]
    cases leg.amount with
    | none =>
      simp only [pure_eq_ok, Except.ok.injEq, Option.getD_none, reduceCtorEq, false_imp_iff,
        implies_true, and_true]
      exact and_congr_right' eq_comm
    | some amount =>
      -- the amount to send is the expected one, within what the receive leg allows
      simp only [bind_eq_ok, rejectIf_eq_ok, exists_const, pure_eq_ok, Except.ok.injEq,
        Option.some.injEq, forall_eq', Option.getD_some, not_lt, not_and, not_not]
      constructor
      · rintro ⟨htoken, hlow, hexact, rfl⟩
        exact ⟨⟨htoken, hlow, hexact⟩, rfl⟩
      · rintro ⟨⟨htoken, hlow, hexact⟩, rfl⟩
        exact ⟨htoken, hlow, hexact, rfl⟩

/-- **A taker agrees exactly when its expectation is met**, to the amount it expects to send
or else to the amount that is asked for. -/
theorem resolveSwapAmount_eq_ok_iff {send : Send} {receive : Receive}
    {expected : SwapExpectation} {amount : Int} :
    resolveSwapAmount send receive (some expected) = .ok amount ↔
      expected.Met send receive ∧ amount = expected.amountFor receive.amount := by
  simp only [resolveSwapAmount, bind_eq_ok, assertSwapReceive_eq_ok, resolveSwapSend_eq_ok,
    exists_const, SwapExpectation.amountFor]
  constructor
  · rintro ⟨hreceive, hsend, rfl⟩
    exact ⟨{
      receiveToken := fun leg hleg => (hreceive leg hleg).1
      receiveAmount := fun leg hleg => (hreceive leg hleg).2
      sendToken := fun leg hleg => (hsend leg hleg).1
      sendAmount := fun leg hleg => (hsend leg hleg).2 }, rfl⟩
  · rintro ⟨hmet, rfl⟩
    exact ⟨fun leg hleg => ⟨hmet.receiveToken leg hleg, hmet.receiveAmount leg hleg⟩,
      fun leg hleg => ⟨hmet.sendToken leg hleg, hmet.sendAmount leg hleg⟩, rfl⟩

omit [LawfulCrypto] in
/-- A met expectation never lowers the amount, and keeps an exact one. -/
theorem SwapExpectation.Met.amount {expected : SwapExpectation} {send : Send}
    {receive : Receive} (h : expected.Met send receive) :
    receive.amount ≤ expected.amountFor receive.amount ∧
      (receive.isExact = true → expected.amountFor receive.amount = receive.amount) ∧
      ∀ leg ∈ expected.send, ∀ amount ∈ leg.amount,
        expected.amountFor receive.amount = amount := by
  unfold amountFor
  cases hsend : expected.send with
  | none => simp
  | some leg =>
    cases hamount : leg.amount with
    | none => simp [hamount]
    | some amount =>
      obtain ⟨hlow, hexact⟩ := h.sendAmount leg hsend amount hamount
      simp only [Option.bind_some, hamount, Option.getD_some, Option.mem_def, Option.some.injEq,
        forall_eq', and_true]
      exact ⟨hlow, fun h => (hexact h).symm⟩

end Lawful

/-! ## Blocks of one group -/

/-- One plain send. -/
theorem renderOps_send (account signer recipient token : GenericAccount) {amount : Int}
    (hamount : amount ≠ 0) (previous : Option BlockHash) :
    renderOps ⟨account, signer, [.send (.resolved recipient) (.resolved token) amount none]⟩
      previous [] = .ok ([], [.send ⟨recipient, amount, token, none⟩]) := by
  simp [renderOps, RenderBuckets.pushOp, RenderBuckets.pushSend, AccountOrPending.resolve,
    alterEntry, RenderBuckets.intoOperations, hamount]

/-- A plain send and a receive, which is rendered after it. -/
theorem renderOps_swap (account signer : GenericAccount) (request : CreateSwapRequest)
    (hsend : request.sendAmount ≠ 0) (hreceive : request.receiveAmount ≠ 0)
    (previous : Option BlockHash) :
    renderOps ⟨account, signer,
        [.send (.resolved request.counterparty) (.resolved request.sendToken) request.sendAmount
          none,
        .receive (.resolved request.counterparty) (.resolved request.receiveToken)
          request.receiveAmount request.receiveExact none]⟩ previous [] =
      .ok ([], [
        .send ⟨request.counterparty, request.sendAmount, request.sendToken, none⟩,
        .receive ⟨request.receiveAmount, request.receiveToken, request.counterparty,
          request.receiveExact, none⟩]) := by
  simp [renderOps, RenderBuckets.pushOp, RenderBuckets.pushSend, RenderBuckets.pushReceive,
    AccountOrPending.resolve, alterEntry, RenderBuckets.intoOperations, hsend, hreceive]

/-- A signed builder starts with one empty group of the operating account. -/
theorem UserClient.signedBuilder_eq_ok {user : UserClient} {builder : TransactionBuilder}
    (h : user.signedBuilder = .ok builder) :
    ∃ account signer, user.accountOr none = .ok account ∧ builder.groups = [] ∧
      builder.current = ⟨account, signer, []⟩ := by
  simp only [signedBuilder, bind_eq_ok] at h
  obtain ⟨signer, -, account, haccount, h⟩ := h
  split at h <;> cases h
  · exact ⟨account, signer, haccount, rfl, rfl⟩
  · exact ⟨account, account, haccount, rfl, rfl⟩

section Building

variable [X509] [Tlv Tag Asn1Error]
  {signatureOf : GenericAccount → Bytes → Except AccountError Bytes} {now : ℕ → BlockTime}
  {heads : ℕ → GenericAccount → Except ClientError (Option BlockHash)}

/-- A build of one group that renders to operations makes one block, which holds them. -/
theorem block_of_build {builder : TransactionBuilder} {group : Group} {operations : List Operation}
    {handles : Handles} {blocks : List Block} (hqueued : builder.queued = [group])
    (hrender : ∀ previous, renderOps group previous [] = .ok ([], operations))
    (hne : operations ≠ []) (h : builder.build signatureOf now heads [] = .ok (handles, blocks)) :
    ∃ block, blocks = [block] ∧ block.data.account = group.account ∧
      block.data.operations = operations := by
  rw [TransactionBuilder.build, TransactionBuilder.takeGroups, hqueued] at h
  obtain ⟨placed, rfl, hbuilds⟩ := TransactionBuilder.builds_of_buildGroups h
  cases hbuilds with
  | skip hprevious hrendered hrest =>
    rw [hrender, Except.ok.injEq, Prod.mk.injEq] at hrendered
    exact absurd hrendered.2 hne
  | @block _ _ _ _ _ _ _ block _ hprevious hblock hrest =>
    cases hrest
    have hrendered := hblock.rendered
    rw [hrender, Except.ok.injEq, Prod.mk.injEq] at hrendered
    exact ⟨block, rfl, hblock.account_eq, hrendered.2.symm⟩

/-! ## A request and its answer -/

/-- The block the maker's legs are read from. -/
theorem block_of_create {user : UserClient} {request : CreateSwapRequest} {block : Block}
    (hsend : 0 < request.sendAmount) (hreceive : 0 < request.receiveAmount)
    (h : user.createSwapRequest signatureOf now heads request = .ok block) :
    user.accountOr none = .ok block.data.account ∧ block.data.operations = [
      .send ⟨request.counterparty, request.sendAmount, request.sendToken, none⟩,
      .receive ⟨request.receiveAmount, request.receiveToken, request.counterparty,
        request.receiveExact, none⟩] := by
  simp only [UserClient.createSwapRequest, bind_eq_ok] at h
  obtain ⟨builder, hbuilder, ⟨handles, blocks⟩, hbuild, h⟩ := h
  obtain ⟨account, signer, haccount, hgroups, hcurrent⟩ := UserClient.signedBuilder_eq_ok hbuilder
  obtain ⟨own, rfl, hown, hoperations⟩ := block_of_build
    (by simp [TransactionBuilder.queued, TransactionBuilder.receiveWith, TransactionBuilder.send,
      TransactionBuilder.push, hgroups, hcurrent])
    (renderOps_swap account signer request hsend.ne' hreceive.ne') (by simp) hbuild
  obtain rfl : own = block := Except.ok.inj h
  rw [hown]
  exact ⟨haccount, hoperations⟩

/-- The taker's own blocks for an amount. -/
def UserClient.answer (user : UserClient)
    (signatureOf : GenericAccount → Bytes → Except AccountError Bytes) (now : ℕ → BlockTime)
    (heads : ℕ → GenericAccount → Except ClientError (Option BlockHash))
    (maker token : GenericAccount) (amount : Int) : Except ClientError (List Block) := do
  let builder ← user.signedBuilder
  let (_, blocks) ← (builder.send (.resolved maker) (.resolved token) amount).build signatureOf
    now heads []
  return blocks

/-- The answer is one block, which sends the amount and does nothing else. -/
theorem block_of_answer {user : UserClient} {maker token : GenericAccount} {amount : Int}
    {blocks : List Block} (hamount : 0 < amount)
    (h : user.answer signatureOf now heads maker token amount = .ok blocks) :
    ∃ own, blocks = [own] ∧ user.accountOr none = .ok own.data.account ∧
      own.data.operations = [.send ⟨maker, amount, token, none⟩] := by
  simp only [UserClient.answer, bind_eq_ok, pure_eq_ok, Except.ok.injEq] at h
  obtain ⟨builder, hbuilder, ⟨handles, blocks⟩, hbuild, rfl⟩ := h
  obtain ⟨account, signer, haccount, hgroups, hcurrent⟩ := UserClient.signedBuilder_eq_ok hbuilder
  obtain ⟨own, hblocks, hown, hoperations⟩ := block_of_build
    (by simp [TransactionBuilder.queued, TransactionBuilder.send, TransactionBuilder.push,
      hgroups, hcurrent])
    (renderOps_send account signer maker token hamount.ne') (by simp) hbuild
  refine ⟨own, hblocks, ?_, hoperations⟩
  rw [hown]
  exact haccount

/-- A taker that the legs name answers for the amount it agrees to. -/
theorem acceptSwapRequest_eq {user : UserClient} {request : AcceptSwapRequest} {send : Send}
    {receive : Receive} {account : GenericAccount} (haccount : user.accountOr none = .ok account)
    (hlegs : swapLegs request.block = .ok (send, receive)) (hsend : send.recipient = account)
    (hreceive : receive.sender = account) :
    user.acceptSwapRequest signatureOf now heads request = (do
      let amount ← resolveSwapAmount send receive request.expected
      let own ← user.answer signatureOf now heads request.block.data.account receive.token amount
      return own ++ [request.block]) := by
  simp only [UserClient.acceptSwapRequest, UserClient.answer, haccount, hlegs, ok_bind, hsend,
    hreceive, ne_eq, not_true_eq_false, rejectIf, if_false, bind_assoc, pure_eq_ok]

/-- The taker's block and then the maker's, the first sending the amount of the requested
token to the maker and nothing else. -/
def Answers (request : CreateSwapRequest) (block : Block) (amount : Int) (blocks : List Block) :
    Prop :=
  ∃ own, blocks = [own, block] ∧ own.data.account = request.counterparty ∧
    own.data.operations = [.send ⟨block.data.account, amount, request.receiveToken, none⟩]

/-- The legs of a request. -/
def CreateSwapRequest.sendLeg (request : CreateSwapRequest) : Send :=
  ⟨request.counterparty, request.sendAmount, request.sendToken, none⟩

def CreateSwapRequest.receiveLeg (request : CreateSwapRequest) : Receive :=
  ⟨request.receiveAmount, request.receiveToken, request.counterparty, request.receiveExact, none⟩

/-- The counterparty of a request finds its legs in the block, whatever it expects. -/
theorem acceptSwapRequest_of_create {maker taker : UserClient} {request : CreateSwapRequest}
    {block : Block} {signatureOf' : GenericAccount → Bytes → Except AccountError Bytes}
    {now' : ℕ → BlockTime} {heads' : ℕ → GenericAccount → Except ClientError (Option BlockHash)}
    (hsend : 0 < request.sendAmount) (hreceive : 0 < request.receiveAmount)
    (hcreate : maker.createSwapRequest signatureOf now heads request = .ok block)
    (htaker : taker.accountOr none = .ok request.counterparty)
    (expected : Option SwapExpectation) :
    taker.acceptSwapRequest signatureOf' now' heads' ⟨block, expected⟩ = (do
      let amount ← resolveSwapAmount request.sendLeg request.receiveLeg expected
      let own ← taker.answer signatureOf' now' heads' block.data.account
        request.receiveLeg.token amount
      return own ++ [block]) := by
  obtain ⟨-, hoperations⟩ := block_of_create hsend hreceive hcreate
  have hlegs : swapLegs block = .ok (request.sendLeg, request.receiveLeg) := by
    simp [swapLegs, hoperations, keepLeg, CreateSwapRequest.sendLeg,
      CreateSwapRequest.receiveLeg]
  exact acceptSwapRequest_eq htaker hlegs rfl rfl

/-- The counterparty's blocks in front of the maker's answer the request. -/
theorem answers_of_answer {taker : UserClient} {request : CreateSwapRequest} {block : Block}
    {own : List Block} {amount : Int} (hamount : 0 < amount)
    (htaker : taker.accountOr none = .ok request.counterparty)
    (hown : taker.answer signatureOf now heads block.data.account request.receiveToken amount =
      .ok own) :
    Answers request block amount (own ++ [block]) := by
  obtain ⟨own, rfl, hself, hsends⟩ := block_of_answer hamount hown
  rw [htaker, Except.ok.injEq] at hself
  exact ⟨own, rfl, hself.symm, hsends⟩

/-- **A swap request is acceptable by its counterparty.** Without an expectation, and with
one that is met, accepting the request is building the answer for the amount agreed to. -/
theorem swap_of_create [LawfulCrypto] {maker taker : UserClient} {request : CreateSwapRequest}
    {block : Block} {signatureOf' : GenericAccount → Bytes → Except AccountError Bytes}
    {now' : ℕ → BlockTime} {heads' : ℕ → GenericAccount → Except ClientError (Option BlockHash)}
    (hsend : 0 < request.sendAmount) (hreceive : 0 < request.receiveAmount)
    (hcreate : maker.createSwapRequest signatureOf now heads request = .ok block)
    (htaker : taker.accountOr none = .ok request.counterparty) :
    maker.accountOr none = .ok block.data.account ∧
    (∀ own, taker.answer signatureOf' now' heads' block.data.account request.receiveToken
        request.receiveAmount = .ok own →
      taker.acceptSwapRequest signatureOf' now' heads' ⟨block, none⟩ = .ok (own ++ [block])) ∧
    (∀ blocks, taker.acceptSwapRequest signatureOf' now' heads' ⟨block, none⟩ = .ok blocks →
      Answers request block request.receiveAmount blocks) ∧
    ∀ expected : SwapExpectation,
      (∀ own, expected.Met request.sendLeg request.receiveLeg →
        taker.answer signatureOf' now' heads' block.data.account request.receiveToken
          (expected.amountFor request.receiveAmount) = .ok own →
        taker.acceptSwapRequest signatureOf' now' heads' ⟨block, some expected⟩ =
          .ok (own ++ [block])) ∧
      ∀ blocks, taker.acceptSwapRequest signatureOf' now' heads' ⟨block, some expected⟩ =
          .ok blocks →
        expected.Met request.sendLeg request.receiveLeg ∧
          ∃ amount, Answers request block amount blocks ∧ request.receiveAmount ≤ amount ∧
            (request.receiveExact = true → amount = request.receiveAmount) ∧
            ∀ leg ∈ expected.send, ∀ wanted ∈ leg.amount, amount = wanted := by
  obtain ⟨haccount, -⟩ := block_of_create hsend hreceive hcreate
  have haccept : ∀ expected,
      taker.acceptSwapRequest signatureOf' now' heads' ⟨block, expected⟩ = _ :=
    acceptSwapRequest_of_create hsend hreceive hcreate htaker
  refine ⟨haccount, ?_, ?_, fun expected => ⟨?_, ?_⟩⟩
  · intro own hown
    rw [haccept]
    simp only [resolveSwapAmount, ok_bind, CreateSwapRequest.receiveLeg, hown, pure_eq_ok]
  · intro blocks hblocks
    rw [haccept] at hblocks
    simp only [resolveSwapAmount, ok_bind, bind_eq_ok, pure_eq_ok, Except.ok.injEq] at hblocks
    obtain ⟨own, hown, rfl⟩ := hblocks
    exact answers_of_answer hreceive htaker hown
  · intro own hmet hown
    rw [haccept, resolveSwapAmount_eq_ok_iff.mpr ⟨hmet, rfl⟩, ok_bind]
    simp only [CreateSwapRequest.receiveLeg, hown, ok_bind, pure_eq_ok]
  · intro blocks hblocks
    rw [haccept] at hblocks
    simp only [bind_eq_ok, pure_eq_ok, Except.ok.injEq, resolveSwapAmount_eq_ok_iff] at hblocks
    obtain ⟨amount, ⟨hmet, rfl⟩, own, hown, rfl⟩ := hblocks
    obtain ⟨hlow, hexact, hwanted⟩ := hmet.amount
    exact ⟨hmet, _, answers_of_answer (hreceive.trans_le hlow) htaker hown, hlow, hexact, hwanted⟩

end Building

/-! ## Legs that are not checked -/

def asSend : Operation → Option Send
  | .send value => some value
  | _ => none

def asReceive : Operation → Option Receive
  | .receive value => some value
  | _ => none

/-- The scan, when it comes to `later`, replaces the leg it kept of `earlier`. -/
def Replaces (later earlier : Operation) : Prop :=
  ((asSend earlier).isSome ∧ (asSend later).isSome) ∨
    ((asReceive earlier).isSome ∧ (asReceive later).isSome)

/-- The scan replaces no leg of the operations. -/
def ReplacesNone (operations : List Operation) : Prop :=
  operations.Pairwise fun earlier later => ¬ Replaces later earlier

/-- The scan keeps the last legs. -/
theorem foldl_keepLeg (operations : List Operation) (send : Option Send)
    (receive : Option Receive) :
    operations.foldl keepLeg (send, receive) =
      ((operations.filterMap asSend).getLast?.or send,
        (operations.filterMap asReceive).getLast?.or receive) := by
  induction operations generalizing send receive with
  | nil => simp
  | cons operation operations ih =>
    cases operation with
    | send value =>
      simp only [List.foldl_cons, keepLeg, ih, List.filterMap_cons, asSend, asReceive,
        List.getLast?_cons]
      cases (operations.filterMap asSend).getLast? <;> rfl
    | receive value =>
      simp only [List.foldl_cons, keepLeg, ih, List.filterMap_cons, asSend, asReceive,
        List.getLast?_cons]
      cases (operations.filterMap asReceive).getLast? <;> rfl
    | _ => simp only [List.foldl_cons, keepLeg, ih, List.filterMap_cons, asSend, asReceive]

theorem swapLegs_eq_ok {block : Block} {send : Send} {receive : Receive} :
    swapLegs block = .ok (send, receive) ↔
      (block.data.operations.filterMap asSend).getLast? = some send ∧
        (block.data.operations.filterMap asReceive).getLast? = some receive := by
  simp only [swapLegs, foldl_keepLeg, Option.or_none, bind_eq_ok, elim_throw_eq_ok, pure_eq_ok,
    Except.ok.injEq, Prod.mk.injEq]
  constructor
  · rintro ⟨_, hsend, _, hreceive, rfl, rfl⟩
    exact ⟨hsend, hreceive⟩
  · rintro ⟨hsend, hreceive⟩
    exact ⟨send, hsend, receive, hreceive, rfl, rfl⟩

omit [Crypto] in
/-- No two members of a list are of a kind when the kind has at most one member in it. -/
theorem pairwise_isSome_iff {α β : Type} {select : α → Option β} {as : List α} :
    as.Pairwise (fun a b => ¬ ((select a).isSome ∧ (select b).isSome)) ↔
      (as.filterMap select).length ≤ 1 := by
  induction as with
  | nil => simp
  | cons a as ih =>
    rw [List.pairwise_cons, ih]
    cases hselect : select a with
    | none => simp [hselect]
    | some value =>
      have hnone : (as.filterMap select).length = 0 ↔ ∀ b ∈ as, select b = none := by
        rw [List.length_eq_zero_iff, List.filterMap_eq_nil_iff]
      simp only [hselect, Option.isSome_some, true_and, Bool.not_eq_true,
        Option.isSome_eq_false_iff, Option.isNone_iff_eq_none, List.filterMap_cons,
        List.length_cons]
      rw [← hnone]
      omega

theorem replacesNone_iff {operations : List Operation} :
    ReplacesNone operations ↔ (operations.filterMap asSend).length ≤ 1 ∧
      (operations.filterMap asReceive).length ≤ 1 := by
  rw [← pairwise_isSome_iff, ← pairwise_isSome_iff, ← List.pairwise_and_iff, ReplacesNone]
  simp only [Replaces, not_or]

omit [Crypto] in
/-- A list of at most one member has its last one only. -/
theorem eq_singleton_of_getLast? {α : Type} {as : List α} {a : α} (hlength : as.length ≤ 1)
    (hlast : as.getLast? = some a) : as = [a] := by
  match as, hlength, hlast with
  | [b], _, hlast => simpa using hlast

/-- The legs that were checked are all the block has, and name the account. -/
def ChecksAll (block : Block) (account : GenericAccount) : Prop :=
  ∃ send receive, swapLegs block = .ok (send, receive) ∧
    block.data.operations.filterMap asSend = [send] ∧ send.recipient = account ∧
    block.data.operations.filterMap asReceive = [receive] ∧ receive.sender = account

/-- **A taker has checked all legs of a block it accepts exactly when the scan replaces
none of them.** -/
theorem checksAll_iff [LawfulCrypto] [X509] [Tlv Tag Asn1Error] {user : UserClient}
    {signatureOf : GenericAccount → Bytes → Except AccountError Bytes} {now : ℕ → BlockTime}
    {heads : ℕ → GenericAccount → Except ClientError (Option BlockHash)}
    {request : AcceptSwapRequest} {blocks : List Block}
    (h : user.acceptSwapRequest signatureOf now heads request = .ok blocks) :
    (∃ account, user.accountOr none = .ok account ∧ ChecksAll request.block account) ↔
      ReplacesNone request.block.data.operations := by
  simp only [UserClient.acceptSwapRequest, bind_eq_ok, rejectIf_eq_ok, not_not,
    GenericAccount.toString_injective.eq_iff] at h
  obtain ⟨account, haccount, ⟨send, receive⟩, hlegs, _, hsame, _, hself, _⟩ := h
  rw [replacesNone_iff]
  constructor
  · rintro ⟨_, _, _, _, _, hsends, _, hreceives, _⟩
    simp [hsends, hreceives]
  · rintro ⟨hsends, hreceives⟩
    obtain ⟨hsend, hreceive⟩ := swapLegs_eq_ok.mp hlegs
    refine ⟨account, haccount, send, receive, hlegs, ?_, hself, ?_, hsame ▸ hself⟩
    · exact eq_singleton_of_getLast? hsends hsend
    · exact eq_singleton_of_getLast? hreceives hreceive

end Swap

/-! ## Samples -/

section Samples

open scoped Reference Asn1.Reference

namespace Sample

open Reference

def otherToken : GenericAccount := identifier .token 0x55 KeyPairType.algorithm_token

def maker : UserClient := ⟨keeta, none, some alice⟩

def taker : UserClient := ⟨keeta, none, some bob⟩

/-- Three of one token against exactly five of another one. -/
def swapRequest : CreateSwapRequest where
  counterparty := bob
  sendToken := token
  sendAmount := 3
  receiveToken := otherToken
  receiveAmount := 5
  receiveExact := true

def now (_ : ℕ) : BlockTime := Asn1.Sample.date

def noHeads (_ : ℕ) (_ : GenericAccount) : Except ClientError (Option BlockHash) := .ok none

/-- A maker's block that asks for a thousand more in a leg of its own. -/
def greedyOperations : List Operation :=
  [.send ⟨bob, 3, token, none⟩, .receive ⟨1000, otherToken, bob, false, none⟩,
    .receive ⟨5, otherToken, bob, true, none⟩]

def greedyBlock : Except ClientError Block :=
  keeta.sealBlock signatureOf Asn1.Sample.date alice alice none none none greedyOperations

/-- The taker expects to send five of the other token and to receive three. -/
def swapExpected : SwapExpectation where
  receive := some ⟨some token, some 3⟩
  send := some ⟨some otherToken, some 5⟩

end Sample

open KeetaNode.Client.Sample Reference

theorem swap_of_create_sample :
    ∃ block, maker.createSwapRequest Client.Sample.signatureOf now noHeads swapRequest =
        .ok block ∧
      ∃ own, taker.answer Client.Sample.signatureOf now noHeads block.data.account otherToken 5 =
          .ok own ∧
        taker.acceptSwapRequest Client.Sample.signatureOf now noHeads ⟨block, none⟩ =
          .ok (own ++ [block]) := by
  obtain ⟨blocks, h⟩ := exists_eq_ok (by decide +kernel :
    (maker.createSwapRequest Client.Sample.signatureOf now noHeads swapRequest >>= fun block =>
      taker.answer Client.Sample.signatureOf now noHeads block.data.account otherToken 5).isOk =
        true)
  obtain ⟨block, hblock, hown⟩ := bind_eq_ok.mp h
  exact ⟨block, hblock, blocks, hown,
    (swap_of_create (by decide) (by decide) hblock rfl).2.1 blocks hown⟩

/-- A block with a second RECEIVE is accepted under an expectation that the last one meets. -/
theorem not_checksAll_sample :
    ∃ block blocks, greedyBlock = .ok block ∧
      taker.acceptSwapRequest Client.Sample.signatureOf now noHeads ⟨block, some swapExpected⟩ =
        .ok blocks ∧ ¬ ChecksAll block bob := by
  obtain ⟨blocks, h⟩ := exists_eq_ok (by decide +kernel :
    (greedyBlock >>= fun block => taker.acceptSwapRequest Client.Sample.signatureOf now noHeads
      ⟨block, some swapExpected⟩).isOk = true)
  obtain ⟨block, hblock, haccept⟩ := bind_eq_ok.mp h
  refine ⟨block, blocks, hblock, haccept, ?_⟩
  rintro ⟨send, receive, -, -, -, hreceives, -⟩
  obtain ⟨network, -, hdata⟩ := KeetaClient.sealBlock_eq_ok hblock
  rw [hdata] at hreceives
  have hlength : (greedyOperations.filterMap asReceive).length = 1 :=
    congrArg List.length hreceives
  exact absurd hlength (by decide)

theorem checksAll_iff_sample :
    ∃ block blocks, maker.createSwapRequest Client.Sample.signatureOf now noHeads swapRequest =
        .ok block ∧
      taker.acceptSwapRequest Client.Sample.signatureOf now noHeads ⟨block, none⟩ = .ok blocks ∧
        ((∃ account, taker.accountOr none = .ok account ∧ ChecksAll block account) ↔
          ReplacesNone block.data.operations) := by
  obtain ⟨blocks, h⟩ := exists_eq_ok (by decide +kernel :
    (maker.createSwapRequest Client.Sample.signatureOf now noHeads swapRequest >>= fun block =>
      taker.acceptSwapRequest Client.Sample.signatureOf now noHeads ⟨block, none⟩).isOk = true)
  obtain ⟨block, hblock, haccept⟩ := bind_eq_ok.mp h
  exact ⟨block, blocks, hblock, haccept, checksAll_iff haccept⟩

end Samples

end KeetaNode.Client
