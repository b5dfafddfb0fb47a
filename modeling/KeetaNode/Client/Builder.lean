import KeetaNode.Block.Sealing
import KeetaNode.Vote.Types

/-!
# Transaction builder

Operations are queued in groups, one account and signer each. Building renders every group
to the operations of one block and seals the block on the head of its account, or on the
block of the account that was built before it.

- `keetanetwork-client/src/builder.rs`
- `keetanetwork-client/src/client.rs` (`seal_block`)
- `keetanetwork-client/src/model.rs` (`PendingAccount`, `AccountOrPending`)
- `keetanetwork-client/src/error.rs`

An operand that names an identifier of the same transaction is the number of its handle.
What the handles hold is passed along, since a handle is a cell that rendering fills.
-/

namespace KeetaNode.Client

open ByteCodec
open Asn1 (Tag Asn1Error)

/-! ## Errors -/

/-- Failures of the client. Errors of other crates are kept without their source. -/
inductive ClientError where
  | transport
  /-- A coded answer of a node. -/
  | node (code : Option String)
  | decode
  | vote (source : VoteError)
  | block (source : BlockError)
  | amount
  | hash
  | moment
  | permission (source : BlockError)
  | aclPrincipal
  | missingVote
  | missingQuote
  | missingPublish
  | missingVersion
  | feeRequired
  | feeBlockFactory
  | account (source : AccountError)
  | unsupportedNetwork
  | noRepresentatives
  | timeout
  | quorumNotReached
  | syncPublishFailed
  | recoverFailed
  | unresolvedIdentifier
  | signerRequired
  | swapMultiBlock
  | swapMissingSend
  | swapMissingReceive
  | swapAccountMismatch
  | swapTokenMismatch
  | swapAmountMismatch
  | swapAmountTooLow
  | swapExactMismatch
  deriving DecidableEq, Repr

/-- Whether a node answered with this code. -/
def isLedgerCode : ClientError → String → Bool
  | .node (some actual), code => actual = code
  | _, _ => false

section Builder

variable [Crypto]

/-! ## Handles -/

/-- A handle to an identifier that exists once its builder is built. -/
structure PendingAccount where
  number : ℕ
  deriving DecidableEq, Repr

/-- What the handles of a builder hold. -/
abbrev Handles := List (PendingAccount × GenericAccount)

namespace PendingAccount

def get (pending : PendingAccount) (handles : Handles) : Except ClientError GenericAccount :=
  match handles.lookup pending with
  | some account => .ok account
  | none => .error .unresolvedIdentifier

/-- A second fill is ignored. -/
def fill (pending : PendingAccount) (account : GenericAccount) (handles : Handles) : Handles :=
  match handles.lookup pending with
  | some _ => handles
  | none => (pending, account) :: handles

end PendingAccount

/-- An operand, known now or when the builder is built. -/
inductive AccountOrPending where
  | resolved (account : GenericAccount)
  | pending (handle : PendingAccount)
  deriving DecidableEq

def AccountOrPending.resolve (handles : Handles) :
    AccountOrPending → Except ClientError GenericAccount
  | .resolved account => .ok account
  | .pending handle => handle.get handles

/-! ## Groups -/

/-- A deferred operation. -/
inductive PendingOp where
  | send (recipient token : AccountOrPending) (amount : Int) (external : Option String)
  | receive (sender token : AccountOrPending) (amount : Int) (isExact : Bool)
      (forward : Option AccountOrPending)
  | createIdentifier (keyType : KeyPairType)
      (createArguments : Option IdentifierCreateArguments) (handle : PendingAccount)
  | setRep (recipient : GenericAccount)
  | setInfo (info : SetInfo)
  | modifyPermissions (permissions : ModifyPermissions)
  | modifyTokenSupply (amount : Int) (method : AdjustMethod)
  | modifyTokenBalance (token : AccountOrPending) (amount : Int) (method : AdjustMethod)
  | manageCertificate (certificate : ManageCertificate)
  | raw (operation : Operation)
  deriving DecidableEq

/-- Operations of one account, signed by one signer. -/
structure Group where
  account : GenericAccount
  signer : GenericAccount
  ops : List PendingOp
  deriving DecidableEq

def Group.new (account signer : GenericAccount) : Group := { account, signer, ops := [] }

/-- The network a client stamps on its blocks. -/
structure KeetaClient where
  network : Option Int
  subnet : Option Int
  deriving DecidableEq

/-- Groups of operations, the last of which is still open. -/
structure TransactionBuilder where
  client : KeetaClient
  primary : GenericAccount
  groups : List Group
  current : Group
  initialPrevious : Option BlockHash
  purpose : Option BlockPurpose
  date : Option BlockTime
  /-- How many handles were given out. -/
  handleCount : ℕ
  deriving DecidableEq

namespace TransactionBuilder

def new (client : KeetaClient) (account : GenericAccount) : TransactionBuilder where
  client
  primary := account
  groups := []
  current := Group.new account account
  initialPrevious := none
  purpose := none
  date := none
  handleCount := 0

/-- The groups that hold operations. -/
def queued (builder : TransactionBuilder) : List Group :=
  if builder.current.ops = [] then builder.groups else builder.groups ++ [builder.current]

def switch (builder : TransactionBuilder) (account signer : GenericAccount) :
    TransactionBuilder :=
  { builder with groups := builder.queued, current := Group.new account signer }

def forAccount (builder : TransactionBuilder) (account : GenericAccount) : TransactionBuilder :=
  builder.switch account account

def forAccountWithSigner (builder : TransactionBuilder) (account signer : GenericAccount) :
    TransactionBuilder :=
  builder.switch account signer

def push (builder : TransactionBuilder) (op : PendingOp) : TransactionBuilder :=
  { builder with current := { builder.current with ops := builder.current.ops ++ [op] } }

def send (builder : TransactionBuilder) (recipient token : AccountOrPending) (amount : Int) :
    TransactionBuilder :=
  builder.push (.send recipient token amount none)

def sendExternal (builder : TransactionBuilder) (recipient token : AccountOrPending)
    (amount : Int) (external : String) : TransactionBuilder :=
  builder.push (.send recipient token amount (some external))

def receiveWith (builder : TransactionBuilder) (sender token : AccountOrPending) (amount : Int)
    (isExact : Bool) (forward : Option AccountOrPending) : TransactionBuilder :=
  builder.push (.receive sender token amount isExact forward)

def receive (builder : TransactionBuilder) (sender token : AccountOrPending) (amount : Int) :
    TransactionBuilder :=
  builder.receiveWith sender token amount false none

def setRep (builder : TransactionBuilder) (recipient : GenericAccount) : TransactionBuilder :=
  builder.push (.setRep recipient)

/-- The fields of `info` that are given replace those of an earlier call. -/
def mergeInfo (existing info : SetInfo) : SetInfo where
  name := if info.name = "" then existing.name else info.name
  description := if info.description = "" then existing.description else info.description
  metadata := if info.metadata = "" then existing.metadata else info.metadata
  defaultPermission := info.defaultPermission <|> existing.defaultPermission

/-- Merge into the first SET_INFO of the group, if there is one. -/
def mergeFirst (info : SetInfo) : List PendingOp → Option (List PendingOp)
  | [] => none
  | .setInfo existing :: ops => some (.setInfo (mergeInfo existing info) :: ops)
  | op :: ops => (mergeFirst info ops).map (op :: ·)

def setInfo (builder : TransactionBuilder) (info : SetInfo) : TransactionBuilder :=
  match mergeFirst info builder.current.ops with
  | some ops => { builder with current := { builder.current with ops } }
  | none => builder.push (.setInfo info)

def modifyPermissions (builder : TransactionBuilder) (permissions : ModifyPermissions) :
    TransactionBuilder :=
  builder.push (.modifyPermissions permissions)

def generateIdentifier (builder : TransactionBuilder) (keyType : KeyPairType)
    (createArguments : Option IdentifierCreateArguments) : PendingAccount × TransactionBuilder :=
  let handle : PendingAccount := ⟨builder.handleCount⟩
  (handle, { builder.push (.createIdentifier keyType createArguments handle) with
    handleCount := builder.handleCount + 1 })

def modifyTokenSupply (builder : TransactionBuilder) (amount : Int) (method : AdjustMethod) :
    TransactionBuilder :=
  builder.push (.modifyTokenSupply amount method)

def modifyTokenBalance (builder : TransactionBuilder) (token : AccountOrPending) (amount : Int)
    (method : AdjustMethod) : TransactionBuilder :=
  builder.push (.modifyTokenBalance token amount method)

def manageCertificate (builder : TransactionBuilder) (certificate : ManageCertificate) :
    TransactionBuilder :=
  builder.push (.manageCertificate certificate)

def withOperation (builder : TransactionBuilder) (operation : Operation) : TransactionBuilder :=
  builder.push (.raw operation)

def withPrevious (builder : TransactionBuilder) (previous : BlockHash) : TransactionBuilder :=
  { builder with initialPrevious := some previous }

def withPurpose (builder : TransactionBuilder) (purpose : BlockPurpose) : TransactionBuilder :=
  { builder with purpose := some purpose }

def withDate (builder : TransactionBuilder) (date : BlockTime) : TransactionBuilder :=
  { builder with date := some date }

end TransactionBuilder

/-! ## Rendering -/

/-- The plain sends of one recipient and token. -/
structure AggregatedSend where
  recipient : GenericAccount
  token : GenericAccount
  amount : Int
  deriving DecidableEq

/-- The entries of a `BTreeMap` by key, after changing the one of a key; `none` is an entry
that was not there. -/
def alterEntry {κ ν : Type} [LinearOrder κ] (key : κ) (alter : Option ν → ν) :
    List (κ × ν) → List (κ × ν)
  | [] => [(key, alter none)]
  | (other, value) :: entries =>
    if key < other then (key, alter none) :: (other, value) :: entries
    else if key = other then (key, alter (some value)) :: entries
    else (other, value) :: alterEntry key alter entries

/-- The operations of a group by kind, in the order in which the kinds are rendered. -/
structure RenderBuckets where
  creates : List Operation := []
  externalSends : List Operation := []
  aggregatedSends : List ((String ×ₗ String) × AggregatedSend) := []
  receives : List Operation := []
  info : List Operation := []
  setRep : List Operation := []
  supply : List Operation := []
  certificates : List Operation := []
  balance : List Operation := []
  permissions : List Operation := []
  raw : List Operation := []

namespace RenderBuckets

/-- Derive the identifier of a create, fill its handle and stage the operation. -/
def pushCreate (buckets : RenderBuckets) (group : Group) (derivePrevious : Option BlockHash)
    (keyType : KeyPairType) (createArguments : Option IdentifierCreateArguments)
    (handle : PendingAccount) (handles : Handles) :
    Except ClientError (Handles × RenderBuckets) := do
  let index := UInt32.ofNat buckets.creates.length
  let derived ← (group.account.generateIdentifier keyType derivePrevious index).mapError .account
  let create : Operation := .createIdentifier { identifier := derived, createArguments }
  return (handle.fill derived handles, { buckets with creates := buckets.creates ++ [create] })

/-- Sends with external data are kept, the others are added up by recipient and token. -/
def pushSend (buckets : RenderBuckets) (recipient token : AccountOrPending) (amount : Int)
    (external : Option String) (handles : Handles) : Except ClientError RenderBuckets := do
  let recipient ← recipient.resolve handles
  let token ← token.resolve handles
  if external.isSome then
    let send : Operation := .send { recipient, amount, token, external }
    return { buckets with externalSends := buckets.externalSends ++ [send] }
  let key := toLex (recipient.toString, token.toString)
  let add (entry : Option AggregatedSend) : AggregatedSend :=
    let entry := entry.getD { recipient, token, amount := 0 }
    { entry with amount := entry.amount + amount }
  return { buckets with aggregatedSends := alterEntry key add buckets.aggregatedSends }

def pushReceive (buckets : RenderBuckets) (sender token : AccountOrPending) (amount : Int)
    (isExact : Bool) (forward : Option AccountOrPending) (handles : Handles) :
    Except ClientError RenderBuckets := do
  let sender ← sender.resolve handles
  let token ← token.resolve handles
  let forward ← forward.mapM (AccountOrPending.resolve handles)
  let receive : Operation := .receive { amount, token, sender, isExact, forward }
  return { buckets with receives := buckets.receives ++ [receive] }

/-- Stage one deferred operation. Sends and receives of nothing are dropped. -/
def pushOp (group : Group) (derivePrevious : Option BlockHash) :
    Handles × RenderBuckets → PendingOp → Except ClientError (Handles × RenderBuckets)
  | (handles, buckets), op =>
    match op with
    | .createIdentifier keyType createArguments handle =>
      buckets.pushCreate group derivePrevious keyType createArguments handle handles
    | .send recipient token amount external =>
      if amount ≠ 0 then do
        return (handles, ← buckets.pushSend recipient token amount external handles)
      else .ok (handles, buckets)
    | .receive sender token amount isExact forward =>
      if amount ≠ 0 then do
        return (handles, ← buckets.pushReceive sender token amount isExact forward handles)
      else .ok (handles, buckets)
    | .modifyTokenBalance token amount method => do
      let token ← token.resolve handles
      let operation : Operation := .tokenAdminModifyBalance { token, amount, method }
      return (handles, { buckets with balance := buckets.balance ++ [operation] })
    | .setInfo info => .ok (handles, { buckets with info := buckets.info ++ [.setInfo info] })
    | .setRep recipient =>
      .ok (handles, { buckets with setRep := buckets.setRep ++ [.setRep { recipient }] })
    | .modifyTokenSupply amount method =>
      .ok (handles,
        { buckets with supply := buckets.supply ++ [.tokenAdminSupply { amount, method }] })
    | .manageCertificate certificate =>
      .ok (handles,
        { buckets with certificates := buckets.certificates ++ [.manageCertificate certificate] })
    | .modifyPermissions permissions =>
      .ok (handles,
        { buckets with permissions := buckets.permissions ++ [.modifyPermissions permissions] })
    | .raw operation => .ok (handles, { buckets with raw := buckets.raw ++ [operation] })

/-- The buckets one after the other, without the aggregated sends of nothing. -/
def intoOperations (buckets : RenderBuckets) : List Operation :=
  let aggregated := (buckets.aggregatedSends.filter fun entry => entry.2.amount ≠ 0).map
    fun (_, send) => Operation.send
      { recipient := send.recipient, amount := send.amount, token := send.token, external := none }
  buckets.creates ++ buckets.externalSends ++ aggregated ++ buckets.receives ++ buckets.info ++
    buckets.setRep ++ buckets.supply ++ buckets.certificates ++ buckets.balance ++
    buckets.permissions ++ buckets.raw

end RenderBuckets

/-- The operations of a group's block, and the handles they fill. -/
def renderOps (group : Group) (previous : Option BlockHash) (handles : Handles) :
    Except ClientError (Handles × List Operation) := do
  -- an opening block derives identifiers as if nothing came before
  let derivePrevious := previous.filter (· ≠ group.account.toOpeningHash)
  let (handles, buckets) ← group.ops.foldlM (RenderBuckets.pushOp group derivePrevious)
    (handles, {})
  return (handles, buckets.intoOperations)

/-! ## Sealing the blocks -/

variable [X509] [Tlv Tag Asn1Error]

/-- Build and sign a block in the context of a client. The keys the accounts hold sign
with `signatureOf`, and `now` is the moment of a block without a date of its own. -/
def KeetaClient.sealBlock (client : KeetaClient)
    (signatureOf : GenericAccount → Bytes → Except AccountError Bytes) (now : BlockTime)
    (account signer : GenericAccount) (previous : Option BlockHash)
    (purpose : Option BlockPurpose) (date : Option BlockTime) (operations : List Operation) :
    Except ClientError Block := do
  let builder : BlockBuilder := {
    network := client.network
    subnet := client.subnet
    account := some account
    operations
    signer := if signer ≠ account then some (.single signer) else none
    purpose
    date := some (date.getD now)
    previous := some (match previous with
      | some hash => .hash hash
      | none => .opening) }
  let unsigned ← (builder.build none).mapError .block
  (unsigned.sign signatureOf).mapError .block

namespace TransactionBuilder

/-- The groups a build takes out of the builder. -/
def takeGroups (builder : TransactionBuilder) : List Group × TransactionBuilder :=
  (builder.queued, { builder with
    groups := []
    current := Group.new builder.primary builder.primary })

/-- What the first block of an account follows: the seed of the primary account, or the
head of the ledger, which `head` is the answer for. -/
def firstPrevious (builder : TransactionBuilder) (account : GenericAccount)
    (head : Except ClientError (Option BlockHash)) : Except ClientError (Option BlockHash) :=
  match builder.initialPrevious with
  | some previous => if account = builder.primary then .ok (some previous) else head
  | none => head

/-- What a build carries from group to group: the last block of each account by address,
and the handles. -/
structure BuildState where
  previousByAccount : List (String × BlockHash) := []
  handles : Handles := []

/-- One turn of the loop of `build`: the block of a group, if it holds operations. -/
def buildGroup (builder : TransactionBuilder)
    (signatureOf : GenericAccount → Bytes → Except AccountError Bytes) (now : BlockTime)
    (head : Except ClientError (Option BlockHash)) (state : BuildState) (group : Group) :
    Except ClientError (BuildState × Option Block) := do
  let accountKey := group.account.toString
  let previous ← match state.previousByAccount.lookup accountKey with
    | some hash => .ok (some hash)
    | none => builder.firstPrevious group.account head
  let (handles, operations) ← renderOps group previous state.handles
  if operations = [] then
    return ({ state with handles }, none)
  let block ← builder.client.sealBlock signatureOf now group.account group.signer previous
    builder.purpose builder.date operations
  return ({ previousByAccount := (accountKey, block.hash) :: state.previousByAccount, handles },
    some block)

/-- The loop of `build` over the groups from a place on. For each place, `now` is the moment
at which the group there is built and `heads` answers for the head of an account. -/
def buildGroups (builder : TransactionBuilder)
    (signatureOf : GenericAccount → Bytes → Except AccountError Bytes) (now : ℕ → BlockTime)
    (heads : ℕ → GenericAccount → Except ClientError (Option BlockHash)) :
    BuildState → ℕ → List Group → Except ClientError (Handles × List Block)
  | state, _, [] => .ok (state.handles, [])
  | state, place, group :: groups => do
    let (state, block) ← builder.buildGroup signatureOf (now place) (heads place group.account)
      state group
    let (handles, blocks) ← buildGroups builder signatureOf now heads state (place + 1) groups
    return (handles, block.toList ++ blocks)

/-- `build`: the blocks of all groups in order, and what the handles hold then. -/
def build (builder : TransactionBuilder)
    (signatureOf : GenericAccount → Bytes → Except AccountError Bytes) (now : ℕ → BlockTime)
    (heads : ℕ → GenericAccount → Except ClientError (Option BlockHash)) (handles : Handles) :
    Except ClientError (Handles × List Block) :=
  builder.buildGroups signatureOf now heads { handles } 0 builder.takeGroups.1

end TransactionBuilder

end Builder

end KeetaNode.Client
