import KeetaNode.Account.Derivation
import KeetaNode.Block.Grants
import KeetaNode.Client.Chains
import KeetaNode.Vote.Activity
import KeetaNode.Vote.Builder

/-!
# The first staple of a network

A network begins with four blocks: those of its own address and of its base token, a block that
credits the minted supply to a recipient, and one that delegates the recipient's weight. They are
bound by a vote that the initial trusted account issues itself.

- `keetanetwork-client/src/genesis.rs`
- `keetanetwork-client/src/client.rs` (`base_addresses`)
- `keetanetwork-account/src/account.rs` (`generate_network_address`)

## Main results

- `baseAddresses_inj`: networks share neither their addresses nor their base tokens
- `initial_staple_spec`: what the first staple holds
- `initial_staple_accepted`: how long peers accept it
-/

namespace KeetaNode.Client

open ByteCodec GenericAccount
open Asn1 (Tag Asn1Error Chrono LawfulChrono OidCodec LawfulOidCodec)

/-! ## Options -/

structure BaseTokenInfo where
  name : String
  currencyCode : String
  decimalPlaces : UInt32
  defaultPermission : Option Permissions

structure BaseNetworkInfo where
  name : Option String := none
  description : Option String := none
  metadata : Option String := none
  defaultPermission : Option Permissions := none

structure InitializeNetwork where
  addSupplyAmount : Int := 0
  voteSerial : Option Int := none
  baseTokenInfo : Option BaseTokenInfo := none
  baseNetworkInfo : Option BaseNetworkInfo := none

/-! ## Addresses -/

section Addresses

variable [Crypto]

/-- `u64::try_from`. -/
def networkId (network : Int) : Option UInt64 :=
  if 0 ≤ network ∧ network < 2 ^ 64 then some (UInt64.ofNat network.toNat) else none

/-- The address of the client's network, and the first token it creates. -/
def KeetaClient.baseAddresses (client : KeetaClient) :
    Except ClientError (GenericAccount × GenericAccount) := do
  let network ← client.network.elim (throw .unsupportedNetwork) pure
  let id ← (networkId network).elim (throw ClientError.unsupportedNetwork) pure
  let address ← (generateNetworkAddress id).mapError ClientError.account
  let token ← (address.generateIdentifier .token none 0).mapError ClientError.account
  return (address, token)

variable {client : KeetaClient} {address token : GenericAccount}

omit [Crypto] in
theorem networkId_eq_some {network : Int} {id : UInt64} :
    networkId network = some id ↔ network = id.toNat := by
  have hid := id.toNat_lt
  simp only [networkId, ← UInt64.toNat_inj, UInt64.toNat_ofNat', Option.ite_none_right_eq_some,
    Option.some.injEq]
  omega

theorem KeetaClient.baseAddresses_eq_ok :
    client.baseAddresses = .ok (address, token) ↔
      ∃ id : UInt64, client.network = some (id.toNat : Int) ∧
        generateNetworkAddress id = .ok address ∧
        address.generateIdentifier .token none 0 = .ok token := by
  simp only [baseAddresses, bind_eq_ok, elim_throw_eq_ok, networkId_eq_some, mapError_eq_ok,
    pure_eq_ok, Except.ok.injEq, Prod.mk.injEq]
  constructor
  · rintro ⟨_, hnetwork, id, rfl, _, haddress, _, htoken, rfl, rfl⟩
    exact ⟨id, hnetwork, haddress, htoken⟩
  · rintro ⟨id, hnetwork, haddress, htoken⟩
    exact ⟨_, hnetwork, id, rfl, _, haddress, _, htoken, rfl, rfl⟩

/-- The address of a network and its base token are identifiers of different kinds. -/
theorem KeetaClient.keyType_of_baseAddresses (h : client.baseAddresses = .ok (address, token)) :
    address.keyType = .network ∧ token.keyType = .token := by
  obtain ⟨id, -, haddress, htoken⟩ := baseAddresses_eq_ok.mp h
  exact ⟨(generateNetworkAddress_eq_ok.mp haddress).1, (generateIdentifier_eq_ok htoken).1⟩

/-- What the addresses of a network are digests of. -/
def KeetaClient.addressInputs (client : KeetaClient) (address : GenericAccount) : List Bytes :=
  ((client.network.bind networkId).map fun id =>
    combineSeedAndIndex (networkSeed id) 0).toList ++ address.derivationInputs none 0

theorem KeetaClient.addressInputs_eq {id : UInt64} (h : client.network = some (id.toNat : Int)) :
    client.addressInputs address =
      [combineSeedAndIndex (networkSeed id) 0, address.seedData none,
        combineSeedAndIndex (hashDefault (address.seedData none)) 0] := by
  rw [addressInputs, h, Option.bind_some, networkId_eq_some.mpr rfl]
  rfl

/-- **Two networks share neither their addresses nor their base tokens**, where the digests of
their inputs do not collide. -/
theorem baseAddresses_inj {client' : KeetaClient} {address' token' : GenericAccount}
    (h : client.baseAddresses = .ok (address, token))
    (h' : client'.baseAddresses = .ok (address', token'))
    (hhash : CollisionFree (client.addressInputs address ++ client'.addressInputs address')) :
    (address = address' ↔ client.network = client'.network) ∧
      (token = token' ↔ client.network = client'.network) := by
  obtain ⟨id, hid, haddress, htoken⟩ := KeetaClient.baseAddresses_eq_ok.mp h
  obtain ⟨id', hid', haddress', htoken'⟩ := KeetaClient.baseAddresses_eq_ok.mp h'
  obtain ⟨hkind, hkey⟩ := generateNetworkAddress_eq_ok.mp haddress
  obtain ⟨hkind', hkey'⟩ := generateNetworkAddress_eq_ok.mp haddress'
  obtain ⟨htyped, hderived⟩ := generateIdentifier_eq_ok htoken
  obtain ⟨htyped', hderived'⟩ := generateIdentifier_eq_ok htoken'
  rw [KeetaClient.addressInputs_eq hid, KeetaClient.addressInputs_eq hid'] at hhash
  have hsame : address = address' ↔ id = id' := by
    constructor
    · rintro rfl
      have hdigest := hhash _ (by simp) _ (by simp) (Octets.ext_bytes (hkey.symm.trans hkey'))
      exact networkSeed_injective (combineSeedAndIndex_inj.mp hdigest).1
    · rintro rfl
      exact ext_typed (hkind.trans hkind'.symm) (hkey.trans hkey'.symm)
  have hminted : token = token' ↔ address = address' := by
    constructor
    · rintro rfl
      -- the outer digest gives the seeds, and the inner one the addresses
      have houter := hhash _ (by simp) _ (by simp)
        (Octets.ext_bytes (hderived.symm.trans hderived'))
      have hinner := hhash _ (by simp) _ (by simp) (combineSeedAndIndex_inj.mp houter).1
      exact (seedData_inj.mp hinner).1
    · rintro rfl
      rw [htoken, Except.ok.injEq] at htoken'
      exact htoken'
  have hnetworks : client.network = client'.network ↔ id = id' := by
    rw [hid, hid', Option.some.injEq, Nat.cast_inj, UInt64.toNat_inj]
  exact ⟨hsame.trans hnetworks.symm, (hminted.trans hsame).trans hnetworks.symm⟩

end Addresses

/-! ## Operations -/

section Operations

/-- A permission set of flags alone. -/
def permissionOf (flags : List BaseFlag) : Except ClientError Permissions :=
  (Permissions.fromFlags flags []).mapError .block

/-- `base64::STANDARD` is a parameter. -/
def tokenMetadata (encode : String → String) (info : BaseTokenInfo) : String :=
  encode ("\x7b\"decimalPlaces\":" ++ toString info.decimalPlaces.toNat ++ "\x7d")

variable [Crypto] (encode : String → String) (trusted : GenericAccount)
  (options : InitializeNetwork)

def ownerPermission : Except ClientError Operation := do
  return .modifyPermissions {
    principal := .account trusted
    method := .set
    permissions := some (← permissionOf [.owner])
    target := none }

def networkAddressOps : Except ClientError (List Operation) := do
  let info := options.baseNetworkInfo.getD {}
  let defaultPermission ← info.defaultPermission.elim (permissionOf [.storageCreate]) pure
  let owner ← ownerPermission trusted
  return [owner, .setInfo {
    name := info.name.getD "KEETANET"
    description := info.description.getD "Network Address For KeetaNet"
    metadata := info.metadata.getD ""
    defaultPermission := some defaultPermission }]

def baseTokenOps : Except ClientError (List Operation) := do
  let given := options.baseTokenInfo.bind BaseTokenInfo.defaultPermission
  let defaultPermission ← given.elim (permissionOf [.access]) pure
  let owner ← ownerPermission trusted
  return [owner,
    .setInfo {
      name := (options.baseTokenInfo.map BaseTokenInfo.currencyCode).getD ""
      description := (options.baseTokenInfo.map BaseTokenInfo.name).getD ""
      metadata := (options.baseTokenInfo.map (tokenMetadata encode)).getD ""
      defaultPermission := some defaultPermission },
    .tokenAdminSupply { amount := options.addSupplyAmount, method := .add }]

def balanceOps (baseToken : GenericAccount) : List Operation :=
  [.tokenAdminModifyBalance
    { token := baseToken, amount := options.addSupplyAmount, method := .add }]

def setRepOps (delegateTo : GenericAccount) : List Operation := [.setRep ⟨delegateTo⟩]

end Operations

/-! ## The staple -/

section Staple

variable [Crypto] [X509] [Tlv Tag Asn1Error] [OidCodec] [NumBigint] [Zlib]

/-- Milliseconds of two hundred years. -/
def permanentSpanMs : Int := 200 * 365 * 86400 * 1000

/-- The vote of the initial trusted account, with the end of its validity by itself. -/
def permanentVote (signForCert : Bytes → Except AccountError Bytes) (start : BlockTime)
    (trusted : GenericAccount) (hashes : List BlockHash) (options : InitializeNetwork) :
    Except VoteBuilderError Vote :=
  let stop := (fromUnixMillis (saturatingAdd (unixMillis start) permanentSpanMs)).getD start
  VoteBuilder.buildSigned {
    issuer := some trusted
    serial := some (options.voteSerial.getD 0)
    validityFrom := some start
    validityTo := some stop
    blocks := hashes } signForCert

/-- What a bootstrap uses: the keys of the accounts, and the clock at each of its readings. -/
structure Bootstrap where
  signatureOf : GenericAccount → Bytes → Except AccountError Bytes
  signForCert : Bytes → Except AccountError Bytes
  clock : ℕ → BlockTime
  encode : String → String

/-- An error of the bootstrap: one of the client, or one of the vote builder. -/
abbrev GenesisError := ClientError ⊕ VoteBuilderError

def generateInitialVoteStaple (bootstrap : Bootstrap) (client : KeetaClient)
    (trusted recipient delegateTo : GenericAccount) (options : InitializeNetwork) :
    Except GenesisError VoteStaple := do
  let sealWith := fun (reading : ℕ) (account signer : GenericAccount)
      (previous : Option BlockHash) (operations : List Operation) =>
    (client.sealBlock bootstrap.signatureOf (bootstrap.clock reading) account signer previous none
      none operations).mapError Sum.inl
  let (networkAddress, baseToken) ← client.baseAddresses.mapError .inl
  let networkOperations ← (networkAddressOps trusted options).mapError .inl
  let networkBlock ← sealWith 0 networkAddress trusted none networkOperations
  let tokenOperations ← (baseTokenOps bootstrap.encode trusted options).mapError .inl
  let baseTokenBlock ← sealWith 1 baseToken trusted none tokenOperations
  let balanceBlock ← sealWith 2 recipient trusted none (balanceOps options baseToken)
  let setRepBlock ← sealWith 3 recipient recipient (some balanceBlock.hash) (setRepOps delegateTo)
  let blocks := [networkBlock, baseTokenBlock, balanceBlock, setRepBlock]
  let vote ← (permanentVote bootstrap.signForCert (bootstrap.clock 4) trusted
    (blocks.map Block.hash) options).mapError .inr
  let staple : VoteStapleBuilder := { blocks, votes := [vote] }
  (staple.build (bootstrap.clock 5)).mapError fun error => .inl (.vote error)

/-! ## What the staple holds -/

/-- What an operation adds to the supply of the account it is issued on. -/
def addsSupply : Operation → Int
  | .tokenAdminSupply operation => if operation.method = .add then operation.amount else 0
  | _ => 0

/-- What an operation adds to a balance of the token. -/
def addsBalance (token : GenericAccount) : Operation → Int
  | .tokenAdminModifyBalance operation =>
    if operation.token = token ∧ operation.method = .add then operation.amount else 0
  | _ => 0

/-- The supply of the token that the blocks add. -/
def addedSupply (token : GenericAccount) (blocks : List Block) : Int :=
  (((blocks.filter fun block => block.data.account = token).flatMap
    (·.data.operations)).map addsSupply).sum

/-- The balances of the token that the blocks add. -/
def addedBalance (token : GenericAccount) (blocks : List Block) : Int :=
  ((blocks.flatMap (·.data.operations)).map (addsBalance token)).sum

variable [Chrono]

/-- The blocks with which a network begins. -/
structure InitialBlocks (client : KeetaClient) (trusted recipient : GenericAccount)
    (options : InitializeNetwork) (blocks : List Block) : Prop where
  obtained : ∀ block ∈ blocks, block.Obtained
  distinct : (blocks.map Block.hash).Nodup
  /-- The trusted account signs for the network, the token and the minted supply, and the
  recipient for its delegation. -/
  signed : ∃ network token, client.baseAddresses = .ok (network, token) ∧
    blocks.map (fun block => (block.data.account, block.data.signer)) =
      [(network, .single trusted), (token, .single trusted), (recipient, .single trusted),
        (recipient, .single recipient)] ∧
    addedSupply token blocks = options.addSupplyAmount
  /-- The trusted account owns what is created. -/
  owned : ∀ block ∈ blocks, block.data.account.keyType.isIdentifier = true →
    ∃ owner, ownerPermission trusted = .ok owner ∧ owner ∈ block.data.operations
  /-- No account has two blocks that follow the same one. -/
  chained : ∀ account, (blocks.filter fun block => block.data.account = account).IsChain
    fun a b => b.data.previous = a.hash
  opens : ∀ account, ∀ first ∈ (blocks.filter fun block => block.data.account = account).head?,
    first.data.previous = account.toOpeningHash
  /-- What is minted of a token is credited. -/
  balanced : ∀ token, addedSupply token blocks = addedBalance token blocks

section Operations

variable {encode : String → String} {trusted : GenericAccount} {options : InitializeNetwork}
  {operations : List Operation}

omit [X509] [Tlv Tag Asn1Error] [OidCodec] [NumBigint] [Zlib] [Chrono] in
theorem networkAddressOps_eq_ok (h : networkAddressOps trusted options = .ok operations) :
    ∃ owner info, ownerPermission trusted = .ok (.modifyPermissions owner) ∧
      operations = [.modifyPermissions owner, .setInfo info] := by
  simp only [networkAddressOps, bind_eq_ok, pure_eq_ok, Except.ok.injEq] at h
  obtain ⟨_, -, owner, howner, rfl⟩ := h
  obtain ⟨_, -, hgiven⟩ := bind_eq_ok.mp howner
  cases hgiven
  exact ⟨_, _, howner, rfl⟩

omit [X509] [Tlv Tag Asn1Error] [OidCodec] [NumBigint] [Zlib] [Chrono] in
theorem baseTokenOps_eq_ok (h : baseTokenOps encode trusted options = .ok operations) :
    ∃ owner info, ownerPermission trusted = .ok (.modifyPermissions owner) ∧
      operations = [.modifyPermissions owner, .setInfo info,
        .tokenAdminSupply ⟨options.addSupplyAmount, .add⟩] := by
  simp only [baseTokenOps, bind_eq_ok, pure_eq_ok, Except.ok.injEq] at h
  obtain ⟨_, -, owner, howner, rfl⟩ := h
  obtain ⟨_, -, hgiven⟩ := bind_eq_ok.mp howner
  cases hgiven
  exact ⟨_, _, howner, rfl⟩

end Operations

variable {bootstrap : Bootstrap} {client : KeetaClient}
  {trusted recipient delegateTo : GenericAccount} {options : InitializeNetwork}
  {staple : VoteStaple}

omit [Chrono] in
/-- What is sealed, voted and stapled. -/
theorem generateInitialVoteStaple_eq_ok
    (h : generateInitialVoteStaple bootstrap client trusted recipient delegateTo options =
      .ok staple) :
    ∃ network token networkOperations tokenOperations networkBlock tokenBlock balanceBlock
        setRepBlock vote,
      client.baseAddresses = .ok (network, token) ∧
      networkAddressOps trusted options = .ok networkOperations ∧
      baseTokenOps bootstrap.encode trusted options = .ok tokenOperations ∧
      client.sealBlock bootstrap.signatureOf (bootstrap.clock 0) network trusted none none none
        networkOperations = .ok networkBlock ∧
      client.sealBlock bootstrap.signatureOf (bootstrap.clock 1) token trusted none none none
        tokenOperations = .ok tokenBlock ∧
      client.sealBlock bootstrap.signatureOf (bootstrap.clock 2) recipient trusted none none none
        (balanceOps options token) = .ok balanceBlock ∧
      client.sealBlock bootstrap.signatureOf (bootstrap.clock 3) recipient recipient
        (some balanceBlock.hash) none none (setRepOps delegateTo) = .ok setRepBlock ∧
      permanentVote bootstrap.signForCert (bootstrap.clock 4) trusted
        ([networkBlock, tokenBlock, balanceBlock, setRepBlock].map Block.hash) options =
          .ok vote ∧
      VoteStaple.tryNew [networkBlock, tokenBlock, balanceBlock, setRepBlock] [vote] .default
        (bootstrap.clock 5) = .ok staple := by
  simp only [generateInitialVoteStaple, bind_eq_ok, mapError_eq_ok] at h
  obtain ⟨⟨network, token⟩, haddresses, networkOperations, hnetworkOps, networkBlock, hnetwork,
    tokenOperations, htokenOps, tokenBlock, htoken, balanceBlock, hbalance, setRepBlock, hsetRep,
    vote, hvote, hstaple⟩ := h
  exact ⟨network, token, networkOperations, tokenOperations, networkBlock, tokenBlock,
    balanceBlock, setRepBlock, vote, haddresses, hnetworkOps, htokenOps, hnetwork, htoken,
    hbalance, hsetRep, hvote, hstaple⟩

/-- The vote with which a network begins. -/
structure InitialVote (trusted : GenericAccount) (start : BlockTime) (hashes : List BlockHash)
    (vote : Vote) : Prop where
  issuer_eq : vote.decoded.issuer = trusted
  blocks_eq : vote.decoded.blocks = hashes
  noFees : vote.decoded.fees = none
  start_eq : vote.decoded.validity.start = start
  stop_eq : unixMillis vote.decoded.validity.stop = unixMillis start + permanentSpanMs

omit [Crypto] [X509] [Tlv Tag Asn1Error] [OidCodec] [NumBigint] [Zlib] [Chrono] in
/-- The span neither saturates nor leaves the calendar. -/
theorem exists_spanEnd {start : BlockTime} (h : start.HasFourDigitYear) :
    ∃ stop, fromUnixMillis (saturatingAdd (unixMillis start) permanentSpanMs) = some stop ∧
      unixMillis stop = unixMillis start + permanentSpanMs := by
  have hstart := yearMillis_le_unixMillis start
  have hend := unixMillis_lt_yearMillis start
  have hfirst := yearMillis_mono h.1
  have hlast := yearMillis_mono (show start.year + 1 ≤ 10000 by have := h.2; omega)
  have hzero : yearMillis 0 = -62167219200000 := by decide
  have hmax : yearMillis 10000 = 253402300800000 := by decide
  have hspan : permanentSpanMs = 6307200000000 := by decide
  have hexact : saturatingAdd (unixMillis start) permanentSpanMs =
      unixMillis start + permanentSpanMs := by
    unfold saturatingAdd saturate
    omega
  obtain ⟨stop, hstop⟩ := exists_fromUnixMillis
    (show -8 * 10 ^ 15 ≤ unixMillis start + permanentSpanMs ∧
      unixMillis start + permanentSpanMs ≤ 8 * 10 ^ 15 from ⟨by omega, by omega⟩)
  rw [hexact]
  exact ⟨stop, hstop, unixMillis_of_fromUnixMillis hstop⟩

omit [X509] [Zlib] in
theorem initialVote_of_permanentVote {signForCert : Bytes → Except AccountError Bytes}
    {start : BlockTime} {hashes : List BlockHash} {vote : Vote}
    (h : permanentVote signForCert start trusted hashes options = .ok vote) :
    InitialVote trusted start hashes vote := by
  obtain ⟨unsigned, hunsigned, hsigned, hissuer, hvalidity, hblocks, hfees⟩ :=
    VoteBuilder.buildSigned_eq_ok h
  obtain ⟨-, hgiven, hstart, hstop, -, -, -, hlisted, hnone⟩ :=
    VoteBuilder.buildUnsigned_eq_ok.mp hunsigned
  have hstart := (Option.some.inj hstart).symm
  -- a vote that was signed begins in a year of four digits
  have hyear : vote.decoded.validity.start.HasFourDigitYear :=
    Vote.Obtained.hasFourDigitYear (.inr ⟨unsigned, signForCert, hsigned⟩)
  rw [hvalidity, hstart] at hyear
  obtain ⟨stop, hend, hmillis⟩ := exists_spanEnd hyear
  rw [VoteBuilder.validityEnd, if_neg Bool.false_ne_true, VoteBuilder.required_eq_ok, hend,
    Option.getD_some, Option.some.injEq] at hstop
  exact {
    issuer_eq := hissuer.trans (Option.some.inj hgiven).symm
    blocks_eq := hblocks.trans hlisted
    noFees := hfees.trans hnone
    start_eq := by rw [hvalidity, hstart]
    stop_eq := by rw [hvalidity, ← hstop, hmillis] }

section Blocks

variable [LawfulCrypto] {network token : GenericAccount}
  {networkOperations tokenOperations : List Operation}
  {networkBlock tokenBlock balanceBlock setRepBlock : Block}

omit [X509] [Tlv Tag Asn1Error] [OidCodec] [NumBigint] [Zlib] [Chrono] [LawfulCrypto] in
/-- The blocks of one account among the four. -/
theorem filter_initial (hnetwork : networkBlock.data.account = network)
    (htoken : tokenBlock.data.account = token) (hbalance : balanceBlock.data.account = recipient)
    (hsetRep : setRepBlock.data.account = recipient) (hkinds : network ≠ token)
    (hkeyed : network ≠ recipient ∧ token ≠ recipient) (account : GenericAccount) :
    ([networkBlock, tokenBlock, balanceBlock, setRepBlock].filter fun block =>
        block.data.account = account) =
      if account = network then [networkBlock] else if account = token then [tokenBlock]
      else if account = recipient then [balanceBlock, setRepBlock] else [] := by
  simp only [List.filter_cons, List.filter_nil, hnetwork, htoken, hbalance, hsetRep,
    decide_eq_true_eq]
  by_cases hfirst : account = network
  · subst hfirst
    simp [hkinds.symm, hkeyed.1.symm]
  · by_cases hsecond : account = token
    · subst hsecond
      simp [hfirst, hkinds, hkeyed.2.symm]
    · by_cases hthird : account = recipient
      · simp [Ne.symm hfirst, Ne.symm hsecond, hfirst, hsecond, hthird.symm]
      · simp [Ne.symm hfirst, Ne.symm hsecond, Ne.symm hthird, hfirst, hsecond, hthird]

omit [OidCodec] [NumBigint] [Zlib] in
/-- Only an account with a key can sign a block. -/
theorem isIdentifier_of_sealBlock
    {signatureOf : GenericAccount → Bytes → Except AccountError Bytes} {now : BlockTime}
    {account signer : GenericAccount} {previous : Option BlockHash}
    {purpose : Option BlockPurpose} {date : Option BlockTime} {operations : List Operation}
    {block : Block}
    (h : client.sealBlock signatureOf now account signer previous purpose date operations =
      .ok block) : signer.keyType.isIdentifier = false := by
  obtain ⟨_, hchecked⟩ := (KeetaClient.obtained_of_sealBlock h).checked
  obtain ⟨_, -, hdata⟩ := KeetaClient.sealBlock_eq_ok h
  have hleaves := keyedLeaves_of_verified hchecked.verified
  rw [hdata] at hleaves
  have hkeyed := hleaves signer (List.mem_singleton_self signer)
  cases hkind : signer.keyType <;> rw [hkind] at hkeyed <;> first | rfl | cases hkeyed

omit [OidCodec] [NumBigint] [Zlib] in
theorem initialBlocks_of_sealed (haddresses : client.baseAddresses = .ok (network, token))
    (hnetworkOps : networkAddressOps trusted options = .ok networkOperations)
    (htokenOps : baseTokenOps bootstrap.encode trusted options = .ok tokenOperations)
    (hnetwork : client.sealBlock bootstrap.signatureOf (bootstrap.clock 0) network trusted none
      none none networkOperations = .ok networkBlock)
    (htoken : client.sealBlock bootstrap.signatureOf (bootstrap.clock 1) token trusted none none
      none tokenOperations = .ok tokenBlock)
    (hbalance : client.sealBlock bootstrap.signatureOf (bootstrap.clock 2) recipient trusted none
      none none (balanceOps options token) = .ok balanceBlock)
    (hsetRep : client.sealBlock bootstrap.signatureOf (bootstrap.clock 3) recipient recipient
      (some balanceBlock.hash) none none (setRepOps delegateTo) = .ok setRepBlock)
    (hnodup : ([networkBlock, tokenBlock, balanceBlock, setRepBlock].map Block.hash).Nodup) :
    InitialBlocks client trusted recipient options
      [networkBlock, tokenBlock, balanceBlock, setRepBlock] := by
  obtain ⟨networkOwner, networkInfo, hnetworkOwner, rfl⟩ := networkAddressOps_eq_ok hnetworkOps
  obtain ⟨tokenOwner, tokenInfo, htokenOwner, rfl⟩ := baseTokenOps_eq_ok htokenOps
  obtain ⟨_, -, hnetworkData⟩ := KeetaClient.sealBlock_eq_ok hnetwork
  obtain ⟨_, -, htokenData⟩ := KeetaClient.sealBlock_eq_ok htoken
  obtain ⟨_, -, hbalanceData⟩ := KeetaClient.sealBlock_eq_ok hbalance
  obtain ⟨_, -, hsetRepData⟩ := KeetaClient.sealBlock_eq_ok hsetRep
  obtain ⟨hnetworkKind, htokenKind⟩ := KeetaClient.keyType_of_baseAddresses haddresses
  -- the recipient is neither the network nor the token, since it signs its delegation
  have hkeyed := isIdentifier_of_sealBlock hsetRep
  have hkinds : network ≠ token := by
    intro heq
    rw [heq, htokenKind] at hnetworkKind
    cases hnetworkKind
  have hidentifiers : network ≠ recipient ∧ token ≠ recipient := by
    refine ⟨?_, ?_⟩ <;> intro heq <;> subst heq
    · rw [hnetworkKind] at hkeyed
      cases hkeyed
    · rw [htokenKind] at hkeyed
      cases hkeyed
  have hfilter : ∀ account, _ = _ := filter_initial
    (show networkBlock.data.account = network from congrArg BlockData.account hnetworkData)
    (show tokenBlock.data.account = token from congrArg BlockData.account htokenData)
    (show balanceBlock.data.account = recipient from congrArg BlockData.account hbalanceData)
    (show setRepBlock.data.account = recipient from congrArg BlockData.account hsetRepData)
    hkinds hidentifiers
  have hsupply : ∀ account, addedSupply account
      [networkBlock, tokenBlock, balanceBlock, setRepBlock] =
        if account = token then options.addSupplyAmount else 0 := by
    intro account
    rw [addedSupply, hfilter]
    by_cases hfirst : account = network
    · subst hfirst
      simp [hnetworkData, KeetaClient.sealedData, addsSupply, hkinds]
    · by_cases hsecond : account = token
      · simp [hsecond, htokenData, KeetaClient.sealedData, addsSupply, hkinds.symm]
      · by_cases hthird : account = recipient
        · simp [hthird, hidentifiers.1.symm, hidentifiers.2.symm, hbalanceData, hsetRepData,
            KeetaClient.sealedData, addsSupply, balanceOps, setRepOps]
        · simp [hfirst, hsecond, hthird]
  have hbalances : ∀ account, addedBalance account
      [networkBlock, tokenBlock, balanceBlock, setRepBlock] =
        if account = token then options.addSupplyAmount else 0 := by
    intro account
    simp [addedBalance, hnetworkData, htokenData, hbalanceData, hsetRepData,
      KeetaClient.sealedData, addsBalance, balanceOps, setRepOps, eq_comm]
  refine {
    obtained := ?_
    distinct := hnodup
    signed := ⟨network, token, haddresses, ?_, by rw [hsupply, if_pos rfl]⟩
    owned := ?_
    chained := fun account => ?_
    opens := fun account first hfirst => ?_
    balanced := fun account => (hsupply account).trans (hbalances account).symm }
  · simp only [List.forall_mem_cons, List.not_mem_nil, false_imp_iff, implies_true, and_true]
    exact ⟨KeetaClient.obtained_of_sealBlock hnetwork, KeetaClient.obtained_of_sealBlock htoken,
      KeetaClient.obtained_of_sealBlock hbalance, KeetaClient.obtained_of_sealBlock hsetRep⟩
  · simp [hnetworkData, htokenData, hbalanceData, hsetRepData, KeetaClient.sealedData]
  · simp only [List.forall_mem_cons, List.not_mem_nil, false_imp_iff, implies_true, and_true,
      hnetworkData, htokenData, hbalanceData, hsetRepData, KeetaClient.sealedData, hkeyed,
      Bool.false_eq_true]
    exact ⟨fun _ => ⟨_, hnetworkOwner, by simp⟩, fun _ => ⟨_, htokenOwner, by simp⟩⟩
  · rw [hfilter]
    split_ifs <;> simp [hsetRepData, KeetaClient.sealedData]
  · rw [hfilter] at hfirst
    split_ifs at hfirst with hsame hsame hsame <;> cases hfirst <;> subst hsame
    · rw [hnetworkData]
      rfl
    · rw [htokenData]
      rfl
    · rw [hbalanceData]
      rfl

end Blocks

/-- **A network begins with chains of its own, an owner and a balanced supply**: whatever the
options, the first staple has the four blocks in order, and its only vote is that of the trusted
account. -/
theorem initial_staple_spec [LawfulCrypto]
    (h : generateInitialVoteStaple bootstrap client trusted recipient delegateTo options =
      .ok staple) :
    InitialBlocks client trusted recipient options staple.blocks ∧
      ∃ vote, staple.votes = [vote] ∧
        InitialVote trusted (bootstrap.clock 4) (staple.blocks.map Block.hash) vote := by
  obtain ⟨network, token, networkOperations, tokenOperations, networkBlock, tokenBlock,
    balanceBlock, setRepBlock, vote, haddresses, hnetworkOps, htokenOps, hnetwork, htoken,
    hbalance, hsetRep, hvote, hstaple⟩ := generateInitialVoteStaple_eq_ok h
  obtain ⟨hsound, hnodup, hperm, hvotes, -⟩ := VoteStaple.tryNew_eq_ok.mp hstaple
  have hinitial := initialVote_of_permanentVote hvote
  have hsingle : staple.votes = [vote] := by
    rw [hvotes]
    exact List.perm_singleton.mp (sortVotes_perm [vote])
  -- the blocks are in the order of the vote
  have hblocks : staple.blocks = [networkBlock, tokenBlock, balanceBlock, setRepBlock] := by
    obtain ⟨_, hall⟩ := hsound.endorsed
    have hlisted := (hall vote (by rw [hsingle]; exact List.mem_singleton_self vote)).blocks_eq
    exact ByteCodec.eq_of_map_eq (.refl _) ((hperm.map _).nodup_iff.mp hnodup) hperm
      (hlisted.symm.trans hinitial.blocks_eq)
  rw [hblocks] at hnodup ⊢
  exact ⟨initialBlocks_of_sealed haddresses hnetworkOps htokenOps hnetwork htoken hbalance hsetRep
    hnodup, vote, hsingle, hinitial⟩

variable [LawfulTlv Tag Asn1Error] [LawfulCrypto] [LawfulX509] [LawfulChrono] [LawfulOidCodec]
  [LawfulNumBigint]

omit [X509] [LawfulX509] [Zlib] in
theorem verify_of_permanentVote {signForCert : Bytes → Except AccountError Bytes}
    {start : BlockTime} {hashes : List BlockHash} {vote : Vote}
    (h : permanentVote signForCert start trusted hashes options = .ok vote)
    (hsignature : vote.verifySignature = .ok ()) : Vote.verify vote.serialized = .ok vote := by
  obtain ⟨unsigned, hunsigned, hsigned, -, -, -, -⟩ := VoteBuilder.buildSigned_eq_ok h
  obtain ⟨-, -, -, -, hrange, -, -, -, hnone⟩ := VoteBuilder.buildUnsigned_eq_ok.mp hunsigned
  exact Vote.verify_of_sign hsigned hrange hnone hsignature

/-- **Peers accept the first staple for two hundred years**, with the blocks as they are on the
wire, and take its vote for a permanent one until the threshold before the end. -/
theorem initial_staple_accepted [LawfulZlib]
    (h : generateInitialVoteStaple bootstrap client trusted recipient delegateTo options =
      .ok staple)
    (hsignature : ∀ vote ∈ staple.votes, vote.verifySignature = .ok ())
    (config : VoteConfig) (moment : BlockTime) :
    (VoteStaple.verify staple.compressedBytes config moment =
        .ok { staple with blocks := staple.blocks.map Block.onWire } ↔
      unixMillis (bootstrap.clock 4) - config.allowedSlopMs ≤ unixMillis moment ∧
        unixMillis moment ≤
          unixMillis (bootstrap.clock 4) + permanentSpanMs + config.allowedSlopMs) ∧
    ∀ vote ∈ staple.votes, (vote.isPermanentAt moment config = true ↔
      unixMillis moment + config.permanentVoteThresholdMs <
        unixMillis (bootstrap.clock 4) + permanentSpanMs) := by
  obtain ⟨network, token, networkOperations, tokenOperations, networkBlock, tokenBlock,
    balanceBlock, setRepBlock, vote, haddresses, hnetworkOps, htokenOps, hnetwork, htoken,
    hbalance, hsetRep, hvote, hstaple⟩ := generateInitialVoteStaple_eq_ok h
  obtain ⟨hsound, -, hperm, hvotes, hcanonical, hdeflate⟩ := VoteStaple.tryNew_eq_ok.mp hstaple
  obtain ⟨_, hall⟩ := hsound.endorsed
  have hinitial := initialVote_of_permanentVote hvote
  have hsingle : staple.votes = [vote] := by
    rw [hvotes]
    exact List.perm_singleton.mp (sortVotes_perm [vote])
  rw [hsingle, List.forall_mem_singleton] at hall hsignature
  have hactive : vote.decoded.validity.ActiveAt moment config ↔
      unixMillis (bootstrap.clock 4) - config.allowedSlopMs ≤ unixMillis moment ∧
        unixMillis moment ≤
          unixMillis (bootstrap.clock 4) + permanentSpanMs + config.allowedSlopMs := by
    rw [Validity.ActiveAt, hinitial.start_eq, hinitial.stop_eq]
  constructor
  · rw [← hactive]
    constructor
    · intro haccepted
      obtain ⟨-, -, -, haccepted⟩ := VoteStaple.verify_eq_ok.mp haccepted
      obtain ⟨_, hall⟩ := haccepted.endorsed
      exact Validity.ensureActiveAt_eq_ok.mp (hall vote (by simp [hsingle])).active
    · intro hactive
      refine VoteStaple.verify_deflated ⟨hsound.votes_ne_nil, hsound.blocks_ne_nil,
        hsound.issuers_nodup, ⟨vote.isPermanentAt moment config, ?_⟩, hsound.sorted⟩ ?_ ?_
        hcanonical hdeflate
      · -- the only vote agrees with itself about its permanence
        rw [hsingle, List.forall_mem_singleton]
        exact {
          notQuote := hall.notQuote
          active := Validity.ensureActiveAt_eq_ok.mpr hactive
          blocks_eq := hall.blocks_eq
          permanent_eq := rfl
          noFees := fun _ => hinitial.noFees }
      · intro block hblock
        have hmem := hperm.mem_iff.mp hblock
        simp only [List.mem_cons, List.not_mem_nil, or_false] at hmem
        apply Block.Obtained.checked
        rcases hmem with rfl | rfl | rfl | rfl
        · exact KeetaClient.obtained_of_sealBlock hnetwork
        · exact KeetaClient.obtained_of_sealBlock htoken
        · exact KeetaClient.obtained_of_sealBlock hbalance
        · exact KeetaClient.obtained_of_sealBlock hsetRep
      · rw [hsingle, List.forall_mem_singleton]
        exact verify_of_permanentVote hvote hsignature
  · rw [hsingle, List.forall_mem_singleton, Vote.isPermanentAt, Validity.isPermanentAt_iff,
      hinitial.stop_eq]

end Staple

section Samples

open scoped Reference Asn1.Reference

namespace Begun

open Reference

/-! ### Values of the primitives -/

/-- The seeds of two networks, and the blocks of one. -/
def genesisDigests : List (Nat × Nat) :=
  [(join [
      0x1000000000000000000000000000000000000000000000000000000000000000000000000],
      0x372d46c3ada9f897c74d349bbfe0e450c798167c9f580f8daf85def57e96c3ea),
   (0x1372d46c3ada9f897c74d349bbfe0e450c798167c9f580f8daf85def57e96c3ea,
      0x294c218ab5662a9a53d3fc6387f7e58edab87404281b7d3fb98947df080c852a),
   (join [
      0x102372d46c3ada9f897c74d349bbfe0e450c798167c9f580f8d,
      0xaf85def57e96c3ea294c218ab5662a9a53d3fc6387f7e58edab87404281b7d3fb98947df080c852a],
      0xdf4e8772020ad5dd19d06c76b523d25cb34b1360ae8da6dea0ff33913e6c1c2d),
   (join [
      0x1df4e8772020ad5dd19d06c76b523d25cb34b1360ae8da6dea0ff33913e6c1c2d00000000],
      0x86d4c707f2a29f28f50027d3ad1e1fb0054f303feca9b5a5462f15fb885395d1),
   (join [
      0x1a181f130,
      0x81ee020100181332303235303130323033303430352e3530305a020100042102372d46c3ada9f897,
      0xc74d349bbfe0e450c798167c9f580f8daf85def57e96c3ea042101d75a980182b10ab7d54bfed3c9,
      0x64073a0ee172f3daa62325af021a68f707511a0420294c218ab5662a9a53d3fc6387f7e58edab874,
      0x04281b7d3fb98947df080c852a3069a330302e042101d75a980182b10ab7d54bfed3c964073a0ee1,
      0x72f3daa62325af021a68f707511a0201023006020103020100a23530330c084b454554414e45540c,
      0x1c4e6574776f726b204164647265737320466f72204b656574614e65740c00300702020101020100],
      0xef0475ee0d27ba15a317797363d677a80f293bf8e1a11739c69d8c7d58af1999),
   (join [
      0x102372d46c3ada9f897c74d349bbfe0e450c798167c9f580f8daf85def57e96c3ea],
      0x27c28f54b1b11c75a82b54327eae5598974bdf0386bbd2ee0dbcbe538c612f27),
   (0x1ef0475ee0d27ba15a317797363d677a80f293bf8e1a11739c69d8c7d58af1999,
      0xe6aa9acc446ddc85b1016d3022f1a4feeb6950dc6c32c275ef6fc83d54a0a93f),
   (0x186d4c707f2a29f28f50027d3ad1e1fb0054f303feca9b5a5462f15fb885395d1,
      0x29690da4d40c56e5b023882c2684c1e7ebb79f7cfa358534dac937be1cf61cfa),
   (join [
      0x1a181d73081d4020100181332303235303130,
      0x323033303430352e3530305a02010004210386d4c707f2a29f28f50027d3ad1e1fb0054f303feca9,
      0xb5a5462f15fb885395d1042101d75a980182b10ab7d54bfed3c964073a0ee172f3daa62325af021a,
      0x68f707511a042029690da4d40c56e5b023882c2684c1e7ebb79f7cfa358534dac937be1cf61cfa30,
      0x4fa330302e042101d75a980182b10ab7d54bfed3c964073a0ee172f3daa62325af021a68f707511a,
      0x0201023006020103020100a210300e0c000c000c003006020101020100a5093007020203e8020100],
      0x23de445ff99335b89a15a3ec900552ec3fa4f557bc4c103d6beaca5136c9914a),
   (join [
      0x10386d4c707f2a29f28f50027d3ad1e1fb0054f303feca9b5a5462f15fb885395d1],
      0x349a2bab1073afdd06bfb92d2690f01e114aa0a02d264525161ed83f6bd3f0c0),
   (0x123de445ff99335b89a15a3ec900552ec3fa4f557bc4c103d6beaca5136c9914a,
      0x482ba78de90fddeca312f2f18ef867709b2385a36999c80d52bc987107bdd34f),
   (join [
      0x1a181b63081b302010018133230323530313032303330343035,
      0x2e3530305a0201000421013d4017c3e843895a92b70aa74d1b7ebc9c982ccf2ec4968cc0cd55f12a,
      0xf4660c042101d75a980182b10ab7d54bfed3c964073a0ee172f3daa62325af021a68f707511a0420,
      0xb4f403514003c9ce67e0c3552e21ebfde117f88a550a03f1a387bfb495c0a35d302ea62c302a0421,
      0x0386d4c707f2a29f28f50027d3ad1e1fb0054f303feca9b5a5462f15fb885395d1020203e8020100],
      0xeff48aae6d4149760a52fa33ecba320ac17328da2377c1995e8d758493a67118),
   (0x1eff48aae6d4149760a52fa33ecba320ac17328da2377c1995e8d758493a67118,
      0xf10eac963b932b732c18e8bab905601546605d3799ac17547b313e36dc08458f),
   (join [
      0x1a1818e30818b02010018133230323530313032303330343035,
      0x2e3530305a0201000421013d4017c3e843895a92b70aa74d1b7ebc9c982ccf2ec4968cc0cd55f12a,
      0xf4660c05000420eff48aae6d4149760a52fa33ecba320ac17328da2377c1995e8d758493a6711830,
      0x27a1253023042101d75a980182b10ab7d54bfed3c964073a0ee172f3daa62325af021a68f707511a],
      0x0ad7950afcd299cb26b320fc72c46079d2f042320758c6cc25b92131ccbc14c6),
   (0x10ad7950afcd299cb26b320fc72c46079d2f042320758c6cc25b92131ccbc14c6,
      0xe6377d698b7347f480270e8e504c10eb4d9e976b5759b36dc2ec95968d5cb0d4),
   (join [
      0x1000000000000000000000000000000000000000000000000000000000000000100000000],
      0x95dda1bd1ad645e4da93eefea3d215b2716081824ad5c4be9d9d366b9bb1235d),
   (0x195dda1bd1ad645e4da93eefea3d215b2716081824ad5c4be9d9d366b9bb1235d,
      0xe05cd36e050ad3e8c38a8060603fc9aadccea73d051017e4ae5a13f758344ead),
   (join [
      0x10295dda1bd1ad645e4da93eefea3d215b2716081824ad5c4be,
      0x9d9d366b9bb1235de05cd36e050ad3e8c38a8060603fc9aadccea73d051017e4ae5a13f758344ead],
      0x4d5653ecc8f49bd0ab1fbcafd57bf1619bd7dc25c899b266d8cbc6a8cbebc223),
   (join [
      0x14d5653ecc8f49bd0ab1fbcafd57bf1619bd7dc25c899b266d8cbc6a8cbebc22300000000],
      0xb8cc2ae4eb0efaf023bab0bd91cb6eb5ebcce7377cf1ff9b4ff9fc4817a70f97)]

/-- Alice signs for the network, and bob for himself. -/
def genesisSignatures : List (Bytes × Nat × Nat) :=
  [(aliceKey, 0x1e6aa9acc446ddc85b1016d3022f1a4feeb6950dc6c32c275ef6fc83d54a0a93f,
    join [
      0x159285889dd1f521d826fc9291830f4e238934c360925c8fa,
      0xa5c5b66879fafee3fd546196097927d7641b009f51cddc58a18123fbb69bf6fd366adc981e411e08]),
   (aliceKey, 0x1482ba78de90fddeca312f2f18ef867709b2385a36999c80d52bc987107bdd34f,
    join [
      0x1834a1da84971d9a9adc210199cf9cffea67aa1070560f1d4,
      0xf6d72d4a6a7ef24fa7a1021ee0d2eb91d289699d122117c44ea4ea9a2043bba09fa99f6f083e6a01]),
   (aliceKey, 0x1f10eac963b932b732c18e8bab905601546605d3799ac17547b313e36dc08458f,
    join [
      0x13121fc43b7f8206a3fb43f5d452ec1ca3e793e02b9e8b6af,
      0x236af00c1519580ef58b1e40d684bf7672fd73f31349b7ba0a1199b3799e970d9cb5457d70231c06]),
   (bobKey, 0x1e6377d698b7347f480270e8e504c10eb4d9e976b5759b36dc2ec95968d5cb0d4,
    join [
      0x149166f8b966b40e00e0115ae72652a2f52a70ae508cdc985,
      0x09e7d64b9e6a7c4a8090d6a8a6f9554c4f2504ff51b4c1e4ffd6df10a008253a24511300f5ebae09]),
   (aliceKey, join [
      0x13082017ba003020102020100300506032b6570304e314c,
      0x304a06035504030c436b656574615f61686c7676676162716b7971766e36766a70376e68736c6561,
      0x34356135796c7336706e6b6d697a667634626275326878613569727572626f7237627434302a1813,
      0x32303235303130323033303430352e3530305a181332323234313131353033303430352e3530305a,
      0x300c310a300806035504050c0130302a300506032b6570032100d75a980182b10ab7d54bfed3c964,
      0x073a0ee172f3daa62325af021a68f707511aa381b33081b03081ad06096086480165030301030101,
      0xff04819ca0819930819606096086480165030402083081880420ef0475ee0d27ba15a317797363d6,
      0x77a80f293bf8e1a11739c69d8c7d58af1999042023de445ff99335b89a15a3ec900552ec3fa4f557,
      0xbc4c103d6beaca5136c9914a0420eff48aae6d4149760a52fa33ecba320ac17328da2377c1995e8d,
      0x758493a6711804200ad7950afcd299cb26b320fc72c46079d2f042320758c6cc25b92131ccbc14c6],
    join [
      0x1f0b8c1f295154cb957dc5e57827e0c5bf337062c958cecdf,
      0xf3f4519e863698ae32125f3d8ab8c5d063409ac44a90abe6ac22e34f3564755a4e0ce6652ab4170b])]

theorem length_digest (digest : Nat) : (octets 32 digest).length = 32 := length_octets 32 digest

/-- The primitives at the points where this sample uses them. -/
scoped instance (priority := 2000) genesisCrypto : Crypto :=
  { Reference.crypto with
    sha3_256 := fun message =>
      match genesisDigests.lookup (numberOf message) with
      | some digest => ⟨octets 32 digest, length_digest digest⟩
      | none => digestOf message
    verifies := fun a publicKey message signature =>
      a = .ed25519 && genesisSignatures.contains (publicKey, numberOf message, numberOf signature) }

scoped instance (priority := 2000) lawfulGenesisCrypto : LawfulCrypto where
  base32Decode_encode := base32Decode_base32Encode
  k256Compressed_compressed h := by cases h
  p256Accepts_length h := by cases h

def genesisSignatureBy (key message : Bytes) : Except AccountError Bytes :=
  match genesisSignatures.find? (fun entry => entry.1 = key ∧ entry.2.1 = numberOf message) with
  | some entry => .ok (octets 64 entry.2.2)
  | none => .error .invalidConstruction

/-! ### A network -/

def founder : GenericAccount := ⟨.ed25519, aliceKey, ⟨aliceKey, by decide +kernel⟩⟩

def holder : GenericAccount := ⟨.ed25519, bobKey, ⟨bobKey, by decide +kernel⟩⟩

def founding : Bootstrap where
  signatureOf := fun account message =>
    genesisSignatureBy account.publicKey (hashDefault message).bytes
  signForCert := genesisSignatureBy aliceKey
  clock := fun _ => Asn1.Sample.date
  encode := id

/-- Alice's network: bob gets a thousand coins, and delegates to alice. -/
def begun : Except GenesisError VoteStaple :=
  generateInitialVoteStaple founding ⟨some 0, none⟩ founder holder founder
    { addSupplyAmount := 1000 }

theorem exists_begun :
    ∃ staple, begun = .ok staple ∧ ∀ vote ∈ staple.votes, vote.verifySignature = .ok () := by
  obtain ⟨⟨⟩, h⟩ := exists_eq_ok (by decide +kernel : (do
    let staple ← begun
    rejectIf (∃ vote ∈ staple.votes, vote.verifySignature ≠ Except.ok ())
      (.inl .unsupportedNetwork : GenesisError)).isOk = true)
  simp only [bind_eq_ok, rejectIf_eq_ok, not_exists, not_and, not_not] at h
  exact h

end Begun

open Begun

/-- The addresses of two networks. -/
theorem baseAddresses_inj_sample :
    ∃ address token address' token',
      KeetaClient.baseAddresses ⟨some 0, none⟩ = .ok (address, token) ∧
      KeetaClient.baseAddresses ⟨some 1, none⟩ = .ok (address', token') ∧
      address ≠ address' ∧ token ≠ token' := by
  obtain ⟨⟨⟩, h⟩ := exists_eq_ok (by decide +kernel : (do
    let first ← KeetaClient.baseAddresses ⟨some 0, none⟩
    let second ← KeetaClient.baseAddresses ⟨some 1, none⟩
    let inputs := KeetaClient.addressInputs ⟨some 0, none⟩ first.1 ++
      KeetaClient.addressInputs ⟨some 1, none⟩ second.1
    rejectIf (¬ ∀ x ∈ inputs, ∀ y ∈ inputs, hashDefault x = hashDefault y → x = y)
      ClientError.unsupportedNetwork).isOk = true)
  simp only [bind_eq_ok, rejectIf_eq_ok, not_not] at h
  obtain ⟨⟨address, token⟩, hfirst, ⟨address', token'⟩, hsecond, hhash⟩ := h
  obtain ⟨haddress, htoken⟩ := baseAddresses_inj hfirst hsecond hhash
  refine ⟨address, token, address', token', hfirst, hsecond, ?_, ?_⟩
  · rw [Ne, haddress]
    decide
  · rw [Ne, htoken]
    decide

/-- A thousand coins are minted, and a thousand are credited. -/
theorem initial_staple_spec_sample :
    ∃ staple token, begun = .ok staple ∧ addedSupply token staple.blocks = 1000 ∧
      addedBalance token staple.blocks = 1000 := by
  obtain ⟨staple, h, -⟩ := exists_begun
  obtain ⟨hblocks, -⟩ := initial_staple_spec h
  obtain ⟨_, token, -, -, hsupply⟩ := hblocks.signed
  exact ⟨staple, token, h, hsupply, (hblocks.balanced token).symm.trans hsupply⟩

/-- The staple is accepted at once. -/
theorem initial_staple_accepted_sample :
    ∃ staple, begun = .ok staple ∧
      VoteStaple.verify staple.compressedBytes .default Asn1.Sample.date =
        .ok { staple with blocks := staple.blocks.map Block.onWire } := by
  obtain ⟨staple, h, hsignature⟩ := exists_begun
  obtain ⟨haccepted, -⟩ := initial_staple_accepted h hsignature .default Asn1.Sample.date
  refine ⟨staple, h, haccepted.mpr ?_⟩
  decide +kernel

end Samples

end KeetaNode.Client
