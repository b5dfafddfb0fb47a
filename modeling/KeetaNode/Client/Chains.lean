import KeetaNode.Block.Sealed
import KeetaNode.Client.Builder

/-!
# The chains a builder makes

Whatever is queued and however the builder is switched between accounts, the blocks of one
account that come out of a build form a hash chain on the account's first previous, in the
order of the groups.

- `keetanetwork-client/src/builder.rs`
- `keetanetwork-client/src/client.rs` (`seal_block`)

## Main results

- `queued_assembled`: the groups are what was queued from switch to switch
- `Builds.chain`: the blocks of one account are linked by their hashes
- `wellFormed_of_build`: a build makes well-formed chains
-/

namespace KeetaNode.Client

open ByteCodec
open Asn1 (Tag Asn1Error)

section Groups

variable [Crypto]

/-! ## Calls on a builder -/

/-- A call on a builder: a switch, an operation to be queued, or a setting of all blocks. -/
inductive BuilderCall where
  | forAccount (account : GenericAccount)
  | forAccountWithSigner (account signer : GenericAccount)
  | queue (op : PendingOp)
  | setInfo (info : SetInfo)
  | withPrevious (previous : BlockHash)
  | withPurpose (purpose : BlockPurpose)
  | withDate (date : BlockTime)

namespace BuilderCall

def apply (builder : TransactionBuilder) : BuilderCall → TransactionBuilder
  | forAccount account => builder.forAccount account
  | forAccountWithSigner account signer => builder.forAccountWithSigner account signer
  | queue op => builder.push op
  | setInfo info => builder.setInfo info
  | withPrevious previous => builder.withPrevious previous
  | withPurpose purpose => builder.withPurpose purpose
  | withDate date => builder.withDate date

/-- The account and signer of the group that a switch opens. -/
def switchesTo : BuilderCall → Option (GenericAccount × GenericAccount)
  | forAccount account => some (account, account)
  | forAccountWithSigner account signer => some (account, signer)
  | _ => none

/-- The operations of a group after a call that opens no other. -/
def queueIn (ops : List PendingOp) : BuilderCall → List PendingOp
  | queue op => ops ++ [op]
  | setInfo info => (TransactionBuilder.mergeFirst info ops).getD (ops ++ [.setInfo info])
  | _ => ops

/-- The operation a call queues. -/
def queued : BuilderCall → Option PendingOp
  | queue op => some op
  | setInfo info => some (.setInfo info)
  | _ => none

end BuilderCall

/-- A builder after a sequence of calls. -/
def assembled (client : KeetaClient) (account : GenericAccount) (calls : List BuilderCall) :
    TransactionBuilder :=
  calls.foldl BuilderCall.apply (.new client account)

/-! ## What the groups are -/

/-- The calls from one switch to the next. -/
structure Segment where
  account : GenericAccount
  signer : GenericAccount
  calls : List BuilderCall

/-- What the calls of a segment queue. -/
def Segment.group (segment : Segment) : Group where
  account := segment.account
  signer := segment.signer
  ops := segment.calls.foldl BuilderCall.queueIn []

def segments (account signer : GenericAccount) : List BuilderCall → List Segment
  | [] => [⟨account, signer, []⟩]
  | call :: calls =>
    match call.switchesTo with
    | some (account', signer') => ⟨account, signer, []⟩ :: segments account' signer' calls
    | none => (segments account signer calls).modifyHead fun segment =>
        { segment with calls := call :: segment.calls }

theorem exists_segments_eq_cons (account signer : GenericAccount) (calls : List BuilderCall) :
    ∃ first rest, segments account signer calls = ⟨account, signer, first⟩ :: rest := by
  induction calls with
  | nil => exact ⟨[], [], rfl⟩
  | cons call calls ih =>
    unfold segments
    split
    -- a switch closes the open segment, any other call joins it
    · exact ⟨[], _, rfl⟩
    · obtain ⟨first, rest, h⟩ := ih
      exact ⟨call :: first, rest, by rw [h]; rfl⟩

/-- Every call that is not a switch belongs to one segment. -/
theorem flatMap_calls_segments (account signer : GenericAccount) (calls : List BuilderCall) :
    (segments account signer calls).flatMap Segment.calls =
      calls.filter fun call => call.switchesTo.isNone := by
  induction calls generalizing account signer with
  | nil => rfl
  | cons call calls ih =>
    unfold segments
    split <;> rename_i hswitch
    -- a switch is in no segment
    · simp [hswitch, ih]
    -- any other call is the first of the open segment
    · obtain ⟨first, rest, h⟩ := exists_segments_eq_cons account signer calls
      rw [List.filter_cons_of_pos (by simp [hswitch]), ← ih account signer, h]
      rfl

namespace TransactionBuilder

/-- A call that is not a switch changes the operations of the open group only. -/
theorem groups_apply (builder : TransactionBuilder) {call : BuilderCall}
    (h : call.switchesTo = none) :
    (call.apply builder).groups = builder.groups ∧
      (call.apply builder).current =
        { builder.current with ops := call.queueIn builder.current.ops } := by
  cases call with
  | forAccount account => cases h
  | forAccountWithSigner account signer => cases h
  | setInfo info =>
    -- merged into the first SET_INFO of the group, or queued at its end
    simp only [BuilderCall.apply, TransactionBuilder.setInfo, BuilderCall.queueIn]
    split <;> rename_i hmerge <;> simp [hmerge, push]
  | _ => exact ⟨rfl, rfl⟩

theorem apply_eq_switch {builder : TransactionBuilder} {call : BuilderCall}
    {account signer : GenericAccount} (h : call.switchesTo = some (account, signer)) :
    call.apply builder = builder.switch account signer := by
  cases call <;> cases h <;> rfl

theorem queued_eq (builder : TransactionBuilder) :
    builder.queued = builder.groups ++ [builder.current].filter (·.ops ≠ []) := by
  unfold queued
  split <;> rename_i h <;> simp [h]

/-- The open group goes on with the calls up to the next switch. -/
theorem queued_foldl (builder : TransactionBuilder) {calls first : List BuilderCall}
    {rest : List Segment}
    (h : segments builder.current.account builder.current.signer calls =
      ⟨builder.current.account, builder.current.signer, first⟩ :: rest) :
    (calls.foldl BuilderCall.apply builder).queued = builder.groups ++
      ({ builder.current with ops := first.foldl BuilderCall.queueIn builder.current.ops } ::
        rest.map Segment.group).filter (·.ops ≠ []) := by
  induction calls generalizing builder first rest with
  | nil =>
    obtain ⟨hfirst, rfl⟩ := List.cons.inj h
    obtain rfl : [] = first := by injection hfirst
    exact queued_eq builder
  | cons call calls ih =>
    rw [List.foldl_cons]
    unfold segments at h
    split at h <;> rename_i hswitch
    · -- the open group is complete, and the call opens the next one
      obtain ⟨hfirst, rfl⟩ := List.cons.inj h
      obtain rfl : [] = first := by injection hfirst
      rename_i account signer
      obtain ⟨next, rest, hnext⟩ := exists_segments_eq_cons account signer calls
      rw [apply_eq_switch hswitch, ih (builder.switch account signer) hnext, hnext]
      show builder.queued ++ _ = _
      rw [queued_eq, List.append_assoc, ← List.filter_append]
      rfl
    -- the call is the first of what remains of the open group
    · obtain ⟨next, rest', hnext⟩ := exists_segments_eq_cons builder.current.account
        builder.current.signer calls
      rw [hnext] at h
      obtain ⟨hfirst, rfl⟩ := List.cons.inj h
      obtain rfl : call :: next = first := by injection hfirst
      obtain ⟨hgroups, hcurrent⟩ := groups_apply builder hswitch
      rw [ih (call.apply builder) (by rw [hcurrent]; exact hnext), hgroups, hcurrent]
      rfl

end TransactionBuilder

/-- **The groups are what was queued from switch to switch**, without those that hold
nothing. -/
theorem queued_assembled (client : KeetaClient) (account : GenericAccount)
    (calls : List BuilderCall) :
    (assembled client account calls).queued =
      ((segments account account calls).map Segment.group).filter (·.ops ≠ []) := by
  obtain ⟨first, rest, h⟩ := exists_segments_eq_cons account account calls
  rw [h]
  exact TransactionBuilder.queued_foldl _ h

/-- Whether an operation is a SET_INFO, into which later ones are merged. -/
def PendingOp.isInfo : PendingOp → Bool
  | .setInfo _ => true
  | _ => false

theorem filter_mergeFirst {info : SetInfo} {ops ops' : List PendingOp}
    (h : TransactionBuilder.mergeFirst info ops = some ops') :
    ops'.filter (!·.isInfo) = ops.filter (!·.isInfo) := by
  induction ops generalizing ops' with
  | nil => cases h
  | cons op ops ih =>
    cases op with
    | setInfo existing =>
      -- the first SET_INFO is replaced, and neither is counted
      cases h
      rfl
    | _ =>
      simp only [TransactionBuilder.mergeFirst, Option.map_eq_some_iff] at h
      obtain ⟨merged, hmerged, rfl⟩ := h
      rw [List.filter_cons_of_pos rfl, List.filter_cons_of_pos rfl, ih hmerged]

/-- A group keeps the operations in the order in which they are queued. -/
theorem filter_foldl_queueIn (calls : List BuilderCall) (ops : List PendingOp) :
    (calls.foldl BuilderCall.queueIn ops).filter (!·.isInfo) =
      ops.filter (!·.isInfo) ++ (calls.filterMap BuilderCall.queued).filter (!·.isInfo) := by
  induction calls generalizing ops with
  | nil => simp
  | cons call calls ih =>
    rw [List.foldl_cons, ih]
    cases call with
    | queue op =>
      rw [BuilderCall.queueIn, List.filter_append, List.append_assoc, ← List.filter_append]
      rfl
    | setInfo info =>
      -- merged or queued, a SET_INFO is left out on both sides
      have hinfo : (BuilderCall.queueIn ops (.setInfo info)).filter (!·.isInfo) =
          ops.filter (!·.isInfo) := by
        simp only [BuilderCall.queueIn]
        cases hmerge : TransactionBuilder.mergeFirst info ops with
        | none => simp [PendingOp.isInfo]
        | some merged => exact filter_mergeFirst hmerge
      rw [hinfo]
      rfl
    | _ => rfl

theorem flatMap_ops_filter (groups : List Group) :
    (groups.filter (·.ops ≠ [])).flatMap Group.ops = groups.flatMap Group.ops := by
  induction groups with
  | nil => rfl
  | cons group groups ih =>
    rw [List.flatMap_cons, ← ih]
    by_cases h : group.ops = [] <;> simp [h]

/-- Every operation that is queued belongs to one group. -/
theorem flatMap_ops_assembled (client : KeetaClient) (account : GenericAccount)
    (calls : List BuilderCall) :
    ((assembled client account calls).queued.flatMap Group.ops).filter (!·.isInfo) =
      (calls.filterMap BuilderCall.queued).filter (!·.isInfo) := by
  have hsegment : ∀ segment : Segment, segment.group.ops.filter (!·.isInfo) =
      (segment.calls.filterMap BuilderCall.queued).filter (!·.isInfo) :=
    fun segment => filter_foldl_queueIn segment.calls []
  -- a call that switches queues nothing
  have hqueues : calls.filterMap BuilderCall.queued =
      (calls.filter fun call => call.switchesTo.isNone).filterMap BuilderCall.queued := by
    rw [List.filterMap_filter]
    refine List.filterMap_congr fun call _ => ?_
    cases call <;> rfl
  rw [queued_assembled, flatMap_ops_filter, List.flatMap_map, List.filter_flatMap, hqueues,
    ← flatMap_calls_segments account account, List.filterMap_flatMap, List.filter_flatMap]
  exact List.flatMap_congr fun segment _ => hsegment segment

end Groups

section Chains

variable [Crypto]

/-! ## The blocks of a build -/

namespace TransactionBuilder

variable {builder : TransactionBuilder}
  {heads : ℕ → GenericAccount → Except ClientError (Option BlockHash)}

/-- What the next block of an account follows. -/
def previousOf (builder : TransactionBuilder) (state : BuildState) (account : GenericAccount)
    (head : Except ClientError (Option BlockHash)) : Except ClientError (Option BlockHash) :=
  match state.previousByAccount.lookup account.toString with
  | some hash => .ok (some hash)
  | none => builder.firstPrevious account head

/-- A block of a group: its account, its signer and what its operations render to. -/
structure IsBlockOf (block : Block) (group : Group) (previous : Option BlockHash)
    (handles handles' : Handles) : Prop where
  account_eq : block.data.account = group.account
  signer_eq : block.data.signer = .single group.signer
  previous_eq : block.data.previous = previous.getD group.account.toOpeningHash
  rendered : renderOps group previous handles = .ok (handles', block.data.operations)
  nonempty : block.data.operations ≠ []

/-- The builds that succeed, with the place of the group of each block. -/
inductive Builds (builder : TransactionBuilder)
    (heads : ℕ → GenericAccount → Except ClientError (Option BlockHash)) :
    BuildState → ℕ → List Group → Handles → List (ℕ × Block) → Prop where
  | nil {state place} : Builds builder heads state place [] state.handles []
  | skip {state place group groups previous handles handles' placed}
      (hprevious : builder.previousOf state group.account (heads place group.account) =
        .ok previous)
      (hrendered : renderOps group previous state.handles = .ok (handles, []))
      (hrest : Builds builder heads { state with handles } (place + 1) groups handles' placed) :
      Builds builder heads state place (group :: groups) handles' placed
  | block {state place group groups previous handles handles' block placed}
      (hprevious : builder.previousOf state group.account (heads place group.account) =
        .ok previous)
      (hblock : IsBlockOf block group previous state.handles handles)
      (hrest : Builds builder heads { previousByAccount :=
          (group.account.toString, block.hash) :: state.previousByAccount, handles }
        (place + 1) groups handles' placed) :
      Builds builder heads state place (group :: groups) handles' ((place, block) :: placed)

/-! ## All groups -/

namespace Builds

variable {state : BuildState} {place : ℕ} {groups : List Group} {handles : Handles}
  {placed : List (ℕ × Block)}

theorem le_place (h : Builds builder heads state place groups handles placed) {p : ℕ × Block}
    (hp : p ∈ placed) : place ≤ p.1 := by
  induction h with
  | nil => cases hp
  | skip _ _ _ ih => exact (Nat.le_succ _).trans (ih hp)
  | block _ _ _ ih =>
    -- this block, or one of a later group
    rcases List.mem_cons.mp hp with rfl | hp
    · exact le_rfl
    · exact (Nat.le_succ _).trans (ih hp)

/-- The blocks are in the order of the groups. -/
theorem increasing (h : Builds builder heads state place groups handles placed) :
    (placed.map Prod.fst).Pairwise (· < ·) := by
  induction h with
  | nil => exact .nil
  | skip _ _ _ ih => exact ih
  | block _ _ hrest ih =>
    refine List.pairwise_cons.mpr ⟨fun other hother => ?_, ih⟩
    obtain ⟨p, hp, rfl⟩ := List.mem_map.mp hother
    exact hrest.le_place hp

theorem rendered (h : Builds builder heads state place groups handles placed) {p : ℕ × Block}
    (hp : p ∈ placed) :
    ∃ i group previous handles handles', p.1 = place + i ∧ groups[i]? = some group ∧
      IsBlockOf p.2 group previous handles handles' := by
  induction h with
  | nil => cases hp
  | skip _ _ _ ih =>
    obtain ⟨i, group, previous, handles, handles', hplace, hgroup, hblock⟩ := ih hp
    exact ⟨i + 1, group, previous, handles, handles', by omega, hgroup, hblock⟩
  | block _ hblock _ ih =>
    -- places count from that of the first group
    rcases List.mem_cons.mp hp with rfl | hp
    · exact ⟨0, _, _, _, _, rfl, rfl, hblock⟩
    · obtain ⟨i, group, previous, handles, handles', hplace, hgroup, hother⟩ := ih hp
      exact ⟨i + 1, group, previous, handles, handles', by omega, hgroup, hother⟩

/-- A group without a block renders to nothing. -/
theorem skipped (h : Builds builder heads state place groups handles placed) {i : ℕ}
    {group : Group} (hgroup : groups[i]? = some group) (hplace : place + i ∉ placed.map Prod.fst) :
    ∃ previous handles handles', renderOps group previous handles = .ok (handles', []) := by
  induction h generalizing i with
  | nil => cases hgroup
  | skip _ hrendered _ ih =>
    cases i with
    | zero =>
      cases hgroup
      exact ⟨_, _, _, hrendered⟩
    | succ i => exact ih hgroup (by rwa [Nat.add_right_comm])
  | block _ _ _ ih =>
    cases i with
    -- the first group has a block here
    | zero => exact absurd List.mem_cons_self hplace
    | succ i =>
      refine ih hgroup fun hmem => hplace (List.mem_cons_of_mem _ ?_)
      rwa [Nat.add_right_comm] at hmem

variable [LawfulCrypto]

/-- **The blocks of one account are linked by their hashes**, and the first of them follows
what the account had before. -/
theorem chain (h : Builds builder heads state place groups handles placed)
    (account : GenericAccount) :
    (placed.filter fun p => p.2.data.account = account).IsChain
        (fun a b => b.2.data.previous = a.2.hash) ∧
      ∀ first ∈ (placed.filter fun p => p.2.data.account = account).head?, ∃ previous,
        builder.previousOf state account (heads first.1 account) = .ok previous ∧
          first.2.data.previous = previous.getD account.toOpeningHash := by
  induction h with
  | nil => simp
  | skip _ _ _ ih => exact ih
  | @block state place group groups previous handles handles' block placed hprevious hblock _ ih =>
    obtain ⟨hchain, hfirst⟩ := ih
    by_cases haccount : group.account = account
    · subst haccount
      rw [List.filter_cons_of_pos (by simp [hblock.account_eq])]
      constructor
      · -- the next block of the account finds this one's hash
        refine List.isChain_cons.mpr ⟨fun next hnext => ?_, hchain⟩
        obtain ⟨found, hfound, hnext⟩ := hfirst next hnext
        simp only [previousOf, List.lookup_cons_self] at hfound
        cases hfound
        exact hnext
      -- the first block of the account is this one
      · rintro first hhead
        cases hhead
        exact ⟨previous, hprevious, hblock.previous_eq⟩
    -- a block of another account leaves the chain as it is
    · rw [List.filter_cons_of_neg (by simpa [hblock.account_eq] using haccount)]
      refine ⟨hchain, fun first hhead => ?_⟩
      obtain ⟨found, hfound, hnext⟩ := hfirst first hhead
      refine ⟨found, ?_, hnext⟩
      -- another account has another address
      have haddress : (account.toString == group.account.toString) = false :=
        beq_false_of_ne fun h => haccount (GenericAccount.toString_injective h).symm
      simpa [previousOf, List.lookup_cons, haddress] using hfound

end Builds

/-- Chains of the blocks a builder makes, each with the place of its group. -/
structure WellFormed (builder : TransactionBuilder)
    (heads : ℕ → GenericAccount → Except ClientError (Option BlockHash))
    (placed : List (ℕ × Block)) : Prop where
  /-- The blocks appear in the order of their groups. -/
  increasing : (placed.map Prod.fst).Pairwise (· < ·)
  rendered : ∀ p ∈ placed, ∃ group previous handles handles', builder.queued[p.1]? = some group ∧
    IsBlockOf p.2 group previous handles handles'
  skipped : ∀ place group, builder.queued[place]? = some group → place ∉ placed.map Prod.fst →
    ∃ previous handles handles', renderOps group previous handles = .ok (handles', [])
  /-- Every later block of an account follows the one before. -/
  chained : ∀ account, (placed.filter fun p => p.2.data.account = account).IsChain
    fun a b => b.2.data.previous = a.2.hash
  /-- The first block of an account follows its first previous. -/
  starts : ∀ account, ∀ first ∈ (placed.filter fun p => p.2.data.account = account).head?,
    ∃ previous, builder.firstPrevious account (heads first.1 account) = .ok previous ∧
      first.2.data.previous = previous.getD account.toOpeningHash

end TransactionBuilder

end Chains

section Building

variable [Crypto] [X509] [Tlv Tag Asn1Error]

/-! ## What a build returns -/

/-- The data of the block that is sealed, once its network is known. -/
def KeetaClient.sealedData (client : KeetaClient) (network : Int) (now : BlockTime)
    (account signer : GenericAccount) (previous : Option BlockHash)
    (purpose : Option BlockPurpose) (date : Option BlockTime) (operations : List Operation) :
    BlockData where
  version := .v2
  purpose := purpose.getD .generic
  network
  subnet := client.subnet
  idempotent := none
  date := date.getD now
  account
  signer := .single signer
  previous := previous.getD account.toOpeningHash
  operations

section Sealing

variable {client : KeetaClient}
  {signatureOf : GenericAccount → Bytes → Except AccountError Bytes} {now : BlockTime}
  {account signer : GenericAccount} {previous : Option BlockHash}
  {purpose : Option BlockPurpose} {date : Option BlockTime} {operations : List Operation}

/-- Sealing validates the data and signs them. -/
theorem KeetaClient.sealBlock_eq :
    client.sealBlock signatureOf now account signer previous purpose date operations = (do
      let network ← (BlockBuilder.required .network client.network).mapError .block
      let unsigned ← (UnsignedBlock.ofData (client.sealedData network now account signer previous
        purpose date operations)).mapError .block
      (unsigned.sign signatureOf).mapError .block) := by
  cases hnetwork : client.network with
  | none =>
    simp only [sealBlock, BlockBuilder.build, hnetwork, BlockBuilder.required, ok_bind, error_bind]
    rfl
  | some network =>
    simp only [sealBlock, BlockBuilder.build, hnetwork, BlockBuilder.required, ok_bind]
    -- without a signer of its own the block is signed by the account
    by_cases hsame : signer = account
    · subst hsame
      simp only [ne_eq, not_true, if_false]
      cases previous <;> rfl
    · simp only [ne_eq, hsame, not_false_eq_true, if_true]
      cases previous <;> rfl

/-- A block that was sealed has what it was sealed with. -/
theorem KeetaClient.sealBlock_eq_ok {block : Block}
    (h : client.sealBlock signatureOf now account signer previous purpose date operations =
      .ok block) :
    ∃ network, client.network = some network ∧ block.data =
      client.sealedData network now account signer previous purpose date operations := by
  simp only [sealBlock_eq, bind_eq_ok, mapError_eq_ok, BlockBuilder.required_eq_ok,
    UnsignedBlock.ofData_eq_ok] at h
  obtain ⟨network, hnetwork, unsigned, ⟨hmade, -⟩, hsigned⟩ := h
  obtain ⟨signatures, hsealed⟩ := UnsignedBlock.sealWith_of_sign hsigned
  obtain ⟨hdata, -, -⟩ := Block.ofParts_eq_ok.mp hsealed
  exact ⟨network, hnetwork, by rw [hdata, hmade]⟩

theorem KeetaClient.obtained_of_sealBlock [Asn1.Chrono] {block : Block}
    (h : client.sealBlock signatureOf now account signer previous purpose date operations =
      .ok block) : block.Obtained := by
  simp only [sealBlock_eq, bind_eq_ok, mapError_eq_ok] at h
  obtain ⟨_, -, unsigned, -, hsigned⟩ := h
  exact .signing hsigned

end Sealing

namespace TransactionBuilder

variable {builder : TransactionBuilder}
  {signatureOf : GenericAccount → Bytes → Except AccountError Bytes} {now : ℕ → BlockTime}
  {heads : ℕ → GenericAccount → Except ClientError (Option BlockHash)}

theorem buildGroup_eq {moment : BlockTime} {head : Except ClientError (Option BlockHash)}
    {state : BuildState} {group : Group} :
    builder.buildGroup signatureOf moment head state group = (do
      let previous ← builder.previousOf state group.account head
      let (handles, operations) ← renderOps group previous state.handles
      if operations = [] then
        return ({ state with handles }, none)
      let block ← builder.client.sealBlock signatureOf moment group.account group.signer previous
        builder.purpose builder.date operations
      return ({ previousByAccount :=
          (group.account.toString, block.hash) :: state.previousByAccount, handles },
        some block)) := by
  simp only [buildGroup, previousOf]
  cases state.previousByAccount.lookup group.account.toString <;> rfl

theorem builds_of_buildGroups {state : BuildState} {place : ℕ} {groups : List Group}
    {handles : Handles} {blocks : List Block}
    (h : builder.buildGroups signatureOf now heads state place groups = .ok (handles, blocks)) :
    ∃ placed, placed.map Prod.snd = blocks ∧
      Builds builder heads state place groups handles placed := by
  induction groups generalizing state place blocks with
  | nil =>
    cases h
    exact ⟨[], rfl, .nil⟩
  | cons group groups ih =>
    simp only [buildGroups, bind_eq_ok] at h
    obtain ⟨⟨next, block⟩, hgroup, ⟨handles', rest⟩, hrest, hdone⟩ := h
    cases hdone
    obtain ⟨placed, rfl, hplaced⟩ := ih hrest
    simp only [buildGroup_eq, bind_eq_ok] at hgroup
    obtain ⟨previous, hprevious, ⟨rendered, operations⟩, hrendered, hgroup⟩ := hgroup
    -- a group that renders to nothing leaves no block
    split at hgroup <;> rename_i hempty
    · cases hgroup
      subst hempty
      exact ⟨placed, rfl, .skip hprevious hrendered hplaced⟩
    · simp only [bind_eq_ok] at hgroup
      obtain ⟨block, hblock, hgroup⟩ := hgroup
      cases hgroup
      -- sealing keeps the data, from which the fields of the block are read
      obtain ⟨network, -, hdata⟩ := KeetaClient.sealBlock_eq_ok hblock
      exact ⟨(place, block) :: placed, rfl, .block hprevious {
        account_eq := congrArg BlockData.account hdata
        signer_eq := congrArg BlockData.signer hdata
        previous_eq := congrArg BlockData.previous hdata
        rendered := by
          rw [hdata]
          exact hrendered
        nonempty := by
          rw [hdata]
          exact hempty } hplaced⟩

end TransactionBuilder

/-- **A build makes well-formed chains**, of groups that hold what was queued. -/
theorem wellFormed_of_build [LawfulCrypto] (client : KeetaClient) (account : GenericAccount)
    (calls : List BuilderCall)
    (signatureOf : GenericAccount → Bytes → Except AccountError Bytes) (now : ℕ → BlockTime)
    (heads : ℕ → GenericAccount → Except ClientError (Option BlockHash))
    {filled handles : Handles} {blocks : List Block}
    (h : (assembled client account calls).build signatureOf now heads filled =
      .ok (handles, blocks)) :
    (assembled client account calls).queued =
        ((segments account account calls).map Segment.group).filter (·.ops ≠ []) ∧
      ((assembled client account calls).queued.flatMap Group.ops).filter (!·.isInfo) =
        (calls.filterMap BuilderCall.queued).filter (!·.isInfo) ∧
      ∃ placed, placed.map Prod.snd = blocks ∧
        (assembled client account calls).WellFormed heads placed := by
  refine ⟨queued_assembled client account calls, flatMap_ops_assembled client account calls, ?_⟩
  obtain ⟨placed, hblocks, hbuilds⟩ := TransactionBuilder.builds_of_buildGroups h
  refine ⟨placed, hblocks, {
    increasing := hbuilds.increasing
    rendered := fun p hp => ?_
    skipped := fun place group hgroup hplace =>
      hbuilds.skipped hgroup (by rwa [Nat.zero_add])
    chained := fun account => (hbuilds.chain account).1
    starts := fun account => (hbuilds.chain account).2 }⟩
  obtain ⟨i, group, previous, handles, handles', hplace, hgroup, hblock⟩ := hbuilds.rendered hp
  rw [Nat.zero_add] at hplace
  exact ⟨group, previous, handles, handles', hplace ▸ hgroup, hblock⟩

end Building

/-! ## Samples -/

section Samples

open scoped Reference Asn1.Reference

namespace Sample

open Reference

def token : GenericAccount := identifier .token 0x44 KeyPairType.algorithm_token

def keeta : KeetaClient where
  network := some 0
  subnet := none

def signatureOf (account : GenericAccount) (message : Bytes) : Except AccountError Bytes :=
  signatureBy account.publicKey (hashDefault message).bytes

/-- The token's supply is raised before and after alice's balance. -/
def calls : List BuilderCall :=
  [.forAccountWithSigner token alice, .queue (.modifyTokenSupply 5 .add), .forAccount alice,
    .queue (.modifyTokenBalance (.resolved token) 5 .add), .forAccountWithSigner token alice,
    .queue (.modifyTokenSupply 5 .add)]

/-- The blocks of the calls at an empty ledger. -/
def built : Except ClientError (Handles × List Block) :=
  (assembled keeta alice calls).build signatureOf (fun _ => Asn1.Sample.date)
    (fun _ _ => .ok none) []

end Sample

theorem wellFormed_of_build_sample : ∃ handles blocks, Sample.built = .ok (handles, blocks) ∧
    (assembled Sample.keeta Reference.alice Sample.calls).queued =
        ((segments Reference.alice Reference.alice Sample.calls).map Segment.group).filter
          (·.ops ≠ []) ∧
      ((assembled Sample.keeta Reference.alice Sample.calls).queued.flatMap Group.ops).filter
          (!·.isInfo) =
        (Sample.calls.filterMap BuilderCall.queued).filter (!·.isInfo) ∧
      ∃ placed, placed.map Prod.snd = blocks ∧
        (assembled Sample.keeta Reference.alice Sample.calls).WellFormed (fun _ _ => .ok none)
          placed := by
  obtain ⟨⟨handles, blocks⟩, h⟩ := exists_eq_ok (by decide +kernel : Sample.built.isOk = true)
  exact ⟨handles, blocks, h, wellFormed_of_build Sample.keeta Reference.alice Sample.calls
    Sample.signatureOf (fun _ => Asn1.Sample.date) (fun _ _ => .ok none) h⟩

end Samples

end KeetaNode.Client
