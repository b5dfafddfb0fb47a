import KeetaNode.Client.Chains
import KeetaNode.Client.Rendering

/-!
# Identifiers of a transaction

A builder derives identifiers by the place of a create among the creates of its group, the
validation of a block by its place among all operations. Creates are rendered first, so
that the two agree, and each handle comes to hold the identifier of its own create.

- `keetanetwork-client/src/builder.rs` (`push_create`, `render_ops`)
- `keetanetwork-block/src/operation/create_identifier.rs`

## Main results

- `issued_of_prepared`: the handles of a builder are distinct and not filled yet
- `identifiers_agree`: a group's handles hold the identifiers its block is accepted with
-/

namespace KeetaNode.Client

open ByteCodec
open Asn1 (Tag Asn1Error)

section Handles

variable [Crypto]

/-! ## Handles that are given out -/

def Group.creates (group : Group) : List QueuedCreate := group.ops.filterMap PendingOp.create

namespace TransactionBuilder

/-- The creates whose handles were given out and not rendered yet. -/
def waiting (builder : TransactionBuilder) : List QueuedCreate :=
  (builder.groups ++ [builder.current]).flatMap Group.creates

theorem flatMap_creates_queued (builder : TransactionBuilder) :
    builder.queued.flatMap Group.creates = builder.waiting := by
  rw [queued_eq, waiting, List.flatMap_append, List.flatMap_append]
  by_cases hempty : builder.current.ops = [] <;> simp [hempty, Group.creates]

theorem waiting_switch (builder : TransactionBuilder) (account signer : GenericAccount) :
    (builder.switch account signer).waiting = builder.waiting := by
  -- a switch queues the open group and opens one that holds nothing
  rw [← flatMap_creates_queued builder, waiting, List.flatMap_append]
  simp [switch, Group.new, Group.creates]

theorem waiting_push (builder : TransactionBuilder) (op : PendingOp) :
    (builder.push op).waiting = builder.waiting ++ op.create.toList := by
  cases hop : op.create <;> simp [waiting, push, Group.creates, hop]

theorem filterMap_create_mergeFirst {info : SetInfo} {ops ops' : List PendingOp}
    (h : mergeFirst info ops = some ops') :
    ops'.filterMap PendingOp.create = ops.filterMap PendingOp.create := by
  induction ops generalizing ops' with
  | nil => cases h
  | cons op ops ih =>
    cases op with
    | setInfo existing =>
      cases h
      rfl
    | _ =>
      simp only [mergeFirst, Option.map_eq_some_iff] at h
      obtain ⟨merged, hmerged, rfl⟩ := h
      rw [List.filterMap_cons, List.filterMap_cons, ih hmerged]

/-- No call but that for an identifier gives out a handle. -/
theorem waiting_apply (builder : TransactionBuilder) {call : BuilderCall}
    (hcall : ∀ op ∈ call.queued, op.create = none) :
    (call.apply builder).waiting = builder.waiting := by
  cases call with
  | forAccount account => exact waiting_switch builder account account
  | forAccountWithSigner account signer => exact waiting_switch builder account signer
  | queue op =>
    have hop := hcall op rfl
    rw [BuilderCall.apply, waiting_push, hop, Option.toList_none, List.append_nil]
  | setInfo info =>
    simp only [BuilderCall.apply, setInfo]
    -- the SET_INFO is merged into another or queued, and neither is a create
    split <;> rename_i hmerge
    · simp [waiting, Group.creates, filterMap_create_mergeFirst hmerge]
    · rw [waiting_push]
      exact List.append_nil _
  | withPrevious previous => rfl
  | withPurpose purpose => rfl
  | withDate date => rfl

theorem handleCount_apply (builder : TransactionBuilder) (call : BuilderCall) :
    (call.apply builder).handleCount = builder.handleCount := by
  cases call with
  | setInfo info =>
    simp only [BuilderCall.apply, setInfo]
    split <;> rfl
  | _ => rfl

/-- A builder as its methods leave it, and what the handles hold. -/
inductive Prepared : TransactionBuilder → Handles → Prop
  | new {client : KeetaClient} {account : GenericAccount} : Prepared (.new client account) []
  | call {builder : TransactionBuilder} {filled : Handles} (h : Prepared builder filled)
      {call : BuilderCall} (hcall : ∀ op ∈ call.queued, op.create = none) :
      Prepared (call.apply builder) filled
  | generateIdentifier {builder : TransactionBuilder} {filled : Handles}
      (h : Prepared builder filled) {keyType : KeyPairType}
      {createArguments : Option IdentifierCreateArguments} :
      Prepared (builder.generateIdentifier keyType createArguments).2 filled
  /-- A build, whatever becomes of it, fills handles that were given out. -/
  | taken {builder : TransactionBuilder} {filled filled' : Handles} (h : Prepared builder filled)
      (hfilled : ∀ handle account, filled'.lookup handle = some account →
        handle.number < builder.handleCount) :
      Prepared builder.takeGroups.2 filled'

/-- The handles of the waiting creates are distinct, and not filled yet. -/
structure Issued (builder : TransactionBuilder) (filled : Handles) : Prop where
  nodup : (builder.waiting.map QueuedCreate.handle).Nodup
  waiting_below : ∀ c ∈ builder.waiting, c.handle.number < builder.handleCount
  unfilled : ∀ c ∈ builder.waiting, filled.lookup c.handle = none
  filled_below : ∀ handle account, filled.lookup handle = some account →
    handle.number < builder.handleCount

/-- **Every handle is given out once**, and is filled by no build before that of its group. -/
theorem issued_of_prepared {builder : TransactionBuilder} {filled : Handles}
    (h : Prepared builder filled) : Issued builder filled := by
  induction h with
  | new => exact ⟨.nil, by simp [waiting, TransactionBuilder.new, Group.new, Group.creates],
      by simp [waiting, TransactionBuilder.new, Group.new, Group.creates], by simp⟩
  | @call builder filled h call hcall ih =>
    have hwaiting := waiting_apply builder hcall
    have hcount := handleCount_apply builder call
    exact ⟨hwaiting ▸ ih.nodup, by rw [hwaiting, hcount]; exact ih.waiting_below,
      by rw [hwaiting]; exact ih.unfilled, by rw [hcount]; exact ih.filled_below⟩
  | @generateIdentifier builder filled h keyType createArguments ih =>
    have hwaiting : (builder.generateIdentifier keyType createArguments).2.waiting =
        builder.waiting ++ [⟨keyType, createArguments, ⟨builder.handleCount⟩⟩] :=
      waiting_push builder (.createIdentifier keyType createArguments ⟨builder.handleCount⟩)
    -- the number of the new handle is not below itself
    have hnew : ∀ c ∈ builder.waiting, c.handle ≠ ⟨builder.handleCount⟩ := by
      intro c hc hsame
      have hbelow := ih.waiting_below c hc
      rw [hsame] at hbelow
      exact Nat.lt_irrefl _ hbelow
    refine ⟨?_, ?_, ?_, fun handle account hheld => ?_⟩
    · rw [hwaiting, List.map_append, List.nodup_append]
      refine ⟨ih.nodup, by simp, ?_⟩
      intro a ha b hb
      obtain ⟨c, hc, rfl⟩ := List.mem_map.mp ha
      rw [List.map_singleton, List.mem_singleton] at hb
      exact hb ▸ hnew c hc
    · rw [hwaiting, List.forall_mem_append]
      exact ⟨fun c hc => Nat.lt_succ_of_lt (ih.waiting_below c hc), by
        simp [TransactionBuilder.generateIdentifier]⟩
    · rw [hwaiting, List.forall_mem_append]
      refine ⟨ih.unfilled, ?_⟩
      rw [List.forall_mem_singleton]
      cases hheld : filled.lookup ⟨builder.handleCount⟩ with
      -- whatever is filled has a number below the one given out now
      | none => rfl
      | some account => exact absurd (ih.filled_below _ _ hheld) (Nat.lt_irrefl _)
    · exact Nat.lt_succ_of_lt (ih.filled_below handle account hheld)
  | taken h hfilled ih =>
    -- a build takes all groups, so that no create is waiting
    refine ⟨.nil, ?_, ?_, hfilled⟩ <;> simp [waiting, takeGroups, Group.new, Group.creates]

end TransactionBuilder

/-! ## What rendering fills -/

theorem lookup_fill_of_ne {handle pending : PendingAccount} {account : GenericAccount}
    {handles : Handles} (hne : handle ≠ pending) :
    (pending.fill account handles).lookup handle = handles.lookup handle := by
  unfold PendingAccount.fill
  split
  · rfl
  · rw [List.lookup_cons, beq_false_of_ne hne]

theorem lookup_fill_self {pending : PendingAccount} {account : GenericAccount} {handles : Handles}
    (hunfilled : handles.lookup pending = none) :
    (pending.fill account handles).lookup pending = some account := by
  rw [PendingAccount.fill, hunfilled]
  exact List.lookup_cons_self

theorem Fills.lookup_of_ne {handles handles' : Handles} {op : PendingOp}
    (h : Fills handles op handles') {handle : PendingAccount}
    (hne : ∀ c ∈ op.create, handle ≠ c.handle) :
    handles'.lookup handle = handles.lookup handle := by
  cases h with
  | kept => rfl
  | filled => exact lookup_fill_of_ne (hne _ rfl)

theorem kind_ne_create {op : PendingOp} (h : op.create = none) : op.kind ≠ some .create := by
  intro hkind
  cases op with
  | createIdentifier keyType createArguments handle => cases h
  | send recipient token amount external =>
    simp only [PendingOp.kind] at hkind
    split at hkind
    · cases hkind
    · split at hkind <;> cases hkind
  | receive sender token amount isExact forward =>
    simp only [PendingOp.kind] at hkind
    split at hkind <;> cases hkind
  | _ => cases hkind

namespace RenderBuckets

variable {group : Group} {derivePrevious : Option BlockHash} {handles final : Handles}
  {buckets buckets' : RenderBuckets} {ops : List PendingOp}

/-- Handles of other creates are left alone. -/
theorem lookup_foldlM
    (h : ops.foldlM (pushOp group derivePrevious) (handles, buckets) = .ok (final, buckets'))
    {handle : PendingAccount} (hne : ∀ c ∈ ops.filterMap PendingOp.create, handle ≠ c.handle) :
    final.lookup handle = handles.lookup handle := by
  induction ops generalizing handles buckets with
  | nil =>
    cases h
    rfl
  | cons op ops ih =>
    obtain ⟨⟨handles₁, buckets₁⟩, hop, hops⟩ := foldlM_cons_eq_ok.mp h
    obtain ⟨hfills, -⟩ := pushOp_cases hop
    -- the handle belongs neither to this operation nor to a later one
    have hfirst : ∀ c ∈ op.create, handle ≠ c.handle := by
      intro c hc
      exact hne c (List.mem_filterMap.mpr ⟨op, List.mem_cons_self, hc⟩)
    have hrest : ∀ c ∈ ops.filterMap PendingOp.create, handle ≠ c.handle := by
      intro c hc
      obtain ⟨other, hother, hcreate⟩ := List.mem_filterMap.mp hc
      exact hne c (List.mem_filterMap.mpr ⟨other, List.mem_cons_of_mem op hother, hcreate⟩)
    rw [ih hops hrest, hfills.lookup_of_ne hfirst]

/-- A step that creates nothing leaves the creates and all handles alone. -/
theorem pushOp_of_create_eq_none {op : PendingOp} (hop : op.create = none) {handles' : Handles}
    (h : pushOp group derivePrevious (handles, buckets) op = .ok (handles', buckets')) :
    handles' = handles ∧ buckets'.creates = buckets.creates := by
  obtain ⟨hfills, hstages⟩ := pushOp_cases h
  constructor
  · cases hfills with
    | kept => rfl
    | filled => cases hop
  -- only a create is staged among the creates
  · show buckets'.bucket .create = buckets.bucket .create
    cases hstages with
    | dropped => rfl
    | staged hkind _ _ =>
      refine bucket_stage_of_ne fun hsame => kind_ne_create hop ?_
      rw [hkind, hsame]
    | added => exact bucket_addAggregated (by decide)

/-- **The creates of a group are rendered in order**, each derived at its place and held by its
handle, when the handles are distinct and not filled yet. -/
theorem creates_foldlM
    (h : ops.foldlM (pushOp group derivePrevious) (handles, buckets) = .ok (final, buckets'))
    (hnodup : ((ops.filterMap PendingOp.create).map QueuedCreate.handle).Nodup)
    (hunfilled : ∀ c ∈ ops.filterMap PendingOp.create, handles.lookup c.handle = none) :
    buckets.creates <+: buckets'.creates ∧
      ∀ i c, (ops.filterMap PendingOp.create)[i]? = some c → ∃ identifier,
        group.account.generateIdentifier c.keyType derivePrevious
            (UInt32.ofNat (buckets.creates.length + i)) = .ok identifier ∧
          buckets'.creates[buckets.creates.length + i]? =
            some (.createIdentifier { identifier, createArguments := c.createArguments }) ∧
          final.lookup c.handle = some identifier := by
  induction ops generalizing handles buckets with
  | nil =>
    cases h
    exact ⟨List.prefix_rfl, by simp⟩
  | cons op ops ih =>
    obtain ⟨⟨handles₁, buckets₁⟩, hop, hops⟩ := foldlM_cons_eq_ok.mp h
    cases hcreate : op.create with
    | none =>
      -- the creates that follow keep their places
      obtain ⟨rfl, hcreates⟩ := pushOp_of_create_eq_none hcreate hop
      rw [List.filterMap_cons_none hcreate] at hnodup hunfilled ⊢
      rw [← hcreates]
      exact ih hops hnodup hunfilled
    | some first =>
      rw [List.filterMap_cons_some hcreate] at hnodup hunfilled ⊢
      cases op <;> cases hcreate
      rename_i keyType createArguments handle
      obtain ⟨identifier, hidentifier, rfl, rfl⟩ := pushCreate_eq_ok.mp hop
      obtain ⟨hother, hnodup⟩ := List.nodup_cons.mp hnodup
      obtain ⟨hfirst, hunfilled⟩ := List.forall_mem_cons.mp hunfilled
      -- the fill of this handle leaves those of the later creates empty
      have hstill : ∀ c ∈ ops.filterMap PendingOp.create,
          (handle.fill identifier handles).lookup c.handle = none := by
        intro c hc
        rw [lookup_fill_of_ne, hunfilled c hc]
        rintro rfl
        exact hother (List.mem_map.mpr ⟨c, hc, rfl⟩)
      obtain ⟨hextends, hrest⟩ := ih hops hnodup hstill
      -- handles are never emptied, so that this one is still held at the end
      obtain ⟨hgrow, -⟩ := bucket_foldlM hops
      refine ⟨(List.prefix_append _ _).trans hextends, fun i c hc => ?_⟩
      cases i with
      | zero =>
        cases hc
        refine ⟨identifier, hidentifier, ?_, hgrow handle identifier (lookup_fill_self hfirst)⟩
        -- later creates are staged behind this one
        obtain ⟨later, hlater⟩ := hextends
        rw [← hlater]
        simp [stage]
      | succ i =>
        -- the places of the later creates are counted from one more
        have hlength : (buckets.stage (.createIdentifier { identifier, createArguments })
            .create).creates.length + i = buckets.creates.length + (i + 1) := by
          simp [stage]
          omega
        have hnext := hrest i c hc
        rwa [hlength] at hnext

/-- The creates come first. -/
theorem creates_prefix_intoOperations : buckets.creates <+: buckets.intoOperations := by
  simp only [intoOperations, List.append_assoc]
  exact List.prefix_append _ _

end RenderBuckets

/-! ## Groups in turn -/

/-- What rendering a group does to its own handles and to those of others. -/
theorem lookup_renderOps {group : Group} {previous : Option BlockHash} {handles final : Handles}
    {ops : List Operation} (h : renderOps group previous handles = .ok (final, ops))
    {handle : PendingAccount} (hne : ∀ c ∈ group.creates, handle ≠ c.handle) :
    final.lookup handle = handles.lookup handle := by
  simp only [renderOps, bind_eq_ok] at h
  obtain ⟨⟨_, buckets⟩, hfold, hdone⟩ := h
  cases hdone
  exact RenderBuckets.lookup_foldlM hfold hne

/-- Groups rendered one after the other, each on some previous block. -/
inductive RendersInTurn : Handles → List Group → Handles → Prop
  | nil {handles : Handles} : RendersInTurn handles [] handles
  | cons {handles middle final : Handles} {group : Group} {groups : List Group}
      {previous : Option BlockHash} {ops : List Operation}
      (h : renderOps group previous handles = .ok (middle, ops))
      (hrest : RendersInTurn middle groups final) : RendersInTurn handles (group :: groups) final

theorem RendersInTurn.lookup {handles final : Handles} {groups : List Group}
    (h : RendersInTurn handles groups final) {handle : PendingAccount}
    (hne : ∀ group ∈ groups, ∀ c ∈ group.creates, handle ≠ c.handle) :
    final.lookup handle = handles.lookup handle := by
  induction h with
  | nil => rfl
  | cons h _ ih =>
    obtain ⟨hfirst, hrest⟩ := List.forall_mem_cons.mp hne
    rw [ih hrest, lookup_renderOps h hfirst]

/-- **When a group's turn comes its handles are distinct and empty.** -/
theorem fresh_of_prepared {builder : TransactionBuilder} {filled handles : Handles}
    (hbuilder : builder.Prepared filled) {before after : List Group} {group : Group}
    (hqueued : builder.queued = before ++ group :: after)
    (hbefore : RendersInTurn filled before handles) :
    (group.creates.map QueuedCreate.handle).Nodup ∧
      ∀ c ∈ group.creates, handles.lookup c.handle = none := by
  have hissued := TransactionBuilder.issued_of_prepared hbuilder
  have hwaiting : builder.waiting = before.flatMap Group.creates ++
      (group.creates ++ after.flatMap Group.creates) := by
    rw [← TransactionBuilder.flatMap_creates_queued, hqueued, List.flatMap_append,
      List.flatMap_cons]
  have hnodup := hissued.nodup
  rw [hwaiting, List.map_append, List.map_append, List.nodup_append] at hnodup
  obtain ⟨-, hown, hdisjoint⟩ := hnodup
  refine ⟨(List.nodup_append.mp hown).1, fun c hc => ?_⟩
  -- an earlier group fills its own handles, from which this one differs
  rw [hbefore.lookup, hissued.unfilled c]
  · rw [hwaiting]
    exact List.mem_append_right _ (List.mem_append_left _ hc)
  · intro earlier hearlier other hother hsame
    exact hdisjoint _ (List.mem_map_of_mem (List.mem_flatMap.mpr ⟨earlier, hearlier, hother⟩)) _
      (List.mem_append_left _ (List.mem_map_of_mem hc)) hsame.symm

/-! ## The validation of a create -/

/-- What is left of the check of a create after its derivation. -/
def CreateIdentifier.checkRest (ctx : OperationContext) (operation : CreateIdentifier) :
    Except BlockError Unit := do
  rejectIf (operation.createArguments.isSome ≠ decide (operation.identifier.keyType = .multisig))
    .invalidCreateIdentifierArguments
  operation.checkArguments ctx

theorem isIdentifier_of_generateIdentifier {account derived : GenericAccount}
    {identifierType : KeyPairType} {blockHash : Option BlockHash} {operationIndex : UInt32}
    (h : account.generateIdentifier identifierType blockHash operationIndex = .ok derived) :
    derived.keyType.isIdentifier = true := by
  rw [(GenericAccount.generateIdentifier_eq_ok h).1]
  simp only [GenericAccount.generateIdentifier, bind_eq_ok, rejectIf_eq_ok] at h
  obtain ⟨-, hidentifier, -⟩ := h
  simpa using hidentifier

/-- An identifier that is derived again passes the derivation check. -/
theorem validate_eq_checkRest {ctx : OperationContext} {operation : CreateIdentifier}
    (haccount : ctx.account.keyType.isIdentifier = false)
    (hderived : ctx.account.generateIdentifier operation.identifier.keyType (derivationHash ctx)
      (UInt32.ofNat ctx.operationIndex) = .ok operation.identifier) :
    operation.validate ctx = CreateIdentifier.checkRest ctx operation := by
  -- the checks in front ask for an account and for an identifier, in this order
  have hidentifier := isIdentifier_of_generateIdentifier hderived
  simp only [CreateIdentifier.validate, hderived, asAccountError, haccount, hidentifier, ok_bind,
    Bool.false_eq_true, Bool.true_eq_false, rejectIf_neg not_false, accountsEqual,
    beq_self_eq_true]
  rfl

/-- The builder and the validation derive after the same hash. -/
theorem derivationHash_eq {ctx : OperationContext} {previous : Option BlockHash}
    (hprevious : ctx.previous = previous.getD ctx.account.toOpeningHash) :
    derivationHash ctx = previous.filter (· ≠ ctx.account.toOpeningHash) := by
  unfold derivationHash
  cases previous with
  | none =>
    rw [hprevious]
    simp
  | some hash =>
    rw [hprevious, Option.getD_some]
    -- the opening hash stands for no previous block in both
    by_cases hopening : hash = ctx.account.toOpeningHash <;> simp [Option.filter, hopening]

/-! ## Agreement -/

/-- What the digests of a group's identifiers are taken of. -/
def Group.identifierInputs (group : Group) (previous : Option BlockHash) : List Bytes :=
  (List.range group.creates.length).map fun i =>
    GenericAccount.combineSeedAndIndex (hashDefault (group.account.seedData previous))
      (UInt32.ofNat i)

theorem seedData_filter (account : GenericAccount) (previous : Option BlockHash) :
    account.seedData (previous.filter (· ≠ account.toOpeningHash)) = account.seedData previous := by
  cases previous with
  | none => rfl
  | some hash =>
    by_cases hopening : hash = account.toOpeningHash <;>
      simp [Option.filter, hopening, GenericAccount.seedData, GenericAccount.effectivePrevious]

/-- The creates of a group that is rendered with fresh handles. -/
theorem creates_renderOps {group : Group} {previous : Option BlockHash} {handles final : Handles}
    {ops : List Operation} (h : renderOps group previous handles = .ok (final, ops))
    (hnodup : (group.creates.map QueuedCreate.handle).Nodup)
    (hunfilled : ∀ c ∈ group.creates, handles.lookup c.handle = none) {i : ℕ} {c : QueuedCreate}
    (hc : group.creates[i]? = some c) :
    ∃ identifier, group.account.generateIdentifier c.keyType
          (previous.filter (· ≠ group.account.toOpeningHash)) (UInt32.ofNat i) = .ok identifier ∧
      ops[i]? = some (.createIdentifier { identifier, createArguments := c.createArguments }) ∧
      c.handle.get final = .ok identifier := by
  simp only [renderOps, bind_eq_ok] at h
  obtain ⟨⟨_, buckets⟩, hfold, hdone⟩ := h
  cases hdone
  obtain ⟨-, hcreates⟩ := RenderBuckets.creates_foldlM hfold hnodup hunfilled
  obtain ⟨identifier, hderived, hcreate, hheld⟩ := hcreates i c hc
  rw [List.length_nil, Nat.zero_add] at hderived hcreate
  refine ⟨identifier, hderived, ?_, ?_⟩
  -- the creates come first in the block, so that they have the same places there
  · obtain ⟨rest, hrest⟩ := buckets.creates_prefix_intoOperations
    rw [← hrest, List.getElem?_append_left (List.getElem?_eq_some_iff.mp hcreate).1]
    exact hcreate
  · rw [PendingAccount.get, hheld]

end Handles

section Agreement

variable [Crypto]

/-- **The builder and the validation derive the same identifiers.** When a group of a builder is
rendered, each of its creates is at its place in the block, passes the derivation check
there, and is what its handle holds; handles of one group hold distinct keys. -/
theorem identifiers_agree {builder : TransactionBuilder} {filled handles final : Handles}
    (hbuilder : builder.Prepared filled) {before after : List Group} {group : Group}
    (hqueued : builder.queued = before ++ group :: after)
    (hbefore : RendersInTurn filled before handles) {previous : Option BlockHash}
    {ops : List Operation} (h : renderOps group previous handles = .ok (final, ops))
    (haccount : group.account.keyType.isIdentifier = false) :
    (∀ (i : ℕ) (c : QueuedCreate), group.creates[i]? = some c → ∃ identifier,
        c.handle.get final = .ok identifier ∧
        ops[i]? = some (.createIdentifier { identifier, createArguments := c.createArguments }) ∧
        ∀ (client : KeetaClient) network now purpose date config,
          let data := client.sealedData network now group.account group.signer previous purpose
            date ops
          let create : CreateIdentifier := { identifier, createArguments := c.createArguments }
          create.validate (data.operationContext config i) =
            CreateIdentifier.checkRest (data.operationContext config i) create) ∧
      (group.creates.length ≤ 2 ^ 32 → CollisionFree (group.identifierInputs previous) →
        ∀ (i j : ℕ) (a b : QueuedCreate), i ≠ j → group.creates[i]? = some a →
          group.creates[j]? = some b → ∀ x y, a.handle.get final = .ok x →
            b.handle.get final = .ok y → x.publicKey ≠ y.publicKey) := by
  obtain ⟨hnodup, hunfilled⟩ := fresh_of_prepared hbuilder hqueued hbefore
  constructor
  · intro i c hc
    obtain ⟨identifier, hderived, hop, hheld⟩ := creates_renderOps h hnodup hunfilled hc
    refine ⟨identifier, hheld, hop, fun client network now purpose date config => ?_⟩
    -- what was derived in rendering is derived again in the validation
    apply validate_eq_checkRest haccount
    rw [derivationHash_eq rfl, (GenericAccount.generateIdentifier_eq_ok hderived).1]
    exact hderived
  · intro hcount hfree i j a b hne ha hb x y hx hy hkeys
    -- both keys are digests of the group's seed and a place
    have hkey : ∀ {i : ℕ} {c : QueuedCreate} {z : GenericAccount},
        group.creates[i]? = some c → c.handle.get final = .ok z → z.publicKey =
          (hashDefault (GenericAccount.combineSeedAndIndex
            (hashDefault (group.account.seedData previous)) (UInt32.ofNat i))).bytes := by
      intro i c z hc hz
      obtain ⟨identifier, hderived, -, hheld⟩ := creates_renderOps h hnodup hunfilled hc
      rw [hheld, Except.ok.injEq] at hz
      rw [← hz, (GenericAccount.generateIdentifier_eq_ok hderived).2, seedData_filter]
    have hi := (List.getElem?_eq_some_iff.mp ha).1
    have hj := (List.getElem?_eq_some_iff.mp hb).1
    rw [hkey ha hx, hkey hb hy] at hkeys
    -- equal digests have equal inputs, and these end with the places
    have hinputs := hfree _ (List.mem_map_of_mem (List.mem_range.mpr hi)) _
      (List.mem_map_of_mem (List.mem_range.mpr hj)) (Octets.ext_bytes hkeys)
    have hindex := (GenericAccount.combineSeedAndIndex_inj.mp hinputs).2
    have hnat := congrArg UInt32.toNat hindex
    -- places below 2 ^ 32 are not truncated
    rw [UInt32.toNat_ofNat_of_lt' (by show i < 2 ^ 32; omega),
      UInt32.toNat_ofNat_of_lt' (by show j < 2 ^ 32; omega)] at hnat
    exact hne hnat

end Agreement

/-! ## Samples -/

section Samples

open scoped Reference

namespace Sample

open Reference

def oneToken : TransactionBuilder :=
  ((TransactionBuilder.new keeta alice).generateIdentifier .token none).2

def twoTokens : TransactionBuilder := (oneToken.generateIdentifier .token none).2

theorem prepared_twoTokens : twoTokens.Prepared [] := .generateIdentifier (.generateIdentifier .new)

end Sample

/-- The handles of two tokens hold different keys. -/
theorem identifiers_agree_sample : ∃ final ops,
    renderOps Sample.twoTokens.current none [] = .ok (final, ops) ∧
      ∃ x y, (⟨0⟩ : PendingAccount).get final = .ok x ∧ (⟨1⟩ : PendingAccount).get final = .ok y ∧
        x.publicKey ≠ y.publicKey := by
  have hok : (renderOps Sample.twoTokens.current none []).isOk = true := by decide +kernel
  obtain ⟨⟨final, ops⟩, h⟩ := exists_eq_ok hok
  have hqueued : Sample.twoTokens.queued = [] ++ Sample.twoTokens.current :: [] := rfl
  obtain ⟨hagree, hdistinct⟩ :=
    identifiers_agree Sample.prepared_twoTokens hqueued .nil h rfl
  obtain ⟨x, hx, -⟩ := hagree 0 ⟨.token, none, ⟨0⟩⟩ rfl
  obtain ⟨y, hy, -⟩ := hagree 1 ⟨.token, none, ⟨1⟩⟩ rfl
  exact ⟨final, ops, h, x, y, hx, hy, hdistinct (by decide) (by decide +kernel) 0 1 _ _ (by decide)
    rfl rfl x y hx hy⟩

end Samples

end KeetaNode.Client
