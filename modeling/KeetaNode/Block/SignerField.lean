import KeetaNode.Block.Unsigned

/-!
# Which signer trees are accepted

The validation of a block walks the multisig nodes breadth first and counts depths in its
queue, the parser of a block recurses and counts them in an argument. Both come down to
what holds at every multisig node of the tree.

- `keetanetwork-block/src/block.rs` (`validate_signer_field`)
- `keetanetwork-block/src/transport.rs` (`parse_multisig`, `parse_signer`)
-/

namespace KeetaNode

open ByteCodec

section Nodes

variable [Crypto]

/-! ## The nodes of a tree -/

namespace Signer

/-- `HasNode depth signer d a members`: a tree whose root is at `depth` has a multisig node
with the address `a` and the members `members` at depth `d`. -/
inductive HasNode : ℕ → Signer → ℕ → GenericAccount → List Signer → Prop
  | root {depth : ℕ} {address : GenericAccount} {signers : List Signer} :
      HasNode depth (.multisig address signers) depth address signers
  | member {depth : ℕ} {address : GenericAccount} {signers : List Signer} {s : Signer} {d : ℕ}
      {a : GenericAccount} {members : List Signer} (hs : s ∈ signers)
      (hnode : HasNode (depth + 1) s d a members) :
      HasNode depth (.multisig address signers) d a members

/-- Where a node may stand, and with which address. -/
def Placed (d : ℕ) (address : GenericAccount) : Prop :=
  d ≤ 3 ∧ address.keyType = .multisig

/-- Which members a node may have. -/
def Populated (members : List Signer) : Prop :=
  1 ≤ members.length ∧ members.length ≤ 16 ∧ (members.map principal).Nodup

/-- Something holds at every node of a tree that is queued when it holds at its root and at
the nodes queued after it. -/
theorem forall_hasNode_multisig {P : ℕ → GenericAccount → List Signer → Prop} {depth : ℕ}
    {address : GenericAccount} {signers : List Signer} :
    (∀ d a members, HasNode depth (.multisig address signers) d a members → P d a members) ↔
      P depth address signers ∧ ∀ node ∈ nestedNodes depth (.multisig address signers),
        ∀ d a members, HasNode node.1 node.2 d a members → P d a members := by
  simp only [nestedNodes, List.mem_map, List.mem_filter, forall_exists_index, and_imp]
  constructor
  · intro h
    refine ⟨h _ _ _ .root, ?_⟩
    rintro node s hs - rfl d a members hnode
    exact h d a members (.member hs hnode)
  · rintro ⟨hroot, hnested⟩ d a members hnode
    cases hnode with
    | root => exact hroot
    | @member _ _ _ s _ _ _ hs hnode =>
      -- only a multisig member has nodes
      have hmultisig : s.isMultisig = true := by
        cases hnode <;> rfl
      exact hnested (depth + 1, s) s hs hmultisig rfl d a members hnode

/-- A tree is admitted by the parser when its nodes are placed well. -/
theorem admitted_iff (signer : Signer) : ∀ depth, signer.Admitted depth ↔
    ∀ d a members, signer.HasNode depth d a members → Placed d a := by
  induction signer using treeInduction with
  | single account =>
    intro depth
    constructor
    -- a single signer has no nodes
    · intro _ d a members hnode
      cases hnode
    · intro _
      exact .single depth account
  | multisig address signers ih =>
    intro depth
    constructor
    · intro hadmitted d a members hnode
      cases hadmitted with
      | multisig hdepth haddress hsigners =>
        cases hnode with
        | root => exact ⟨hdepth, haddress⟩
        | member hs hnode => exact (ih _ hs _).mp (hsigners _ hs) d a members hnode
    · intro h
      -- the root is one of the nodes, and those of a member are the others
      obtain ⟨hdepth, haddress⟩ := h _ _ _ .root
      refine .multisig hdepth haddress fun s hs => (ih s hs _).mpr ?_
      intro d a members hnode
      exact h d a members (.member hs hnode)

end Signer

/-! ## The walk -/

/-- The walk over queued multisig nodes accepts what each of their nodes allows. -/
theorem walk_eq_ok_iff {config : Option ValidationConfig} (queue : List (ℕ × Signer))
    (hqueue : ∀ node ∈ queue, node.2.isMultisig = true) :
    loop (signerStep config) (.error .malformedSigner) signerMeasure queue = .ok () ↔
      ∀ node ∈ queue, ∀ d a members, node.2.HasNode node.1 d a members →
        checkNode config d (.multisig a members) = .ok () := by
  generalize hn : signerMeasure queue = n
  induction n using Nat.strong_induction_on generalizing queue with
  | _ n ih =>
    subst hn
    match queue with
    -- the queue shrinks by its first node and grows by the multisig members of it
    | [] => simp [loop_eq (signerStep_decreasing config), signerStep]
    | (depth, .single account) :: queue => cases hqueue _ List.mem_cons_self
    | (depth, .multisig address signers) :: queue =>
      rw [loop_eq (signerStep_decreasing config), List.forall_mem_cons,
        Signer.forall_hasNode_multisig]
      cases hcheck : checkNode config depth (.multisig address signers) with
      | error e => simp [signerStep, hcheck]
      | ok u =>
        have hstep : signerStep config ((depth, .multisig address signers) :: queue) =
            .inl (queue ++ nestedNodes depth (.multisig address signers)) := by
          simp [signerStep, hcheck]
        -- only multisig members are queued
        have hnext : ∀ node ∈ queue ++ nestedNodes depth (.multisig address signers),
            node.2.isMultisig = true := by
          intro node hnode
          rcases List.mem_append.mp hnode with hnode | hnode
          · exact hqueue node (List.mem_cons_of_mem _ hnode)
          · simp only [nestedNodes, List.mem_map, List.mem_filter] at hnode
            obtain ⟨s, ⟨-, hs⟩, rfl⟩ := hnode
            exact hs
        have hrest := ih _ (signerStep_decreasing config _ _ hstep) _ hnext rfl
        simp only [hstep, hrest, List.forall_mem_append, true_and]
        -- nested nodes go behind the queue, where the order does not matter
        exact and_comm

theorem uniqueAccountCount_eq_length [LawfulCrypto] {accounts : List GenericAccount} :
    uniqueAccountCount accounts = accounts.length ↔ accounts.Nodup := by
  rw [← List.nodup_map_iff GenericAccount.toString_injective, ← List.dedup_eq_self,
    uniqueAccountCount]
  -- deduplication keeps the length just when it drops nothing
  constructor
  · intro h
    exact (List.dedup_sublist _).eq_of_length (by rw [h, List.length_map])
  · intro h
    rw [h, List.length_map]

omit [Crypto] in
theorem validateSignerDepth_eq_ok {config : ValidationConfig} {depth : ℕ} {u : Unit} :
    config.validateSignerDepth depth = .ok u ↔ depth ≤ config.maxSignerDepth := by
  rw [ValidationConfig.validateSignerDepth, rejectIf_eq_ok, not_lt]

omit [Crypto] in
theorem validateSignerCount_eq_ok {config : ValidationConfig} {count : ℕ} {u : Unit} :
    config.validateSignerCount count = .ok u ↔ 1 ≤ count ∧ count ≤ config.maxSignerCount := by
  rw [ValidationConfig.validateSignerCount, rejectIf_eq_ok]
  omega

theorem checkNode_eq_ok [LawfulCrypto] {depth : ℕ} {address : GenericAccount}
    {members : List Signer} :
    checkNode (some .default) depth (.multisig address members) = .ok () ↔
      Signer.Placed depth address ∧ Signer.Populated members := by
  have hunique : uniqueAccountCount (members.map Signer.principal) = members.length ↔
      (members.map Signer.principal).Nodup := by
    rw [← uniqueAccountCount_eq_length, List.length_map]
  simp only [checkNode, bind_eq_ok, validateSignerDepth_eq_ok, validateSignerCount_eq_ok,
    rejectIf_eq_ok, not_not, hunique, Signer.Placed, Signer.Populated]
  constructor
  · rintro ⟨-, hdepth, -, haddress, -, ⟨hleast, hmost⟩, hdistinct⟩
    exact ⟨⟨hdepth, haddress⟩, hleast, hmost, hdistinct⟩
  · rintro ⟨⟨hdepth, haddress⟩, hleast, hmost, hdistinct⟩
    exact ⟨(), hdepth, (), haddress, (), ⟨hleast, hmost⟩, hdistinct⟩

/-! ## The signer field -/

theorem validateSignerField_default [LawfulCrypto] (signer : Signer) :
    validateSignerField signer (some .default) = .ok () ↔
      ∀ d a members, signer.HasNode 1 d a members →
        Signer.Placed d a ∧ Signer.Populated members := by
  cases signer with
  | single account =>
    constructor
    · intro _ d a members hnode
      cases hnode
    · intro _
      rfl
  | multisig address signers =>
    -- the walk starts at the root alone
    simp only [validateSignerField, Signer.isMultisig, if_true]
    rw [walk_eq_ok_iff _ (by simp [Signer.isMultisig])]
    simp only [List.mem_singleton, forall_eq, checkNode_eq_ok]

/-- **A signer tree is accepted exactly as specified.** On a known network every multisig
node must be placed and populated well, on an unknown one no multisig tree is accepted, the
parser agrees on where nodes stand, and the walk ends by itself. -/
theorem validateSignerField_exact [LawfulCrypto] (signer : Signer) (network : Int) :
    (∀ config, ValidationConfig.forNetwork network = .ok config →
        (validateSignerField signer (some config) = .ok () ↔
          (∃ account, signer = .single account) ∨
            ∀ d a members, signer.HasNode 1 d a members →
              Signer.Placed d a ∧ Signer.Populated members)) ∧
      (∀ e, ValidationConfig.forNetwork network = .error e → signer.isMultisig = true →
        validateSignerField signer (ValidationConfig.forNetwork network).toOption =
          .error .unknownNetwork) ∧
      (signer.KeyedLeaves → ∀ parsed, parseSigner 1 (buildSigner signer) = .ok parsed ↔
        parsed = signer ∧ ∀ d a members, signer.HasNode 1 d a members → Signer.Placed d a) ∧
      (signer.isMultisig = true → ∀ account,
        signerFromTransport account (signerToTransport account signer) =
          parseSigner 1 (buildSigner signer)) ∧
      ∀ config, signer.isMultisig = true →
        Returns (signerStep config) [(1, signer)] (validateSignerField signer config) := by
  refine ⟨fun config hconfig => ?_, fun e he hmultisig => ?_, fun hkeyed parsed => ?_, ?_, ?_⟩
  · have hmem : config ∈ (ValidationConfig.forNetwork network).toOption := by
      rw [hconfig]
      rfl
    -- every known network has the default limits
    obtain rfl := BlockData.forNetwork_toOption hmem
    rw [validateSignerField_default]
    constructor
    · exact .inr
    · rintro (⟨account, rfl⟩ | h)
      · intro d a members hnode
        cases hnode
      · exact h
  -- without limits the first node is rejected
  · rw [he, validateSignerField, if_pos hmultisig, loop_eq (signerStep_decreasing _)]
    rfl
  · rw [parseSigner_buildSigner, signer.admitted_iff]
    simp only [hkeyed, and_true]
  · intro hmultisig account
    cases signer with
    | single account => cases hmultisig
    | multisig address signers => exact signerFromTransport_multisig account address signers
  · intro config hmultisig
    rw [validateSignerField, if_pos hmultisig]
    exact returns_loop (signerStep_decreasing config) _ _

end Nodes

/-! ## Samples -/

section Samples

open scoped Reference

/-- A tree of depth two with two members at each node. -/
theorem validateSignerField_exact_sample :
    (∀ d a members, Sample.tree.HasNode 1 d a members →
        Signer.Placed d a ∧ Signer.Populated members) ∧
      validateSignerField Sample.tree (ValidationConfig.forNetwork 1).toOption =
        .error .unknownNetwork ∧
      parseSigner 1 (buildSigner Sample.tree) = .ok Sample.tree := by
  obtain ⟨hknown, -, hparse, -⟩ := validateSignerField_exact Sample.tree 0
  obtain ⟨-, hunknown, -⟩ := validateSignerField_exact Sample.tree 1
  have hkeyed : Sample.tree.KeyedLeaves := by
    unfold Signer.KeyedLeaves
    decide +kernel
  have hnodes := (hknown .default rfl).mp (by decide +kernel)
  have hplaced := hnodes.resolve_left (by rintro ⟨account, h⟩; cases h)
  exact ⟨hplaced, hunknown .unknownNetwork rfl rfl,
    (hparse hkeyed Sample.tree).mpr ⟨rfl, fun d a members hnode => (hplaced d a members hnode).1⟩⟩

end Samples

end KeetaNode
