import KeetaNode.Client.Publish

/-!
# Supplies and balances

A token's supply and the balance of a holder are adjusted in two blocks, which are published one
after the other. The call may break off in between, and after a conflict it publishes both blocks
again. The order of the two is what keeps the balances covered by the supply.

- `keetanetwork-client/src/user.rs` (`modify_token_supply_and_balance`, `build_and_publish`,
  `originate`)

A block is worth what it adds to one and takes from the other. At a node that answers for blocks
it has accepted, what the accepted blocks of the call are worth never falls below zero.

## Main results

- `Funded.step`: a step at such a node leaves the blocks of the call covered
- `supply_covers_balances`: in every state of every run
-/

namespace KeetaNode.Client

open ByteCodec
open Asn1 (Tag Asn1Error)
open Machine (Reaches)

/-! ## Covered sums -/

/-- The sum stays at least zero, from the first value to the last. -/
def Covers : ℤ → List ℤ → Prop
  | sum, [] => 0 ≤ sum
  | sum, value :: values => 0 ≤ sum ∧ Covers (sum + value) values

namespace Covers

variable {sum sum' value : ℤ} {values later : List ℤ}

theorem nonneg (h : Covers sum values) : 0 ≤ sum := by
  cases values with
  | nil => exact h
  | cons value values => exact h.1

theorem mono (h : Covers sum values) (hle : sum ≤ sum') : Covers sum' values := by
  induction values generalizing sum sum' with
  | nil => exact le_trans h hle
  | cons value values ih => exact ⟨h.1.trans hle, ih h.2 (by omega)⟩

/-- A value of nothing can be left out. -/
theorem drop_zero (h : Covers sum (values ++ 0 :: later)) : Covers sum (values ++ later) := by
  induction values generalizing sum with
  | nil =>
    obtain ⟨-, h⟩ := h
    rwa [Int.add_zero] at h
  | cons value values ih => exact ⟨h.1, ih h.2⟩

end Covers

section Supply

variable [Crypto]

/-! ## What operations change -/

/-- What an adjustment adds. An amount that is set adds nothing that can be told from it. -/
def adjustedBy (amount : Int) : AdjustMethod → Int
  | .add => amount
  | .subtract => -amount
  | .set => 0

def supplyChange : Operation → Int
  | .tokenAdminSupply operation => adjustedBy operation.amount operation.method
  | _ => 0

def balanceChange (token : GenericAccount) : Operation → Int
  | .tokenAdminModifyBalance operation =>
    if operation.token = token then adjustedBy operation.amount operation.method else 0
  | _ => 0

/-- What the block adds to the supply of the token. -/
def supplyOf (token : GenericAccount) (block : Block) : Int :=
  if block.data.account = token then (block.data.operations.map supplyChange).sum else 0

/-- What the block adds to the balances of the token. -/
def balancesOf (token : GenericAccount) (block : Block) : Int :=
  (block.data.operations.map (balanceChange token)).sum

/-! ## Answers of a node -/

/-- A node answers that it has taken a block when it has accepted it. -/
def AnswersHonestly (system : System) : Event → Prop
  | .answer (.ok true) => ∀ entry ∈ system.node.pending, entry.attempt ≠ some system.attempt
  | _ => True

instance instDecidableAnswersHonestly (system : System) :
    (event : Event) → Decidable (AnswersHonestly system event)
  | .answer (.ok true) =>
    List.decidableBAll (fun entry : Entry => entry.attempt ≠ some system.attempt)
      system.node.pending
  | .answer (.ok false) => .isTrue trivial
  | .answer (.error _) => .isTrue trivial
  | .build .. => .isTrue trivial
  | .publish => .isTrue trivial
  | .recover _ => .isTrue trivial
  | .accept _ => .isTrue trivial
  | .hand _ => .isTrue trivial

/-- The accepted blocks of the call. -/
def System.accepted (system : System) : List Block :=
  system.node.ledger.filterMap fun
    | .own submission => some submission.block
    | .foreign _ => none

/-! ## What is in reserve -/

section Reserve

variable (value : Block → ℤ)

/-- What an entry of the call is worth. -/
def Entry.worth : Entry → ℤ
  | .own submission => value submission.block
  | .foreign _ => 0

/-- What is left of the accepted blocks if all pending ones are accepted that take away. -/
def System.reserve (system : System) : ℤ :=
  (system.node.ledger.map (Entry.worth value)).sum +
    (system.node.pending.map fun entry => min (entry.worth value) 0).sum

/-- What the pending blocks of the attempt add. -/
def System.outstanding (system : System) : ℤ :=
  (system.node.pending.map fun entry =>
    if entry.attempt = some system.attempt then max (entry.worth value) 0 else 0).sum

/-- What is to come is covered. A block is only published once the one before is accepted. -/
def Phase.Covered (worth : Group → ℤ) (reserve outstanding : ℤ) : Phase → Prop
  | building _ next rest _ built =>
    Covers 0 (built.map (fun submission => value submission.block) ++
      (next :: rest).map (fun entry => worth entry.1))
  | publishing next rest =>
    Covers reserve ((next :: rest).map fun submission => value submission.block)
  | answering rest =>
    Covers (reserve + outstanding) (rest.map fun submission => value submission.block)
  | recovering _ => True
  | finished _ => True

end Reserve

/-- The groups of an attempt. -/
def Call.groups (call : Call) : List Group :=
  match call.client.signedBuilder with
  | .ok builder => (call.assemble builder).takeGroups.1
  | .error _ => []

section Steps

variable [X509] [Tlv Tag Asn1Error]

/-- The groups of the call are worth what is built from them, and cover one another in order. -/
structure Call.Worth (call : Call) (value : Block → ℤ) (worth : Group → ℤ) : Prop where
  built : ∀ {builder : TransactionBuilder} {now : BlockTime}
    {head : Except ClientError (Option BlockHash)} {state state' : TransactionBuilder.BuildState}
    {group : Group} {block : Block}, group ∈ call.groups →
      builder.buildGroup call.signatureOf now head state group = .ok (state', some block) →
        value block = worth group
  skipped : ∀ {builder : TransactionBuilder} {now : BlockTime}
    {head : Except ClientError (Option BlockHash)} {state state' : TransactionBuilder.BuildState}
    {group : Group}, group ∈ call.groups →
      builder.buildGroup call.signatureOf now head state group = .ok (state', none) →
        worth group = 0
  covers : Covers 0 (call.groups.map worth)

/-- What is accepted, pending and to come of a call is covered. -/
structure Funded (call : Call) (value : Block → ℤ) (worth : Group → ℤ) (system : System) :
    Prop where
  reserve : 0 ≤ system.reserve value
  covered : system.phase.Covered value worth (system.reserve value) (system.outstanding value)
  prepared : ∀ submission ∈ system.phase.submissions, submission.attempt = system.attempt
  known : ∀ entry ∈ system.phase.unbuilt, entry.1 ∈ call.groups

/-! ## Phases -/

section Phases

variable {value : Block → ℤ} {worth : Group → ℤ}

omit [X509] [Tlv Tag Asn1Error]

theorem Phase.Covered.mono {phase : Phase} {reserve reserve' outstanding outstanding' : ℤ}
    (h : phase.Covered value worth reserve outstanding) (hreserve : reserve ≤ reserve')
    (hboth : reserve + outstanding ≤ reserve' + outstanding') :
    phase.Covered value worth reserve' outstanding' := by
  cases phase with
  | building => exact h
  | publishing => exact Covers.mono h hreserve
  | answering => exact Covers.mono h hboth
  | recovering => trivial
  | finished => trivial

theorem Phase.covered_originate {reserve outstanding : ℤ} {submissions : List Submission}
    (h : Covers reserve (submissions.map fun submission => value submission.block)) :
    (Phase.originate submissions).Covered value worth reserve outstanding := by
  cases submissions with
  | nil => trivial
  | cons next rest => exact h

theorem Phase.covered_build {reserve outstanding : ℤ} {builder : TransactionBuilder}
    {state : TransactionBuilder.BuildState} {built : List Submission} {rest : List (Group × ℕ)}
    (h : Covers 0 (built.map (fun submission => value submission.block) ++
      rest.map fun entry => worth entry.1)) (hreserve : 0 ≤ reserve) :
    (Phase.build builder state built rest).Covered value worth reserve outstanding := by
  cases rest with
  | nil =>
    rw [List.map_nil, List.append_nil] at h
    exact covered_originate (h.mono hreserve)
  | cons next rest => exact h

theorem map_fst_zipIdx {α : Type} (groups : List Group) (f : Group → α) :
    (groups.zipIdx.map fun entry => f entry.1) = groups.map f := by
  have hmap : groups.zipIdx.map (f ∘ Prod.fst) = (groups.zipIdx.map Prod.fst).map f :=
    (List.map_map ..).symm
  rw [List.zipIdx_map_fst] at hmap
  exact hmap

theorem Call.groups_eq {call : Call} {builder : TransactionBuilder}
    (h : call.client.signedBuilder = .ok builder) :
    call.groups = (call.assemble builder).takeGroups.1 := by
  rw [Call.groups, h]

theorem Phase.unbuilt_originate (submissions : List Submission) :
    (Phase.originate submissions).unbuilt = [] := by
  cases submissions <;> rfl

theorem Phase.unbuilt_build {builder : TransactionBuilder}
    {state : TransactionBuilder.BuildState} {built : List Submission} {rest : List (Group × ℕ)} :
    (Phase.build builder state built rest).unbuilt = rest := by
  cases rest with
  | nil => exact unbuilt_originate built
  | cons next rest => rfl

theorem System.outstanding_nonneg (system : System) : 0 ≤ system.outstanding value := by
  refine List.sum_nonneg fun x hx => ?_
  obtain ⟨entry, -, rfl⟩ := List.mem_map.mp hx
  split
  · exact le_max_right _ _
  · exact le_rfl

/-- At an honest node nothing is outstanding when the answer comes. -/
theorem System.outstanding_eq_zero {system : System}
    (h : ∀ entry ∈ system.node.pending, entry.attempt ≠ some system.attempt) :
    system.outstanding value = 0 := by
  refine List.sum_eq_zero fun x hx => ?_
  obtain ⟨entry, hentry, rfl⟩ := List.mem_map.mp hx
  exact if_neg (h entry hentry)

theorem System.sum_accepted (system : System) :
    (system.accepted.map value).sum = (system.node.ledger.map (Entry.worth value)).sum := by
  unfold System.accepted
  induction system.node.ledger with
  | nil => rfl
  | cons entry entries ih =>
    cases entry with
    | own submission => simp [Entry.worth, ih]
    | foreign block => simpa [Entry.worth] using ih

/-- What is in reserve is not more than what the accepted blocks are worth. -/
theorem System.reserve_le (system : System) :
    system.reserve value ≤ (system.accepted.map value).sum := by
  rw [sum_accepted, System.reserve]
  have hpending : (system.node.pending.map fun entry => min (entry.worth value) 0).sum ≤ 0 := by
    induction system.node.pending with
    | nil => exact le_rfl
    | cons entry entries ih =>
      rw [List.map_cons, List.sum_cons]
      have hentry := min_le_right (entry.worth value) 0
      omega
  omega

end Phases

/-! ## Steps of the call -/

namespace Funded

variable {call : Call} {value : Block → ℤ} {worth : Group → ℤ} {system next : System}

omit [X509] [Tlv Tag Asn1Error] in
theorem withPhase (h : Funded call value worth system) {phase : Phase}
    (hcovered : phase.Covered value worth (system.reserve value) (system.outstanding value))
    (hprepared : ∀ submission ∈ phase.submissions, submission.attempt = system.attempt)
    (hknown : ∀ entry ∈ phase.unbuilt, entry.1 ∈ call.groups) :
    Funded call value worth { system with phase } where
  reserve := h.reserve
  covered := hcovered
  prepared := hprepared
  known := hknown

omit [X509] [Tlv Tag Asn1Error] in
theorem finished (h : Funded call value worth system) (result : Except ClientError Bool) :
    Funded call value worth { system with phase := .finished result } :=
  h.withPhase trivial (by simp [Phase.submissions]) (by simp [Phase.unbuilt])

omit [X509] [Tlv Tag Asn1Error] in
/-- A block is published out of the reserve, and adds to it only when it is accepted. -/
theorem stepPublish (h : Funded call value worth system)
    (hstep : Call.stepPublish system = some next) : Funded call value worth next := by
  unfold Call.stepPublish at hstep
  split at hstep <;> cases hstep
  rename_i submission rest hphase
  have hcovered := h.covered
  have hprepared := h.prepared
  rw [hphase] at hcovered hprepared
  have hattempt : submission.attempt = system.attempt :=
    hprepared submission List.mem_cons_self
  obtain ⟨hreserve, hrest⟩ := hcovered
  have hafter : 0 ≤ system.reserve value + value submission.block := hrest.nonneg
  have houtstanding : 0 ≤ system.outstanding value := system.outstanding_nonneg
  let after : System := { system with
    node := system.node.hand (.own submission)
    phase := .answering rest }
  have hreserve' : after.reserve value =
      system.reserve value + min (value submission.block) 0 := by
    simp [after, System.reserve, Node.hand, Entry.worth, add_assoc]
  have houtstanding' : after.outstanding value =
      system.outstanding value + max (value submission.block) 0 := by
    simp [after, System.outstanding, Node.hand, Entry.worth, Entry.attempt, hattempt]
  have hsplit : min (value submission.block) 0 + max (value submission.block) 0 =
      value submission.block := min_add_max _ _ |>.trans (add_zero _)
  exact {
    reserve := by
      rw [hreserve']
      omega
    covered := by
      show Covers (after.reserve value + after.outstanding value) _
      apply Covers.mono hrest
      show system.reserve value + value submission.block ≤ _
      omega
    prepared := fun other hother => hprepared other (List.mem_cons_of_mem _ hother)
    known := by simp [Phase.unbuilt] }

omit [X509] [Tlv Tag Asn1Error] in
/-- An honest answer lets the call go on with what is in reserve. -/
theorem stepAnswer (h : Funded call value worth system) {result : Except ClientError Bool}
    (hhonest : AnswersHonestly system (.answer result))
    (hstep : Call.stepAnswer system result = some next) : Funded call value worth next := by
  unfold Call.stepAnswer at hstep
  split at hstep <;> cases hstep
  rename_i rest hphase
  have hcovered := h.covered
  have hprepared := h.prepared
  rw [hphase] at hcovered hprepared
  split
  · -- the block before is accepted
    have hcovered : Covers (system.reserve value + system.outstanding value) _ := hcovered
    rw [System.outstanding_eq_zero hhonest, Int.add_zero] at hcovered
    refine h.withPhase (Phase.covered_originate hcovered) ?_ ?_
    · rw [Phase.submissions_originate]
      exact hprepared
    · rw [Phase.unbuilt_originate]
      simp
  · exact h.finished _
  · dsimp only
    split
    · exact h.finished _
    · exact h.withPhase trivial (by simp [Phase.submissions]) (by simp [Phase.unbuilt])

theorem start (hworth : call.Worth value worth) (system : System)
    (hreserve : 0 ≤ system.reserve value) :
    Funded call value worth { system with phase := call.start } := by
  have hsubmissions := call.submissions_start
  refine ⟨hreserve, ?_, by simp [hsubmissions], ?_⟩
  · show call.start.Covered value worth (system.reserve value) _
    unfold Call.start
    split <;> rename_i hbuilder
    · trivial
    · apply Phase.covered_build _ hreserve
      have hcovers := hworth.covers
      rw [Call.groups_eq hbuilder] at hcovers
      rw [map_fst_zipIdx]
      exact hcovers
  · show ∀ entry ∈ call.start.unbuilt, entry.1 ∈ call.groups
    unfold Call.start
    split <;> rename_i hbuilder
    · simp [Phase.unbuilt]
    · rw [Call.groups_eq hbuilder]
      dsimp only
      rw [Phase.unbuilt_build]
      intro entry hentry
      have hmem := List.mem_map_of_mem (f := Prod.fst) hentry
      rwa [List.zipIdx_map_fst] at hmem

theorem stepRecover (h : Funded call value worth system) (hworth : call.Worth value worth)
    {result : Except ClientError Bool} (hstep : call.stepRecover system result = some next) :
    Funded call value worth next := by
  unfold Call.stepRecover at hstep
  split at hstep <;> cases hstep
  split
  · exact h.finished _
  · exact h.finished _
  · -- a new attempt relies on nothing but the reserve of those before
    exact start hworth { system with attempt := system.attempt + 1 } h.reserve

omit [X509] [Tlv Tag Asn1Error] in
/-- An accepted block takes from the reserve what was set apart for it. -/
theorem stepAccept (h : Funded call value worth system) {place : ℕ}
    (hstep : Call.stepAccept system place = some next) : Funded call value worth next := by
  simp only [Call.stepAccept, Node.accept, Option.bind_eq_bind, Option.map_eq_some_iff,
    Option.bind_eq_some_iff, Option.guard_eq_some', Option.pure_def, Option.some.injEq] at hstep
  obtain ⟨node, ⟨entry, hentry, -, -, rfl⟩, rfl⟩ := hstep
  have hperm : (entry :: system.node.pending.eraseIdx place).Perm system.node.pending := by
    obtain ⟨hplace, rfl⟩ := List.getElem?_eq_some_iff.mp hentry
    exact List.getElem_cons_eraseIdx_perm hplace
  have hreserve := (hperm.map fun entry => min (entry.worth value) 0).sum_eq
  have houtstanding := (hperm.map fun entry =>
    if entry.attempt = some system.attempt then max (entry.worth value) 0 else 0).sum_eq
  rw [List.map_cons, List.sum_cons] at hreserve houtstanding
  let after : System := { system with
    node := {
      ledger := entry :: system.node.ledger
      pending := system.node.pending.eraseIdx place } }
  have hsplit : min (entry.worth value) 0 + max (entry.worth value) 0 = entry.worth value :=
    (min_add_max _ _).trans (add_zero _)
  have hmax : 0 ≤ max (entry.worth value) 0 := le_max_right _ _
  have hafter : after.reserve value = system.reserve value + max (entry.worth value) 0 := by
    simp only [after, System.reserve, List.map_cons, List.sum_cons]
    omega
  have hboth : system.reserve value + system.outstanding value ≤
      after.reserve value + after.outstanding value := by
    rw [hafter]
    simp only [after, System.outstanding]
    split at houtstanding <;> omega
  have hfirst := h.reserve
  exact {
    reserve := by
      show 0 ≤ after.reserve value
      omega
    covered := h.covered.mono (by rw [hafter]; omega) hboth
    prepared := h.prepared
    known := h.known }

omit [X509] [Tlv Tag Asn1Error] in
/-- The blocks of others do not count. -/
theorem stepHand (h : Funded call value worth system) {block : Block}
    (hstep : Call.stepHand system block = some next) : Funded call value worth next := by
  simp only [Call.stepHand, Option.ite_none_right_eq_some, Option.some.injEq] at hstep
  obtain ⟨-, rfl⟩ := hstep
  let after : System := { system with node := system.node.hand (.foreign block) }
  have hreserve : after.reserve value = system.reserve value := by
    simp [after, System.reserve, Node.hand, Entry.worth]
  have houtstanding : after.outstanding value = system.outstanding value := by
    simp [after, System.outstanding, Node.hand, Entry.worth]
  exact {
    reserve := hreserve.symm ▸ h.reserve
    covered := h.covered.mono hreserve.ge (by rw [hreserve, houtstanding])
    prepared := h.prepared
    known := h.known }

theorem stepBuild (h : Funded call value worth system) (hworth : call.Worth value worth)
    {reachable : Except ClientError Unit} {now : BlockTime}
    (hstep : call.stepBuild system reachable now = some next) :
    Funded call value worth next := by
  unfold Call.stepBuild at hstep
  split at hstep <;> cases hstep
  rename_i builder group place rest state built hphase
  have hcovered := h.covered
  have hprepared := h.prepared
  have hknown := h.known
  rw [hphase] at hcovered hprepared hknown
  obtain ⟨hgroup, hrest⟩ := List.forall_mem_cons.mp hknown
  have hcovered : Covers 0 (built.map (fun submission => value submission.block) ++
    worth group :: rest.map fun entry => worth entry.1) := hcovered
  split
  · exact h.finished _
  · rename_i hskipped
    rw [hworth.skipped hgroup hskipped] at hcovered
    refine h.withPhase (Phase.covered_build hcovered.drop_zero h.reserve) ?_ ?_
    · rw [Phase.submissions_build]
      exact hprepared
    · rw [Phase.unbuilt_build]
      exact hrest
  · rename_i block hbuilt
    refine h.withPhase (Phase.covered_build ?_ h.reserve) ?_ ?_
    · rw [← hworth.built hgroup hbuilt] at hcovered
      simpa using hcovered
    · rw [Phase.submissions_build]
      intro submission hmem
      rcases List.mem_append.mp hmem with hmem | hmem
      · exact hprepared submission hmem
      · rw [List.mem_singleton.mp hmem]
    · rw [Phase.unbuilt_build]
      exact hrest

/-- A step at an honest node leaves the blocks of the call covered. -/
theorem step (h : Funded call value worth system) (hworth : call.Worth value worth)
    {event : Event} (hhonest : AnswersHonestly system event)
    (hstep : call.step system event = some next) :
    Funded call value worth next := by
  cases event with
  | build reachable now => exact h.stepBuild hworth hstep
  | publish => exact h.stepPublish hstep
  | answer result => exact h.stepAnswer hhonest hstep
  | recover result => exact h.stepRecover hworth hstep
  | accept place => exact h.stepAccept hstep
  | hand block => exact h.stepHand hstep

theorem initial (hworth : call.Worth value worth) (ledger pending : List Block) :
    Funded call value worth (call.initial ledger pending) := by
  have hreserve : (call.initial ledger pending).reserve value = 0 := by
    simp [System.reserve, Call.initial, Entry.worth, Function.comp_def]
  exact start hworth (call.initial ledger pending) hreserve.ge

end Funded

/-! ## Adjustments -/

/-- What an operation of an account adds to the supply of the token, less what it adds to the
balances. -/
def Operation.worth (token account : GenericAccount) (operation : Operation) : ℤ :=
  (if account = token then supplyChange operation else 0) - balanceChange token operation

def PendingOp.worth (token account : GenericAccount) : PendingOp → ℤ
  | .modifyTokenSupply amount method => if account = token then adjustedBy amount method else 0
  | .modifyTokenBalance (.resolved other) amount method =>
    -if other = token then adjustedBy amount method else 0
  | _ => 0

def Group.worth (token : GenericAccount) (group : Group) : ℤ :=
  (group.ops.map (PendingOp.worth token group.account)).sum

/-- An operation that adjusts the supply of its account or a balance of a known token. -/
def PendingOp.Adjusts : PendingOp → Prop
  | .modifyTokenSupply .. => True
  | .modifyTokenBalance (.resolved _) .. => True
  | _ => False

omit [X509] [Tlv Tag Asn1Error] in
theorem worth_eq (token : GenericAccount) (block : Block) :
    supplyOf token block - balancesOf token block =
      (block.data.operations.map (Operation.worth token block.data.account)).sum := by
  unfold supplyOf balancesOf Operation.worth
  induction block.data.operations with
  | nil => simp
  | cons operation operations ih =>
    simp only [List.map_cons, List.sum_cons]
    rw [← ih]
    split <;> omega

omit [X509] [Tlv Tag Asn1Error] in
theorem sum_supplyOf_sub (token : GenericAccount) (blocks : List Block) :
    (blocks.map fun block => supplyOf token block - balancesOf token block).sum =
      (blocks.map (supplyOf token)).sum - (blocks.map (balancesOf token)).sum := by
  induction blocks with
  | nil => rfl
  | cons block blocks ih =>
    simp only [List.map_cons, List.sum_cons]
    omega

omit [X509] [Tlv Tag Asn1Error] in
/-- Adjustments render to operations that are worth the same. -/
theorem foldlM_pushOp_worth (token : GenericAccount) (group : Group)
    (previous : Option BlockHash) (handles : Handles) (ops : List PendingOp)
    (hops : ∀ op ∈ ops, op.Adjusts) (buckets : RenderBuckets) :
    ∃ rendered, ops.foldlM (RenderBuckets.pushOp group previous) (handles, buckets) =
        .ok (handles, rendered) ∧
      (rendered.intoOperations.map (Operation.worth token group.account)).sum =
        (buckets.intoOperations.map (Operation.worth token group.account)).sum +
          (ops.map (PendingOp.worth token group.account)).sum := by
  induction ops generalizing buckets with
  | nil => exact ⟨buckets, rfl, (Int.add_zero _).symm⟩
  | cons op ops ih =>
    obtain ⟨hop, hrest⟩ := List.forall_mem_cons.mp hops
    unfold PendingOp.Adjusts at hop
    split at hop
    · rename_i amount method
      obtain ⟨rendered, hfold, hsum⟩ := ih hrest
        { buckets with supply := buckets.supply ++ [.tokenAdminSupply { amount, method }] }
      refine ⟨rendered, hfold, hsum.trans ?_⟩
      simp [RenderBuckets.intoOperations, Operation.worth, PendingOp.worth, supplyChange,
        balanceChange]
      ring
    · rename_i other amount method
      obtain ⟨rendered, hfold, hsum⟩ := ih hrest { buckets with
        balance := buckets.balance ++
          [.tokenAdminModifyBalance { token := other, amount, method }] }
      refine ⟨rendered, hfold, hsum.trans ?_⟩
      simp [RenderBuckets.intoOperations, Operation.worth, PendingOp.worth, supplyChange,
        balanceChange]
      ring
    · exact hop.elim

omit [X509] [Tlv Tag Asn1Error] in
theorem renderOps_worth (token : GenericAccount) {group : Group} {previous : Option BlockHash}
    {handles handles' : Handles} {operations : List Operation}
    (hops : ∀ op ∈ group.ops, op.Adjusts)
    (h : renderOps group previous handles = .ok (handles', operations)) :
    (operations.map (Operation.worth token group.account)).sum = group.worth token := by
  obtain ⟨rendered, hfold, hsum⟩ := foldlM_pushOp_worth token group
    (previous.filter (· ≠ group.account.toOpeningHash)) handles group.ops hops {}
  simp only [renderOps, bind_eq_ok] at h
  obtain ⟨folded, hfolded, h⟩ := h
  cases hfold.symm.trans hfolded
  cases h
  rw [hsum]
  exact zero_add _

/-- A call that only adjusts is worth what its groups are worth. -/
theorem Call.worth_of_adjusts {call : Call} (token : GenericAccount)
    (hadjusts : ∀ group ∈ call.groups, ∀ op ∈ group.ops, op.Adjusts)
    (hcovers : Covers 0 (call.groups.map (Group.worth token))) :
    call.Worth (fun block => supplyOf token block - balancesOf token block)
      (Group.worth token) where
  built := by
    intro builder now head state state' group block hgroup hbuilt
    simp only [TransactionBuilder.buildGroup_eq, bind_eq_ok] at hbuilt
    obtain ⟨previous, -, ⟨handles, operations⟩, hrendered, hbuilt⟩ := hbuilt
    split at hbuilt
    · cases hbuilt
    · simp only [bind_eq_ok] at hbuilt
      obtain ⟨sealed, hsealed, hbuilt⟩ := hbuilt
      cases hbuilt
      obtain ⟨network, -, hdata⟩ := KeetaClient.sealBlock_eq_ok hsealed
      rw [worth_eq, hdata]
      exact renderOps_worth token (hadjusts group hgroup) hrendered
  skipped := by
    intro builder now head state state' group hgroup hskipped
    simp only [TransactionBuilder.buildGroup_eq, bind_eq_ok] at hskipped
    obtain ⟨previous, -, ⟨handles, operations⟩, hrendered, hskipped⟩ := hskipped
    split at hskipped
    · rename_i hempty
      have hempty : operations = [] := hempty
      have hworth := renderOps_worth token (hadjusts group hgroup) hrendered
      rw [← hworth, hempty]
      rfl
    · simp only [bind_eq_ok] at hskipped
      obtain ⟨sealed, -, hskipped⟩ := hskipped
      cases hskipped
  covers := hcovers

/-! ## Supplies cover balances -/

/-- Calls whose groups cover one another leave the balances of the token covered. -/
theorem Call.supply_covers {call : Call} {token : GenericAccount}
    (hadjusts : ∀ group ∈ call.groups, ∀ op ∈ group.ops, op.Adjusts)
    (hcovers : Covers 0 (call.groups.map (Group.worth token))) (ledger pending : List Block)
    {final : System}
    (h : Reaches call.step AnswersHonestly (call.initial ledger pending) final) :
    (final.accepted.map (balancesOf token)).sum ≤ (final.accepted.map (supplyOf token)).sum := by
  have hworth := Call.worth_of_adjusts token hadjusts hcovers
  have hfunded := h.invariant (Funded.initial hworth ledger pending)
    fun hfunded hhonest hstep => Funded.step hfunded hworth hhonest hstep
  have haccepted := hfunded.reserve.trans final.reserve_le
  rw [sum_supplyOf_sub] at haccepted
  omega

omit [X509] [Tlv Tag Asn1Error] in
/-- Nothing is queued in the builder a call begins with. -/
theorem UserClient.queued_signedBuilder {user : UserClient} {builder : TransactionBuilder}
    (h : user.signedBuilder = .ok builder) : builder.queued = [] := by
  simp only [UserClient.signedBuilder, bind_eq_ok] at h
  obtain ⟨signer, -, account, -, h⟩ := h
  split at h <;> cases h <;> rfl

namespace TransactionBuilder

variable {builder : TransactionBuilder} {account signer : GenericAccount} {op other : PendingOp}

omit [X509] [Tlv Tag Asn1Error] in
theorem queued_push : ((builder.forAccountWithSigner account signer).push op).queued =
    builder.queued ++ [⟨account, signer, [op]⟩] := by
  simp [queued, forAccountWithSigner, switch, push, Group.new]

omit [X509] [Tlv Tag Asn1Error] in
theorem queued_push_push :
    (((builder.forAccountWithSigner account signer).push op).push other).queued =
      builder.queued ++ [⟨account, signer, [op, other]⟩] := by
  simp [queued, forAccountWithSigner, switch, push, Group.new]

end TransactionBuilder

omit [X509] [Tlv Tag Asn1Error] in
/-- The groups of the call, the one that adds before the one that takes away. -/
theorem UserClient.groups_modifyTokenSupplyAndBalance [LawfulCrypto] {user : UserClient}
    {token : GenericAccount} {holder : Option GenericAccount} {amount : Int} {method : AdjustMethod}
    {assemble : TransactionBuilder → TransactionBuilder}
    {builder : TransactionBuilder}
    (h : user.modifyTokenSupplyAndBalance token holder amount method = .ok assemble)
    (hbuilder : user.signedBuilder = .ok builder)
    (signatureOf : GenericAccount → Bytes → Except AccountError Bytes) :
    let supply := PendingOp.modifyTokenSupply amount method
    let balance := PendingOp.modifyTokenBalance (.resolved token) amount method
    ∃ account signer,
      (Call.mk user assemble signatureOf).groups =
        if account = token then
          [⟨token, signer, if method = .subtract then [balance, supply] else [supply, balance]⟩]
        else if method = .subtract then
          [⟨account, signer, [balance]⟩, ⟨token, signer, [supply]⟩]
        else [⟨token, signer, [supply]⟩, ⟨account, signer, [balance]⟩] := by
  simp only [UserClient.modifyTokenSupplyAndBalance, bind_eq_ok] at h
  obtain ⟨signer, -, account, -, h⟩ := h
  refine ⟨account, signer, ?_⟩
  have hgroups : (Call.mk user assemble signatureOf).groups = (assemble builder).queued :=
    Call.groups_eq hbuilder
  rw [hgroups]
  have hqueued := queued_signedBuilder hbuilder
  by_cases hsame : account = token
  · subst hsame
    split at h <;> rename_i hmethod <;> obtain rfl := Except.ok.inj h
    · simp [hmethod, TransactionBuilder.modifyTokenSupply, TransactionBuilder.modifyTokenBalance,
        TransactionBuilder.queued_push_push, hqueued]
    · simp [hmethod, TransactionBuilder.modifyTokenSupply, TransactionBuilder.modifyTokenBalance,
        TransactionBuilder.queued_push_push, hqueued]
  · split at h <;> rename_i hmethod <;> obtain rfl := Except.ok.inj h
    · simp [hmethod, hsame, GenericAccount.toString_injective.eq_iff,
        TransactionBuilder.modifyTokenSupply, TransactionBuilder.modifyTokenBalance,
        TransactionBuilder.queued_push, hqueued]
    · simp [hmethod, hsame, GenericAccount.toString_injective.eq_iff,
        TransactionBuilder.modifyTokenSupply, TransactionBuilder.modifyTokenBalance,
        TransactionBuilder.queued_push, hqueued]

/-- **Supplies cover balances.** Whatever a call breaks off, repeats or leaves behind, at a node
that answers for what it has accepted its blocks add no more to the balances of the token than
to its supply. A negative amount would turn the order of the two groups around. -/
theorem supply_covers_balances [LawfulCrypto] (user : UserClient) (token : GenericAccount)
    (holder : Option GenericAccount) {amount : Int} (hamount : 0 ≤ amount) (method : AdjustMethod)
    {assemble : TransactionBuilder → TransactionBuilder}
    (h : user.modifyTokenSupplyAndBalance token holder amount method = .ok assemble)
    (signatureOf : GenericAccount → Bytes → Except AccountError Bytes)
    (ledger pending : List Block) {final : System}
    (hreaches : Reaches (Call.mk user assemble signatureOf).step AnswersHonestly
      ((Call.mk user assemble signatureOf).initial ledger pending) final) :
    (final.accepted.map (balancesOf token)).sum ≤ (final.accepted.map (supplyOf token)).sum := by
  cases hbuilder : user.signedBuilder with
  | error error =>
    have hgroups : (Call.mk user assemble signatureOf).groups = [] := by
      rw [Call.groups, hbuilder]
    apply Call.supply_covers _ _ ledger pending hreaches
    · simp [hgroups]
    · rw [hgroups]
      exact le_rfl
  | ok builder =>
    obtain ⟨account, signer, hgroups⟩ :=
      UserClient.groups_modifyTokenSupplyAndBalance h hbuilder signatureOf
    apply Call.supply_covers _ _ ledger pending hreaches
    · rw [hgroups]
      split_ifs <;> simp [PendingOp.Adjusts]
    · rw [hgroups]
      -- a mint adds in its first group what it takes away in the second, and so does a burn
      split_ifs <;> cases method <;>
        simp_all [Covers, Group.worth, PendingOp.worth, adjustedBy]

end Steps

end Supply

/-! ## A mint -/

section Samples

open scoped Reference Asn1.Reference

namespace Sample

open Reference

/-- The conflict of `mintEvents`, after which both groups are published. -/
def fundedEvents (other : Block) : List Event :=
  mintEvents other ++ [.answer (.ok true), .publish, .accept 1]

def funded : Option System :=
  other.bind fun other =>
    Machine.run mint.step AnswersHonestly (mint.initial [] []) (fundedEvents other)

end Sample

theorem supply_covers_balances_sample : ∃ final,
    Reaches Sample.mint.step AnswersHonestly (Sample.mint.initial [] []) final ∧
      final.attempt = 1 ∧ (final.accepted.map (supplyOf Sample.token)).sum = 10 ∧
      (final.accepted.map (balancesOf Sample.token)).sum ≤
        (final.accepted.map (supplyOf Sample.token)).sum := by
  obtain ⟨final, hrun, hfinal⟩ := Option.map_eq_some_iff.mp
    (by decide +kernel : Sample.funded.map (fun final =>
      (final.attempt, (final.accepted.map (supplyOf Sample.token)).sum)) = some (1, 10))
  obtain ⟨other, -, hrun⟩ := Option.bind_eq_some_iff.mp hrun
  obtain ⟨hattempt, hsupply⟩ := Prod.mk.inj hfinal
  have hreaches := Machine.reaches_of_run hrun
  exact ⟨final, hreaches, hattempt, hsupply,
    supply_covers_balances Sample.user Sample.token none (by decide) .add rfl _ _ _ hreaches⟩

end Samples

end KeetaNode.Client
