import KeetaNode.Client.Chains
import KeetaNode.Lib.Run

/-!
# Building and publishing a transaction

`UserClient::build_and_publish` builds the blocks of a transaction and publishes them one at
a time. When the node answers that another block follows the same head, it recovers the
account and starts again: the transaction is assembled and built a second time, all of it,
whatever blocks of the first attempt the node has accepted.

- `keetanetwork-client/src/user.rs`
- `keetanetwork-client/src/client.rs` (`recover_account`, `is_ledger_code`)

The call and the node take steps in any order. The node is one chain of blocks for each
account; of the blocks it was handed it accepts, at any time, one that follows the head of
its account. What it answers is not tied to what it accepts.

## Main results

- `Invariant.step`: a clean step repeats no group
- `atMostOnce_of_clean`: clean runs take effect at most once
- `not_takesEffectAtMostOnce_mint`: a mint that takes effect twice
-/

namespace KeetaNode.Client

open ByteCodec
open Asn1 (Tag Asn1Error)
open Machine (Reaches)

section Publish

variable [Crypto]

/-! ## The user client -/

/-- A client bound to a signer and to the account it operates. -/
structure UserClient where
  client : KeetaClient
  account : Option GenericAccount
  signer : Option GenericAccount

namespace UserClient

/-- How often a conflict lets a transaction be built again. -/
def maxRebuildRetries : ℕ := 2

/-- The account given, the operating account or the signer. -/
def accountOr (user : UserClient) (account : Option GenericAccount) :
    Except ClientError GenericAccount :=
  match account <|> user.account <|> user.signer with
  | some account => .ok account
  | none => .error .signerRequired

def boundSigner (user : UserClient) : Except ClientError GenericAccount :=
  match user.signer with
  | some signer => .ok signer
  | none => .error .signerRequired

/-- A builder for the operating account, signed by the signer. -/
def signedBuilder (user : UserClient) : Except ClientError TransactionBuilder := do
  let signer ← user.boundSigner
  let account ← user.accountOr none
  let builder := TransactionBuilder.new user.client account
  if account.toString ≠ signer.toString then
    return builder.forAccountWithSigner account signer
  return builder

/-- What `modify_token_supply_and_balance` assembles: the token's supply in one group and the
holder's balance in another, which for a burn comes first. -/
def modifyTokenSupplyAndBalance (user : UserClient) (token : GenericAccount)
    (holder : Option GenericAccount) (amount : Int) (method : AdjustMethod) :
    Except ClientError (TransactionBuilder → TransactionBuilder) := do
  let signer ← user.boundSigner
  let holder ← user.accountOr holder
  let distinctHolder := holder.toString ≠ token.toString
  let supply (builder : TransactionBuilder) := builder.modifyTokenSupply amount method
  let balance (builder : TransactionBuilder) :=
    builder.modifyTokenBalance (.resolved token) amount method
  let switch (account : GenericAccount) (builder : TransactionBuilder) :=
    if distinctHolder then builder.forAccountWithSigner account signer else builder
  if method = .subtract then
    return fun builder =>
      supply (switch token (balance (builder.forAccountWithSigner holder signer)))
  return fun builder =>
    balance (switch holder (supply (builder.forAccountWithSigner token signer)))

end UserClient

/-! ## The node -/

/-- A block the call has built: the attempt it belongs to and the place of its group. -/
structure Submission where
  attempt : ℕ
  group : ℕ
  block : Block
  deriving DecidableEq

/-- A block the node was handed, by the call or by anybody else. -/
inductive Entry where
  | own (submission : Submission)
  | foreign (block : Block)
  deriving DecidableEq

def Entry.block : Entry → Block
  | .own submission => submission.block
  | .foreign block => block

/-- The chains of all accounts, the last accepted block first, and the blocks which the node
was handed but has not accepted. -/
structure Node where
  ledger : List Entry
  pending : List Entry

namespace Node

def head (node : Node) (account : GenericAccount) : Option BlockHash :=
  (node.ledger.find? fun entry => entry.block.data.account = account).map (·.block.hash)

/-- A block follows the head of its account. -/
def Extends (node : Node) (block : Block) : Prop :=
  block.data.previous = (node.head block.data.account).getD block.data.account.toOpeningHash

instance instDecidableExtends (node : Node) (block : Block) : Decidable (node.Extends block) :=
  inferInstanceAs (Decidable (_ = _))

def hand (node : Node) (entry : Entry) : Node :=
  { node with pending := node.pending ++ [entry] }

/-- Accept the pending block at a place. -/
def accept (node : Node) (place : ℕ) : Option Node := do
  let entry ← node.pending[place]?
  guard (node.Extends entry.block)
  return { ledger := entry :: node.ledger, pending := node.pending.eraseIdx place }

end Node

/-! ## One call -/

/-- Where the call stands. -/
inductive Phase where
  /-- The next group is to be built. -/
  | building (builder : TransactionBuilder) (next : Group × ℕ) (rest : List (Group × ℕ))
      (state : TransactionBuilder.BuildState) (built : List Submission)
  /-- The next block is to be published. -/
  | publishing (next : Submission) (rest : List Submission)
  /-- The node has the block and owes an answer. -/
  | answering (rest : List Submission)
  /-- The account is being recovered after this conflict. -/
  | recovering (conflict : ClientError)
  | finished (result : Except ClientError Bool)

namespace Phase

/-- `originate`: publish one block after the other. -/
def originate : List Submission → Phase
  | [] => finished (.ok true)
  | next :: rest => publishing next rest

/-- The loop of `build`, then `originate`. -/
def build (builder : TransactionBuilder) (state : TransactionBuilder.BuildState)
    (built : List Submission) : List (Group × ℕ) → Phase
  | [] => originate built
  | next :: rest => building builder next rest state built

end Phase

/-- A call of `build_and_publish`. -/
structure Call where
  client : UserClient
  assemble : TransactionBuilder → TransactionBuilder
  /-- What the keys of the accounts sign. -/
  signatureOf : GenericAccount → Bytes → Except AccountError Bytes

structure System where
  node : Node
  attempt : ℕ
  phase : Phase

inductive Event where
  /-- Build the next group, at this moment. Asking for the head may fail. -/
  | build (reachable : Except ClientError Unit) (now : BlockTime)
  /-- Hand the next block to the node. -/
  | publish
  /-- What the node answers to that. -/
  | answer (result : Except ClientError Bool)
  /-- What the recovery comes to: whether there was a staple to reassemble. -/
  | recover (result : Except ClientError Bool)
  /-- The node accepts the pending block at a place. -/
  | accept (place : ℕ)
  /-- The node is handed a block by anybody else. -/
  | hand (block : Block)

namespace Call

/-- The beginning of an attempt. -/
def start (call : Call) : Phase :=
  match call.client.signedBuilder with
  | .error error => .finished (.error error)
  | .ok builder =>
    let (groups, builder) := (call.assemble builder).takeGroups
    .build builder {} [] groups.zipIdx

/-- A call in its first attempt, at a node which others have handed blocks. -/
def initial (call : Call) (ledger pending : List Block) : System where
  node := { ledger := ledger.map .foreign, pending := pending.map .foreign }
  attempt := 0
  phase := call.start

def stepPublish (system : System) : Option System :=
  match system.phase with
  | .publishing next rest =>
    some { system with node := system.node.hand (.own next), phase := .answering rest }
  | _ => none

def stepAnswer (system : System) (result : Except ClientError Bool) : Option System :=
  match system.phase with
  | .answering rest =>
    some { system with phase :=
      match result with
      | .ok true => .originate rest
      | .ok false => .finished (.ok false)
      | .error error =>
        let conflict := isLedgerCode error "LEDGER_SUCCESSOR_VOTE_EXISTS"
        if ¬ conflict ∨ UserClient.maxRebuildRetries ≤ system.attempt then
          .finished (.error error)
        else .recovering error }
  | _ => none

def stepRecover (call : Call) (system : System) (result : Except ClientError Bool) :
    Option System :=
  match system.phase with
  | .recovering conflict =>
    some (match result with
    | .error error => { system with phase := .finished (.error error) }
    | .ok false => { system with phase := .finished (.error conflict) }
    -- the transaction is assembled again and all its groups are built again
    | .ok true => { system with attempt := system.attempt + 1, phase := call.start })
  | _ => none

def stepAccept (system : System) (place : ℕ) : Option System :=
  (system.node.accept place).map fun node => { system with node }

/-- A block of the call that is handed in again is the one the node has. -/
def stepHand (system : System) (block : Block) : Option System :=
  if ∀ entry ∈ system.node.ledger ++ system.node.pending, entry.block ≠ block then
    some { system with node := system.node.hand (.foreign block) }
  else none

end Call

/-! ## Taking effect at most once -/

/-- An operation of a transaction: the place of its group, and its place in the block the
group is rendered to. -/
structure OperationRef where
  group : ℕ
  index : ℕ

/-- A block of the call that the operation is contained in. -/
def Entry.Contains (operation : OperationRef) : Entry → Prop
  | .own submission => submission.group = operation.group ∧
      operation.index < submission.block.data.operations.length
  | .foreign _ => False

instance Entry.instDecidableContains (operation : OperationRef) (entry : Entry) :
    Decidable (entry.Contains operation) := by
  cases entry <;> unfold Entry.Contains <;> infer_instance

/-- No operation is contained in two accepted blocks. -/
def System.AtMostOnce (system : System) : Prop :=
  ∀ operation : OperationRef, system.node.ledger.countP (Entry.Contains operation) ≤ 1

/-! ## Steps -/

section Steps

variable [X509] [Tlv Tag Asn1Error]

namespace Call

def stepBuild (call : Call) (system : System) (reachable : Except ClientError Unit)
    (now : BlockTime) : Option System :=
  match system.phase with
  | .building builder (group, place) rest state built =>
    let head := reachable.map fun _ => system.node.head group.account
    some { system with phase :=
      match builder.buildGroup call.signatureOf now head state group with
      | .error error => .finished (.error error)
      | .ok (state, none) => .build builder state built rest
      | .ok (state, some block) =>
        .build builder state (built ++ [⟨system.attempt, place, block⟩]) rest }
  | _ => none

def step (call : Call) (system : System) : Event → Option System
  | .build reachable now => call.stepBuild system reachable now
  | .publish => stepPublish system
  | .answer result => stepAnswer system result
  | .recover result => call.stepRecover system result
  | .accept place => stepAccept system place
  | .hand block => stepHand system block

end Call

/-- No run of the call has an operation in two accepted blocks. -/
def Call.TakesEffectAtMostOnce (call : Call) (ledger pending : List Block) : Prop :=
  ∀ {final : System},
    Reaches call.step (fun _ _ => True) (call.initial ledger pending) final → final.AtMostOnce

end Steps

/-! ## Clean steps -/

/-- The attempt a block of the call belongs to. -/
def Entry.attempt : Entry → Option ℕ
  | .own submission => some submission.attempt
  | .foreign _ => none

/-- A recovery lets the call build again only when the node has accepted none of its blocks,
and the node accepts no block of an attempt that was given up. -/
def Clean (system : System) : Event → Prop
  | .recover (.ok true) => ∀ entry ∈ system.node.ledger, entry.attempt = none
  | .accept place => ∀ entry ∈ system.node.pending[place]?, ∀ attempt ∈ entry.attempt,
      attempt = system.attempt
  | _ => True

instance instDecidableClean (system : System) (event : Event) :
    Decidable (Clean system event) := by
  unfold Clean
  split <;> infer_instance

/-! ## The invariant -/

/-- The groups of the blocks of one attempt. -/
def groupsOf (attempt : ℕ) (entries : List Entry) : List ℕ :=
  entries.filterMap fun
    | .own submission => if submission.attempt = attempt then some submission.group else none
    | .foreign _ => none

namespace Phase

/-- The blocks that are not handed in yet. -/
def submissions : Phase → List Submission
  | building _ _ _ _ built => built
  | publishing next rest => next :: rest
  | answering rest => rest
  | recovering _ => []
  | finished _ => []

/-- The groups that are still to be built. -/
def unbuilt : Phase → List (Group × ℕ)
  | building _ next rest _ _ => next :: rest
  | _ => []

/-- The groups of the blocks that are not handed in yet, built or to be built. -/
def groups (phase : Phase) : List ℕ :=
  phase.submissions.map (·.group) ++ phase.unbuilt.map (·.2)

end Phase

/-- The groups of the present attempt: of its blocks at the node, and of those to come. -/
def System.groups (system : System) : List ℕ :=
  groupsOf system.attempt (system.node.ledger ++ system.node.pending) ++ system.phase.groups

/-- All accepted blocks of the call belong to the present attempt, and no two of its blocks
to one group. -/
structure Invariant (system : System) : Prop where
  accepted : ∀ submission, .own submission ∈ system.node.ledger →
    submission.attempt = system.attempt
  submitted : ∀ submission, .own submission ∈ system.node.pending →
    submission.attempt ≤ system.attempt
  prepared : ∀ submission ∈ system.phase.submissions, submission.attempt = system.attempt
  distinct : system.groups.Nodup

/-! ## The phases -/

namespace Phase

variable {builder : TransactionBuilder} {state : TransactionBuilder.BuildState}
  {built : List Submission} {rest : List (Group × ℕ)}

@[simp]
theorem submissions_originate : (originate built).submissions = built := by
  cases built <;> rfl

@[simp]
theorem submissions_build : (build builder state built rest).submissions = built := by
  cases rest with
  | nil => exact submissions_originate
  | cons next rest => rfl

@[simp]
theorem groups_originate : (originate built).groups = built.map (·.group) := by
  cases built <;> simp [originate, groups, submissions, unbuilt]

@[simp]
theorem groups_build :
    (build builder state built rest).groups = built.map (·.group) ++ rest.map (·.2) := by
  cases rest with
  | nil => simp [build]
  | cons next rest => rfl

end Phase

/-- An attempt begins with nothing built. -/
theorem Call.submissions_start (call : Call) : call.start.submissions = [] := by
  unfold start
  split
  · rfl
  · simp

/-- An attempt begins with the groups in order. -/
theorem Call.nodup_groups_start (call : Call) : call.start.groups.Nodup := by
  unfold start
  split
  · exact List.nodup_nil
  · simp [List.nodup_range']

/-! ## Every step keeps the invariant -/

theorem groupsOf_append {attempt : ℕ} {entries others : List Entry} :
    groupsOf attempt (entries ++ others) = groupsOf attempt entries ++ groupsOf attempt others :=
  List.filterMap_append

@[simp]
theorem groupsOf_foreign {attempt : ℕ} {block : Block} {entries : List Entry} :
    groupsOf attempt (.foreign block :: entries) = groupsOf attempt entries := rfl

theorem groupsOf_own {attempt : ℕ} {submission : Submission} {entries : List Entry}
    (h : submission.attempt = attempt) :
    groupsOf attempt (.own submission :: entries) =
      submission.group :: groupsOf attempt entries := by
  simp [groupsOf, h]

theorem groupsOf_eq_nil {attempt : ℕ} {entries : List Entry}
    (h : ∀ submission, .own submission ∈ entries → submission.attempt < attempt) :
    groupsOf attempt entries = [] := by
  refine List.filterMap_eq_nil_iff.mpr fun entry hentry => ?_
  cases entry with
  | own submission => simp [(h submission hentry).ne]
  | foreign block => rfl

namespace Invariant

variable {system next : System}

/-- The call moves on to a phase with some of the groups. -/
theorem withPhase (h : Invariant system) {phase : Phase}
    (hsubmissions : ∀ submission ∈ phase.submissions, submission.attempt = system.attempt)
    (hgroups : phase.groups.Sublist system.phase.groups) :
    Invariant { system with phase } where
  accepted := h.accepted
  submitted := h.submitted
  prepared := hsubmissions
  distinct := h.distinct.sublist (hgroups.append_left _)

theorem finished (h : Invariant system) (result : Except ClientError Bool) :
    Invariant { system with phase := .finished result } :=
  h.withPhase (by simp [Phase.submissions]) (List.nil_sublist _)

theorem stepPublish (h : Invariant system) (hstep : Call.stepPublish system = some next) :
    Invariant next := by
  unfold Call.stepPublish at hstep
  split at hstep <;> cases hstep
  rename_i submission rest hphase
  have hprepared := h.prepared
  rw [hphase] at hprepared
  have hattempt : submission.attempt = system.attempt :=
    hprepared submission List.mem_cons_self
  exact {
    accepted := h.accepted
    submitted := by
      intro other hother
      simp only [Node.hand, List.mem_append, List.mem_singleton, Entry.own.injEq] at hother
      rcases hother with hother | rfl
      · exact h.submitted other hother
      · exact hattempt.le
    prepared := fun other hother => hprepared other (List.mem_cons_of_mem _ hother)
    distinct := by
      -- the group moves from the phase to the node
      have hdistinct := h.distinct
      rw [System.groups, hphase] at hdistinct
      simpa [System.groups, Node.hand, groupsOf, hattempt, Phase.groups, Phase.submissions,
        Phase.unbuilt] using hdistinct }

theorem stepAnswer (h : Invariant system) {result : Except ClientError Bool}
    (hstep : Call.stepAnswer system result = some next) : Invariant next := by
  unfold Call.stepAnswer at hstep
  split at hstep <;> cases hstep
  rename_i rest hphase
  have hrest : ∀ submission ∈ rest, submission.attempt = system.attempt := by
    have hprepared := h.prepared
    rwa [hphase] at hprepared
  split
  · refine h.withPhase (by simpa using hrest) ?_
    rw [hphase, Phase.groups_originate]
    simp [Phase.groups, Phase.submissions, Phase.unbuilt]
  · exact h.finished _
  · dsimp only
    split
    · exact h.finished _
    · exact h.withPhase (by simp [Phase.submissions]) (List.nil_sublist _)

/-- A new attempt has no blocks at the node yet. -/
theorem stepRecover (h : Invariant system) {call : Call} {result : Except ClientError Bool}
    (hclean : Clean system (.recover result)) (hstep : call.stepRecover system result = some next) :
    Invariant next := by
  unfold Call.stepRecover at hstep
  split at hstep <;> cases hstep
  split
  · exact h.finished _
  · exact h.finished _
  · -- the next attempt starts with nothing of this one in the ledger
    have hledger : ∀ submission, Entry.own submission ∉ system.node.ledger := by
      intro submission hmem
      have hattempt := hclean _ hmem
      cases hattempt
    have hpending : ∀ submission, .own submission ∈ system.node.pending →
        submission.attempt < system.attempt + 1 :=
      fun submission hmem => Nat.lt_succ_of_le (h.submitted submission hmem)
    exact {
      accepted := fun submission hmem => absurd hmem (hledger submission)
      submitted := fun submission hmem => (hpending submission hmem).le
      prepared := by simp [call.submissions_start]
      distinct := by
        rw [System.groups, groupsOf_eq_nil]
        · exact call.nodup_groups_start
        · intro submission hmem
          rcases List.mem_append.mp hmem with hmem | hmem
          · exact absurd hmem (hledger submission)
          · exact hpending submission hmem }

/-- A block of the present attempt moves within the node. -/
theorem stepAccept (h : Invariant system) {place : ℕ} (hclean : Clean system (.accept place))
    (hstep : Call.stepAccept system place = some next) : Invariant next := by
  simp only [Call.stepAccept, Node.accept, Option.bind_eq_bind, Option.map_eq_some_iff,
    Option.bind_eq_some_iff, Option.guard_eq_some', Option.pure_def, Option.some.injEq] at hstep
  obtain ⟨node, ⟨entry, hentry, -, -, rfl⟩, rfl⟩ := hstep
  have hperm : (entry :: system.node.pending.eraseIdx place).Perm system.node.pending := by
    obtain ⟨hplace, rfl⟩ := List.getElem?_eq_some_iff.mp hentry
    exact List.getElem_cons_eraseIdx_perm hplace
  exact {
    accepted := by
      intro submission hmem
      rcases List.mem_cons.mp hmem with rfl | hmem
      · exact hclean _ hentry _ rfl
      · exact h.accepted submission hmem
    submitted := fun submission hmem =>
      h.submitted submission (List.mem_of_mem_eraseIdx hmem)
    prepared := h.prepared
    distinct := by
      -- the entry goes from one list to the other
      have hentries : (entry :: system.node.ledger ++ system.node.pending.eraseIdx place).Perm
          (system.node.ledger ++ system.node.pending) :=
        List.perm_middle.symm.trans (hperm.append_left _)
      exact (((hentries.filterMap _).append_right _).nodup_iff).mpr h.distinct }

theorem stepHand (h : Invariant system) {block : Block}
    (hstep : Call.stepHand system block = some next) : Invariant next := by
  simp only [Call.stepHand, Option.ite_none_right_eq_some, Option.some.injEq] at hstep
  obtain ⟨-, rfl⟩ := hstep
  exact {
    accepted := h.accepted
    submitted := by simpa [Node.hand] using h.submitted
    prepared := h.prepared
    distinct := by simpa [System.groups, Node.hand, groupsOf] using h.distinct }

theorem initial (call : Call) (ledger pending : List Block) :
    Invariant (call.initial ledger pending) where
  accepted := by simp [Call.initial]
  submitted := by simp [Call.initial]
  prepared := by simp [Call.initial, call.submissions_start]
  distinct := by
    rw [System.groups, groupsOf_eq_nil (by simp [Call.initial])]
    exact call.nodup_groups_start

/-! ## Clean runs -/

/-- The accepted blocks an operation is contained in are blocks of its group. -/
theorem countP_contains_le {attempt : ℕ} {entries : List Entry}
    (h : ∀ submission, .own submission ∈ entries → submission.attempt = attempt)
    (operation : OperationRef) :
    entries.countP (Entry.Contains operation) ≤
      (groupsOf attempt entries).count operation.group := by
  induction entries with
  | nil => exact Nat.zero_le _
  | cons entry entries ih =>
    have hrest := ih fun submission hmem => h submission (List.mem_cons_of_mem _ hmem)
    cases entry with
    | foreign block =>
      have hnot : ¬ Entry.Contains operation (.foreign block) := id
      simpa [List.countP_cons, hnot] using hrest
    | own submission =>
      rw [groupsOf_own (h submission List.mem_cons_self), List.countP_cons, List.count_cons]
      refine Nat.add_le_add hrest ?_
      by_cases hcontains : Entry.Contains operation (.own submission)
      · simp [hcontains, hcontains.1]
      · simp [hcontains]

theorem atMostOnce (h : Invariant system) : system.AtMostOnce := by
  intro operation
  have hledger : (groupsOf system.attempt system.node.ledger).Nodup := by
    have hdistinct := h.distinct
    rw [System.groups, groupsOf_append] at hdistinct
    exact hdistinct.of_append_left.of_append_left
  calc system.node.ledger.countP (Entry.Contains operation)
      ≤ (groupsOf system.attempt system.node.ledger).count operation.group :=
        countP_contains_le h.accepted operation
    _ ≤ 1 := List.nodup_iff_count_le_one.mp hledger _

end Invariant

section Steps

variable [X509] [Tlv Tag Asn1Error] {system next : System}

/-- A group is built to at most one block, which takes its place. -/
theorem Invariant.stepBuild (h : Invariant system) {call : Call}
    {reachable : Except ClientError Unit} {now : BlockTime}
    (hstep : call.stepBuild system reachable now = some next) :
    Invariant next := by
  unfold Call.stepBuild at hstep
  split at hstep <;> cases hstep
  rename_i builder group place rest state built hphase
  have hbuilt : ∀ submission ∈ built, submission.attempt = system.attempt := by
    have hprepared := h.prepared
    rwa [hphase] at hprepared
  have hgroups : system.phase.groups = built.map (·.group) ++ place :: rest.map (·.2) := by
    rw [hphase]
    rfl
  split
  · exact h.finished _
  · refine h.withPhase (by simpa using hbuilt) ?_
    rw [hgroups, Phase.groups_build]
    exact (List.sublist_cons_self ..).append_left _
  · refine h.withPhase ?_ ?_
    · simp only [Phase.submissions_build, List.mem_append, List.mem_singleton]
      rintro submission (hmem | rfl)
      · exact hbuilt submission hmem
      · rfl
    · rw [hgroups, Phase.groups_build]
      simp

/-- A clean step repeats no group. -/
theorem Invariant.step (h : Invariant system) {call : Call} {event : Event}
    (hclean : Clean system event) (hstep : call.step system event = some next) :
    Invariant next := by
  cases event with
  | build reachable now => exact h.stepBuild hstep
  | publish => exact h.stepPublish hstep
  | answer result => exact h.stepAnswer hstep
  | recover result => exact h.stepRecover hclean hstep
  | accept place => exact h.stepAccept hclean hstep
  | hand block => exact h.stepHand hstep

/-- **A transaction takes effect at most once in every run of clean steps.** -/
theorem atMostOnce_of_clean (call : Call) (ledger pending : List Block) {final : System}
    (h : Reaches call.step Clean (call.initial ledger pending) final) : final.AtMostOnce :=
  have hinvariant : Invariant final :=
    h.invariant (.initial call ledger pending) fun hinv hclean hstep => hinv.step hclean hstep
  hinvariant.atMostOnce

end Steps

end Publish

/-! ## A mint that takes effect twice -/

section Samples

open scoped Reference Asn1.Reference

namespace Sample

open Reference

def user : UserClient where
  client := keeta
  account := none
  signer := some alice

/-- Alice mints five of a token to herself. -/
def mint : Call where
  client := user
  assemble := (user.modifyTokenSupplyAndBalance token none 5 .add).toOption.getD id
  signatureOf

/-- Alice gives herself the five without minting them, in one group. -/
def balance : Call where
  client := user
  assemble := fun builder => builder.modifyTokenBalance (.resolved token) 5 .add
  signatureOf

/-- The first block of alice from another device. -/
def other : Option Block :=
  (user.client.sealBlock signatureOf Asn1.Sample.date alice alice none none none
    [.setRep { recipient := bob }]).toOption

def buildNext : Event := .build (.ok ()) Asn1.Sample.date

def conflict : Event := .answer (.error (.node (some "LEDGER_SUCCESSOR_VOTE_EXISTS")))

/-- The token's block is accepted, alice's conflicts with the one from the other device. That
one is recovered, both groups are built again and the token's block is accepted again. -/
def mintEvents (other : Block) : List Event :=
  [buildNext, buildNext, .publish, .accept 0, .answer (.ok true), .hand other, .publish, conflict,
    .accept 0, .recover (.ok true), buildNext, buildNext, .publish, .accept 1]

/-- The only block of the first attempt conflicts, the one of the second is accepted. -/
def balanceEvents (other : Block) : List Event :=
  [buildNext, .hand other, .publish, conflict, .accept 0, .recover (.ok true), buildNext, .publish,
    .accept 1, .answer (.ok true)]

def minted : Option System :=
  other.bind fun other =>
    Machine.run mint.step (fun _ _ => True) (mint.initial [] []) (mintEvents other)

def balanced : Option System :=
  other.bind fun other =>
    Machine.run balance.step Clean (balance.initial [] []) (balanceEvents other)

end Sample

theorem not_takesEffectAtMostOnce_mint : ¬ Sample.mint.TakesEffectAtMostOnce [] [] := by
  obtain ⟨final, hrun, htwice⟩ := Option.map_eq_some_iff.mp
    (by decide +kernel : Sample.minted.map
      (fun final => final.node.ledger.countP (Entry.Contains ⟨0, 0⟩)) = some 2)
  obtain ⟨other, -, hrun⟩ := Option.bind_eq_some_iff.mp hrun
  intro h
  have honce := h (Machine.reaches_of_run hrun) ⟨0, 0⟩
  omega

theorem atMostOnce_of_clean_balance : ∃ final,
    Reaches Sample.balance.step Clean (Sample.balance.initial [] []) final ∧
      final.attempt = 1 ∧ final.node.ledger.countP (Entry.Contains ⟨0, 0⟩) = 1 ∧
      final.AtMostOnce := by
  obtain ⟨final, hrun, heffect⟩ := Option.map_eq_some_iff.mp
    (by decide +kernel : Sample.balanced.map (fun final =>
      (final.attempt, final.node.ledger.countP (Entry.Contains ⟨0, 0⟩))) = some (1, 1))
  obtain ⟨other, -, hrun⟩ := Option.bind_eq_some_iff.mp hrun
  obtain ⟨hattempt, hcount⟩ := Prod.mk.inj heffect
  have hreaches := Machine.reaches_of_run hrun
  exact ⟨final, hreaches, hattempt, hcount, atMostOnce_of_clean _ _ _ hreaches⟩

end Samples

end KeetaNode.Client
