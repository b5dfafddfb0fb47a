import KeetaNode.Crypto.Reference
import KeetaNode.Lib.Loop

/-!
# The signer field of a block

A single account, or a tree of multisig addresses whose leaves are accounts.
`requiredSigners` walks the tree with a double-ended queue and is shown to return
the distinct leaves in depth-first order.

- `keetanetwork-block/src/signer.rs`
-/

namespace KeetaNode

open ByteCodec

/-- Among first occurrences nothing occurs twice. -/
theorem nodup_eraseDups {α : Type} [DecidableEq α] (as : List α) : as.eraseDups.Nodup := by
  generalize hn : as.length = n
  induction n using Nat.strong_induction_on generalizing as with
  | _ n ih =>
    cases as with
    | nil => simp
    | cons a as =>
      rw [List.eraseDups_cons, List.nodup_cons, List.mem_eraseDups, List.mem_filter]
      refine ⟨by simp, ih _ ?_ _ rfl⟩
      have := List.length_filter_le (fun b => !b == a) as
      rw [← hn, List.length_cons]
      omega

section Flattening

variable [Crypto]

inductive Signer where
  | single (account : GenericAccount)
  | multisig (address : GenericAccount) (signers : List Signer)

namespace Signer

mutual

def decEq : (a b : Signer) → Decidable (a = b)
  | .single a, .single b => decidable_of_iff (a = b) (by simp)
  | .multisig a as, .multisig b bs =>
    have := decEqAll as bs
    decidable_of_iff (a = b ∧ as = bs) (by simp)
  | .single _, .multisig _ _ => .isFalse (by simp)
  | .multisig _ _, .single _ => .isFalse (by simp)

def decEqAll : (as bs : List Signer) → Decidable (as = bs)
  | [], [] => .isTrue rfl
  | a :: as, b :: bs =>
    have := decEq a b
    have := decEqAll as bs
    decidable_of_iff (a = b ∧ as = bs) (by simp)
  | [], _ :: _ => .isFalse (by simp)
  | _ :: _, [] => .isFalse (by simp)

end

instance signerDecidableEq : DecidableEq Signer := decEq

/-- Induction over signer trees, with the children's hypothesis for every child. -/
@[elab_as_elim]
theorem treeInduction {motive : Signer → Prop} (single : ∀ account, motive (.single account))
    (multisig : ∀ address signers, (∀ s ∈ signers, motive s) → motive (.multisig address signers)) :
    ∀ signer, motive signer
  | .single account => single account
  | .multisig address signers => multisig address signers (children signers)
where
  /-- The same for every tree of a list. -/
  children : ∀ signers : List Signer, ∀ s ∈ signers, motive s
    | [], _, hs => absurd hs List.not_mem_nil
    | t :: signers, s, hs =>
      match List.mem_cons.mp hs with
      | .inl h => h ▸ treeInduction single multisig t
      | .inr h => children signers s h

/-- The account a signer field represents. -/
def principal : Signer → GenericAccount
  | single account => account
  | multisig address _ => address

def isMultisig : Signer → Bool
  | single _ => false
  | multisig _ _ => true

/-! ## Flattening -/

mutual

/-- Nodes of a tree. -/
def size : Signer → Nat
  | .single _ => 1
  | .multisig _ signers => 1 + sizeAll signers

/-- Nodes of a list of trees. -/
def sizeAll : List Signer → Nat
  | [] => 0
  | s :: signers => s.size + sizeAll signers

end

/-- The loop variables of `required_signers`. -/
structure FlattenState where
  queue : List Signer
  visited : List String
  out : List GenericAccount

/-- One round: a leaf is kept at its first visit, a node hands its children to the
front of the queue, the last one first. -/
def flattenStep : FlattenState → FlattenState ⊕ List GenericAccount
  | ⟨[], _, out⟩ => .inr out
  | ⟨.single account :: queue, visited, out⟩ =>
    if account.toString ∈ visited then .inl ⟨queue, visited, out⟩
    else .inl ⟨queue, account.toString :: visited, out ++ [account]⟩
  | ⟨.multisig _ signers :: queue, visited, out⟩ =>
    .inl ⟨signers.reverse.foldl (fun queue child => child :: queue) queue, visited, out⟩

def flattenMeasure (state : FlattenState) : Nat := sizeAll state.queue

/-- The accounts which must sign, in signature order. -/
def requiredSigners (signer : Signer) : List GenericAccount :=
  loop flattenStep [] flattenMeasure ⟨[signer], [], []⟩

mutual

/-- The leaves of a tree, in depth-first pre-order. -/
def leaves : Signer → List GenericAccount
  | .single account => [account]
  | .multisig _ signers => leavesAll signers

/-- The leaves of a list of trees. -/
def leavesAll : List Signer → List GenericAccount
  | [] => []
  | s :: signers => s.leaves ++ leavesAll signers

end

theorem leavesAll_append (a b : List Signer) :
    leavesAll (a ++ b) = leavesAll a ++ leavesAll b := by
  induction a with
  | nil => rfl
  | cons s a ih => simp [leavesAll, ih]

theorem sizeAll_append (a b : List Signer) : sizeAll (a ++ b) = sizeAll a + sizeAll b := by
  induction a with
  | nil => simp [sizeAll]
  | cons s a ih => simp [sizeAll, ih, Nat.add_assoc]

theorem foldl_pushFront (signers queue : List Signer) :
    signers.reverse.foldl (fun queue child => child :: queue) queue = signers ++ queue := by
  simp

theorem flattenStep_decreasing : Decreasing flattenStep flattenMeasure := by
  rintro ⟨queue, visited, out⟩ state h
  match queue with
  | [] => simp [flattenStep] at h
  | .single account :: queue =>
    simp only [flattenStep] at h
    -- visited or not, the leaf leaves the queue
    split at h <;>
      · cases h
        simp [flattenMeasure, sizeAll, size]
  | .multisig address signers :: queue =>
    simp only [flattenStep, foldl_pushFront, Sum.inl.injEq] at h
    subst h
    simp [flattenMeasure, sizeAll, size, sizeAll_append]

theorem mem_leavesAll {account : GenericAccount} {signers : List Signer} :
    account ∈ leavesAll signers ↔ ∃ s ∈ signers, account ∈ s.leaves := by
  induction signers with
  | nil => simp [leavesAll]
  | cons s signers ih => simp [leavesAll, ih]

section Lawful

variable [LawfulCrypto]

/-- From any state the loop appends the leaves of the queue that it has not yet
listed, each once. -/
theorem loop_flattenStep (state : FlattenState)
    (hvisited : ∀ account : GenericAccount,
      account.toString ∈ state.visited ↔ account ∈ state.out) :
    loop flattenStep [] flattenMeasure state =
      state.out ++ ((leavesAll state.queue).filter (· ∉ state.out)).eraseDups := by
  generalize hn : flattenMeasure state = n
  induction n using Nat.strong_induction_on generalizing state with
  | _ n ih =>
    subst hn
    rw [loop_eq flattenStep_decreasing]
    -- the hypothesis for any state a round leads to
    have hnext : ∀ next, flattenStep state = .inl next →
        (∀ account : GenericAccount, account.toString ∈ next.visited ↔ account ∈ next.out) →
        loop flattenStep [] flattenMeasure next =
          next.out ++ ((leavesAll next.queue).filter (· ∉ next.out)).eraseDups := fun next h hv =>
      ih _ (flattenStep_decreasing _ _ h) next hv rfl
    obtain ⟨queue, visited, out⟩ := state
    match queue with
    | [] => simp [flattenStep, leavesAll]
    | .single account :: queue =>
      by_cases hmem : account.toString ∈ visited
      -- a leaf that is listed already is dropped on both sides
      · have hout : account ∈ out := (hvisited account).mp hmem
        have hstep : flattenStep ⟨.single account :: queue, visited, out⟩ =
            .inl ⟨queue, visited, out⟩ := by simp [flattenStep, hmem]
        rw [hstep]
        simp only [hnext _ hstep hvisited, leavesAll, leaves, List.singleton_append]
        rw [List.filter_cons_of_neg (by simpa using hout)]
      · have hout : account ∉ out := fun h => hmem ((hvisited account).mpr h)
        have hstep : flattenStep ⟨.single account :: queue, visited, out⟩ =
            .inl ⟨queue, account.toString :: visited, out ++ [account]⟩ := by
          simp [flattenStep, hmem]
        -- the new leaf is marked and listed together
        have hinv : ∀ a : GenericAccount,
            a.toString ∈ account.toString :: visited ↔ a ∈ out ++ [account] := by
          intro a
          rw [List.mem_cons, List.mem_append, List.mem_singleton, hvisited a,
            GenericAccount.toString_injective.eq_iff, or_comm]
        rw [hstep]
        simp only [hnext _ hstep hinv, leavesAll, leaves, List.singleton_append]
        rw [List.filter_cons_of_pos (by simpa using hout), List.eraseDups_cons, List.filter_filter,
          List.append_assoc, List.singleton_append]
        congr 3
        apply List.filter_congr
        intro a _
        rw [Bool.eq_iff_iff]
        simp [and_comm]
    -- the members take the place of their node
    | .multisig address signers :: queue =>
      have hstep : flattenStep ⟨.multisig address signers :: queue, visited, out⟩ =
          .inl ⟨signers ++ queue, visited, out⟩ := by
        simp [flattenStep]
      rw [hstep]
      simp only [hnext _ hstep hvisited, leavesAll, leaves, leavesAll_append]

/-- **The required signers are the distinct leaves, in depth-first order.** -/
theorem requiredSigners_eq (signer : Signer) :
    signer.requiredSigners = signer.leaves.eraseDups := by
  unfold requiredSigners
  rw [loop_flattenStep _ (by simp)]
  simp [leavesAll]

/-- **Flattening stops, and lists the leaves of the tree at their first occurrences**: all of
them, and none twice. -/
theorem requiredSigners_spec (signer : Signer) :
    Returns flattenStep ⟨[signer], [], []⟩ signer.requiredSigners ∧
    signer.requiredSigners = signer.leaves.eraseDups ∧
    (∀ account ∈ signer.leaves, account ∈ signer.requiredSigners) ∧
    (signer.requiredSigners.map GenericAccount.toString).Nodup := by
  have heq := requiredSigners_eq signer
  refine ⟨returns_loop flattenStep_decreasing _ _, heq, fun account haccount => ?_, ?_⟩
  · rw [heq]
    exact List.mem_eraseDups.mpr haccount
  · rw [heq]
    exact (nodup_eraseDups _).map GenericAccount.toString_injective

end Lawful

end Signer

end Flattening

section Samples

open scoped Reference

open Reference (alice bob identifier)

/-- An account that signs for itself and as the member of a nested address. -/
def nestedTwice : Signer :=
  .multisig (identifier .multisig 8 rfl)
    [.single bob, .multisig (identifier .multisig 9 rfl) [.single bob, .single alice],
      .single alice]

theorem requiredSigners_nestedTwice :
    nestedTwice.requiredSigners = [bob, alice] ∧ alice ∈ nestedTwice.requiredSigners :=
  ⟨(Signer.requiredSigners_spec nestedTwice).2.1.trans (by decide +kernel),
    (Signer.requiredSigners_spec nestedTwice).2.2.1 alice (by decide +kernel)⟩

end Samples

end KeetaNode
