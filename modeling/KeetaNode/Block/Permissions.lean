import KeetaNode.Block.Error

/-!
# Permissions

Base flags, the groups of accounts they apply to, and the normalization of a raw
bit field: `OWNER` and `ADMIN` replace all other flags, and any flag implies
`ACCESS`.

- `keetanetwork-block/src/permissions.rs`
-/

namespace KeetaNode

open ByteCodec

/-! ## Flags and groups -/

inductive BaseFlag where
  | access | owner | admin | updateInfo | sendOnBehalf | tokenAdminCreate | tokenAdminSupply
  | tokenAdminModifyBalance | storageCreate | storageCanHold | storageDeposit
  | permissionDelegateAdd | permissionDelegateRemove | manageCertificate | multisigSigner
  deriving DecidableEq, Repr

namespace BaseFlag

/-- The bit offset of a flag. -/
def offset : BaseFlag → Nat
  | access => 0
  | owner => 1
  | admin => 2
  | updateInfo => 3
  | sendOnBehalf => 4
  | tokenAdminCreate => 5
  | tokenAdminSupply => 6
  | tokenAdminModifyBalance => 7
  | storageCreate => 8
  | storageCanHold => 9
  | storageDeposit => 10
  | permissionDelegateAdd => 11
  | permissionDelegateRemove => 12
  | manageCertificate => 13
  | multisigSigner => 14

/-- All base flags in offset order. -/
def all : List BaseFlag :=
  [access, owner, admin, updateInfo, sendOnBehalf, tokenAdminCreate, tokenAdminSupply,
    tokenAdminModifyBalance, storageCreate, storageCanHold, storageDeposit,
    permissionDelegateAdd, permissionDelegateRemove, manageCertificate, multisigSigner]

@[simp] theorem mem_all (flag : BaseFlag) : flag ∈ all := by
  cases flag <;> decide

theorem offset_injective : Function.Injective offset := by
  intro a b
  cases a <;> cases b <;> decide

end BaseFlag

/-- Account groups a permission flag may be associated with. -/
inductive PermissionGroup where
  | never | any | nonIdentifier | network | token | storage | nonIdentifierOrMultisig | multisig
  deriving DecidableEq, Repr

/-- Which group constraint of a flag's rule is evaluated. -/
inductive GroupKind where
  | entity | principal | target
  deriving DecidableEq, Repr

structure FlagRule where
  canBeDefault : Bool
  entity : PermissionGroup
  principal : PermissionGroup
  target : PermissionGroup

def FlagRule.group (rule : FlagRule) : GroupKind → PermissionGroup
  | .entity => rule.entity
  | .principal => rule.principal
  | .target => rule.target

def ruleFor : BaseFlag → FlagRule
  | .access => ⟨true, .any, .any, .any⟩
  | .owner | .admin | .updateInfo => ⟨false, .any, .nonIdentifier, .never⟩
  | .sendOnBehalf => ⟨false, .any, .nonIdentifier, .token⟩
  | .storageCreate | .tokenAdminCreate => ⟨true, .network, .nonIdentifier, .never⟩
  | .storageCanHold => ⟨true, .storage, .token, .never⟩
  | .storageDeposit => ⟨true, .storage, .any, .token⟩
  | .tokenAdminSupply => ⟨false, .token, .nonIdentifier, .never⟩
  | .tokenAdminModifyBalance => ⟨false, .token, .nonIdentifier, .any⟩
  | .permissionDelegateAdd | .permissionDelegateRemove => ⟨false, .any, .nonIdentifier, .any⟩
  | .manageCertificate => ⟨true, .any, .any, .never⟩
  | .multisigSigner => ⟨false, .multisig, .nonIdentifierOrMultisig, .never⟩

def accountMatchesGroup [Crypto] (group : PermissionGroup) (account : GenericAccount) : Bool :=
  match group with
  | .any => true
  | .never => false
  | .nonIdentifier | .nonIdentifierOrMultisig =>
    !account.keyType.isIdentifier || account.keyType == .multisig
  | .network => account.keyType == .network
  | .token => account.keyType == .token
  | .storage => account.keyType == .storage
  | .multisig => account.keyType == .multisig

/-- The loop of `compute_flag_group`: `finalGroup` is the group found so far. -/
def flagGroupFrom (kind : GroupKind) (finalGroup : PermissionGroup) :
    List BaseFlag → Except BlockError PermissionGroup
  | [] => .ok finalGroup
  | flag :: flags =>
    let found := (ruleFor flag).group kind
    if found = .any ∨ found = finalGroup then flagGroupFrom kind finalGroup flags
    else if found = .never then .ok found
    else if finalGroup = .any then flagGroupFrom kind found flags
    else .error .permissionsCannotMix

def computeFlagGroup (kind : GroupKind) (flags : List BaseFlag) :
    Except BlockError PermissionGroup :=
  flagGroupFrom kind .any flags

/-! ## Base sets -/

/-- `bit_set` on two's complement bits of any width. -/
def bitSet (bits : Int) (offset : Nat) : Bool := decide (Int.land bits (2 ^ offset) ≠ 0)

/-- The flags whose bit is set, in offset order. -/
def rawFlags (bits : Int) : List BaseFlag :=
  BaseFlag.all.filter fun flag => bitSet bits flag.offset

/-- `OWNER` and `ADMIN` override all other flags; any non-empty set implies `ACCESS`. -/
def normalizedFlags (flags : List BaseFlag) : List BaseFlag :=
  let flags := if .owner ∈ flags then [.owner] else flags
  let flags := if .admin ∈ flags then [.admin] else flags
  -- `ACCESS` goes to the end of the list, not to its offset
  if flags ≠ [] ∧ .access ∉ flags then flags ++ [.access] else flags

/-- One step of rewriting the known offsets. -/
def rewriteOffset (flags : List BaseFlag) (bits : Int) (flag : BaseFlag) : Int :=
  if flag ∈ flags then Int.lor bits (2 ^ flag.offset)
  else if bitSet bits flag.offset then Int.xor bits (2 ^ flag.offset)
  else bits

/-- Rewrite the known offsets, keeping all other bits. -/
def rewriteOffsets (bits : Int) (flags : List BaseFlag) : Int :=
  BaseFlag.all.foldl (rewriteOffset flags) bits

/-- `BaseSet::try_from` before the result is packed: the normalized bits and flags. -/
def normalizeBits (bits : Int) : Except BlockError (Int × List BaseFlag) := do
  let raw := rawFlags bits
  let _ ← computeFlagGroup .entity raw
  let _ ← computeFlagGroup .principal raw
  let _ ← computeFlagGroup .target raw
  let flags := normalizedFlags raw
  return (rewriteOffsets bits flags, flags)

/-- A normalized set of base flags; `normalized` says where its fields come from. -/
structure BaseSet where
  bits : Int
  flags : List BaseFlag
  normalized : ∃ raw, normalizeBits raw = .ok (bits, flags)
  deriving DecidableEq

namespace BaseSet

/-- `TryFrom<BigInt>`. -/
def tryFrom (bits : Int) : Except BlockError BaseSet :=
  match h : normalizeBits bits with
  | .ok (normalized, flags) => .ok ⟨normalized, flags, bits, h⟩
  | .error e => .error e

def hasFlags (set : BaseSet) (flags : List BaseFlag) : Bool :=
  flags.all fun flag => flag ∈ set.flags

def isValidForDefault (set : BaseSet) : Bool :=
  set.flags.all fun flag => (ruleFor flag).canBeDefault

/-- Whether an account, or its absence, satisfies the group constraint of the set. -/
def checkAccountMatchesGroup [Crypto] (set : BaseSet) (kind : GroupKind)
    (account : Option GenericAccount) : Bool :=
  match computeFlagGroup kind set.flags, account with
  | .error _, _ => false
  | .ok group, none => kind == .target || group == .never
  | .ok group, some account => accountMatchesGroup group account

end BaseSet

/-! ## Permissions -/

/-- A base set and external (application-defined) offsets. -/
structure Permissions where
  base : BaseSet
  external : Int
  deriving DecidableEq

/-- The number of characters of `to_str_radix(2)`, sign included. -/
def binaryLength (bits : Int) : Nat :=
  (if bits < 0 then 1 else 0) + max 1 (Nat.size bits.natAbs)

namespace Permissions

def fromBigints (base external : Int) : Except BlockError Permissions := do
  return ⟨← BaseSet.tryFrom base, external⟩

/-- `ExternalSet::validate`. -/
def validate (permissions : Permissions) (maxExternalOffset : Nat) : Except BlockError Unit :=
  let size := binaryLength permissions.external
  rejectIf (size ≥ maxExternalOffset) (.permissionsExternalOffsetTooLarge size maxExternalOffset)

/-- `OWNER` implies everything, `ADMIN` everything except `OWNER`; `ACCESS` is
required for any grant. -/
def has (permissions : Permissions) (flags : List BaseFlag) (offsets : List Nat) : Bool :=
  if flags = [] ∧ offsets = [] then true
  else if permissions.base.hasFlags [.access] = false then false
  else if permissions.base.hasFlags [.owner] then true
  else if .owner ∉ flags ∧ permissions.base.hasFlags [.admin] then true
  else (flags.all fun flag => permissions.base.hasFlags [flag]) &&
    offsets.all fun offset => bitSet permissions.external offset

def canUseDelegation (permissions : Permissions) : Bool :=
  !([BaseFlag.admin, .permissionDelegateAdd, .permissionDelegateRemove].any fun flag =>
    permissions.has [flag] [])

end Permissions

/-! ## Normalized bits are a normal form -/

theorem testBit_two_pow (k n : Nat) : (2 ^ k : Int).testBit n = decide (k = n) := by
  have h : (2 ^ k : Int) = ((2 ^ k : Nat) : Int) := by norm_num
  rw [h]
  exact Nat.testBit_two_pow

theorem testBit_add_eq_false (m n : Nat) : m.testBit (m + n) = false := by
  apply Nat.testBit_lt_two_pow
  calc m < 2 ^ m := Nat.lt_two_pow_self
    _ ≤ 2 ^ (m + n) := Nat.pow_le_pow_right (by decide) (Nat.le_add_right m n)

@[simp] theorem testBit_zero_int (n : Nat) : (0 : Int).testBit n = false := Nat.zero_testBit n

/-- Integers are determined by their two's complement bits. -/
theorem eq_of_testBit_eq {a b : Int} (h : ∀ n, a.testBit n = b.testBit n) : a = b := by
  cases a with
  | ofNat m =>
    cases b with
    | ofNat n => exact congrArg Int.ofNat (Nat.eq_of_testBit_eq h)
    | negSucc n =>
      -- far out, a non-negative number has zeros and a negative one has ones
      have hfar := h (m + n)
      have hn := testBit_add_eq_false n m
      rw [Nat.add_comm] at hn
      simp [Int.testBit, testBit_add_eq_false, hn] at hfar
  | negSucc m =>
    cases b with
    | ofNat n =>
      have hfar := h (m + n)
      have hn := testBit_add_eq_false n m
      rw [Nat.add_comm] at hn
      simp [Int.testBit, testBit_add_eq_false, hn] at hfar
    | negSucc n =>
      refine congrArg Int.negSucc (Nat.eq_of_testBit_eq fun i => ?_)
      have hi := h i
      simpa [Int.testBit] using hi

theorem bitSet_eq_testBit (bits : Int) (k : Nat) : bitSet bits k = bits.testBit k := by
  have hbit : ∀ n, (Int.land bits (2 ^ k)).testBit n = (bits.testBit n && decide (k = n)) := by
    intro n
    rw [Int.testBit_land, testBit_two_pow]
  cases h : bits.testBit k with
  | true =>
    simp only [bitSet, decide_eq_true_eq]
    intro hzero
    have := hbit k
    simp [hzero, h] at this
  | false =>
    have hzero : Int.land bits (2 ^ k) = 0 := by
      apply eq_of_testBit_eq
      intro n
      rw [hbit]
      by_cases hn : k = n
      · subst hn
        simp [h]
      · simp [hn]
    simp [bitSet, hzero]

/-- Rewriting one offset sets its bit exactly for a listed flag. -/
theorem testBit_rewriteOffset (flags : List BaseFlag) (bits : Int) (flag : BaseFlag) (n : Nat) :
    (rewriteOffset flags bits flag).testBit n =
      if flag.offset = n then decide (flag ∈ flags) else bits.testBit n := by
  unfold rewriteOffset
  rw [bitSet_eq_testBit]
  by_cases hmem : flag ∈ flags
  · rw [if_pos hmem, Int.testBit_lor, testBit_two_pow]
    by_cases hn : flag.offset = n <;> simp [hn, hmem]
  · -- the bit is flipped where it is set, and left where it is not
    rw [if_neg hmem]
    cases hbit : bits.testBit flag.offset with
    | true =>
      rw [if_pos rfl, Int.testBit_lxor, testBit_two_pow]
      by_cases hn : flag.offset = n
      · subst hn
        simp [hbit, hmem]
      · simp [hn]
    | false =>
      rw [if_neg (by decide)]
      by_cases hn : flag.offset = n
      · subst hn
        simp [hbit, hmem]
      · simp [hn]

/-- After the known offsets are rewritten, they show the flags and nothing else changed. -/
theorem testBit_rewriteOffsets (bits : Int) (flags : List BaseFlag) :
    (∀ flag : BaseFlag, (rewriteOffsets bits flags).testBit flag.offset = decide (flag ∈ flags)) ∧
    ∀ n, (∀ flag : BaseFlag, flag.offset ≠ n) →
      (rewriteOffsets bits flags).testBit n = bits.testBit n := by
  -- the loop has rewritten exactly the offsets of the flags it has passed
  have hloop : ∀ (passed : List BaseFlag) (bits : Int) (n : Nat),
      (passed.foldl (rewriteOffset flags) bits).testBit n =
        if ∃ flag ∈ passed, flag.offset = n then decide (∃ flag ∈ flags, flag.offset = n)
        else bits.testBit n := by
    intro passed
    induction passed with
    | nil => simp
    | cons first rest ih =>
      intro bits n
      rw [List.foldl_cons, ih, testBit_rewriteOffset]
      by_cases hrest : ∃ flag ∈ rest, flag.offset = n
      · have hcons : ∃ flag ∈ first :: rest, flag.offset = n := by
          obtain ⟨flag, hflag, hoffset⟩ := hrest
          exact ⟨flag, List.mem_cons_of_mem _ hflag, hoffset⟩
        rw [if_pos hrest, if_pos hcons]
      · by_cases hfirst : first.offset = n
        · subst hfirst
          rw [if_neg hrest, if_pos rfl, if_pos ⟨first, by simp, rfl⟩]
          congr 1
          simp [BaseFlag.offset_injective.eq_iff]
        · have hcons : ¬ ∃ flag ∈ first :: rest, flag.offset = n := by
            rintro ⟨flag, hflag, hoffset⟩
            rcases List.mem_cons.mp hflag with rfl | hflag
            · exact hfirst hoffset
            · exact hrest ⟨flag, hflag, hoffset⟩
          rw [if_neg hrest, if_neg hfirst, if_neg hcons]
  constructor
  · intro flag
    rw [rewriteOffsets, hloop, if_pos ⟨flag, by simp, rfl⟩]
    congr 1
    simp [BaseFlag.offset_injective.eq_iff]
  · intro n hn
    rw [rewriteOffsets, hloop, if_neg]
    rintro ⟨flag, -, hoffset⟩
    exact hn flag hoffset

theorem rawFlags_rewriteOffsets (bits : Int) (flags : List BaseFlag) :
    rawFlags (rewriteOffsets bits flags) = BaseFlag.all.filter (· ∈ flags) := by
  unfold rawFlags
  apply List.filter_congr
  intro flag _
  rw [bitSet_eq_testBit, (testBit_rewriteOffsets bits flags).1]

/-- Bits that already show the flags are left alone. -/
theorem rewriteOffsets_eq_self {bits : Int} {flags : List BaseFlag}
    (h : ∀ flag : BaseFlag, bits.testBit flag.offset = decide (flag ∈ flags)) :
    rewriteOffsets bits flags = bits := by
  apply eq_of_testBit_eq
  intro n
  by_cases hn : ∃ flag : BaseFlag, flag.offset = n
  · obtain ⟨flag, rfl⟩ := hn
    rw [(testBit_rewriteOffsets bits flags).1, h]
  · exact (testBit_rewriteOffsets bits flags).2 n (fun flag hflag => hn ⟨flag, hflag⟩)

theorem flagGroupFrom_access_cons (kind : GroupKind) (group : PermissionGroup)
    (flags : List BaseFlag) :
    flagGroupFrom kind group (.access :: flags) = flagGroupFrom kind group flags := by
  cases kind <;> simp [flagGroupFrom, ruleFor, FlagRule.group]

theorem flagGroupFrom_append_access (kind : GroupKind) (group : PermissionGroup)
    (flags : List BaseFlag) :
    flagGroupFrom kind group (flags ++ [.access]) = flagGroupFrom kind group flags := by
  induction flags generalizing group with
  | nil => exact flagGroupFrom_access_cons kind group []
  | cons flag flags ih => simp only [List.cons_append, flagGroupFrom, ih]

theorem mem_rawFlags {bits : Int} {flag : BaseFlag} :
    flag ∈ rawFlags bits ↔ bits.testBit flag.offset = true := by
  simp [rawFlags, bitSet_eq_testBit]

/-- Raw flags stand in offset order. -/
theorem filter_mem_rawFlags (bits : Int) :
    BaseFlag.all.filter (· ∈ rawFlags bits) = rawFlags bits := by
  conv_rhs => rw [rawFlags]
  apply List.filter_congr
  intro flag _
  simp [mem_rawFlags, bitSet_eq_testBit]

theorem normalizedFlags_owner {flags : List BaseFlag} (h : .owner ∈ flags) :
    normalizedFlags flags = [.owner, .access] := by
  simp [normalizedFlags, h]

theorem normalizedFlags_admin {flags : List BaseFlag} (howner : .owner ∉ flags)
    (h : .admin ∈ flags) : normalizedFlags flags = [.admin, .access] := by
  simp [normalizedFlags, howner, h]

theorem normalizedFlags_plain {flags : List BaseFlag} (howner : .owner ∉ flags)
    (hadmin : .admin ∉ flags) :
    normalizedFlags flags =
      if flags ≠ [] ∧ .access ∉ flags then flags ++ [.access] else flags := by
  simp [normalizedFlags, howner, hadmin]

/-- With `ACCESS` appended, the set's flags in offset order have it first. -/
theorem filter_mem_append_access {bits : Int} (h : BaseFlag.access ∉ rawFlags bits) :
    BaseFlag.all.filter (· ∈ rawFlags bits ++ [.access]) = .access :: rawFlags bits := by
  have hrest := filter_mem_rawFlags bits
  generalize rawFlags bits = raw at *
  simp only [BaseFlag.all] at hrest ⊢
  rw [List.filter_cons_of_pos (by simp)]
  rw [List.filter_cons_of_neg (by simp [h])] at hrest
  conv_rhs => rw [← hrest]
  congr 1
  apply List.filter_congr
  intro flag hflag
  have hne : flag ≠ .access := by
    rintro rfl
    revert hflag
    decide
  simp [hne]

theorem normalizeBits_eq_ok {raw bits : Int} {flags : List BaseFlag} :
    normalizeBits raw = .ok (bits, flags) ↔
      (∀ kind, ∃ group, computeFlagGroup kind (rawFlags raw) = .ok group) ∧
        flags = normalizedFlags (rawFlags raw) ∧ bits = rewriteOffsets raw flags := by
  simp only [normalizeBits, bind_eq_ok, pure_eq_ok, Except.ok.injEq, Prod.mk.injEq]
  constructor
  · rintro ⟨e, he, p, hp, t, ht, rfl, rfl⟩
    refine ⟨?_, rfl, rfl⟩
    intro kind
    cases kind with
    | entity => exact ⟨e, he⟩
    | principal => exact ⟨p, hp⟩
    | target => exact ⟨t, ht⟩
  · rintro ⟨hgroups, rfl, rfl⟩
    obtain ⟨e, he⟩ := hgroups .entity
    obtain ⟨p, hp⟩ := hgroups .principal
    obtain ⟨t, ht⟩ := hgroups .target
    exact ⟨e, he, p, hp, t, ht, rfl, rfl⟩

/-- `ACCESS` stands at its offset, or the set is an owner's or an administrator's.
Otherwise it was implied by other flags and appended to them. -/
def AccessInPlace (flags : List BaseFlag) : Prop :=
  .owner ∈ flags ∨ .admin ∈ flags ∨ flags = [] ∨ flags.head? = some .access

instance accessInPlace_decidable (flags : List BaseFlag) : Decidable (AccessInPlace flags) :=
  inferInstanceAs (Decidable (_ ∨ _ ∨ _ ∨ _))

theorem not_accessInPlace_append {flags : List BaseFlag} (howner : .owner ∉ flags)
    (hadmin : .admin ∉ flags) (haccess : .access ∉ flags) (hne : flags ≠ []) :
    ¬ AccessInPlace (flags ++ [.access]) := by
  cases flags with
  | nil => exact absurd rfl hne
  | cons first rest =>
    simp only [List.mem_cons, not_or] at howner hadmin haccess
    simp only [AccessInPlace, List.cons_append, List.mem_cons, List.mem_append, howner, hadmin,
      List.head?_cons, Option.some.injEq, Ne.symm haccess.1, reduceCtorEq, List.not_mem_nil,
      or_self, not_false_eq_true]

/-- `ACCESS` has the lowest offset. -/
theorem accessInPlace_rawFlags {bits : Int}
    (h : ¬ (rawFlags bits ≠ [] ∧ .access ∉ rawFlags bits)) : AccessInPlace (rawFlags bits) := by
  by_cases hnil : rawFlags bits = []
  · exact .inr (.inr (.inl hnil))
  · have haccess : .access ∈ rawFlags bits := by
      by_contra hmem
      exact h ⟨hnil, hmem⟩
    have hbit : bitSet bits BaseFlag.access.offset = true := by
      rw [bitSet_eq_testBit]
      exact mem_rawFlags.mp haccess
    refine .inr (.inr (.inr ?_))
    simp [rawFlags, BaseFlag.all, hbit]

/-- Reading normalized bits again keeps the bits; a flag list with `ACCESS` appended
comes back with it in front. -/
theorem normalizeBits_again {raw bits : Int} {flags : List BaseFlag}
    (h : normalizeBits raw = .ok (bits, flags)) :
    ∃ flags', normalizeBits bits = .ok (bits, flags') ∧
      (AccessInPlace flags ∧ flags' = flags ∨
        ¬ AccessInPlace flags ∧ ∃ rest, flags = rest ++ [.access] ∧ flags' = .access :: rest) := by
  obtain ⟨hgroups, hflags, hbits⟩ := normalizeBits_eq_ok.mp h
  have hagain : rawFlags bits = BaseFlag.all.filter (· ∈ flags) := by
    rw [hbits, rawFlags_rewriteOffsets]
  -- the bits already show the flags, so that rewriting them changes nothing
  have hself : ∀ flags' : List BaseFlag, (∀ flag, flag ∈ flags' ↔ flag ∈ flags) →
      bits = rewriteOffsets bits flags' := by
    intro flags' hmem
    refine (rewriteOffsets_eq_self fun flag => ?_).symm
    rw [hbits, (testBit_rewriteOffsets raw flags).1]
    simp [hmem]
  by_cases howner : .owner ∈ rawFlags raw
  · rw [normalizedFlags_owner howner] at hflags
    subst hflags
    refine ⟨[.owner, .access], normalizeBits_eq_ok.mpr ⟨?_, ?_, hself _ fun _ => Iff.rfl⟩,
      .inl ⟨by decide, rfl⟩⟩
    · rw [hagain]
      intro kind
      cases kind <;> exact ⟨_, rfl⟩
    · rw [hagain]
      decide
  by_cases hadmin : .admin ∈ rawFlags raw
  · rw [normalizedFlags_admin howner hadmin] at hflags
    subst hflags
    refine ⟨[.admin, .access], normalizeBits_eq_ok.mpr ⟨?_, ?_, hself _ fun _ => Iff.rfl⟩,
      .inl ⟨by decide, rfl⟩⟩
    · rw [hagain]
      intro kind
      cases kind <;> exact ⟨_, rfl⟩
    · rw [hagain]
      decide
  rw [normalizedFlags_plain howner hadmin] at hflags
  split at hflags <;> rename_i hcase
  · obtain ⟨hne, haccess⟩ := hcase
    have hraw : rawFlags bits = .access :: rawFlags raw := by
      rw [hagain, hflags, filter_mem_append_access haccess]
    refine ⟨.access :: rawFlags raw, normalizeBits_eq_ok.mpr ⟨?_, ?_, hself _ fun flag => ?_⟩,
      .inr ⟨?_, rawFlags raw, hflags, rfl⟩⟩
    · intro kind
      obtain ⟨group, hgroup⟩ := hgroups kind
      exact ⟨group, by rw [hraw, computeFlagGroup, flagGroupFrom_access_cons]; exact hgroup⟩
    · rw [hraw, normalizedFlags_plain (by simp [howner]) (by simp [hadmin])]
      simp
    · simp [hflags, or_comm]
    · rw [hflags]
      exact not_accessInPlace_append howner hadmin haccess hne
  · have hraw : rawFlags bits = rawFlags raw := by
      rw [hagain, hflags, filter_mem_rawFlags]
    refine ⟨rawFlags raw, normalizeBits_eq_ok.mpr ⟨?_, ?_, hself _ fun flag => ?_⟩,
      .inl ⟨?_, hflags.symm⟩⟩
    · rw [hraw]
      exact hgroups
    · rw [hraw, normalizedFlags_plain howner hadmin, if_neg hcase]
    · rw [hflags]
    · rw [hflags]
      exact accessInPlace_rawFlags hcase

namespace BaseSet

theorem tryFrom_eq_ok {bits : Int} {set : BaseSet} :
    tryFrom bits = .ok set ↔ normalizeBits bits = .ok (set.bits, set.flags) := by
  unfold tryFrom
  split <;> rename_i h
  · constructor
    · intro heq
      cases heq
      exact h
    · intro heq
      cases set
      simp_all
  · simp [h]

/-- The set that is read back from this set's bits. -/
def onWire (set : BaseSet) : BaseSet where
  bits := set.bits
  flags := normalizedFlags (rawFlags set.bits)
  normalized := by
    obtain ⟨raw, hraw⟩ := set.normalized
    obtain ⟨flags, hflags, -⟩ := normalizeBits_again hraw
    exact ⟨set.bits, by rw [hflags, (normalizeBits_eq_ok.mp hflags).2.1]⟩

theorem onWire_flags (set : BaseSet) :
    AccessInPlace set.flags ∧ set.onWire.flags = set.flags ∨
      ¬ AccessInPlace set.flags ∧
        ∃ rest, set.flags = rest ++ [.access] ∧ set.onWire.flags = .access :: rest := by
  obtain ⟨raw, hraw⟩ := set.normalized
  obtain ⟨flags, hflags, hcases⟩ := normalizeBits_again hraw
  have hwire : set.onWire.flags = flags := (normalizeBits_eq_ok.mp hflags).2.1.symm
  rwa [hwire]

/-- The bits of a set are accepted again. -/
theorem tryFrom_bits (set : BaseSet) : tryFrom set.bits = .ok set.onWire := by
  obtain ⟨raw, hraw⟩ := set.normalized
  obtain ⟨flags, hflags, -⟩ := normalizeBits_again hraw
  rw [tryFrom_eq_ok, hflags, (normalizeBits_eq_ok.mp hflags).2.1]
  rfl

theorem ext_fields {a b : BaseSet} (hbits : a.bits = b.bits) (hflags : a.flags = b.flags) :
    a = b := by
  cases a
  cases b
  simp_all

/-- **A set is read back unchanged exactly when `ACCESS` is in place.** -/
theorem onWire_eq_self_iff (set : BaseSet) : set.onWire = set ↔ AccessInPlace set.flags := by
  rcases set.onWire_flags with ⟨hplace, hflags⟩ | ⟨hplace, rest, hset, hwire⟩
  · simp only [hplace, iff_true]
    exact ext_fields rfl hflags
  · simp only [hplace, iff_false]
    intro heq
    rw [heq, hset] at hwire
    -- a list that starts with `ACCESS` has it in place
    apply hplace
    rw [hset, hwire]
    exact .inr (.inr (.inr rfl))

theorem onWire_congr {a b : BaseSet} (h : a.bits = b.bits) : a.onWire = b.onWire :=
  ext_fields h (by simp [onWire, h])

/-- Two sets with the same bits are equal exactly when both or neither have `ACCESS`
in place. -/
theorem eq_iff_of_bits_eq {a b : BaseSet} (h : a.bits = b.bits) :
    a = b ↔ (AccessInPlace a.flags ↔ AccessInPlace b.flags) := by
  constructor
  · rintro rfl
    exact Iff.rfl
  intro hplace
  have hwire := congrArg BaseSet.flags (onWire_congr h)
  rcases a.onWire_flags with ⟨ha, hfa⟩ | ⟨ha, resta, hsa, hwa⟩ <;>
    rcases b.onWire_flags with ⟨hb, hfb⟩ | ⟨hb, restb, hsb, hwb⟩
  · exact ext_fields h (by rw [← hfa, hwire, hfb])
  · exact absurd (hplace.mp ha) hb
  · exact absurd (hplace.mpr hb) ha
  · rw [hwa, hwb, List.cons.injEq] at hwire
    exact ext_fields h (by rw [hsa, hsb, hwire.2])

/-! The order of the flags matters to no check. -/

@[simp]
theorem mem_flags_onWire (set : BaseSet) (flag : BaseFlag) :
    flag ∈ set.onWire.flags ↔ flag ∈ set.flags := by
  rcases set.onWire_flags with ⟨-, hflags⟩ | ⟨-, rest, hset, hwire⟩
  · rw [hflags]
  · rw [hset, hwire]
    simp [or_comm]

@[simp]
theorem hasFlags_onWire (set : BaseSet) (flags : List BaseFlag) :
    set.onWire.hasFlags flags = set.hasFlags flags := by
  simp [hasFlags]

@[simp]
theorem isValidForDefault_onWire (set : BaseSet) :
    set.onWire.isValidForDefault = set.isValidForDefault := by
  rw [Bool.eq_iff_iff]
  simp [isValidForDefault, List.all_eq_true]

@[simp]
theorem computeFlagGroup_onWire (set : BaseSet) (kind : GroupKind) :
    computeFlagGroup kind set.onWire.flags = computeFlagGroup kind set.flags := by
  rcases set.onWire_flags with ⟨-, hflags⟩ | ⟨-, rest, hset, hwire⟩
  · rw [hflags]
  · rw [hset, hwire]
    unfold computeFlagGroup
    rw [flagGroupFrom_access_cons, flagGroupFrom_append_access]

@[simp]
theorem checkAccountMatchesGroup_onWire [Crypto] (set : BaseSet) (kind : GroupKind)
    (account : Option GenericAccount) :
    set.onWire.checkAccountMatchesGroup kind account =
      set.checkAccountMatchesGroup kind account := by
  simp [checkAccountMatchesGroup]

end BaseSet

namespace Permissions

/-- The permissions that are read back from these permissions' bits. -/
def onWire (permissions : Permissions) : Permissions :=
  ⟨permissions.base.onWire, permissions.external⟩

theorem fromBigints_bits (permissions : Permissions) :
    fromBigints permissions.base.bits permissions.external = .ok permissions.onWire := by
  simp [fromBigints, BaseSet.tryFrom_bits, onWire]

@[simp] theorem onWire_base (permissions : Permissions) :
    permissions.onWire.base = permissions.base.onWire := rfl

@[simp] theorem onWire_external (permissions : Permissions) :
    permissions.onWire.external = permissions.external := rfl

@[simp] theorem validate_onWire (permissions : Permissions) (maxExternalOffset : Nat) :
    permissions.onWire.validate maxExternalOffset = permissions.validate maxExternalOffset := rfl

@[simp] theorem has_onWire (permissions : Permissions) (flags : List BaseFlag)
    (offsets : List Nat) :
    permissions.onWire.has flags offsets = permissions.has flags offsets := by
  simp [has]

@[simp] theorem canUseDelegation_onWire (permissions : Permissions) :
    permissions.onWire.canUseDelegation = permissions.canUseDelegation := by
  simp [canUseDelegation]

theorem onWire_eq_self_iff (permissions : Permissions) :
    permissions.onWire = permissions ↔ AccessInPlace permissions.base.flags := by
  rw [← BaseSet.onWire_eq_self_iff]
  cases permissions
  simp [onWire]

end Permissions

end KeetaNode
