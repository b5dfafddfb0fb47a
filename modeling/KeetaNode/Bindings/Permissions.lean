import KeetaNode.Bindings.Pure
import KeetaNode.Block.Grants
import KeetaNode.Vote.Signed

/-!
# Permissions across the boundary

A guest sees a permission set as the names of its flags and a list of offsets, or as two bitmaps,
and gives it back in one of these two forms.

- `keetanetwork-bindings/src/permissions.rs`
- `keetanetwork-bindings/src/parse.rs` (`base_flag`, `base_flag_name`, `bigint_hex`)
- `keetanetwork-client-wasi/src/pure.rs` (`permissions_from_flags`, `permissions_from_bitmaps`)

## Main results

- `permissions_given_back`: which sets survive the two forms
-/

namespace KeetaNode.Bindings

open ByteCodec

/-! ## Names of flags -/

def baseFlags : List (String × BaseFlag) :=
  [("access", .access), ("owner", .owner), ("admin", .admin), ("update_info", .updateInfo),
    ("send_on_behalf", .sendOnBehalf), ("token_admin_create", .tokenAdminCreate),
    ("token_admin_supply", .tokenAdminSupply),
    ("token_admin_modify_balance", .tokenAdminModifyBalance), ("storage_create", .storageCreate),
    ("storage_can_hold", .storageCanHold), ("storage_deposit", .storageDeposit),
    ("permission_delegate_add", .permissionDelegateAdd),
    ("permission_delegate_remove", .permissionDelegateRemove),
    ("manage_certificate", .manageCertificate), ("multisig_signer", .multisigSigner)]

def baseFlag (name : String) : Except CodedError BaseFlag :=
  match baseFlags.find? fun entry => entry.1 = name with
  | some (_, flag) => .ok flag
  | none => .error ParseError.permissionFlag.coded

def baseFlagName (flag : BaseFlag) : String :=
  match baseFlags.find? fun entry => entry.2 = flag with
  | some (name, _) => name
  | none => "unknown"

@[simp] theorem baseFlag_baseFlagName (flag : BaseFlag) :
    baseFlag (baseFlagName flag) = .ok flag := by
  cases flag <;> rfl

/-! ## The two forms -/

section Forms

variable [NumBigint] (describe : BlockError → String)

def bigintHex (value label : String) : Except CodedError Int :=
  match NumBigint.fromStrRadix16 ((stripStart value "0x").getD value) with
  | some number => .ok number
  | none => .error ⟨"INVALID_INTEGER", label ++ " must be 0x-hex"⟩

def invalidPermissions (error : BlockError) : CodedError :=
  ⟨"INVALID_PERMISSIONS", describe error⟩

omit [NumBigint] in
def permissionsFromFlags (names : List String) (offsets : List UInt8) :
    Except CodedError Permissions := do
  let flags ← names.mapM baseFlag
  (Permissions.fromFlags flags offsets).mapError (invalidPermissions describe)

def permissionsFromBitmaps (base external : String) : Except CodedError Permissions := do
  let base ← bigintHex base "base"
  let external ← bigintHex external "external"
  (Permissions.fromBigints base external).mapError (invalidPermissions describe)

variable (permissions : Permissions)

omit [NumBigint] in
def permissionsFlagNames : List String := permissions.base.flags.map baseFlagName

omit [NumBigint] in
/-- An offset is cut to an octet. -/
def permissionsOffsets : List UInt8 :=
  ((List.range (Nat.size permissions.external.natAbs)).filter fun offset =>
    permissions.external.testBit offset).map UInt8.ofNat

def permissionsBitmaps : List String :=
  [permissions.base.bits, permissions.external].map fun bits => "0x" ++ NumBigint.toStrRadix16 bits

end Forms

/-! ## What survives -/

/-- The flags have the offsets below fifteen. -/
theorem exists_offset_iff {n : Nat} : (∃ flag : BaseFlag, flag.offset = n) ↔ n < 15 := by
  constructor
  · rintro ⟨flag, rfl⟩
    cases flag <;> decide
  · intro hn
    interval_cases n
    exacts [⟨.access, rfl⟩, ⟨.owner, rfl⟩, ⟨.admin, rfl⟩, ⟨.updateInfo, rfl⟩, ⟨.sendOnBehalf, rfl⟩,
      ⟨.tokenAdminCreate, rfl⟩, ⟨.tokenAdminSupply, rfl⟩, ⟨.tokenAdminModifyBalance, rfl⟩,
      ⟨.storageCreate, rfl⟩, ⟨.storageCanHold, rfl⟩, ⟨.storageDeposit, rfl⟩,
      ⟨.permissionDelegateAdd, rfl⟩, ⟨.permissionDelegateRemove, rfl⟩, ⟨.manageCertificate, rfl⟩,
      ⟨.multisigSigner, rfl⟩]

/-- A bit of a number that has only low bits is within the length of the number. -/
theorem lt_size_of_testBit {number : Int} {bound : Nat}
    (hlow : ∀ n, number.testBit n = true → n < bound) {n : Nat} (h : number.testBit n = true) :
    n < Nat.size number.natAbs := by
  cases number with
  | ofNat number => exact Nat.lt_size.mpr (Nat.ge_two_pow_of_testBit h)
  | negSucc number =>
    -- all the high bits of a negative number are set
    have hhigh : (Int.negSucc number).testBit (number + bound) = true := by
      show (!number.testBit (number + bound)) = true
      rw [testBit_add_eq_false]
      rfl
    have hlt := hlow _ hhigh
    omega

section Survives

variable {permissions : Permissions}

/-- **The offsets that are shown are the external ones as long as these fit octets.** -/
theorem external_eq_bitsAt_offsets :
    permissions.external = bitsAt ((permissionsOffsets permissions).map UInt8.toNat) ↔
      ∀ n, permissions.external.testBit n = true → n < 256 := by
  have hmem : ∀ n, n ∈ (permissionsOffsets permissions).map UInt8.toNat ↔
      ∃ m, m < Nat.size permissions.external.natAbs ∧ permissions.external.testBit m = true ∧
        m % 256 = n := by
    intro n
    simp [permissionsOffsets, and_assoc]
  constructor
  · intro heq n hn
    rw [heq, testBit_bitsAt, decide_eq_true_eq, hmem] at hn
    obtain ⟨m, -, -, rfl⟩ := hn
    exact Nat.mod_lt _ (by decide)
  · intro hlow
    apply eq_of_testBit_eq
    intro n
    rw [testBit_bitsAt, Bool.eq_iff_iff, decide_eq_true_eq, hmem]
    constructor
    · intro hn
      exact ⟨n, lt_size_of_testBit hlow hn, hn, Nat.mod_eq_of_lt (hlow n hn)⟩
    · rintro ⟨m, -, hm, rfl⟩
      rwa [Nat.mod_eq_of_lt (hlow m hm)]

variable [NumBigint] (describe : BlockError → String)

omit [NumBigint] in
theorem mapM_baseFlag (flags : List BaseFlag) :
    (flags.map baseFlagName).mapM baseFlag = .ok flags := by
  have hread : ∀ flag ∈ flags, baseFlag (baseFlagName flag) = .ok (id flag) :=
    fun flag _ => baseFlag_baseFlagName flag
  rw [mapM_map_eq_ok hread, List.map_id]

theorem bigintHex_shown [LawfulNumBigint] (number : Int) (label : String) :
    bigintHex ("0x" ++ NumBigint.toStrRadix16 number) label = .ok number := by
  rw [bigintHex, stripStart_append, Option.getD_some, LawfulNumBigint.fromStr_toStr]

/-- **A set is given back by its names and offsets exactly when it has no other bits than those of
flags and its offsets fit octets, and always by its bitmaps; what is given back grants the same.** -/
theorem permissions_given_back [LawfulNumBigint] (permissions : Permissions) :
    (permissionsFromFlags describe (permissionsFlagNames permissions)
        (permissionsOffsets permissions) = .ok permissions.onWire ↔
      (∀ n, permissions.base.bits.testBit n = true → n < 15) ∧
        ∀ n, permissions.external.testBit n = true → n < 256) ∧
    (∃ base external, permissionsBitmaps permissions = [base, external] ∧
      permissionsFromBitmaps describe base external = .ok permissions.onWire) ∧
    ∀ flags offsets, permissions.onWire.has flags offsets = permissions.has flags offsets := by
  refine ⟨?_, ⟨_, _, rfl, ?_⟩, fun flags offsets => ?_⟩
  · rw [permissionsFromFlags, permissionsFlagNames, mapM_baseFlag, ok_bind, mapError_eq_ok,
      Permissions.fromFlags_eq_ok_onWire, external_eq_bitsAt_offsets]
    simp only [exists_offset_iff]
  · rw [permissionsFromBitmaps, bigintHex_shown, ok_bind, bigintHex_shown, ok_bind, mapError_eq_ok,
      Permissions.fromBigints, BaseSet.tryFrom_bits]
    rfl
  · exact permissions.has_onWire flags offsets

end Survives

section Samples

open scoped Reference

/-- Offset 256 is shown as offset 0. -/
theorem permissions_given_back_sample :
    permissionsFromFlags (fun _ => "") (permissionsFlagNames ⟨givenAccess, 2 ^ 256⟩)
      (permissionsOffsets ⟨givenAccess, 2 ^ 256⟩) ≠ .ok ⟨givenAccess.onWire, 2 ^ 256⟩ := by
  intro h
  have hlow := ((permissions_given_back (fun _ => "") ⟨givenAccess, 2 ^ 256⟩).1.mp h).2 256
    (by rw [testBit_two_pow]; rfl)
  exact absurd hlow (by decide)

end Samples

end KeetaNode.Bindings
