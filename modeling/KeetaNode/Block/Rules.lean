import KeetaNode.Block.Unsigned

/-!
# Rules of a block as a whole

Every operation is checked alone, but some of the checks look at all operations of the
block. What they establish together: modifications of permissions never overwrite each
other, there is one SET_REP at most, and no certificate is operated on twice. None of it
depends on how a removal names its certificate.

- `keetanetwork-block/src/block.rs` (`validate_operations`)
- `keetanetwork-block/src/operation/{modify_permissions,manage_certificate,set_rep}.rs`

## Main results

- `onlyFirstSets_of_validateOperations`: a SET is the first modification of its subject
- `operationRules_of_validateOperations`: the other rules, and their stability
-/

namespace KeetaNode

open ByteCodec

section Keys

/-! ## Keys of modifications -/

theorem hexDigits_length (bytes : Bytes) : (hexDigits bytes).length = 2 * bytes.length := by
  induction bytes with
  | nil => rfl
  | cons octet bytes ih =>
    show (hexDigits bytes).length + 1 + 1 = _
    rw [ih, List.length_cons]
    omega

/-- Upper case keeps the sixteen digits apart. -/
theorem toUpper_hexDigit_inj :
    ∀ a < 16, ∀ b < 16, (hexDigit a).toUpper = (hexDigit b).toUpper → a = b := by decide

theorem hexDigits_toUpper_inj {a b : Bytes}
    (h : (hexDigits a).map Char.toUpper = (hexDigits b).map Char.toUpper) : a = b := by
  induction a generalizing b with
  | nil =>
    cases b with
    | nil => rfl
    | cons octet b => cases h
  | cons octet a ih =>
    cases b with
    | nil => cases h
    | cons other b =>
      change (hexDigit (octet.toNat / 16)).toUpper :: (hexDigit (octet.toNat % 16)).toUpper ::
        (hexDigits a).map Char.toUpper = (hexDigit (other.toNat / 16)).toUpper ::
        (hexDigit (other.toNat % 16)).toUpper :: (hexDigits b).map Char.toUpper at h
      obtain ⟨hhigh, htail⟩ := List.cons.inj h
      obtain ⟨hlow, hrest⟩ := List.cons.inj htail
      have hbound := octet.toNat_lt
      have hother := other.toNat_lt
      -- the two digits of an octet are its quotient and remainder by sixteen
      have hdiv := toUpper_hexDigit_inj _ (by omega) _ (by omega) hhigh
      have hmod := toUpper_hexDigit_inj _ (by omega) _ (by omega) hlow
      rw [ih hrest, UInt8.toNat_inj.mp (by omega : octet.toNat = other.toNat)]

variable [Crypto]

/-- An address starts with its scheme. -/
theorem toList_toString (account : GenericAccount) :
    ∃ rest, account.toString.toList = 'k' :: rest := by
  have h : account.toString.toList = "keeta_".toList ++ _ := String.toList_append
  exact ⟨_, h⟩

variable [LawfulCrypto]

/-- **Principals of the two kinds are keyed apart**, and principals of one kind by what they
are. -/
theorem dedupKey_injective : Function.Injective ModifyPermissionsPrincipal.dedupKey := by
  -- the key of an account starts with a `k`, that of a certificate does not
  have hkinds : ∀ (account : GenericAccount) (hash : Octets 32) (principal : GenericAccount),
      ModifyPermissionsPrincipal.dedupKey (.account account) ≠
        ModifyPermissionsPrincipal.dedupKey (.certificate hash principal) := by
    intro account hash principal h
    obtain ⟨rest, hrest⟩ := toList_toString account
    have hlist := congrArg String.toList h
    simp only [ModifyPermissionsPrincipal.dedupKey, String.toList_append, hrest] at hlist
    cases hlist
  intro a b h
  cases a with
  | account a =>
    cases b with
    | account b => rw [GenericAccount.toString_injective h]
    | certificate hash principal => exact absurd h (hkinds a hash principal)
  | certificate hash principal =>
    cases b with
    | account b => exact absurd h.symm (hkinds b hash principal)
    | certificate other principal' =>
      have hlist := congrArg String.toList h
      simp only [ModifyPermissionsPrincipal.dedupKey, String.toList_append, hexEncodeUpper,
        String.toList_ofList, List.append_assoc, List.append_cancel_left_eq] at hlist
      -- the digits of the two hashes are equally many
      obtain ⟨hdigits, hrest⟩ := List.append_inj hlist (by
        simp only [List.length_map, hexDigits_length, hash.length_eq, other.length_eq])
      have haddress := String.toList_inj.mp (List.append_cancel_left hrest)
      rw [Octets.ext_bytes (hexDigits_toUpper_inj hdigits),
        GenericAccount.toString_injective haddress]

end Keys

section Modifications

variable [Crypto]

/-! ## Modifications of one subject -/

/-- What a modification is about: a principal, and a target, which is the block's account
where none is given. -/
def ModifyPermissions.subject (operation : ModifyPermissions) (account : GenericAccount) :
    ModifyPermissionsPrincipal × GenericAccount :=
  (operation.principal, operation.target.getD account)

/-- Among the modifications of a subject only the first may be a SET. -/
def OnlyFirstSets (account : GenericAccount) (modifications : List ModifyPermissions) : Prop :=
  ∀ subject, ∀ later ∈ (modifications.filter fun m => m.subject account = subject).tail,
    later.method ≠ .set

/-- The second of two modifications does not set what the first one modified. -/
def KeepsEarlier (account : GenericAccount) (earlier later : ModifyPermissions) : Prop :=
  earlier.subject account = later.subject account → later.method ≠ .set

theorem onlyFirstSets_cons {account : GenericAccount} {first : ModifyPermissions}
    {rest : List ModifyPermissions} :
    OnlyFirstSets account (first :: rest) ↔
      (∀ later ∈ rest, KeepsEarlier account first later) ∧ OnlyFirstSets account rest := by
  constructor
  · intro h
    constructor
    · intro later hlater hsame
      -- behind the first of its subject, the later one is in the tail
      refine h (first.subject account) later ?_
      rw [List.filter_cons_of_pos (by simp), List.tail_cons, List.mem_filter]
      exact ⟨hlater, by simp [hsame]⟩
    · intro subject later hlater
      -- the first modification only makes the tail longer
      apply h subject later
      rw [List.filter_cons]
      split
      · exact List.mem_of_mem_tail hlater
      · exact hlater
  · rintro ⟨hfirst, hrest⟩ subject later hlater
    rw [List.filter_cons] at hlater
    split at hlater <;> rename_i hsubject
    -- for the subject of the first one, the tail is all that follows it
    · rw [List.tail_cons, List.mem_filter] at hlater
      obtain ⟨hmem, hsame⟩ := hlater
      simp only [decide_eq_true_eq] at hsubject hsame
      exact hfirst later hmem (hsubject.trans hsame.symm)
    · exact hrest subject later hlater

theorem onlyFirstSets_iff_pairwise {account : GenericAccount}
    {modifications : List ModifyPermissions} :
    OnlyFirstSets account modifications ↔ modifications.Pairwise (KeepsEarlier account) := by
  induction modifications with
  | nil => simp [OnlyFirstSets]
  | cons first rest ih => rw [onlyFirstSets_cons, List.pairwise_cons, ih]

variable [LawfulCrypto]

theorem modificationKey_eq_iff {a b : ModifyPermissions} {account : GenericAccount} :
    a.modificationKey account = b.modificationKey account ↔
      a.subject account = b.subject account := by
  simp only [ModifyPermissions.modificationKey, ModifyPermissions.subject, Prod.mk.injEq,
    dedupKey_injective.eq_iff, GenericAccount.toString_injective.eq_iff]

/-- The loop goes on as long as no SET meets a subject that was modified before. -/
theorem rejectDuplicateSetFrom_eq_ok (account : GenericAccount)
    (earlier modifications : List ModifyPermissions) :
    rejectDuplicateSetFrom account (earlier.map (·.modificationKey account)) modifications =
        .ok () ↔
      (∀ m ∈ earlier, ∀ later ∈ modifications, KeepsEarlier account m later) ∧
        modifications.Pairwise (KeepsEarlier account) := by
  induction modifications generalizing earlier with
  | nil => simp [rejectDuplicateSetFrom]
  | cons other rest ih =>
    -- the keys that are compared stand for the subjects
    have hfound : other.modificationKey account ∈ earlier.map (·.modificationKey account) ↔
        ∃ m ∈ earlier, m.subject account = other.subject account := by
      simp only [List.mem_map, modificationKey_eq_iff]
    simp only [rejectDuplicateSetFrom]
    split <;> rename_i hduplicate
    -- a SET of a subject that was modified before ends the loop
    · obtain ⟨hkey, hset⟩ := hduplicate
      obtain ⟨m, hm, hsame⟩ := hfound.mp hkey
      simp only [reduceCtorEq, false_iff, not_and]
      intro hearlier
      exact absurd hset (hearlier m hm other List.mem_cons_self hsame)
    -- this modification is an earlier one for the rest
    · have hnext := ih (other :: earlier)
      rw [List.map_cons] at hnext
      rw [hnext, List.pairwise_cons]
      constructor
      · rintro ⟨hearlier, hrest⟩
        refine ⟨fun m hm later hlater => ?_, hearlier other List.mem_cons_self, hrest⟩
        rcases List.mem_cons.mp hlater with rfl | hlater
        · exact fun hsame hset => hduplicate ⟨hfound.mpr ⟨m, hm, hsame⟩, hset⟩
        · exact hearlier m (List.mem_cons_of_mem other hm) later hlater
      · rintro ⟨hearlier, hother, hrest⟩
        refine ⟨fun m hm later hlater => ?_, hrest⟩
        rcases List.mem_cons.mp hm with rfl | hm
        · exact hother later hlater
        · exact hearlier m hm later (List.mem_cons_of_mem other hlater)

theorem rejectDuplicateSet_eq_ok {ctx : OperationContext} :
    ModifyPermissions.rejectDuplicateSet ctx = .ok () ↔
      OnlyFirstSets ctx.account (ctx.iterType Operation.asModifyPermissions) := by
  have h := rejectDuplicateSetFrom_eq_ok ctx.account []
    (ctx.iterType Operation.asModifyPermissions)
  rw [onlyFirstSets_iff_pairwise]
  simpa [ModifyPermissions.rejectDuplicateSet] using h

end Modifications

section Errors

/-! ## The error belongs to modifications -/

variable [Crypto] {ctx : OperationContext}

/-- A check that never reports a duplicate modification. -/
def Unrelated {α : Type} (check : Except BlockError α) : Prop :=
  check ≠ .error .duplicatePermissionModification

omit [Crypto] in
theorem unrelated_rejectIf {c : Prop} [Decidable c] {e : BlockError}
    (he : e ≠ .duplicatePermissionModification) : Unrelated (rejectIf c e) :=
  fun h => he (rejectIf_eq_error.mp h).2

omit [Crypto] in
theorem Unrelated.bind {α β : Type} {x : Except BlockError α} {f : α → Except BlockError β}
    (hx : Unrelated x) (hf : ∀ a, Unrelated (f a)) : Unrelated (x >>= f) := by
  intro h
  rcases bind_eq_error.mp h with h | ⟨a, -, h⟩
  · exact hx h
  · exact hf a h

omit [Crypto] in
theorem unrelated_ok {α : Type} {a : α} : Unrelated (.ok a : Except BlockError α) := by
  intro h
  cases h

theorem unrelated_requireConfig : Unrelated ctx.requireConfig := by
  intro h
  unfold OperationContext.requireConfig at h
  split at h <;> cases h

theorem unrelated_validateNumeric {value : Int} : Unrelated (ctx.validateNumeric value) := by
  unfold OperationContext.validateNumeric
  split
  · exact unrelated_ok
  · exact unrelated_requireConfig.bind fun config => unrelated_rejectIf (by decide)

theorem unrelated_guardTokenAmount {token : GenericAccount} {amount : Int} :
    Unrelated (ctx.guardTokenAmount token amount) :=
  (unrelated_rejectIf (by decide)).bind fun _ => unrelated_validateNumeric

theorem Send.validate_unrelated (operation : Send) : Unrelated (operation.validate ctx) := by
  refine unrelated_guardTokenAmount.bind fun _ => (unrelated_rejectIf (by decide)).bind fun _ =>
    (unrelated_rejectIf (by decide)).bind fun _ => unrelated_requireConfig.bind fun config => ?_
  -- what is left is a match on the external data and the limits
  unfold checkExternal
  repeat' split
  all_goals first
    | exact unrelated_ok
    | exact unrelated_rejectIf (by decide)
    | exact fun h => by cases h

theorem SetRep.validate_unrelated (operation : SetRep) : Unrelated (operation.validate ctx) :=
  (unrelated_rejectIf (by decide)).bind fun _ => (unrelated_rejectIf (by decide)).bind fun _ =>
    unrelated_rejectIf (by decide)

theorem SetInfo.validate_unrelated (operation : SetInfo) : Unrelated (operation.validate ctx) := by
  refine unrelated_requireConfig.bind fun config => (unrelated_rejectIf (by decide)).bind fun _ =>
    (unrelated_rejectIf (by decide)).bind fun _ => (unrelated_rejectIf (by decide)).bind fun _ => ?_
  unfold checkDefaultPermission
  split
  · exact (unrelated_rejectIf (by decide)).bind fun _ => (unrelated_rejectIf (by decide)).bind
      fun _ => (unrelated_rejectIf (by decide)).bind fun _ => unrelated_rejectIf (by decide)
  · exact unrelated_rejectIf (by decide)

omit [Crypto] in
theorem unrelated_asAccountError {α : Type} (x : Except AccountError α) :
    Unrelated (asAccountError x) := by
  intro h
  cases x <;> cases h

omit [Crypto] in
theorem unrelated_asCertificateError {α : Type} (x : Except CertificateError α) :
    Unrelated (asCertificateError x) := by
  intro h
  cases x <;> cases h

theorem CreateIdentifier.validate_unrelated (operation : CreateIdentifier) :
    Unrelated (operation.validate ctx) := by
  refine (unrelated_rejectIf (by decide)).bind fun _ => (unrelated_rejectIf (by decide)).bind
    fun _ => (unrelated_asAccountError _).bind fun _ => (unrelated_rejectIf (by decide)).bind
    fun _ => (unrelated_rejectIf (by decide)).bind fun _ => ?_
  unfold checkArguments
  split
  · exact (unrelated_rejectIf (by decide)).bind fun _ => unrelated_requireConfig.bind fun config =>
      (unrelated_rejectIf (by simp)).bind fun _ => (unrelated_rejectIf (by decide)).bind fun _ =>
      (unrelated_rejectIf (by decide)).bind fun _ => unrelated_rejectIf (by decide)
  · exact unrelated_ok

theorem TokenAdminSupply.validate_unrelated (operation : TokenAdminSupply) :
    Unrelated (operation.validate ctx) :=
  (unrelated_rejectIf (by decide)).bind fun _ => unrelated_validateNumeric.bind fun _ =>
    (unrelated_rejectIf (by decide)).bind fun _ => unrelated_requireConfig.bind fun _ =>
    unrelated_rejectIf (by decide)

theorem TokenAdminModifyBalance.validate_unrelated (operation : TokenAdminModifyBalance) :
    Unrelated (operation.validate ctx) :=
  unrelated_guardTokenAmount.bind fun _ => unrelated_rejectIf (by decide)

theorem Receive.validate_unrelated (operation : Receive) : Unrelated (operation.validate ctx) := by
  refine unrelated_guardTokenAmount.bind fun _ => (unrelated_rejectIf (by decide)).bind fun _ => ?_
  unfold checkForward
  split
  · exact (unrelated_rejectIf (by decide)).bind fun _ => (unrelated_rejectIf (by decide)).bind
      fun _ => unrelated_rejectIf (by decide)
  · exact unrelated_ok

theorem ModifyPermissions.checkPermissions_unrelated (operation : ModifyPermissions) :
    Unrelated (operation.checkPermissions ctx) := by
  unfold checkPermissions
  split
  · exact unrelated_rejectIf (by decide)
  · rename_i permissions _
    -- the two checks in the middle are matches of their own
    have hprincipal : Unrelated (operation.checkPrincipal permissions.base) := by
      unfold checkPrincipal
      split <;> exact unrelated_rejectIf (by decide)
    have htarget : Unrelated (operation.checkTarget permissions.base) := by
      unfold checkTarget
      split
      · exact unrelated_rejectIf (by decide)
      · exact unrelated_ok
    exact unrelated_requireConfig.bind fun config => (unrelated_rejectIf (by simp)).bind fun _ =>
      (unrelated_rejectIf (by decide)).bind fun _ => hprincipal.bind fun _ => htarget.bind fun _ =>
      (unrelated_rejectIf (by decide)).bind fun _ => (unrelated_rejectIf (by decide)).bind fun _ =>
      unrelated_rejectIf (by decide)

section Certificates

variable [X509]

omit [Crypto] in
theorem unrelated_toCertificate (certificate : CertificateDer) :
    Unrelated certificate.toCertificate :=
  unrelated_asCertificateError _

theorem ManageCertificate.validate_unrelated (operation : ManageCertificate) :
    Unrelated (operation.validate ctx) := by
  have hgraph : ∀ parsed, Unrelated (operation.checkGraph parsed) := by
    intro parsed
    unfold checkGraph
    split
    · rename_i bundle _
      -- an error is that of one of the certificates
      have hbundle : Unrelated (bundle.mapM CertificateDer.toCertificate) := by
        intro h
        obtain ⟨certificate, -, h⟩ := exists_mem_of_mapM_eq_error h
        exact unrelated_toCertificate certificate h
      exact hbundle.bind fun graph => unrelated_asCertificateError _
    · exact unrelated_ok
  have hmethod : Unrelated (operation.checkMethod ctx) := by
    unfold checkMethod checkAddition
    repeat' split
    · exact fun h => by cases h
    · exact (unrelated_toCertificate _).bind fun parsed =>
        (unrelated_rejectIf (by decide)).bind fun _ => hgraph parsed
    · exact unrelated_ok
  exact (unrelated_rejectIf (by decide)).bind fun _ => (unrelated_rejectIf (by decide)).bind
    fun _ => hmethod.bind fun _ => unrelated_rejectIf (by decide)

/-- Only the rule that a SET comes first reports a duplicate modification. -/
theorem Operation.validate_unrelated (operation : Operation)
    (hsets : Unrelated (ModifyPermissions.rejectDuplicateSet ctx)) :
    Unrelated (operation.validate ctx) := by
  cases operation with
  | send operation => exact operation.validate_unrelated
  | setRep operation => exact operation.validate_unrelated
  | setInfo operation => exact operation.validate_unrelated
  | modifyPermissions operation =>
    exact operation.checkPermissions_unrelated.bind fun _ => hsets
  | createIdentifier operation => exact operation.validate_unrelated
  | tokenAdminSupply operation => exact operation.validate_unrelated
  | tokenAdminModifyBalance operation => exact operation.validate_unrelated
  | receive operation => exact operation.validate_unrelated
  | manageCertificate operation => exact operation.validate_unrelated

end Certificates

end Errors

section Blocks

variable [Crypto] [X509]

/-! ## Whole blocks -/

namespace BlockData

variable {data : BlockData} {config : Option ValidationConfig}

theorem validateOperationsFrom_unrelated
    (hsets : ∀ index,
      Unrelated (ModifyPermissions.rejectDuplicateSet (data.operationContext config index)))
    (index : ℕ) (operations : List Operation) :
    Unrelated (data.validateOperationsFrom config index operations) := by
  induction operations generalizing index with
  | nil => exact unrelated_ok
  | cons operation operations ih =>
    have hoperation : Unrelated (data.validateOperation config index operation) :=
      (unrelated_rejectIf (by simp)).bind fun _ => operation.validate_unrelated (hsets index)
    exact hoperation.bind fun _ => ih (index + 1)

end BlockData

/-- **Modifications of permissions never overwrite each other.** In a block whose operations
are accepted a SET is the first modification of its subject, and no block for which this
holds is rejected for a duplicate modification. -/
theorem onlyFirstSets_of_validateOperations [LawfulCrypto] (data : BlockData)
    (config : Option ValidationConfig) :
    (data.validateOperations config = .ok () →
        OnlyFirstSets data.account (data.operations.filterMap Operation.asModifyPermissions)) ∧
      (OnlyFirstSets data.account (data.operations.filterMap Operation.asModifyPermissions) →
        data.validateOperations config ≠ .error .duplicatePermissionModification) := by
  constructor
  · intro h
    by_cases hnone : data.operations.filterMap Operation.asModifyPermissions = []
    · rw [hnone]
      exact onlyFirstSets_iff_pairwise.mpr .nil
    · -- any modification in the block checks them all
      obtain ⟨modification, hmodification⟩ := List.exists_mem_of_ne_nil _ hnone
      obtain ⟨operation, hmem, has⟩ := List.mem_filterMap.mp hmodification
      obtain ⟨index, hvalid⟩ := BlockData.validate_of_mem h hmem
      cases operation <;> cases has
      simp only [Operation.validate, ModifyPermissions.validate, bind_eq_ok] at hvalid
      obtain ⟨-, -, hsets⟩ := hvalid
      exact rejectDuplicateSet_eq_ok.mp hsets
  · intro honly
    refine BlockData.validateOperationsFrom_unrelated (fun index h => ?_) 0 data.operations
    -- no other check reports a duplicate, so that this one would have failed
    have hok : ModifyPermissions.rejectDuplicateSet (data.operationContext config index) = .ok () :=
      rejectDuplicateSet_eq_ok.mpr honly
    rw [hok] at h
    cases h

/-- What the checks of the operations establish together. -/
structure OperationRules (data : BlockData) : Prop where
  one_setRep : (data.operations.filterMap Operation.asSetRep).length ≤ 1
  /-- Certificates are told apart by their hashes, however they are referred to. -/
  distinct_certificates : ((data.operations.filterMap Operation.asManageCertificate).map
    fun operation => operation.certificateOrHash.toHash).Nodup
  removal : ∀ operation ∈ data.operations.filterMap Operation.asManageCertificate,
    operation.method = .subtract → operation.intermediateCertificates = none
  addition : ∀ operation ∈ data.operations.filterMap Operation.asManageCertificate,
    operation.method = .add → operation.intermediateCertificates.isSome = true
  fee_sends : data.purpose = .fee → ∀ operation ∈ data.operations, operation.isSend = true

namespace BlockData

variable {data : BlockData} {config : Option ValidationConfig}

theorem isSend_of_validateOperationsFrom {index : ℕ} {operations : List Operation}
    (h : data.validateOperationsFrom config index operations = .ok ()) (hfee : data.purpose = .fee)
    {operation : Operation} (hmem : operation ∈ operations) : operation.isSend = true := by
  induction operations generalizing index with
  | nil => cases hmem
  | cons first rest ih =>
    simp only [validateOperationsFrom, validateOperation, bind_eq_ok, rejectIf_eq_ok] at h
    obtain ⟨-, ⟨-, hfirst, -⟩, hrest⟩ := h
    -- a fee block rejects whatever is not a send, at each operation
    rcases List.mem_cons.mp hmem with rfl | hmem
    · simpa [hfee] using hfirst
    · exact ih hrest hmem

/-- Every certificate operation of an accepted block has passed its own checks. -/
theorem validate_of_mem_asManageCertificate (h : data.validateOperations config = .ok ())
    {operation : ManageCertificate}
    (hmem : operation ∈ data.operations.filterMap Operation.asManageCertificate) :
    ∃ index, operation.validate (data.operationContext config index) = .ok () := by
  obtain ⟨found, hfound, has⟩ := List.mem_filterMap.mp hmem
  obtain ⟨index, hvalid⟩ := validate_of_mem h hfound
  cases found <;> cases has
  exact ⟨index, hvalid⟩

theorem operationRules (h : data.validateOperations config = .ok ()) : OperationRules data where
  one_setRep := by
    by_cases hnone : data.operations.filterMap Operation.asSetRep = []
    · simp [hnone]
    -- any SET_REP in the block counts them all
    · obtain ⟨setRep, hsetRep⟩ := List.exists_mem_of_ne_nil _ hnone
      obtain ⟨operation, hmem, has⟩ := List.mem_filterMap.mp hsetRep
      obtain ⟨index, hvalid⟩ := validate_of_mem h hmem
      cases operation <;> cases has
      simp only [Operation.validate, SetRep.validate, bind_eq_ok, rejectIf_eq_ok] at hvalid
      obtain ⟨-, -, -, -, hcount⟩ := hvalid
      exact Nat.le_of_not_gt hcount
  distinct_certificates := by
    by_cases hnone : data.operations.filterMap Operation.asManageCertificate = []
    · simp [hnone]
    -- any certificate operation compares them all
    · obtain ⟨operation, hmem⟩ := List.exists_mem_of_ne_nil _ hnone
      obtain ⟨index, hvalid⟩ := validate_of_mem_asManageCertificate h hmem
      simp only [ManageCertificate.validate, ManageCertificate.rejectDuplicate, bind_eq_ok,
        rejectIf_eq_ok, not_not] at hvalid
      obtain ⟨-, -, -, -, -, -, hdistinct⟩ := hvalid
      exact hdistinct
  removal := by
    intro operation hmem hmethod
    obtain ⟨index, hvalid⟩ := validate_of_mem_asManageCertificate h hmem
    simp only [ManageCertificate.validate, bind_eq_ok, rejectIf_eq_ok, hmethod] at hvalid
    obtain ⟨-, -, -, hintermediates, -⟩ := hvalid
    simpa using hintermediates
  addition := by
    intro operation hmem hmethod
    obtain ⟨index, hvalid⟩ := validate_of_mem_asManageCertificate h hmem
    simp only [ManageCertificate.validate, bind_eq_ok, rejectIf_eq_ok, hmethod] at hvalid
    obtain ⟨-, -, -, hintermediates, -⟩ := hvalid
    exact Option.isSome_iff_ne_none.mpr (by simpa using hintermediates)
  fee_sends := fun hfee _ hmem => isSend_of_validateOperationsFrom h hfee hmem

omit [X509] in
/-- The wire form does not tell data from their canonical form. -/
theorem onWire_canonical (data : BlockData) : data.canonical.onWire = data.onWire := by
  have hoperation : ∀ operation : Operation, operation.canonical.onWire = operation.onWire := by
    intro operation
    cases operation <;> simp [Operation.canonical, Operation.onWire]
  simp [onWire, canonical, Function.comp_def, hoperation]

theorem validateOperations_onWire (data : BlockData) (config : Option ValidationConfig) :
    data.onWire.validateOperations config = data.validateOperations config :=
  data.validateOperationsFrom_onWire config 0 data.operations

end BlockData

/-- **The rules of a block hold of what is accepted**, and whether it is accepted does not
depend on how certificates are referred to. -/
theorem operationRules_of_validateOperations (data : BlockData)
    (config : Option ValidationConfig) :
    (data.validateOperations config = .ok () → OperationRules data) ∧
      data.canonical.validateOperations config = data.validateOperations config := by
  refine ⟨BlockData.operationRules, ?_⟩
  calc data.canonical.validateOperations config
      = data.canonical.onWire.validateOperations config :=
        (data.canonical.validateOperations_onWire config).symm
    _ = data.onWire.validateOperations config := by rw [data.onWire_canonical]
    _ = data.validateOperations config := data.validateOperations_onWire config

end Blocks

/-! ## Samples -/

section Samples

open scoped Reference

namespace Sample

open Reference

/-- A block in which bob's permissions are set and then added to, and a certificate is
removed. -/
def blockDataModifying : BlockData :=
  { blockData (.single alice) given with
    operations := [.modifyPermissions ⟨.account bob, .set, some given, none⟩,
      .modifyPermissions ⟨.account bob, .add, some given, none⟩,
      .manageCertificate ⟨.subtract, .certificate certificate, none⟩,
      .setRep ⟨bob⟩] }

end Sample

theorem onlyFirstSets_of_validateOperations_sample :
    OnlyFirstSets Sample.blockDataModifying.account
        (Sample.blockDataModifying.operations.filterMap Operation.asModifyPermissions) ∧
      Sample.blockDataModifying.validateOperations (some .default) ≠
        .error .duplicatePermissionModification := by
  have h := onlyFirstSets_of_validateOperations Sample.blockDataModifying (some .default)
  exact ⟨h.1 (by decide +kernel), h.2 (h.1 (by decide +kernel))⟩

theorem operationRules_of_validateOperations_sample : OperationRules Sample.blockDataModifying :=
  (operationRules_of_validateOperations Sample.blockDataModifying (some .default)).1
    (by decide +kernel)

end Samples

end KeetaNode
