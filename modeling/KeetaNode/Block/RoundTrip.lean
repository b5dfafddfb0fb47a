import KeetaNode.Block.WireForm

/-!
# Decoding undoes encoding

The transport conversions against each other, first for operations, then for the
signer tree and whole blocks.

- `keetanetwork-block/src/transport.rs`
-/

namespace KeetaNode

open ByteCodec
open Asn1 (Tag Asn1Error Chrono LawfulChrono)

variable [Crypto] [LawfulCrypto]

/-! ## Operations -/

@[simp]
theorem parseAccount_accountBytes (account : GenericAccount) :
    parseAccount (accountBytes account) = .ok account := by
  simp [parseAccount, accountBytes, GenericAccount.fromHex_toPublicKeyWithType, asAccountError]

omit [LawfulCrypto] in
theorem accountBytes_injective :
    Function.Injective (accountBytes : GenericAccount → Bytes) :=
  GenericAccount.toPublicKeyWithType_injective

@[simp]
theorem parseOptionalAccount_accountBytes (account : Option GenericAccount) :
    parseOptionalAccount (account.map accountBytes) = .ok account := by
  cases account <;> simp [parseOptionalAccount]

theorem mapM_parseAccount (accounts : List GenericAccount) :
    (accounts.map accountBytes).mapM parseAccount = .ok accounts := by
  rw [mapM_map_eq_ok fun account _ => parseAccount_accountBytes account, List.map_id']

omit [Crypto] [LawfulCrypto] in
@[simp]
theorem permissionsFromTransport_toTransport (permissions : Permissions) :
    permissionsFromTransport (permissionsToTransport permissions) = .ok permissions.onWire :=
  permissions.fromBigints_bits

omit [Crypto] [LawfulCrypto] in
@[simp]
theorem optionalPermissionsFromTransport_toTransport (permissions : Option Permissions) :
    optionalPermissionsFromTransport (permissions.map permissionsToTransport) =
      .ok (permissions.map Permissions.onWire) := by
  cases permissions <;> simp [optionalPermissionsFromTransport]

omit [Crypto] [LawfulCrypto] in
@[simp]
theorem permissionsOrNullFromTransport_toTransport (permissions : Option Permissions) :
    permissionsOrNullFromTransport (permissionsOrNullToTransport permissions) =
      .ok (permissions.map Permissions.onWire) := by
  cases permissions <;> simp [permissionsOrNullFromTransport, permissionsOrNullToTransport]

@[simp]
theorem principalFromTransport_toTransport (principal : ModifyPermissionsPrincipal) :
    principalFromTransport (principalToTransport principal) = .ok principal := by
  cases principal <;> simp [principalFromTransport, principalToTransport]

@[simp]
theorem createArgumentsFromTransport_toTransport (arguments : Option IdentifierCreateArguments) :
    createArgumentsFromTransport (arguments.map createArgumentsToTransport) = .ok arguments := by
  cases arguments with
  | none => rfl
  | some arguments =>
    obtain ⟨arguments⟩ := arguments
    simp only [createArgumentsFromTransport, createArgumentsToTransport, Option.map_some,
      mapM_parseAccount, ok_bind, pure_eq_ok]

omit [Crypto] [LawfulCrypto] in
@[simp]
theorem intermediatesFromTransport_toTransport (intermediates : IntermediateCertificates) :
    intermediatesFromTransport (intermediatesToTransport intermediates) = intermediates := by
  cases intermediates with
  | none => rfl
  | bundle certificates =>
    simp [intermediatesToTransport, intermediatesFromTransport, Function.comp_def]

omit [Crypto] [LawfulCrypto] in
/-- The length tells a hash from a certificate. -/
theorem certificateOrHashFromTransport_toTransport {certificateOrHash : CertificateOrHash}
    (h : ∀ certificate, certificateOrHash = .certificate certificate →
      certificate.bytes.length ≠ 32) :
    certificateOrHashFromTransport (certificateOrHashToTransport certificateOrHash) =
      certificateOrHash := by
  cases certificateOrHash with
  | hash hash => simp [certificateOrHashToTransport, certificateOrHashFromTransport]
  | certificate certificate =>
    simp [certificateOrHashToTransport, certificateOrHashFromTransport, Octets.ofBytes,
      h certificate rfl]

omit [LawfulCrypto] in
theorem manageCertificateFromTransport_toTransport {operation : ManageCertificate}
    (h : operation.Discernible) :
    manageCertificateFromTransport (manageCertificateToTransport operation) =
      .ok operation.canonical := by
  simp only [manageCertificateToTransport, manageCertificateFromTransport,
    AdjustMethod.tryFrom_toBigint, ok_bind, certificateOrHashFromTransport_toTransport h]
  cases hi : operation.intermediateCertificates <;> simp [ManageCertificate.canonical, hi]

/-- **An operation is read back in its wire form.** -/
theorem operationFromTransport_toTransport {operation : Operation} (h : operation.Discernible) :
    operationFromTransport (operationToTransport operation) = .ok operation.onWire := by
  cases operation with
  | modifyPermissions operation =>
    simp [operationToTransport, operationFromTransport, modifyPermissionsToTransport,
      modifyPermissionsFromTransport, Operation.onWire]
  | createIdentifier operation =>
    simp [operationToTransport, operationFromTransport, createIdentifierToTransport,
      createIdentifierFromTransport, Operation.onWire]
  | manageCertificate operation =>
    simp [operationToTransport, operationFromTransport, Operation.onWire,
      manageCertificateFromTransport_toTransport h]
  | _ => simp [operationToTransport, operationFromTransport, Operation.onWire]

theorem mapM_operationFromTransport {operations : List Operation}
    (h : ∀ operation ∈ operations, operation.Discernible) :
    (operations.map operationToTransport).mapM operationFromTransport =
      .ok (operations.map Operation.onWire) := by
  exact mapM_map_eq_ok fun operation hmem => operationFromTransport_toTransport (h operation hmem)

omit [LawfulCrypto] in
/-- An operation and its wire form look the same on the wire. -/
theorem operationToTransport_onWire (operation : Operation) :
    operationToTransport operation.onWire = operationToTransport operation := by
  cases operation with
  | setInfo operation =>
    simp only [Operation.onWire, operationToTransport, Option.map_map]
    rfl
  | modifyPermissions operation =>
    cases h : operation.permissions <;>
      simp [Operation.onWire, operationToTransport, modifyPermissionsToTransport,
        permissionsOrNullToTransport, permissionsToTransport, BaseSet.onWire, h]
  | manageCertificate operation =>
    simp only [Operation.onWire, operationToTransport, manageCertificateToTransport,
      ManageCertificate.canonicalCertificateOrHash_canonical]
    rfl
  | _ => rfl

/-! ## The signer tree -/

/-- Multisig nodes have multisig addresses and stand at most three deep. -/
inductive Signer.Admitted : Nat → Signer → Prop
  | single (depth : Nat) (account : GenericAccount) : Admitted depth (.single account)
  | multisig {depth : Nat} {address : GenericAccount} {signers : List Signer}
      (hdepth : depth ≤ maxParseSignerDepth) (haddress : address.keyType = .multisig)
      (hsigners : ∀ s ∈ signers, Admitted (depth + 1) s) :
      Admitted depth (.multisig address signers)

/-- All leaves of a tree are signing accounts. -/
def Signer.KeyedLeaves (signer : Signer) : Prop :=
  ∀ leaf ∈ signer.leaves, leaf.keyType.supportsCrypto = true

omit [LawfulCrypto] in
theorem Signer.keyedLeaves_multisig {address : GenericAccount} {signers : List Signer} :
    (Signer.multisig address signers).KeyedLeaves ↔ ∀ s ∈ signers, s.KeyedLeaves := by
  simp only [KeyedLeaves, leaves, mem_leavesAll, forall_exists_index, and_imp]
  constructor
  · intro h s hs leaf hleaf
    exact h leaf s hs hleaf
  · intro h leaf s hs hleaf
    exact h s hs leaf hleaf

omit [LawfulCrypto] in
/-- The members of a node are parsed one by one. -/
theorem parseSigners_eq_ok {depth : Nat} {signers : List Asn1.Signer} {parsed : List Signer} :
    parseSigners depth signers = .ok parsed ↔
      List.Forall₂ (fun s p => parseSigner depth s = .ok p) signers parsed := by
  rw [← mapM_eq_ok_iff]
  suffices h : parseSigners depth signers = signers.mapM (parseSigner depth) by rw [h]
  induction signers with
  | nil => rfl
  | cons signer signers ih => simp only [parseSigners, ih, List.mapM_cons]

omit [LawfulCrypto] in
theorem buildSigners_eq_map (signers : List Signer) :
    buildSigners signers = signers.map buildSigner := by
  induction signers with
  | nil => rfl
  | cons signer signers ih => simp [buildSigners, ih]

omit [LawfulCrypto] in
/-- What holds of parsing every member holds of parsing all members. -/
theorem parseSigners_buildSigners {depth : Nat} {signers : List Signer}
    (h : ∀ s ∈ signers, ∀ p, parseSigner depth (buildSigner s) = .ok p ↔
      p = s ∧ s.Admitted depth ∧ s.KeyedLeaves) (parsed : List Signer) :
    parseSigners depth (buildSigners signers) = .ok parsed ↔
      parsed = signers ∧ ∀ s ∈ signers, s.Admitted depth ∧ s.KeyedLeaves := by
  rw [parseSigners_eq_ok, buildSigners_eq_map, List.forall₂_map_left_iff]
  induction signers generalizing parsed with
  | nil => simp
  | cons signer signers ih =>
    rw [List.forall₂_cons_left_iff]
    have ih := ih fun s hs => h s (by simp [hs])
    constructor
    · rintro ⟨p, rest, hp, hrest, rfl⟩
      obtain ⟨rfl, hfirst⟩ := (h signer (by simp) p).mp hp
      obtain ⟨rfl, hothers⟩ := (ih rest).mp hrest
      exact ⟨rfl, by simpa using ⟨hfirst, hothers⟩⟩
    · rintro ⟨rfl, hall⟩
      exact ⟨signer, signers, (h signer (by simp) signer).mpr ⟨rfl, hall signer (by simp)⟩,
        (ih signers).mpr ⟨rfl, fun s hs => hall s (by simp [hs])⟩, rfl⟩

/-- **A tree is parsed again exactly when its nodes are admitted and its leaves keyed.** -/
theorem parseSigner_buildSigner (signer : Signer) :
    ∀ depth parsed, parseSigner depth (buildSigner signer) = .ok parsed ↔
      parsed = signer ∧ signer.Admitted depth ∧ signer.KeyedLeaves := by
  induction signer using Signer.treeInduction with
  | single account =>
    intro depth parsed
    simp only [buildSigner, parseSigner, parseAccount_accountBytes, ok_bind, bind_eq_ok,
      rejectIf_eq_ok, pure_eq_ok, Except.ok.injEq, Signer.KeyedLeaves, Signer.leaves,
      List.mem_singleton, forall_eq, Bool.not_eq_false]
    constructor
    · rintro ⟨-, hkeyed, rfl⟩
      exact ⟨rfl, .single depth account, hkeyed⟩
    · rintro ⟨rfl, -, hkeyed⟩
      exact ⟨(), hkeyed, rfl⟩
  | multisig address signers ih =>
    intro depth parsed
    -- the members stand one level deeper, each read back by itself
    have hmembers := parseSigners_buildSigners fun s hs => ih s hs (depth + 1)
    simp only [buildSigner, parseSigner, parseAccount_accountBytes, ok_bind, bind_eq_ok,
      rejectIf_eq_ok, pure_eq_ok, Except.ok.injEq, hmembers, Signer.keyedLeaves_multisig]
    constructor
    · rintro ⟨-, hdepth, -, haddress, members, ⟨rfl, hall⟩, rfl⟩
      exact ⟨rfl, .multisig (Nat.le_of_not_gt hdepth) (not_not.mp haddress)
        fun s hs => (hall s hs).1, fun s hs => (hall s hs).2⟩
    · rintro ⟨rfl, hadmitted, hkeyed⟩
      cases hadmitted with
      | multisig hdepth haddress hsigners =>
        exact ⟨(), Nat.not_lt.mpr hdepth, (), not_not.mpr haddress, signers,
          ⟨rfl, fun s hs => ⟨hsigners s hs, hkeyed s hs⟩⟩, rfl⟩

/-! ### The walk of the validation -/

section Walk

omit [LawfulCrypto]

theorem Signer.sizeAll_filter_le (keep : Signer → Bool) (signers : List Signer) :
    sizeAll (signers.filter keep) ≤ sizeAll signers := by
  induction signers with
  | nil => simp
  | cons signer signers ih =>
    rw [List.filter_cons]
    split <;> simp only [sizeAll] <;> omega

theorem signerStep_decreasing (config : Option ValidationConfig) :
    Decreasing (signerStep config) signerMeasure := by
  rintro queue next h
  match queue with
  | [] => simp [signerStep] at h
  | (depth, current) :: queue =>
    simp only [signerStep] at h
    split at h
    · cases h
    · cases h
      simp only [signerMeasure, List.map_append, Signer.sizeAll_append, List.map_cons,
        Signer.sizeAll]
      -- the nodes queued are members of the node taken, which is larger by one
      cases current with
      | single account => simp [nestedNodes, Signer.sizeAll, Signer.size]
      | multisig address signers =>
        have hle := Signer.sizeAll_filter_le Signer.isMultisig signers
        simp only [nestedNodes, List.map_map, Function.comp_def, List.map_id', Signer.size]
        omega

/-- A node that passes its checks is admitted when its multisig members are. -/
theorem admitted_of_checkNode {config : Option ValidationConfig} {depth : Nat} {signer : Signer}
    (hconfig : ∀ c ∈ config, c.maxSignerDepth = maxParseSignerDepth)
    (h : checkNode config depth signer = .ok ())
    (hnested : ∀ node ∈ nestedNodes depth signer, node.2.Admitted node.1) :
    signer.Admitted depth := by
  cases signer with
  | single account => exact .single depth account
  | multisig address signers =>
    cases config with
    | none => cases h
    | some config =>
      simp only [checkNode, ValidationConfig.validateSignerDepth, bind_eq_ok, rejectIf_eq_ok,
        not_not, not_lt, hconfig config rfl] at h
      obtain ⟨-, hdepth, -, haddress, -⟩ := h
      refine .multisig hdepth haddress fun s hs => ?_
      -- only the nested nodes are queued; a single signer has nothing to check
      cases s with
      | single account => exact .single _ account
      | multisig inner members =>
        exact hnested (depth + 1, .multisig inner members) (by
          simp only [nestedNodes, List.mem_map, List.mem_filter]
          exact ⟨.multisig inner members, ⟨hs, rfl⟩, rfl⟩)

/-- A walk that ends well admits every node that was queued. -/
theorem admitted_of_walk {config : Option ValidationConfig}
    (hconfig : ∀ c ∈ config, c.maxSignerDepth = maxParseSignerDepth)
    (queue : List (Nat × Signer))
    (h : loop (signerStep config) (.error .malformedSigner) signerMeasure queue = .ok ()) :
    ∀ node ∈ queue, node.2.Admitted node.1 := by
  generalize hn : signerMeasure queue = n
  induction n using Nat.strong_induction_on generalizing queue with
  | _ n ih =>
    subst hn
    match queue with
    | [] => simp
    | (depth, current) :: queue =>
      rw [loop_eq (signerStep_decreasing config)] at h
      cases hcheck : checkNode config depth current with
      | error e => simp [signerStep, hcheck] at h
      | ok u =>
        -- the nested nodes go to the end of the queue, and are admitted there
        have hstep : signerStep config ((depth, current) :: queue) =
            .inl (queue ++ nestedNodes depth current) := by simp [signerStep, hcheck]
        rw [hstep] at h
        have hrest := ih _ (signerStep_decreasing config _ _ hstep) _ h rfl
        intro node hnode
        rcases List.mem_cons.mp hnode with rfl | hnode
        · exact admitted_of_checkNode hconfig hcheck fun nested hnested =>
            hrest nested (List.mem_append_right queue hnested)
        · exact hrest node (List.mem_append_left _ hnode)

theorem admitted_of_validateSignerField {config : Option ValidationConfig} {signer : Signer}
    (hconfig : ∀ c ∈ config, c.maxSignerDepth = maxParseSignerDepth)
    (h : validateSignerField signer config = .ok ()) : signer.Admitted 1 := by
  cases signer with
  | single account => exact .single 1 account
  | multisig address signers =>
    simp only [validateSignerField, Signer.isMultisig, if_true] at h
    exact admitted_of_walk hconfig _ h (1, .multisig address signers) (by simp)

end Walk

/-! ### The field -/

omit [LawfulCrypto] in
/-- The root of a tree, which is not checked for its depth, is parsed like a member. -/
theorem signerFromTransport_multisig (account address : GenericAccount) (signers : List Signer) :
    signerFromTransport account (signerToTransport account (.multisig address signers)) =
      parseSigner 1 (buildSigner (.multisig address signers)) := by
  simp [signerFromTransport, signerToTransport, parseMultisig, parseSigner, buildSigner,
    maxParseSignerDepth, rejectIf_neg]

/-- A single signer is read back whatever it is, a multisig signer when its leaves are
keyed. -/
theorem signerFromTransport_toTransport {signer : Signer} (hadmitted : signer.Admitted 1)
    (account : GenericAccount) (parsed : Signer) :
    signerFromTransport account (signerToTransport account signer) = .ok parsed ↔
      parsed = signer ∧ (signer.isMultisig = true → signer.KeyedLeaves) := by
  cases signer with
  | single signer =>
    simp only [signerToTransport, Signer.isMultisig, Bool.false_eq_true, false_implies, and_true]
    split <;> rename_i hsame
    · rw [accountsEqual_eq_true] at hsame
      subst hsame
      rw [signerFromTransport, Except.ok.injEq]
      exact eq_comm
    · have hread : signerFromTransport account (.single (accountBytes signer)) =
          .ok (.single signer) := by
        simp only [signerFromTransport, parseAccount_accountBytes, ok_bind, rejectIf_neg hsame,
          pure_eq_ok]
      rw [hread, Except.ok.injEq]
      exact eq_comm
  | multisig address signers =>
    rw [signerFromTransport_multisig, parseSigner_buildSigner]
    simp [Signer.isMultisig, hadmitted]

/-! ## Blocks -/

namespace BlockData

/-- The data as they are read back. -/
def onWire (data : BlockData) : BlockData :=
  { data with operations := data.operations.map Operation.onWire }

/-- Equality of canonical forms is equality field by field, up to the way removals name
a certificate. -/
def canonical (data : BlockData) : BlockData :=
  { data with operations := data.operations.map Operation.canonical }

/-- What reading the data back relies on, of everything that is validated. -/
structure Transportable (data : BlockData) : Prop where
  discernible : ∀ operation ∈ data.operations, operation.Discernible
  generic : data.version = .v1 → data.purpose = .generic
  admitted : data.signer.Admitted 1

/-- A multisig signer signs with keyed accounts only. -/
def KeyedSigners (data : BlockData) : Prop :=
  data.signer.isMultisig = true → data.signer.KeyedLeaves

end BlockData

omit [Crypto] [LawfulCrypto] in
@[simp]
theorem signatureFromBytes_bytes (signature : Signature) :
    signatureFromBytes signature.bytes = .ok signature := by
  simp [signatureFromBytes]

omit [Crypto] [LawfulCrypto] in
@[simp]
theorem blockhashFromBytes_bytes (hash : BlockHash) : blockhashFromBytes hash.bytes = .ok hash := by
  simp [blockhashFromBytes]

omit [Crypto] [LawfulCrypto] in
@[simp]
theorem subnetFromTransport_toTransport (subnet : Option Int) :
    subnetFromTransport (subnetToTransport subnet) = subnet := by
  cases subnet <;> rfl

omit [Crypto] [LawfulCrypto] in
theorem signatureFromTransport_toTransport {signatures : Option (List Signature)}
    {transport : Option Bytes} (h : signatureToTransport signatures = .ok transport) :
    signatureFromTransport transport = .ok signatures := by
  match signatures with
  | none =>
    cases h
    rfl
  | some [only] =>
    cases h
    simp [signatureFromTransport]
  | some [] => cases h
  | some (_ :: _ :: _) => cases h

omit [Crypto] [LawfulCrypto] in
theorem signaturesFromTransport_toTransport {signatures : Option (List Signature)}
    {transport : Option Asn1.Signatures} (h : signaturesToTransport signatures = .ok transport) :
    signaturesFromTransport transport = .ok signatures := by
  match signatures with
  | none =>
    cases h
    rfl
  | some [] => cases h
  | some [only] =>
    cases h
    simp [signaturesFromTransport]
  | some (first :: second :: rest) =>
    cases h
    have hmany : ((first :: second :: rest).map (·.bytes)).mapM signatureFromBytes =
        .ok ((first :: second :: rest).map id) :=
      mapM_map_eq_ok fun signature _ => signatureFromBytes_bytes signature
    rw [List.map_id] at hmany
    simp only [signaturesFromTransport, hmany]
    rfl

theorem accountFromTransport_toTransport (account signer : GenericAccount) :
    accountFromTransport signer (accountToTransport account signer) = .ok account := by
  unfold accountToTransport
  split <;> rename_i hsame
  · rw [accountsEqual_eq_true] at hsame
    simp [accountFromTransport, hsame]
  · simp only [accountFromTransport, parseAccount_accountBytes, ok_bind, rejectIf_neg hsame,
      pure_eq_ok]

theorem blockV1ToParts_buildBlockV1 {data : BlockData} {signatures : Option (List Signature)}
    {block : Asn1.BlockV1} (hdata : data.Transportable) (hversion : data.version = .v1)
    (h : buildBlockV1 data signatures = .ok block) :
    blockV1ToParts block = .ok (data.onWire, signatures) ∧ data.signer.isMultisig = false := by
  have hpurpose := hdata.generic hversion
  have hoperations := mapM_operationFromTransport hdata.discernible
  obtain ⟨version, purpose, network, subnet, idempotent, date, account, signer, previous,
    operations⟩ := data
  cases signer with
  | multisig address signers => cases h
  | single signer =>
    simp only [buildBlockV1, bind_eq_ok, pure_eq_ok, Except.ok.injEq] at h
    obtain ⟨signature, hsignature, rfl⟩ := h
    simp only at hversion hpurpose hoperations
    subst hversion hpurpose
    refine ⟨?_, rfl⟩
    simp [blockV1ToParts, rejectIf_neg, accountFromTransport_toTransport,
      signatureFromTransport_toTransport hsignature, hoperations, BlockData.onWire]

theorem blockV2ToParts_buildBlockV2 {data : BlockData} {signatures : Option (List Signature)}
    {block : Asn1.BlockV2} {parts : BlockData × Option (List Signature)}
    (hdata : data.Transportable) (hversion : data.version = .v2)
    (h : buildBlockV2 data signatures = .ok block) :
    blockV2ToParts block = .ok parts ↔ parts = (data.onWire, signatures) ∧ data.KeyedSigners := by
  have hoperations := mapM_operationFromTransport hdata.discernible
  have hsigner := signerFromTransport_toTransport hdata.admitted data.account
  obtain ⟨version, purpose, network, subnet, idempotent, date, account, signer, previous,
    operations⟩ := data
  simp only [buildBlockV2, bind_eq_ok, pure_eq_ok, Except.ok.injEq] at h
  obtain ⟨transport, htransport, rfl⟩ := h
  simp only at hversion hoperations hsigner
  subst hversion
  simp only [blockV2ToParts, parseAccount_accountBytes, ok_bind, bind_eq_ok, hsigner,
    signaturesFromTransport_toTransport htransport, BlockPurpose.tryFrom_toBigint,
    blockhashFromBytes_bytes, hoperations, pure_eq_ok, Except.ok.injEq]
  constructor
  · rintro ⟨parsed, ⟨rfl, hkeyed⟩, rfl⟩
    exact ⟨rfl, hkeyed⟩
  · rintro ⟨rfl, hkeyed⟩
    exact ⟨signer, ⟨rfl, hkeyed⟩, rfl⟩

/-- **A transport block is read back, in wire form, exactly when no multisig signer has
an identifier for a leaf.** -/
theorem blockToParts_buildBlock {data : BlockData} {signatures : Option (List Signature)}
    {block : Asn1.Block} {parts : BlockData × Option (List Signature)}
    (hdata : data.Transportable) (h : buildBlock data signatures = .ok block) :
    blockToParts block = .ok parts ↔ parts = (data.onWire, signatures) ∧ data.KeyedSigners := by
  unfold buildBlock at h
  cases hversion : data.version with
  | v1 =>
    simp only [hversion, bind_eq_ok, pure_eq_ok, Except.ok.injEq] at h
    obtain ⟨value, hvalue, rfl⟩ := h
    obtain ⟨hparts, hsingle⟩ := blockV1ToParts_buildBlockV1 hdata hversion hvalue
    rw [blockToParts, hparts, Except.ok.injEq]
    simp [BlockData.KeyedSigners, hsingle, eq_comm]
  | v2 =>
    simp only [hversion, bind_eq_ok, pure_eq_ok, Except.ok.injEq] at h
    obtain ⟨value, hvalue, rfl⟩ := h
    exact blockV2ToParts_buildBlockV2 hdata hversion hvalue

omit [LawfulCrypto] in
/-- The wire form of the data is encoded like the data. -/
theorem buildBlock_onWire (data : BlockData) (signatures : Option (List Signature)) :
    buildBlock data.onWire signatures = buildBlock data signatures := by
  have hoperations : data.onWire.operations.map operationToTransport =
      data.operations.map operationToTransport := by
    simp [BlockData.onWire, operationToTransport_onWire]
  simp only [buildBlock, buildBlockV1, buildBlockV2, hoperations]
  rfl

section Encoding

variable [Tlv Tag Asn1Error] {data : BlockData} {signatures : Option (List Signature)}
  {bytes : Bytes}

omit [LawfulCrypto] in
theorem encodeBlock_onWire (data : BlockData) (signatures : Option (List Signature)) :
    encodeBlock data.onWire signatures = encodeBlock data signatures := by
  simp only [encodeBlock, buildBlock_onWire]

omit [LawfulCrypto] in
/-- An encoding is that of a transport block, which it decodes to. -/
theorem encodeBlock_eq_ok [Chrono] [LawfulTlv Tag Asn1Error] [LawfulChrono]
    (h : encodeBlock data signatures = .ok bytes) :
    ∃ block, buildBlock data signatures = .ok block ∧
      asCodecError (Asn1.decodeBlock bytes) = .ok block := by
  simp only [encodeBlock, bind_eq_ok] at h
  obtain ⟨block, hblock, hbytes⟩ := h
  refine ⟨block, hblock, ?_⟩
  cases hencoded : Asn1.encodeBlock block with
  | error e => simp [asCodecError, hencoded] at hbytes
  | ok encoded =>
    simp only [hencoded, asCodecError, Except.ok.injEq] at hbytes
    subst hbytes
    rw [Asn1.decodeBlock_encodeBlock block hencoded, asCodecError]

/-- **Decoding gives back the wire form of what was encoded**, for data that are
validated. -/
theorem decodeBlock_eq_ok_iff [Chrono] [LawfulTlv Tag Asn1Error] [LawfulChrono]
    {parts : BlockData × Option (List Signature)} (hdata : data.Transportable)
    (h : encodeBlock data signatures = .ok bytes) :
    decodeBlock bytes = .ok parts ↔ parts = (data.onWire, signatures) ∧ data.KeyedSigners := by
  obtain ⟨block, hblock, hdecoded⟩ := encodeBlock_eq_ok h
  rw [decodeBlock, hdecoded, ok_bind, blockToParts_buildBlock hdata hblock]

end Encoding

end KeetaNode
