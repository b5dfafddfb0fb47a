import KeetaNode.Block.Types

/-!
# Validation of block contents

The network's configuration, the checks of each operation against the block it
stands in, and `BlockData::validate`.

- `keetanetwork-block/src/validation.rs`
- `keetanetwork-block/src/account_util.rs`
- `keetanetwork-block/src/operation/*.rs`
- `keetanetwork-block/src/block.rs`

X.509 certificates are parsed by another crate, whose functions are the parameter
`X509`.
-/

namespace KeetaNode

open ByteCodec

/-! ## Networks and their configuration -/

inductive Network where
  | testDefault | main | staging | test | dev
  deriving DecidableEq, Repr

namespace Network

def id : Network → Nat
  | testDefault => 0
  | main => 0x5382
  | staging => 0x538201
  | test => 0x54455354
  | dev => 0x444556

def tryFrom (value : Int) : Except BlockError Network :=
  match [testDefault, main, staging, test, dev].find? fun network => (network.id : Int) = value with
  | some network => .ok network
  | none => .error .unknownNetwork

end Network

inductive TextRuleViolation where
  | tooLong (length max : Nat)
  | invalidCharacter
  deriving DecidableEq, Repr

/-- A length- and charset-constrained text rule. -/
structure TextRule where
  maxLength : Nat
  canBeEmpty : Bool
  isValidChar : Char → Bool

/-- The number of UTF-16 code units. -/
def utf16Length (text : String) : Nat :=
  (text.toList.map fun c => if c.toNat < 0x10000 then 1 else 2).sum

namespace TextRule

def check (rule : TextRule) (value : String) : Except TextRuleViolation Unit :=
  if rule.canBeEmpty ∧ value = "" then .ok ()
  else do
    let length := utf16Length value
    rejectIf (length > rule.maxLength) (.tooLong length rule.maxLength)
    rejectIf (value.toList.all rule.isValidChar = false) .invalidCharacter

def isValid (rule : TextRule) (value : String) : Bool :=
  match rule.check value with
  | .ok _ => true
  | .error _ => false

end TextRule

def nameChar (c : Char) : Bool := ('A' ≤ c && c ≤ 'Z') || c == '_'

def descriptionChar (c : Char) : Bool :=
  c.isAlphanum ||
    ['_', '!', '"', '#', '$', '%', '&', '\'', '(', ')', '*', '+', ',', '-', '.', '/', ':', ';',
      '?', '@', '\\', '^', '‘', '~', ' '].contains c

def metadataChar (c : Char) : Bool := c.isAlphanum || ['-', '+', '/', '='].contains c

def externalChar (c : Char) : Bool :=
  c.isAlphanum || ['-', '_', '+', '/', '=', ' '].contains c

structure ValidationConfig where
  name : TextRule
  description : TextRule
  metadata : TextRule
  external : TextRule
  maxSupply : Int
  maxSignerCount : Nat
  maxSignerDepth : Nat
  maxExternalOffset : Nat
  /-- Milliseconds from which on negative amounts are rejected. -/
  numericCutoffEpochMs : Int
  maxIdempotentBytes : Nat

namespace ValidationConfig

def default : ValidationConfig where
  name := ⟨50, false, nameChar⟩
  description := ⟨250, false, descriptionChar⟩
  metadata := ⟨5464, true, metadataChar⟩
  external := ⟨1024, true, externalChar⟩
  maxSupply := 10 ^ 200 - 1
  maxSignerCount := 16
  maxSignerDepth := 3
  maxExternalOffset := 32
  numericCutoffEpochMs := 1763683200000
  maxIdempotentBytes := 36

/-- All known networks share the base configuration. -/
def forNetwork (network : Int) : Except BlockError ValidationConfig := do
  let _ ← Network.tryFrom network
  return default

def validateSignerCount (config : ValidationConfig) (count : Nat) : Except BlockError Unit :=
  rejectIf (count > config.maxSignerCount ∨ count < 1)
    (.multisigSignerCountInvalid count config.maxSignerCount)

def validateSignerDepth (config : ValidationConfig) (depth : Nat) : Except BlockError Unit :=
  rejectIf (depth > config.maxSignerDepth)
    (.multisigSignerDepthExceeded depth config.maxSignerDepth)

def validateSupply (config : ValidationConfig) (amount : Int) : Except BlockError Unit :=
  rejectIf (amount > config.maxSupply) .supplyInvalid

def validateNumericValue (config : ValidationConfig) (value blockDateMs : Int) :
    Except BlockError Unit :=
  rejectIf (value < 0 ∧ config.numericCutoffEpochMs ≤ blockDateMs) .amountBelowZero

end ValidationConfig

/-! ## Certificates -/

/-- The certificate parser and graph check of `keetanetwork-x509`. -/
class X509 where
  Certificate : Type
  /-- `Certificate::try_from`. -/
  tryFrom : Bytes → Except CertificateError Certificate
  /-- The octets of `subject_public_key_info.subject_public_key`. -/
  subjectPublicKey : Certificate → Bytes
  /-- The graph of the certificate and a set of others, given by its members. -/
  assertCanConstructValidGraph : Certificate → List Certificate → Except CertificateError Unit

/-- A certificate contains a validity of two times and two signature algorithms. -/
class LawfulX509 [X509] : Prop where
  length_of_tryFrom : ∀ {bytes certificate}, X509.tryFrom bytes = .ok certificate →
    32 < bytes.length

/-- A failed call as an error of the block crate. -/
def asCertificateError {α : Type} : Except CertificateError α → Except BlockError α
  | .ok a => .ok a
  | .error e => .error (.certificate e)

def asAccountError {α : Type} : Except AccountError α → Except BlockError α
  | .ok a => .ok a
  | .error e => .error (.account e)

def CertificateDer.toCertificate [X509] (certificate : CertificateDer) :
    Except BlockError X509.Certificate :=
  asCertificateError (X509.tryFrom certificate.bytes)

/-! ## Operations -/

variable [Crypto]

/-- Whether two accounts share the same public key and type. -/
def accountsEqual (left right : GenericAccount) : Bool :=
  left.toPublicKeyWithType == right.toPublicKeyWithType

@[simp] theorem accountsEqual_eq_true {left right : GenericAccount} :
    accountsEqual left right = true ↔ left = right := by
  simp [accountsEqual, GenericAccount.toPublicKeyWithType_injective.eq_iff]

@[simp] theorem accountsEqual_eq_false {left right : GenericAccount} :
    accountsEqual left right = false ↔ left ≠ right := by
  rw [← Bool.not_eq_true, accountsEqual_eq_true]

/-- The number of distinct accounts, keyed by their address. -/
def uniqueAccountCount (accounts : List GenericAccount) : Nat :=
  (accounts.map GenericAccount.toString).dedup.length

/-- What an operation's check sees of its block. -/
structure OperationContext where
  /-- None when the network is unknown, an error only where it is consulted. -/
  config : Option ValidationConfig
  account : GenericAccount
  operations : List Operation
  previous : BlockHash
  dateMs : Int
  operationIndex : Nat

namespace OperationContext

variable (ctx : OperationContext)

/-- The configuration, where an operation needs one. -/
def requireConfig : Except BlockError ValidationConfig :=
  match ctx.config with
  | some config => .ok config
  | none => .error .unknownNetwork

def validateNumeric (value : Int) : Except BlockError Unit :=
  if 0 ≤ value then .ok ()
  else do
    let config ← ctx.requireConfig
    config.validateNumericValue value ctx.dateMs

def accountIsToken : Bool := ctx.account.keyType == .token

/-- The token must be a token identifier and the amount pass the numeric rules. -/
def guardTokenAmount (token : GenericAccount) (amount : Int) : Except BlockError Unit := do
  rejectIf (token.keyType ≠ .token) .tokenFieldNotToken
  ctx.validateNumeric amount

def rejectTokenAccount : Except BlockError Unit :=
  rejectIf (ctx.accountIsToken = true) .tokenOperationForbidden

/-- The block's operations of one type, in order (`iter_type`). -/
def iterType {α : Type} (select : Operation → Option α) : List α :=
  ctx.operations.filterMap select

end OperationContext

def Operation.asSetRep : Operation → Option SetRep
  | .setRep operation => some operation
  | _ => none

def Operation.asModifyPermissions : Operation → Option ModifyPermissions
  | .modifyPermissions operation => some operation
  | _ => none

def Operation.asManageCertificate : Operation → Option ManageCertificate
  | .manageCertificate operation => some operation
  | _ => none

/-- Whether the account type can delegate voting weight. -/
def canDelegate (keyType : KeyPairType) : Bool :=
  !keyType.isIdentifier || keyType == .storage

variable (ctx : OperationContext)

/-- The external text of a SEND. -/
def Send.checkExternal (operation : Send) (config : ValidationConfig) : Except BlockError Unit :=
  match operation.external with
  | some external =>
    if external = "" then rejectIf (config.external.canBeEmpty = false) .externalMissing
    else
      match config.external.check external with
      | .error (.tooLong length max) => .error (.externalTooLong length max)
      | .error .invalidCharacter => .error .externalInvalid
      | .ok _ => .ok ()
  | none => rejectIf (config.external.canBeEmpty = false) .externalMissing

def Send.validate (operation : Send) : Except BlockError Unit := do
  ctx.guardTokenAmount operation.token operation.amount
  rejectIf (ctx.accountIsToken = true ∧ accountsEqual operation.token ctx.account = false)
    .tokenOperationForbidden
  rejectIf (operation.recipient.keyType = .token ∧
    accountsEqual operation.recipient operation.token = false) .tokenReceiveDiffers
  let config ← ctx.requireConfig
  operation.checkExternal config

def SetRep.validate (operation : SetRep) : Except BlockError Unit := do
  rejectIf (canDelegate ctx.account.keyType = false) .identifierDelegationForbidden
  rejectIf (operation.recipient.keyType.isIdentifier = true) .identifierDelegationForbidden
  rejectIf ((ctx.iterType Operation.asSetRep).length > 1) .multipleSetRep

/-- The default permission of a SET_INFO: required for identifiers, forbidden otherwise. -/
def SetInfo.checkDefaultPermission (operation : SetInfo) : Except BlockError Unit :=
  match operation.defaultPermission with
  | some permission => do
    rejectIf (ctx.account.keyType.isIdentifier = false) .identifierAccountRequired
    rejectIf (permission.external ≠ 0) .permissionsExternalDefaultForbidden
    rejectIf (permission.base.isValidForDefault = false) .permissionsInvalidDefault
    rejectIf (permission.base.checkAccountMatchesGroup .entity (some ctx.account) = false)
      .permissionsInvalidEntity
  | none => rejectIf (ctx.account.keyType.isIdentifier = true) .defaultPermissionRequired

def SetInfo.validate (operation : SetInfo) : Except BlockError Unit := do
  let config ← ctx.requireConfig
  rejectIf (config.name.isValid operation.name = false) (.infoFieldInvalid .name)
  rejectIf (config.description.isValid operation.description = false)
    (.infoFieldInvalid .description)
  rejectIf (config.metadata.isValid operation.metadata = false) (.infoFieldInvalid .metadata)
  operation.checkDefaultPermission ctx

/-! ### MODIFY_PERMISSIONS -/

/-- `hex::encode_upper`. -/
def hexEncodeUpper (bytes : Bytes) : String :=
  String.ofList ((hexDigits bytes).map Char.toUpper)

def ModifyPermissionsPrincipal.dedupKey : ModifyPermissionsPrincipal → String
  | .account principal => principal.toString
  | .certificate hash principal =>
    "cert:" ++ hexEncodeUpper hash.bytes ++ ":" ++ principal.toString

/-- The check of the principal against the flags. -/
def ModifyPermissions.checkPrincipal (operation : ModifyPermissions) (base : BaseSet) :
    Except BlockError Unit :=
  match operation.principal with
  | .account principal =>
    rejectIf (base.checkAccountMatchesGroup .principal (some principal) = false)
      .permissionsInvalidPrincipal
  | .certificate _ _ => rejectIf (base.isValidForDefault = false) .permissionsInvalidDefault

/-- The check of the target, where there is one, against the flags. -/
def ModifyPermissions.checkTarget (operation : ModifyPermissions) (base : BaseSet) :
    Except BlockError Unit :=
  match operation.target with
  | some target =>
    rejectIf (base.checkAccountMatchesGroup .target (some target) = false)
      .permissionsInvalidTarget
  | none => .ok ()

/-- Check a permission payload against the issuing account, principal and target. -/
def ModifyPermissions.validatePayload (operation : ModifyPermissions)
    (permissions : Permissions) : Except BlockError Unit := do
  let config ← ctx.requireConfig
  permissions.validate config.maxExternalOffset
  rejectIf (ctx.account.keyType.isIdentifier = false ∧ permissions.has [.owner] [] = true)
    .identifierAccountRequired
  operation.checkPrincipal permissions.base
  operation.checkTarget permissions.base
  rejectIf (permissions.base.checkAccountMatchesGroup .entity (some ctx.account) = false)
    .permissionsInvalidEntity
  rejectIf (operation.target.isSome = true ∧ permissions.has [.admin] [] = true) .adminWithTarget
  rejectIf (operation.method ≠ .set ∧ permissions.canUseDelegation = false) .delegationForbidden

/-- The pair a modification is about; an absent target is the block's account. -/
def ModifyPermissions.modificationKey (operation : ModifyPermissions) (account : GenericAccount) :
    String × String :=
  (operation.principal.dedupKey, (operation.target.getD account).toString)

/-- The loop of `reject_duplicate_set`; `found` are the pairs modified so far. -/
def rejectDuplicateSetFrom (account : GenericAccount) (found : List (String × String)) :
    List ModifyPermissions → Except BlockError Unit
  | [] => .ok ()
  | other :: rest =>
    let key := other.modificationKey account
    if key ∈ found ∧ other.method = .set then .error .duplicatePermissionModification
    else rejectDuplicateSetFrom account (key :: found) rest

def ModifyPermissions.rejectDuplicateSet : Except BlockError Unit :=
  rejectDuplicateSetFrom ctx.account [] (ctx.iterType Operation.asModifyPermissions)

/-- Permissions may be absent only when they are set. -/
def ModifyPermissions.checkPermissions (operation : ModifyPermissions) : Except BlockError Unit :=
  match operation.permissions with
  | none => rejectIf (operation.method ≠ .set) .permissionsRequireSet
  | some permissions => operation.validatePayload ctx permissions

def ModifyPermissions.validate (operation : ModifyPermissions) : Except BlockError Unit := do
  operation.checkPermissions ctx
  ModifyPermissions.rejectDuplicateSet ctx

/-! ### CREATE_IDENTIFIER -/

def validateMultisigArguments (arguments : MultisigCreateArguments) (createdType : KeyPairType) :
    Except BlockError Unit := do
  rejectIf (createdType ≠ .multisig) .invalidCreateIdentifierArguments
  let signerCount := arguments.signers.length
  let config ← ctx.requireConfig
  config.validateSignerCount signerCount
  rejectIf (∃ signer ∈ arguments.signers,
    signer.keyType.supportsCrypto = false ∧ signer.keyType ≠ .multisig)
    .invalidCreateIdentifierArguments
  let unique := uniqueAccountCount arguments.signers
  rejectIf (unique ≠ signerCount) .multisigSignerDuplicate
  rejectIf (arguments.quorum < 1 ∨ arguments.quorum > unique) .multisigQuorumInvalid

/-- A previous hash equal to the account's opening hash marks an opening block. -/
def derivationHash : Option BlockHash :=
  if ctx.previous = ctx.account.toOpeningHash then none else some ctx.previous

def CreateIdentifier.checkArguments (operation : CreateIdentifier) : Except BlockError Unit :=
  match operation.createArguments with
  | some (.multisig arguments) =>
    validateMultisigArguments ctx arguments operation.identifier.keyType
  | none => .ok ()

def CreateIdentifier.validate (operation : CreateIdentifier) : Except BlockError Unit := do
  rejectIf (ctx.account.keyType.isIdentifier = true) .tokenOperationForbidden
  let createdType := operation.identifier.keyType
  rejectIf (createdType.isIdentifier = false) .identifierInvalid
  -- the index is a `usize` that is cut to 32 bits
  let derived ← asAccountError <| ctx.account.generateIdentifier createdType (derivationHash ctx)
    (UInt32.ofNat ctx.operationIndex)
  rejectIf (accountsEqual derived operation.identifier = false) .identifierInvalid
  rejectIf (operation.createArguments.isSome ≠ decide (createdType = .multisig))
    .invalidCreateIdentifierArguments
  operation.checkArguments ctx

/-! ### Token operations -/

def TokenAdminSupply.validate (operation : TokenAdminSupply) : Except BlockError Unit := do
  rejectIf (operation.method = .set) .adjustMethodSetForbidden
  ctx.validateNumeric operation.amount
  rejectIf (ctx.accountIsToken = false) .tokenAccountRequired
  let config ← ctx.requireConfig
  config.validateSupply operation.amount

def TokenAdminModifyBalance.validate (operation : TokenAdminModifyBalance) :
    Except BlockError Unit := do
  ctx.guardTokenAmount operation.token operation.amount
  ctx.rejectTokenAccount

def Receive.checkForward (operation : Receive) : Except BlockError Unit :=
  match operation.forward with
  | some forward => do
    rejectIf (accountsEqual forward ctx.account = true) .forwardToSelf
    rejectIf (operation.isExact = false) .forwardRequiresExact
    rejectIf (forward.keyType = .token ∧ accountsEqual forward operation.token = false)
      .tokenReceiveDiffers
  | none => .ok ()

def Receive.validate (operation : Receive) : Except BlockError Unit := do
  ctx.guardTokenAmount operation.token operation.amount
  ctx.rejectTokenAccount
  operation.checkForward ctx

section Certificates

variable [X509]

/-! ### MANAGE_CERTIFICATE -/

/-- The bundle of an addition, where there is one, must form a valid graph. -/
def ManageCertificate.checkGraph (operation : ManageCertificate) (parsed : X509.Certificate) :
    Except BlockError Unit :=
  match operation.intermediateCertificates with
  | some (.bundle bundle) => do
    let graph ← bundle.mapM CertificateDer.toCertificate
    asCertificateError (X509.assertCanConstructValidGraph parsed graph)
  | _ => .ok ()

def ManageCertificate.checkAddition (operation : ManageCertificate) : Except BlockError Unit :=
  match operation.certificateOrHash with
  | .hash _ => .error .invalidCertificateValue
  | .certificate certificate => do
    let parsed ← certificate.toCertificate
    rejectIf (X509.subjectPublicKey parsed ≠ ctx.account.toPublicKeyWithType.tail)
      .certificateSubjectMismatch
    operation.checkGraph parsed

/-- Only an addition carries a certificate to check. -/
def ManageCertificate.checkMethod (operation : ManageCertificate) : Except BlockError Unit :=
  if operation.method = .add then operation.checkAddition ctx else .ok ()

/-- Every certificate is operated on at most once. -/
def ManageCertificate.rejectDuplicate : Except BlockError Unit :=
  rejectIf (¬ ((ctx.iterType Operation.asManageCertificate).map
    fun other => other.certificateOrHash.toHash).Nodup) .duplicateCertificateOperation

def ManageCertificate.validate (operation : ManageCertificate) : Except BlockError Unit := do
  rejectIf (operation.method = .set) .adjustMethodSetForbidden
  rejectIf (operation.intermediateCertificates.isNone = decide (operation.method = .add))
    .intermediateCertificatesOnlyAdd
  operation.checkMethod ctx
  ManageCertificate.rejectDuplicate ctx

def Operation.validate : Operation → Except BlockError Unit
  | .send operation => operation.validate ctx
  | .setRep operation => operation.validate ctx
  | .setInfo operation => operation.validate ctx
  | .modifyPermissions operation => operation.validate ctx
  | .createIdentifier operation => operation.validate ctx
  | .tokenAdminSupply operation => operation.validate ctx
  | .tokenAdminModifyBalance operation => operation.validate ctx
  | .receive operation => operation.validate ctx
  | .manageCertificate operation => operation.validate ctx

end Certificates

def Operation.isSend : Operation → Bool
  | .send _ => true
  | _ => false

/-! ## The signer tree -/

/-- The checks of one node at its depth. -/
def checkNode (config : Option ValidationConfig) (depth : Nat) (signer : Signer) :
    Except BlockError Unit :=
  match config with
  | none => .error .unknownNetwork
  | some config => do
    config.validateSignerDepth depth
    match signer with
    | .single _ => .ok ()
    | .multisig address signers => do
      rejectIf (address.keyType ≠ .multisig) .malformedSigner
      config.validateSignerCount signers.length
      rejectIf (uniqueAccountCount (signers.map Signer.principal) ≠ signers.length)
        .multisigSignerDuplicate

/-- The nested multisig nodes of a node, one level deeper. -/
def nestedNodes (depth : Nat) : Signer → List (Nat × Signer)
  | .single _ => []
  | .multisig _ signers => (signers.filter Signer.isMultisig).map fun inner => (depth + 1, inner)

/-- One round of the breadth-first walk over the nodes still queued. -/
def signerStep (config : Option ValidationConfig) :
    List (Nat × Signer) → List (Nat × Signer) ⊕ Except BlockError Unit
  | [] => .inr (.ok ())
  | (depth, current) :: queue =>
    match checkNode config depth current with
    | .error e => .inr (.error e)
    | .ok _ => .inl (queue ++ nestedNodes depth current)

def signerMeasure (queue : List (Nat × Signer)) : Nat := Signer.sizeAll (queue.map Prod.snd)

def validateSignerField (signer : Signer) (config : Option ValidationConfig) :
    Except BlockError Unit :=
  if signer.isMultisig then
    loop (signerStep config) (.error .malformedSigner) signerMeasure [(1, signer)]
  else .ok ()

/-! ## Blocks -/

namespace BlockData

variable (data : BlockData)

def validateIdempotent (config : Option ValidationConfig) : Except BlockError Unit :=
  match data.idempotent, config with
  | none, _ => .ok ()
  | some _, none => .error .unknownNetwork
  | some idempotent, some config =>
    rejectIf (idempotent.length > config.maxIdempotentBytes)
      (.idempotentTooLong idempotent.length config.maxIdempotentBytes)

/-- The rules of version 1: a generic purpose and a single signer. -/
def validateVersion : Except BlockError Unit :=
  match data.version with
  | .v1 => do
    rejectIf (data.purpose ≠ .generic) .v1PurposeInvalid
    rejectIf (data.signer.isMultisig = true) .v1SingleSignerOnly
  | .v2 => .ok ()

/-- The context of the operation at an index. -/
def operationContext (config : Option ValidationConfig) (operationIndex : Nat) :
    OperationContext where
  config := config
  account := data.account
  operations := data.operations
  previous := data.previous
  dateMs := unixMillis data.date
  operationIndex := operationIndex

variable [X509]

def validateOperation (config : Option ValidationConfig) (operationIndex : Nat)
    (operation : Operation) : Except BlockError Unit := do
  rejectIf (data.purpose = .fee ∧ operation.isSend = false)
    (.feePurposeRequiresSend operationIndex)
  operation.validate (data.operationContext config operationIndex)

/-- The operations from an index on, in order. -/
def validateOperationsFrom (config : Option ValidationConfig) :
    Nat → List Operation → Except BlockError Unit
  | _, [] => .ok ()
  | index, operation :: operations => do
    data.validateOperation config index operation
    validateOperationsFrom config (index + 1) operations

def validateOperations (config : Option ValidationConfig) : Except BlockError Unit :=
  data.validateOperationsFrom config 0 data.operations

/-- Everything except signatures and byte equality. -/
def validate (hash : BlockHash) : Except BlockError Unit := do
  rejectIf (data.previous = hash) .previousSelf
  rejectIf (data.network < 0) .negativeNetwork
  rejectIf (∃ subnet ∈ data.subnet, subnet < 0) .negativeSubnet
  rejectIf (data.account.keyType = .multisig) .multisigAccountForbidden
  data.validateVersion
  let config := (ValidationConfig.forNetwork data.network).toOption
  validateSignerField data.signer config
  data.validateOperations config
  data.validateIdempotent config

end BlockData

end KeetaNode
