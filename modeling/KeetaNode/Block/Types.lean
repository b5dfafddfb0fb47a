import KeetaNode.Block.Permissions
import KeetaNode.Block.Signer
import KeetaNode.Asn1.Time

/-!
# Block data

The nine operations and the fields shared by unsigned and sealed blocks.

- `keetanetwork-block/src/operation/*.rs`
- `keetanetwork-block/src/block.rs`
- `keetanetwork-block/src/time.rs`

An `Amount` is its integer and an `AccountRef` its account.
-/

namespace KeetaNode

open ByteCodec

/-! ## Moments -/

/-- A block timestamp with millisecond precision. -/
abbrev BlockTime := Asn1.Asn1Time

/-- Days from 1970-01-01 in the proleptic Gregorian calendar. -/
def daysFromEpoch (year : Int) (month day : Nat) : Int :=
  -- years start in March, so that a leap day is the last day of its year
  let shifted := if month ≤ 2 then year - 1 else year
  let dayOfYear := (153 * ((month + 9) % 12) + 2) / 5 + day - 1
  365 * shifted + shifted / 4 - shifted / 100 + shifted / 400 + dayOfYear - 719468

/-- The Unix timestamp in milliseconds. -/
def unixMillis (time : BlockTime) : Int :=
  (((daysFromEpoch time.year time.month time.day * 24 + time.hour) * 60 + time.minute) * 60 +
    time.second) * 1000 + time.millis

/-! ## Enumerations -/

/-- How a value adjustment is applied. -/
inductive AdjustMethod where
  | add | subtract | set
  deriving DecidableEq, Repr

namespace AdjustMethod

def toBigint : AdjustMethod → Int
  | add => 0
  | subtract => 1
  | set => 2

def tryFrom (value : Int) : Except BlockError AdjustMethod :=
  if value = 0 then .ok add
  else if value = 1 then .ok subtract
  else if value = 2 then .ok set
  else .error .invalidAdjustMethod

@[simp] theorem tryFrom_toBigint (method : AdjustMethod) :
    tryFrom method.toBigint = .ok method := by
  cases method <;> rfl

end AdjustMethod

inductive BlockVersion where
  | v1 | v2
  deriving DecidableEq, Repr

inductive BlockPurpose where
  | generic | fee
  deriving DecidableEq, Repr

namespace BlockPurpose

def toBigint : BlockPurpose → Int
  | generic => 0
  | fee => 1

def tryFrom (value : Int) : Except BlockError BlockPurpose :=
  if value = 0 then .ok generic
  else if value = 1 then .ok fee
  else .error .invalidPurpose

@[simp] theorem tryFrom_toBigint (purpose : BlockPurpose) :
    tryFrom purpose.toBigint = .ok purpose := by
  cases purpose <;> rfl

end BlockPurpose

/-! ## Operations -/

variable [Crypto]

structure Send where
  recipient : GenericAccount
  amount : Int
  token : GenericAccount
  external : Option String
  deriving DecidableEq

structure SetRep where
  recipient : GenericAccount
  deriving DecidableEq

structure SetInfo where
  name : String
  description : String
  metadata : String
  defaultPermission : Option Permissions
  deriving DecidableEq

inductive ModifyPermissionsPrincipal where
  | account (account : GenericAccount)
  | certificate (hash : Octets 32) (account : GenericAccount)
  deriving DecidableEq

structure ModifyPermissions where
  principal : ModifyPermissionsPrincipal
  method : AdjustMethod
  permissions : Option Permissions
  target : Option GenericAccount
  deriving DecidableEq

structure MultisigCreateArguments where
  signers : List GenericAccount
  quorum : Int
  deriving DecidableEq

/-- Arguments of CREATE_IDENTIFIER, keyed by identifier type. -/
inductive IdentifierCreateArguments where
  | multisig (arguments : MultisigCreateArguments)
  deriving DecidableEq

structure CreateIdentifier where
  identifier : GenericAccount
  createArguments : Option IdentifierCreateArguments
  deriving DecidableEq

structure TokenAdminSupply where
  amount : Int
  method : AdjustMethod
  deriving DecidableEq

structure TokenAdminModifyBalance where
  token : GenericAccount
  amount : Int
  method : AdjustMethod
  deriving DecidableEq

structure Receive where
  amount : Int
  token : GenericAccount
  sender : GenericAccount
  isExact : Bool
  forward : Option GenericAccount
  deriving DecidableEq

/-- DER bytes of an X.509 certificate, not parsed. -/
structure CertificateDer where
  bytes : Bytes
  deriving DecidableEq

def CertificateDer.hash (certificate : CertificateDer) : Octets 32 := hashDefault certificate.bytes

/-- A certificate referenced by value or by hash. -/
inductive CertificateOrHash where
  | certificate (certificate : CertificateDer)
  | hash (hash : Octets 32)
  deriving DecidableEq

/-- `CertificateOrHash::hash`, the key of duplicate detection. -/
def CertificateOrHash.toHash : CertificateOrHash → Octets 32
  | .certificate der => der.hash
  | .hash digest => digest

/-- Intermediate certificates accompanying an addition. -/
inductive IntermediateCertificates where
  | none
  | bundle (certificates : List CertificateDer)
  deriving DecidableEq

structure ManageCertificate where
  method : AdjustMethod
  certificateOrHash : CertificateOrHash
  intermediateCertificates : Option IntermediateCertificates
  deriving DecidableEq

/-- Removals reference a certificate by hash; additions keep the certificate. -/
def ManageCertificate.canonicalCertificateOrHash (operation : ManageCertificate) :
    CertificateOrHash :=
  match operation.method, operation.certificateOrHash with
  | .subtract, .certificate certificate => .hash certificate.hash
  | _, certificateOrHash => certificateOrHash

inductive Operation where
  | send (operation : Send)
  | setRep (operation : SetRep)
  | setInfo (operation : SetInfo)
  | modifyPermissions (operation : ModifyPermissions)
  | createIdentifier (operation : CreateIdentifier)
  | tokenAdminSupply (operation : TokenAdminSupply)
  | tokenAdminModifyBalance (operation : TokenAdminModifyBalance)
  | receive (operation : Receive)
  | manageCertificate (operation : ManageCertificate)
  deriving DecidableEq

/-! ## Blocks -/

/-- A 64-octet block signature. -/
abbrev Signature := Octets 64

/-- The fields shared by unsigned and sealed blocks. -/
structure BlockData where
  version : BlockVersion
  purpose : BlockPurpose
  network : Int
  subnet : Option Int
  idempotent : Option Bytes
  date : BlockTime
  account : GenericAccount
  signer : Signer
  previous : BlockHash
  operations : List Operation
  deriving DecidableEq

end KeetaNode
