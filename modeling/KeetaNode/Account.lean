import KeetaNode.Crypto
import KeetaNode.Lib.Result

/-!
# Accounts

An account is a key kind with a public key, or with the 32-octet key of an
identifier. On the wire it is its typed key, one kind octet and the key; as text it
is a `keeta_` address, the base 32 form of the typed key with a checksum. Both
forms are parsed through the same constructors.

- `keetanetwork-account/src/account.rs`
- `keetanetwork-account/src/utils.rs`
- `keetanetwork-account/src/cert.rs`

Private keys are not part of an account's identity and are left out of its model:
`sign` takes the signatures an account can produce as an argument.
-/

namespace KeetaNode

open ByteCodec

/-! ## Key kinds -/

inductive KeyPairType where
  | ecdsaSecp256k1 | ed25519 | network | token | storage | ecdsaSecp256r1 | multisig
  deriving DecidableEq, Repr

namespace KeyPairType

/-- The discriminant, which is the type octet of a typed key. -/
def toByte : KeyPairType → UInt8
  | ecdsaSecp256k1 => 0
  | ed25519 => 1
  | network => 2
  | token => 3
  | storage => 4
  | ecdsaSecp256r1 => 6
  | multisig => 7

def ofByte : UInt8 → Option KeyPairType
  | 0 => some ecdsaSecp256k1
  | 1 => some ed25519
  | 2 => some network
  | 3 => some token
  | 4 => some storage
  | 6 => some ecdsaSecp256r1
  | 7 => some multisig
  | _ => none

/-- `TryFrom<KeyPairType> for Algorithm`: identifiers have no algorithm. -/
def algorithm : KeyPairType → Option Algorithm
  | ecdsaSecp256k1 => some .secp256k1
  | ed25519 => some .ed25519
  | ecdsaSecp256r1 => some .secp256r1
  | network | token | storage | multisig => none

/-- `From<Algorithm> for KeyPairType`. -/
def ofAlgorithm : Algorithm → KeyPairType
  | .secp256k1 => ecdsaSecp256k1
  | .ed25519 => ed25519
  | .secp256r1 => ecdsaSecp256r1

def isIdentifier (keyType : KeyPairType) : Bool :=
  keyType ∈ [network, token, storage, multisig]

def supportsCrypto : KeyPairType → Bool
  | ecdsaSecp256k1 | ed25519 | ecdsaSecp256r1 => true
  | network | token | storage | multisig => false

@[simp]
theorem ofByte_toByte (keyType : KeyPairType) : ofByte keyType.toByte = some keyType := by
  cases keyType <;> rfl

theorem toByte_of_ofByte {octet : UInt8} {keyType : KeyPairType} (h : ofByte octet = some keyType) :
    keyType.toByte = octet := by
  unfold ofByte at h
  split at h <;> simp only [Option.some.injEq, reduceCtorEq] at h
  all_goals
    subst h
    rfl

theorem toByte_injective : Function.Injective toByte := by
  intro a b h
  have := congrArg ofByte h
  simpa using this

@[simp]
theorem algorithm_ofAlgorithm (a : Algorithm) : (ofAlgorithm a).algorithm = some a := by
  cases a <;> rfl

theorem algorithm_eq_some {keyType : KeyPairType} {a : Algorithm} :
    keyType.algorithm = some a ↔ keyType = ofAlgorithm a := by
  cases keyType <;> cases a <;> decide

/-- The kind octets of identifiers, which have no algorithm. -/
theorem toByte_mem_identifiers {keyType : KeyPairType} :
    keyType.toByte ∈ ([2, 3, 4, 7] : List UInt8) ↔ keyType.algorithm = none := by
  cases keyType <;> decide

theorem toByte_eq_zero {keyType : KeyPairType} :
    keyType.toByte = 0 ↔ keyType = .ecdsaSecp256k1 := by
  cases keyType <;> decide

theorem supportsCrypto_eq_isSome (keyType : KeyPairType) :
    keyType.supportsCrypto = keyType.algorithm.isSome := by
  cases keyType <;> rfl

/-- The keys an account of this kind can hold: parsed ones, or 32 octets. -/
def Accepts [Crypto] (keyType : KeyPairType) (publicKey : Bytes) : Prop :=
  match keyType.algorithm with
  | some a => ∃ bytes, a.publicKeyFrom bytes = some publicKey
  | none => publicKey.length = 32

theorem accepts_of_publicKeyFrom [Crypto] {a : Algorithm} {bytes publicKey : Bytes}
    (h : a.publicKeyFrom bytes = some publicKey) : (ofAlgorithm a).Accepts publicKey := by
  simp only [Accepts, algorithm_ofAlgorithm]
  exact ⟨bytes, h⟩

theorem algorithm_network : network.algorithm = none := rfl

theorem algorithm_token : token.algorithm = none := rfl

theorem algorithm_storage : storage.algorithm = none := rfl

theorem algorithm_multisig : multisig.algorithm = none := rfl

/-- The addresses of an identifier kind start in one of four ways. -/
def addressStarts : KeyPairType → List String
  | network => ["keeta_ai", "keeta_aj", "keeta_ak", "keeta_al"]
  | token => ["keeta_an", "keeta_am", "keeta_ao", "keeta_ap"]
  | storage => ["keeta_aq", "keeta_ar", "keeta_as", "keeta_at"]
  | multisig => ["keeta_a4", "keeta_a5", "keeta_a6", "keeta_a7"]
  | ecdsaSecp256k1 | ed25519 | ecdsaSecp256r1 => []

end KeyPairType

/-- `Algorithm::from_id`. -/
def Algorithm.fromId (id : UInt8) : Option Algorithm :=
  (KeyPairType.ofByte id).bind KeyPairType.algorithm

inductive AccountError where
  | invalidPrefix
  | invalidKeyType
  | invalidConstruction
  | noIdentifierSign
  | noIdentifierVerify
  | invalidIdentifierConstruction
  deriving DecidableEq, Repr

/-- An account of any kind (`GenericAccount`), identified by its kind and key. -/
structure GenericAccount [Crypto] where
  keyType : KeyPairType
  publicKey : Bytes
  accepted : keyType.Accepts publicKey
  deriving DecidableEq

section Text

variable [Crypto]

/-! ## Address text -/

/-- An identifier key of another length is replaced by its digest. -/
def normalizedKey (keyData : Bytes) (keyType : UInt8) : Bytes :=
  if keyType ∈ [2, 3, 4, 7] ∧ keyData.length ≠ 32 then (hashDefault keyData).bytes else keyData

/-- The address of a key. The digest of the default algorithm always has the
requested 32 octets, so that formatting cannot fail. -/
def formatPublicKeyString (keyData : Bytes) (keyType : UInt8) : String :=
  let values := keyType :: normalizedKey keyData keyType
  "keeta_" ++ base32Encode (values ++ (hashDefault values).bytes.take 5)

/-- The kind octet and the key of an address with a correct checksum. -/
def decodePublicKeyString (formattedKey : String) : Except AccountError (UInt8 × Bytes) := do
  let encoded ← (stripStart formattedKey "keeta_").elim (throw .invalidPrefix) pure
  let decoded ← (Crypto.base32Decode encoded).elim (throw .invalidPrefix) pure
  rejectIf (decoded.length < 6) .invalidPrefix
  let pubkeyEnd := decoded.length - 5
  let checksumInput := decoded.take pubkeyEnd
  rejectIf (decoded.drop pubkeyEnd ≠ (hashDefault checksumInput).bytes.take 5) .invalidPrefix
  return (decoded.headD 0, checksumInput.tail)

/-- A key written as `0x`, the algorithm and the key in hexadecimal. -/
def parsePublicKeyHex (hexKey : String) : Except AccountError (Bytes × Algorithm) := do
  let hexData ← (stripStart hexKey "0x").elim (throw .invalidPrefix) pure
  match hexDecode hexData with
  | none => throw .invalidPrefix
  | some [] => throw .invalidPrefix
  | some (id :: publicKey) =>
    let a ← (Algorithm.fromId id).elim (throw .invalidKeyType) pure
    rejectIf (publicKey.length ∉ a.publicKeyLengths) .invalidConstruction
    return (publicKey, a)

/-- The key of an address or of a hexadecimal key; identifiers have no algorithm. -/
def parsePublicKey (formattedKey : String) :
    Except AccountError (Bytes × Option Algorithm) :=
  if startsWith formattedKey "0x" then do
    let (publicKey, a) ← parsePublicKeyHex formattedKey
    return (publicKey, some a)
  else do
    let (keyType, publicKey) ← decodePublicKeyString formattedKey
    match Algorithm.fromId keyType with
    | some a => return (publicKey, some a)
    | none =>
      rejectIf (keyType ∉ [2, 3, 4, 7]) .invalidKeyType
      return (publicKey, none)

end Text

/-! ## Construction -/

namespace GenericAccount

section Construction

variable [Crypto]

/-- A signing account from its key (`Keyable::PublicKey`). -/
def ofPublicKey (a : Algorithm) (bytes : Bytes) : Except AccountError GenericAccount :=
  if bytes.length ∈ a.publicKeyLengths then
    match h : a.publicKeyFrom bytes with
    | some publicKey =>
      .ok ⟨.ofAlgorithm a, publicKey, KeyPairType.accepts_of_publicKeyFrom h⟩
    | none => .error .invalidConstruction
  else .error .invalidConstruction

/-- An identifier account from its key (`IdentifierKey::new`). -/
def ofIdentifierKey (keyType : KeyPairType) (hid : keyType.algorithm = none) (key : Bytes) :
    Except AccountError GenericAccount :=
  if h : key.length = 32 then .ok ⟨keyType, key, by simpa [KeyPairType.Accepts, hid] using h⟩
  else .error .invalidConstruction

/-- An identifier account from its address (`Keyable::PublicKeyString`). -/
def ofPublicKeyString (keyType : KeyPairType) (hid : keyType.algorithm = none) (text : String) :
    Except AccountError GenericAccount := do
  rejectIf (keyType.addressStarts.any (startsWith text) = false) .invalidConstruction
  let (decoded, _) ← parsePublicKey text
  ofIdentifierKey keyType hid decoded

/-- An identifier account goes through its own address. -/
def ofIdentifierBytes (keyType : KeyPairType) (hid : keyType.algorithm = none) (bytes : Bytes) :
    Except AccountError GenericAccount :=
  ofPublicKeyString keyType hid (formatPublicKeyString bytes keyType.toByte)

def fromHex (hex : String) : Except AccountError GenericAccount :=
  match hexDecode hex with
  | none => .error .invalidConstruction
  | some [] => .error .invalidConstruction
  | some (keyTypeByte :: publicKeyBytes) =>
    match KeyPairType.ofByte keyTypeByte with
    | none => .error .invalidKeyType
    | some .ecdsaSecp256k1 => ofPublicKey .secp256k1 publicKeyBytes
    | some .ed25519 => ofPublicKey .ed25519 publicKeyBytes
    | some .ecdsaSecp256r1 => ofPublicKey .secp256r1 publicKeyBytes
    | some .network => ofIdentifierBytes .network KeyPairType.algorithm_network publicKeyBytes
    | some .token => ofIdentifierBytes .token KeyPairType.algorithm_token publicKeyBytes
    | some .storage => ofIdentifierBytes .storage KeyPairType.algorithm_storage publicKeyBytes
    | some .multisig => ofIdentifierBytes .multisig KeyPairType.algorithm_multisig publicKeyBytes

/-- `FromStr`: an address is decoded and dispatched on its kind octet. -/
def fromStr (text : String) : Except AccountError GenericAccount := do
  let (keyType, publicKey) ← decodePublicKeyString text
  fromHex (hexEncode (keyType :: publicKey))

/-- The key kind octet followed by the key. -/
def toPublicKeyWithType (account : GenericAccount) : Bytes :=
  account.keyType.toByte :: account.publicKey

/-- `Display`: the account's address. -/
def toString (account : GenericAccount) : String :=
  formatPublicKeyString account.publicKey account.keyType.toByte

/-- The digest of the key without its kind octet. -/
def toOpeningHash (account : GenericAccount) : BlockHash := hashDefault account.publicKey

/-! ## Signatures -/

/-- Verify a signature over the digest of a message. -/
def verify (account : GenericAccount) (message signature : Bytes) : Except AccountError Unit :=
  match account.keyType.algorithm with
  | some a =>
    rejectIf (Crypto.verifies a account.publicKey (hashDefault message).bytes signature = false)
      .invalidConstruction
  | none => .error .noIdentifierVerify

/-- Verify a certificate signature: ECDSA signatures are in DER form over the digest,
Ed25519 signatures are over the message itself. -/
def verifyForCert (account : GenericAccount) (message signature : Bytes) :
    Except AccountError Unit :=
  match account.keyType.algorithm with
  | some .ed25519 =>
    rejectIf (Crypto.verifies .ed25519 account.publicKey message signature = false)
      .invalidConstruction
  | some a =>
    rejectIf
      (Crypto.verifiesDer a account.publicKey (hashDefault message).bytes signature = false)
      .invalidConstruction
  | none => .error .noIdentifierVerify

/-! ## Derived identifiers -/

/-- The seed followed by the index in four octets, high octet first. -/
def combineSeedAndIndex (seed : BlockHash) (index : UInt32) : Bytes :=
  seed.bytes ++ [UInt8.ofNat (index.toNat / 2 ^ 24), UInt8.ofNat (index.toNat / 2 ^ 16),
    UInt8.ofNat (index.toNat / 2 ^ 8), UInt8.ofNat index.toNat]

/-- The identifier derived from an account, a block hash and an operation's index. -/
def generateIdentifier (account : GenericAccount) (identifierType : KeyPairType)
    (blockHash : Option BlockHash) (operationIndex : UInt32) :
    Except AccountError GenericAccount := do
  rejectIf (identifierType.isIdentifier = false) .invalidIdentifierConstruction
  let hashToUse := blockHash.getD account.toOpeningHash
  -- of the identifiers only a network creates one: its token, in its opening block
  rejectIf (account.keyType.isIdentifier = true ∧ ¬ (account.keyType = .network ∧
    identifierType = .token ∧ operationIndex = 0 ∧ blockHash = none))
    .invalidIdentifierConstruction
  let seed := hashDefault (account.toPublicKeyWithType ++ hashToUse.bytes)
  let identifier := (hashDefault (combineSeedAndIndex seed operationIndex)).bytes
  match h : identifierType.algorithm with
  | none => ofIdentifierKey identifierType h identifier
  | some _ => .error .invalidIdentifierConstruction

end Construction

/-! ## Addresses and typed keys are read back -/

section RoundTrip

variable [Crypto]

theorem ofPublicKey_eq_ok {a : Algorithm} {bytes : Bytes} {account : GenericAccount} :
    ofPublicKey a bytes = .ok account ↔
      bytes.length ∈ a.publicKeyLengths ∧ account.keyType = .ofAlgorithm a ∧
        a.publicKeyFrom bytes = some account.publicKey := by
  unfold ofPublicKey
  split <;> rename_i hlength
  · split <;> rename_i key hkey
    · rw [Except.ok.injEq]
      constructor
      · rintro rfl
        exact ⟨hlength, rfl, hkey⟩
      · rintro ⟨-, hkind, haccount⟩
        cases account
        simp_all
    · simp [hkey]
  · simp [hlength]

theorem ofIdentifierKey_eq_ok {keyType : KeyPairType} {hid : keyType.algorithm = none}
    {key : Bytes} {account : GenericAccount} :
    ofIdentifierKey keyType hid key = .ok account ↔
      account.keyType = keyType ∧ account.publicKey = key ∧ key.length = 32 := by
  unfold ofIdentifierKey
  split <;> rename_i hlength
  · rw [Except.ok.injEq]
    constructor
    · rintro rfl
      exact ⟨rfl, rfl, hlength⟩
    · rintro ⟨rfl, rfl, -⟩
      rfl
  · simp [hlength]

/-- An identifier's key has 32 octets. -/
theorem publicKey_length (account : GenericAccount) (hid : account.keyType.algorithm = none) :
    account.publicKey.length = 32 := by
  have h := account.accepted
  simpa [KeyPairType.Accepts, hid] using h

theorem ext_typed {a b : GenericAccount} (hkind : a.keyType = b.keyType)
    (hkey : a.publicKey = b.publicKey) : a = b := by
  cases a
  cases b
  simp_all

theorem toPublicKeyWithType_injective :
    Function.Injective (toPublicKeyWithType : GenericAccount → Bytes) := by
  intro a b h
  simp only [toPublicKeyWithType, List.cons.injEq] at h
  exact ext_typed (KeyPairType.toByte_injective h.1) h.2

/-- Only a key of an identifier kind is normalized, and an account's key never is. -/
theorem normalizedKey_publicKey (account : GenericAccount) :
    normalizedKey account.publicKey account.keyType.toByte = account.publicKey := by
  unfold normalizedKey
  rw [if_neg]
  rintro ⟨hkind, hlength⟩
  have hid : account.keyType.algorithm = none := by
    revert hkind
    cases account.keyType <;> decide
  exact hlength (account.publicKey_length hid)

theorem normalizedKey_length {keyType : KeyPairType} (hid : keyType.algorithm = none)
    (bytes : Bytes) : (normalizedKey bytes keyType.toByte).length = 32 := by
  unfold normalizedKey
  by_cases hlength : bytes.length = 32
  · simp [hlength]
  · rw [if_pos ⟨KeyPairType.toByte_mem_identifiers.mpr hid, hlength⟩]
    exact (hashDefault bytes).length_eq

/-- The second digit of an identifier's address depends on its kind octet and on the
two top bits of its key, and the kind's four address starts cover every key. -/
theorem addressStarts_format {keyType : KeyPairType} (hid : keyType.algorithm = none)
    (bytes : Bytes) :
    keyType.addressStarts.any (startsWith (formatPublicKeyString bytes keyType.toByte)) = true := by
  have hlength := normalizedKey_length hid bytes
  unfold formatPublicKeyString
  obtain ⟨first, key, hkey⟩ : ∃ first key, normalizedKey bytes keyType.toByte = first :: key := by
    cases h : normalizedKey bytes keyType.toByte with
    | nil => simp [h] at hlength
    | cons first key => exact ⟨first, key, rfl⟩
  -- two bits of the key share a digit with the kind octet
  have htop : first.toNat / 64 = 0 ∨ first.toNat / 64 = 1 ∨ first.toNat / 64 = 2 ∨
      first.toNat / 64 = 3 := by
    have := first.toNat_lt
    omega
  obtain ⟨tail, htail⟩ := base32Digits_cons_cons keyType.toByte first
    (key ++ (hashDefault (keyType.toByte :: first :: key)).bytes.take 5)
  simp only [hkey, List.cons_append, base32Encode, htail]
  cases keyType with
  | ecdsaSecp256k1 | ed25519 | ecdsaSecp256r1 => simp [KeyPairType.algorithm] at hid
  | network | token | storage | multisig =>
    rcases htop with h | h | h | h <;>
      simp [h, startsWith, KeyPairType.addressStarts, KeyPairType.toByte, base32Char,
        base32Alphabet]

/-- The checksum of an address. -/
theorem length_checksum (values : Bytes) : ((hashDefault values).bytes.take 5).length = 5 := by
  rw [List.length_take, (hashDefault values).length_eq]
  rfl

section Lawful

variable [LawfulCrypto]

/-- An address decodes to the kind octet and the key it was formatted from. -/
theorem decodePublicKeyString_format (keyData : Bytes) (keyType : UInt8) :
    decodePublicKeyString (formatPublicKeyString keyData keyType) =
      .ok (keyType, normalizedKey keyData keyType) := by
  simp only [decodePublicKeyString, formatPublicKeyString, stripStart_append, Option.elim_some,
    pure_eq_ok, ok_bind, LawfulCrypto.base32Decode_encode]
  -- the checksum is the last five octets, whatever the key
  have hend : (keyType :: normalizedKey keyData keyType ++
      (hashDefault (keyType :: normalizedKey keyData keyType)).bytes.take 5).length - 5 =
      (keyType :: normalizedKey keyData keyType).length := by
    rw [List.length_append, length_checksum]
    omega
  rw [hend, List.take_left, List.drop_left, rejectIf_neg, ok_bind, rejectIf_neg, ok_bind]
  · rfl
  · simp
  · rw [List.length_append, length_checksum, List.length_cons]
    omega

/-- Going through the address only normalizes the key. -/
theorem ofIdentifierBytes_eq (keyType : KeyPairType) (hid : keyType.algorithm = none)
    (bytes : Bytes) :
    ofIdentifierBytes keyType hid bytes =
      ofIdentifierKey keyType hid (normalizedKey bytes keyType.toByte) := by
  have hhex : startsWith (formatPublicKeyString bytes keyType.toByte) "0x" = false := by
    simp [startsWith, formatPublicKeyString, List.isPrefixOf]
  have hnone : Algorithm.fromId keyType.toByte = none := by
    simp [Algorithm.fromId, hid]
  have hidentifier : ¬ keyType.toByte ∉ ([2, 3, 4, 7] : List UInt8) :=
    not_not.mpr (KeyPairType.toByte_mem_identifiers.mpr hid)
  unfold ofIdentifierBytes ofPublicKeyString parsePublicKey
  rw [rejectIf_neg (by simp [addressStarts_format hid]), ok_bind, hhex]
  simp only [Bool.false_eq_true, if_false, decodePublicKeyString_format, ok_bind, hnone,
    rejectIf_neg hidentifier, pure_eq_ok]

/-- What an account of a kind keeps of a key: signing keys are parsed, identifier keys are
normalized. -/
def Keeps (keyType : KeyPairType) (key kept : Bytes) : Prop :=
  match keyType.algorithm with
  | some a => key.length ∈ a.publicKeyLengths ∧ a.publicKeyFrom key = some kept
  | none => kept = normalizedKey key keyType.toByte

omit [LawfulCrypto] in
theorem ofPublicKey_keeps {a : Algorithm} {key : Bytes} {account : GenericAccount} :
    ofPublicKey a key = .ok account ↔
      account.keyType.toByte = (KeyPairType.ofAlgorithm a).toByte ∧
        Keeps account.keyType key account.publicKey := by
  rw [ofPublicKey_eq_ok]
  constructor
  · rintro ⟨hlength, hkind, hkey⟩
    simp only [Keeps, hkind, KeyPairType.algorithm_ofAlgorithm]
    exact ⟨trivial, hlength, hkey⟩
  · rintro ⟨hbyte, hkeeps⟩
    have hkind := KeyPairType.toByte_injective hbyte
    simp only [Keeps, hkind, KeyPairType.algorithm_ofAlgorithm] at hkeeps
    exact ⟨hkeeps.1, hkind, hkeeps.2⟩

theorem ofIdentifierBytes_keeps {keyType : KeyPairType} {hid : keyType.algorithm = none}
    {key : Bytes} {account : GenericAccount} :
    ofIdentifierBytes keyType hid key = .ok account ↔
      account.keyType.toByte = keyType.toByte ∧ Keeps account.keyType key account.publicKey := by
  rw [ofIdentifierBytes_eq, ofIdentifierKey_eq_ok]
  constructor
  · rintro ⟨rfl, hkey, -⟩
    simp only [Keeps, hid]
    exact ⟨trivial, hkey⟩
  · rintro ⟨hbyte, hkeeps⟩
    obtain rfl := KeyPairType.toByte_injective hbyte
    simp only [Keeps, hid] at hkeeps
    exact ⟨rfl, hkeeps, normalizedKey_length hid key⟩

/-- A typed key names the account of its kind octet that keeps its key. -/
theorem fromHex_eq_ok {octet : UInt8} {key : Bytes} {account : GenericAccount} :
    fromHex (hexEncode (octet :: key)) = .ok account ↔
      account.keyType.toByte = octet ∧ Keeps account.keyType key account.publicKey := by
  unfold fromHex
  rw [hexDecode_hexEncode]
  cases hkind : KeyPairType.ofByte octet with
  | none =>
    -- no account has this octet
    simp only [hkind, reduceCtorEq, false_iff, not_and]
    rintro rfl
    simp at hkind
  | some keyType =>
    obtain rfl : keyType.toByte = octet := KeyPairType.toByte_of_ofByte hkind
    cases keyType with
    | ecdsaSecp256k1 => exact ofPublicKey_keeps
    | ed25519 => exact ofPublicKey_keeps
    | ecdsaSecp256r1 => exact ofPublicKey_keeps
    | network => exact ofIdentifierBytes_keeps
    | token => exact ofIdentifierBytes_keeps
    | storage => exact ofIdentifierBytes_keeps
    | multisig => exact ofIdentifierBytes_keeps

/-- A kept key is kept again. -/
theorem keeps_publicKey (account : GenericAccount) :
    Keeps account.keyType account.publicKey account.publicKey := by
  have haccepted := account.accepted
  unfold KeyPairType.Accepts at haccepted
  unfold Keeps
  cases halgorithm : account.keyType.algorithm with
  | some a =>
    rw [halgorithm] at haccepted
    obtain ⟨bytes, hbytes⟩ := haccepted
    exact ⟨a.publicKeyFrom_length hbytes, a.publicKeyFrom_kept hbytes⟩
  | none => exact (normalizedKey_publicKey account).symm

/-- **A typed key parses to the account it came from.** -/
theorem fromHex_toPublicKeyWithType (account : GenericAccount) :
    fromHex (hexEncode account.toPublicKeyWithType) = .ok account :=
  fromHex_eq_ok.mpr ⟨rfl, account.keeps_publicKey⟩

theorem decodePublicKeyString_toString (account : GenericAccount) :
    decodePublicKeyString account.toString =
      .ok (account.keyType.toByte, account.publicKey) := by
  rw [toString, decodePublicKeyString_format, normalizedKey_publicKey]

/-- **An address parses to the account it was printed from.** -/
theorem fromStr_toString (account : GenericAccount) : fromStr account.toString = .ok account := by
  rw [fromStr, decodePublicKeyString_toString]
  exact fromHex_toPublicKeyWithType account

/-- Two accounts never share an address. -/
theorem toString_injective : Function.Injective (toString : GenericAccount → String) := by
  intro a b h
  have ha := decodePublicKeyString_toString a
  rw [h, decodePublicKeyString_toString b, Except.ok.injEq, Prod.mk.injEq] at ha
  exact ext_typed (KeyPairType.toByte_injective ha.1.symm) ha.2.symm

end Lawful

/-- Identifier accounts verify no signature. -/
theorem supportsCrypto_of_verify {account : GenericAccount} {message signature : Bytes}
    (h : account.verify message signature = .ok ()) : account.keyType.supportsCrypto = true := by
  rw [KeyPairType.supportsCrypto_eq_isSome]
  unfold verify at h
  split at h <;> simp_all

end RoundTrip

end GenericAccount

end KeetaNode
