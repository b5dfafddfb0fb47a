import KeetaNode.Account
import KeetaNode.Crypto.Reference

/-!
# Addresses

Which texts name an account, and how: addresses are printed and parsed back, two parsers
for one kind are compared, and the texts that are printed again as they were parsed are
told apart from those that are not.

- `keetanetwork-account/src/account.rs`
- `keetanetwork-account/src/utils.rs`
-/

namespace KeetaNode

open ByteCodec

section Addresses

variable [Crypto]

/-- Documented behaviour of SEC1 points on secp256k1: an encoding has 33 or 65 octets, and
one of 33 octets is compressed already. -/
class LawfulSec1 : Prop where
  k256Compressed_length : ∀ {bytes compressed}, Crypto.k256Compressed bytes = some compressed →
    bytes.length ∈ [33, 65]
  k256Compressed_short : ∀ {bytes compressed}, Crypto.k256Compressed bytes = some compressed →
    bytes.length = 33 → compressed = bytes

/-- Documented behaviour of base 32: the first octet is held by the first two digits. -/
class LawfulBase32 : Prop where
  base32Decode_head : ∀ {first second : Nat} {rest : List Char} {octet : UInt8} {bytes : Bytes},
    first < 32 → second < 32 →
    Crypto.base32Decode (String.ofList (base32Char first :: base32Char second :: rest)) =
      some (octet :: bytes) →
    octet = UInt8.ofNat (8 * first + second / 4)

namespace GenericAccount

/-! ## Round trips -/

/-- **Addresses and typed keys are read back, and tell accounts apart.** -/
theorem address_round_trip [LawfulCrypto] (account : GenericAccount) :
    (∃ parsed, fromStr account.toString = .ok parsed ∧ parsed.keyType = account.keyType ∧
        parsed.publicKey = account.publicKey) ∧
      (∃ parsed, fromHex (hexEncode account.toPublicKeyWithType) = .ok parsed ∧
        parsed.keyType = account.keyType ∧ parsed.publicKey = account.publicKey) ∧
      ∀ other : GenericAccount,
        account.keyType ≠ other.keyType ∨ account.publicKey ≠ other.publicKey →
        account.toString ≠ other.toString ∧
          account.toPublicKeyWithType ≠ other.toPublicKeyWithType := by
  refine ⟨⟨account, fromStr_toString account, rfl, rfl⟩,
    ⟨account, fromHex_toPublicKeyWithType account, rfl, rfl⟩, ?_⟩
  intro other hdiffer
  have hne : account ≠ other := by
    rintro rfl
    exact hdiffer.elim (fun h => h rfl) (fun h => h rfl)
  exact ⟨fun h => hne (toString_injective h), fun h => hne (toPublicKeyWithType_injective h)⟩

/-! ## What the parsers accept -/

/-- The octets of an address are a kind octet, a key and their checksum. -/
theorem decodePublicKeyString_eq_ok {text : String} {keyType : UInt8} {key : Bytes} :
    decodePublicKeyString text = .ok (keyType, key) ↔
      ∃ encoded, stripStart text "keeta_" = some encoded ∧
        Crypto.base32Decode encoded =
          some (keyType :: key ++ (hashDefault (keyType :: key)).bytes.take 5) := by
  simp only [decodePublicKeyString, bind_eq_ok, elim_throw_eq_ok, rejectIf_eq_ok, not_lt, not_not,
    pure_eq_ok, Except.ok.injEq, Prod.mk.injEq]
  constructor
  · rintro ⟨encoded, hstrip, decoded, hdecode, _, hlength, _, hsum, rfl, rfl⟩
    refine ⟨encoded, hstrip, hdecode.trans (congrArg some ?_)⟩
    -- the kind octet and the key together are what precedes the checksum
    have hinput : decoded.headD 0 :: (decoded.take (decoded.length - 5)).tail =
        decoded.take (decoded.length - 5) := by
      cases decoded with
      | nil => simp at hlength
      | cons octet rest =>
        have hsplit : rest.length + 1 - 5 = (rest.length - 5) + 1 := by
          simp only [List.length_cons] at hlength
          omega
        simp [hsplit]
    rw [hinput, ← hsum, List.take_append_drop]
  · rintro ⟨encoded, hstrip, hdecode⟩
    have hend : (keyType :: key ++ (hashDefault (keyType :: key)).bytes.take 5).length - 5 =
        (keyType :: key).length := by
      rw [List.length_append, length_checksum]
      omega
    refine ⟨encoded, hstrip, _, hdecode, (), ?_, (), ?_, rfl, ?_⟩
    · rw [List.length_append, length_checksum, List.length_cons]
      omega
    · rw [hend, List.take_left, List.drop_left]
    · rw [hend, List.take_left, List.tail_cons]

/-- An address names the account of its kind octet that keeps its key. -/
theorem fromStr_eq_ok [LawfulCrypto] {text : String} {account : GenericAccount} :
    fromStr text = .ok account ↔
      ∃ key, decodePublicKeyString text = .ok (account.keyType.toByte, key) ∧
        Keeps account.keyType key account.publicKey := by
  simp only [fromStr, bind_eq_ok, Prod.exists, fromHex_eq_ok]
  constructor
  · rintro ⟨octet, key, hdecode, rfl, hkeeps⟩
    exact ⟨key, hdecode, hkeeps⟩
  · rintro ⟨key, hdecode, hkeeps⟩
    exact ⟨_, key, hdecode, rfl, hkeeps⟩

/-! ## Canonical texts -/

/-- A text is canonical when its digits are those its octets encode to, and the key has the
length its kind keeps: 32 octets for an identifier, 33 for a key on secp256k1. -/
def CanonicalText (text : String) : Prop :=
  ∃ encoded octet octets, stripStart text "keeta_" = some encoded ∧
    Crypto.base32Decode encoded = some (octet :: octets) ∧
    encoded = base32Encode (octet :: octets) ∧
    (octet ∈ [2, 3, 4, 7] → octets.length = 32 + 5) ∧ (octet = 0 → octets.length = 33 + 5)

/-- A key of 32 octets is not normalized. -/
theorem normalizedKey_of_length {key : Bytes} (h : key.length = 32) (octet : UInt8) :
    normalizedKey key octet = key := by
  rw [normalizedKey, if_neg]
  exact fun hlength => hlength.2 h

/-- The kept key is the key itself, where the key has the length its kind keeps. -/
theorem Keeps.eq [LawfulSec1] {keyType : KeyPairType} {key kept : Bytes}
    (h : Keeps keyType key kept) (hidentifier : keyType.algorithm = none → key.length = 32)
    (hsecp256k1 : keyType = .ecdsaSecp256k1 → key.length = 33) : kept = key := by
  -- an identifier keeps its key unless it is normalized
  have hsame : ∀ hid : keyType.algorithm = none, kept = key := by
    intro hid
    simp only [Keeps, hid] at h
    rw [h, normalizedKey_of_length (hidentifier hid)]
  cases keyType with
  | network | token | storage | multisig => exact hsame rfl
  | ecdsaSecp256k1 => exact LawfulSec1.k256Compressed_short h.2 (hsecp256k1 rfl)
  | ecdsaSecp256r1 =>
    have hkept : Algorithm.publicKeyFrom .secp256r1 key = some kept := h.2
    simp only [Algorithm.publicKeyFrom, Option.ite_none_right_eq_some, Option.some.injEq] at hkept
    exact hkept.2.symm
  | ed25519 =>
    have hkept : Algorithm.publicKeyFrom .ed25519 key = some kept := h.2
    simp only [Algorithm.publicKeyFrom, Option.bind_eq_bind, Option.bind_eq_some_iff,
      Option.ite_none_right_eq_some, Option.some.injEq] at hkept
    obtain ⟨-, -, -, hkept⟩ := hkept
    exact hkept.symm

/-- What is kept has the length its kind keeps. -/
theorem Keeps.length [LawfulCrypto] {keyType : KeyPairType} {key kept : Bytes}
    (h : Keeps keyType key kept) :
    (keyType.algorithm = none → kept.length = 32) ∧
      (keyType = .ecdsaSecp256k1 → kept.length = 33) := by
  constructor
  · intro hid
    simp only [Keeps, hid] at h
    rw [h]
    exact normalizedKey_length hid key
  · rintro rfl
    exact (LawfulCrypto.k256Compressed_compressed h.2).2

/-- The checksum has five octets, so that octets with a checksum can be split again. -/
theorem append_checksum_inj {a b : Bytes}
    (h : a ++ (hashDefault a).bytes.take 5 = b ++ (hashDefault b).bytes.take 5) : a = b := by
  refine (List.append_inj' h ?_).1
  rw [length_checksum, length_checksum]

/-- `FromStr for Account<K>`: parse any account, then require the kind. -/
def parseAs (keyType : KeyPairType) (text : String) : Except AccountError GenericAccount := do
  let generic ← fromStr text
  rejectIf (generic.keyType ≠ keyType) .invalidConstruction
  return generic

/-- A signing account from a parsed key, whatever the key's length. -/
def ofParsedKey (a : Algorithm) (publicKeyBytes : Bytes) : Except AccountError GenericAccount :=
  match h : a.publicKeyFrom publicKeyBytes with
  | some publicKey =>
    .ok ⟨.ofAlgorithm a, publicKey, KeyPairType.accepts_of_publicKeyFrom h⟩
  | none => .error .invalidConstruction

/-- A signing account from its address (`Keyable::PublicKeyString`). -/
def ofSigningString (a : Algorithm) (text : String) : Except AccountError GenericAccount := do
  rejectIf (startsWith text "keeta_" = false) .invalidPrefix
  let (publicKeyBytes, algorithm) ← parsePublicKey text
  let algorithm ← algorithm.elim (throw .invalidKeyType) pure
  rejectIf (algorithm ≠ a) .invalidKeyType
  ofParsedKey a publicKeyBytes

/-- `TryFrom<Accountable>` at `KeyAndType(PublicKeyString(text), K)` for the kind `K`. -/
def ofKeyAndType (keyType : KeyPairType) (text : String) : Except AccountError GenericAccount :=
  match h : keyType.algorithm with
  | some a => ofSigningString a text
  | none => ofPublicKeyString keyType h text

/-- Both parsers accept the text or both reject it, and they find the same account. -/
def ParsersAgree (keyType : KeyPairType) (text : String) : Prop :=
  ((∃ account, parseAs keyType text = .ok account) ↔
      ∃ account, ofKeyAndType keyType text = .ok account) ∧
    ∀ a b, parseAs keyType text = .ok a → ofKeyAndType keyType text = .ok b →
      a.keyType = b.keyType ∧ a.publicKey = b.publicKey

theorem parseAs_eq_ok [LawfulCrypto] {keyType : KeyPairType} {text : String}
    {account : GenericAccount} :
    parseAs keyType text = .ok account ↔ account.keyType = keyType ∧
      ∃ key, decodePublicKeyString text = .ok (keyType.toByte, key) ∧
        Keeps keyType key account.publicKey := by
  simp only [parseAs, bind_eq_ok, rejectIf_eq_ok, not_not, pure_eq_ok, Except.ok.injEq]
  constructor
  · rintro ⟨generic, hgeneric, _, rfl, rfl⟩
    exact ⟨rfl, fromStr_eq_ok.mp hgeneric⟩
  · rintro ⟨rfl, hkey⟩
    exact ⟨account, fromStr_eq_ok.mpr hkey, (), rfl, rfl⟩

omit [Crypto] in
/-- A text that starts like an address is not a hexadecimal key. -/
theorem startsWith_hex_of_keeta {text : String} (h : startsWith text "keeta_" = true) :
    startsWith text "0x" = false := by
  obtain ⟨rest, hrest⟩ := startsWith_eq_true h
  simp [startsWith, hrest, List.isPrefixOf]

theorem startsWith_of_decode {text : String} {octet : UInt8} {key : Bytes}
    (h : decodePublicKeyString text = .ok (octet, key)) : startsWith text "keeta_" = true := by
  obtain ⟨encoded, hstrip, -⟩ := decodePublicKeyString_eq_ok.mp h
  rw [stripStart_eq_some hstrip]
  exact startsWith_append _ _

omit [Crypto] in
theorem fromId_eq_some {octet : UInt8} {a : Algorithm} :
    Algorithm.fromId octet = some a ↔ (KeyPairType.ofAlgorithm a).toByte = octet := by
  rw [Algorithm.fromId, Option.bind_eq_some_iff]
  constructor
  · rintro ⟨keyType, hkind, halgorithm⟩
    rw [← KeyPairType.algorithm_eq_some.mp halgorithm]
    exact KeyPairType.toByte_of_ofByte hkind
  · rintro rfl
    exact ⟨_, KeyPairType.ofByte_toByte _, KeyPairType.algorithm_ofAlgorithm a⟩

theorem ofParsedKey_eq_ok {a : Algorithm} {bytes : Bytes} {account : GenericAccount} :
    ofParsedKey a bytes = .ok account ↔
      account.keyType = .ofAlgorithm a ∧ a.publicKeyFrom bytes = some account.publicKey := by
  unfold ofParsedKey
  split <;> rename_i key hkey
  · rw [Except.ok.injEq]
    constructor
    · rintro rfl
      exact ⟨rfl, hkey⟩
    · rintro ⟨hkind, hkept⟩
      rw [hkey, Option.some.injEq] at hkept
      exact (ext_typed hkind hkept.symm).symm
  -- a key that does not parse has no account
  · simp [hkey]

/-- The key of an address, with the algorithm of its kind octet. -/
theorem parsePublicKey_of_keeta {text : String} (h : startsWith text "keeta_" = true)
    {key : Bytes} {algorithm : Option Algorithm} :
    parsePublicKey text = .ok (key, algorithm) ↔
      ∃ octet, decodePublicKeyString text = .ok (octet, key) ∧ Algorithm.fromId octet = algorithm ∧
        (algorithm = none → octet ∈ ([2, 3, 4, 7] : List UInt8)) := by
  rw [parsePublicKey, startsWith_hex_of_keeta h]
  simp only [Bool.false_eq_true, if_false, bind_eq_ok, Prod.exists]
  constructor
  · rintro ⟨octet, found, hdecode, hmatch⟩
    cases hid : Algorithm.fromId octet with
    | some a =>
      simp only [hid, pure_eq_ok, Except.ok.injEq, Prod.mk.injEq] at hmatch
      obtain ⟨rfl, rfl⟩ := hmatch
      exact ⟨octet, hdecode, hid, by simp⟩
    | none =>
      -- without an algorithm the octet must be that of an identifier
      simp only [hid, bind_eq_ok, rejectIf_eq_ok, not_not, pure_eq_ok, Except.ok.injEq,
        Prod.mk.injEq] at hmatch
      obtain ⟨-, hmem, rfl, rfl⟩ := hmatch
      exact ⟨octet, hdecode, hid, fun _ => hmem⟩
  · rintro ⟨octet, hdecode, rfl, hmem⟩
    refine ⟨octet, key, hdecode, ?_⟩
    cases hid : Algorithm.fromId octet with
    | some a => rfl
    | none => simp only [rejectIf_neg (not_not.mpr (hmem hid)), ok_bind, pure_eq_ok]

theorem ofSigningString_eq_ok {a : Algorithm} {text : String} {account : GenericAccount} :
    ofSigningString a text = .ok account ↔ account.keyType = .ofAlgorithm a ∧
      ∃ key, decodePublicKeyString text = .ok ((KeyPairType.ofAlgorithm a).toByte, key) ∧
        a.publicKeyFrom key = some account.publicKey := by
  simp only [ofSigningString, bind_eq_ok, rejectIf_eq_ok, Bool.not_eq_false, Prod.exists,
    elim_throw_eq_ok, not_not, ofParsedKey_eq_ok]
  constructor
  · rintro ⟨_, hstart, key, algorithm, hparsed, found, rfl, _, rfl, hkind, hkey⟩
    obtain ⟨octet, hdecode, hoctet, -⟩ := (parsePublicKey_of_keeta hstart).mp hparsed
    rw [← fromId_eq_some.mp hoctet] at hdecode
    exact ⟨hkind, key, hdecode, hkey⟩
  · rintro ⟨hkind, key, hdecode, hkey⟩
    have hstart := startsWith_of_decode hdecode
    exact ⟨(), hstart, key, some a, (parsePublicKey_of_keeta hstart).mpr
      ⟨_, hdecode, fromId_eq_some.mpr rfl, by simp⟩, a, rfl, (), rfl, hkind, hkey⟩

omit [Crypto] in
/-- The starts of a kind's addresses: the kind octet in the first two digits. -/
theorem mem_addressStarts {keyType : KeyPairType} {start : String}
    (h : start ∈ keyType.addressStarts) :
    ∃ second < 32, start.toList = "keeta_".toList ++ [base32Char 0, base32Char second] ∧
      UInt8.ofNat (8 * 0 + second / 4) = keyType.toByte := by
  revert start
  cases keyType <;> decide

omit [Crypto] in
theorem startsWith_keeta_of_any {keyType : KeyPairType} {text : String}
    (h : keyType.addressStarts.any (startsWith text) = true) :
    startsWith text "keeta_" = true := by
  obtain ⟨start, hmem, hstart⟩ := List.any_eq_true.mp h
  obtain ⟨second, -, htext, -⟩ := mem_addressStarts hmem
  obtain ⟨rest, hrest⟩ := startsWith_eq_true hstart
  rw [startsWith, List.isPrefixOf_iff_prefix, hrest, htext, List.append_assoc]
  exact List.prefix_append _ _

/-- The start of an identifier's address holds its kind octet. -/
theorem kind_of_addressStarts [LawfulBase32] {keyType : KeyPairType} {text : String}
    {octet : UInt8} {key : Bytes}
    (hstart : keyType.addressStarts.any (startsWith text) = true)
    (hdecode : decodePublicKeyString text = .ok (octet, key)) : octet = keyType.toByte := by
  obtain ⟨start, hmem, hstart⟩ := List.any_eq_true.mp hstart
  obtain ⟨second, hsecond, htext, hkind⟩ := mem_addressStarts hmem
  obtain ⟨rest, hrest⟩ := startsWith_eq_true hstart
  obtain ⟨encoded, hstrip, hoctets⟩ := decodePublicKeyString_eq_ok.mp hdecode
  -- behind the scheme stand two known digits
  have hencoded : encoded = String.ofList (base32Char 0 :: base32Char second :: rest) := by
    apply String.toList_inj.mp
    have hsplit := congrArg String.toList (stripStart_eq_some hstrip)
    rw [hrest, htext, String.toList_append, List.append_assoc] at hsplit
    rw [String.toList_ofList]
    exact (List.append_cancel_left hsplit).symm
  rw [hencoded] at hoctets
  rw [LawfulBase32.base32Decode_head (by decide) hsecond hoctets, hkind]

theorem ofPublicKeyString_eq_ok [LawfulBase32] {keyType : KeyPairType}
    {hid : keyType.algorithm = none} {text : String} {account : GenericAccount} :
    ofPublicKeyString keyType hid text = .ok account ↔ account.keyType = keyType ∧
      keyType.addressStarts.any (startsWith text) = true ∧
      decodePublicKeyString text = .ok (keyType.toByte, account.publicKey) := by
  simp only [ofPublicKeyString, bind_eq_ok, rejectIf_eq_ok, Bool.not_eq_false, Prod.exists,
    ofIdentifierKey_eq_ok]
  constructor
  · rintro ⟨_, hany, key, algorithm, hparsed, hkind, rfl, -⟩
    have hstart : startsWith text "keeta_" = true := startsWith_keeta_of_any hany
    obtain ⟨octet, hdecode, -, -⟩ := (parsePublicKey_of_keeta hstart).mp hparsed
    -- the prefix that was checked fixes the kind octet
    rw [kind_of_addressStarts hany hdecode] at hdecode
    exact ⟨hkind, hany, hdecode⟩
  · rintro ⟨hkind, hany, hdecode⟩
    have hnone : Algorithm.fromId keyType.toByte = none := by
      simp [Algorithm.fromId, hid]
    have hmem : keyType.toByte ∈ ([2, 3, 4, 7] : List UInt8) :=
      KeyPairType.toByte_mem_identifiers.mpr hid
    refine ⟨(), hany, account.publicKey, none,
      (parsePublicKey_of_keeta (startsWith_of_decode hdecode)).mpr
        ⟨_, hdecode, hnone, fun _ => hmem⟩, hkind, rfl, ?_⟩
    exact account.publicKey_length (hkind ▸ hid)

/-- A key that parses has a length that is accepted. -/
theorem keeps_ofAlgorithm [LawfulCrypto] [LawfulSec1] {a : Algorithm} {key kept : Bytes} :
    Keeps (.ofAlgorithm a) key kept ↔ a.publicKeyFrom key = some kept := by
  simp only [Keeps, KeyPairType.algorithm_ofAlgorithm, and_iff_right_iff_imp]
  intro hkey
  cases a with
  | secp256k1 => exact LawfulSec1.k256Compressed_length hkey
  | secp256r1 =>
    simp only [Algorithm.publicKeyFrom, Option.ite_none_right_eq_some] at hkey
    exact LawfulCrypto.p256Accepts_length hkey.1
  | ed25519 =>
    simp only [Algorithm.publicKeyFrom, Option.bind_eq_bind, Option.bind_eq_some_iff,
      Octets.ofBytes_eq_some] at hkey
    obtain ⟨array, rfl, -⟩ := hkey
    simp [Algorithm.publicKeyLengths, array.length_eq]

theorem ofKeyAndType_ofAlgorithm (a : Algorithm) (text : String) :
    ofKeyAndType (.ofAlgorithm a) text = ofSigningString a text := by
  cases a <;> rfl

theorem ofKeyAndType_identifier {keyType : KeyPairType} (hid : keyType.algorithm = none)
    (text : String) : ofKeyAndType keyType text = ofPublicKeyString keyType hid text := by
  cases keyType with
  | ecdsaSecp256k1 | ed25519 | ecdsaSecp256r1 => cases hid
  | network | token | storage | multisig => rfl

/-- The parsers of a signing kind accept the same addresses. -/
theorem parsersAgree_ofAlgorithm [LawfulCrypto] [LawfulSec1] (a : Algorithm) (text : String) :
    ParsersAgree (.ofAlgorithm a) text := by
  have hsame : ∀ account, parseAs (.ofAlgorithm a) text = .ok account ↔
      ofKeyAndType (.ofAlgorithm a) text = .ok account := by
    intro account
    simp only [parseAs_eq_ok, keeps_ofAlgorithm, ofKeyAndType_ofAlgorithm, ofSigningString_eq_ok]
  refine ⟨exists_congr hsame, ?_⟩
  intro x y hx hy
  rw [hsame, hy, Except.ok.injEq] at hx
  subst hx
  exact ⟨rfl, rfl⟩

/-- Parsing any account first normalizes an identifier's key. -/
theorem parseAs_identifier [LawfulCrypto] {keyType : KeyPairType}
    (hid : keyType.algorithm = none) {text : String} {account : GenericAccount} :
    parseAs keyType text = .ok account ↔ account.keyType = keyType ∧
      ∃ key, decodePublicKeyString text = .ok (keyType.toByte, key) ∧
        account.publicKey = normalizedKey key keyType.toByte := by
  simp only [parseAs_eq_ok, Keeps, hid]

end GenericAccount

end Addresses

/-! ## Samples -/

namespace Reference

/-- No sample has a key on secp256k1. -/
scoped instance lawfulSec1 : LawfulSec1 where
  k256Compressed_length h := by cases h
  k256Compressed_short h := by cases h

theorem octet_of_digits : ∀ first < 32, ∀ second < 32,
    octetsOfBits (quintetBits first ++ (quintetBits second).take 3) =
      [UInt8.ofNat (8 * first + second / 4)] := by
  decide +kernel

scoped instance lawfulBase32 : LawfulBase32 where
  base32Decode_head := by
    intro first second rest octet bytes hfirst hsecond h
    have hfound := octet_of_digits first hfirst second hsecond
    simp only [Crypto.base32Decode, base32Decode, String.toList_ofList, List.mapM_cons,
      base32Value_base32Char first hfirst, base32Value_base32Char second hsecond,
      Option.bind_eq_bind, Option.bind_some, Option.bind_eq_some_iff, Option.pure_def,
      Option.some.injEq] at h
    obtain ⟨_, ⟨_, ⟨tail, -, rfl⟩, rfl⟩, h⟩ := h
    simp only [List.flatMap_cons, quintetBits, List.map_cons, List.map_nil, List.cons_append,
      List.nil_append, octetsOfBits, List.cons.injEq] at h
    simp only [quintetBits, List.map_cons, List.map_nil, List.cons_append, List.nil_append,
      List.take_succ_cons, List.take_zero, octetsOfBits, List.cons.injEq, and_true] at hfound
    exact h.1.symm.trans hfound

end Reference

section Samples

open scoped Reference
open Reference

namespace GenericAccount

theorem address_round_trip_sample :
    (∃ parsed, fromStr alice.toString = .ok parsed ∧ parsed.publicKey = alice.publicKey) ∧
      alice.toString ≠ (identifier .storage 0x33 rfl).toString := by
  obtain ⟨⟨parsed, hparsed, -, hkey⟩, -, hdiffer⟩ := address_round_trip alice
  exact ⟨⟨parsed, hparsed, hkey⟩, (hdiffer _ (.inl (by decide))).1⟩

end GenericAccount

end Samples

end KeetaNode
