import KeetaNode.Lib.Text

/-!
# Cryptographic primitives

What the account layer takes from third-party crates: the SHA3-256 digest, the
decoding of base 32 text, the parsers of the three kinds of public keys and the
verification of signatures. `Crypto` names these functions and `LawfulCrypto` the
documented behaviour the code relies on; nothing else is assumed of them.

- `keetanetwork-crypto/src/hash.rs`
- `keetanetwork-crypto/src/algorithms/{secp256k1,secp256r1,ed25519}.rs`
-/

namespace KeetaNode

open ByteCodec

/-! ## Fixed-size byte strings -/

/-- `[u8; n]`. -/
structure Octets (n : Nat) where
  bytes : Bytes
  length_eq : bytes.length = n
  deriving DecidableEq, Repr

/-- Conversion of a slice, which fails on any other length. -/
def Octets.ofBytes (n : Nat) (bytes : Bytes) : Option (Octets n) :=
  if h : bytes.length = n then some ⟨bytes, h⟩ else none

@[simp]
theorem Octets.ofBytes_bytes {n : Nat} (octets : Octets n) :
    Octets.ofBytes n octets.bytes = some octets := by
  simp [Octets.ofBytes, octets.length_eq]

theorem Octets.ofBytes_eq_some {n : Nat} {bytes : Bytes} {octets : Octets n} :
    Octets.ofBytes n bytes = some octets ↔ octets.bytes = bytes := by
  unfold Octets.ofBytes
  split <;> rename_i h
  · simp only [Option.some.injEq]
    constructor
    · rintro rfl
      rfl
    · rintro rfl
      rfl
  · simp only [reduceCtorEq, false_iff]
    rintro rfl
    exact h octets.length_eq

theorem Octets.ext_bytes {n : Nat} {a b : Octets n} (h : a.bytes = b.bytes) : a = b := by
  cases a
  cases b
  simp_all

/-- A SHA3-256 digest (`BlockHash`). -/
abbrev BlockHash := Octets 32

/-! ## Primitives -/

/-- Signature algorithms (`Algorithm`). -/
inductive Algorithm where
  | secp256k1 | ed25519 | secp256r1
  deriving DecidableEq, Repr

/-- Functions of the crates `sha3`, `base32`, `k256`, `p256` and `ed25519-dalek`. -/
class Crypto where
  /-- `Sha3_256`. -/
  sha3_256 : Bytes → BlockHash
  /-- `base32::decode` for the unpadded lower-case alphabet. -/
  base32Decode : String → Option Bytes
  /-- `k256::PublicKey::from_sec1_bytes`, then `to_encoded_point(true)`. -/
  k256Compressed : Bytes → Option Bytes
  /-- Whether `p256::PublicKey::from_sec1_bytes` accepts the key. -/
  p256Accepts : Bytes → Bool
  /-- Whether `ed25519_dalek::VerifyingKey::from_bytes` accepts the key. -/
  ed25519Accepts : Octets 32 → Bool
  /-- Parse a fixed-size signature and verify it over a message (Ed25519) or a
  digest (ECDSA). -/
  verifies : Algorithm → (publicKey message signature : Bytes) → Bool
  /-- Parse a DER signature and verify it over a digest (ECDSA). -/
  verifiesDer : Algorithm → (publicKey digest signature : Bytes) → Bool

/-- `hash_default`. -/
def hashDefault [Crypto] (data : Bytes) : BlockHash := Crypto.sha3_256 data

/-- Parse a public key and return the bytes it is kept as (`TryFrom<&[u8]>`, `AsRef`). -/
def Algorithm.publicKeyFrom [Crypto] (algorithm : Algorithm) (bytes : Bytes) : Option Bytes :=
  match algorithm with
  -- a secp256k1 key is stored compressed, a secp256r1 key as it was given
  | .secp256k1 => Crypto.k256Compressed bytes
  | .secp256r1 => if Crypto.p256Accepts bytes then some bytes else none
  | .ed25519 => do
    let array ← Octets.ofBytes 32 bytes
    if Crypto.ed25519Accepts array then some bytes else none

/-- The lengths of public keys an account accepts. -/
def Algorithm.publicKeyLengths : Algorithm → List Nat
  | .secp256k1 => [33, 65]
  | .secp256r1 => [33, 65]
  | .ed25519 => [32]

/-- Documented behaviour of the primitives: decoding undoes encoding, a compressed
point parses to itself, and SEC1 points have 33 or 65 octets. -/
class LawfulCrypto [Crypto] : Prop where
  base32Decode_encode : ∀ bytes, Crypto.base32Decode (base32Encode bytes) = some bytes
  k256Compressed_compressed : ∀ {bytes compressed}, Crypto.k256Compressed bytes = some compressed →
    Crypto.k256Compressed compressed = some compressed ∧ compressed.length = 33
  p256Accepts_length : ∀ {bytes}, Crypto.p256Accepts bytes = true → bytes.length ∈ [33, 65]

section Keys

variable [Crypto] [LawfulCrypto] {algorithm : Algorithm} {bytes key : Bytes}

/-- What a key is kept as parses to the same key. -/
theorem Algorithm.publicKeyFrom_kept (h : algorithm.publicKeyFrom bytes = some key) :
    algorithm.publicKeyFrom key = some key := by
  cases algorithm with
  | secp256k1 => exact (LawfulCrypto.k256Compressed_compressed h).1
  | secp256r1 =>
    simp only [publicKeyFrom, Option.ite_none_right_eq_some, Option.some.injEq] at h ⊢
    obtain ⟨haccepts, rfl⟩ := h
    exact ⟨haccepts, trivial⟩
  | ed25519 =>
    simp only [publicKeyFrom, Option.bind_eq_bind, Option.bind_eq_some_iff,
      Option.ite_none_right_eq_some, Option.some.injEq] at h ⊢
    obtain ⟨array, harray, haccepts, rfl⟩ := h
    exact ⟨array, harray, haccepts, trivial⟩

theorem Algorithm.publicKeyFrom_length (h : algorithm.publicKeyFrom bytes = some key) :
    key.length ∈ algorithm.publicKeyLengths := by
  cases algorithm with
  | secp256k1 => simp [publicKeyLengths, (LawfulCrypto.k256Compressed_compressed h).2]
  | secp256r1 =>
    simp only [publicKeyFrom, Option.ite_none_right_eq_some, Option.some.injEq] at h
    obtain ⟨haccepts, rfl⟩ := h
    exact LawfulCrypto.p256Accepts_length haccepts
  | ed25519 =>
    simp only [publicKeyFrom, Option.bind_eq_bind, Option.bind_eq_some_iff,
      Option.ite_none_right_eq_some, Option.some.injEq, Octets.ofBytes_eq_some] at h
    obtain ⟨array, rfl, -, rfl⟩ := h
    simp [publicKeyLengths, array.length_eq]

end Keys

end KeetaNode
