import KeetaNode.Crypto.Reference

/-!
# Integrated encryption

Three formats of a message to the holder of a key. Each carries an ephemeral public key, the
initialization vector of a cipher, what is encrypted, and a code over some of these. Decryption
checks the code before it decrypts.

- `keetanetwork-crypto/src/algorithms/ecies.rs`
- `keetanetwork-crypto/src/algorithms/{aes_cbc,aes_ctr,aes_common}.rs`

The formats on secp256k1 and X25519 cover all of a message by the code. The one on secp256r1
follows another implementation, whose code leaves out the initialization vector.

## Main results

- `EciesSecp256k1.eq_of_decrypt`, `EciesX25519.eq_of_decrypt`: the ephemeral key and the code
  determine a message that is accepted
- `EciesSecp256r1.eq_of_decrypt`: they determine it but for the initialization vector
- `EciesSecp256k1.decrypt_encrypt` and its like: decryption undoes encryption
-/

namespace KeetaNode

open ByteCodec

/-! ## Ciphers -/

/-- Failures of the ciphers (`CryptoError`). -/
inductive CipherError where
  | decryptionFailed
  | invalidPublicKey
  | invalidKeySize
  | invalidOperation
  deriving DecidableEq, Repr

/-- Functions of the crates `sha2`, `hmac`, `aes`, `ctr`, `cbc`, `k256`, `p256` and
`x25519-dalek`. A point of a curve is the one encoding that its keys are compared by. -/
class EciesCrypto where
  sha256 : Bytes → Octets 32
  sha512 : Bytes → Octets 64
  hmacSha256 : (key message : Bytes) → Octets 32
  hmacSha512 : (key message : Bytes) → Octets 64
  /-- `Ctr128BE<Aes128>::apply_keystream`. -/
  aes128Ctr : (key iv data : Bytes) → Bytes
  /-- `cbc::Decryptor<Aes256>::decrypt_padded_vec_mut::<Pkcs7>`. -/
  aes256CbcDecrypt : (key iv data : Bytes) → Option Bytes
  /-- `cbc::Encryptor<Aes256>::encrypt_padded_vec_mut::<Pkcs7>`. -/
  aes256CbcEncrypt : (key iv data : Bytes) → Bytes
  /-- The public key of a secret. -/
  k256PublicKey : Octets 32 → Octets 33
  /-- `to_uncompressed_bytes`. -/
  k256Uncompressed : Octets 33 → Octets 65
  /-- `k256::PublicKey::from_sec1_bytes`. -/
  k256Point : Bytes → Option (Octets 33)
  /-- `k256::ecdh::diffie_hellman`. -/
  k256DiffieHellman : (secret : Octets 32) → (point : Octets 33) → Octets 32
  /-- The public key of a secret. -/
  p256PublicKey : Octets 32 → Octets 33
  /-- `to_uncompressed_bytes`. -/
  p256Uncompressed : Octets 33 → Octets 65
  /-- `p256::PublicKey::from_sec1_bytes`. -/
  p256Point : Bytes → Option (Octets 33)
  /-- `p256::ecdh::diffie_hellman`. -/
  p256DiffieHellman : (secret : Octets 32) → (point : Octets 33) → Octets 32
  /-- The public key of a secret. -/
  x25519PublicKey : Octets 32 → Octets 32
  /-- `x25519_dalek::x25519`. -/
  x25519 : (secret point : Octets 32) → Octets 32

/-- Documented behaviour of the primitives: decryption undoes encryption, a point parses from its
encoding, and both sides of a key exchange arrive at one secret. -/
class LawfulEciesCrypto [EciesCrypto] : Prop where
  aes128Ctr_aes128Ctr : ∀ key iv data,
    EciesCrypto.aes128Ctr key iv (EciesCrypto.aes128Ctr key iv data) = data
  aes256CbcDecrypt_encrypt : ∀ key iv data,
    EciesCrypto.aes256CbcDecrypt key iv (EciesCrypto.aes256CbcEncrypt key iv data) = some data
  /-- There is always some padding. -/
  length_aes256CbcEncrypt : ∀ key iv data, 16 ≤ (EciesCrypto.aes256CbcEncrypt key iv data).length
  k256Point_uncompressed : ∀ point,
    EciesCrypto.k256Point (EciesCrypto.k256Uncompressed point).bytes = some point
  k256DiffieHellman_comm : ∀ a b, EciesCrypto.k256DiffieHellman a (EciesCrypto.k256PublicKey b) =
    EciesCrypto.k256DiffieHellman b (EciesCrypto.k256PublicKey a)
  p256Point_uncompressed : ∀ point,
    EciesCrypto.p256Point (EciesCrypto.p256Uncompressed point).bytes = some point
  p256DiffieHellman_comm : ∀ a b, EciesCrypto.p256DiffieHellman a (EciesCrypto.p256PublicKey b) =
    EciesCrypto.p256DiffieHellman b (EciesCrypto.p256PublicKey a)
  x25519_comm : ∀ a b, EciesCrypto.x25519 a (EciesCrypto.x25519PublicKey b) =
    EciesCrypto.x25519 b (EciesCrypto.x25519PublicKey a)

/-- `bytes[start..stop]`. -/
def slice (bytes : Bytes) (start stop : ℕ) : Bytes := (bytes.take stop).drop start

/-- `u32::to_be_bytes`. -/
def counterBytes (counter : ℕ) : Bytes :=
  [UInt8.ofNat (counter / 2 ^ 24), UInt8.ofNat (counter / 2 ^ 16), UInt8.ofNat (counter / 2 ^ 8),
    UInt8.ofNat counter]

theorem slice_append_drop {bytes : Bytes} {start stop : ℕ} (h : start ≤ stop)
    (hstop : stop ≤ bytes.length) :
    slice bytes start stop ++ bytes.drop stop = bytes.drop start := by
  have hstart : start ≤ (bytes.take stop).length := by
    rw [List.length_take]
    omega
  rw [slice, ← List.drop_append_of_le_length hstart, List.take_append_drop]

theorem slice_append_slice {bytes : Bytes} {start middle stop : ℕ} (h : start ≤ middle)
    (hmiddle : middle ≤ stop) (hstop : stop ≤ bytes.length) :
    slice bytes start middle ++ slice bytes middle stop = slice bytes start stop := by
  have hlength : middle ≤ (bytes.take stop).length := by
    rw [List.length_take]
    omega
  -- both slices are taken from what precedes the stop
  have htake : slice bytes start middle = slice (bytes.take stop) start middle := by
    rw [slice, slice, List.take_take, min_eq_left hmiddle]
  rw [htake]
  exact slice_append_drop h hlength

theorem length_slice {bytes : Bytes} {start stop : ℕ} (hstop : stop ≤ bytes.length) :
    (slice bytes start stop).length = stop - start := by
  rw [slice, List.length_drop, List.length_take, min_eq_left hstop]

theorem slice_append {a b c : Bytes} {start stop : ℕ} (hstart : start = a.length)
    (hstop : stop = a.length + b.length) : slice (a ++ (b ++ c)) start stop = b := by
  subst hstart hstop
  rw [slice, ← List.append_assoc, ← List.length_append, List.take_left, List.drop_left]

section Formats

variable [EciesCrypto]

def ensureKeySize (key : Bytes) (expected : ℕ) : Except CipherError Unit :=
  rejectIf (key.length ≠ expected) .invalidKeySize

def splitIv (ciphertext : Bytes) : Except CipherError (Bytes × Bytes) := do
  rejectIf (ciphertext.length < 16) .decryptionFailed
  return (ciphertext.take 16, ciphertext.drop 16)

/-- `Aes128CtrCipher::apply_keystream`, which both encrypts and decrypts. -/
def applyKeystream (key iv data : Bytes) : Except CipherError Bytes := do
  ensureKeySize key 16
  rejectIf (iv.length ≠ 16) .invalidOperation
  return EciesCrypto.aes128Ctr key iv data

/-- `Aes256Cbc::encrypt`, which prepends the initialization vector. -/
def aes256CbcEncrypt (key : Bytes) (iv : Octets 16) (plaintext : Bytes) :
    Except CipherError Bytes := do
  ensureKeySize key 32
  return iv.bytes ++ EciesCrypto.aes256CbcEncrypt key iv.bytes plaintext

/-- `Aes256Cbc::decrypt`. -/
def aes256CbcDecrypt (key ciphertext : Bytes) : Except CipherError Bytes := do
  ensureKeySize key 32
  let (iv, encryptedData) ← splitIv ciphertext
  (EciesCrypto.aes256CbcDecrypt key iv encryptedData).elim (throw .decryptionFailed) pure

/-! ## secp256k1 -/

namespace EciesSecp256k1

/-- The digests of the secret behind a counter, as many as the output needs. -/
def kdf (secret : Bytes) (outputLength : ℕ) : Bytes :=
  (List.range ((outputLength + 31) / 32)).flatMap fun i =>
    (EciesCrypto.sha256 (counterBytes (i + 1) ++ secret)).bytes

/-- The key of the cipher and the key of the code. -/
def deriveKeys (sharedSecret : Bytes) : Bytes × Bytes :=
  let kdfOutput := kdf sharedSecret 32
  (slice kdfOutput 0 16, (EciesCrypto.sha256 (slice kdfOutput 16 32)).bytes)

/-- Encryption with a generated ephemeral key and initialization vector. -/
def encrypt (recipientPublicKey : Octets 33) (ephemeralPrivate : Octets 32) (iv : Octets 16)
    (plaintext : Bytes) : Except CipherError Bytes := do
  let ephemeralPublic := EciesCrypto.k256PublicKey ephemeralPrivate
  let sharedSecret := EciesCrypto.k256DiffieHellman ephemeralPrivate recipientPublicKey
  let ephemeralPublicUncompressed := EciesCrypto.k256Uncompressed ephemeralPublic
  let (encryptionKey, macKey) := deriveKeys sharedSecret.bytes
  let ciphertextOnly ← applyKeystream encryptionKey iv.bytes plaintext
  -- the code covers the vector
  let cipherWithIv := iv.bytes ++ ciphertextOnly
  let hmacResult := EciesCrypto.hmacSha256 macKey cipherWithIv
  return ephemeralPublicUncompressed.bytes ++ (cipherWithIv ++ hmacResult.bytes)

def ephemeralPublicBytes (ciphertext : Bytes) : Bytes := slice ciphertext 0 65

/-- The initialization vector and what is encrypted. -/
def cipherWithIv (ciphertext : Bytes) : Bytes := slice ciphertext 65 (ciphertext.length - 32)

def receivedHmac (ciphertext : Bytes) : Bytes := ciphertext.drop (ciphertext.length - 32)

def decrypt (recipientPrivateKey : Octets 32) (ciphertext : Bytes) :
    Except CipherError Bytes := do
  rejectIf (ciphertext.length < 113) .decryptionFailed
  let ephemeralPublic ← (EciesCrypto.k256Point (ephemeralPublicBytes ciphertext)).elim
    (throw .invalidPublicKey) pure
  let sharedSecret := EciesCrypto.k256DiffieHellman recipientPrivateKey ephemeralPublic
  let (encryptionKey, macKey) := deriveKeys sharedSecret.bytes
  let computedHmac := EciesCrypto.hmacSha256 macKey (cipherWithIv ciphertext)
  -- nothing is decrypted before the code is checked
  rejectIf (computedHmac.bytes ≠ receivedHmac ciphertext) .decryptionFailed
  rejectIf ((cipherWithIv ciphertext).length < 16) .decryptionFailed
  applyKeystream encryptionKey (slice (cipherWithIv ciphertext) 0 16)
    ((cipherWithIv ciphertext).drop 16)

end EciesSecp256k1

/-! ## X25519 -/

namespace EciesX25519

/-- The key of the cipher and the key of the code. -/
def deriveKeys (sharedSecret : Bytes) : Bytes × Bytes :=
  let sha512Hash := (EciesCrypto.sha512 sharedSecret).bytes
  (slice sha512Hash 0 32, sha512Hash.drop 32)

/-- Encryption with a generated ephemeral key and initialization vector. -/
def encrypt (recipientPublicKey ephemeralPrivate : Octets 32) (iv : Octets 16)
    (plaintext : Bytes) : Except CipherError Bytes := do
  let ephemeralPublic := EciesCrypto.x25519PublicKey ephemeralPrivate
  let sharedSecret := EciesCrypto.x25519 ephemeralPrivate recipientPublicKey
  let (encryptionKey, macKey) := deriveKeys sharedSecret.bytes
  let ivAndCiphertext ← aes256CbcEncrypt encryptionKey iv plaintext
  -- the vector that encryption prepends is written at the front instead
  let ciphertext := ivAndCiphertext.drop 16
  let hmacResult := EciesCrypto.hmacSha256 macKey
    (iv.bytes ++ ephemeralPublic.bytes ++ ciphertext)
  return iv.bytes ++ (ephemeralPublic.bytes ++ (hmacResult.bytes ++ ciphertext))

def iv (ciphertext : Bytes) : Bytes := slice ciphertext 0 16

def ephemeralPublicBytes (ciphertext : Bytes) : Bytes := slice ciphertext 16 48

def receivedMac (ciphertext : Bytes) : Bytes := slice ciphertext 48 80

def encryptedData (ciphertext : Bytes) : Bytes := ciphertext.drop 80

/-- What the code is computed over. -/
def macInput (ciphertext : Bytes) : Bytes :=
  iv ciphertext ++ ephemeralPublicBytes ciphertext ++ encryptedData ciphertext

def decrypt (recipientPrivateKey : Octets 32) (ciphertext : Bytes) :
    Except CipherError Bytes := do
  rejectIf (ciphertext.length < 80) .decryptionFailed
  let ephemeralPublic ← (Octets.ofBytes 32 (ephemeralPublicBytes ciphertext)).elim
    (throw .invalidPublicKey) pure
  let sharedSecret := EciesCrypto.x25519 recipientPrivateKey ephemeralPublic
  let (encryptionKey, macKey) := deriveKeys sharedSecret.bytes
  let computedMac := EciesCrypto.hmacSha256 macKey (macInput ciphertext)
  rejectIf (computedMac.bytes ≠ receivedMac ciphertext) .decryptionFailed
  aes256CbcDecrypt encryptionKey (iv ciphertext ++ encryptedData ciphertext)

end EciesX25519

/-! ## secp256r1 -/

namespace EciesSecp256r1

/-- The digests of the ephemeral key and the secret before a counter. -/
def derivationKey (seed : Bytes) (totalBytes : ℕ) : Bytes :=
  ((List.range ((totalBytes + 63) / 64)).flatMap fun i =>
    (EciesCrypto.sha512 (seed ++ counterBytes (i + 1))).bytes).take totalBytes

/-- The key of the cipher and the key of the code. -/
def deriveKeys (ephemeralPublicKey sharedSecretX : Bytes) : Bytes × Bytes :=
  let derivationKey := derivationKey (ephemeralPublicKey ++ sharedSecretX) 160
  (slice derivationKey 0 32, slice derivationKey 32 160)

/-- Encryption with a generated ephemeral key and initialization vector. -/
def encrypt (recipientPublicKey : Octets 33) (ephemeralPrivate : Octets 32) (iv : Octets 16)
    (plaintext : Bytes) : Except CipherError Bytes := do
  let ephemeralPublic := EciesCrypto.p256PublicKey ephemeralPrivate
  let sharedSecret := EciesCrypto.p256DiffieHellman ephemeralPrivate recipientPublicKey
  let ephemeralPublicUncompressed := EciesCrypto.p256Uncompressed ephemeralPublic
  let (encryptionKey, macKey) := deriveKeys ephemeralPublicUncompressed.bytes sharedSecret.bytes
  let ivAndCiphertext ← aes256CbcEncrypt encryptionKey iv plaintext
  let ciphertextOnly := ivAndCiphertext.drop 16
  -- the length of an initialization vector, which is fixed, stands in for the vector
  let hmacResult := EciesCrypto.hmacSha512 macKey (ciphertextOnly ++ List.replicate 8 0)
  return ephemeralPublicUncompressed.bytes ++ (ciphertextOnly ++ (hmacResult.bytes ++ iv.bytes))

def ephemeralPublicBytes (ciphertext : Bytes) : Bytes := slice ciphertext 0 65

def encryptedData (ciphertext : Bytes) : Bytes := slice ciphertext 65 (ciphertext.length - 80)

def receivedHmac (ciphertext : Bytes) : Bytes :=
  slice ciphertext (ciphertext.length - 80) (ciphertext.length - 16)

def iv (ciphertext : Bytes) : Bytes := ciphertext.drop (ciphertext.length - 16)

/-- What the code is computed over. The initialization vector is not part of it. -/
def macInput (ciphertext : Bytes) : Bytes := encryptedData ciphertext ++ List.replicate 8 0

def decrypt (recipientPrivateKey : Octets 32) (ciphertext : Bytes) :
    Except CipherError Bytes := do
  rejectIf (ciphertext.length < 161) .decryptionFailed
  let ephemeralPublic ← (EciesCrypto.p256Point (ephemeralPublicBytes ciphertext)).elim
    (throw .invalidPublicKey) pure
  let sharedSecret := EciesCrypto.p256DiffieHellman recipientPrivateKey ephemeralPublic
  let (encryptionKey, macKey) := deriveKeys (ephemeralPublicBytes ciphertext) sharedSecret.bytes
  let computedHmac := EciesCrypto.hmacSha512 macKey (macInput ciphertext)
  rejectIf (computedHmac.bytes ≠ receivedHmac ciphertext) .decryptionFailed
  aes256CbcDecrypt encryptionKey (iv ciphertext ++ encryptedData ciphertext)

end EciesSecp256r1

/-! ## What the code determines -/

/-- No two of the inputs have one code under any key. -/
def CodesDiffer {n : ℕ} (mac : (key message : Bytes) → Octets n) (inputs : List Bytes) : Prop :=
  ∀ key, ∀ x ∈ inputs, ∀ y ∈ inputs, mac key x = mac key y → x = y

/-- An input carries a code under the key of its ephemeral key, if there is one. -/
def Carries {n : ℕ} (mac : (key message : Bytes) → Octets n) (macKey : Option Bytes)
    (input code : Bytes) : Prop :=
  ∃ key, macKey = some key ∧ (mac key input).bytes = code

omit [EciesCrypto] in
/-- Inputs that carry one code under one key are the same. -/
theorem Carries.input_eq {n : ℕ} {mac : (key message : Bytes) → Octets n} {macKey : Option Bytes}
    {x y code : Bytes} (hx : Carries mac macKey x code) (hy : Carries mac macKey y code)
    (h : CodesDiffer mac [x, y]) : x = y := by
  obtain ⟨key, hkey, hx⟩ := hx
  obtain ⟨key', hkey', hy⟩ := hy
  -- one ephemeral key, so one key of the code
  obtain rfl : key = key' := Option.some.inj (hkey.symm.trans hkey')
  apply h key
  · exact List.mem_cons_self
  · exact List.mem_cons_of_mem x List.mem_cons_self
  · exact Octets.ext_bytes (hx.trans hy.symm)

omit [EciesCrypto] in
theorem codesDiffer_self {n : ℕ} (mac : (key message : Bytes) → Octets n) (x : Bytes) :
    CodesDiffer mac [x, x] := by
  intro key a ha b hb _
  simp only [List.mem_cons, List.not_mem_nil, or_false, or_self] at ha hb
  rw [ha, hb]

namespace EciesSecp256k1

variable {privateKey : Octets 32} {m₁ m₂ p₁ p₂ : Bytes}

/-- The key of the code that belongs to an ephemeral key. -/
def macKey (privateKey : Octets 32) (ephemeralPublicBytes : Bytes) : Option Bytes :=
  (EciesCrypto.k256Point ephemeralPublicBytes).map fun point =>
    (deriveKeys (EciesCrypto.k256DiffieHellman privateKey point).bytes).2

/-- What is accepted is long enough and carries the code of the rest. -/
theorem accepted {message plaintext : Bytes} (h : decrypt privateKey message = .ok plaintext) :
    113 ≤ message.length ∧
      Carries EciesCrypto.hmacSha256 (macKey privateKey (ephemeralPublicBytes message))
        (cipherWithIv message) (receivedHmac message) := by
  simp only [decrypt, bind_eq_ok, rejectIf_eq_ok, elim_throw_eq_ok, not_lt, not_not] at h
  obtain ⟨-, hlength, point, hpoint, -, hmac, -⟩ := h
  exact ⟨hlength, _, by rw [macKey, hpoint, Option.map_some], hmac⟩

omit [EciesCrypto] in
/-- A message is its parts. -/
theorem parts {message : Bytes} (h : 113 ≤ message.length) :
    ephemeralPublicBytes message ++ (cipherWithIv message ++ receivedHmac message) = message := by
  rw [cipherWithIv, receivedHmac, slice_append_drop (by omega) (by omega), ephemeralPublicBytes,
    slice_append_drop (by omega) (by omega), List.drop_zero]

theorem eq_of_decrypt (h₁ : decrypt privateKey m₁ = .ok p₁) (h₂ : decrypt privateKey m₂ = .ok p₂)
    (hephemeral : ephemeralPublicBytes m₁ = ephemeralPublicBytes m₂)
    (hcode : receivedHmac m₁ = receivedHmac m₂)
    (hdiffer : CodesDiffer EciesCrypto.hmacSha256 [cipherWithIv m₁, cipherWithIv m₂]) :
    m₁ = m₂ ∧ p₁ = p₂ := by
  obtain ⟨hlength₁, hcarries₁⟩ := accepted h₁
  obtain ⟨hlength₂, hcarries₂⟩ := accepted h₂
  rw [hephemeral, hcode] at hcarries₁
  -- the code covers all but the ephemeral key and itself
  have hcipher := hcarries₁.input_eq hcarries₂ hdiffer
  have hmessage : m₁ = m₂ := by
    rw [← parts hlength₁, ← parts hlength₂, hephemeral, hcipher, hcode]
  subst hmessage
  exact ⟨rfl, Except.ok.inj (h₁.symm.trans h₂)⟩

end EciesSecp256k1

namespace EciesX25519

variable {privateKey : Octets 32} {m₁ m₂ p₁ p₂ : Bytes}

/-- The key of the code that belongs to an ephemeral key. -/
def macKey (privateKey : Octets 32) (ephemeralPublicBytes : Bytes) : Option Bytes :=
  (Octets.ofBytes 32 ephemeralPublicBytes).map fun point =>
    (deriveKeys (EciesCrypto.x25519 privateKey point).bytes).2

theorem accepted {message plaintext : Bytes} (h : decrypt privateKey message = .ok plaintext) :
    80 ≤ message.length ∧
      Carries EciesCrypto.hmacSha256 (macKey privateKey (ephemeralPublicBytes message))
        (macInput message) (receivedMac message) := by
  simp only [decrypt, bind_eq_ok, rejectIf_eq_ok, elim_throw_eq_ok, not_lt, not_not] at h
  obtain ⟨-, hlength, point, hpoint, -, hmac, -⟩ := h
  exact ⟨hlength, _, by rw [macKey, hpoint, Option.map_some], hmac⟩

omit [EciesCrypto] in
theorem parts {message : Bytes} (h : 80 ≤ message.length) :
    iv message ++ (ephemeralPublicBytes message ++ (receivedMac message ++ encryptedData message)) =
      message := by
  rw [receivedMac, encryptedData, slice_append_drop (by omega) h, ephemeralPublicBytes,
    slice_append_drop (by omega) (by omega), iv, slice_append_drop (by omega) (by omega),
    List.drop_zero]

omit [EciesCrypto] in
/-- The input of the code determines what it was put together from. -/
theorem macInput_inj (hlength₁ : 80 ≤ m₁.length) (hlength₂ : 80 ≤ m₂.length)
    (h : macInput m₁ = macInput m₂) : iv m₁ = iv m₂ ∧ encryptedData m₁ = encryptedData m₂ := by
  have hiv : (iv m₁).length = (iv m₂).length := by
    rw [iv, iv, length_slice (by omega), length_slice (by omega)]
  have hephemeral : (ephemeralPublicBytes m₁).length = (ephemeralPublicBytes m₂).length := by
    rw [ephemeralPublicBytes, ephemeralPublicBytes, length_slice (by omega),
      length_slice (by omega)]
  -- the parts have fixed lengths, so that the input splits in one way
  rw [macInput, macInput, List.append_assoc, List.append_assoc] at h
  obtain ⟨hiv, hrest⟩ := List.append_inj h hiv
  exact ⟨hiv, (List.append_inj hrest hephemeral).2⟩

theorem eq_of_decrypt (h₁ : decrypt privateKey m₁ = .ok p₁) (h₂ : decrypt privateKey m₂ = .ok p₂)
    (hephemeral : ephemeralPublicBytes m₁ = ephemeralPublicBytes m₂)
    (hcode : receivedMac m₁ = receivedMac m₂)
    (hdiffer : CodesDiffer EciesCrypto.hmacSha256 [macInput m₁, macInput m₂]) :
    m₁ = m₂ ∧ p₁ = p₂ := by
  obtain ⟨hlength₁, hcarries₁⟩ := accepted h₁
  obtain ⟨hlength₂, hcarries₂⟩ := accepted h₂
  rw [hephemeral, hcode] at hcarries₁
  have hinput := hcarries₁.input_eq hcarries₂ hdiffer
  obtain ⟨hiv, hdata⟩ := macInput_inj hlength₁ hlength₂ hinput
  have hmessage : m₁ = m₂ := by
    rw [← parts hlength₁, ← parts hlength₂, hiv, hephemeral, hcode, hdata]
  subst hmessage
  exact ⟨rfl, Except.ok.inj (h₁.symm.trans h₂)⟩

end EciesX25519

namespace EciesSecp256r1

variable {privateKey : Octets 32} {m₁ m₂ p₁ p₂ : Bytes}

/-- All of a message but its initialization vector. -/
def covered (message : Bytes) : Bytes := message.take (message.length - 16)

/-- The key of the code that belongs to an ephemeral key. -/
def macKey (privateKey : Octets 32) (ephemeralPublicBytes : Bytes) : Option Bytes :=
  (EciesCrypto.p256Point ephemeralPublicBytes).map fun point =>
    (deriveKeys ephemeralPublicBytes (EciesCrypto.p256DiffieHellman privateKey point).bytes).2

theorem accepted {message plaintext : Bytes} (h : decrypt privateKey message = .ok plaintext) :
    161 ≤ message.length ∧
      Carries EciesCrypto.hmacSha512 (macKey privateKey (ephemeralPublicBytes message))
        (macInput message) (receivedHmac message) := by
  simp only [decrypt, bind_eq_ok, rejectIf_eq_ok, elim_throw_eq_ok, not_lt, not_not] at h
  obtain ⟨-, hlength, point, hpoint, -, hmac, -⟩ := h
  exact ⟨hlength, _, by rw [macKey, hpoint, Option.map_some], hmac⟩

omit [EciesCrypto] in
theorem parts {message : Bytes} (h : 161 ≤ message.length) :
    ephemeralPublicBytes message ++ (encryptedData message ++ receivedHmac message) =
      covered message := by
  rw [encryptedData, receivedHmac, slice_append_slice (by omega) (by omega) (by omega),
    ephemeralPublicBytes, slice_append_slice (by omega) (by omega) (by omega)]
  rfl

theorem eq_of_decrypt (h₁ : decrypt privateKey m₁ = .ok p₁) (h₂ : decrypt privateKey m₂ = .ok p₂)
    (hephemeral : ephemeralPublicBytes m₁ = ephemeralPublicBytes m₂)
    (hcode : receivedHmac m₁ = receivedHmac m₂)
    (hdiffer : CodesDiffer EciesCrypto.hmacSha512 [macInput m₁, macInput m₂]) :
    covered m₁ = covered m₂ ∧ (iv m₁ = iv m₂ → m₁ = m₂ ∧ p₁ = p₂) := by
  obtain ⟨hlength₁, hcarries₁⟩ := accepted h₁
  obtain ⟨hlength₂, hcarries₂⟩ := accepted h₂
  rw [hephemeral, hcode] at hcarries₁
  have hinput := hcarries₁.input_eq hcarries₂ hdiffer
  -- both inputs end with the same eight octets, which say nothing of the vector
  have hdata : encryptedData m₁ = encryptedData m₂ := List.append_cancel_right hinput
  have hcovered : covered m₁ = covered m₂ := by
    rw [← parts hlength₁, ← parts hlength₂, hephemeral, hdata, hcode]
  refine ⟨hcovered, fun hiv => ?_⟩
  -- what the code leaves out stands at the end
  have hmessage : m₁ = m₂ := by
    rw [← List.take_append_drop (m₁.length - 16) m₁, ← List.take_append_drop (m₂.length - 16) m₂]
    exact congrArg₂ (· ++ ·) hcovered hiv
  subst hmessage
  exact ⟨rfl, Except.ok.inj (h₁.symm.trans h₂)⟩

end EciesSecp256r1

/-- **What the code covers.** Two messages with one ephemeral key and one code that decryption
accepts are the same, on secp256k1 and X25519. On secp256r1 they are the same but for the
initialization vector at their end. The codes of the inputs at hand are taken to differ. -/
theorem messages_eq_of_decrypt (privateKey : Octets 32) (m₁ m₂ p₁ p₂ : Bytes) :
    (EciesSecp256k1.decrypt privateKey m₁ = .ok p₁ → EciesSecp256k1.decrypt privateKey m₂ = .ok p₂ →
      EciesSecp256k1.ephemeralPublicBytes m₁ = EciesSecp256k1.ephemeralPublicBytes m₂ →
      EciesSecp256k1.receivedHmac m₁ = EciesSecp256k1.receivedHmac m₂ →
      CodesDiffer EciesCrypto.hmacSha256
        [EciesSecp256k1.cipherWithIv m₁, EciesSecp256k1.cipherWithIv m₂] →
      m₁ = m₂ ∧ p₁ = p₂) ∧
    (EciesX25519.decrypt privateKey m₁ = .ok p₁ → EciesX25519.decrypt privateKey m₂ = .ok p₂ →
      EciesX25519.ephemeralPublicBytes m₁ = EciesX25519.ephemeralPublicBytes m₂ →
      EciesX25519.receivedMac m₁ = EciesX25519.receivedMac m₂ →
      CodesDiffer EciesCrypto.hmacSha256 [EciesX25519.macInput m₁, EciesX25519.macInput m₂] →
      m₁ = m₂ ∧ p₁ = p₂) ∧
    (EciesSecp256r1.decrypt privateKey m₁ = .ok p₁ → EciesSecp256r1.decrypt privateKey m₂ = .ok p₂ →
      EciesSecp256r1.ephemeralPublicBytes m₁ = EciesSecp256r1.ephemeralPublicBytes m₂ →
      EciesSecp256r1.receivedHmac m₁ = EciesSecp256r1.receivedHmac m₂ →
      CodesDiffer EciesCrypto.hmacSha512 [EciesSecp256r1.macInput m₁, EciesSecp256r1.macInput m₂] →
      EciesSecp256r1.covered m₁ = EciesSecp256r1.covered m₂ ∧
        (EciesSecp256r1.iv m₁ = EciesSecp256r1.iv m₂ → m₁ = m₂ ∧ p₁ = p₂)) := by
  refine ⟨?_, ?_, ?_⟩
  · exact EciesSecp256k1.eq_of_decrypt
  · exact EciesX25519.eq_of_decrypt
  · exact EciesSecp256r1.eq_of_decrypt

/-! ## Decryption undoes encryption -/

theorem applyKeystream_eq {key iv : Bytes} (data : Bytes) (hkey : key.length = 16)
    (hiv : iv.length = 16) :
    applyKeystream key iv data = .ok (EciesCrypto.aes128Ctr key iv data) := by
  simp [applyKeystream, ensureKeySize, rejectIf_neg, hkey, hiv]

theorem aes256CbcEncrypt_eq {key : Bytes} (iv : Octets 16) (plaintext : Bytes)
    (hkey : key.length = 32) :
    aes256CbcEncrypt key iv plaintext =
      .ok (iv.bytes ++ EciesCrypto.aes256CbcEncrypt key iv.bytes plaintext) := by
  simp [aes256CbcEncrypt, ensureKeySize, rejectIf_neg, hkey]

theorem EciesSecp256k1.length_deriveKeys (sharedSecret : Bytes) :
    (deriveKeys sharedSecret).1.length = 16 := by
  rw [deriveKeys, length_slice]
  simp [kdf, Octets.length_eq]

theorem EciesX25519.length_deriveKeys (sharedSecret : Bytes) :
    (deriveKeys sharedSecret).1.length = 32 := by
  rw [deriveKeys, length_slice]
  simp [Octets.length_eq]

theorem EciesSecp256r1.length_deriveKeys (ephemeralPublicKey sharedSecretX : Bytes) :
    (deriveKeys ephemeralPublicKey sharedSecretX).1.length = 32 := by
  rw [deriveKeys, length_slice]
  simp [derivationKey, Octets.length_eq]

omit [EciesCrypto] in
theorem EciesSecp256k1.parts_append (ephemeral : Octets 65) (cipher : Bytes) (code : Octets 32) :
    ephemeralPublicBytes (ephemeral.bytes ++ (cipher ++ code.bytes)) = ephemeral.bytes ∧
      cipherWithIv (ephemeral.bytes ++ (cipher ++ code.bytes)) = cipher ∧
      receivedHmac (ephemeral.bytes ++ (cipher ++ code.bytes)) = code.bytes := by
  have hlength : (ephemeral.bytes ++ (cipher ++ code.bytes)).length - 32 =
      (ephemeral.bytes ++ cipher).length := by
    simp only [List.length_append, ephemeral.length_eq, code.length_eq]
    omega
  refine ⟨?_, ?_, ?_⟩
  · exact slice_append (a := []) rfl (by simp [ephemeral.length_eq])
  · apply slice_append ephemeral.length_eq.symm
    rw [hlength, List.length_append]
  · rw [receivedHmac, hlength, ← List.append_assoc, List.drop_left]

omit [EciesCrypto] in
theorem EciesX25519.parts_append (vector : Octets 16) (ephemeral code : Octets 32) (data : Bytes) :
    iv (vector.bytes ++ (ephemeral.bytes ++ (code.bytes ++ data))) = vector.bytes ∧
      ephemeralPublicBytes (vector.bytes ++ (ephemeral.bytes ++ (code.bytes ++ data))) =
        ephemeral.bytes ∧
      receivedMac (vector.bytes ++ (ephemeral.bytes ++ (code.bytes ++ data))) = code.bytes ∧
      encryptedData (vector.bytes ++ (ephemeral.bytes ++ (code.bytes ++ data))) = data := by
  refine ⟨?_, ?_, ?_, ?_⟩
  · exact slice_append (a := []) rfl (by simp [vector.length_eq])
  · exact slice_append vector.length_eq.symm (by rw [vector.length_eq, ephemeral.length_eq])
  · rw [receivedMac, ← List.append_assoc]
    apply slice_append <;> simp [vector.length_eq, ephemeral.length_eq, code.length_eq]
  · rw [encryptedData, ← List.append_assoc, ← List.append_assoc]
    apply List.drop_left'
    simp [vector.length_eq, ephemeral.length_eq, code.length_eq]

omit [EciesCrypto] in
theorem EciesSecp256r1.parts_append (ephemeral : Octets 65) (data : Bytes) (code : Octets 64)
    (vector : Octets 16) :
    ephemeralPublicBytes (ephemeral.bytes ++ (data ++ (code.bytes ++ vector.bytes))) =
        ephemeral.bytes ∧
      encryptedData (ephemeral.bytes ++ (data ++ (code.bytes ++ vector.bytes))) = data ∧
      receivedHmac (ephemeral.bytes ++ (data ++ (code.bytes ++ vector.bytes))) = code.bytes ∧
      iv (ephemeral.bytes ++ (data ++ (code.bytes ++ vector.bytes))) = vector.bytes := by
  have hlength : (ephemeral.bytes ++ (data ++ (code.bytes ++ vector.bytes))).length =
      65 + data.length + 80 := by
    simp only [List.length_append, ephemeral.length_eq, code.length_eq, vector.length_eq]
    omega
  refine ⟨?_, ?_, ?_, ?_⟩
  · exact slice_append (a := []) rfl (by simp [ephemeral.length_eq])
  · apply slice_append ephemeral.length_eq.symm
    rw [hlength, ephemeral.length_eq, Nat.add_sub_cancel]
  · rw [receivedHmac, hlength, ← List.append_assoc]
    apply slice_append <;> simp only [List.length_append, ephemeral.length_eq, code.length_eq] <;>
      omega
  · rw [iv, hlength, ← List.append_assoc, ← List.append_assoc]
    apply List.drop_left'
    simp only [List.length_append, ephemeral.length_eq, code.length_eq]
    omega

section Lawful

variable [LawfulEciesCrypto]

theorem applyKeystream_aes128Ctr {key : Bytes} (iv : Octets 16) (plaintext : Bytes)
    (hkey : key.length = 16) :
    applyKeystream key iv.bytes (EciesCrypto.aes128Ctr key iv.bytes plaintext) = .ok plaintext := by
  rw [applyKeystream_eq _ hkey iv.length_eq, LawfulEciesCrypto.aes128Ctr_aes128Ctr]

theorem aes256CbcDecrypt_eq {key : Bytes} (iv : Octets 16) (plaintext : Bytes)
    (hkey : key.length = 32) :
    aes256CbcDecrypt key (iv.bytes ++ EciesCrypto.aes256CbcEncrypt key iv.bytes plaintext) =
      .ok plaintext := by
  have hlength :
      ¬ (iv.bytes ++ EciesCrypto.aes256CbcEncrypt key iv.bytes plaintext).length < 16 := by
    rw [List.length_append, iv.length_eq]
    omega
  simp only [aes256CbcDecrypt, ensureKeySize, splitIv, rejectIf_neg hlength,
    rejectIf_neg (not_not.mpr hkey), ok_bind, pure_eq_ok, List.take_left' iv.length_eq,
    List.drop_left' iv.length_eq, LawfulEciesCrypto.aes256CbcDecrypt_encrypt, Option.elim_some]

namespace EciesSecp256k1

variable {privateKey : Octets 32} {ephemeral : Octets 65} {secret : Octets 32} {vector : Octets 16}
  {data : Bytes}

omit [LawfulEciesCrypto] in
/-- The parts of a message that carries its code. -/
theorem decrypt_append {point : Octets 33}
    (hpoint : EciesCrypto.k256Point ephemeral.bytes = some point)
    (hsecret : EciesCrypto.k256DiffieHellman privateKey point = secret) :
    decrypt privateKey (ephemeral.bytes ++ (vector.bytes ++ data ++
        (EciesCrypto.hmacSha256 (deriveKeys secret.bytes).2 (vector.bytes ++ data)).bytes)) =
      applyKeystream (deriveKeys secret.bytes).1 vector.bytes data := by
  generalize hcode :
    EciesCrypto.hmacSha256 (deriveKeys secret.bytes).2 (vector.bytes ++ data) = code
  obtain ⟨hephemeral, hcipher, hreceived⟩ := parts_append ephemeral (vector.bytes ++ data) code
  have hlength : ¬ (ephemeral.bytes ++ (vector.bytes ++ data ++ code.bytes)).length < 113 := by
    simp only [List.length_append, ephemeral.length_eq, vector.length_eq, code.length_eq]
    omega
  have hvector : ¬ (vector.bytes ++ data).length < 16 := by
    rw [List.length_append, vector.length_eq]
    omega
  have hiv : slice (vector.bytes ++ data) 0 16 = vector.bytes :=
    slice_append (a := []) rfl (by simp [vector.length_eq])
  simp only [decrypt, rejectIf_neg hlength, hephemeral, hcipher, hreceived, hpoint, hsecret, hcode,
    ok_bind, Option.elim_some, pure_eq_ok,
    rejectIf_neg (not_not.mpr (rfl : code.bytes = code.bytes)), rejectIf_neg hvector, hiv,
    List.drop_left' vector.length_eq]

/-- **What is encrypted for a key decrypts with it**, on secp256k1. -/
theorem decrypt_encrypt (privateKey ephemeralPrivate : Octets 32) (vector : Octets 16)
    (plaintext : Bytes) :
    ∃ message, encrypt (EciesCrypto.k256PublicKey privateKey) ephemeralPrivate vector plaintext =
      .ok message ∧ decrypt privateKey message = .ok plaintext := by
  -- both sides derive their keys from one secret, so the code that is checked is the one written
  have hsecret := LawfulEciesCrypto.k256DiffieHellman_comm privateKey ephemeralPrivate
  refine ⟨_, ?_, (decrypt_append (LawfulEciesCrypto.k256Point_uncompressed _) hsecret).trans
    (applyKeystream_aes128Ctr vector plaintext (length_deriveKeys _))⟩
  simp only [encrypt, applyKeystream_eq _ (length_deriveKeys _) vector.length_eq, ok_bind,
    pure_eq_ok]

end EciesSecp256k1

namespace EciesX25519

variable {privateKey ephemeral secret : Octets 32} {vector : Octets 16} {data : Bytes}

omit [LawfulEciesCrypto] in
theorem decrypt_append (hsecret : EciesCrypto.x25519 privateKey ephemeral = secret) :
    decrypt privateKey (vector.bytes ++ (ephemeral.bytes ++
        ((EciesCrypto.hmacSha256 (deriveKeys secret.bytes).2
          (vector.bytes ++ ephemeral.bytes ++ data)).bytes ++ data))) =
      aes256CbcDecrypt (deriveKeys secret.bytes).1 (vector.bytes ++ data) := by
  generalize hcode : EciesCrypto.hmacSha256 (deriveKeys secret.bytes).2
    (vector.bytes ++ ephemeral.bytes ++ data) = code
  obtain ⟨hiv, hephemeral, hreceived, hdata⟩ := parts_append vector ephemeral code data
  have hlength : ¬ (vector.bytes ++ (ephemeral.bytes ++ (code.bytes ++ data))).length < 80 := by
    simp only [List.length_append, ephemeral.length_eq, vector.length_eq, code.length_eq]
    omega
  simp only [decrypt, rejectIf_neg hlength, macInput, hiv, hephemeral, hreceived, hdata, hsecret,
    hcode, ok_bind, Octets.ofBytes_bytes, Option.elim_some, pure_eq_ok,
    rejectIf_neg (not_not.mpr (rfl : code.bytes = code.bytes))]

/-- **What is encrypted for a key decrypts with it**, on X25519. -/
theorem decrypt_encrypt (privateKey ephemeralPrivate : Octets 32) (vector : Octets 16)
    (plaintext : Bytes) :
    ∃ message, encrypt (EciesCrypto.x25519PublicKey privateKey) ephemeralPrivate vector plaintext =
      .ok message ∧ decrypt privateKey message = .ok plaintext := by
  have hsecret := LawfulEciesCrypto.x25519_comm privateKey ephemeralPrivate
  refine ⟨_, ?_, (decrypt_append hsecret).trans
    (aes256CbcDecrypt_eq vector plaintext (length_deriveKeys _))⟩
  simp only [encrypt, aes256CbcEncrypt_eq vector plaintext (length_deriveKeys _), ok_bind,
    pure_eq_ok, List.drop_left' vector.length_eq]

end EciesX25519

namespace EciesSecp256r1

variable {privateKey : Octets 32} {ephemeral : Octets 65} {secret : Octets 32} {vector : Octets 16}
  {data : Bytes}

omit [LawfulEciesCrypto] in
theorem decrypt_append {point : Octets 33}
    (hpoint : EciesCrypto.p256Point ephemeral.bytes = some point)
    (hsecret : EciesCrypto.p256DiffieHellman privateKey point = secret) (hdata : 16 ≤ data.length) :
    decrypt privateKey (ephemeral.bytes ++ (data ++
        ((EciesCrypto.hmacSha512 (deriveKeys ephemeral.bytes secret.bytes).2
          (data ++ List.replicate 8 0)).bytes ++ vector.bytes))) =
      aes256CbcDecrypt (deriveKeys ephemeral.bytes secret.bytes).1 (vector.bytes ++ data) := by
  generalize hcode : EciesCrypto.hmacSha512 (deriveKeys ephemeral.bytes secret.bytes).2
    (data ++ List.replicate 8 0) = code
  obtain ⟨hephemeral, hencrypted, hreceived, hiv⟩ := parts_append ephemeral data code vector
  have hlength : ¬ (ephemeral.bytes ++ (data ++ (code.bytes ++ vector.bytes))).length < 161 := by
    simp only [List.length_append, ephemeral.length_eq, vector.length_eq, code.length_eq]
    omega
  simp only [decrypt, rejectIf_neg hlength, macInput, hiv, hephemeral, hreceived, hencrypted,
    hpoint, hsecret, hcode, ok_bind, Option.elim_some, pure_eq_ok,
    rejectIf_neg (not_not.mpr (rfl : code.bytes = code.bytes))]

/-- **What is encrypted for a key decrypts with it**, on secp256r1. -/
theorem decrypt_encrypt (privateKey ephemeralPrivate : Octets 32) (vector : Octets 16)
    (plaintext : Bytes) :
    ∃ message, encrypt (EciesCrypto.p256PublicKey privateKey) ephemeralPrivate vector plaintext =
      .ok message ∧ decrypt privateKey message = .ok plaintext := by
  have hsecret := LawfulEciesCrypto.p256DiffieHellman_comm privateKey ephemeralPrivate
  refine ⟨_, ?_, (decrypt_append (LawfulEciesCrypto.p256Point_uncompressed _) hsecret
    (LawfulEciesCrypto.length_aes256CbcEncrypt _ _ _)).trans
      (aes256CbcDecrypt_eq vector plaintext (length_deriveKeys _ _))⟩
  simp only [encrypt, aes256CbcEncrypt_eq vector plaintext (length_deriveKeys _ _), ok_bind,
    pure_eq_ok, List.drop_left' vector.length_eq]

end EciesSecp256r1

end Lawful

end Formats

/-! ## Samples -/

namespace EciesReference

open Reference (octets length_octets numberOf join)

/-! ### Values of the primitives -/

/-- Digests of the counter and secret, and of the second half of the first digest. -/
def sha256Table : List (Nat × Nat) :=
  [(0x100000001f40bb548d147b2c3cdcf635658c3fca87a3c1f85c7ac006e9b9e80d4dc70d84d,
    0x76dd1481c537ab786cf07ba8d04fd9d98089162872c11d36b932b3be2fe38be9),
   (0x18089162872c11d36b932b3be2fe38be9,
    0x6cf9e4ff33992f97d99295697766f97aca80e3917e3694bda21793429ca4d765)]

def sha512Table : List (Nat × Nat) :=
  [(0x1a84dc7c3c8f058b1b2dc4cd1e9b5dc0a7987f88b6a9564cde3391fc421159e77,
    join [0xc02b709dd3e8ea67294c28fdcf2ad6befc8f68474a5b8b20,
      0x1fd2774823426b0f5dfc1945b1f2cc3156aec9dda22b679c2a4d9d5dafaf18c5949e938b6109d5e4]),
   (join [0x1041f140146bfb1b251f84f4ddbe0d4cdcfd77afd98,
      0x4a9520e35794021f8312bb9eec995a08b1fa7704df3dcc0b50a9665263fb7711f95f9f8a449c5096,
      0xe47c892b4fe243908f378aa1c2a69538822e6ed908c3225d8692575507c649901245150a00000001],
    join [0x2536d72ad70ce08eb02ab5afec945353e55fe73e2e0d2e9e,
      0x3cf2a81fec01fa7545300d4c936640f06de93d570fff4e9f26406da9b44857475641966cea60df29]),
   (join [0x1041f140146bfb1b251f84f4ddbe0d4cdcfd77afd98,
      0x4a9520e35794021f8312bb9eec995a08b1fa7704df3dcc0b50a9665263fb7711f95f9f8a449c5096,
      0xe47c892b4fe243908f378aa1c2a69538822e6ed908c3225d8692575507c649901245150a00000002],
    join [0x2389a8ffff8adb160c25c01331f824abc7cfdbdbc8884af9,
      0x1c2f79f42d83b9d2c019d440234b4f327bf62c9c1a4a6a2ca7d0759fd10d479e914b14d2d6a1f082]),
   (join [0x1041f140146bfb1b251f84f4ddbe0d4cdcfd77afd98,
      0x4a9520e35794021f8312bb9eec995a08b1fa7704df3dcc0b50a9665263fb7711f95f9f8a449c5096,
      0xe47c892b4fe243908f378aa1c2a69538822e6ed908c3225d8692575507c649901245150a00000003],
    join [0xb059117d19b8fdb41501a100475a181d017b206567ce7fe8,
      0x53bbd492badcf2c410c0ced5562d15784987d8be2c837708e9f0738bf3ca493e71800cf4b9a023ef])]

def hmacSha256Table : List ((Nat × Nat) × Nat) :=
  [((0x16cf9e4ff33992f97d99295697766f97aca80e3917e3694bda21793429ca4d765,
    0x14142434445464748494a4b4c4d4e4f50706c4fb10a),
    0x4c76d945f16161fe27546588d9688cf441d8c81d04005153e8563d2d267c9f3c),
   ((0x15dfc1945b1f2cc3156aec9dda22b679c2a4d9d5dafaf18c5949e938b6109d5e4,
    join [0x14142434445464748494a4b4c4d4e4f505869aff450549732,
      0xcbaaed5e5df9b30a6da31cb0e5742bad5ad4a1a768f1a67b32ef1d4ec29a3d84915c99b88105a8f8]),
    0x3a59cb8e45ad40d99646c83217697c3957a473c4157431a843cd0c47f7bdda58)]

def hmacSha512Table : List ((Nat × Nat) × Nat) :=
  [((join [0x145300d4c936640f0,
      0x6de93d570fff4e9f26406da9b44857475641966cea60df292389a8ffff8adb160c25c01331f824ab,
      0xc7cfdbdbc8884af91c2f79f42d83b9d2c019d440234b4f327bf62c9c1a4a6a2ca7d0759fd10d479e,
      0x914b14d2d6a1f082b059117d19b8fdb41501a100475a181d017b206567ce7fe853bbd492badcf2c4],
    0x14954df2fffc26f7330f8a07f9d02ffce0000000000000000),
    join [0x9129b54f63cebf94c7861b2406e8cca17d330a98ba4e34dd,
      0xe193e32589f700d34001715d45083980703c05b79ec5ba5cf1e0a176dd16eefeb411488067bcdf55])]

/-- Encrypted blocks. -/
def aes128Table : List ((Nat × Nat) × Nat) :=
  [((0x176dd1481c537ab786cf07ba8d04fd9d9,
    0x14142434445464748494a4b4c4d4e4f50),
    0x180923dd65360b3f1b0d9e20ba8bb875)]

/-- Decrypted blocks. -/
def aes256Table : List ((Nat × Nat) × Nat) :=
  [((0x1c02b709dd3e8ea67294c28fdcf2ad6befc8f68474a5b8b201fd2774823426b0f,
    0x132ef1d4ec29a3d84915c99b88105a8f8),
    0x29272f282a4d4c43424140474645445b),
   ((0x12536d72ad70ce08eb02ab5afec945353e55fe73e2e0d2e9e3cf2a81fec01fa75,
    0x14954df2fffc26f7330f8a07f9d02ffce),
    0x29272f282a4d4c43424140474645445b)]

/-- The public keys of the ephemeral secret and of the recipient. -/
def k256PublicKeys : List (Nat × Nat) :=
  [(0x12122232425262728292a2b2c2d2e2f303132333435363738393a3b3c3d3e3f40,
    0x02207bba70bc66309baa582a6ac120fd52d68026c51f6326f8ccedcbd2c1b7eb82),
   (0x10102030405060708090a0b0c0d0e0f101112131415161718191a1b1c1d1e1f20,
    0x0284bf7562262bbd6940085748f3be6afa52ae317155181ece31b66351ccffa4b0)]

def k256Points : List (Nat × Nat) :=
  [(join [0x104207bba70bc66309baa582a6ac120fd52d68026c51f6326f8,
      0xccedcbd2c1b7eb828c18ff7dbee879a4335a05294dea1e99e251f4b3e3b020b507f87064993fb202],
    0x02207bba70bc66309baa582a6ac120fd52d68026c51f6326f8ccedcbd2c1b7eb82)]

def k256Secrets : List ((Nat × Nat) × Nat) :=
  [((0x10102030405060708090a0b0c0d0e0f101112131415161718191a1b1c1d1e1f20,
    0x102207bba70bc66309baa582a6ac120fd52d68026c51f6326f8ccedcbd2c1b7eb82),
    0xf40bb548d147b2c3cdcf635658c3fca87a3c1f85c7ac006e9b9e80d4dc70d84d),
   ((0x12122232425262728292a2b2c2d2e2f303132333435363738393a3b3c3d3e3f40,
    0x10284bf7562262bbd6940085748f3be6afa52ae317155181ece31b66351ccffa4b0),
    0xf40bb548d147b2c3cdcf635658c3fca87a3c1f85c7ac006e9b9e80d4dc70d84d)]

def p256PublicKeys : List (Nat × Nat) :=
  [(0x12122232425262728292a2b2c2d2e2f303132333435363738393a3b3c3d3e3f40,
    0x031f140146bfb1b251f84f4ddbe0d4cdcfd77afd984a9520e35794021f8312bb9e),
   (0x10102030405060708090a0b0c0d0e0f101112131415161718191a1b1c1d1e1f20,
    0x02515c3d6eb9e396b904d3feca7f54fdcd0cc1e997bf375dca515ad0a6c3b4035f)]

def p256Points : List (Nat × Nat) :=
  [(join [0x1041f140146bfb1b251f84f4ddbe0d4cdcfd77afd984a9520e3,
      0x5794021f8312bb9eec995a08b1fa7704df3dcc0b50a9665263fb7711f95f9f8a449c5096e47c892b],
    0x031f140146bfb1b251f84f4ddbe0d4cdcfd77afd984a9520e35794021f8312bb9e)]

def p256Secrets : List ((Nat × Nat) × Nat) :=
  [((0x10102030405060708090a0b0c0d0e0f101112131415161718191a1b1c1d1e1f20,
    0x1031f140146bfb1b251f84f4ddbe0d4cdcfd77afd984a9520e35794021f8312bb9e),
    0x4fe243908f378aa1c2a69538822e6ed908c3225d8692575507c649901245150a),
   ((0x12122232425262728292a2b2c2d2e2f303132333435363738393a3b3c3d3e3f40,
    0x102515c3d6eb9e396b904d3feca7f54fdcd0cc1e997bf375dca515ad0a6c3b4035f),
    0x4fe243908f378aa1c2a69538822e6ed908c3225d8692575507c649901245150a)]

def x25519PublicKeys : List (Nat × Nat) :=
  [(0x12122232425262728292a2b2c2d2e2f303132333435363738393a3b3c3d3e3f40,
    0x5869aff450549732cbaaed5e5df9b30a6da31cb0e5742bad5ad4a1a768f1a67b),
   (0x10102030405060708090a0b0c0d0e0f101112131415161718191a1b1c1d1e1f20,
    0x07a37cbc142093c8b755dc1b10e86cb426374ad16aa853ed0bdfc0b2b86d1c7c)]

def x25519Secrets : List ((Nat × Nat) × Nat) :=
  [((0x10102030405060708090a0b0c0d0e0f101112131415161718191a1b1c1d1e1f20,
    0x15869aff450549732cbaaed5e5df9b30a6da31cb0e5742bad5ad4a1a768f1a67b),
    0xa84dc7c3c8f058b1b2dc4cd1e9b5dc0a7987f88b6a9564cde3391fc421159e77),
   ((0x12122232425262728292a2b2c2d2e2f303132333435363738393a3b3c3d3e3f40,
    0x107a37cbc142093c8b755dc1b10e86cb426374ad16aa853ed0bdfc0b2b86d1c7c),
    0xa84dc7c3c8f058b1b2dc4cd1e9b5dc0a7987f88b6a9564cde3391fc421159e77)]

def entryOf (length : ℕ) (table : List ((Nat × Nat) × Nat)) (a b : Bytes) : Octets length :=
  ⟨octets length ((table.lookup (numberOf a, numberOf b)).getD 0), length_octets _ _⟩

def digestOf (length : ℕ) (table : List (Nat × Nat)) (message : Bytes) : Octets length :=
  ⟨octets length ((table.lookup (numberOf message)).getD 0), length_octets _ _⟩

def pointOf (table : List (Nat × Nat)) (bytes : Bytes) : Option (Octets 33) :=
  (table.lookup (numberOf bytes)).map fun point => ⟨octets 33 point, length_octets _ _⟩

def keyOf (length : ℕ) (table : List (Nat × Nat)) (secret : Octets 32) : Octets length :=
  digestOf length table secret.bytes

/-- The entry of a point is read backwards. -/
def uncompressedOf (table : List (Nat × Nat)) (point : Octets 33) : Octets 65 :=
  ⟨octets 65 (((table.find? fun entry => 256 ^ 33 + entry.2 = numberOf point.bytes).map
    Prod.fst).getD 0), length_octets _ _⟩

/-- The blocks of a cipher, the last of which may be short. -/
def blocks (bytes : Bytes) : List Bytes :=
  (List.range ((bytes.length + 15) / 16)).map fun i => slice bytes (16 * i) (16 * i + 16)

def xorBytes (a b : Bytes) : Bytes := List.zipWith (· ^^^ ·) a b

/-- Every block is added to the encrypted counter. -/
def ctr (key iv data : Bytes) : Bytes :=
  ((blocks data).mapIdx fun i block =>
    xorBytes block (entryOf 16 aes128Table key (octets 16 (numberOf iv + i))).bytes).flatten

def unpad (bytes : Bytes) : Option Bytes := do
  let count ← bytes.getLast?
  let length := bytes.length - count.toNat
  if 1 ≤ count.toNat ∧ count.toNat ≤ 16 ∧ bytes.drop length = List.replicate count.toNat count then
    some (bytes.take length)
  else none

/-- Every decrypted block is added to the encrypted one before it. -/
def cbc (key iv data : Bytes) : Option Bytes :=
  if data.length % 16 = 0 then
    unpad (List.zipWith (fun block previous =>
      xorBytes (entryOf 16 aes256Table key block).bytes previous) (blocks data)
        (iv :: blocks data)).flatten
  else none

/-- The entry of a decrypted block is read backwards. -/
def aes256Encrypted (key block : Bytes) : Bytes :=
  octets 16 (((aes256Table.find? fun entry => entry.1.1 = numberOf key ∧
    256 ^ 16 + entry.2 = numberOf block).map fun entry => entry.1.2).getD 0)

def pad (bytes : Bytes) : Bytes :=
  let count := 16 - bytes.length % 16
  bytes ++ List.replicate count (UInt8.ofNat count)

/-- Every block is added to the encrypted one before it. -/
def cbcEncrypt (key iv data : Bytes) : Bytes :=
  ((blocks (pad data)).foldl (fun (previous, result) block =>
    let encrypted := aes256Encrypted key (xorBytes block previous)
    (encrypted, result ++ encrypted)) (iv, [])).2

/-- The primitives at the values of the samples. -/
scoped instance eciesCrypto : EciesCrypto where
  sha256 := digestOf 32 sha256Table
  sha512 := digestOf 64 sha512Table
  hmacSha256 := entryOf 32 hmacSha256Table
  hmacSha512 := entryOf 64 hmacSha512Table
  aes128Ctr := ctr
  aes256CbcEncrypt := cbcEncrypt
  aes256CbcDecrypt := cbc
  k256PublicKey := keyOf 33 k256PublicKeys
  k256Uncompressed := uncompressedOf k256Points
  p256PublicKey := keyOf 33 p256PublicKeys
  p256Uncompressed := uncompressedOf p256Points
  x25519PublicKey := keyOf 32 x25519PublicKeys
  k256Point := pointOf k256Points
  k256DiffieHellman secret point := entryOf 32 k256Secrets secret.bytes point.bytes
  p256Point := pointOf p256Points
  p256DiffieHellman secret point := entryOf 32 p256Secrets secret.bytes point.bytes
  x25519 secret point := entryOf 32 x25519Secrets secret.bytes point.bytes

/-! ### Messages -/

def privateKey : Octets 32 :=
  ⟨octets 32 0x0102030405060708090a0b0c0d0e0f101112131415161718191a1b1c1d1e1f20, length_octets _ _⟩

def ephemeralPrivate : Octets 32 :=
  ⟨octets 32 0x2122232425262728292a2b2c2d2e2f303132333435363738393a3b3c3d3e3f40, length_octets _ _⟩

def vector : Octets 16 := ⟨octets 16 0x4142434445464748494a4b4c4d4e4f50, length_octets _ _⟩

def hello : Bytes := octets 5 0x68656c6c6f

def iello : Bytes := octets 5 0x69656c6c6f

def secp256k1Message : Bytes :=
  octets 118 (join [0x04207bba70bc66309baa582a6ac120fd52d68026c51f6326f8ccedcbd2c1b7eb828c18ff7dbe,
      0xe879a4335a05294dea1e99e251f4b3e3b020b507f87064993fb2024142434445464748494a4b4c4d,
      0x4e4f50706c4fb10a4c76d945f16161fe27546588d9688cf441d8c81d04005153e8563d2d267c9f3c])

def x25519Message : Bytes :=
  octets 96 (join [0x4142434445464748494a4b4c4d4e4f50,
      0x5869aff450549732cbaaed5e5df9b30a6da31cb0e5742bad5ad4a1a768f1a67b3a59cb8e45ad40d9,
      0x9646c83217697c3957a473c4157431a843cd0c47f7bdda5832ef1d4ec29a3d84915c99b88105a8f8])

def secp256r1Message : Bytes :=
  octets 161 (join [0x04,
      0x1f140146bfb1b251f84f4ddbe0d4cdcfd77afd984a9520e35794021f8312bb9eec995a08b1fa7704,
      0xdf3dcc0b50a9665263fb7711f95f9f8a449c5096e47c892b4954df2fffc26f7330f8a07f9d02ffce,
      0x9129b54f63cebf94c7861b2406e8cca17d330a98ba4e34dde193e32589f700d34001715d45083980,
      0x703c05b79ec5ba5cf1e0a176dd16eefeb411488067bcdf554142434445464748494a4b4c4d4e4f50])

/-- The same message with one bit of the initialization vector flipped. -/
def secp256r1Altered : Bytes :=
  octets 161 (join [0x04,
      0x1f140146bfb1b251f84f4ddbe0d4cdcfd77afd984a9520e35794021f8312bb9eec995a08b1fa7704,
      0xdf3dcc0b50a9665263fb7711f95f9f8a449c5096e47c892b4954df2fffc26f7330f8a07f9d02ffce,
      0x9129b54f63cebf94c7861b2406e8cca17d330a98ba4e34dde193e32589f700d34001715d45083980,
      0x703c05b79ec5ba5cf1e0a176dd16eefeb411488067bcdf554042434445464748494a4b4c4d4e4f50])

end EciesReference

section Samples

open scoped EciesReference
open EciesReference

example : EciesSecp256r1.encrypt (EciesCrypto.p256PublicKey privateKey) ephemeralPrivate vector
    hello = .ok secp256r1Message := by
  decide +kernel

example : EciesX25519.encrypt (EciesCrypto.x25519PublicKey privateKey) ephemeralPrivate vector
    hello = .ok x25519Message := by
  decide +kernel

example : EciesSecp256k1.encrypt (EciesCrypto.k256PublicKey privateKey) ephemeralPrivate vector
    hello = .ok secp256k1Message := by
  decide +kernel

theorem EciesReference.decrypt_secp256k1Message :
    EciesSecp256k1.decrypt privateKey secp256k1Message = .ok hello := by
  decide +kernel

theorem EciesReference.decrypt_x25519Message :
    EciesX25519.decrypt privateKey x25519Message = .ok hello := by
  decide +kernel

theorem EciesReference.decrypt_secp256r1Message :
    EciesSecp256r1.decrypt privateKey secp256r1Message = .ok hello := by
  decide +kernel

/-- The altered message is accepted, and decrypts to another text. -/
theorem EciesReference.decrypt_secp256r1Altered :
    EciesSecp256r1.decrypt privateKey secp256r1Altered = .ok iello := by
  decide +kernel

/-- The code does not tell the two messages apart. -/
theorem EciesReference.altered_shares :
    EciesSecp256r1.ephemeralPublicBytes secp256r1Message =
        EciesSecp256r1.ephemeralPublicBytes secp256r1Altered ∧
      EciesSecp256r1.receivedHmac secp256r1Message =
        EciesSecp256r1.receivedHmac secp256r1Altered ∧
      CodesDiffer EciesCrypto.hmacSha512
        [EciesSecp256r1.macInput secp256r1Message, EciesSecp256r1.macInput secp256r1Altered] := by
  have hinput : EciesSecp256r1.macInput secp256r1Altered =
      EciesSecp256r1.macInput secp256r1Message := by
    decide +kernel
  refine ⟨by decide +kernel, by decide +kernel, ?_⟩
  rw [hinput]
  exact codesDiffer_self _ _

/-- Two messages with one ephemeral key and one code are accepted and decrypt to two texts. -/
theorem not_messages_eq_of_decrypt :
    EciesSecp256r1.decrypt privateKey secp256r1Message = .ok hello ∧
      EciesSecp256r1.decrypt privateKey secp256r1Altered = .ok iello ∧
      EciesSecp256r1.ephemeralPublicBytes secp256r1Message =
        EciesSecp256r1.ephemeralPublicBytes secp256r1Altered ∧
      EciesSecp256r1.receivedHmac secp256r1Message =
        EciesSecp256r1.receivedHmac secp256r1Altered ∧
      CodesDiffer EciesCrypto.hmacSha512
        [EciesSecp256r1.macInput secp256r1Message, EciesSecp256r1.macInput secp256r1Altered] ∧
      secp256r1Message ≠ secp256r1Altered ∧ hello ≠ iello := by
  obtain ⟨hephemeral, hcode, hdiffer⟩ := altered_shares
  exact ⟨decrypt_secp256r1Message, decrypt_secp256r1Altered, hephemeral, hcode, hdiffer,
    by decide +kernel, by decide +kernel⟩

/-- The first two messages have one text each, the two on secp256r1 differ at the end only. -/
theorem messages_eq_of_decrypt_sample :
    (∀ text, EciesSecp256k1.decrypt privateKey secp256k1Message = .ok text → hello = text) ∧
      (∀ text, EciesX25519.decrypt privateKey x25519Message = .ok text → hello = text) ∧
      EciesSecp256r1.covered secp256r1Message = EciesSecp256r1.covered secp256r1Altered := by
  refine ⟨fun text h => ?_, fun text h => ?_, ?_⟩
  · exact ((messages_eq_of_decrypt privateKey _ _ _ _).1 decrypt_secp256k1Message h rfl rfl
      (codesDiffer_self _ _)).2
  · exact ((messages_eq_of_decrypt privateKey _ _ _ _).2.1 decrypt_x25519Message h rfl rfl
      (codesDiffer_self _ _)).2
  · obtain ⟨hephemeral, hcode, hdiffer⟩ := altered_shares
    exact ((messages_eq_of_decrypt privateKey _ _ _ _).2.2 decrypt_secp256r1Message
      decrypt_secp256r1Altered hephemeral hcode hdiffer).1

end Samples

end KeetaNode
