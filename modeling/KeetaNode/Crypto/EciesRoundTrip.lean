import KeetaNode.Crypto.Ecies

/-!
# Integrated encryption comes back

What is encrypted for the holder of a key is decrypted with the key, in each of the three
formats. The primitives of the sample satisfy the laws for every key: ciphers and public keys
are permutations with the real values at the keys of the sample.

## Main results

- `ecies_decrypt_encrypt`: decryption undoes encryption in all formats
-/

namespace KeetaNode

open ByteCodec

/-- **Decryption returns what was encrypted**, in every format and for every key, vector and
plaintext. A message that is encrypted is never too short. -/
theorem ecies_decrypt_encrypt [EciesCrypto] [LawfulEciesCrypto]
    (privateKey ephemeralPrivate : Octets 32) (vector : Octets 16) (plaintext : Bytes) :
    (∃ message, EciesSecp256k1.encrypt (EciesCrypto.k256PublicKey privateKey) ephemeralPrivate
        vector plaintext = .ok message ∧ 113 ≤ message.length ∧
      EciesSecp256k1.decrypt privateKey message = .ok plaintext) ∧
    (∃ message, EciesX25519.encrypt (EciesCrypto.x25519PublicKey privateKey) ephemeralPrivate
        vector plaintext = .ok message ∧ 80 ≤ message.length ∧
      EciesX25519.decrypt privateKey message = .ok plaintext) ∧
    ∃ message, EciesSecp256r1.encrypt (EciesCrypto.p256PublicKey privateKey) ephemeralPrivate
        vector plaintext = .ok message ∧ 161 ≤ message.length ∧
      EciesSecp256r1.decrypt privateKey message = .ok plaintext := by
  refine ⟨?_, ?_, ?_⟩
  · obtain ⟨message, hencrypt, hdecrypt⟩ :=
      EciesSecp256k1.decrypt_encrypt privateKey ephemeralPrivate vector plaintext
    exact ⟨message, hencrypt, (EciesSecp256k1.accepted hdecrypt).1, hdecrypt⟩
  · obtain ⟨message, hencrypt, hdecrypt⟩ :=
      EciesX25519.decrypt_encrypt privateKey ephemeralPrivate vector plaintext
    exact ⟨message, hencrypt, (EciesX25519.accepted hdecrypt).1, hdecrypt⟩
  · obtain ⟨message, hencrypt, hdecrypt⟩ :=
      EciesSecp256r1.decrypt_encrypt privateKey ephemeralPrivate vector plaintext
    exact ⟨message, hencrypt, (EciesSecp256r1.accepted hdecrypt).1, hdecrypt⟩

/-! ## Lawful primitives -/

namespace EciesLawful

open Reference (octets length_octets numberOf)
open EciesReference (sha256Table sha512Table hmacSha256Table hmacSha512Table aes128Table
  aes256Table k256PublicKeys k256Points p256PublicKeys p256Points x25519PublicKeys entryOf digestOf
  xorBytes pad unpad privateKey ephemeralPrivate vector hello)

def fixed (length number : ℕ) : Octets length := ⟨octets length number, length_octets _ _⟩

/-- The exchanges of the entries of a table, one after the other. -/
def exchange {n : ℕ} (table : List (Octets n × Octets n)) : Equiv.Perm (Octets n) :=
  (table.map fun entry => Equiv.swap entry.1 entry.2).prod

/-- The first octets, with zeros after a string that is too short. -/
def firstOctets (n : ℕ) (bytes : Bytes) : Octets n :=
  ⟨(bytes ++ List.replicate n 0).take n, by simp⟩

def xorOctets {n : ℕ} (a b : Octets n) : Octets n :=
  ⟨xorBytes a.bytes b.bytes, by
    rw [xorBytes, List.length_zipWith, a.length_eq, b.length_eq, min_self]⟩

theorem firstOctets_append {n : ℕ} (a : Octets n) (rest : Bytes) :
    firstOctets n (a.bytes ++ rest) = a := by
  obtain ⟨bytes, hlength⟩ := a
  unfold firstOctets
  congr 1
  rw [List.append_assoc]
  exact List.take_left' hlength

theorem xorBytes_comm (a b : Bytes) : xorBytes a b = xorBytes b a :=
  List.zipWith_comm_of_comm UInt8.xor_comm

theorem xorOctets_comm {n : ℕ} (a b : Octets n) : xorOctets a b = xorOctets b a := by
  unfold xorOctets
  congr 1
  exact xorBytes_comm _ _

theorem xorBytes_xorBytes : ∀ {a b : Bytes}, a.length = b.length → xorBytes (xorBytes a b) b = a
  | [], _, _ => by simp [xorBytes]
  | x :: a, y :: b, h => by
    have ih := xorBytes_xorBytes (a := a) (b := b) (by simpa using h)
    simpa [xorBytes, UInt8.xor_assoc] using ih

theorem xorOctets_xorOctets {n : ℕ} (a b : Octets n) : xorOctets (xorOctets a b) b = a := by
  obtain ⟨bytes, hlength⟩ := a
  unfold xorOctets
  congr 1
  exact xorBytes_xorBytes (hlength.trans b.length_eq.symm)

/-! ### Ciphers -/

/-- The permutation of blocks that belongs to a key. -/
def blockCipher (table : List ((ℕ × ℕ) × ℕ)) (key : Bytes) : Equiv.Perm (Octets 16) :=
  exchange ((table.filter fun entry => entry.1.1 = numberOf key).map fun entry =>
    (fixed 16 entry.1.2, fixed 16 entry.2))

/-- Every octet is added to one of an encrypted counter. -/
def counterMode (key iv data : Bytes) : Bytes :=
  data.mapIdx fun i octet => octet ^^^
    (blockCipher aes128Table key (fixed 16 (numberOf iv + i / 16))).bytes.getD (i % 16) 0

/-- Every block is added to the encrypted one before it. -/
def chain (cipher : Equiv.Perm (Octets 16)) : Octets 16 → List (Octets 16) → List (Octets 16)
  | _, [] => []
  | previous, block :: blocks =>
    let encrypted := cipher (xorOctets block previous)
    encrypted :: chain cipher encrypted blocks

def unchain (cipher : Equiv.Perm (Octets 16)) : Octets 16 → List (Octets 16) → List (Octets 16)
  | _, [] => []
  | previous, encrypted :: blocks =>
    xorOctets (cipher.symm encrypted) previous :: unchain cipher encrypted blocks

def splitBlocks : ℕ → Bytes → List (Octets 16)
  | 0, _ => []
  | count + 1, bytes => firstOctets 16 bytes :: splitBlocks count (bytes.drop 16)

def joinBlocks (blocks : List (Octets 16)) : Bytes := blocks.flatMap Octets.bytes

def chainEncrypt (key iv data : Bytes) : Bytes :=
  joinBlocks (chain (blockCipher aes256Table key) (firstOctets 16 iv)
    (splitBlocks ((pad data).length / 16) (pad data)))

def chainDecrypt (key iv data : Bytes) : Option Bytes :=
  if data.length % 16 = 0 then
    unpad (joinBlocks (unchain (blockCipher aes256Table key) (firstOctets 16 iv)
      (splitBlocks (data.length / 16) data)))
  else none

theorem counterMode_counterMode (key iv data : Bytes) :
    counterMode key iv (counterMode key iv data) = data := by
  unfold counterMode
  rw [List.mapIdx_mapIdx]
  refine List.ext_getElem (by simp) fun i _ _ => ?_
  simp

theorem unchain_chain (cipher : Equiv.Perm (Octets 16)) (previous : Octets 16)
    (blocks : List (Octets 16)) :
    unchain cipher previous (chain cipher previous blocks) = blocks := by
  induction blocks generalizing previous with
  | nil => rfl
  | cons block blocks ih =>
    simp only [chain, unchain, Equiv.symm_apply_apply, xorOctets_xorOctets, ih]

theorem length_chain (cipher : Equiv.Perm (Octets 16)) (previous : Octets 16)
    (blocks : List (Octets 16)) : (chain cipher previous blocks).length = blocks.length := by
  induction blocks generalizing previous with
  | nil => rfl
  | cons block blocks ih => simp [chain, ih]

theorem length_joinBlocks (blocks : List (Octets 16)) :
    (joinBlocks blocks).length = 16 * blocks.length := by
  induction blocks with
  | nil => rfl
  | cons block blocks ih =>
    rw [joinBlocks, List.flatMap_cons, List.length_append, block.length_eq, ← joinBlocks, ih,
      List.length_cons]
    omega

theorem splitBlocks_joinBlocks (blocks : List (Octets 16)) :
    splitBlocks blocks.length (joinBlocks blocks) = blocks := by
  induction blocks with
  | nil => rfl
  | cons block blocks ih =>
    rw [joinBlocks, List.flatMap_cons, List.length_cons, splitBlocks, firstOctets_append,
      List.drop_left' block.length_eq, ← joinBlocks, ih]

theorem joinBlocks_splitBlocks {count : ℕ} {bytes : Bytes} (h : bytes.length = 16 * count) :
    joinBlocks (splitBlocks count bytes) = bytes := by
  induction count generalizing bytes with
  | zero => exact (List.length_eq_zero_iff.mp (by omega)).symm
  | succ count ih =>
    have hdrop : (bytes.drop 16).length = 16 * count := by
      rw [List.length_drop]
      omega
    have hfirst : (firstOctets 16 bytes).bytes = bytes.take 16 :=
      List.take_append_of_le_length (by omega)
    rw [splitBlocks, joinBlocks, List.flatMap_cons, hfirst, ← joinBlocks, ih hdrop,
      List.take_append_drop]

theorem length_pad (data : Bytes) : ∃ count, (pad data).length = 16 * (count + 1) := by
  refine ⟨data.length / 16, ?_⟩
  simp only [pad, List.length_append, List.length_replicate]
  omega

theorem unpad_pad (data : Bytes) : unpad (pad data) = some data := by
  obtain ⟨count, hcount⟩ : ∃ count, 16 - data.length % 16 = count + 1 :=
    ⟨15 - data.length % 16, by omega⟩
  have hoctet : (UInt8.ofNat (count + 1)).toNat = count + 1 := by
    rw [UInt8.toNat_ofNat']
    omega
  have hlast : (pad data).getLast? = some (UInt8.ofNat (count + 1)) := by
    simp [pad, hcount, List.replicate_succ']
  have hpad : pad data = data ++ List.replicate (count + 1) (UInt8.ofNat (count + 1)) := by
    simp only [pad, hcount]
  have hlength : (pad data).length - (count + 1) = data.length := by
    rw [hpad, List.length_append, List.length_replicate, Nat.add_sub_cancel]
  unfold unpad
  rw [hlast]
  simp only [Option.bind_eq_bind, Option.bind_some, hoctet, hlength]
  rw [hpad, List.drop_left, List.take_left, if_pos ⟨by omega, by omega, rfl⟩]

theorem chainDecrypt_chainEncrypt (key iv data : Bytes) :
    chainDecrypt key iv (chainEncrypt key iv data) = some data := by
  obtain ⟨count, hcount⟩ := length_pad data
  have hdiv : (pad data).length / 16 = count + 1 := by omega
  generalize hblocks : splitBlocks (count + 1) (pad data) = blocks
  have hjoin : joinBlocks blocks = pad data := by rw [← hblocks, joinBlocks_splitBlocks hcount]
  unfold chainDecrypt chainEncrypt
  rw [hdiv, hblocks, length_joinBlocks, Nat.mul_mod_right, if_pos rfl,
    Nat.mul_div_cancel_left _ (by decide), splitBlocks_joinBlocks, unchain_chain, hjoin, unpad_pad]

theorem length_chainEncrypt (key iv data : Bytes) : 16 ≤ (chainEncrypt key iv data).length := by
  obtain ⟨count, hcount⟩ := length_pad data
  have hdiv : (pad data).length / 16 = count + 1 := by omega
  rw [chainEncrypt, length_joinBlocks, length_chain, hdiv, splitBlocks, List.length_cons]
  omega

/-! ### Keys and points -/

def tagged (secret : Octets 32) : Octets 33 := ⟨0 :: secret.bytes, by simp [secret.length_eq]⟩

def untagged (key : Octets 33) : Octets 32 := ⟨key.bytes.drop 1, by simp [key.length_eq]⟩

/-- The secrets of the samples are exchanged with their public keys. -/
def compressedKeys (table : List (ℕ × ℕ)) : Equiv.Perm (Octets 33) :=
  exchange (table.map fun entry => (tagged (fixed 32 entry.1), fixed 33 entry.2))

def montgomeryKeys (table : List (ℕ × ℕ)) : Equiv.Perm (Octets 32) :=
  exchange (table.map fun entry => (fixed 32 entry.1, fixed 32 entry.2))

def extended (point : Octets 33) : Octets 65 :=
  ⟨point.bytes ++ List.replicate 32 0, by simp [point.length_eq]⟩

def points (table : List (ℕ × ℕ)) : Equiv.Perm (Octets 65) :=
  exchange (table.map fun entry => (fixed 65 entry.1, extended (fixed 33 entry.2)))

def pointOf (table : List (ℕ × ℕ)) (bytes : Bytes) : Option (Octets 33) := do
  let octets ← Octets.ofBytes 65 bytes
  let point := firstOctets 33 ((points table).symm octets).bytes
  if extended point = (points table).symm octets then some point else none

/-- The secret that two keys share, which is given for the keys of the samples. -/
def sharedBy (secret : ℕ) (a b : Octets 32) : Octets 32 :=
  if (a = privateKey ∧ b = ephemeralPrivate) ∨ (b = privateKey ∧ a = ephemeralPrivate) then
    fixed 32 secret
  else xorOctets a b

def k256Secret : ℕ := 0xf40bb548d147b2c3cdcf635658c3fca87a3c1f85c7ac006e9b9e80d4dc70d84d

def p256Secret : ℕ := 0x4fe243908f378aa1c2a69538822e6ed908c3225d8692575507c649901245150a

def x25519Secret : ℕ := 0xa84dc7c3c8f058b1b2dc4cd1e9b5dc0a7987f88b6a9564cde3391fc421159e77

scoped instance eciesCrypto : EciesCrypto where
  sha256 := digestOf 32 sha256Table
  sha512 := digestOf 64 sha512Table
  hmacSha256 := entryOf 32 hmacSha256Table
  hmacSha512 := entryOf 64 hmacSha512Table
  aes128Ctr := counterMode
  aes256CbcEncrypt := chainEncrypt
  aes256CbcDecrypt := chainDecrypt
  k256PublicKey secret := compressedKeys k256PublicKeys (tagged secret)
  k256Uncompressed point := points k256Points (extended point)
  k256Point := pointOf k256Points
  k256DiffieHellman secret point :=
    sharedBy k256Secret secret (untagged ((compressedKeys k256PublicKeys).symm point))
  p256PublicKey secret := compressedKeys p256PublicKeys (tagged secret)
  p256Uncompressed point := points p256Points (extended point)
  p256Point := pointOf p256Points
  p256DiffieHellman secret point :=
    sharedBy p256Secret secret (untagged ((compressedKeys p256PublicKeys).symm point))
  x25519PublicKey := montgomeryKeys x25519PublicKeys
  x25519 secret point := sharedBy x25519Secret secret ((montgomeryKeys x25519PublicKeys).symm point)

theorem untagged_tagged (secret : Octets 32) : untagged (tagged secret) = secret := rfl

theorem pointOf_points (table : List (ℕ × ℕ)) (point : Octets 33) :
    pointOf table (points table (extended point)).bytes = some point := by
  have hfirst : firstOctets 33 (extended point).bytes = point := firstOctets_append point _
  simp only [pointOf, Octets.ofBytes_bytes, Option.bind_eq_bind, Option.bind_some,
    Equiv.symm_apply_apply, hfirst, if_pos]

theorem sharedBy_comm (secret : ℕ) (a b : Octets 32) :
    sharedBy secret a b = sharedBy secret b a := by
  unfold sharedBy
  rw [xorOctets_comm]
  simp only [or_comm]

scoped instance lawfulEciesCrypto : LawfulEciesCrypto where
  aes128Ctr_aes128Ctr := counterMode_counterMode
  aes256CbcDecrypt_encrypt := chainDecrypt_chainEncrypt
  length_aes256CbcEncrypt := length_chainEncrypt
  k256Point_uncompressed := pointOf_points k256Points
  k256DiffieHellman_comm a b := by
    simp only [EciesCrypto.k256DiffieHellman, EciesCrypto.k256PublicKey, Equiv.symm_apply_apply,
      untagged_tagged]
    exact sharedBy_comm _ a b
  p256Point_uncompressed := pointOf_points p256Points
  p256DiffieHellman_comm a b := by
    simp only [EciesCrypto.p256DiffieHellman, EciesCrypto.p256PublicKey, Equiv.symm_apply_apply,
      untagged_tagged]
    exact sharedBy_comm _ a b
  x25519_comm a b := by
    simp only [EciesCrypto.x25519, EciesCrypto.x25519PublicKey, Equiv.symm_apply_apply]
    exact sharedBy_comm _ a b

end EciesLawful

section Samples

open scoped EciesLawful
open EciesReference (privateKey ephemeralPrivate vector hello secp256k1Message x25519Message
  secp256r1Message)

/-- The messages of the samples are those of the lawful primitives as well. -/
theorem ecies_encrypt_hello :
    EciesSecp256k1.encrypt (EciesCrypto.k256PublicKey privateKey) ephemeralPrivate vector hello =
        .ok secp256k1Message ∧
      EciesX25519.encrypt (EciesCrypto.x25519PublicKey privateKey) ephemeralPrivate vector hello =
        .ok x25519Message ∧
      EciesSecp256r1.encrypt (EciesCrypto.p256PublicKey privateKey) ephemeralPrivate vector hello =
        .ok secp256r1Message := by
  refine ⟨?_, ?_, ?_⟩ <;> decide +kernel

theorem ecies_decrypt_encrypt_hello :
    EciesSecp256k1.decrypt privateKey secp256k1Message = .ok hello ∧
      EciesX25519.decrypt privateKey x25519Message = .ok hello ∧
      EciesSecp256r1.decrypt privateKey secp256r1Message = .ok hello := by
  obtain ⟨⟨a, ha, -, hk256⟩, ⟨b, hb, -, hx25519⟩, ⟨c, hc, -, hp256⟩⟩ :=
    ecies_decrypt_encrypt privateKey ephemeralPrivate vector hello
  obtain ⟨ha', hb', hc'⟩ := ecies_encrypt_hello
  obtain rfl := Except.ok.inj (ha.symm.trans ha')
  obtain rfl := Except.ok.inj (hb.symm.trans hb')
  obtain rfl := Except.ok.inj (hc.symm.trans hc')
  exact ⟨hk256, hx25519, hp256⟩

end Samples

end KeetaNode
