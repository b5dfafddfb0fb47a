import KeetaNode.Crypto.Reference

/-!
# Derived identifiers

An identifier's key is a digest of a seed and an index, and the seed is a digest of the
creator's typed key and a block hash. Neither input is framed, but both end in a part of
fixed length, so that distinct derivations only meet where the digest does.

- `keetanetwork-account/src/account.rs` (`generate_identifier`, `to_opening_hash`)
- `keetanetwork-account/src/utils.rs` (`combine_seed_and_index`, `create_identifier_key`)
-/

namespace KeetaNode

open ByteCodec

/-- No two of the inputs have one digest. -/
def CollisionFree [Crypto] (inputs : List Bytes) : Prop :=
  ∀ x ∈ inputs, ∀ y ∈ inputs, hashDefault x = hashDefault y → x = y

namespace GenericAccount

/-! ## The index -/

/-- Four octets hold a number below `2 ^ 32`. -/
theorem octets_injective {m n : ℕ} (hm : m < 2 ^ 32) (hn : n < 2 ^ 32)
    (h24 : UInt8.ofNat (m / 2 ^ 24) = UInt8.ofNat (n / 2 ^ 24))
    (h16 : UInt8.ofNat (m / 2 ^ 16) = UInt8.ofNat (n / 2 ^ 16))
    (h8 : UInt8.ofNat (m / 2 ^ 8) = UInt8.ofNat (n / 2 ^ 8))
    (h0 : UInt8.ofNat m = UInt8.ofNat n) : m = n := by
  simp only [← UInt8.toNat_inj, UInt8.toNat_ofNat'] at h24 h16 h8 h0
  omega

theorem combineSeedAndIndex_inj {s t : BlockHash} {i j : UInt32} :
    combineSeedAndIndex s i = combineSeedAndIndex t j ↔ s = t ∧ i = j := by
  constructor
  · intro h
    obtain ⟨hseed, hindex⟩ := List.append_inj h (s.length_eq.trans t.length_eq.symm)
    simp only [List.cons.injEq, and_true] at hindex
    obtain ⟨h24, h16, h8, h0⟩ := hindex
    exact ⟨Octets.ext_bytes hseed,
      UInt32.toNat_inj.mp (octets_injective i.toNat_lt j.toNat_lt h24 h16 h8 h0)⟩
  · rintro ⟨rfl, rfl⟩
    rfl

section Derivation

variable [Crypto]

/-! ## What is hashed -/

/-- The hash a derivation takes place after; none stands for the opening hash. -/
def effectivePrevious (account : GenericAccount) (blockHash : Option BlockHash) : BlockHash :=
  blockHash.getD account.toOpeningHash

def seedData (account : GenericAccount) (blockHash : Option BlockHash) : Bytes :=
  account.toPublicKeyWithType ++ (account.effectivePrevious blockHash).bytes

/-- The inputs of the two digests of a derivation. -/
def derivationInputs (account : GenericAccount) (blockHash : Option BlockHash)
    (operationIndex : UInt32) : List Bytes :=
  [account.seedData blockHash,
    combineSeedAndIndex (hashDefault (account.seedData blockHash)) operationIndex]

theorem generateIdentifier_eq_ok {account derived : GenericAccount} {identifierType : KeyPairType}
    {blockHash : Option BlockHash} {operationIndex : UInt32}
    (h : account.generateIdentifier identifierType blockHash operationIndex = .ok derived) :
    derived.keyType = identifierType ∧
      derived.publicKey = (hashDefault (combineSeedAndIndex
        (hashDefault (account.seedData blockHash)) operationIndex)).bytes := by
  simp only [generateIdentifier, bind_eq_ok] at h
  obtain ⟨-, -, -, -, h⟩ := h
  split at h
  · obtain ⟨hkind, hkey, -⟩ := ofIdentifierKey_eq_ok.mp h
    exact ⟨hkind, hkey⟩
  · cases h

/-! ## Derivations are told apart -/

/-- The hash at the end has 32 octets, whatever the length of the key. -/
theorem seedData_inj {a b : GenericAccount} {p q : Option BlockHash} :
    a.seedData p = b.seedData q ↔ a = b ∧ a.effectivePrevious p = b.effectivePrevious q := by
  constructor
  · intro h
    obtain ⟨hkey, hhash⟩ := List.append_inj' h
      ((a.effectivePrevious p).length_eq.trans (b.effectivePrevious q).length_eq.symm)
    exact ⟨toPublicKeyWithType_injective hkey, Octets.ext_bytes hhash⟩
  · rintro ⟨rfl, h⟩
    simp only [seedData, h]

/-- **Two derivations give one identifier exactly when they are the same derivation**: the
same creator, kind, effective previous hash and index. -/
theorem generateIdentifier_inj {a₁ a₂ d₁ d₂ : GenericAccount} {k₁ k₂ : KeyPairType}
    {p₁ p₂ : Option BlockHash} {i₁ i₂ : UInt32}
    (h₁ : a₁.generateIdentifier k₁ p₁ i₁ = .ok d₁) (h₂ : a₂.generateIdentifier k₂ p₂ i₂ = .ok d₂)
    (hhash : CollisionFree (a₁.derivationInputs p₁ i₁ ++ a₂.derivationInputs p₂ i₂)) :
    (d₁.keyType = d₂.keyType ∧ d₁.publicKey = d₂.publicKey) ↔
      (a₁.keyType = a₂.keyType ∧ a₁.publicKey = a₂.publicKey) ∧ k₁ = k₂ ∧
        a₁.effectivePrevious p₁ = a₂.effectivePrevious p₂ ∧ i₁ = i₂ := by
  obtain ⟨hkind₁, hkey₁⟩ := generateIdentifier_eq_ok h₁
  obtain ⟨hkind₂, hkey₂⟩ := generateIdentifier_eq_ok h₂
  rw [hkind₁, hkind₂, hkey₁, hkey₂]
  constructor
  · rintro ⟨hkind, hkey⟩
    -- the outer digest gives seed and index, the inner one account and hash
    have houter := hhash _ (by simp [derivationInputs]) _ (by simp [derivationInputs])
      (Octets.ext_bytes hkey)
    obtain ⟨hseed, hindex⟩ := combineSeedAndIndex_inj.mp houter
    have hinner := hhash _ (by simp [derivationInputs]) _ (by simp [derivationInputs]) hseed
    obtain ⟨rfl, hprevious⟩ := seedData_inj.mp hinner
    exact ⟨⟨rfl, rfl⟩, hkind, hprevious, hindex⟩
  · rintro ⟨⟨hkind, hkey⟩, rfl, hprevious, rfl⟩
    have hseed := seedData_inj.mpr ⟨ext_typed hkind hkey, hprevious⟩
    rw [hseed]
    exact ⟨rfl, rfl⟩

/-! ## Networks -/

omit [Crypto] in
/-- The number of a network in the last eight of thirty-two octets, high octet first. -/
def networkSeed (networkId : UInt64) : BlockHash :=
  ⟨List.replicate 24 0 ++ [UInt8.ofNat (networkId.toNat / 2 ^ 56),
    UInt8.ofNat (networkId.toNat / 2 ^ 48), UInt8.ofNat (networkId.toNat / 2 ^ 40),
    UInt8.ofNat (networkId.toNat / 2 ^ 32), UInt8.ofNat (networkId.toNat / 2 ^ 24),
    UInt8.ofNat (networkId.toNat / 2 ^ 16), UInt8.ofNat (networkId.toNat / 2 ^ 8),
    UInt8.ofNat networkId.toNat], rfl⟩

def generateNetworkAddress (networkId : UInt64) : Except AccountError GenericAccount :=
  ofIdentifierKey .network KeyPairType.algorithm_network
    (hashDefault (combineSeedAndIndex (networkSeed networkId) 0)).bytes

omit [Crypto] in
theorem networkSeed_injective : Function.Injective networkSeed := by
  intro a b h
  have hbytes := congrArg Octets.bytes h
  simp only [networkSeed, List.append_cancel_left_eq, List.cons.injEq, and_true,
    ← UInt8.toNat_inj, UInt8.toNat_ofNat'] at hbytes
  have ha := a.toNat_lt
  have hb := b.toNat_lt
  apply UInt64.toNat_inj.mp
  omega

/-- Every network has an address. -/
theorem generateNetworkAddress_eq_ok {networkId : UInt64} {address : GenericAccount} :
    generateNetworkAddress networkId = .ok address ↔
      address.keyType = .network ∧ address.publicKey =
        (hashDefault (combineSeedAndIndex (networkSeed networkId) 0)).bytes := by
  rw [generateNetworkAddress, ofIdentifierKey_eq_ok]
  exact ⟨fun h => ⟨h.1, h.2.1⟩, fun h => ⟨h.1, h.2, (hashDefault _).length_eq⟩⟩

end Derivation

end GenericAccount

/-! ## Samples -/

section Samples

open scoped Reference

open Reference GenericAccount

namespace Sample

/-- The tokens an opening block of alice creates first and second, the second of them with
the opening hash spelled out. -/
def firstToken : Except AccountError GenericAccount := alice.generateIdentifier .token none 0

def secondToken : Except AccountError GenericAccount :=
  alice.generateIdentifier .token (some alice.toOpeningHash) 1

end Sample

instance decidableCollisionFree (inputs : List Bytes) : Decidable (CollisionFree inputs) :=
  inferInstanceAs (Decidable (∀ x ∈ inputs, ∀ y ∈ inputs, hashDefault x = hashDefault y → x = y))

/-- The opening block's first two tokens differ. -/
theorem generateIdentifier_inj_sample : ∃ d₁ d₂, Sample.firstToken = .ok d₁ ∧
    Sample.secondToken = .ok d₂ ∧ ¬ (d₁.keyType = d₂.keyType ∧ d₁.publicKey = d₂.publicKey) := by
  obtain ⟨d₁, h₁⟩ := exists_eq_ok (by decide +kernel : Sample.firstToken.isOk = true)
  obtain ⟨d₂, h₂⟩ := exists_eq_ok (by decide +kernel : Sample.secondToken.isOk = true)
  refine ⟨d₁, d₂, h₁, h₂, fun hsame => ?_⟩
  obtain ⟨-, -, -, hindex⟩ := (generateIdentifier_inj h₁ h₂ (by decide +kernel)).mp hsame
  exact absurd hindex (by decide)

end Samples

end KeetaNode
