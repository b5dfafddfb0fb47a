import KeetaNode.Block.RoundTrip
import KeetaNode.Asn1.Reference

/-!
# Grants of permissions

What a permission set says about the raw bit field it was built from. A grant is
decided on the normalized flags alone: it never shrinks when raw bits are added, and
asking for two lists at once is asking for each. A set is the one that its own bits
give back exactly when `ACCESS` was not implied by other flags.

- `keetanetwork-block/src/permissions.rs`
- `keetanetwork-block/src/transport.rs`
-/

namespace KeetaNode

open ByteCodec

/-! ## Raw bit fields -/

/-- Every bit of `a` is set in `b`. -/
def BitsSubset (a b : Int) : Prop := ∀ n, a.testBit n = true → b.testBit n = true

/-- Normalizing the raw bits implies no `ACCESS`: it is set already, no known flag is
set, or a flag that replaces all others is. -/
def AccessGiven (raw : Int) : Prop :=
  bitSet raw BaseFlag.owner.offset ∨ bitSet raw BaseFlag.admin.offset ∨
    bitSet raw BaseFlag.access.offset ∨ ∀ flag : BaseFlag, bitSet raw flag.offset = false

theorem bitSet_iff_mem_rawFlags {raw : Int} {flag : BaseFlag} :
    bitSet raw flag.offset = true ↔ flag ∈ rawFlags raw := by
  rw [bitSet_eq_testBit, mem_rawFlags]

theorem rawFlags_eq_nil_iff {raw : Int} :
    rawFlags raw = [] ↔ ∀ flag : BaseFlag, bitSet raw flag.offset = false := by
  simp [rawFlags, List.filter_eq_nil_iff]

theorem rawFlags_subset {a b : Int} (h : BitsSubset a b) : rawFlags a ⊆ rawFlags b := by
  intro flag hflag
  exact mem_rawFlags.mpr (h _ (mem_rawFlags.mp hflag))

namespace BaseSet

variable {raw : Int} {set : BaseSet}

/-- What an accepted raw bit field is turned into. -/
theorem flags_of_tryFrom (h : tryFrom raw = .ok set) :
    set.flags = normalizedFlags (rawFlags raw) :=
  (normalizeBits_eq_ok.mp (tryFrom_eq_ok.mp h)).2.1

theorem bits_of_tryFrom (h : tryFrom raw = .ok set) :
    set.bits = rewriteOffsets raw set.flags :=
  (normalizeBits_eq_ok.mp (tryFrom_eq_ok.mp h)).2.2

/-- Bits at positions without a known flag are kept. -/
theorem testBit_unknown (h : tryFrom raw = .ok set) {n : Nat}
    (hn : ∀ flag : BaseFlag, flag.offset ≠ n) : set.bits.testBit n = raw.testBit n := by
  rw [bits_of_tryFrom h]
  exact (testBit_rewriteOffsets raw set.flags).2 n hn

/-- `ACCESS` is in place in the normalized flags exactly when it was given. -/
theorem accessInPlace_iff (h : tryFrom raw = .ok set) :
    AccessInPlace set.flags ↔ AccessGiven raw := by
  rw [flags_of_tryFrom h]
  simp only [AccessGiven, bitSet_iff_mem_rawFlags, ← rawFlags_eq_nil_iff]
  by_cases howner : .owner ∈ rawFlags raw
  · simp [normalizedFlags_owner howner, howner, AccessInPlace]
  by_cases hadmin : .admin ∈ rawFlags raw
  · simp [normalizedFlags_admin howner hadmin, hadmin, AccessInPlace]
  rw [normalizedFlags_plain howner hadmin]
  split <;> rename_i hcase
  · obtain ⟨hne, haccess⟩ := hcase
    simp [not_accessInPlace_append howner hadmin haccess hne, howner, hadmin, haccess, hne]
  · have hgiven : .access ∈ rawFlags raw ∨ rawFlags raw = [] := by
      by_contra hnone
      rw [not_or] at hnone
      exact hcase ⟨hnone.2, hnone.1⟩
    simp [accessInPlace_rawFlags hcase, hgiven]

end BaseSet

/-! ## Stability on the wire -/

section Wire

variable [Tlv Asn1.Tag Asn1.Asn1Error]

/-- The permissions are read back from their wire form, and from any octets it encodes to. -/
def Permissions.ComesBack (permissions : Permissions) : Prop :=
  permissionsFromTransport (permissionsToTransport permissions) = .ok permissions ∧
    ∀ bytes, Asn1.encodePermissions [] (permissionsToTransport permissions) = .ok bytes →
      ∃ wire, Asn1.readPermissions.run bytes = .ok (wire, []) ∧
        permissionsFromTransport wire = .ok permissions

/-- Normalization of `raw` to `set` is stable: the set's bits give the set again, bits
without a flag are kept, and permissions with this base set come back from the wire. -/
structure BaseSet.Stable (raw : Int) (set : BaseSet) : Prop where
  again : BaseSet.tryFrom set.bits = .ok set
  unknown : ∀ n, (∀ flag : BaseFlag, flag.offset ≠ n) → set.bits.testBit n = raw.testBit n
  comesBack : ∀ external, Permissions.ComesBack ⟨set, external⟩

variable [LawfulTlv Asn1.Tag Asn1.Asn1Error]

theorem Permissions.comesBack_of_onWire {permissions : Permissions}
    (h : permissions.onWire = permissions) : permissions.ComesBack := by
  have hback : permissionsFromTransport (permissionsToTransport permissions) =
      .ok permissions := by
    rw [permissionsFromTransport_toTransport, h]
  refine ⟨hback, fun bytes hbytes => ⟨permissionsToTransport permissions, ?_, hback⟩⟩
  exact (Asn1.encodePermissions_appends.nil hbytes).reads.all

/-- **A set is stable exactly when `ACCESS` was given.** -/
theorem BaseSet.stable_iff {raw : Int} {set : BaseSet} (h : tryFrom raw = .ok set) :
    set.Stable raw ↔ AccessGiven raw := by
  rw [← accessInPlace_iff h, ← onWire_eq_self_iff]
  constructor
  · intro hstable
    have hagain := hstable.again
    rw [tryFrom_bits, Except.ok.injEq] at hagain
    exact hagain
  · intro hself
    refine ⟨?_, fun n hn => testBit_unknown h hn, fun external => ?_⟩
    · rw [tryFrom_bits, hself]
    · apply Permissions.comesBack_of_onWire
      rw [Permissions.onWire_eq_self_iff]
      exact (onWire_eq_self_iff set).mp hself

/-- **Normalization is stable on the wire exactly when no `ACCESS` had to be implied.**
For two accepted raw bit fields: each set is stable, and the sets are equal when their
bits are, if and only if `ACCESS` was given in both. -/
theorem BaseSet.stable_and_eq_iff {rawA rawB : Int} {a b : BaseSet}
    (ha : tryFrom rawA = .ok a) (hb : tryFrom rawB = .ok b) :
    (a.Stable rawA ∧ b.Stable rawB ∧ (a = b ↔ a.bits = b.bits)) ↔
      AccessGiven rawA ∧ AccessGiven rawB := by
  rw [stable_iff ha, stable_iff hb]
  constructor
  · rintro ⟨hgivenA, hgivenB, -⟩
    exact ⟨hgivenA, hgivenB⟩
  · rintro ⟨hgivenA, hgivenB⟩
    refine ⟨hgivenA, hgivenB, ?_, ?_⟩
    · rintro rfl
      rfl
    · intro hbits
      apply (eq_iff_of_bits_eq hbits).mpr
      simp [(accessInPlace_iff ha).mpr hgivenA, (accessInPlace_iff hb).mpr hgivenB]

end Wire

/-! ## Sets of flags -/

/-- The bits at the offsets. -/
def bitsAt (offsets : List Nat) : Int :=
  offsets.foldl (fun bits offset => Int.lor bits (2 ^ offset)) 0

theorem testBit_bitsAt (offsets : List Nat) (n : Nat) :
    (bitsAt offsets).testBit n = decide (n ∈ offsets) := by
  have hloop : ∀ bits : Int, (offsets.foldl (fun bits offset => Int.lor bits (2 ^ offset))
      bits).testBit n = (bits.testBit n || decide (n ∈ offsets)) := by
    induction offsets with
    | nil => simp
    | cons offset offsets ih =>
      intro bits
      rw [List.foldl_cons, ih, Int.testBit_lor, testBit_two_pow, Bool.or_assoc]
      simp [eq_comm]
  rw [bitsAt, hloop, testBit_zero_int, Bool.false_or]

def BaseSet.fromFlags (flags : List BaseFlag) : Except BlockError BaseSet :=
  tryFrom (bitsAt (flags.map BaseFlag.offset))

def Permissions.fromFlags (flags : List BaseFlag) (externalOffsets : List UInt8) :
    Except BlockError Permissions := do
  return ⟨← BaseSet.fromFlags flags, bitsAt (externalOffsets.map UInt8.toNat)⟩

/-- The known bits of a set are its flags. -/
theorem BaseSet.testBit_flag (set : BaseSet) (flag : BaseFlag) :
    set.bits.testBit flag.offset = decide (flag ∈ set.flags) := by
  obtain ⟨raw, hraw⟩ := set.normalized
  rw [(normalizeBits_eq_ok.mp hraw).2.2]
  exact (testBit_rewriteOffsets raw set.flags).1 flag

/-- The flags of a set are accepted, and make the set without the bits that are no flag's. -/
theorem BaseSet.fromFlags_flags (set : BaseSet) :
    ∃ known, fromFlags set.flags = .ok known ∧ known.flags = set.onWire.flags ∧
      known.bits = bitsAt (set.flags.map BaseFlag.offset) := by
  have hflag : ∀ flag : BaseFlag,
      (bitsAt (set.flags.map BaseFlag.offset)).testBit flag.offset =
        set.bits.testBit flag.offset := by
    intro flag
    rw [testBit_bitsAt, testBit_flag]
    simp [BaseFlag.offset_injective.eq_iff]
  -- whether bits are accepted depends on the flags among them only
  have hraw : rawFlags (bitsAt (set.flags.map BaseFlag.offset)) = rawFlags set.bits := by
    unfold rawFlags
    apply List.filter_congr
    intro flag _
    rw [bitSet_eq_testBit, bitSet_eq_testBit, hflag]
  obtain ⟨hgroups, hflags, -⟩ := normalizeBits_eq_ok.mp (tryFrom_eq_ok.mp set.tryFrom_bits)
  have hbits : rewriteOffsets (bitsAt (set.flags.map BaseFlag.offset)) set.onWire.flags =
      bitsAt (set.flags.map BaseFlag.offset) := by
    apply rewriteOffsets_eq_self
    intro flag
    rw [hflag, testBit_flag]
    simp
  have hnormalized : normalizeBits (bitsAt (set.flags.map BaseFlag.offset)) =
      .ok (bitsAt (set.flags.map BaseFlag.offset), set.onWire.flags) :=
    normalizeBits_eq_ok.mpr ⟨hraw ▸ hgroups, hraw ▸ hflags, hbits.symm⟩
  exact ⟨⟨_, _, _, hnormalized⟩, tryFrom_eq_ok.mpr hnormalized, rfl, rfl⟩

/-- **The flags and offsets of a set make it again, as it comes from the wire, exactly when it has
no bit that is no flag's, and these are its offsets.** -/
theorem Permissions.fromFlags_eq_ok_onWire {permissions : Permissions} {offsets : List UInt8} :
    fromFlags permissions.base.flags offsets = .ok permissions.onWire ↔
      (∀ n, permissions.base.bits.testBit n = true → ∃ flag : BaseFlag, flag.offset = n) ∧
        permissions.external = bitsAt (offsets.map UInt8.toNat) := by
  obtain ⟨known, hknown, hflags, hbits⟩ := permissions.base.fromFlags_flags
  have hsame : known = permissions.base.onWire ↔
      ∀ n, permissions.base.bits.testBit n = true → ∃ flag : BaseFlag, flag.offset = n := by
    constructor
    · rintro rfl n hn
      change permissions.base.bits = _ at hbits
      rw [hbits, testBit_bitsAt, decide_eq_true_eq, List.mem_map] at hn
      obtain ⟨flag, -, hoffset⟩ := hn
      exact ⟨flag, hoffset⟩
    · intro hall
      refine BaseSet.ext_fields (eq_of_testBit_eq fun n => ?_) hflags
      show known.bits.testBit n = permissions.base.bits.testBit n
      by_cases hn : ∃ flag : BaseFlag, flag.offset = n
      · obtain ⟨flag, rfl⟩ := hn
        rw [hbits, testBit_bitsAt, BaseSet.testBit_flag]
        simp [BaseFlag.offset_injective.eq_iff]
      · have hunset : permissions.base.bits.testBit n = false := by
          rw [← Bool.not_eq_true]
          exact fun hset => hn (hall n hset)
        rw [hunset, hbits, testBit_bitsAt, decide_eq_false_iff_not, List.mem_map]
        rintro ⟨flag, -, hoffset⟩
        exact hn ⟨flag, hoffset⟩
  rw [fromFlags, hknown, ok_bind, pure_eq_ok, Except.ok.injEq, onWire, Permissions.mk.injEq, hsame,
    eq_comm (a := bitsAt _)]

theorem normalizeBits_updateInfo : normalizeBits 8 = .ok (9, [.updateInfo, .access]) := by
  rfl

theorem normalizeBits_accessUpdateInfo : normalizeBits 9 = .ok (9, [.access, .updateInfo]) := by
  rfl

theorem normalized_implied : ∃ raw, normalizeBits raw = .ok (9, [.updateInfo, .access]) :=
  ⟨8, normalizeBits_updateInfo⟩

theorem normalized_given : ∃ raw, normalizeBits raw = .ok (9, [.access, .updateInfo]) :=
  ⟨9, normalizeBits_accessUpdateInfo⟩

/-- The bits of `UPDATE_INFO` alone, which imply `ACCESS`. -/
def impliedAccess : BaseSet := ⟨9, [.updateInfo, .access], normalized_implied⟩

/-- The bits of `ACCESS` and `UPDATE_INFO`. -/
def givenAccess : BaseSet := ⟨9, [.access, .updateInfo], normalized_given⟩

section Sample

open scoped Asn1.Reference

theorem BaseSet.stable_and_eq_iff_sample :
    givenAccess.Stable 9 ∧ givenAccess.Stable 9 ∧
      (givenAccess = givenAccess ↔ givenAccess.bits = givenAccess.bits) := by
  have h : BaseSet.tryFrom 9 = .ok givenAccess :=
    BaseSet.tryFrom_eq_ok.mpr normalizeBits_accessUpdateInfo
  have hgiven : AccessGiven 9 := .inr (.inr (.inl (by decide +kernel)))
  exact (BaseSet.stable_and_eq_iff h h).mpr ⟨hgiven, hgiven⟩

end Sample

/-- `UPDATE_INFO` is accepted as a set that its own bits do not give back, that differs
from a set with the same bits, and that does not survive the wire. -/
theorem BaseSet.not_stable_sample :
    BaseSet.tryFrom 8 = .ok impliedAccess ∧ impliedAccess.bits = givenAccess.bits ∧
      impliedAccess ≠ givenAccess ∧ BaseSet.tryFrom impliedAccess.bits = .ok givenAccess ∧
        permissionsFromTransport (permissionsToTransport ⟨impliedAccess, 0⟩) =
          .ok ⟨givenAccess, 0⟩ := by
  have hagain : BaseSet.tryFrom impliedAccess.bits = .ok givenAccess :=
    BaseSet.tryFrom_eq_ok.mpr normalizeBits_accessUpdateInfo
  refine ⟨BaseSet.tryFrom_eq_ok.mpr normalizeBits_updateInfo, rfl, by decide, hagain, ?_⟩
  simp [permissionsFromTransport, permissionsToTransport, Permissions.fromBigints, hagain]

/-! ## What a set grants -/

/-- Whether a raw base field grants a flag: an owner everything, an administrator
everything but `OWNER`, and any flag `ACCESS`. -/
def GrantsFlag (raw : Int) (flag : BaseFlag) : Prop :=
  .owner ∈ rawFlags raw ∨ (.admin ∈ rawFlags raw ∧ flag ≠ .owner) ∨ flag ∈ rawFlags raw ∨
    (flag = .access ∧ rawFlags raw ≠ [])

/-- Whether raw base and external fields grant an external offset. -/
def GrantsOffset (raw external : Int) (offset : Nat) : Prop :=
  .owner ∈ rawFlags raw ∨ .admin ∈ rawFlags raw ∨
    (rawFlags raw ≠ [] ∧ external.testBit offset = true)

theorem GrantsFlag.mono {a b : Int} (h : BitsSubset a b) {flag : BaseFlag}
    (hgrant : GrantsFlag a flag) : GrantsFlag b flag := by
  have hsub := rawFlags_subset h
  rcases hgrant with howner | ⟨hadmin, hne⟩ | hmem | ⟨haccess, hne⟩
  · exact .inl (hsub howner)
  · exact .inr (.inl ⟨hsub hadmin, hne⟩)
  · exact .inr (.inr (.inl (hsub hmem)))
  · exact .inr (.inr (.inr ⟨haccess, fun hnil => hne (List.subset_nil.mp (hnil ▸ hsub))⟩))

theorem GrantsOffset.mono {a b extA extB : Int} (h : BitsSubset a b) (hext : BitsSubset extA extB)
    {offset : Nat} (hgrant : GrantsOffset a extA offset) : GrantsOffset b extB offset := by
  have hsub := rawFlags_subset h
  rcases hgrant with howner | hadmin | ⟨hne, hbit⟩
  · exact .inl (hsub howner)
  · exact .inr (.inl (hsub hadmin))
  · exact .inr (.inr ⟨fun hnil => hne (List.subset_nil.mp (hnil ▸ hsub)), hext _ hbit⟩)

namespace Permissions

theorem has_nil (permissions : Permissions) : permissions.has [] [] = true := by
  simp [has]

/-- A request that is not empty, with the shortcuts as disjuncts. -/
theorem has_iff (permissions : Permissions) {flags : List BaseFlag} {offsets : List Nat}
    (h : ¬ (flags = [] ∧ offsets = [])) :
    permissions.has flags offsets = true ↔
      .access ∈ permissions.base.flags ∧
        (.owner ∈ permissions.base.flags ∨
          (.owner ∉ flags ∧ .admin ∈ permissions.base.flags) ∨
          (∀ flag ∈ flags, flag ∈ permissions.base.flags) ∧
            ∀ offset ∈ offsets, permissions.external.testBit offset = true) := by
  unfold has
  rw [if_neg h]
  by_cases haccess : .access ∈ permissions.base.flags
  · by_cases howner : .owner ∈ permissions.base.flags
    · simp [BaseSet.hasFlags, haccess, howner]
    · by_cases hadmin : .owner ∉ flags ∧ .admin ∈ permissions.base.flags
      · simp [BaseSet.hasFlags, haccess, howner, hadmin.1, hadmin.2]
      · have hshort : ¬ (.owner ∉ flags ∧ permissions.base.hasFlags [.admin] = true) := by
          simpa [BaseSet.hasFlags] using hadmin
        rw [if_neg hshort]
        simp [BaseSet.hasFlags, haccess, howner, hadmin, bitSet_eq_testBit]
  · simp [BaseSet.hasFlags, haccess]

theorem has_flag (permissions : Permissions) (flag : BaseFlag) :
    permissions.has [flag] [] = true ↔
      .access ∈ permissions.base.flags ∧
        (.owner ∈ permissions.base.flags ∨ (flag ≠ .owner ∧ .admin ∈ permissions.base.flags) ∨
          flag ∈ permissions.base.flags) := by
  have hnot : BaseFlag.owner ∉ [flag] ↔ flag ≠ .owner := by
    rw [List.mem_singleton]
    exact ne_comm
  rw [has_iff permissions (by simp), hnot]
  simp

theorem has_offset (permissions : Permissions) (offset : Nat) :
    permissions.has [] [offset] = true ↔
      .access ∈ permissions.base.flags ∧
        (.owner ∈ permissions.base.flags ∨ .admin ∈ permissions.base.flags ∨
          permissions.external.testBit offset = true) := by
  rw [has_iff permissions (by simp)]
  simp

/-- **A request is granted exactly when each of its items is**, whichever shortcut the
set takes. -/
theorem has_iff_forall (permissions : Permissions) (flags : List BaseFlag) (offsets : List Nat) :
    permissions.has flags offsets = true ↔
      (∀ flag ∈ flags, permissions.has [flag] [] = true) ∧
        ∀ offset ∈ offsets, permissions.has [] [offset] = true := by
  by_cases hempty : flags = [] ∧ offsets = []
  · obtain ⟨rfl, rfl⟩ := hempty
    simp [has_nil]
  simp only [has_iff permissions hempty, has_flag, has_offset]
  constructor
  · rintro ⟨haccess, howner | ⟨hnot, hadmin⟩ | ⟨hflags, hoffsets⟩⟩
    · exact ⟨fun _ _ => ⟨haccess, .inl howner⟩, fun _ _ => ⟨haccess, .inl howner⟩⟩
    · refine ⟨fun flag hflag => ⟨haccess, .inr (.inl ⟨?_, hadmin⟩)⟩,
        fun _ _ => ⟨haccess, .inr (.inl hadmin)⟩⟩
      rintro rfl
      exact hnot hflag
    · exact ⟨fun flag hflag => ⟨haccess, .inr (.inr (hflags flag hflag))⟩,
        fun offset hoffset => ⟨haccess, .inr (.inr (hoffsets offset hoffset))⟩⟩
  · rintro ⟨hflags, hoffsets⟩
    -- some item is asked for, and it needs `ACCESS`
    have haccess : .access ∈ permissions.base.flags := by
      cases flags with
      | cons flag _ => exact (hflags flag (by simp)).1
      | nil =>
        cases offsets with
        | cons offset _ => exact (hoffsets offset (by simp)).1
        | nil => exact absurd ⟨rfl, rfl⟩ hempty
    refine ⟨haccess, ?_⟩
    by_cases howner : .owner ∈ permissions.base.flags
    · exact .inl howner
    have hnot : .owner ∉ flags := by
      intro hmem
      rcases (hflags _ hmem).2 with h | ⟨h, -⟩ | h
      · exact howner h
      · exact h rfl
      · exact howner h
    by_cases hadmin : .admin ∈ permissions.base.flags
    · exact .inr (.inl ⟨hnot, hadmin⟩)
    refine .inr (.inr ⟨fun flag hflag => ?_, fun offset hoffset => ?_⟩)
    · simpa [howner, hadmin] using (hflags flag hflag).2
    · simpa [howner, hadmin] using (hoffsets offset hoffset).2

variable {base external : Int} {permissions : Permissions}

theorem fromBigints_eq_ok :
    fromBigints base external = .ok permissions ↔
      BaseSet.tryFrom base = .ok permissions.base ∧ permissions.external = external := by
  simp only [fromBigints, bind_eq_ok, pure_eq_ok, Except.ok.injEq]
  constructor
  · rintro ⟨set, hset, rfl⟩
    exact ⟨hset, rfl⟩
  · rintro ⟨hset, rfl⟩
    exact ⟨permissions.base, hset, rfl⟩

end Permissions

/-- Membership in the normalized flags, from the raw ones. -/
theorem mem_normalizedFlags {flags : List BaseFlag} {flag : BaseFlag} :
    flag ∈ normalizedFlags flags ↔
      (flag = .access ∧ flags ≠ []) ∨ (flag = .owner ∧ .owner ∈ flags) ∨
        (flag = .admin ∧ .owner ∉ flags ∧ .admin ∈ flags) ∨
          (flag ∈ flags ∧ .owner ∉ flags ∧ .admin ∉ flags) := by
  by_cases howner : .owner ∈ flags
  · have hne : flags ≠ [] := List.ne_nil_of_mem howner
    simp [normalizedFlags_owner howner, howner, hne, or_comm]
  by_cases hadmin : .admin ∈ flags
  · have hne : flags ≠ [] := List.ne_nil_of_mem hadmin
    simp [normalizedFlags_admin howner hadmin, howner, hadmin, hne, or_comm]
  rw [normalizedFlags_plain howner hadmin]
  split <;> rename_i hcase
  · simp [howner, hadmin, hcase.1, or_comm]
  · simp only [howner, hadmin, and_false, not_false_eq_true, and_true, false_or]
    constructor
    · exact .inr
    · rintro (⟨rfl, hne⟩ | hmem)
      · by_contra hnot
        exact hcase ⟨hne, hnot⟩
      · exact hmem

namespace Permissions

variable {base external : Int} {permissions : Permissions}

/-- Flags are granted as the raw base field says. -/
theorem has_flag_iff (h : fromBigints base external = .ok permissions) (flag : BaseFlag) :
    permissions.has [flag] [] = true ↔ GrantsFlag base flag := by
  have hne : ∀ flag ∈ rawFlags base, rawFlags base ≠ [] := fun _ => List.ne_nil_of_mem
  rw [has_flag, BaseSet.flags_of_tryFrom (fromBigints_eq_ok.mp h).1]
  simp only [mem_normalizedFlags, GrantsFlag]
  grind

/-- Offsets are granted as the raw fields say. -/
theorem has_offset_iff (h : fromBigints base external = .ok permissions) (offset : Nat) :
    permissions.has [] [offset] = true ↔ GrantsOffset base external offset := by
  have hne : ∀ flag ∈ rawFlags base, rawFlags base ≠ [] := fun _ => List.ne_nil_of_mem
  rw [has_offset, BaseSet.flags_of_tryFrom (fromBigints_eq_ok.mp h).1, (fromBigints_eq_ok.mp h).2]
  simp only [mem_normalizedFlags, GrantsOffset]
  grind

/-- **Raw bits that are added take no grant away.** -/
theorem has_mono {baseP externalP baseQ externalQ : Int} {p q : Permissions}
    (hp : fromBigints baseP externalP = .ok p) (hq : fromBigints baseQ externalQ = .ok q)
    (hbase : BitsSubset baseP baseQ) (hexternal : BitsSubset externalP externalQ)
    {flags : List BaseFlag} {offsets : List Nat} (h : p.has flags offsets = true) :
    q.has flags offsets = true := by
  rw [has_iff_forall] at h ⊢
  constructor
  · intro flag hflag
    rw [has_flag_iff hq]
    exact ((has_flag_iff hp flag).mp (h.1 flag hflag)).mono hbase
  · intro offset hoffset
    rw [has_offset_iff hq]
    exact ((has_offset_iff hp offset).mp (h.2 offset hoffset)).mono hbase hexternal

/-- A request for two lists is a request for each. -/
theorem has_append (permissions : Permissions) (flags₁ flags₂ : List BaseFlag)
    (offsets₁ offsets₂ : List Nat) :
    permissions.has (flags₁ ++ flags₂) (offsets₁ ++ offsets₂) = true ↔
      permissions.has flags₁ offsets₁ = true ∧ permissions.has flags₂ offsets₂ = true := by
  rw [has_iff_forall, has_iff_forall permissions flags₁, has_iff_forall permissions flags₂]
  simp only [List.forall_mem_append]
  constructor
  · rintro ⟨⟨h₁, h₂⟩, h₃, h₄⟩
    exact ⟨⟨h₁, h₃⟩, h₂, h₄⟩
  · rintro ⟨⟨h₁, h₃⟩, h₂, h₄⟩
    exact ⟨⟨h₁, h₂⟩, h₃, h₄⟩

/-- **Grants are monotone and conjunctive.** The smaller bits may be the raw ones or the
normalized ones. -/
theorem grants_lattice {baseP externalP baseQ externalQ : Int} {p q : Permissions}
    (hp : fromBigints baseP externalP = .ok p) (hq : fromBigints baseQ externalQ = .ok q) :
    ((BitsSubset baseP baseQ ∨ BitsSubset p.base.bits baseQ) → BitsSubset externalP externalQ →
      ∀ flags offsets, p.has flags offsets = true → q.has flags offsets = true) ∧
    ∀ flags₁ flags₂ offsets₁ offsets₂,
      p.has (flags₁ ++ flags₂) (offsets₁ ++ offsets₂) = true ↔
        p.has flags₁ offsets₁ = true ∧ p.has flags₂ offsets₂ = true := by
  refine ⟨?_, fun _ _ _ _ => p.has_append _ _ _ _⟩
  rintro (hbase | hbase) hexternal flags offsets h
  · exact has_mono hp hq hbase hexternal h
  · have hwire : p.onWire.has flags offsets = true := by rwa [has_onWire]
    have hsubset : BitsSubset p.external externalQ := (fromBigints_eq_ok.mp hp).2 ▸ hexternal
    exact has_mono p.fromBigints_bits hq hbase hsubset hwire

example : Permissions.has ⟨impliedAccess, 4⟩ [.access, .updateInfo] [2] = true := by decide +kernel

theorem grants_lattice_sample :
    (∀ flags offsets, Permissions.has ⟨impliedAccess, 4⟩ flags offsets = true →
      Permissions.has ⟨givenAccess, 4⟩ flags offsets = true) ∧
    ∀ flags₁ flags₂ offsets₁ offsets₂,
      Permissions.has ⟨impliedAccess, 4⟩ (flags₁ ++ flags₂) (offsets₁ ++ offsets₂) = true ↔
        Permissions.has ⟨impliedAccess, 4⟩ flags₁ offsets₁ = true ∧
          Permissions.has ⟨impliedAccess, 4⟩ flags₂ offsets₂ = true := by
  have hp : fromBigints 8 4 = .ok ⟨impliedAccess, 4⟩ :=
    fromBigints_eq_ok.mpr ⟨BaseSet.tryFrom_eq_ok.mpr (by decide +kernel), rfl⟩
  have hq : fromBigints 9 4 = .ok ⟨givenAccess, 4⟩ :=
    fromBigints_eq_ok.mpr ⟨BaseSet.tryFrom_eq_ok.mpr (by decide +kernel), rfl⟩
  obtain ⟨hmono, happend⟩ := grants_lattice hp hq
  have hsubset : BitsSubset impliedAccess.bits 9 := fun _ hn => hn
  exact ⟨hmono (.inr hsubset) fun _ hn => hn, happend⟩

end Permissions

end KeetaNode
