import KeetaNode.Vote.Signed

/-!
# Activity and permanence of votes

The moment-based predicates of a validity period over unbounded integers. The period is
tested once with its own ends shifted and once with the moment shifted, each time with
saturation; neither shows.

- `keetanetwork-vote/src/validity.rs`
-/

namespace KeetaNode

open ByteCodec
open Asn1 (Tag Asn1Error Chrono OidCodec)

namespace Validity

variable {validity : Validity} {moment : BlockTime} {config : VoteConfig}

theorem rangeIsWellFormed_iff :
    validity.rangeIsWellFormed = true ↔ unixMillis validity.start ≤ unixMillis validity.stop := by
  simp [rangeIsWellFormed]

theorem momentIsBeforeFrom_iff (hslop : 0 ≤ config.allowedSlopMs) :
    validity.momentIsBeforeFrom moment config = true ↔
      unixMillis moment < unixMillis validity.start - config.allowedSlopMs := by
  have hstart := unixMillis_bounds validity.start
  have hmoment := unixMillis_bounds moment
  simp only [momentIsBeforeFrom, decide_eq_true_eq]
  unfold saturatingSub saturate
  omega

theorem isExpiredAt_iff (hslop : 0 ≤ config.allowedSlopMs) :
    validity.isExpiredAt moment config = true ↔
      unixMillis moment + config.allowedSlopMs < unixMillis validity.start ∨
        unixMillis validity.stop < unixMillis moment - config.allowedSlopMs := by
  have hstart := unixMillis_bounds validity.start
  have hstop := unixMillis_bounds validity.stop
  have hmoment := unixMillis_bounds moment
  simp only [isExpiredAt, Bool.or_eq_true, decide_eq_true_eq]
  unfold saturatingAdd saturatingSub saturate
  omega

/-- A threshold of any sign. -/
theorem isPermanentAt_iff :
    validity.isPermanentAt moment config = true ↔
      unixMillis moment + config.permanentVoteThresholdMs < unixMillis validity.stop := by
  have hstop := unixMillis_bounds validity.stop
  have hmoment := unixMillis_bounds moment
  simp only [isPermanentAt, decide_eq_true_eq]
  unfold saturatingAdd saturate
  omega

theorem ensureActiveAt_eq_before_iff :
    validity.ensureActiveAt moment config = .error .momentBeforeValidityFrom ↔
      validity.momentIsBeforeFrom moment config = true := by
  unfold ensureActiveAt rejectIf
  cases validity.momentIsBeforeFrom moment config <;>
    cases validity.isExpiredAt moment config <;> decide

theorem ensureActiveAt_eq_expired_iff :
    validity.ensureActiveAt moment config = .error .expired ↔
      validity.momentIsBeforeFrom moment config = false ∧
        validity.isExpiredAt moment config = true := by
  unfold ensureActiveAt rejectIf
  cases validity.momentIsBeforeFrom moment config <;>
    cases validity.isExpiredAt moment config <;> decide

/-- **Activity is exact membership in the period, widened by the slop**, each failure
says on which side the moment lies, and permanence is the exact comparison. -/
theorem activity_exact (hrange : validity.rangeIsWellFormed = true)
    (hslop : 0 ≤ config.allowedSlopMs) :
    (validity.ensureActiveAt moment config = .ok () ↔
      unixMillis validity.start - config.allowedSlopMs ≤ unixMillis moment ∧
        unixMillis moment ≤ unixMillis validity.stop + config.allowedSlopMs) ∧
    (validity.ensureActiveAt moment config = .error .momentBeforeValidityFrom ↔
      unixMillis moment < unixMillis validity.start - config.allowedSlopMs) ∧
    (validity.ensureActiveAt moment config = .error .expired ↔
      unixMillis validity.stop + config.allowedSlopMs < unixMillis moment) ∧
    (validity.isExpiredAt moment config = true ↔
      validity.ensureActiveAt moment config ≠ .ok ()) ∧
    (validity.isPermanentAt moment config = true ↔
      unixMillis moment + config.permanentVoteThresholdMs < unixMillis validity.stop) := by
  rw [rangeIsWellFormed_iff] at hrange
  refine ⟨ensureActiveAt_eq_ok, ?_, ?_, ?_, isPermanentAt_iff⟩
  · rw [ensureActiveAt_eq_before_iff, momentIsBeforeFrom_iff hslop]
  · rw [ensureActiveAt_eq_expired_iff, isExpiredAt_iff hslop, ← Bool.not_eq_true,
      momentIsBeforeFrom_iff hslop]
    omega
  · rw [isExpiredAt_iff hslop, ne_eq, ensureActiveAt_eq_ok]
    unfold ActiveAt
    omega

end Validity

theorem activity_exact_sample :
    (Sample.validity.ensureActiveAt Asn1.Sample.date VoteConfig.default = .ok () ↔
      unixMillis Sample.validity.start - VoteConfig.default.allowedSlopMs ≤
          unixMillis Asn1.Sample.date ∧
        unixMillis Asn1.Sample.date ≤
          unixMillis Sample.validity.stop + VoteConfig.default.allowedSlopMs) :=
  (Validity.activity_exact (by decide +kernel) (by decide)).1

example : Sample.validity.isPermanentAt Asn1.Sample.date .default = false := by decide +kernel

/-! ## Times of votes -/

section Codec

variable [Crypto] [Tlv Tag Asn1Error] [OidCodec] [NumBigint]

omit [Crypto] [NumBigint] in
theorem hasFourDigitYear_of_encodeTbs {tbs : Asn1.TbsCertificate} {bytes : Bytes}
    (h : encodeTbs tbs = .ok bytes) : tbs.validity.notBefore.HasFourDigitYear := by
  simp only [encodeTbs, asVoteAsn1Error_eq_ok, Asn1.encodeTbs, bind_eq_ok] at h
  -- version, serial number, algorithm and issuer come first
  obtain ⟨_, _, _, _, _, _, _, _, _, _, _, hvalidity, _⟩ := h
  simp only [Asn1.encodeValidity, bind_eq_ok] at hvalidity
  obtain ⟨_, hstart, _⟩ := hvalidity
  exact Asn1.hasFourDigitYear_of_encodeTime hstart

/-- A vote that was read from its bytes or signed. There is no other way to a vote. -/
def Vote.Obtained [Chrono] (vote : Vote) : Prop :=
  (∃ bytes, Vote.fromSerialized bytes = .ok vote) ∨
    ∃ (unsigned : UnsignedVote) (signForCert : Bytes → Except AccountError Bytes),
      unsigned.sign signForCert = .ok vote

/-- The times of a vote have been written. -/
theorem Vote.Obtained.hasFourDigitYear [Chrono] {vote : Vote} (h : vote.Obtained) :
    vote.decoded.validity.start.HasFourDigitYear := by
  rcases h with ⟨bytes, h⟩ | ⟨unsigned, signForCert, h⟩
  · obtain ⟨_, _, tbs, htbs, hbytes, _⟩ := Vote.fromSerialized_eq_ok.mp h
    obtain ⟨_, _, _, _, _, rfl⟩ := buildTbs_eq_ok.mp htbs
    exact hasFourDigitYear_of_encodeTbs hbytes
  · obtain ⟨_, tbs, _, _, htbs, hbytes, _, hdecoded⟩ := UnsignedVote.sign_eq_ok h
    obtain ⟨_, _, _, _, _, rfl⟩ := buildTbs_eq_ok.mp htbs
    rw [hdecoded]
    exact hasFourDigitYear_of_encodeTbs hbytes

end Codec

end KeetaNode
