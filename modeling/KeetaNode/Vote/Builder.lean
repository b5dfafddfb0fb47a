import KeetaNode.Block.Time
import KeetaNode.Vote.Stapled

/-!
# Vote builders

A vote is put together field by field. One that is marked permanent gets the end of its validity
from the beginning, a thousand years later, and carries no fees; a quote always carries fees, and
they are marked as those of a quote.

- `keetanetwork-vote/src/builder.rs`

## Main results

- `VoteBuilder.permanent_spec`: what a permanent vote needs, and how long it stays permanent
- `permanent_votes_staple`: permanent votes of different issuers for the same blocks make a staple
- `quotes_stay_quotes`: a quote is accepted as a quote and as nothing else
-/

namespace KeetaNode

open ByteCodec
open Asn1 (Tag Asn1Error Chrono LawfulChrono OidCodec LawfulOidCodec)

/-! ## Errors -/

/-- The fields that a vote has to have. -/
inductive VoteField where
  | serial | issuer | validity
  deriving DecidableEq, Repr

/-- An error of a builder, or one of the votes it makes. -/
inductive VoteBuilderError where
  | missingField (field : VoteField)
  | feeQuoteMissingFees
  | vote (source : VoteError)
  deriving DecidableEq, Repr

/-! ## Permanence -/

/-- `with_ymd_and_hms` at midnight: none outside the calendar. -/
def midnight (year : Int) (month day : Nat) : Option BlockTime :=
  if hdate : (-262143 ≤ year ∧ year ≤ 262142) ∧ (1 ≤ month ∧ month ≤ 12) ∧
      (1 ≤ day ∧ day ≤ Asn1.daysInMonth year month) then
    some {
      year, month, day, hour := 0, minute := 0, second := 0, millis := 0
      valid := ⟨hdate.1, hdate.2.1, hdate.2.2, by omega, by omega, by omega, by omega⟩ }
  else none

/-- The end of the validity of a permanent vote. -/
def permanentValidityTo (start : BlockTime) : Except VoteError BlockTime :=
  match (do
    let base ← fromUnixMillis (unixMillis start)
    let stop ← midnight (base.year + 1001) 1 31
    fromUnixMillis (unixMillis stop)) with
  | some stop => .ok stop
  | none => .error .invalidValidity

theorem midnight_eq_some {year : Int} {month day : Nat} {time : BlockTime}
    (h : midnight year month day = some time) :
    time.year = year ∧ time.month = month ∧ time.day = day ∧ time.millis = 0 ∧
      unixMillis time = daysFromEpoch year month day * dayMillis := by
  simp only [midnight] at h
  split at h
  · cases h
    refine ⟨rfl, rfl, rfl, rfl, ?_⟩
    simp only [unixMillis, dayMillis]
    omega
  · cases h

/-- The last day of a January is in every year of the calendar. -/
theorem exists_midnight_january {year : Int} :
    (∃ time, midnight year 1 31 = some time) ↔ -262143 ≤ year ∧ year ≤ 262142 := by
  simp only [midnight, Asn1.daysInMonth]
  split
  · rename_i hdate
    exact ⟨fun _ => hdate.1, fun _ => ⟨_, rfl⟩⟩
  · rename_i hdate
    constructor
    · rintro ⟨_, h⟩
      cases h
    · intro hyear
      exact absurd ⟨hyear, by decide, by decide⟩ hdate

section Permanence

variable {start stop : BlockTime}

/-- A permanent validity ends in the January a thousand years after the next one. -/
theorem permanentValidityTo_eq_ok :
    permanentValidityTo start = .ok stop ↔
      ∃ base : BlockTime, fromUnixMillis (unixMillis start) = some base ∧
        midnight (base.year + 1001) 1 31 = some stop := by
  have hread : ∀ base last : BlockTime, midnight (base.year + 1001) 1 31 = some last →
      fromUnixMillis (unixMillis last) = some last := by
    intro base last hlast
    obtain ⟨-, -, -, hmillis, -⟩ := midnight_eq_some hlast
    exact fromUnixMillis_unixMillis_of_lt (by omega)
  unfold permanentValidityTo
  cases hbase : fromUnixMillis (unixMillis start) with
  | none => simp
  | some base =>
    cases hlast : midnight (base.year + 1001) 1 31 with
    | none => simp [hlast]
    | some last => simp [hlast, hread base last hlast]

/-- A permanent validity ends a good thousand years after it begins. -/
theorem le_unixMillis_of_permanentValidityTo (h : permanentValidityTo start = .ok stop) :
    yearMillis (start.year + 1001) + 30 * dayMillis ≤ unixMillis stop := by
  obtain ⟨base, hbase, hstop⟩ := permanentValidityTo_eq_ok.mp h
  obtain ⟨-, -, -, -, hmillis⟩ := midnight_eq_some hstop
  -- a leap second at the end of a year is read as the beginning of the next one
  have hyear : start.year ≤ base.year := by
    have hstart := yearMillis_le_unixMillis start
    have hend := unixMillis_le_yearMillis base
    have hsame := unixMillis_of_fromUnixMillis hbase
    have hbelow := millis_of_fromUnixMillis hbase
    by_contra hlt
    have hmono := yearMillis_mono (by omega : base.year + 1 ≤ start.year)
    omega
  calc yearMillis (start.year + 1001) + 30 * dayMillis
      ≤ yearMillis (base.year + 1001) + 30 * dayMillis := by
        have hmono := yearMillis_mono (by omega : start.year + 1001 ≤ base.year + 1001)
        omega
    _ = unixMillis stop := by
        rw [hmillis]
        simp only [yearMillis, daysFromEpoch, dayMillis, Nat.one_le_ofNat, if_true]
        omega

variable {moment : BlockTime} {config : VoteConfig}

/-- A permanent validity is in order. -/
theorem rangeIsWellFormed_of_permanent (h : permanentValidityTo start = .ok stop) :
    (Validity.mk start stop).rangeIsWellFormed = true := by
  have hstop := le_unixMillis_of_permanentValidityTo h
  have hstart := unixMillis_lt_yearMillis start
  have hmono := yearMillis_mono (by omega : start.year + 1 ≤ start.year + 1001)
  simp only [Validity.rangeIsWellFormed, decide_eq_true_eq]
  unfold dayMillis at hstop
  omega

/-- **A permanent vote is permanent for nine hundred years.** -/
theorem isPermanentAt_of_permanent (h : permanentValidityTo start = .ok stop)
    (hconfig : config.permanentVoteThresholdMs ≤ VoteConfig.default.permanentVoteThresholdMs)
    (hmoment : moment.year ≤ start.year + 900) :
    (Validity.mk start stop).isPermanentAt moment config = true := by
  have hstop := le_unixMillis_of_permanentValidityTo h
  have hend := unixMillis_lt_yearMillis moment
  have hcentury :=
    yearMillis_add_century_le (by omega : moment.year + 1 + 100 ≤ start.year + 1001)
  have hbounds := unixMillis_bounds stop
  simp only [Validity.isPermanentAt, decide_eq_true_eq, gt_iff_lt]
  unfold saturatingAdd saturate
  unfold dayMillis at hstop hcentury
  change _ ≤ (100 * 365 * 86400 * 1000 : Int) at hconfig
  omega

/-- A permanent vote is active for a thousand years. -/
theorem activeAt_of_permanent (h : permanentValidityTo start = .ok stop)
    (hslop : 0 ≤ config.allowedSlopMs)
    (hbegun : unixMillis start - config.allowedSlopMs ≤ unixMillis moment)
    (hmoment : moment.year ≤ start.year + 900) :
    (Validity.mk start stop).ActiveAt moment config := by
  refine ⟨hbegun, ?_⟩
  have hstop := le_unixMillis_of_permanentValidityTo h
  have hend := unixMillis_lt_yearMillis moment
  have hmono := yearMillis_mono (by omega : moment.year + 1 ≤ start.year + 1001)
  show unixMillis moment ≤ unixMillis stop + config.allowedSlopMs
  unfold dayMillis at hstop
  omega

end Permanence

/-! ## Votes -/

section Builders

variable [Crypto]

structure VoteBuilder where
  serial : Option Int := none
  issuer : Option GenericAccount := none
  validityFrom : Option BlockTime := none
  validityTo : Option BlockTime := none
  blocks : List BlockHash := []
  fees : Option Fees := none
  permanent : Bool := false

namespace VoteBuilder

omit [Crypto] in
def required {α : Type} (field : VoteField) (value : Option α) : Except VoteBuilderError α :=
  value.elim (.error (.missingField field)) .ok

/-- The end of the validity, which is not read when the vote is permanent. -/
def validityEnd (builder : VoteBuilder) (start : BlockTime) : Except VoteBuilderError BlockTime :=
  if builder.permanent then do
    rejectIf (builder.fees.isSome = true) (VoteBuilderError.vote .malformedFeesInPermanentVote)
    (permanentValidityTo start).mapError .vote
  else required .validity builder.validityTo

def buildUnsigned (builder : VoteBuilder) : Except VoteBuilderError UnsignedVote := do
  let serial ← required .serial builder.serial
  let issuer ← required .issuer builder.issuer
  let start ← required .validity builder.validityFrom
  let stop ← builder.validityEnd start
  let validity ← (Validity.tryNew start stop).mapError VoteBuilderError.vote
  (UnsignedVote.tryNew serial issuer validity builder.blocks builder.fees).mapError .vote

variable [Tlv Tag Asn1Error] [OidCodec] [NumBigint]

def buildSigned (builder : VoteBuilder) (signForCert : Bytes → Except AccountError Bytes) :
    Except VoteBuilderError Vote := do
  let unsigned ← builder.buildUnsigned
  (unsigned.sign signForCert).mapError .vote

end VoteBuilder

/-! ## Quotes -/

/-- The fees, as those of a quote. -/
def Fees.asQuote : Fees → Fees
  | .single _ fee => .single true fee
  | .multiple _ fees => .multiple true fees

@[simp] theorem Fees.quote_asQuote (fees : Fees) : fees.asQuote.quote = true := by
  cases fees <;> rfl

/-- The builder that is wrapped is private: its fees are those of a quote, and nothing makes it
permanent. -/
structure VoteQuoteBuilder where
  inner : VoteBuilder
  quoted : ∀ fees ∈ inner.fees, fees.quote = true
  temporary : inner.permanent = false

namespace VoteQuoteBuilder

def new : VoteQuoteBuilder where
  inner := {}
  quoted := by simp
  temporary := rfl

variable (builder : VoteQuoteBuilder)

def serial (serial : Int) : VoteQuoteBuilder :=
  { builder with inner := { builder.inner with serial := some serial } }

def issuer (issuer : GenericAccount) : VoteQuoteBuilder :=
  { builder with inner := { builder.inner with issuer := some issuer } }

def validity (start stop : BlockTime) : VoteQuoteBuilder :=
  { builder with
    inner := { builder.inner with validityFrom := some start, validityTo := some stop } }

def addBlocks (hashes : List BlockHash) : VoteQuoteBuilder :=
  { builder with inner := { builder.inner with blocks := builder.inner.blocks ++ hashes } }

def fees (fees : Fees) : VoteQuoteBuilder :=
  { builder with
    inner := { builder.inner with fees := some fees.asQuote }
    quoted := by simp }

variable [Tlv Tag Asn1Error] [OidCodec] [NumBigint]

def build (signForCert : Bytes → Except AccountError Bytes) :
    Except VoteBuilderError VoteQuote := do
  rejectIf (builder.inner.fees = none) .feeQuoteMissingFees
  let vote ← builder.inner.buildSigned signForCert
  (VoteQuote.tryFromVote vote).mapError .vote

end VoteQuoteBuilder

/-! ## Staples -/

structure VoteStapleBuilder where
  blocks : List Block := []
  votes : List Vote := []
  moment : Option BlockTime := none
  config : VoteConfig := .default

/-- The clock is read when there is no moment. -/
def VoteStapleBuilder.build [Tlv Tag Asn1Error] [Zlib] (builder : VoteStapleBuilder)
    (now : BlockTime) : Except VoteError VoteStaple :=
  VoteStaple.tryNew builder.blocks builder.votes builder.config (builder.moment.getD now)

/-! ## What is built -/

section Results

variable {builder : VoteBuilder} {unsigned : UnsignedVote}

omit [Crypto] in
theorem VoteBuilder.required_eq_ok {α : Type} {field : VoteField} {value : Option α} {a : α} :
    required field value = .ok a ↔ value = some a := by
  cases value <;> simp [required]

theorem UnsignedVote.tryNew_eq_ok {serial : Int} {issuer : GenericAccount} {validity : Validity}
    {blocks : List BlockHash} {fees : Option Fees} :
    UnsignedVote.tryNew serial issuer validity blocks fees = .ok unsigned ↔
      (∃ algo, SignatureAlgo.fromIssuer issuer = .ok algo) ∧ blocks ≠ [] ∧
        unsigned = ⟨serial, issuer, validity, blocks, fees⟩ := by
  simp only [tryNew, bind_eq_ok, rejectIf_eq_ok, pure_eq_ok, Except.ok.injEq]
  constructor
  · rintro ⟨algo, halgo, _, hblocks, rfl⟩
    exact ⟨⟨algo, halgo⟩, hblocks, rfl⟩
  · rintro ⟨⟨algo, halgo⟩, hblocks, rfl⟩
    exact ⟨algo, halgo, (), hblocks, rfl⟩

/-- What is built has the fields of its builder, and passes the checks of votes. -/
theorem VoteBuilder.buildUnsigned_eq_ok :
    builder.buildUnsigned = .ok unsigned ↔
      builder.serial = some unsigned.serial ∧ builder.issuer = some unsigned.issuer ∧
        builder.validityFrom = some unsigned.validity.start ∧
        builder.validityEnd unsigned.validity.start = .ok unsigned.validity.stop ∧
        unsigned.validity.rangeIsWellFormed = true ∧
        (∃ algo, SignatureAlgo.fromIssuer unsigned.issuer = .ok algo) ∧ builder.blocks ≠ [] ∧
        unsigned.blocks = builder.blocks ∧ unsigned.fees = builder.fees := by
  simp only [buildUnsigned, bind_eq_ok, required_eq_ok, mapError_eq_ok, Validity.tryNew_eq_ok,
    UnsignedVote.tryNew_eq_ok]
  constructor
  · rintro ⟨serial, hserial, issuer, hissuer, start, hstart, stop, hstop, validity,
      ⟨rfl, hrange⟩, halgo, hblocks, rfl⟩
    exact ⟨hserial, hissuer, hstart, hstop, hrange, halgo, hblocks, rfl, rfl⟩
  · rintro ⟨hserial, hissuer, hstart, hstop, hrange, halgo, hblocks, hlisted, hfees⟩
    refine ⟨_, hserial, _, hissuer, _, hstart, _, hstop, _, ⟨rfl, hrange⟩, halgo, hblocks, ?_⟩
    rw [← hlisted, ← hfees]

/-- The end of a permanent vote is not that of the builder. -/
theorem VoteBuilder.validityEnd_permanent (h : builder.permanent = true) {start stop : BlockTime} :
    builder.validityEnd start = .ok stop ↔
      builder.fees = none ∧ permanentValidityTo start = .ok stop := by
  rw [validityEnd, if_pos h, rejectIf_bind_eq_ok, mapError_eq_ok, Bool.not_eq_true,
    Option.isSome_eq_false_iff, Option.isNone_iff_eq_none]

theorem VoteBuilder.fees_of_permanent (hpermanent : builder.permanent = true)
    (h : builder.buildUnsigned = .ok unsigned) :
    unsigned.fees = none ∧
      permanentValidityTo unsigned.validity.start = .ok unsigned.validity.stop := by
  obtain ⟨-, -, -, hend, -, -, -, -, hfees⟩ := buildUnsigned_eq_ok.mp h
  obtain ⟨hnone, hstop⟩ := (validityEnd_permanent hpermanent).mp hend
  exact ⟨hfees.trans hnone, hstop⟩

/-- **A permanent vote is built from what it needs alone; it has no fees, and it is active and
permanent for nine hundred years, whatever end the builder was given.** -/
theorem VoteBuilder.permanent_spec (hpermanent : builder.permanent = true) :
    ((∃ unsigned, builder.buildUnsigned = .ok unsigned) ↔
      builder.serial.isSome = true ∧
        (∃ issuer algo, builder.issuer = some issuer ∧
          SignatureAlgo.fromIssuer issuer = .ok algo) ∧
        (∃ start base, builder.validityFrom = some start ∧
          fromUnixMillis (unixMillis start) = some base ∧ base.year + 1001 ≤ 262142) ∧
        builder.blocks ≠ [] ∧ builder.fees = none) ∧
    ∀ unsigned, builder.buildUnsigned = .ok unsigned →
      unsigned.blocks = builder.blocks ∧ unsigned.fees = none ∧
      ∀ (config : VoteConfig) (moment : BlockTime), 0 ≤ config.allowedSlopMs →
        config.permanentVoteThresholdMs ≤ VoteConfig.default.permanentVoteThresholdMs →
        unixMillis unsigned.validity.start - config.allowedSlopMs ≤ unixMillis moment →
        moment.year ≤ unsigned.validity.start.year + 900 →
        unsigned.validity.isPermanentAt moment config = true ∧
          unsigned.validity.ensureActiveAt moment config = .ok () := by
  constructor
  · simp only [buildUnsigned_eq_ok, validityEnd_permanent hpermanent]
    constructor
    · rintro ⟨unsigned, hserial, hissuer, hstart, ⟨hfees, hstop⟩, -, ⟨algo, halgo⟩, hblocks, -⟩
      obtain ⟨base, hbase, hjanuary⟩ := permanentValidityTo_eq_ok.mp hstop
      have hyear := exists_midnight_january.mp ⟨_, hjanuary⟩
      rw [hserial]
      exact ⟨rfl, ⟨_, algo, hissuer, halgo⟩, ⟨_, base, hstart, hbase, hyear.2⟩, hblocks, hfees⟩
    · rintro ⟨hserial, ⟨issuer, algo, hissuer, halgo⟩, ⟨start, base, hstart, hbase, hyear⟩,
        hblocks, hfees⟩
      obtain ⟨serial, hserial⟩ := Option.isSome_iff_exists.mp hserial
      have hlow := base.valid.1.1
      obtain ⟨stop, hjanuary⟩ := exists_midnight_january.mpr
        (show -262143 ≤ base.year + 1001 ∧ base.year + 1001 ≤ 262142 from ⟨by omega, hyear⟩)
      have hstop := permanentValidityTo_eq_ok.mpr ⟨base, hbase, hjanuary⟩
      exact ⟨⟨serial, issuer, ⟨start, stop⟩, builder.blocks, none⟩, hserial, hissuer, hstart,
        ⟨hfees, hstop⟩, rangeIsWellFormed_of_permanent hstop, ⟨algo, halgo⟩, hblocks, rfl,
        hfees.symm⟩
  · intro unsigned h
    obtain ⟨-, -, -, -, -, -, -, hblocks, -⟩ := buildUnsigned_eq_ok.mp h
    obtain ⟨hfees, hstop⟩ := fees_of_permanent hpermanent h
    refine ⟨hblocks, hfees, fun config moment hslop hconfig hbegun hmoment => ?_⟩
    exact ⟨isPermanentAt_of_permanent hstop hconfig hmoment, Validity.ensureActiveAt_eq_ok.mpr
      (activeAt_of_permanent hstop hslop hbegun hmoment)⟩

/-! ## Permanent votes make staples -/

section Codec

variable [Tlv Tag Asn1Error] [OidCodec] [NumBigint]

/-- A signed vote has the contents that were built. -/
theorem VoteBuilder.buildSigned_eq_ok {signForCert : Bytes → Except AccountError Bytes}
    {vote : Vote} (h : builder.buildSigned signForCert = .ok vote) :
    ∃ unsigned, builder.buildUnsigned = .ok unsigned ∧ unsigned.sign signForCert = .ok vote ∧
      vote.decoded.issuer = unsigned.issuer ∧ vote.decoded.validity = unsigned.validity ∧
      vote.decoded.blocks = unsigned.blocks ∧ vote.decoded.fees = unsigned.fees := by
  obtain ⟨unsigned, hunsigned, hsigned⟩ := bind_eq_ok.mp h
  rw [mapError_eq_ok] at hsigned
  obtain ⟨_, _, _, _, -, -, -, hvote⟩ := UnsignedVote.sign_eq_ok hsigned
  rw [hvote]
  exact ⟨unsigned, hunsigned, hsigned, rfl, rfl, rfl, rfl⟩

/-- A vote that somebody has built as a permanent one for the blocks. -/
def Vote.BuiltPermanent (vote : Vote) (hashes : List BlockHash) : Prop :=
  ∃ (builder : VoteBuilder) (signForCert : Bytes → Except AccountError Bytes),
    builder.permanent = true ∧ builder.blocks = hashes ∧
      builder.buildSigned signForCert = .ok vote

theorem Vote.BuiltPermanent.endorses {vote : Vote} {hashes : List BlockHash}
    (h : vote.BuiltPermanent hashes) {config : VoteConfig} {moment : BlockTime}
    (hslop : 0 ≤ config.allowedSlopMs)
    (hconfig : config.permanentVoteThresholdMs ≤ VoteConfig.default.permanentVoteThresholdMs)
    (hbegun : unixMillis vote.decoded.validity.start - config.allowedSlopMs ≤ unixMillis moment)
    (hmoment : moment.year ≤ vote.decoded.validity.start.year + 900) :
    vote.Endorses hashes true config moment := by
  obtain ⟨builder, signForCert, hpermanent, hblocks, hbuilt⟩ := h
  obtain ⟨unsigned, hunsigned, -, -, hvalidity, hlisted, hfees⟩ :=
    VoteBuilder.buildSigned_eq_ok hbuilt
  obtain ⟨-, -, -, -, -, -, -, hsame, -⟩ := VoteBuilder.buildUnsigned_eq_ok.mp hunsigned
  obtain ⟨hnone, hstop⟩ := VoteBuilder.fees_of_permanent hpermanent hunsigned
  rw [hvalidity] at hbegun hmoment
  have hnofees : vote.decoded.fees = none := hfees.trans hnone
  exact {
    notQuote := by rw [Vote.isQuote, hnofees]
    active := by
      rw [hvalidity, Validity.ensureActiveAt_eq_ok]
      exact activeAt_of_permanent hstop hslop hbegun hmoment
    blocks_eq := by rw [hlisted, hsame, hblocks]
    permanent_eq := by
      rw [Vote.isPermanentAt, hvalidity]
      exact isPermanentAt_of_permanent hstop hconfig hmoment
    noFees := fun _ => hnofees }

omit [Tlv Tag Asn1Error] [OidCodec] [NumBigint] in
theorem VoteQuote.tryFromVote_eq_ok {vote : Vote} {quote : VoteQuote} :
    VoteQuote.tryFromVote vote = .ok quote ↔ vote.isQuote = true ∧ quote = ⟨vote⟩ := by
  simp only [tryFromVote, bind_eq_ok, rejectIf_eq_ok, Bool.not_eq_false, pure_eq_ok,
    Except.ok.injEq]
  constructor
  · rintro ⟨_, -, _, hquote, rfl⟩
    exact ⟨hquote, rfl⟩
  · rintro ⟨hquote, rfl⟩
    refine ⟨(), ?_, (), hquote, rfl⟩
    rw [Vote.isQuote] at hquote
    rw [Vote.assertQuoteFlag]
    cases hfees : vote.decoded.fees with
    | none => rfl
    | some fees => simpa [hfees] using hquote

/-- A vote with the fees of a quote is not accepted as a vote. -/
theorem isQuote_eq_false_of_verify [Chrono] {bytes : Bytes} {vote : Vote}
    (h : Vote.verify bytes = .ok vote) : vote.isQuote = false := by
  simp only [Vote.verify, bind_eq_ok, pure_eq_ok, Except.ok.injEq] at h
  obtain ⟨_, -, _, -, _, hflag, rfl⟩ := h
  rw [Vote.assertQuoteFlag] at hflag
  rw [Vote.isQuote]
  split at hflag <;> simp_all

variable [LawfulTlv Tag Asn1Error] [Chrono] [LawfulCrypto] [LawfulOidCodec] [LawfulNumBigint]
  [LawfulChrono]

/-- **A quote that was built is accepted as a quote, unless its fees are an empty list or its
signature is not the issuer's; it is never accepted as a vote, and no staple is built with it or
accepted with it.** -/
theorem quotes_stay_quotes [X509] [Zlib] {builder : VoteQuoteBuilder}
    {signForCert : Bytes → Except AccountError Bytes} {quote : VoteQuote}
    (h : builder.build signForCert = .ok quote) :
    (VoteQuote.verify quote.vote.serialized = .ok quote ↔
      quote.vote.verifySignature = .ok () ∧
        quote.vote.decoded.fees ≠ some (.multiple true [])) ∧
    (∀ vote, Vote.verify quote.vote.serialized ≠ .ok vote) ∧
    (∀ blocks votes config moment staple,
      VoteStaple.tryNew blocks votes config moment = .ok staple → quote.vote ∉ votes) ∧
    ∀ bytes config moment staple, VoteStaple.verify bytes config moment = .ok staple →
      ∀ vote ∈ staple.votes, vote.serialized ≠ quote.vote.serialized := by
  simp only [VoteQuoteBuilder.build, bind_eq_ok, rejectIf_eq_ok, mapError_eq_ok,
    VoteQuote.tryFromVote_eq_ok] at h
  obtain ⟨_, -, vote, hbuilt, hquote, rfl⟩ := h
  obtain ⟨unsigned, hunsigned, hsigned, -, -, -, hfees⟩ := VoteBuilder.buildSigned_eq_ok hbuilt
  obtain ⟨-, -, -, -, hrange, -, -, -, hschedule⟩ := VoteBuilder.buildUnsigned_eq_ok.mp hunsigned
  have hdecodes : ∀ decoded, Vote.fromSerialized vote.serialized = .ok decoded ↔
      decoded = vote ∧ ∀ flag, unsigned.fees ≠ some (.multiple flag []) :=
    fun decoded => Vote.fromSerialized_of_sign hsigned hrange
  -- the only flag there can be is that of a quote
  have hempty : (∀ flag, unsigned.fees ≠ some (.multiple flag [])) ↔
      vote.decoded.fees ≠ some (.multiple true []) := by
    rw [hfees]
    refine ⟨fun hne => hne true, fun hne flag heq => hne ?_⟩
    have hflag : flag = true :=
      builder.quoted _ (Option.mem_def.mpr (hschedule.symm.trans heq))
    rw [heq, hflag]
  have hrefused : ∀ accepted, Vote.verify vote.serialized ≠ .ok accepted := by
    intro accepted haccepted
    obtain ⟨hread, -⟩ := Vote.fromSerialized_of_verify haccepted
    obtain ⟨rfl, -⟩ := (hdecodes accepted).mp hread
    rw [isQuote_eq_false_of_verify haccepted] at hquote
    cases hquote
  refine ⟨?_, hrefused, fun blocks votes config moment staple hstaple hmem => ?_,
    fun bytes config moment staple hstaple other hother heq => ?_⟩
  · simp only [VoteQuote.verify, bind_eq_ok, hdecodes, VoteQuote.tryFromVote_eq_ok,
      VoteQuote.mk.injEq, ← hempty]
    constructor
    · rintro ⟨_, ⟨rfl, hne⟩, _, hsignature, -⟩
      exact ⟨hsignature, hne⟩
    · rintro ⟨hsignature, hne⟩
      exact ⟨vote, ⟨rfl, hne⟩, (), hsignature, hquote, rfl⟩
  · obtain ⟨hsound, -, -, hsorted, -⟩ := VoteStaple.tryNew_eq_ok.mp hstaple
    obtain ⟨_, hall⟩ := hsound.endorsed
    have hnot := (hall vote (hsorted ▸ (sortVotes_perm votes).mem_iff.mpr hmem)).notQuote
    rw [hquote] at hnot
    cases hnot
  · obtain ⟨-, -, hdecoded, -⟩ := VoteStaple.verify_eq_ok.mp hstaple
    obtain ⟨-, -, hverified⟩ := VoteStaple.decodeCanonical_eq_ok.mp hdecoded
    exact hrefused other (heq ▸ hverified other hother)

end Codec

end Results

end Builders

section Samples

open scoped Reference Asn1.Reference

namespace Sample

open Reference

/-- Alice's permanent vote for the sample block. -/
def permanentVote : VoteBuilder where
  serial := some 17
  issuer := some alice
  validityFrom := some Asn1.Sample.date
  blocks := [blockHash]
  permanent := true

def signPermanent (_ : Bytes) : Except AccountError Bytes :=
  .ok (octets 64 (join [
    0x0f6fec5cbf936bc45e6e905c2214cf321849bf0167b571a2,
    0xd5d8781520f3ce58edf527a67e91404d013bd7cf7dd88607882deb9f504829ba270d4dd7b0c52a00]))

/-- Alice's quote of five coins for the sample block. -/
def fiveCoins : VoteQuoteBuilder :=
  VoteQuoteBuilder.new.serial 17 |>.issuer alice |>.validity Asn1.Sample.date Asn1.Sample.date
    |>.addBlocks [blockHash] |>.fees (.single false ⟨5, none, none⟩)

def signQuote (_ : Bytes) : Except AccountError Bytes :=
  .ok (octets 64 (join [
    0xfc48bc199f5f377100ad927ef378654606ad20870d60fd0f,
    0x15ea9770dfdb0a44c3974795a26d6e62604575d23491456cf3a6dc09914cfc748fca3c57446a410e]))

end Sample

open Sample

theorem VoteBuilder.permanent_spec_sample :
    ∃ unsigned, permanentVote.buildUnsigned = .ok unsigned ∧ unsigned.fees = none := by
  obtain ⟨unsigned, h⟩ := exists_eq_ok (by decide +kernel : permanentVote.buildUnsigned.isOk = true)
  exact ⟨unsigned, h, ((permanent_spec rfl).2 unsigned h).2.1⟩

theorem quotes_stay_quotes_sample :
    ∃ quote, fiveCoins.build signQuote = .ok quote ∧
      ∀ vote, Vote.verify quote.vote.serialized ≠ .ok vote := by
  obtain ⟨quote, h⟩ := exists_eq_ok (by decide +kernel : (fiveCoins.build signQuote).isOk = true)
  exact ⟨quote, h, (quotes_stay_quotes h).2.1⟩

end Samples

end KeetaNode
