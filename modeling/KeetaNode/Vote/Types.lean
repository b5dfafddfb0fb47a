import KeetaNode.Block.Types
import KeetaNode.Asn1.Vote.Types

/-!
# Fees and validity of votes

What a vote carries besides its block hashes: an optional fee schedule and a validity
period, with the errors of the vote crate.

- `keetanetwork-vote/src/error.rs`
- `keetanetwork-vote/src/fee.rs`
- `keetanetwork-vote/src/validity.rs`
- `keetanetwork-vote/src/validation.rs`
-/

namespace KeetaNode

open ByteCodec

/-! ## Errors -/

/-- The list inside a staple that was malformed. -/
inductive StapleElement where
  | blocks | votes
  deriving DecidableEq, Repr

inductive VoteError where
  | asn1 (source : Asn1.Asn1Error)
  | account (source : AccountError)
  | block (source : BlockError)
  | serialMismatch
  | invalidVersion
  | expired
  | invalidValidity
  | momentBeforeValidityFrom
  | malformedStaple
  | stapleBlocksAtLeastOne
  | stapleVotesAtLeastOne
  | malformedStapleElement (what : StapleElement)
  | stapleBlockCountMismatch
  | stapleMissingBlock
  | stapleBlockOrderMismatch
  | stapleDuplicateIssuer
  | staplePermanenceMismatch
  | stapleInvalidConstruction
  | malformedWrapper
  | malformedVoteWrapper
  | malformedVoteContent
  | malformedVoteContentExtraData
  | malformedVoteVersion
  | malformedVoteSerial
  | malformedVoteSignatureInformation
  | malformedVoteIssuerInformation
  | malformedVoteSubjectInformation
  | malformedVoteValidityInformation
  | malformedVoteExtensions
  | malformedVoteExtensionsValueCriticalType
  | malformedVoteSignatureSchemeDoesNotMatchWrapper
  | malformedVoteSignatureSchemeDoesNotMatchIssuer
  | malformedVoteSubjectPublicKeyInformation
  | malformedVoteSignatureValue
  | malformedVoteNoBlocksFound
  | malformedHashesFromVoteInvalidInput
  | malformedHashesFromVoteDataUnsupportedHashFunc
  | malformedHashesFromVoteDataUnsupportedHashType
  | malformedFeesAmount
  | malformedFeesFromVoteInvalidInput
  | malformedFeesInPermanentVote
  | malformedFeesQuoteInvalid
  | malformedFeesInvalidQuoteValue
  | malformedFeesMultipleFeeEmpty
  | malformedFeesPayToInvalid
  | malformedFeesTokenNotToken
  | feeNotQuote
  | malformedNonCanonicalEncoding
  deriving DecidableEq, Repr

/-- A failed codec call as an error of the vote crate. -/
def asVoteAsn1Error {α : Type} : Except Asn1.Asn1Error α → Except VoteError α
  | .ok a => .ok a
  | .error e => .error (.asn1 e)

/-- A failed account call as an error of the vote crate. -/
def asVoteAccountError {α : Type} : Except AccountError α → Except VoteError α
  | .ok a => .ok a
  | .error e => .error (.account e)

/-- A failed call of which only the failure is kept (`map_err(|_| error)`). -/
def orVoteError {ε α : Type} (error : VoteError) : Except ε α → Except VoteError α
  | .ok a => .ok a
  | .error _ => .error error

@[simp] theorem orVoteError_eq_ok {ε α : Type} {error : VoteError} {x : Except ε α} {a : α} :
    orVoteError error x = .ok a ↔ x = .ok a := by
  cases x <;> simp [orVoteError]

@[simp] theorem asVoteAsn1Error_eq_ok {α : Type} {x : Except Asn1.Asn1Error α} {a : α} :
    asVoteAsn1Error x = .ok a ↔ x = .ok a := by
  cases x <;> simp [asVoteAsn1Error]

@[simp] theorem asVoteAccountError_eq_ok {α : Type} {x : Except AccountError α} {a : α} :
    asVoteAccountError x = .ok a ↔ x = .ok a := by
  cases x <;> simp [asVoteAccountError]

/-! ## Validity -/

/-- Per-network parameters for vote validation, in milliseconds (`ValidationConfig`). -/
structure VoteConfig where
  allowedSlopMs : Int
  permanentVoteThresholdMs : Int
  deriving DecidableEq, Repr

def VoteConfig.default : VoteConfig where
  allowedSlopMs := 60 * 1000
  permanentVoteThresholdMs := 100 * 365 * 86400 * 1000

/-- The nearest `i64`. -/
def saturate (value : Int) : Int := max (-2 ^ 63) (min (2 ^ 63 - 1) value)

def saturatingAdd (a b : Int) : Int := saturate (a + b)

def saturatingSub (a b : Int) : Int := saturate (a - b)

/-- Validity range of a vote, inclusive on both endpoints; its fields are public. -/
structure Validity where
  start : BlockTime
  stop : BlockTime
  deriving DecidableEq

namespace Validity

variable (validity : Validity) (moment : BlockTime) (config : VoteConfig)

/-- Whether `validity_from <= validity_to`. -/
def rangeIsWellFormed : Bool := decide (unixMillis validity.start ≤ unixMillis validity.stop)

def tryNew (start stop : BlockTime) : Except VoteError Validity := do
  let validity : Validity := { start, stop }
  rejectIf (validity.rangeIsWellFormed = false) .invalidValidity
  return validity

def isExpiredAt : Bool :=
  let now := unixMillis moment
  saturatingAdd now config.allowedSlopMs < unixMillis validity.start ||
    saturatingSub now config.allowedSlopMs > unixMillis validity.stop

def momentIsBeforeFrom : Bool :=
  decide (unixMillis moment < saturatingSub (unixMillis validity.start) config.allowedSlopMs)

def ensureActiveAt : Except VoteError Unit := do
  rejectIf (validity.momentIsBeforeFrom moment config = true) .momentBeforeValidityFrom
  rejectIf (validity.isExpiredAt moment config = true) .expired

def isPermanentAt : Bool :=
  decide (unixMillis validity.stop >
    saturatingAdd (unixMillis moment) config.permanentVoteThresholdMs)

end Validity

theorem Validity.tryNew_eq_ok {start stop : BlockTime} {validity : Validity} :
    Validity.tryNew start stop = .ok validity ↔
      validity = ⟨start, stop⟩ ∧ validity.rangeIsWellFormed = true := by
  simp only [tryNew, bind_eq_ok, rejectIf_eq_ok, pure_eq_ok, Except.ok.injEq, Bool.not_eq_false]
  constructor
  · rintro ⟨-, h, rfl⟩
    exact ⟨rfl, h⟩
  · rintro ⟨rfl, h⟩
    exact ⟨(), h, rfl⟩

/-! ### Active votes -/

/-- A moment of the calendar is far from the ends of an `i64`. -/
theorem unixMillis_bounds (time : BlockTime) :
    -2 ^ 63 < unixMillis time ∧ unixMillis time < 2 ^ 63 - 1 := by
  obtain ⟨year, month, day, hour, minute, second, millis, hvalid⟩ := time
  obtain ⟨hyear, hmonth, hday, hhour, hminute, hsecond, hmillis⟩ := hvalid
  have hdays := Asn1.daysInMonth_le year month
  simp only [unixMillis, daysFromEpoch]
  split <;> omega

/-- The moment lies in the period, give or take the slop. -/
def Validity.ActiveAt (validity : Validity) (moment : BlockTime) (config : VoteConfig) : Prop :=
  unixMillis validity.start - config.allowedSlopMs ≤ unixMillis moment ∧
    unixMillis moment ≤ unixMillis validity.stop + config.allowedSlopMs

/-- Saturation does not show: no moment is at the end of the range it saturates to. -/
theorem Validity.ensureActiveAt_eq_ok {validity : Validity} {moment : BlockTime}
    {config : VoteConfig} {u : Unit} :
    validity.ensureActiveAt moment config = .ok u ↔ validity.ActiveAt moment config := by
  have hstart := unixMillis_bounds validity.start
  have hstop := unixMillis_bounds validity.stop
  have hmoment := unixMillis_bounds moment
  rw [ensureActiveAt, rejectIf_bind_eq_ok, rejectIf_eq_ok]
  simp only [momentIsBeforeFrom, isExpiredAt, decide_eq_true_eq, Bool.or_eq_true, ActiveAt]
  unfold saturatingAdd saturatingSub saturate
  omega

/-! ## Fees -/

variable [Crypto]

/-- A single fee entry attached to a vote. -/
structure Fee where
  amount : Int
  payTo : Option GenericAccount
  token : Option GenericAccount
  deriving DecidableEq

/-- Fees attached to a vote; all entries share the `quote` flag. -/
inductive Fees where
  | single (quote : Bool) (fee : Fee)
  | multiple (quote : Bool) (fees : List Fee)
  deriving DecidableEq

/-- The kinds of accounts that can be paid a fee. -/
def canBePaid (keyType : KeyPairType) : Bool :=
  keyType ∈ [.ecdsaSecp256k1, .ecdsaSecp256r1, .ed25519, .storage]

def Fee.toEntry (quote : Bool) (fee : Fee) : Except VoteError Asn1.FeeEntry := do
  rejectIf (fee.amount < 0) .malformedFeesAmount
  rejectIf (∃ token ∈ fee.token, token.keyType ≠ .token) .malformedFeesTokenNotToken
  rejectIf (∃ payTo ∈ fee.payTo, canBePaid payTo.keyType = false) .malformedFeesPayToInvalid
  return {
    quote
    amount := fee.amount
    payTo := fee.payTo.map GenericAccount.toPublicKeyWithType
    token := fee.token.map GenericAccount.toPublicKeyWithType }

/-- `account_from_octet` for both uses: the accounts allowed and the error otherwise. -/
def accountFromOctet (allowed : KeyPairType → Bool) (error : VoteError) (bytes : Bytes) :
    Except VoteError GenericAccount := do
  let account ← orVoteError error (GenericAccount.fromHex (hexEncode bytes))
  rejectIf (allowed account.keyType = false) error
  return account

def payToFromOctet (bytes : Bytes) : Except VoteError GenericAccount :=
  accountFromOctet canBePaid .malformedFeesPayToInvalid bytes

def tokenFromOctet (bytes : Bytes) : Except VoteError GenericAccount :=
  accountFromOctet (· == .token) .malformedFeesTokenNotToken bytes

/-- An optional account (`map(..).transpose()`). -/
def optionalAccount (read : Bytes → Except VoteError GenericAccount) :
    Option Bytes → Except VoteError (Option GenericAccount)
  | none => .ok none
  | some bytes => do return some (← read bytes)

def entryToFee (entry : Asn1.FeeEntry) : Except VoteError (Bool × Fee) := do
  rejectIf (entry.amount < 0) .malformedFeesAmount
  let payTo ← optionalAccount payToFromOctet entry.payTo
  let token ← optionalAccount tokenFromOctet entry.token
  return (entry.quote, { amount := entry.amount, payTo, token })

namespace Fees

def quote : Fees → Bool
  | single quote _ => quote
  | multiple quote _ => quote

def toTransport : Fees → Except VoteError Asn1.FeesBody
  | single quote fee => do return .single (← fee.toEntry quote)
  | multiple quote fees => do return .multiple (← fees.mapM (Fee.toEntry quote))

/-- The loop over the entries of a list; `found` is the flag of the entries so far. -/
def collectEntries : Option Bool → List Asn1.FeeEntry → Except VoteError (Option Bool × List Fee)
  | found, [] => .ok (found, [])
  | found, entry :: entries => do
    let (quote, fee) ← entryToFee entry
    rejectIf (∃ existing ∈ found, existing ≠ quote) .malformedFeesInvalidQuoteValue
    let (found, fees) ← collectEntries (some (found.getD quote)) entries
    return (found, fee :: fees)

def fromTransport : Asn1.FeesBody → Except VoteError Fees
  | .single entry => do
    let (quote, fee) ← entryToFee entry
    return single quote fee
  | .multiple entries => do
    rejectIf (entries = []) .malformedFeesMultipleFeeEmpty
    let (found, fees) ← collectEntries none entries
    let quote ← found.elim (throw .malformedFeesInvalidQuoteValue) pure
    return multiple quote fees

end Fees

/-! ### Schedules are read back -/

section RoundTrip

variable [LawfulCrypto]

theorem accountFromOctet_typed {allowed : KeyPairType → Bool} {error : VoteError}
    {account : GenericAccount} (h : allowed account.keyType = true) :
    accountFromOctet allowed error account.toPublicKeyWithType = .ok account := by
  simp [accountFromOctet, GenericAccount.fromHex_toPublicKeyWithType, orVoteError, h, rejectIf_neg]

theorem optionalAccount_typed {allowed : KeyPairType → Bool} {error : VoteError}
    {account : Option GenericAccount} (h : ∀ a ∈ account, allowed a.keyType = true) :
    optionalAccount (accountFromOctet allowed error)
      (account.map GenericAccount.toPublicKeyWithType) = .ok account := by
  cases account with
  | none => rfl
  | some a => simp [optionalAccount, accountFromOctet_typed (h a rfl)]

theorem entryToFee_toEntry {quote : Bool} {fee : Fee} {entry : Asn1.FeeEntry}
    (h : fee.toEntry quote = .ok entry) : entryToFee entry = .ok (quote, fee) := by
  simp only [Fee.toEntry, bind_eq_ok, rejectIf_eq_ok, pure_eq_ok, Except.ok.injEq] at h
  obtain ⟨_, hamount, _, htoken, _, hpayTo, rfl⟩ := h
  have hpaid : ∀ a ∈ fee.payTo, canBePaid a.keyType = true := by
    intro a ha
    by_contra hne
    exact hpayTo ⟨a, ha, by simpa using hne⟩
  have htyped : ∀ a ∈ fee.token, (a.keyType == .token) = true := by
    intro a ha
    by_contra hne
    exact htoken ⟨a, ha, by simpa using hne⟩
  have hpayTo : optionalAccount payToFromOctet
      (fee.payTo.map GenericAccount.toPublicKeyWithType) = .ok fee.payTo :=
    optionalAccount_typed hpaid
  have htoken : optionalAccount tokenFromOctet
      (fee.token.map GenericAccount.toPublicKeyWithType) = .ok fee.token :=
    @optionalAccount_typed _ _ (· == .token) _ _ htyped
  simp only [entryToFee, rejectIf_neg hamount, ok_bind, hpayTo, htoken, pure_eq_ok]

theorem collectEntries_toEntry {quote : Bool} {fees : List Fee} {entries : List Asn1.FeeEntry}
    (h : fees.mapM (Fee.toEntry quote) = .ok entries) :
    ∀ found : Option Bool, (∀ existing ∈ found, existing = quote) →
      ∃ found', Fees.collectEntries found entries = .ok (found', fees) ∧
        (fees ≠ [] ∨ found = some quote → found' = some quote) := by
  rw [mapM_eq_ok_iff] at h
  induction h with
  | nil =>
    intro found hfound
    exact ⟨found, rfl, by simp⟩
  | cons hentry hrest ih =>
    intro found hfound
    have hflag : found.getD quote = quote := by
      cases found with
      | none => rfl
      | some existing => exact hfound existing rfl
    -- from the first entry on, the flag is that of the schedule
    obtain ⟨found', hcollected, hquote⟩ := ih (some quote) (by simp)
    refine ⟨found', ?_, fun _ => hquote (.inr rfl)⟩
    have hsame : ¬ ∃ existing ∈ found, existing ≠ quote := by
      rintro ⟨existing, hmem, hne⟩
      exact hne (hfound existing hmem)
    simp only [Fees.collectEntries, entryToFee_toEntry hentry, ok_bind, rejectIf_neg hsame, hflag,
      hcollected, pure_eq_ok]

/-- **A schedule is read back exactly when it is not an empty list.** -/
theorem Fees.fromTransport_toTransport {fees : Fees} {body : Asn1.FeesBody}
    (h : fees.toTransport = .ok body) (parsed : Fees) :
    Fees.fromTransport body = .ok parsed ↔
      parsed = fees ∧ ∀ quote, fees ≠ .multiple quote [] := by
  cases fees with
  | single quote fee =>
    simp only [toTransport, bind_eq_ok, pure_eq_ok, Except.ok.injEq] at h
    obtain ⟨entry, hentry, rfl⟩ := h
    simp only [fromTransport, entryToFee_toEntry hentry, ok_bind, pure_eq_ok, Except.ok.injEq,
      ne_eq, reduceCtorEq, not_false_eq_true, implies_true, and_true]
    exact eq_comm
  | multiple quote entries =>
    simp only [toTransport, bind_eq_ok, pure_eq_ok, Except.ok.injEq] at h
    obtain ⟨body, hbody, rfl⟩ := h
    obtain ⟨found, hcollected, hquote⟩ := collectEntries_toEntry hbody none (by simp)
    cases entries with
    | nil =>
      cases hbody
      simp [fromTransport, rejectIf]
    | cons first rest =>
      have hne : body ≠ [] := by
        rintro rfl
        cases (mapM_eq_ok_iff.mp hbody)
      obtain rfl := hquote (.inl (by simp))
      simp only [fromTransport, rejectIf_neg hne, ok_bind, hcollected, Option.elim_some, pure_eq_ok,
        Except.ok.injEq, ne_eq, multiple.injEq, reduceCtorEq, and_false, not_false_eq_true,
        implies_true, and_true]
      exact eq_comm

end RoundTrip

end KeetaNode
