import KeetaNode.Vote.Signed
import KeetaNode.Block.Validation

/-!
# Paying fees

Which entry of a fee schedule is paid, and the `SEND` that pays it. What decoding a
certificate guarantees about its fees is what the rules for a `SEND` ask for.

- `keetanetwork-vote/src/fee.rs`
- `keetanetwork-vote/src/vote.rs` (`fee_send`)
- `keetanetwork-block/src/operation/send.rs`

## Main results

- `Fees.select_eq_some_iff`: the entry that is paid
- `Fees.payable_of_fromTransport`: decoded schedules are payable
- `Fees.Pays.validate`: a block can carry the payment
-/

namespace KeetaNode

open ByteCodec
open Asn1 (Tag Asn1Error Chrono OidCodec)

section Selection

variable [Crypto]

/-! ## Selecting an entry -/

namespace Fee

/-- Whether the entry is paid in the base token, an implicit token being the base token. -/
def paysBaseToken (fee : Fee) (base : GenericAccount) : Bool :=
  match fee.token with
  | none => true
  | some token => token.toString = base.toString

def tokenOr (fee : Fee) (base : GenericAccount) : GenericAccount := fee.token.getD base

end Fee

namespace Fees

/-- The entries in declaration order. -/
def entries : Fees → List Fee
  | single _ fee => [fee]
  | multiple _ fees => fees

/-- Whether there is no zero-amount entry, with which the payer could opt out. -/
def required (fees : Fees) : Bool := !fees.entries.any fun fee => fee.amount = 0

/-- The entry to pay: by the ranking of the tokens, else in the base token, else the first. -/
def select (fees : Fees) (base : GenericAccount) (priority : List GenericAccount) : Option Fee :=
  ((priority.findSome? fun wanted =>
    fees.entries.find? fun fee => (fee.tokenOr base).toString = wanted.toString).or
      (fees.entries.find? fun fee => fee.paysBaseToken base)).or
        fees.entries.head?

/-- The `SEND` that pays the schedule, when it must be paid. -/
def toSend (fees : Fees) (base : GenericAccount) (priority : List GenericAccount)
    (issuer : GenericAccount) : Option Send :=
  if fees.required = false then none
  else
    (fees.select base priority).map fun selected =>
      { recipient := selected.payTo.getD issuer
        amount := selected.amount
        token := selected.token.getD base
        external := none }

end Fees

/-- The `SEND` that pays a vote's required fee. -/
def Vote.feeSend (vote : Vote) (base : GenericAccount) (priority : List GenericAccount) :
    Option Send :=
  vote.decoded.fees.bind fun fees => fees.toSend base priority vote.decoded.issuer

/-! ## The entry that is paid -/

/-- The first entry that is paid in the token. -/
def FirstPaying (base token : GenericAccount) (entries : List Fee) (fee : Fee) : Prop :=
  ∃ before after, entries = before ++ fee :: after ∧ fee.tokenOr base = token ∧
    ∀ earlier ∈ before, earlier.tokenOr base ≠ token

/-- No entry is paid in the token. -/
def NonePaying (base token : GenericAccount) (entries : List Fee) : Prop :=
  ∀ fee ∈ entries, fee.tokenOr base ≠ token

/-- The entry to pay, for a base token and a ranking of tokens. -/
inductive Chosen (base : GenericAccount) (priority : List GenericAccount) (entries : List Fee) :
    Fee → Prop
  | ranked {higher lower : List GenericAccount} {wanted : GenericAccount} {fee : Fee} :
      priority = higher ++ wanted :: lower → (∀ token ∈ higher, NonePaying base token entries) →
      FirstPaying base wanted entries fee → Chosen base priority entries fee
  | base {fee : Fee} : (∀ token ∈ priority, NonePaying base token entries) →
      FirstPaying base base entries fee → Chosen base priority entries fee
  | first {fee : Fee} {rest : List Fee} : (∀ token ∈ priority, NonePaying base token entries) →
      NonePaying base base entries → entries = fee :: rest → Chosen base priority entries fee

section Lawful

variable [LawfulCrypto] {base token : GenericAccount} {priority : List GenericAccount}
  {entries : List Fee} {fee : Fee} {fees : Fees}

theorem Fee.paysBaseToken_iff : fee.paysBaseToken base = true ↔ fee.tokenOr base = base := by
  unfold paysBaseToken tokenOr
  cases fee.token with
  | none => simp
  | some token => simp [GenericAccount.toString_injective.eq_iff]

theorem find?_eq_some_iff_firstPaying :
    (entries.find? fun fee => (fee.tokenOr base).toString = token.toString) = some fee ↔
      FirstPaying base token entries fee := by
  rw [List.find?_eq_some_iff_append]
  simp only [FirstPaying, GenericAccount.toString_injective.eq_iff, decide_eq_true_eq,
    Bool.not_eq_true', decide_eq_false_iff_not]
  constructor
  · rintro ⟨hpays, before, after, hentries, hbefore⟩
    exact ⟨before, after, hentries, hpays, hbefore⟩
  · rintro ⟨before, after, hentries, hpays, hbefore⟩
    exact ⟨hpays, before, after, hentries, hbefore⟩

theorem find?_eq_none_iff_nonePaying :
    (entries.find? fun fee => (fee.tokenOr base).toString = token.toString) = none ↔
      NonePaying base token entries := by
  simp [List.find?_eq_none, NonePaying, GenericAccount.toString_injective.eq_iff]

/-- The search by ranking finds the first entry of the highest token that occurs. -/
theorem findSome?_eq_some_iff_ranked :
    (priority.findSome? fun wanted =>
      entries.find? fun fee => (fee.tokenOr base).toString = wanted.toString) = some fee ↔
    ∃ higher wanted lower, priority = higher ++ wanted :: lower ∧
      (∀ token ∈ higher, NonePaying base token entries) ∧
        FirstPaying base wanted entries fee := by
  rw [List.findSome?_eq_some_iff]
  simp only [find?_eq_some_iff_firstPaying, find?_eq_none_iff_nonePaying]
  constructor
  · rintro ⟨higher, wanted, lower, hpriority, hfirst, hhigher⟩
    exact ⟨higher, wanted, lower, hpriority, hhigher, hfirst⟩
  · rintro ⟨higher, wanted, lower, hpriority, hhigher, hfirst⟩
    exact ⟨higher, wanted, lower, hpriority, hfirst, hhigher⟩

/-- **The entry that is paid**: the highest-ranked token that occurs, else the base token,
else the first entry. -/
theorem Fees.select_eq_some_iff :
    fees.select base priority = some fee ↔ Chosen base priority fees.entries fee := by
  have hbase : (fees.entries.find? fun fee => fee.paysBaseToken base) =
      fees.entries.find? fun fee => (fee.tokenOr base).toString = base.toString := by
    congr 1
    funext fee
    rw [Bool.eq_iff_iff, Fee.paysBaseToken_iff, decide_eq_true_eq,
      GenericAccount.toString_injective.eq_iff]
  have hranked := @findSome?_eq_some_iff_ranked _ _ base priority fees.entries
  have hnone : (priority.findSome? fun wanted => fees.entries.find? fun fee =>
      (fee.tokenOr base).toString = wanted.toString) = none ↔
        ∀ token ∈ priority, NonePaying base token fees.entries := by
    simp only [List.findSome?_eq_none_iff, find?_eq_none_iff_nonePaying]
  simp only [select, hbase, Option.or_eq_some_iff, hranked, hnone, Option.or_eq_none_iff,
    find?_eq_some_iff_firstPaying, find?_eq_none_iff_nonePaying]
  constructor
  · rintro ((h | ⟨hnone, hfirst⟩) | ⟨⟨hnone, hbase⟩, hhead⟩)
    · obtain ⟨higher, wanted, lower, hpriority, hhigher, hfirst⟩ := h
      exact .ranked hpriority hhigher hfirst
    · exact .base hnone hfirst
    · obtain ⟨rest, hrest⟩ := List.head?_eq_some_iff.mp hhead
      exact .first hnone hbase hrest
  · intro h
    cases h with
    | ranked hpriority hhigher hfirst =>
      exact .inl (.inl ⟨_, _, _, hpriority, hhigher, hfirst⟩)
    | base hnone hfirst => exact .inl (.inr ⟨hnone, hfirst⟩)
    | first hnone hbase hrest =>
      exact .inr ⟨⟨hnone, hbase⟩, List.head?_eq_some_iff.mpr ⟨_, hrest⟩⟩

omit [LawfulCrypto] in
/-- A schedule with entries always has one to pay. -/
theorem Fees.exists_select (h : fees.entries ≠ []) :
    ∃ fee, fees.select base priority = some fee := by
  obtain ⟨first, rest, hentries⟩ := List.exists_cons_of_ne_nil h
  rw [← Option.isSome_iff_exists]
  simp [select, hentries]

omit [LawfulCrypto] in
theorem Chosen.mem (h : Chosen base priority entries fee) : fee ∈ entries := by
  cases h with
  | ranked _ _ hfirst | base _ hfirst =>
    obtain ⟨before, after, rfl, -⟩ := hfirst
    simp
  | first _ _ hrest => simp [hrest]

end Lawful

/-! ## Decoded schedules -/

/-- An entry with an amount that is not negative, a payee that can be paid and a token. -/
structure Fee.Payable (fee : Fee) : Prop where
  amount : 0 ≤ fee.amount
  payTo : ∀ payTo ∈ fee.payTo, canBePaid payTo.keyType = true
  token : ∀ token ∈ fee.token, token.keyType = .token

structure Fees.Payable (fees : Fees) : Prop where
  nonempty : fees.entries ≠ []
  entry : ∀ fee ∈ fees.entries, fee.Payable

theorem accountFromOctet_allowed {allowed : KeyPairType → Bool} {error : VoteError}
    {bytes : Bytes} {account : GenericAccount}
    (h : accountFromOctet allowed error bytes = .ok account) : allowed account.keyType = true := by
  simp only [accountFromOctet, bind_eq_ok, rejectIf_eq_ok, pure_eq_ok, Except.ok.injEq,
    Bool.not_eq_false] at h
  obtain ⟨_, _, _, hallowed, rfl⟩ := h
  exact hallowed

theorem optionalAccount_allowed {allowed : KeyPairType → Bool} {error : VoteError}
    {bytes : Option Bytes} {account : Option GenericAccount}
    (h : optionalAccount (accountFromOctet allowed error) bytes = .ok account) :
    ∀ a ∈ account, allowed a.keyType = true := by
  cases bytes with
  | none =>
    cases h
    simp
  | some bytes =>
    simp only [optionalAccount, bind_eq_ok, pure_eq_ok, Except.ok.injEq] at h
    obtain ⟨found, hfound, rfl⟩ := h
    simpa using accountFromOctet_allowed hfound

theorem payable_of_entryToFee {entry : Asn1.FeeEntry} {quote : Bool} {fee : Fee}
    (h : entryToFee entry = .ok (quote, fee)) : fee.Payable := by
  simp only [entryToFee, bind_eq_ok, rejectIf_eq_ok, pure_eq_ok, Except.ok.injEq,
    Prod.mk.injEq] at h
  obtain ⟨_, hamount, payTo, hpayTo, token, htoken, _, rfl⟩ := h
  refine ⟨not_lt.mp hamount, optionalAccount_allowed hpayTo, fun a ha => ?_⟩
  simpa using optionalAccount_allowed htoken a ha

theorem payable_of_collectEntries {entries : List Asn1.FeeEntry} :
    ∀ {found found' : Option Bool} {fees : List Fee},
      Fees.collectEntries found entries = .ok (found', fees) →
        fees.length = entries.length ∧ ∀ fee ∈ fees, fee.Payable := by
  induction entries with
  | nil =>
    intro found found' fees h
    cases h
    simp
  | cons entry entries ih =>
    intro found found' fees h
    simp only [Fees.collectEntries, bind_eq_ok, pure_eq_ok, Except.ok.injEq, Prod.mk.injEq] at h
    obtain ⟨⟨quote, fee⟩, hfee, _, _, ⟨rest, fees⟩, hrest, _, rfl⟩ := h
    obtain ⟨hlength, hall⟩ := ih hrest
    refine ⟨by simp [hlength], ?_⟩
    rw [List.forall_mem_cons]
    exact ⟨payable_of_entryToFee hfee, hall⟩

/-- **A decoded schedule is payable.** -/
theorem Fees.payable_of_fromTransport {body : Asn1.FeesBody} {fees : Fees}
    (h : fromTransport body = .ok fees) : fees.Payable := by
  cases body with
  | single entry =>
    simp only [fromTransport, bind_eq_ok, pure_eq_ok, Except.ok.injEq] at h
    obtain ⟨⟨quote, fee⟩, hfee, rfl⟩ := h
    exact ⟨by simp [entries], by simpa [entries] using payable_of_entryToFee hfee⟩
  | multiple entries =>
    simp only [fromTransport, bind_eq_ok, rejectIf_eq_ok, pure_eq_ok, Except.ok.injEq] at h
    obtain ⟨_, hne, ⟨found, fees⟩, hfees, quote, _, rfl⟩ := h
    obtain ⟨hlength, hall⟩ := payable_of_collectEntries hfees
    refine ⟨fun hnil => hne ?_, hall⟩
    rw [← List.length_eq_zero_iff, ← hlength, List.length_eq_zero_iff]
    exact hnil

/-! ## Verified votes -/

section Codec

variable [Tlv Tag Asn1Error] [OidCodec]

theorem payable_of_collectExtensions {extensions : List Asn1.Extension}
    {blocks : List BlockHash} {fees : Option Fees}
    (h : collectExtensions extensions = .ok (blocks, fees)) : ∀ f ∈ fees, f.Payable := by
  -- the fees found so far are payable, whatever extensions follow
  have hloop : ∀ (extensions : List Asn1.Extension) (collected collected' : Collected),
      (∀ f ∈ collected.fees, f.Payable) →
        extensions.foldlM collectExtension collected = .ok collected' →
          ∀ f ∈ collected'.fees, f.Payable := by
    intro extensions
    induction extensions with
    | nil =>
      intro collected collected' hfees h
      cases h
      exact hfees
    | cons extension extensions ih =>
      intro collected collected' hfees h
      obtain ⟨next, hnext, hrest⟩ := foldlM_cons_eq_ok.mp h
      refine ih next collected' ?_ hrest
      unfold collectExtension at hnext
      split at hnext
      · simp only [bind_eq_ok, pure_eq_ok, Except.ok.injEq] at hnext
        obtain ⟨_, _, rfl⟩ := hnext
        exact hfees
      split at hnext
      · simp only [feesFromExtension, bind_eq_ok, pure_eq_ok, Except.ok.injEq] at hnext
        obtain ⟨found, ⟨body, _, hbody⟩, rfl⟩ := hnext
        simpa using Fees.payable_of_fromTransport hbody
      split at hnext
      · cases hnext
      · cases hnext
        exact hfees
  simp only [collectExtensions, bind_eq_ok, pure_eq_ok, Except.ok.injEq, Prod.mk.injEq] at h
  obtain ⟨collected, hcollected, _, _, _, rfl⟩ := h
  exact hloop extensions ⟨none, none⟩ collected (by simp) hcollected

variable [NumBigint] [Chrono] {bytes : Bytes} {vote : Vote}

theorem payable_of_fromSerialized (h : Vote.fromSerialized bytes = .ok vote) :
    ∀ fees ∈ vote.decoded.fees, fees.Payable := by
  obtain ⟨_, hdecoded, _⟩ := Vote.fromSerialized_eq_ok.mp h
  simp only [decodeWrapper, bind_eq_ok, pure_eq_ok, Except.ok.injEq] at hdecoded
  obtain ⟨_, _, _, _, _, _, _, _, _, _, _, _, _, _, _, _, ⟨blocks, fees⟩, hfees, heq⟩ := hdecoded
  rw [← heq]
  exact payable_of_collectExtensions hfees

/-- A vote is issued by a key that signs. -/
theorem canBePaid_issuer (h : Vote.fromSerialized bytes = .ok vote) :
    canBePaid vote.decoded.issuer.keyType = true := by
  obtain ⟨_, _, tbs, htbs, _⟩ := Vote.fromSerialized_eq_ok.mp h
  have halgo := (buildTbs_eq_ok.mp htbs).1
  unfold SignatureAlgo.fromIssuer at halgo
  cases hkind : vote.decoded.issuer.keyType <;> simp [hkind] at halgo ⊢ <;> decide

end Codec

/-! ## The payment -/

/-- The vote has a schedule without an optional entry. -/
def Vote.Obliges (vote : Vote) : Prop :=
  ∃ fees ∈ vote.decoded.fees, ∀ fee ∈ fees.entries, fee.amount ≠ 0

instance Vote.obliges_decidable (vote : Vote) : Decidable vote.Obliges :=
  inferInstanceAs (Decidable (∃ fees ∈ vote.decoded.fees, _))

/-- The `SEND` pays the chosen entry of the vote's schedule. -/
def Pays (base : GenericAccount) (priority : List GenericAccount) (vote : Vote) (send : Send) :
    Prop :=
  ∃ fees fee, vote.decoded.fees = some fees ∧ Chosen base priority fees.entries fee ∧
    send = {
      recipient := fee.payTo.getD vote.decoded.issuer
      amount := fee.amount
      token := fee.tokenOr base
      external := none }

/-- A payment that a block of any account but a token can carry on a known network. -/
structure Send.Acceptable (send : Send) : Prop where
  amount : 0 < send.amount
  token : send.token.keyType = .token
  validate : ∀ (ctx : OperationContext) (network : Int) (config : ValidationConfig),
    ValidationConfig.forNetwork network = .ok config → ctx.config = some config →
      ctx.account.keyType ≠ .token → Send.validate ctx send = .ok ()

theorem Fees.required_iff {fees : Fees} :
    fees.required = true ↔ ∀ fee ∈ fees.entries, fee.amount ≠ 0 := by
  simp [required]

/-- What the rules for a `SEND` ask of a payment. -/
theorem Send.acceptable {send : Send} (hamount : 0 < send.amount)
    (htoken : send.token.keyType = .token) (hrecipient : canBePaid send.recipient.keyType = true)
    (hexternal : send.external = none) : send.Acceptable := by
  refine ⟨hamount, htoken, fun ctx network config hconfig hctx haccount => ?_⟩
  have hdefault : config = ValidationConfig.default := by
    simp only [ValidationConfig.forNetwork, bind_eq_ok, pure_eq_ok, Except.ok.injEq] at hconfig
    obtain ⟨_, _, rfl⟩ := hconfig
    rfl
  -- a token may not be paid, so that the guard for sends to a token does not apply
  have hnot : send.recipient.keyType ≠ .token := by
    intro htoken
    rw [htoken] at hrecipient
    revert hrecipient
    decide
  have hctxToken : ctx.accountIsToken = false := by
    simpa [OperationContext.accountIsToken] using haccount
  have hguard : ctx.guardTokenAmount send.token send.amount = .ok () := by
    simp [OperationContext.guardTokenAmount, OperationContext.validateNumeric, htoken,
      rejectIf_neg, hamount.le]
  simp [Send.validate, hguard, hctxToken, hnot, OperationContext.requireConfig, hctx,
    Send.checkExternal, hexternal, hdefault, rejectIf_neg, ValidationConfig.default]

theorem Vote.feeSend_of_not_obliges {vote : Vote} (h : ¬ vote.Obliges) (base : GenericAccount)
    (priority : List GenericAccount) : vote.feeSend base priority = none := by
  unfold feeSend
  cases hfees : vote.decoded.fees with
  | none => rfl
  | some fees =>
    have hoptional : fees.required = false := by
      rw [← Bool.not_eq_true, Fees.required_iff]
      exact fun hall => h ⟨fees, hfees, hall⟩
    simp [Fees.toSend, hoptional]

/-- **A required fee is paid by an acceptable `SEND` of the chosen entry.** -/
theorem Vote.feeSend_of_obliges [LawfulCrypto] {vote : Vote} {base : GenericAccount}
    (priority : List GenericAccount) (hbase : base.keyType = .token)
    (hpayable : ∀ fees ∈ vote.decoded.fees, fees.Payable)
    (hissuer : canBePaid vote.decoded.issuer.keyType = true) (h : vote.Obliges) :
    ∃ send, vote.feeSend base priority = some send ∧ Pays base priority vote send ∧
      send.Acceptable := by
  obtain ⟨fees, hfees, hall⟩ := h
  obtain ⟨fee, hselect⟩ : ∃ fee, fees.select base priority = some fee :=
    Fees.exists_select (hpayable fees hfees).nonempty
  have hchosen := Fees.select_eq_some_iff.mp hselect
  have hentry := (hpayable fees hfees).entry fee hchosen.mem
  have hsend : vote.feeSend base priority = some {
      recipient := fee.payTo.getD vote.decoded.issuer
      amount := fee.amount
      token := fee.tokenOr base
      external := none } := by
    rw [feeSend, Option.mem_def.mp hfees, Option.bind_some, Fees.toSend,
      if_neg (by simp [Fees.required_iff.mpr hall]), hselect]
    rfl
  -- what the fee leaves out is the base token, and the issuer as the one who is paid
  refine ⟨_, hsend, ⟨fees, fee, hfees, hchosen, rfl⟩, Send.acceptable ?_ ?_ ?_ rfl⟩
  · exact lt_of_le_of_ne hentry.amount (Ne.symm (hall fee hchosen.mem))
  · cases htoken : fee.token with
    | none => simpa [Fee.tokenOr, htoken] using hbase
    | some token => simpa [Fee.tokenOr, htoken] using hentry.token token htoken
  · cases hpayTo : fee.payTo with
    | none => simpa [hpayTo] using hissuer
    | some payTo => simpa [hpayTo] using hentry.payTo payTo hpayTo

end Selection

end KeetaNode
