import KeetaNode.Client.Builder
import KeetaNode.Vote.Fees

/-!
# Fees of a round of votes

Whether votes oblige the client to pay, and the operations of the block that pays them.

- `keetanetwork-client/src/client.rs` (`fee_operations`, `fees_required`)
-/

namespace KeetaNode.Client

open ByteCodec
open Asn1 (Tag Asn1Error Chrono OidCodec)

section Fees

variable [Crypto]

/-- Whether any vote carries a required fee schedule. -/
def feesRequired (votes : List Vote) : Bool :=
  votes.any fun vote => vote.decoded.fees.any Fees.required

/-- The operations of a fee block; `baseToken` is the base token of the client's network. -/
def feeOperations (baseToken : Except ClientError GenericAccount) (votes : List Vote)
    (priority : List GenericAccount) : Except ClientError (List Send) := do
  let base ← baseToken
  return votes.filterMap fun vote => vote.feeSend base priority

theorem feesRequired_iff {votes : List Vote} :
    feesRequired votes = true ↔ ∃ vote ∈ votes, vote.Obliges := by
  simp only [feesRequired, List.any_eq_true, Option.any_eq_true, Fees.required_iff, Vote.Obliges,
    Option.mem_def]

variable [LawfulCrypto] [Tlv Tag Asn1Error] [OidCodec] [NumBigint] [Chrono]

/-- **Every required fee is paid by one acceptable operation, in the order of the votes.** -/
theorem feeOperations_spec {votes : List Vote} {base : GenericAccount}
    (priority : List GenericAccount) (hbase : base.keyType = .token)
    (hvotes : ∀ vote ∈ votes, ∃ bytes, Vote.verify bytes = .ok vote) :
    ∃ sends, feeOperations (.ok base) votes priority = .ok sends ∧
      List.Forall₂ (Pays base priority) (votes.filter fun vote => vote.Obliges) sends ∧
      (sends ≠ [] ↔ feesRequired votes = true) ∧ ∀ send ∈ sends, send.Acceptable := by
  refine ⟨_, rfl, ?_⟩
  rw [feesRequired_iff]
  induction votes with
  | nil => simp
  | cons vote votes ih =>
    obtain ⟨hvote, hrest⟩ := List.forall_mem_cons.mp hvotes
    obtain ⟨hpays, hnonempty, hacceptable⟩ := ih hrest
    by_cases hobliges : vote.Obliges
    · -- what was read of a vote that obliges is enough to pay it
      obtain ⟨bytes, hverify⟩ := hvote
      have hread := (Vote.fromSerialized_of_verify hverify).1
      obtain ⟨send, hsend, hpay, haccept⟩ := Vote.feeSend_of_obliges priority hbase
        (payable_of_fromSerialized hread) (canBePaid_issuer hread) hobliges
      simp only [List.filterMap_cons, hsend, List.filter_cons, hobliges, decide_true, if_true]
      refine ⟨.cons hpay hpays, ?_, List.forall_mem_cons.mpr ⟨haccept, hacceptable⟩⟩
      simp [hobliges]
    · simp only [List.filterMap_cons, Vote.feeSend_of_not_obliges hobliges, List.filter_cons,
        hobliges, decide_false, Bool.false_eq_true, if_false, List.exists_mem_cons_iff, false_or]
      exact ⟨hpays, hnonempty, hacceptable⟩

end Fees

section Sample

open scoped Reference Asn1.Reference

/-- A vote that asks for five of the base token, to be paid to its issuer. -/
theorem feeOperations_spec_sample :
    ∃ vote sends, Sample.vote Reference.alice [Sample.blockHash]
        (some (.single false ⟨5, none, none⟩)) = .ok vote ∧
      feeOperations (.ok (Reference.identifier .token 0x33 rfl)) [vote] [] = .ok sends ∧
        (sends ≠ [] ↔ feesRequired [vote] = true) := by
  obtain ⟨⟨⟩, h⟩ := exists_eq_ok (by decide +kernel :
    (Sample.vote Reference.alice [Sample.blockHash] (some (.single false ⟨5, none, none⟩)) >>=
      fun vote => vote.verifySignature >>= fun _ => vote.assertQuoteFlag false).isOk = true)
  simp only [bind_eq_ok] at h
  obtain ⟨vote, hvote, ⟨⟩, hsignature, hquote⟩ := h
  have hvotes : ∀ vote' ∈ [vote], ∃ bytes, Vote.verify bytes = .ok vote' := by
    intro vote' hmem
    rw [List.mem_singleton.mp hmem]
    exact ⟨_, Vote.verify_of_sign_fees hvote (by decide +kernel) (by simp [Sample.unsignedVote])
      hquote hsignature⟩
  have hbase : (Reference.identifier .token 0x33 rfl).keyType = .token := rfl
  obtain ⟨sends, hsends, -, hnonempty, -⟩ := feeOperations_spec [] hbase hvotes
  exact ⟨vote, sends, hvote, hsends, hnonempty⟩

end Sample

end KeetaNode.Client
