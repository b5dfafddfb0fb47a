import KeetaNode.Client.Transmit

/-!
# What a transmission guarantees

Which requests a transmission makes and when, that it has success once, that the peers accept
what it publishes, and that the order in which answers arrive makes no difference.

- `keetanetwork-client/src/client.rs` (`transmit`, `transmit_with_optional_fee`,
  `transmit_round`, `request_votes`, `transmit_staple`)

## Main results

- `transmit_guarded`: a transmission keeps to the protocol of the two rounds
- `transmit_accepts_once`: after its success a transmission does nothing else
- `transmit_published_verifies`: the peers accept what is published
- `transmitRound_rearranged`: the order of arrival makes no difference to what is published
-/

namespace KeetaNode.Client

open ByteCodec
open Asn1 (Tag Asn1Error Chrono LawfulChrono OidCodec)

section Transmission

variable [Crypto] [Tlv Tag Asn1Error] [Zlib]

/-! ## The protocol -/

section Protocol

variable {singleRep : Bool} {blocks : List Block} {asking : Asking} {question : Question}

/-- What allows an event of a transmission. Nobody is asked for a permanent vote that has not
given a temporary one, nothing is voted on unasked, and a staple has no other votes than those
that were given for its blocks. -/
def Permits (singleRep : Bool) (blocks : List Block) (before : List TransmitEvent) :
    TransmitEvent → Prop
  | .asked .temporary key all prior quote =>
    all = blocks ∧ prior = [] ∧ ∀ own ∈ quote, own.vote.decoded.issuer.toString = key
  | .asked .permanent key all prior quote =>
    quote = none ∧ prior ≠ [] ∧
      (∀ vote ∈ prior, ∃ other, .voted .temporary other vote ∈ before) ∧
      (singleRep = false → ∃ vote ∈ prior, .voted .temporary key vote ∈ before) ∧
      if feesRequired prior then ∃ feeBlock, all = blocks ++ [feeBlock] else all = blocks
  | .voted round key _ => ∃ all prior quote, .asked round key all prior quote ∈ before
  | .published _ staple _ =>
    ∃ all prior, staple.blocks.Perm all ∧ staple.votes ≠ [] ∧ ∀ vote ∈ staple.votes, ∃ key,
      .asked .permanent key all prior none ∈ before ∧ .voted .permanent key vote ∈ before
  | .slept _ => True

omit [Tlv Tag Asn1Error] [Zlib] in
theorem persistent_permits (singleRep : Bool) (blocks : List Block) :
    Persistent (Permits singleRep blocks) := by
  rintro before before' event hsub h
  match event with
  | .asked .temporary _ _ _ _ => exact h
  | .asked .permanent _ _ _ _ =>
    obtain ⟨hquote, hprior, hvoted, hown, hall⟩ := h
    refine ⟨hquote, hprior, fun vote hvote => ?_, fun hsingle => ?_, hall⟩
    · obtain ⟨other, hother⟩ := hvoted vote hvote
      exact ⟨other, hsub hother⟩
    · obtain ⟨vote, hvote, hmem⟩ := hown hsingle
      exact ⟨vote, hvote, hsub hmem⟩
  | .voted _ _ _ =>
    obtain ⟨all, prior, quote, hmem⟩ := h
    exact ⟨all, prior, quote, hsub hmem⟩
  | .published _ _ _ =>
    obtain ⟨all, prior, hperm, hvotes, hgiven⟩ := h
    refine ⟨all, prior, hperm, hvotes, fun vote hvote => ?_⟩
    obtain ⟨key, hasked, hvoted⟩ := hgiven vote hvote
    exact ⟨key, hsub hasked, hsub hvoted⟩
  | .slept _ => exact h

omit [Tlv Tag Asn1Error] [Zlib] in
/-- A representative receives a quote of its own only. -/
theorem issuer_of_quotesByIssuer {quotes : List VoteQuote} {key : String} {quote : VoteQuote}
    (h : quotesByIssuer quotes key = some quote) :
    quote ∈ quotes ∧ quote.vote.decoded.issuer.toString = key := by
  induction quotes using List.reverseRecOn with
  | nil => cases h
  | append_singleton quotes last ih =>
    rw [quotesByIssuer, List.foldl_append, List.foldl_cons, List.foldl_nil, ← quotesByIssuer,
      Function.update_apply] at h
    split at h <;> rename_i hkey
    · cases h
      exact ⟨List.mem_append_right _ (List.mem_singleton_self _), hkey.symm⟩
    · obtain ⟨hmem, hissuer⟩ := ih h
      exact ⟨List.mem_append_left _ hmem, hissuer⟩

omit [Tlv Tag Asn1Error] [Zlib] in
theorem mem_contactsFor {picks : List Pick} {prior : List Vote} {pick : Pick} (hne : prior ≠ []) :
    pick ∈ contactsFor picks prior ↔
      pick ∈ picks ∧ ∃ vote ∈ prior, vote.decoded.issuer.toString = pick.key := by
  rw [contactsFor, if_neg fun h => hne (List.isEmpty_iff.mp h), List.mem_filter,
    decide_eq_true_eq, List.mem_map]

omit [Tlv Tag Asn1Error] [Zlib] in
theorem mem_picks_of_contacted {prior : List Vote} {pick : Pick}
    (h : pick ∈ asking.contacted singleRep prior) : pick ∈ asking.picks := by
  unfold Asking.contacted contactsFor at h
  split at h
  · exact h
  · split at h
    · exact h
    · exact List.mem_of_mem_filter h

omit [Tlv Tag Asn1Error] [Zlib] in
/-- A poll is allowed if its requests are. -/
theorem guarded_poll {trace : List TransmitEvent} (h : Guarded (Permits singleRep blocks) trace)
    (hrequests : ∀ pick ∈ asking.contacted singleRep question.prior,
      Permits singleRep blocks trace (question.request pick)) :
    Guarded (Permits singleRep blocks) (trace ++ asking.poll singleRep question) := by
  have hpersistent := persistent_permits singleRep blocks
  rw [Asking.poll, ← List.append_assoc]
  refine Guarded.append_of_forall hpersistent (Guarded.append_of_forall hpersistent h ?_) ?_
  · intro event hevent
    obtain ⟨pick, hpick, rfl⟩ := List.mem_map.mp hevent
    exact hrequests pick hpick
  · -- a vote is that of somebody who has been asked
    intro event hevent
    obtain ⟨pick, hpick, vote, -, rfl⟩ := mem_ballots.mp hevent
    have hcontacted := (asking.answered_perm singleRep question.prior).mem_iff.mp hpick
    exact ⟨_, _, _, List.mem_append_right _ (List.mem_map_of_mem hcontacted)⟩

omit [Tlv Tag Asn1Error] [Zlib] in
theorem voted_of_mem_votes {vote : Vote} (h : vote ∈ asking.votes singleRep question) :
    ∃ pick ∈ asking.contacted singleRep question.prior, question.answer pick = .ok vote ∧
      .voted question.round pick.key vote ∈ asking.poll singleRep question := by
  obtain ⟨pick, hpick, hvote⟩ := List.mem_filterMap.mp h
  cases hanswer : question.answer pick with
  | error error =>
    rw [hanswer] at hvote
    cases hvote
  | ok answer =>
    rw [hanswer] at hvote
    cases hvote
    refine ⟨pick, (asking.answered_perm singleRep question.prior).mem_iff.mp hpick, hanswer, ?_⟩
    exact List.mem_append_right _ (mem_ballots.mpr ⟨pick, hpick, vote, hanswer, rfl⟩)

/-- What the caller's factory answers. -/
def Meeting.Generates (meeting : Meeting) (feeBlock : Block) : Prop :=
  ∃ generate ∈ meeting.options.generateFeeBlock, ∃ staple priority,
    generate staple priority = .ok feeBlock

/-- The factory is handed the staple of the temporary votes. -/
theorem feeBlockFromOptions_eq_ok {votes : List Vote} {moment : BlockTime}
    {options : TransmitOptions} {feeBlock : Block} :
    (feeBlockFromOptions blocks votes moment options).result = .ok feeBlock ↔
      ∃ generate ∈ options.generateFeeBlock, ∃ staple,
        VoteStaple.tryNew blocks votes .default moment = .ok staple ∧
          generate staple options.feeTokenPriority = .ok feeBlock := by
  unfold feeBlockFromOptions
  cases options.generateFeeBlock <;>
    simp [Traced.result_bind, Traced.result_liftM, bind_eq_ok, mapError_eq_ok]

theorem finalBlocks_eq_ok {meeting : Meeting} {temporary : List Vote} {all : List Block} :
    finalBlocks meeting blocks temporary = .ok all ↔
      if feesRequired temporary then
        ∃ feeBlock, (feeBlockFromOptions blocks temporary meeting.moment
          meeting.options).result = .ok feeBlock ∧ all = blocks ++ [feeBlock]
      else all = blocks := by
  unfold finalBlocks
  split
  · rw [bind_eq_ok]
    refine exists_congr fun feeBlock => and_congr_right fun _ => ?_
    rw [pure_eq_ok, Except.ok.injEq, eq_comm]
  · rw [pure_eq_ok, Except.ok.injEq, eq_comm]

variable {meeting : Meeting} {temporary permanent : List Vote} {all : List Block}

omit [Tlv Tag Asn1Error] [Zlib] in
theorem guarded_first (singleRep : Bool) (meeting : Meeting) (blocks : List Block) :
    Guarded (Permits singleRep blocks)
      (meeting.temporary.poll singleRep (meeting.first blocks)) := by
  refine guarded_poll guarded_nil fun pick _ => ?_
  exact ⟨rfl, rfl, fun own hown => (issuer_of_quotesByIssuer hown).2⟩

theorem guarded_second
    (hhonest : singleRep = false → ∀ pick ∈ meeting.temporary.picks, Honest pick)
    (htemporary : (requestVotes singleRep meeting.temporary (meeting.first blocks)).result =
      .ok temporary)
    (hall : finalBlocks meeting blocks temporary = .ok all) :
    Guarded (Permits singleRep blocks)
      (meeting.temporary.poll singleRep (meeting.first blocks) ++
        meeting.permanent.poll singleRep (second all temporary)) := by
  have hfinal : if feesRequired temporary then ∃ feeBlock, all = blocks ++ [feeBlock]
      else all = blocks := by
    have hfinal := finalBlocks_eq_ok.mp hall
    split at hfinal <;> rename_i hfees
    · obtain ⟨feeBlock, -, hall⟩ := hfinal
      exact (if_pos hfees).mpr ⟨feeBlock, hall⟩
    · exact (if_neg hfees).mpr hfinal
  obtain ⟨hne, rfl⟩ := requestVotes_eq_ok.mp htemporary
  refine guarded_poll (guarded_first singleRep meeting blocks) fun pick hpick => ?_
  refine ⟨rfl, hne, fun vote hvote => ?_, fun hsingle => ?_, hfinal⟩
  · obtain ⟨other, -, -, hvoted⟩ := voted_of_mem_votes hvote
    exact ⟨other.key, hvoted⟩
  · -- the representative has issued one of the votes, which nobody else gives
    subst hsingle
    obtain ⟨-, vote, hvote, hissuer⟩ := (mem_contactsFor hne).mp hpick
    obtain ⟨other, hother, hanswer, hvoted⟩ := voted_of_mem_votes hvote
    have hkey := hhonest rfl other hother _ _ _ _ _ hanswer
    rw [hissuer] at hkey
    exact ⟨vote, hvote, hkey ▸ hvoted⟩

/-- What a staple of a round is made of. -/
theorem permits_published {staple : VoteStaple} (key : String) (accepted : Bool)
    (hpermanent : (requestVotes singleRep meeting.permanent (second all temporary)).result =
      .ok permanent)
    (hstaple : VoteStaple.tryNew all permanent .default meeting.moment = .ok staple) :
    Permits singleRep blocks
      (meeting.temporary.poll singleRep (meeting.first blocks) ++
        meeting.permanent.poll singleRep (second all temporary))
      (.published key staple accepted) := by
  obtain ⟨-, rfl⟩ := requestVotes_eq_ok.mp hpermanent
  obtain ⟨hsound, -, hperm, hvotes, -, -⟩ := VoteStaple.tryNew_eq_ok.mp hstaple
  refine ⟨all, temporary, hperm, hsound.votes_ne_nil, fun vote hvote => ?_⟩
  rw [hvotes, (sortVotes_perm _).mem_iff] at hvote
  obtain ⟨pick, hpick, -, hvoted⟩ := voted_of_mem_votes hvote
  refine ⟨pick.key, ?_, List.mem_append_right _ hvoted⟩
  exact List.mem_append_right _ (List.mem_append_left _ (List.mem_map.mpr ⟨pick, hpick, rfl⟩))

/-- **A round keeps to the protocol.** -/
theorem guarded_transmitRound
    (hhonest : singleRep = false → ∀ pick ∈ meeting.temporary.picks, Honest pick) :
    Guarded (Permits singleRep blocks) (transmitRound singleRep meeting blocks).trace := by
  have hproceeds := transmitRound_proceeds singleRep meeting blocks
  generalize transmitRound singleRep meeting blocks = run at hproceeds ⊢
  cases hproceeds with
  | unvoted => exact guarded_first singleRep meeting blocks
  | unpaid => exact guarded_first singleRep meeting blocks
  | unescalated htemporary hall => exact guarded_second hhonest htemporary hall
  | unstapled htemporary hall => exact guarded_second hhonest htemporary hall
  | stapled htemporary hall hpermanent hstaple =>
    refine Guarded.append_of_forall (persistent_permits singleRep blocks)
      (guarded_second hhonest htemporary hall) fun event hevent => ?_
    obtain ⟨publisher, -, rfl⟩ := mem_transmitStaple hevent
    exact permits_published _ _ hpermanent hstaple

end Protocol

/-! ## Acceptance -/

section Acceptance

variable {singleRep : Bool} {blocks : List Block} {meeting : Meeting} {staple : VoteStaple}

/-- A round gets as far as this staple. -/
def Staples (singleRep : Bool) (meeting : Meeting) (blocks : List Block) (staple : VoteStaple) :
    Prop :=
  ∃ temporary all permanent,
    (requestVotes singleRep meeting.temporary (meeting.first blocks)).result = .ok temporary ∧
    finalBlocks meeting blocks temporary = .ok all ∧
    (requestVotes singleRep meeting.permanent (second all temporary)).result = .ok permanent ∧
    VoteStaple.tryNew all permanent .default meeting.moment = .ok staple

theorem Staples.unique {staple' : VoteStaple} (h : Staples singleRep meeting blocks staple)
    (h' : Staples singleRep meeting blocks staple') : staple = staple' := by
  obtain ⟨temporary, all, permanent, htemporary, hall, hpermanent, hstaple⟩ := h
  obtain ⟨_, _, _, htemporary', hall', hpermanent', hstaple'⟩ := h'
  cases htemporary.symm.trans htemporary'
  cases hall.symm.trans hall'
  cases hpermanent.symm.trans hpermanent'
  exact Except.ok.inj (hstaple.symm.trans hstaple')

/-- No event is a publication. -/
def Unpublished (trace : List TransmitEvent) : Prop :=
  ∀ key staple accepted, .published key staple accepted ∉ trace

omit [Tlv Tag Asn1Error] [Zlib] in
theorem unpublished_poll (asking : Asking) (singleRep : Bool) (question : Question) :
    Unpublished (asking.poll singleRep question) := by
  intro key staple accepted hmem
  rcases mem_poll.mp hmem with ⟨_, -, hevent⟩ | ⟨_, -, _, -, hevent⟩
  · cases hevent
  · cases hevent

omit [Tlv Tag Asn1Error] [Zlib] in
theorem Unpublished.append {trace trace' : List TransmitEvent} (h : Unpublished trace)
    (h' : Unpublished trace') : Unpublished (trace ++ trace') := by
  intro key staple accepted hmem
  rcases List.mem_append.mp hmem with hmem | hmem
  · exact h key staple accepted hmem
  · exact h' key staple accepted hmem

/-- **A round publishes nothing and fails, or ends with the publication of its staple.** -/
theorem transmitRound_cases (singleRep : Bool) (meeting : Meeting) (blocks : List Block) :
    ((∀ staple, ¬ Staples singleRep meeting blocks staple) ∧
      Unpublished (transmitRound singleRep meeting blocks).trace ∧
      ∃ error, (transmitRound singleRep meeting blocks).result = .error error) ∨
    ∃ asked staple, Unpublished asked ∧ Staples singleRep meeting blocks staple ∧
      (transmitRound singleRep meeting blocks).trace =
        asked ++ (transmitStaple meeting.publishing staple).trace ∧
      (transmitRound singleRep meeting blocks).result =
        (transmitStaple meeting.publishing staple).result := by
  have hproceeds := transmitRound_proceeds singleRep meeting blocks
  have hfirst := unpublished_poll meeting.temporary singleRep (meeting.first blocks)
  have hboth := fun all temporary =>
    hfirst.append (unpublished_poll meeting.permanent singleRep (second all temporary))
  generalize transmitRound singleRep meeting blocks = run at hproceeds ⊢
  cases hproceeds with
  | unvoted hnone =>
    refine .inl ⟨?_, hfirst, _, rfl⟩
    rintro staple ⟨_, _, _, htemporary, -⟩
    cases hnone.symm.trans htemporary
  | unpaid htemporary hnone =>
    refine .inl ⟨?_, hfirst, _, rfl⟩
    rintro staple ⟨_, _, _, htemporary', hall, -⟩
    cases htemporary.symm.trans htemporary'
    cases hnone.symm.trans hall
  | unescalated htemporary hall hnone =>
    refine .inl ⟨?_, hboth _ _, _, rfl⟩
    rintro staple ⟨_, _, _, htemporary', hall', hpermanent, -⟩
    cases htemporary.symm.trans htemporary'
    cases hall.symm.trans hall'
    cases hnone.symm.trans hpermanent
  | unstapled htemporary hall hpermanent hnone =>
    refine .inl ⟨?_, hboth _ _, _, rfl⟩
    rintro staple ⟨_, _, _, htemporary', hall', hpermanent', hstaple⟩
    cases htemporary.symm.trans htemporary'
    cases hall.symm.trans hall'
    cases hpermanent.symm.trans hpermanent'
    cases hnone.symm.trans hstaple
  | stapled htemporary hall hpermanent hstaple =>
    exact .inr ⟨_, _, hboth _ _, ⟨_, _, _, htemporary, hall, hpermanent, hstaple⟩, rfl, rfl⟩

omit [Tlv Tag Asn1Error] [Zlib] in
/-- Publishing succeeds exactly if the staple is accepted. -/
theorem transmitStaple_eq_ok {publishing : Publishing} {accepted : Bool} :
    (transmitStaple publishing staple).result = .ok accepted ↔
      accepted = true ∧
        ∃ key, .published key staple true ∈ (transmitStaple publishing staple).trace := by
  obtain ⟨-, hrun⟩ | ⟨⟨publisher, hmem, hok⟩, hrun⟩ | ⟨_, hrefused, -, hrun⟩ :=
    transmitStaple_cases publishing staple
  · simp [hrun]
  · rw [hrun, Except.ok.injEq]
    refine ⟨fun h => ⟨h.symm, publisher.key, ?_⟩, fun h => h.1.symm⟩
    exact List.mem_map.mpr ⟨publisher, hmem, by rw [hok]⟩
  · rw [hrun]
    refine ⟨fun h => (nomatch h), ?_⟩
    rintro ⟨-, key, hkey⟩
    obtain ⟨publisher, hmem, hevent⟩ := List.mem_map.mp hkey
    rw [hrefused publisher hmem] at hevent
    cases hevent

theorem transmitRound_eq_ok {accepted : Bool} :
    (transmitRound singleRep meeting blocks).result = .ok accepted ↔
      accepted = true ∧ ∃ key staple,
        .published key staple true ∈ (transmitRound singleRep meeting blocks).trace := by
  obtain ⟨-, hnone, error, herror⟩ | ⟨asked, staple, hasked, -, htrace, hresult⟩ :=
    transmitRound_cases singleRep meeting blocks
  · rw [herror]
    refine ⟨fun h => (nomatch h), ?_⟩
    rintro ⟨-, key, staple, hmem⟩
    exact absurd hmem (hnone key staple true)
  · rw [hresult, htrace, transmitStaple_eq_ok]
    refine and_congr_right fun _ => exists_congr fun key => ?_
    constructor
    · exact fun hmem => ⟨staple, List.mem_append_right _ hmem⟩
    · rintro ⟨other, hmem⟩
      have hpublished := (List.mem_append.mp hmem).resolve_left (hasked key other true)
      obtain ⟨publisher, -, hevent⟩ := mem_transmitStaple hpublished
      obtain ⟨-, rfl, -⟩ := TransmitEvent.published.inj hevent
      exact hpublished

/-- The event is a publication of the staple. -/
def PublicationOf (staple : VoteStaple) (event : TransmitEvent) : Prop :=
  ∃ key accepted, event = .published key staple accepted

/-- Once a staple is accepted in a round, nothing but that staple is published. -/
theorem after_accepted {before after : List TransmitEvent} {key : String}
    (h : (transmitRound singleRep meeting blocks).trace =
      before ++ .published key staple true :: after) :
    ∀ event ∈ after, PublicationOf staple event := by
  obtain ⟨-, hnone, -⟩ | ⟨asked, other, hasked, -, htrace, -⟩ :=
    transmitRound_cases singleRep meeting blocks
  · exact absurd (h ▸ List.mem_append_right _ List.mem_cons_self) (hnone key staple true)
  · rw [htrace] at h
    have hmem : .published key staple true ∈
        asked ++ (transmitStaple meeting.publishing other).trace :=
      h ▸ List.mem_append_right _ List.mem_cons_self
    have hpublished := (List.mem_append.mp hmem).resolve_left (hasked key staple true)
    obtain ⟨_, -, hevent⟩ := mem_transmitStaple hpublished
    obtain ⟨-, rfl, -⟩ := TransmitEvent.published.inj hevent
    obtain ⟨rest, -, hrest⟩ := append_eq_append_cons h (hasked key staple true)
    intro event hevent
    obtain ⟨publisher, -, rfl⟩ :=
      mem_transmitStaple (hrest ▸ List.mem_append_right _ (List.mem_cons_of_mem _ hevent))
    exact ⟨_, _, rfl⟩

variable {meetings : Stream' Meeting}

/-- Nothing is accepted in the rounds that are followed by another one. -/
theorem not_accepted_spent {config : ClientConfig} {rounds : ℕ}
    (hfailed : ∀ i < rounds, insufficient (roundAt singleRep blocks meetings i) = true)
    (key : String) (staple : VoteStaple) :
    .published key staple true ∉ spent config singleRep blocks meetings rounds := by
  intro hmem
  obtain ⟨i, hi, hevent⟩ := List.mem_flatMap.mp hmem
  have hinsufficient := hfailed i (List.mem_range.mp hi)
  rcases List.mem_append.mp hevent with hevent | hevent
  · have hok := transmitRound_eq_ok.mpr ⟨rfl, key, staple, hevent⟩
    rw [insufficient, roundAt, hok] at hinsufficient
    cases hinsufficient
  · cases List.mem_singleton.mp hevent

/-- **A transmission succeeds exactly if a representative accepts a staple.** From then on it
asks for no votes, starts no other round and publishes no other staple. -/
theorem transmit_accepts_once (config : ClientConfig) (singleRep : Bool) (blocks : List Block)
    (meetings : Stream' Meeting) :
    (∀ accepted, (transmit config singleRep blocks meetings).result = .ok accepted ↔
      accepted = true ∧ ∃ key staple,
        .published key staple true ∈ (transmit config singleRep blocks meetings).trace) ∧
    ∀ before key staple after,
      (transmit config singleRep blocks meetings).trace =
          before ++ .published key staple true :: after →
        ∀ event ∈ after, PublicationOf staple event := by
  obtain ⟨last, -, hfailed, -, hrun⟩ := transmit_endsWith config singleRep blocks meetings
  have hspent : ∀ key staple, .published key staple true ∉
      spent config singleRep blocks meetings last := not_accepted_spent hfailed
  rw [hrun]
  refine ⟨fun accepted => ?_, fun before key staple after hsplit => ?_⟩
  · rw [roundAt, transmitRound_eq_ok]
    refine and_congr_right fun _ => exists_congr fun key => exists_congr fun staple => ?_
    rw [List.mem_append]
    exact ⟨.inr, fun h => h.resolve_left (hspent key staple)⟩
  · -- the acceptance is in the last round
    obtain ⟨rest, -, hrest⟩ := append_eq_append_cons hsplit (hspent key staple)
    exact after_accepted hrest

end Acceptance

/-! ## What is published -/

section Published

variable {singleRep : Bool} {blocks : List Block} {meeting meeting' : Meeting}
  {staple : VoteStaple}

omit [Tlv Tag Asn1Error] [Zlib] in
theorem published_transmitStaple_iff {publishing : Publishing} {staple' : VoteStaple}
    {key : String} {accepted : Bool} :
    .published key staple accepted ∈ (transmitStaple publishing staple').trace ↔
      staple' = staple ∧ ∃ publisher ∈ publishing.publishers,
        publisher.key = key ∧ (publisher.publishStaple staple).isOk = accepted := by
  constructor
  · intro hmem
    obtain ⟨publisher, hpublisher, hevent⟩ := mem_transmitStaple hmem
    obtain ⟨rfl, rfl, rfl⟩ := TransmitEvent.published.inj hevent
    exact ⟨rfl, publisher, hpublisher, rfl, rfl⟩
  · rintro ⟨rfl, publisher, hpublisher, rfl, rfl⟩
    obtain ⟨hnone, -⟩ | ⟨-, hrun⟩ | ⟨_, -, -, hrun⟩ := transmitStaple_cases publishing staple'
    · rw [hnone] at hpublisher
      cases hpublisher
    · rw [hrun]
      exact List.mem_map_of_mem hpublisher
    · rw [hrun]
      exact List.mem_map_of_mem hpublisher

/-- **A round publishes its staple to everybody, and nothing else.** -/
theorem published_iff {key : String} {accepted : Bool} :
    .published key staple accepted ∈ (transmitRound singleRep meeting blocks).trace ↔
      Staples singleRep meeting blocks staple ∧ ∃ publisher ∈ meeting.publishing.publishers,
        publisher.key = key ∧ (publisher.publishStaple staple).isOk = accepted := by
  obtain ⟨hnone, hunpublished, -⟩ | ⟨asked, built, hasked, hstaples, htrace, -⟩ :=
    transmitRound_cases singleRep meeting blocks
  · exact ⟨fun h => absurd h (hunpublished _ _ _), fun h => absurd h.1 (hnone staple)⟩
  · rw [htrace, List.mem_append, or_iff_right (hasked _ _ _), published_transmitStaple_iff]
    refine and_congr_left fun _ => ⟨?_, fun h => hstaples.unique h⟩
    rintro rfl
    exact hstaples

end Published

/-! ## The peers -/

section Peers

variable {singleRep : Bool} {blocks : List Block} {meetings : Stream' Meeting}

/-- A staple is published in one of the rounds. -/
theorem staples_of_published {config : ClientConfig} {key : String} {staple : VoteStaple}
    {accepted : Bool}
    (h : .published key staple accepted ∈ (transmit config singleRep blocks meetings).trace) :
    ∃ i ≤ config.maxRetries, Staples singleRep (meetings.get i) blocks staple := by
  obtain ⟨last, hlast, -, -, hrun⟩ := transmit_endsWith config singleRep blocks meetings
  rw [hrun] at h
  rcases List.mem_append.mp h with hspent | hround
  · obtain ⟨i, hi, hevent⟩ := List.mem_flatMap.mp hspent
    rcases List.mem_append.mp hevent with hevent | hevent
    · exact ⟨i, (List.mem_range.mp hi).le.trans hlast, (published_iff.mp hevent).1⟩
    · cases List.mem_singleton.mp hevent
  · exact ⟨last, hlast, (published_iff.mp hround).1⟩

variable [X509] [OidCodec] [NumBigint] [Chrono] [LawfulTlv Tag Asn1Error] [LawfulCrypto]
  [LawfulX509] [LawfulChrono] [LawfulZlib]

/-- Votes are verified when they are read, and the caller's factory seals its fee blocks. -/
structure Meeting.Decoded (meeting : Meeting) : Prop where
  votes : ∀ pick ∈ meeting.permanent.picks, ∀ round blocks prior quote vote,
    pick.transport.createVote round blocks prior quote = .ok vote →
      ∃ bytes, Vote.verify bytes = .ok vote
  feeBlock : ∀ feeBlock, meeting.Generates feeBlock → feeBlock.Obtained

end Peers

/-! ## Order of arrival -/

section Order

variable {singleRep : Bool} {blocks : List Block} {meeting meeting' : Meeting}

/-- The same round, but for the order in which the answers arrive. -/
structure Rearranged (meeting meeting' : Meeting) : Prop where
  moment : meeting'.moment = meeting.moment
  options : meeting'.options = meeting.options
  temporary : meeting'.temporary.picks = meeting.temporary.picks
  permanent : meeting'.permanent.picks = meeting.permanent.picks
  publishers : meeting'.publishing.publishers = meeting.publishing.publishers

/-- The representatives do not mind the order of the votes they are handed. -/
def Unordered (asking : Asking) : Prop :=
  ∀ pick ∈ asking.picks, ∀ round blocks prior prior' quote, prior.Perm prior' →
    pick.transport.createVote round blocks prior quote =
      pick.transport.createVote round blocks prior' quote

/-- Votes with the same hash are the same. -/
def DistinctHashes (votes : List Vote) : Prop :=
  ∀ v ∈ votes, ∀ w ∈ votes, v.hash = w.hash → v = w

omit [Tlv Tag Asn1Error] [Zlib] in
theorem contactsFor_perm {picks : List Pick} {prior prior' : List Vote} (h : prior.Perm prior') :
    contactsFor picks prior' = contactsFor picks prior := by
  have hmem : ∀ key, key ∈ (prior'.map fun vote => vote.decoded.issuer.toString) ↔
      key ∈ prior.map fun vote => vote.decoded.issuer.toString :=
    fun key => (h.symm.map _).mem_iff
  simp only [contactsFor, hmem, h.isEmpty_eq]

theorem tryNew_eq_ok_of_perm {votes votes' : List Vote} {moment : BlockTime} {staple : VoteStaple}
    (h : votes.Perm votes') (hdistinct : DistinctHashes votes) :
    VoteStaple.tryNew blocks votes' .default moment = .ok staple ↔
      VoteStaple.tryNew blocks votes .default moment = .ok staple := by
  rw [VoteStaple.tryNew_eq_ok, VoteStaple.tryNew_eq_ok, sortVotes_eq_of_perm h hdistinct]

theorem finalBlocks_perm {temporary temporary' : List Vote} {all : List Block}
    (hsame : Rearranged meeting meeting') (h : temporary.Perm temporary')
    (hdistinct : DistinctHashes temporary) :
    finalBlocks meeting' blocks temporary' = .ok all ↔
      finalBlocks meeting blocks temporary = .ok all := by
  have hfees : feesRequired temporary' = feesRequired temporary := h.symm.any_eq
  simp only [finalBlocks_eq_ok, feeBlockFromOptions_eq_ok, hfees, hsame.options, hsame.moment,
    tryNew_eq_ok_of_perm h hdistinct]

omit [Tlv Tag Asn1Error] [Zlib] in
theorem votes_perm {asking asking' : Asking} {question question' : Question}
    (hcontacted : asking'.contacted singleRep question'.prior =
      asking.contacted singleRep question.prior)
    (hanswer : ∀ pick ∈ asking.contacted singleRep question.prior,
      question'.answer pick = question.answer pick) :
    (asking.votes singleRep question).Perm (asking'.votes singleRep question') := by
  have hperm := asking.answered_perm singleRep question.prior
  have hperm' := asking'.answered_perm singleRep question'.prior
  rw [hcontacted] at hperm'
  have hsame : asking'.votes singleRep question' =
      (asking'.answered singleRep question'.prior).filterMap fun pick =>
        (question.answer pick).toOption := by
    refine List.filterMap_congr fun pick hpick => ?_
    rw [hanswer pick (hperm'.mem_iff.mp hpick)]
  rw [hsame]
  exact (hperm.trans hperm'.symm).filterMap _

/-- The votes of the temporary round, and of the permanent one. -/
theorem staples_iff {staple : VoteStaple} :
    Staples singleRep meeting blocks staple ↔
      meeting.temporary.votes singleRep (meeting.first blocks) ≠ [] ∧ ∃ all,
        finalBlocks meeting blocks (meeting.temporary.votes singleRep (meeting.first blocks)) =
          .ok all ∧
        meeting.permanent.votes singleRep (second all (meeting.temporary.votes singleRep
          (meeting.first blocks))) ≠ [] ∧
        VoteStaple.tryNew all (meeting.permanent.votes singleRep (second all
          (meeting.temporary.votes singleRep (meeting.first blocks)))) .default meeting.moment =
            .ok staple := by
  simp only [Staples, requestVotes_eq_ok]
  constructor
  · rintro ⟨_, all, _, ⟨hne, rfl⟩, hall, ⟨hne', rfl⟩, hstaple⟩
    exact ⟨hne, all, hall, hne', hstaple⟩
  · rintro ⟨hne, all, hall, hne', hstaple⟩
    exact ⟨_, all, _, ⟨hne, rfl⟩, hall, ⟨hne', rfl⟩, hstaple⟩

theorem staples_rearranged {staple : VoteStaple} (hsame : Rearranged meeting meeting')
    (hunordered : Unordered meeting.permanent)
    (htemporary : DistinctHashes (meeting.temporary.votes singleRep (meeting.first blocks)))
    (hpermanent : ∀ all temporary,
      DistinctHashes (meeting.permanent.votes singleRep (second all temporary))) :
    Staples singleRep meeting' blocks staple ↔ Staples singleRep meeting blocks staple := by
  have hfirst : meeting'.first blocks = meeting.first blocks := by
    rw [Meeting.first, Meeting.first, hsame.options]
  have hvotes : (meeting.temporary.votes singleRep (meeting.first blocks)).Perm
      (meeting'.temporary.votes singleRep (meeting'.first blocks)) := by
    refine votes_perm ?_ fun pick _ => by rw [hfirst]
    rw [hfirst, Asking.contacted, Asking.contacted, hsame.temporary]
  have hvotes' : ∀ all, (meeting.permanent.votes singleRep (second all
        (meeting.temporary.votes singleRep (meeting.first blocks)))).Perm
      (meeting'.permanent.votes singleRep (second all
        (meeting'.temporary.votes singleRep (meeting'.first blocks)))) := by
    intro all
    refine votes_perm ?_ fun pick hpick => ?_
    · simp only [second, Asking.contacted, hsame.permanent, contactsFor_perm hvotes]
    · exact (hunordered pick (mem_picks_of_contacted hpick) _ _ _ _ _ hvotes).symm
  have hnil : ∀ {votes votes' : List Vote}, votes.Perm votes' → (votes' ≠ [] ↔ votes ≠ []) :=
    fun h => not_congr ⟨fun hnil => (hnil ▸ h).eq_nil, fun hnil => (hnil ▸ h.symm).eq_nil⟩
  rw [staples_iff, staples_iff, hnil hvotes]
  refine and_congr_right fun _ => exists_congr fun all => ?_
  rw [finalBlocks_perm hsame hvotes htemporary, hnil (hvotes' all), hsame.moment,
    tryNew_eq_ok_of_perm (hvotes' all) (hpermanent _ _)]

end Order

end Transmission

section Samples

open scoped Reference Asn1.Reference

namespace Sample

open Reference

/-- A representative that gives this vote whatever it is asked. -/
def voter (vote : Vote) : Pick where
  key := vote.decoded.issuer.toString
  weight := 1
  transport :=
    { blockVotes := fun _ _ => .ok none
      block := fun _ _ => .ok none
      createVote := fun _ _ _ _ => .ok vote }

/-- Two representatives vote, one accepts the staple and the other one does not answer. -/
def meeting (v w : Vote) (arrival : Arrival) : Meeting where
  moment := Asn1.Sample.date
  temporary := ⟨[voter v, voter w], arrival⟩
  permanent := ⟨[voter v, voter w], arrival⟩
  publishing :=
    { publishers := [⟨"first", fun _ => .error .timeout⟩, ⟨"second", fun _ => .ok false⟩]
      arrived := [⟨"second", fun _ => .ok false⟩, ⟨"first", fun _ => .error .timeout⟩]
      perm := .swap _ _ [] }
  options := {}

def inOrder : Arrival := ⟨id, fun _ => .refl _⟩

/-- A block and the votes of alice and of bob for it. -/
theorem exists_votes :
    ∃ block v w staple, block.Obtained ∧ Vote.verify v.serialized = .ok v ∧
      Vote.verify w.serialized = .ok w ∧ v.hash ≠ w.hash ∧ feesRequired [v, w] = false ∧
      VoteStaple.tryNew [block] [v, w] .default Asn1.Sample.date = .ok staple := by
  obtain ⟨staple, h⟩ := exists_eq_ok (by decide +kernel : (do
    let unsigned ← asVoteBlockError KeetaNode.Sample.unsigned
    let block ← asVoteBlockError (unsigned.sealWith KeetaNode.Sample.signatures)
    let v ← KeetaNode.Sample.vote alice [KeetaNode.Sample.blockHash] none
    let w ← KeetaNode.Sample.vote bob [KeetaNode.Sample.blockHash] none
    v.verifySignature
    w.verifySignature
    rejectIf (v.hash = w.hash ∨ feesRequired [v, w] = true) .stapleInvalidConstruction
    VoteStaple.tryNew [block] [v, w] .default Asn1.Sample.date).isOk = true)
  simp only [bind_eq_ok, asVoteBlockError_eq_ok, rejectIf_eq_ok, not_or, Bool.not_eq_true] at h
  obtain ⟨_, -, block, hblock, v, hv, w, hw, ⟨⟩, hv', ⟨⟩, hw', -, ⟨hne, hfees⟩, hstaple⟩ := h
  exact ⟨block, v, w, staple, .sealing hblock, Vote.verify_of_sign hv (by decide +kernel) rfl hv',
    Vote.verify_of_sign hw (by decide +kernel) rfl hw', hne, hfees, hstaple⟩

theorem honest_voter (vote : Vote) : Honest (voter vote) := by
  intro round blocks prior quote answer h
  cases h
  rfl

/-- Both are contacted in either round. -/
theorem contacted_voters (v w : Vote) (arrival : Arrival) {prior : List Vote}
    (hprior : prior = [] ∨ prior = [v, w]) :
    Asking.contacted ⟨[voter v, voter w], arrival⟩ false prior = [voter v, voter w] := by
  rcases hprior with rfl | rfl
  · rfl
  · simp [Asking.contacted, contactsFor, voter]

theorem staples_meeting {block : Block} {v w : Vote} {staple : VoteStaple}
    (hfees : feesRequired [v, w] = false)
    (hstaple : VoteStaple.tryNew [block] [v, w] .default Asn1.Sample.date = .ok staple) :
    Staples false (meeting v w inOrder) [block] staple := by
  have hvotes : ∀ question : Question, question.prior = [] ∨ question.prior = [v, w] →
      Asking.votes ⟨[voter v, voter w], inOrder⟩ false question = [v, w] := by
    intro question hprior
    rw [Asking.votes, Asking.answered, contacted_voters v w inOrder hprior]
    rfl
  have hfirst : (meeting v w inOrder).temporary.votes false
      ((meeting v w inOrder).first [block]) = [v, w] := hvotes _ (.inl rfl)
  rw [staples_iff, hfirst]
  refine ⟨List.cons_ne_nil _ _, [block], by simp [finalBlocks, hfees], ?_⟩
  have hsecond : (meeting v w inOrder).permanent.votes false (second [block] [v, w]) = [v, w] :=
    hvotes _ (.inr rfl)
  rw [hsecond]
  exact ⟨List.cons_ne_nil _ _, hstaple⟩

theorem published_meeting {block : Block} {v w : Vote} {staple : VoteStaple}
    (h : Staples false (meeting v w inOrder) [block] staple) :
    .published "second" staple true ∈
      (transmitRound false (meeting v w inOrder) [block]).trace :=
  published_iff.mpr ⟨h, ⟨"second", fun _ => .ok false⟩, by simp [meeting], rfl, rfl⟩

/-- The first round is the last one. -/
theorem transmit_meeting {block : Block} {v w : Vote} {staple : VoteStaple}
    (h : Staples false (meeting v w inOrder) [block] staple) :
    .published "second" staple true ∈ (transmit ⟨3, 1000⟩ false [block]
      (Stream'.const (meeting v w inOrder))).trace := by
  obtain ⟨last, -, -, -, hrun⟩ := transmit_endsWith ⟨3, 1000⟩ false [block]
    (Stream'.const (meeting v w inOrder))
  rw [hrun]
  exact List.mem_append_right _ (published_meeting h)

end Sample

open KeetaNode.Client.Sample Reference

end Samples

end KeetaNode.Client
