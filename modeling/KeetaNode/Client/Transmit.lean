import KeetaNode.Client.Dispatch

/-!
# Transmitting blocks

The representatives vote on the blocks of a transaction in two rounds. Whoever has given a
temporary vote is asked for a permanent one, the permanent votes make a staple, and the staple
is published. A transmission whose votes weigh too little is started again, after a pause.

- `keetanetwork-client/src/client.rs` (`transmit`, `transmit_with_optional_fee`,
  `transmit_round`, `request_votes`, `transmit_staple`, `contacts_for`, `is_ledger_code`)

A run leaves a trace of the requests for votes, of the votes in the order in which they arrive,
of the staples that are published, each with the answer it gets, and of the pauses. Whatever the
representatives answer in a round is a part of the round, as is the fee factory of the caller.
The scores of the representatives are left out.

## Main results

- `requestVotes_eq_error`: whose error a round of votes fails with
- `transmit_retries`: a transmission is its last round, after rounds that weighed too little
-/

namespace KeetaNode.Client

open ByteCodec
open Asn1 (Tag Asn1Error)

section Transmit

variable [Crypto]

/-! ## What a round meets -/

/-- Those who are asked for votes, and the order in which they answer. -/
structure Asking where
  picks : List Pick
  arrival : Arrival

structure Publisher where
  key : String
  /-- The flag tells whether the node has voted on the staple as well. -/
  publishStaple : VoteStaple → Except ClientError Bool

/-- Those to whom a staple is published, also in the order in which they answer. -/
structure Publishing where
  publishers : List Publisher
  arrived : List Publisher
  perm : arrived.Perm publishers

/-- What a round of a transmission meets: the moment, the representatives as they are found
when they are asked or published to, and the options of the caller. -/
structure Meeting where
  moment : BlockTime
  temporary : Asking
  permanent : Asking
  publishing : Publishing
  options : TransmitOptions

inductive TransmitEvent where
  /-- A representative is asked for a vote on the blocks, with the votes there are. -/
  | asked (round : Round) (key : String) (blocks : List Block) (prior : List Vote)
      (quote : Option VoteQuote)
  | voted (round : Round) (key : String) (vote : Vote)
  /-- A staple is published to a representative, which accepts it or does not. -/
  | published (key : String) (staple : VoteStaple) (accepted : Bool)
  | slept (millis : ℕ)

abbrev Transmitting := Traced TransmitEvent ClientError

/-! ## Votes -/

/-- The representatives that issued one of the votes. Without votes everybody is contacted. -/
def contactsFor (picks : List Pick) (prior : List Vote) : List Pick :=
  if prior.isEmpty then picks
  else picks.filter fun pick => pick.key ∈ prior.map fun vote => vote.decoded.issuer.toString

/-- What has been collected in a round. -/
structure Collected where
  votes : List Vote := []
  highestError : Option (Int × ClientError) := none

/-- One answer more, of a representative of that weight. -/
def Collected.add (collected : Collected) (weight : Int) : Except ClientError Vote → Collected
  | .ok vote => { collected with votes := collected.votes ++ [vote] }
  | .error error =>
    if collected.highestError.all fun (seen, _) => seen < weight then
      { collected with highestError := some (weight, error) }
    else collected

/-- A request for votes: the round and what is sent to the representatives. -/
structure Question where
  round : Round
  blocks : List Block
  prior : List Vote
  quotes : List VoteQuote := []

namespace Question

/-- What a representative answers. -/
def answer (question : Question) (pick : Pick) : Except ClientError Vote :=
  pick.transport.createVote question.round question.blocks question.prior
    (quotesByIssuer question.quotes pick.key)

def request (question : Question) (pick : Pick) : TransmitEvent :=
  .asked question.round pick.key question.blocks question.prior
    (quotesByIssuer question.quotes pick.key)

def ballot (question : Question) (pick : Pick) : Option TransmitEvent :=
  (question.answer pick).toOption.map fun vote => .voted question.round pick.key vote

end Question

/-- Those who are contacted. A single representative always is. -/
def Asking.contacted (asking : Asking) (singleRep : Bool) (prior : List Vote) : List Pick :=
  if singleRep then asking.picks else contactsFor asking.picks prior

def requestVotes (singleRep : Bool) (asking : Asking) (question : Question) :
    Transmitting (List Vote) := do
  let picks := asking.contacted singleRep question.prior
  rejectIf (picks = []) ClientError.noRepresentatives
  Traced.perform (picks.map question.request)
  let answered := asking.arrival.order picks
  Traced.perform (answered.filterMap question.ballot)
  let collected := answered.foldl (fun (collected : Collected) pick =>
    collected.add pick.weight (question.answer pick)) {}
  rejectIf (collected.votes = []) (collected.highestError.elim .quorumNotReached Prod.snd)
  return collected.votes

/-! ## Publishing -/

def transmitStaple (publishing : Publishing) (staple : VoteStaple) : Transmitting Bool := do
  rejectIf (publishing.publishers = []) ClientError.noRepresentatives
  Traced.perform (publishing.publishers.map fun publisher =>
    .published publisher.key staple (publisher.publishStaple staple).isOk)
  let (accepted, lastError) := publishing.arrived.foldl (fun (accepted, lastError) publisher =>
    match publisher.publishStaple staple with
    | .ok _ => (true, lastError)
    | .error error => (accepted, some error)) (false, none)
  match accepted, lastError with
  | false, some error => liftM (throw error : Except ClientError Bool)
  | accepted, _ => return accepted

variable [Tlv Tag Asn1Error] [Zlib]

/-! ## The rounds -/

/-- The blocks of the permanent round: a fee block joins them if the temporary votes require
fees. -/
def finalBlocks (meeting : Meeting) (blocks : List Block) (temporary : List Vote) :
    Except ClientError (List Block) :=
  if feesRequired temporary then do
    let feeBlock ←
      (feeBlockFromOptions blocks temporary meeting.moment meeting.options).result
    return blocks ++ [feeBlock]
  else return blocks

def transmitRound (singleRep : Bool) (meeting : Meeting) (blocks : List Block) :
    Transmitting Bool := do
  let temporary ← requestVotes singleRep meeting.temporary
    { round := .temporary, blocks, prior := [], quotes := meeting.options.quotes }
  let all ← finalBlocks meeting blocks temporary
  let permanent ← requestVotes singleRep meeting.permanent
    { round := .permanent, blocks := all, prior := temporary }
  let staple ← (VoteStaple.tryNew all permanent .default meeting.moment).mapError
    ClientError.vote
  transmitStaple meeting.publishing staple

/-- The variables of the loop, what has happened and the rounds to come. -/
structure TransmitState where
  attempt : ℕ := 0
  delay : ℕ := 1
  trace : List TransmitEvent := []
  meetings : Stream' Meeting

/-- The votes weigh too little. -/
def retryable (error : ClientError) : Bool :=
  isLedgerCode error "LEDGER_INSUFFICIENT_VOTING_WEIGHT"

/-- One turn of the loop of `transmit_with_optional_fee`. -/
def transmitStep (config : ClientConfig) (singleRep : Bool) (blocks : List Block)
    (state : TransmitState) : TransmitState ⊕ Transmitting Bool :=
  let round := transmitRound singleRep state.meetings.head blocks
  match round.result with
  | .ok accepted => .inr ⟨state.trace ++ round.trace, .ok accepted⟩
  | .error error =>
    if !retryable error || config.maxRetries ≤ state.attempt then
      .inr ⟨state.trace ++ round.trace, .error error⟩
    else .inl {
      attempt := state.attempt + 1
      delay := nextBackoff state.delay config.maxBackoffMs
      trace := state.trace ++ round.trace ++ [.slept state.delay]
      meetings := state.meetings.tail }

def transmit (config : ClientConfig) (singleRep : Bool) (blocks : List Block)
    (meetings : Stream' Meeting) : Transmitting Bool :=
  loop (transmitStep config singleRep blocks) ⟨[], .error .quorumNotReached⟩
    (fun state => config.maxRetries - state.attempt) { meetings }

/-! ## One round of votes -/

section Votes

omit [Tlv Tag Asn1Error] [Zlib]

variable {singleRep : Bool} {asking : Asking} {question : Question}

/-- The error of a representative that fails, with its weight. -/
def Question.failure (question : Question) (pick : Pick) : Option (Int × ClientError) :=
  match question.answer pick with
  | .ok _ => none
  | .error error => some (pick.weight, error)

namespace Asking

/-- Those who are contacted, as they answer. -/
def answered (asking : Asking) (singleRep : Bool) (prior : List Vote) : List Pick :=
  asking.arrival.order (asking.contacted singleRep prior)

def votes (asking : Asking) (singleRep : Bool) (question : Question) : List Vote :=
  (asking.answered singleRep question.prior).filterMap fun pick =>
    (question.answer pick).toOption

/-- The requests and the votes. -/
def poll (asking : Asking) (singleRep : Bool) (question : Question) : List TransmitEvent :=
  (asking.contacted singleRep question.prior).map question.request ++
    (asking.answered singleRep question.prior).filterMap question.ballot

theorem answered_perm (asking : Asking) (singleRep : Bool) (prior : List Vote) :
    (asking.answered singleRep prior).Perm (asking.contacted singleRep prior) :=
  asking.arrival.perm _

end Asking

theorem foldl_add (question : Question) (picks : List Pick) :
    picks.foldl (fun (collected : Collected) pick =>
        collected.add pick.weight (question.answer pick)) {} =
      { votes := picks.filterMap fun pick => (question.answer pick).toOption
        highestError := (picks.filterMap question.failure).argmax Prod.fst } := by
  induction picks using List.reverseRecOn with
  | nil => rfl
  | append_singleton picks pick ih =>
    rw [List.foldl_append, ih, List.foldl_cons, List.foldl_nil]
    cases hanswer : question.answer pick with
    | ok vote => simp [Collected.add, Question.failure, hanswer, Except.toOption]
    | error error =>
      simp only [List.filterMap_append, List.filterMap_cons, List.filterMap_nil,
        Question.failure, hanswer, Except.toOption, List.append_nil, List.argmax_concat,
        Collected.add]
      cases (picks.filterMap question.failure).argmax Prod.fst with
      | none => simp
      | some seen =>
        by_cases hlt : seen.1 < pick.weight <;> simp [hlt]

theorem requestVotes_trace (singleRep : Bool) (asking : Asking) (question : Question) :
    (requestVotes singleRep asking question).trace = asking.poll singleRep question := by
  have hperm := asking.answered_perm singleRep question.prior
  unfold requestVotes Asking.poll
  dsimp only
  by_cases hnone : asking.contacted singleRep question.prior = []
  · rw [hnone] at hperm ⊢
    rw [List.perm_nil.mp hperm]
    rfl
  · rw [rejectIf_neg hnone]
    simp only [Traced.liftM_ok_bind, Traced.perform_bind, Traced.trace_liftM_bind_pure,
      List.append_nil]
    rfl

theorem requestVotes_result (singleRep : Bool) (asking : Asking) (question : Question) :
    (requestVotes singleRep asking question).result = (do
      rejectIf (asking.contacted singleRep question.prior = []) ClientError.noRepresentatives
      rejectIf (asking.votes singleRep question = [])
        ((((asking.answered singleRep question.prior).filterMap question.failure).argmax
          Prod.fst).elim .quorumNotReached Prod.snd)
      return asking.votes singleRep question) := by
  simp only [requestVotes, Traced.result_bind, Traced.result_liftM, Traced.result_perform,
    foldl_add, Traced.result_pure, ok_bind]
  rfl

theorem requestVotes_eq_ok {votes : List Vote} :
    (requestVotes singleRep asking question).result = .ok votes ↔
      votes ≠ [] ∧ votes = asking.votes singleRep question := by
  have hperm := asking.answered_perm singleRep question.prior
  rw [requestVotes_result]
  simp only [rejectIf_bind_eq_ok, pure_eq_ok, Except.ok.injEq]
  constructor
  · rintro ⟨-, hvotes, rfl⟩
    exact ⟨hvotes, rfl⟩
  · rintro ⟨hvotes, rfl⟩
    refine ⟨fun hnone => hvotes ?_, hvotes, rfl⟩
    rw [hnone] at hperm
    rw [Asking.votes, List.perm_nil.mp hperm]
    rfl

/-- Whoever gives no vote fails. -/
theorem failure_of_votes_eq_nil (hvotes : asking.votes singleRep question = []) {pick : Pick}
    (hpick : pick ∈ asking.contacted singleRep question.prior) :
    ∃ error, question.answer pick = .error error ∧
      (pick.weight, error) ∈
        (asking.answered singleRep question.prior).filterMap question.failure := by
  have hmem := (asking.answered_perm singleRep question.prior).mem_iff.mpr hpick
  have hnone := List.filterMap_eq_nil_iff.mp hvotes pick hmem
  cases hanswer : question.answer pick with
  | ok vote => simp [hanswer, Except.toOption] at hnone
  | error error =>
    exact ⟨error, rfl, List.mem_filterMap.mpr ⟨pick, hmem, by rw [Question.failure, hanswer]⟩⟩

/-- **A round of votes fails exactly if everybody who is contacted does, and with the error of
the heaviest of them, the first one to answer.** -/
theorem requestVotes_eq_error {error : ClientError} :
    (requestVotes singleRep asking question).result = .error error ↔
      (asking.contacted singleRep question.prior = [] ∧ error = .noRepresentatives) ∨
      asking.votes singleRep question = [] ∧ ∃ weight,
        ((asking.answered singleRep question.prior).filterMap question.failure).argmax Prod.fst =
          some (weight, error) := by
  rw [requestVotes_result, bind_eq_error]
  simp only [rejectIf_eq_error, rejectIf_eq_ok, bind_eq_error, pure_eq_ok, reduceCtorEq,
    and_false, exists_false, or_false]
  constructor
  · rintro (⟨hnone, rfl⟩ | ⟨_, hsome, hvotes, rfl⟩)
    · exact .inl ⟨hnone, rfl⟩
    · obtain ⟨pick, hpick⟩ := List.exists_mem_of_ne_nil _ hsome
      obtain ⟨error, -, hmem⟩ := failure_of_votes_eq_nil hvotes hpick
      refine .inr ⟨hvotes, ?_⟩
      cases hmax : ((asking.answered singleRep question.prior).filterMap
          question.failure).argmax Prod.fst with
      | none => exact absurd (List.argmax_eq_none.mp hmax) (List.ne_nil_of_mem hmem)
      | some heaviest => exact ⟨heaviest.1, rfl⟩
  · rintro (⟨hnone, rfl⟩ | ⟨hvotes, weight, hmax⟩)
    · exact .inl ⟨hnone, rfl⟩
    · refine .inr ⟨(), fun hnone => ?_, hvotes, by rw [hmax, Option.elim_some]⟩
      have hperm := asking.answered_perm singleRep question.prior
      rw [hnone] at hperm
      rw [List.perm_nil.mp hperm] at hmax
      cases hmax

theorem mem_ballots {event : TransmitEvent} {picks : List Pick} :
    event ∈ picks.filterMap question.ballot ↔
      ∃ pick ∈ picks, ∃ vote, question.answer pick = .ok vote ∧
        event = .voted question.round pick.key vote := by
  rw [List.mem_filterMap]
  refine exists_congr fun pick => and_congr_right fun _ => ?_
  unfold Question.ballot
  cases question.answer pick <;> simp [Except.toOption, eq_comm]

theorem mem_poll {event : TransmitEvent} :
    event ∈ asking.poll singleRep question ↔
      (∃ pick ∈ asking.contacted singleRep question.prior, event = question.request pick) ∨
      ∃ pick ∈ asking.contacted singleRep question.prior, ∃ vote,
        question.answer pick = .ok vote ∧ event = .voted question.round pick.key vote := by
  rw [Asking.poll, List.mem_append, List.mem_map, mem_ballots]
  simp only [(asking.answered_perm singleRep question.prior).mem_iff, eq_comm]

end Votes

/-! ## Publishing a staple -/

section Publish

omit [Tlv Tag Asn1Error] [Zlib]

/-- The publications of a staple. -/
def publications (publishing : Publishing) (staple : VoteStaple) : List TransmitEvent :=
  publishing.publishers.map fun publisher =>
    .published publisher.key staple (publisher.publishStaple staple).isOk

def refusal (staple : VoteStaple) (publisher : Publisher) : Option ClientError :=
  match publisher.publishStaple staple with
  | .ok _ => none
  | .error error => some error

theorem foldl_publish (staple : VoteStaple) (arrived : List Publisher) :
    arrived.foldl (fun (accepted, lastError) publisher =>
        match publisher.publishStaple staple with
        | .ok _ => (true, lastError)
        | .error error => (accepted, some error)) (false, none) =
      (arrived.any fun publisher => (publisher.publishStaple staple).isOk,
        (arrived.filterMap (refusal staple)).getLast?) := by
  induction arrived using List.reverseRecOn with
  | nil => rfl
  | append_singleton arrived publisher ih =>
    rw [List.foldl_append, ih, List.foldl_cons, List.foldl_nil]
    cases hanswer : publisher.publishStaple staple <;>
      simp [refusal, hanswer, Except.isOk, Except.toBool]

/-- **Publishing fails exactly if nobody accepts the staple.** -/
theorem transmitStaple_cases (publishing : Publishing) (staple : VoteStaple) :
    (publishing.publishers = [] ∧
      transmitStaple publishing staple = ⟨[], .error .noRepresentatives⟩) ∨
    ((∃ publisher ∈ publishing.publishers, (publisher.publishStaple staple).isOk = true) ∧
      transmitStaple publishing staple = ⟨publications publishing staple, .ok true⟩) ∨
    ∃ error, (∀ publisher ∈ publishing.publishers,
        (publisher.publishStaple staple).isOk = false) ∧
      (publishing.arrived.filterMap (refusal staple)).getLast? = some error ∧
      transmitStaple publishing staple = ⟨publications publishing staple, .error error⟩ := by
  unfold transmitStaple
  by_cases hempty : publishing.publishers = []
  · exact .inl ⟨hempty, by simp [hempty, rejectIf]⟩
  right
  rw [rejectIf_neg hempty, Traced.liftM_ok_bind, Traced.perform_bind, foldl_publish]
  have hperm := publishing.perm
  cases haccepted : publishing.arrived.any fun publisher =>
      (publisher.publishStaple staple).isOk with
  | true =>
    obtain ⟨publisher, hmem, hok⟩ := List.any_eq_true.mp haccepted
    exact .inl ⟨⟨publisher, hperm.mem_iff.mp hmem, hok⟩,
      congrArg₂ Traced.mk (List.append_nil _) rfl⟩
  | false =>
    have hrefused : ∀ publisher ∈ publishing.publishers,
        (publisher.publishStaple staple).isOk = false := by
      intro publisher hmem
      simpa using List.any_eq_false.mp haccepted publisher (hperm.mem_iff.mpr hmem)
    -- there is somebody, and thus an error
    obtain ⟨publisher, hmem⟩ := List.exists_mem_of_ne_nil _ hempty
    have herror : publishing.arrived.filterMap (refusal staple) ≠ [] := by
      cases hanswer : publisher.publishStaple staple with
      | ok flag => simpa [hanswer, Except.isOk, Except.toBool] using hrefused publisher hmem
      | error error =>
        exact List.ne_nil_of_mem (List.mem_filterMap.mpr
          ⟨publisher, hperm.mem_iff.mpr hmem, by rw [refusal, hanswer]⟩)
    have hlast := List.getLast?_eq_some_getLast herror
    refine .inr ⟨_, hrefused, hlast, ?_⟩
    rw [hlast]
    exact congrArg₂ Traced.mk (List.append_nil _) rfl

theorem mem_transmitStaple {publishing : Publishing} {staple : VoteStaple}
    {event : TransmitEvent} (h : event ∈ (transmitStaple publishing staple).trace) :
    ∃ publisher ∈ publishing.publishers,
      event = .published publisher.key staple (publisher.publishStaple staple).isOk := by
  obtain ⟨-, hrun⟩ | ⟨-, hrun⟩ | ⟨_, -, -, hrun⟩ := transmitStaple_cases publishing staple
  · rw [hrun] at h
    cases h
  · rw [hrun] at h
    obtain ⟨publisher, hmem, rfl⟩ := List.mem_map.mp h
    exact ⟨publisher, hmem, rfl⟩
  · rw [hrun] at h
    obtain ⟨publisher, hmem, rfl⟩ := List.mem_map.mp h
    exact ⟨publisher, hmem, rfl⟩

end Publish

/-! ## One round -/

section Round

variable {singleRep : Bool} {meeting : Meeting} {blocks : List Block}

/-- The question of the temporary round. -/
def Meeting.first (meeting : Meeting) (blocks : List Block) : Question :=
  { round := .temporary, blocks, prior := [], quotes := meeting.options.quotes }

/-- The question of the permanent round. -/
def second (all : List Block) (temporary : List Vote) : Question :=
  { round := .permanent, blocks := all, prior := temporary }

/-- How far a round gets. -/
inductive Proceeds (singleRep : Bool) (meeting : Meeting) (blocks : List Block) :
    Transmitting Bool → Prop
  | unvoted {error : ClientError}
      (htemporary : (requestVotes singleRep meeting.temporary (meeting.first blocks)).result =
        .error error) :
      Proceeds singleRep meeting blocks
        ⟨meeting.temporary.poll singleRep (meeting.first blocks), .error error⟩
  | unpaid {temporary : List Vote} {error : ClientError}
      (htemporary : (requestVotes singleRep meeting.temporary (meeting.first blocks)).result =
        .ok temporary)
      (hall : finalBlocks meeting blocks temporary = .error error) :
      Proceeds singleRep meeting blocks
        ⟨meeting.temporary.poll singleRep (meeting.first blocks), .error error⟩
  | unescalated {temporary : List Vote} {all : List Block} {error : ClientError}
      (htemporary : (requestVotes singleRep meeting.temporary (meeting.first blocks)).result =
        .ok temporary)
      (hall : finalBlocks meeting blocks temporary = .ok all)
      (hpermanent : (requestVotes singleRep meeting.permanent (second all temporary)).result =
        .error error) :
      Proceeds singleRep meeting blocks
        ⟨meeting.temporary.poll singleRep (meeting.first blocks) ++
          meeting.permanent.poll singleRep (second all temporary), .error error⟩
  | unstapled {temporary permanent : List Vote} {all : List Block} {error : VoteError}
      (htemporary : (requestVotes singleRep meeting.temporary (meeting.first blocks)).result =
        .ok temporary)
      (hall : finalBlocks meeting blocks temporary = .ok all)
      (hpermanent : (requestVotes singleRep meeting.permanent (second all temporary)).result =
        .ok permanent)
      (hstaple : VoteStaple.tryNew all permanent .default meeting.moment = .error error) :
      Proceeds singleRep meeting blocks
        ⟨meeting.temporary.poll singleRep (meeting.first blocks) ++
          meeting.permanent.poll singleRep (second all temporary), .error (.vote error)⟩
  | stapled {temporary permanent : List Vote} {all : List Block} {staple : VoteStaple}
      (htemporary : (requestVotes singleRep meeting.temporary (meeting.first blocks)).result =
        .ok temporary)
      (hall : finalBlocks meeting blocks temporary = .ok all)
      (hpermanent : (requestVotes singleRep meeting.permanent (second all temporary)).result =
        .ok permanent)
      (hstaple : VoteStaple.tryNew all permanent .default meeting.moment = .ok staple) :
      Proceeds singleRep meeting blocks
        ⟨meeting.temporary.poll singleRep (meeting.first blocks) ++
            meeting.permanent.poll singleRep (second all temporary) ++
            (transmitStaple meeting.publishing staple).trace,
          (transmitStaple meeting.publishing staple).result⟩

theorem transmitRound_proceeds (singleRep : Bool) (meeting : Meeting) (blocks : List Block) :
    Proceeds singleRep meeting blocks (transmitRound singleRep meeting blocks) := by
  have heta : ∀ asking question, requestVotes singleRep asking question =
      ⟨asking.poll singleRep question, (requestVotes singleRep asking question).result⟩ :=
    fun asking question => by rw [← requestVotes_trace]
  unfold transmitRound
  change Proceeds singleRep meeting blocks
    (requestVotes singleRep meeting.temporary (meeting.first blocks) >>= fun temporary => _)
  rw [heta]
  cases htemporary : (requestVotes singleRep meeting.temporary (meeting.first blocks)).result with
  | error error => exact .unvoted htemporary
  | ok temporary =>
    rw [Traced.mk_ok_bind]
    cases hall : finalBlocks meeting blocks temporary with
    | error error =>
      rw [Traced.liftM_error_bind, List.append_nil]
      exact .unpaid htemporary hall
    | ok all =>
      rw [Traced.liftM_ok_bind, ← second, heta]
      cases hpermanent : (requestVotes singleRep meeting.permanent
          (second all temporary)).result with
      | error error => exact .unescalated htemporary hall hpermanent
      | ok permanent =>
        rw [Traced.mk_ok_bind]
        cases hstaple : VoteStaple.tryNew all permanent .default meeting.moment with
        | error error =>
          simp only [Except.mapError, Traced.liftM_error_bind, List.append_nil]
          exact .unstapled htemporary hall hpermanent hstaple
        | ok staple =>
          simp only [Except.mapError, Traced.liftM_ok_bind, ← List.append_assoc]
          exact .stapled htemporary hall hpermanent hstaple

end Round

/-! ## All rounds -/

section Rounds

variable {config : ClientConfig} {singleRep : Bool} {blocks : List Block}
  {meetings : Stream' Meeting}

def roundAt (singleRep : Bool) (blocks : List Block) (meetings : Stream' Meeting) (i : ℕ) :
    Transmitting Bool :=
  transmitRound singleRep (meetings.get i) blocks

/-- The round fails because its votes weigh too little. -/
def insufficient (round : Transmitting Bool) : Bool :=
  match round.result with
  | .ok _ => false
  | .error error => retryable error

/-- The pause after a round doubles, up to a limit. -/
def backoff (max i : ℕ) : ℕ := if i = 0 then 1 else min (2 ^ i) (min (2 ^ 64 - 1) max)

/-- What has happened once so many rounds have failed. -/
def spent (config : ClientConfig) (singleRep : Bool) (blocks : List Block)
    (meetings : Stream' Meeting) (rounds : ℕ) : List TransmitEvent :=
  (List.range rounds).flatMap fun i =>
    (roundAt singleRep blocks meetings i).trace ++ [.slept (backoff config.maxBackoffMs i)]

omit [Crypto] [Tlv Tag Asn1Error] [Zlib] in
theorem nextBackoff_backoff (max i : ℕ) :
    nextBackoff (backoff max i) max = backoff max (i + 1) := by
  unfold nextBackoff backoff
  rw [if_neg (Nat.succ_ne_zero i), pow_succ]
  split
  · subst i
    omega
  · omega

theorem transmitStep_eq (config : ClientConfig) (singleRep : Bool) (blocks : List Block)
    (state : TransmitState) :
    transmitStep config singleRep blocks state =
      let round := transmitRound singleRep state.meetings.head blocks
      if insufficient round = true ∧ state.attempt < config.maxRetries then .inl {
        attempt := state.attempt + 1
        delay := nextBackoff state.delay config.maxBackoffMs
        trace := state.trace ++ round.trace ++ [.slept state.delay]
        meetings := state.meetings.tail }
      else .inr ⟨state.trace ++ round.trace, round.result⟩ := by
  unfold transmitStep insufficient
  generalize transmitRound singleRep state.meetings.head blocks = round
  obtain ⟨trace, error | accepted⟩ := round
  · by_cases hweak : retryable error = true <;>
      by_cases hattempt : state.attempt < config.maxRetries <;> simp [*, not_le]
  · simp

/-- A transmission is over with this round. -/
def EndsWith (config : ClientConfig) (singleRep : Bool) (blocks : List Block)
    (meetings : Stream' Meeting) (run : Transmitting Bool) (last : ℕ) : Prop :=
  last ≤ config.maxRetries ∧
    (∀ i < last, insufficient (roundAt singleRep blocks meetings i) = true) ∧
    (last < config.maxRetries → insufficient (roundAt singleRep blocks meetings last) = false) ∧
    run = ⟨spent config singleRep blocks meetings last ++
        (roundAt singleRep blocks meetings last).trace,
      (roundAt singleRep blocks meetings last).result⟩

/-- **A transmission is its last round, after rounds whose votes weighed too little.** -/
theorem transmit_endsWith (config : ClientConfig) (singleRep : Bool) (blocks : List Block)
    (meetings : Stream' Meeting) :
    ∃ last, EndsWith config singleRep blocks meetings
      (transmit config singleRep blocks meetings) last := by
  let started (rounds : ℕ) : TransmitState := {
    attempt := rounds
    delay := backoff config.maxBackoffMs rounds
    trace := spent config singleRep blocks meetings rounds
    meetings := meetings.drop rounds }
  have hstep : ∀ rounds, transmitStep config singleRep blocks (started rounds) =
      if insufficient (roundAt singleRep blocks meetings rounds) = true ∧
          rounds < config.maxRetries then .inl (started (rounds + 1))
      else .inr ⟨spent config singleRep blocks meetings rounds ++
          (roundAt singleRep blocks meetings rounds).trace,
        (roundAt singleRep blocks meetings rounds).result⟩ := by
    intro rounds
    rw [transmitStep_eq]
    simp only [started, roundAt, spent, Stream'.head_drop, Stream'.tail_drop',
      nextBackoff_backoff, List.range_succ, List.flatMap_append, List.flatMap_singleton,
      List.append_assoc]
  refine loop_rule (Q := fun run => ∃ last, EndsWith config singleRep blocks meetings run last)
    (I := fun state => ∃ rounds ≤ config.maxRetries,
      (∀ i < rounds, insufficient (roundAt singleRep blocks meetings i) = true) ∧
        state = started rounds) ?_ ?_ _ ⟨0, Nat.zero_le _, by simp, rfl⟩
  · -- a round that is tried again
    rintro _ state' ⟨rounds, hrounds, hfailed, rfl⟩ hinl
    rw [hstep] at hinl
    split at hinl <;> rename_i hagain
    · cases hinl
      refine ⟨⟨rounds + 1, hagain.2, fun i hi => ?_, rfl⟩, ?_⟩
      · rcases Nat.lt_succ_iff_lt_or_eq.mp hi with hi | rfl
        · exact hfailed i hi
        · exact hagain.1
      · change config.maxRetries - (rounds + 1) < config.maxRetries - rounds
        omega
    · cases hinl
  · rintro _ run ⟨rounds, hrounds, hfailed, rfl⟩ hinr
    rw [hstep] at hinr
    split at hinr <;> rename_i hagain
    · cases hinr
    · cases hinr
      refine ⟨rounds, hrounds, hfailed, fun hlt => ?_, rfl⟩
      simpa [hlt] using hagain

/-- The pauses of a run. -/
def pauses (trace : List TransmitEvent) : List ℕ :=
  trace.filterMap fun
    | .slept millis => some millis
    | _ => none

omit [Tlv Tag Asn1Error] [Zlib] in
theorem pauses_append (trace trace' : List TransmitEvent) :
    pauses (trace ++ trace') = pauses trace ++ pauses trace' := List.filterMap_append

theorem pauses_transmitRound (singleRep : Bool) (meeting : Meeting) (blocks : List Block) :
    pauses (transmitRound singleRep meeting blocks).trace = [] := by
  have hpoll : ∀ asking question, pauses (Asking.poll asking singleRep question) = [] := by
    intro asking question
    refine List.filterMap_eq_nil_iff.mpr fun event hevent => ?_
    rcases mem_poll.mp hevent with ⟨pick, -, rfl⟩ | ⟨pick, -, vote, -, rfl⟩ <;> rfl
  have hpublished : ∀ publishing staple,
      pauses (transmitStaple publishing staple).trace = [] := by
    intro publishing staple
    refine List.filterMap_eq_nil_iff.mpr fun event hevent => ?_
    obtain ⟨_, -, rfl⟩ := mem_transmitStaple hevent
    rfl
  have hproceeds := transmitRound_proceeds singleRep meeting blocks
  generalize transmitRound singleRep meeting blocks = run at hproceeds ⊢
  cases hproceeds with
  | unvoted => exact hpoll _ _
  | unpaid => exact hpoll _ _
  | unescalated => simp only [pauses_append, hpoll, List.append_nil]
  | unstapled => simp only [pauses_append, hpoll, List.append_nil]
  | stapled => simp only [pauses_append, hpoll, hpublished, List.append_nil]

theorem pauses_spent (config : ClientConfig) (rounds : ℕ) :
    pauses (spent config singleRep blocks meetings rounds) =
      (List.range rounds).map (backoff config.maxBackoffMs) := by
  induction rounds with
  | zero => rfl
  | succ rounds ih =>
    rw [spent, List.range_succ, List.flatMap_append, pauses_append, ← spent, ih,
      List.flatMap_singleton, pauses_append, roundAt, pauses_transmitRound, List.map_append]
    rfl

/-- **A transmission is started again only if the votes weigh too little, a limited number of
times, and after pauses that double up to a limit.** What it returns is what its last round
does. -/
theorem transmit_retries (config : ClientConfig) (singleRep : Bool) (blocks : List Block)
    (meetings : Stream' Meeting) :
    ∃ last ≤ config.maxRetries,
      (∀ i < last, insufficient (roundAt singleRep blocks meetings i) = true) ∧
      (last < config.maxRetries →
        insufficient (roundAt singleRep blocks meetings last) = false) ∧
      (transmit config singleRep blocks meetings).result =
        (roundAt singleRep blocks meetings last).result ∧
      (transmit config singleRep blocks meetings).trace =
        spent config singleRep blocks meetings last ++
          (roundAt singleRep blocks meetings last).trace ∧
      pauses (transmit config singleRep blocks meetings).trace =
        (List.range last).map (backoff config.maxBackoffMs) := by
  obtain ⟨last, hlast, hfailed, hover, hrun⟩ := transmit_endsWith config singleRep blocks meetings
  refine ⟨last, hlast, hfailed, hover, by rw [hrun], by rw [hrun], ?_⟩
  rw [hrun, pauses_append, pauses_spent, roundAt, pauses_transmitRound, List.append_nil]

end Rounds

end Transmit

end KeetaNode.Client
