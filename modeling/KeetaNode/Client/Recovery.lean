import KeetaNode.Client.Fees
import KeetaNode.Client.Moment
import KeetaNode.Client.Pending
import KeetaNode.Client.Representatives
import KeetaNode.Lib.Traced
import KeetaNode.Vote.Stapled

/-!
# Recovering a half-published account

The votes for the next block of an account are scattered across the representatives. They are
collected, the missing ones are asked for in two rounds, and a staple is built from the
permanent votes.

- `keetanetwork-client/src/client.rs` (`recover_account`, `collect_recover_votes`,
  `fetch_recover_blocks`, `top_up_recover_votes`, `rep_recover_vote`, `request_votes_on`,
  `fee_block_from_options`, `quotes_by_issuer`, `rep_vote`, `pick_best_vote`)

A run leaves a trace of the representatives it asks for votes and of the votes it builds
staples from. The answers of a round arrive in any order. Publishing the staple and the scores
of the representatives are left out of the trace.

## Main results

- `Recovery.recoverAccount_spec`: no staple has two votes of one issuer
-/

namespace KeetaNode.Client

open ByteCodec
open Asn1 (Tag Asn1Error)

/-! ## Representatives -/

inductive LedgerSide where
  | main
  | side
  | both
  deriving DecidableEq, Repr

/-- The two rounds in which votes are asked for. -/
inductive Round where
  | temporary
  | permanent
  deriving DecidableEq, Repr

section Recovery

variable [Crypto]

/-- What a representative answers to the requests of a recovery. -/
structure NodeTransport where
  blockVotes : BlockHash → LedgerSide → Except ClientError (Option (List Vote))
  block : BlockHash → Option LedgerSide → Except ClientError (Option Block)
  createVote : Round → List Block → List Vote → Option VoteQuote → Except ClientError Vote

abbrev Pick := RepPick NodeTransport

/-- The order in which the answers of a round arrive. -/
structure Arrival where
  order : List Pick → List Pick
  perm : ∀ picks, (order picks).Perm picks

/-- The representative returns only votes it issued. -/
def Honest (pick : Pick) : Prop :=
  ∀ round blocks prior quote vote,
    pick.transport.createVote round blocks prior quote = .ok vote →
      vote.decoded.issuer.toString = pick.key

/-! ## Votes of one representative -/

/-- `sort_by` on the end of the validity, the latest first. -/
def precedesByStop (left right : Vote) : Prop :=
  unixMillis right.decoded.validity.stop ≤ unixMillis left.decoded.validity.stop

instance instDecidableRelPrecedesByStop : DecidableRel precedesByStop := fun left right =>
  inferInstanceAs (Decidable (unixMillis right.decoded.validity.stop ≤
    unixMillis left.decoded.validity.stop))

def pickBestVote (votes : List Vote) : Option Vote := (votes.insertionSort precedesByStop).head?

/-- The representative's own vote; a single representative may also have votes of others. -/
def repVote (votes : List Vote) (repKey : String) (singleRep : Bool) : Option Vote :=
  let own := votes.filter fun vote => vote.decoded.issuer.toString = repKey
  if own.isEmpty && singleRep then pickBestVote votes else pickBestVote own

/-- The main ledger comes first, then the side ledger. -/
def repRecoverVote (pick : Pick) (hash : BlockHash) (singleRep : Bool) : Option Vote :=
  [LedgerSide.main, .side].findSome? fun ledger =>
    match pick.transport.blockVotes hash ledger with
    | .ok (some votes) => if votes.isEmpty then none else repVote votes pick.key singleRep
    | _ => none

theorem mem_of_pickBestVote {votes : List Vote} {vote : Vote}
    (h : pickBestVote votes = some vote) : vote ∈ votes :=
  (List.perm_insertionSort precedesByStop votes).mem_iff.mp (List.mem_of_mem_head? h)

theorem issuer_of_repVote {votes : List Vote} {key : String} {vote : Vote}
    (h : repVote votes key false = some vote) : vote.decoded.issuer.toString = key := by
  rw [repVote, Bool.and_false, if_neg Bool.false_ne_true] at h
  exact of_decide_eq_true (List.mem_filter.mp (mem_of_pickBestVote h)).2

theorem issuer_of_repRecoverVote {pick : Pick} {hash : BlockHash} {vote : Vote}
    (h : repRecoverVote pick hash false = some vote) :
    vote.decoded.issuer.toString = pick.key := by
  obtain ⟨ledger, -, hledger⟩ := List.exists_of_findSome?_eq_some h
  split at hledger
  · split at hledger
    · cases hledger
    · exact issuer_of_repVote hledger
  · cases hledger

/-! ## The votes that are held -/

structure RecoveredVotes where
  permVotes : List Vote := []
  tempVotes : List Vote := []
  permKeys : List String := []
  missing : List Pick := []

/-- The hashes of the blocks of the first vote, a permanent one if there is one. -/
def RecoveredVotes.blockHashes (votes : RecoveredVotes) : Option (List BlockHash) :=
  (votes.permVotes.head? <|> votes.tempVotes.head?).map fun sample => sample.decoded.blocks

/-- One representative more. -/
def RecoveredVotes.add (votes : RecoveredVotes) (moment : BlockTime) (pick : Pick) :
    Option Vote → RecoveredVotes
  | some vote =>
    if vote.isPermanentAt moment .default then
      { votes with
        permVotes := votes.permVotes ++ [vote]
        permKeys := votes.permKeys ++ [pick.key] }
    else { votes with tempVotes := votes.tempVotes ++ [vote] }
  | none => { votes with missing := votes.missing ++ [pick] }

def collectRecoverVotes (picks : List Pick) (hash : BlockHash) (moment : BlockTime)
    (singleRep : Bool) : RecoveredVotes :=
  picks.foldl (fun votes pick => votes.add moment pick (repRecoverVote pick hash singleRep)) {}

/-! ## Blocks -/

/-- The block of the first representative that has it. -/
def firstBlockOn (hash : BlockHash) : List Pick → Except ClientError (Option Block)
  | [] => .ok none
  | pick :: picks => do
    match ← pick.transport.block hash (some .both) with
    | some block => return some block
    | none => firstBlockOn hash picks

def fetchRecoverBlocks (picks : List Pick) (hashes : List BlockHash) :
    Except ClientError (List Block) :=
  hashes.mapM fun hash => do
    (← firstBlockOn hash picks).elim (throw .recoverFailed) pure

/-! ## Asking for votes -/

/-- What others see of a recovery. -/
inductive RecoverEvent where
  /-- A representative is asked for a vote. -/
  | asked (round : Round) (key : String)
  /-- A staple is built from these votes. -/
  | assembled (round : Round) (votes : List Vote)

/-- The representatives asked in a round. -/
def askedIn (round : Round) (trace : List RecoverEvent) : List String :=
  trace.filterMap fun
    | .asked other key => if other = round then some key else none
    | .assembled _ _ => none

theorem mem_askedIn {round : Round} {trace : List RecoverEvent} {key : String} :
    key ∈ askedIn round trace ↔ .asked round key ∈ trace := by
  rw [askedIn, List.mem_filterMap]
  constructor
  · rintro ⟨event, hevent, hkey⟩
    split at hkey
    · split at hkey
      · rename_i hround
        cases hkey
        exact hround ▸ hevent
      · cases hkey
    · cases hkey
  · exact fun h => ⟨_, h, if_pos rfl⟩

theorem askedIn_append (round : Round) (trace trace' : List RecoverEvent) :
    askedIn round (trace ++ trace') = askedIn round trace ++ askedIn round trace' :=
  List.filterMap_append

theorem askedIn_map (round : Round) (picks : List Pick) :
    askedIn round (picks.map fun pick => .asked round pick.key) = picks.map RepPick.key := by
  simp [askedIn, List.filterMap_map]

abbrev Recovering := Traced RecoverEvent ClientError

/-- How a staple is transmitted. -/
structure TransmitOptions where
  quotes : List VoteQuote := []
  feeTokenPriority : List GenericAccount := []
  generateFeeBlock : Option (VoteStaple → List GenericAccount → Except ClientError Block) := none

/-- The last quote of an issuer is kept. -/
def quotesByIssuer (quotes : List VoteQuote) : String → Option VoteQuote :=
  quotes.foldl (fun byIssuer quote =>
    Function.update byIssuer quote.vote.decoded.issuer.toString (some quote)) fun _ => none

/-- Ask every one of the representatives once, and keep the votes in the order in which they
arrive. -/
def requestVotesOn (arrival : Arrival) (round : Round) (reps : List Pick) (blocks : List Block)
    (prior : List Vote) (quotes : List VoteQuote) : Recovering (List Vote) := do
  if reps.isEmpty then return []
  Traced.perform (reps.map fun pick => .asked round pick.key)
  return (arrival.order reps).filterMap fun pick =>
    (pick.transport.createVote round blocks prior (quotesByIssuer quotes pick.key)).toOption

/-! ## Votes of distinct representatives -/

/-- The votes are of representatives in the list, one of each at most. -/
def FromEach (votes : List Vote) (reps : List Pick) : Prop :=
  (votes.map fun vote => vote.decoded.issuer.toString).Subperm (reps.map RepPick.key)

theorem FromEach.append {votes votes' : List Vote} {reps reps' : List Pick}
    (h : FromEach votes reps) (h' : FromEach votes' reps') :
    FromEach (votes ++ votes') (reps ++ reps') := by
  unfold FromEach
  rw [List.map_append, List.map_append]
  exact List.Subperm.append h h'

theorem FromEach.trans {votes : List Vote} {reps reps' : List Pick} (h : FromEach votes reps)
    (hreps : reps.Subperm reps') : FromEach votes reps' := by
  obtain ⟨arranged, hperm, hsub⟩ := hreps
  have hmap := (hsub.map RepPick.key).subperm
  exact List.Subperm.trans h ((hperm.map RepPick.key).symm.subperm.trans hmap)

/-- What a staple requires of its issuers. -/
theorem FromEach.nodup {votes : List Vote} {reps : List Pick} (h : FromEach votes reps)
    (hkeys : (reps.map RepPick.key).Nodup) : (votes.map Vote.issuerBytes).Nodup := by
  obtain ⟨keys, hperm, hsub⟩ := h
  have hnames := hperm.nodup_iff.mp (hkeys.sublist hsub)
  have hissuers : (votes.map fun vote => vote.decoded.issuer).Nodup := by
    apply List.Nodup.of_map GenericAccount.toString
    rwa [List.map_map]
  have hbytes := hissuers.map GenericAccount.toPublicKeyWithType_injective
  rwa [List.map_map] at hbytes

theorem fromEach_filterMap {found : Pick → Option Vote} {reps : List Pick}
    (h : ∀ pick ∈ reps, ∀ vote, found pick = some vote →
      vote.decoded.issuer.toString = pick.key) :
    FromEach (reps.filterMap found) (reps.filter fun pick => (found pick).isSome) := by
  refine List.Sublist.subperm ?_
  induction reps with
  | nil => exact .slnil
  | cons pick reps ih =>
    obtain ⟨hpick, hreps⟩ := List.forall_mem_cons.mp h
    cases hfound : found pick with
    | none =>
      rw [List.filterMap_cons_none hfound, List.filter_cons_of_neg (by simp [hfound])]
      exact ih hreps
    | some vote =>
      rw [List.filterMap_cons_some hfound, List.filter_cons_of_pos (by simp [hfound]),
        List.map_cons, List.map_cons, hpick vote hfound]
      exact (ih hreps).cons_cons _

/-- **Every representative is asked once, whoever answers and in whatever order.** -/
theorem requestVotesOn_eq (arrival : Arrival) (round : Round) {reps : List Pick}
    (blocks : List Block) (prior : List Vote) (quotes : List VoteQuote)
    (hhonest : ∀ pick ∈ reps, Honest pick) :
    ∃ votes, requestVotesOn arrival round reps blocks prior quotes =
      ⟨reps.map fun pick => .asked round pick.key, .ok votes⟩ ∧ FromEach votes reps := by
  unfold requestVotesOn
  split <;> rename_i hempty
  · rw [List.isEmpty_iff.mp hempty]
    exact ⟨[], rfl, List.nil_subperm⟩
  · refine ⟨_, congrArg₂ Traced.mk (List.append_nil _) rfl, ?_⟩
    -- the answers arrive in some order, and those that failed are dropped
    have hperm := arrival.perm reps
    refine FromEach.trans (fromEach_filterMap ?_)
      (List.filter_sublist.subperm.trans hperm.subperm)
    intro pick hpick vote hvote
    cases hanswer : pick.transport.createVote round blocks prior
        (quotesByIssuer quotes pick.key) with
    | error error =>
      rw [hanswer] at hvote
      cases hvote
    | ok answer =>
      rw [hanswer] at hvote
      cases hvote
      exact hhonest pick (hperm.mem_iff.mp hpick) _ _ _ _ _ hanswer

/-! ## Where the votes belong -/

section Collect

variable {picks : List Pick} {hash : BlockHash} {moment : BlockTime} {singleRep : Bool}

/-- Where the vote of a representative belongs. -/
def holds (hash : BlockHash) (moment : BlockTime) (singleRep permanent : Bool) (pick : Pick) :
    Option Vote :=
  (repRecoverVote pick hash singleRep).filter fun vote =>
    vote.isPermanentAt moment .default = permanent

/-- The loop sorts the votes by where they belong. -/
theorem collectRecoverVotes_eq :
    collectRecoverVotes picks hash moment singleRep =
      { permVotes := picks.filterMap (holds hash moment singleRep true)
        tempVotes := picks.filterMap (holds hash moment singleRep false)
        permKeys := (picks.filter fun pick => (holds hash moment singleRep true pick).isSome).map
          RepPick.key
        missing := picks.filter fun pick => (repRecoverVote pick hash singleRep).isNone } := by
  induction picks using List.reverseRecOn with
  | nil => rfl
  | append_singleton picks pick ih =>
    rw [collectRecoverVotes] at ih ⊢
    rw [List.foldl_append, ih]
    simp only [List.foldl_cons, List.foldl_nil, List.filterMap_append, List.filter_append,
      List.map_append, holds]
    cases hvote : repRecoverVote pick hash singleRep with
    | none => simp [RecoveredVotes.add, holds, hvote]
    | some vote =>
      cases hpermanent : vote.isPermanentAt moment .default <;>
        simp [RecoveredVotes.add, Option.filter_some, holds, hvote, hpermanent]

end Collect

section Partition

variable {picks : List Pick}

theorem fromEach_holds (hash : BlockHash) (moment : BlockTime) (permanent : Bool)
    (picks : List Pick) : FromEach (picks.filterMap (holds hash moment false permanent))
      (picks.filter fun pick => (holds hash moment false permanent pick).isSome) := by
  refine fromEach_filterMap fun pick _ vote hvote => ?_
  exact issuer_of_repRecoverVote (Option.filter_eq_some_iff.mp hvote).1

/-- Nobody both has a temporary vote and none. -/
theorem subperm_temporary (hash : BlockHash) (moment : BlockTime) (picks : List Pick) :
    ((picks.filter fun pick => (holds hash moment false false pick).isSome) ++
      picks.filter fun pick => (repRecoverVote pick hash false).isNone).Subperm picks := by
  have hdisjoint : ∀ pick, (repRecoverVote pick hash false).isNone = true →
      (!(holds hash moment false false pick).isSome) = true := by
    intro pick hnone
    simp [holds, Option.isNone_iff_eq_none.mp hnone]
  have hsub := (List.monotone_filter_right picks hdisjoint).append_left
    (picks.filter fun pick => (holds hash moment false false pick).isSome)
  exact hsub.subperm.trans (List.filter_append_perm _ picks).subperm

/-- Keys tell the representatives apart. -/
theorem filter_notMem_keys (hkeys : (picks.map RepPick.key).Nodup) (p : Pick → Bool) :
    (picks.filter fun pick => pick.key ∉ (picks.filter p).map RepPick.key) =
      picks.filter fun pick => !p pick := by
  refine List.filter_congr fun pick hpick => ?_
  rw [Bool.eq_iff_iff, decide_eq_true_eq, Bool.not_eq_true', ← Bool.not_eq_true, not_iff_not,
    List.mem_map]
  constructor
  · rintro ⟨other, hother, hkey⟩
    obtain ⟨hmem, hp⟩ := List.mem_filter.mp hother
    rwa [List.inj_on_of_nodup_map hkeys hmem hpick hkey] at hp
  · exact fun hp => ⟨pick, List.mem_filter.mpr ⟨hpick, hp⟩, rfl⟩

/-- As many permanent votes as representatives leave nobody to ask. -/
theorem nobody_lacks {found : Pick → Option Vote}
    (hlength : (picks.filterMap found).length = picks.length) :
    (picks.filter fun pick => !(found pick).isSome) = [] := by
  rw [List.length_filterMap_eq_countP, List.countP_eq_length] at hlength
  rw [List.filter_eq_nil_iff]
  intro pick hpick
  simp [hlength pick hpick]

/-- Somebody without a vote has no permanent one. -/
theorem missing_subset (hash : BlockHash) (moment : BlockTime) (picks : List Pick) :
    (picks.filter fun pick => (repRecoverVote pick hash false).isNone) ⊆
      picks.filter fun pick => !(holds hash moment false true pick).isSome := by
  intro pick hpick
  obtain ⟨hmem, hnone⟩ := List.mem_filter.mp hpick
  refine List.mem_filter.mpr ⟨hmem, ?_⟩
  simp [holds, Option.isNone_iff_eq_none.mp hnone]

end Partition

/-! ## How a recovery goes on -/

/-- What happens before the permanent round. -/
def Early (reps missing : List Pick) (event : RecoverEvent) : Prop :=
  (∃ pick ∈ missing, event = .asked .temporary pick.key) ∨
    ∃ votes, FromEach votes reps ∧ event = .assembled .temporary votes

theorem Early.mono {reps reps' missing missing' : List Pick} {event : RecoverEvent}
    (h : Early reps missing event) (hreps : reps.Subperm reps') (hmissing : missing ⊆ missing') :
    Early reps' missing' event := by
  obtain ⟨pick, hpick, hevent⟩ | ⟨votes, hfrom, hevent⟩ := h
  · exact .inl ⟨pick, hmissing hpick, hevent⟩
  · exact .inr ⟨votes, hfrom.trans hreps, hevent⟩

theorem Early.asked {reps missing : List Pick} {round : Round} {key : String}
    (h : Early reps missing (.asked round key)) :
    round = .temporary ∧ ∃ pick ∈ missing, pick.key = key := by
  obtain ⟨pick, hpick, hasked⟩ | ⟨_, -, hassembled⟩ := h
  · cases hasked
    exact ⟨rfl, pick, hpick, rfl⟩
  · cases hassembled

theorem Early.assembled {reps missing : List Pick} {round : Round} {votes : List Vote}
    (h : Early reps missing (.assembled round votes)) :
    round = .temporary ∧ FromEach votes reps := by
  obtain ⟨pick, -, hpick⟩ | ⟨others, hfrom, hothers⟩ := h
  · cases hpick
  · cases hothers
    exact ⟨rfl, hfrom⟩

/-- How a recovery goes on: what is early, and then, unless it is over, the requests to those
whose permanent vote is lacking and possibly the staple. -/
def Unfolds (reps lacking : List Pick) (trace : List RecoverEvent) : Prop :=
  ∃ early, (∀ event ∈ early, Early reps lacking event) ∧
    (trace = early ∨ ∃ assembled,
      (assembled = [] ∨ ∃ votes, assembled = [.assembled .permanent votes] ∧
        FromEach votes reps) ∧
      trace = early ++ lacking.map (fun pick => .asked .permanent pick.key) ++ assembled)

section Unfolding

variable {reps lacking : List Pick} {trace : List RecoverEvent}

theorem Unfolds.mem {event : RecoverEvent} (h : Unfolds reps lacking trace)
    (hevent : event ∈ trace) :
    Early reps lacking event ∨ (∃ pick ∈ lacking, event = .asked .permanent pick.key) ∨
      ∃ votes, FromEach votes reps ∧ event = .assembled .permanent votes := by
  obtain ⟨early, hearly, rfl | ⟨assembled, hassembled, rfl⟩⟩ := h
  · exact .inl (hearly event hevent)
  · simp only [List.mem_append, List.mem_map] at hevent
    rcases hevent with (hevent | ⟨pick, hpick, rfl⟩) | hevent
    · exact .inl (hearly event hevent)
    · exact .inr (.inl ⟨pick, hpick, rfl⟩)
    · rcases hassembled with rfl | ⟨votes, rfl, hfrom⟩
      · cases hevent
      · exact .inr (.inr ⟨votes, hfrom, List.mem_singleton.mp hevent⟩)

theorem Unfolds.fromEach {round : Round} {votes : List Vote} (h : Unfolds reps lacking trace)
    (hmem : .assembled round votes ∈ trace) : FromEach votes reps := by
  rcases h.mem hmem with hevent | ⟨_, -, hasked⟩ | ⟨_, hfrom, hvotes⟩
  · exact hevent.assembled.2
  · cases hasked
  · cases hvotes
    exact hfrom

theorem Unfolds.lacks {round : Round} {key : String} (h : Unfolds reps lacking trace)
    (hmem : .asked round key ∈ trace) : ∃ pick ∈ lacking, pick.key = key := by
  rcases h.mem hmem with hevent | ⟨pick, hpick, hasked⟩ | ⟨_, -, hvotes⟩
  · exact hevent.asked.2
  · cases hasked
    exact ⟨pick, hpick, rfl⟩
  · cases hvotes

/-- Whoever lacks a permanent vote is asked for it, once the permanent round is reached. -/
theorem Unfolds.askedIn_permanent (h : Unfolds reps lacking trace)
    (hreached : askedIn .permanent trace ≠ [] ∨ ∃ votes, .assembled .permanent votes ∈ trace) :
    askedIn .permanent trace = lacking.map RepPick.key := by
  obtain ⟨early, hearly, hcases⟩ := h
  have hnobody : askedIn .permanent early = [] := by
    rw [List.eq_nil_iff_forall_not_mem]
    intro key hkey
    cases (hearly _ (mem_askedIn.mp hkey)).asked.1
  rcases hcases with rfl | ⟨assembled, hassembled, rfl⟩
  · -- the recovery is over early
    rcases hreached with hasked | ⟨votes, hvotes⟩
    · exact absurd hnobody hasked
    · cases (hearly _ hvotes).assembled.1
  · have hnone : askedIn .permanent assembled = [] := by
      rcases hassembled with rfl | ⟨votes, rfl, -⟩ <;> rfl
    rw [askedIn_append, askedIn_append, askedIn_map, hnobody, hnone, List.nil_append,
      List.append_nil]

end Unfolding

/-! ## The recovery -/

variable [Tlv Tag Asn1Error] [Zlib]

def feeBlockFromOptions (blocks : List Block) (votes : List Vote) (moment : BlockTime)
    (options : TransmitOptions) : Recovering Block := do
  let generate ← (options.generateFeeBlock.elim (.error .feeRequired) .ok : Except ClientError _)
  Traced.perform [.assembled .temporary votes]
  let staple ← (VoteStaple.tryNew blocks votes .default moment).mapError ClientError.vote
  generate staple options.feeTokenPriority

/-- What a recovery is run with: the client, the answers to the question for the next block, and
the order in which the answers to the requests for votes arrive. -/
structure Recovery where
  singleRep : Bool
  picks : List Pick
  pending : List PendingAnswer
  moment : BlockTime
  arrival : Round → Arrival
  transmitStaple : VoteStaple → Except ClientError Bool

namespace Recovery

variable (recovery : Recovery)

/-- The permanent round asks the representatives whose permanent vote was not found, with all
the votes there are. -/
def topUpRecoverVotes (votes : RecoveredVotes) (blocks : List Block)
    (options : TransmitOptions) : Recovering (RecoveredVotes × List Block) := do
  let more ← (
    if votes.tempVotes.length ≠ recovery.picks.length then
      requestVotesOn (recovery.arrival .temporary) .temporary votes.missing blocks
        votes.permVotes options.quotes
    else pure [])
  let tempVotes := votes.tempVotes ++ more
  let feeBlock ← (
    if votes.permVotes.isEmpty && feesRequired tempVotes then
      (fun block => [block]) <$> feeBlockFromOptions blocks tempVotes recovery.moment options
    else pure [])
  let blocks := blocks ++ feeBlock
  let missingPerm := recovery.picks.filter fun pick => pick.key ∉ votes.permKeys
  let more ← requestVotesOn (recovery.arrival .permanent) .permanent missingPerm blocks
    (tempVotes ++ votes.permVotes) options.quotes
  return ({ votes with tempVotes, permVotes := votes.permVotes ++ more }, blocks)

/-- The staple of the permanent votes. -/
def assembleStaple (votes : RecoveredVotes) (blocks : List Block) (publish : Bool) :
    Recovering (Option VoteStaple) := do
  rejectIf (votes.permVotes.isEmpty = true) ClientError.recoverFailed
  let moment := stapleMoment votes.permVotes recovery.moment
  Traced.perform [.assembled .permanent votes.permVotes]
  let staple ← (VoteStaple.tryNew blocks votes.permVotes .default moment).mapError
    ClientError.vote
  if publish then
    let _ ← recovery.transmitStaple staple
  return some staple

/-- The second half of `recover_account`, with the votes that are held. -/
def reassemble (votes : RecoveredVotes) (hashes : List BlockHash) (publish : Bool)
    (options : TransmitOptions) : Recovering (Option VoteStaple) := do
  let blocks ← fetchRecoverBlocks recovery.picks hashes
  let (votes, blocks) ← (
    if votes.permVotes.length ≠ recovery.picks.length then
      recovery.topUpRecoverVotes votes blocks options
    else pure (votes, blocks))
  recovery.assembleStaple votes blocks publish

def recoverAccount (publish : Bool) (options : TransmitOptions) :
    Recovering (Option VoteStaple) := do
  let some successor ← pendingBlock recovery.pending | return none
  rejectIf (recovery.picks.isEmpty = true) ClientError.noRepresentatives
  let votes := collectRecoverVotes recovery.picks successor.hash recovery.moment
    recovery.singleRep
  let some hashes := votes.blockHashes | return none
  recovery.reassemble votes hashes publish options

/-! ## What a recovery asks for -/

/-- The permanent vote of the representative for the next block was found. -/
def FoundPermanent (pick : Pick) : Prop :=
  ∃ successor vote, pendingBlock recovery.pending = .ok (some successor) ∧
    repRecoverVote pick successor.hash recovery.singleRep = some vote ∧
    vote.isPermanentAt recovery.moment .default = true

end Recovery

/-! ## The two rounds -/

theorem mem_feeBlockFromOptions {blocks : List Block} {votes : List Vote} {moment : BlockTime}
    {options : TransmitOptions} {event : RecoverEvent}
    (h : event ∈ (feeBlockFromOptions blocks votes moment options).trace) :
    event = .assembled .temporary votes := by
  simp only [feeBlockFromOptions, Traced.mem_trace_bind, Traced.trace_liftM, Traced.trace_perform,
    List.not_mem_nil, List.mem_singleton, false_or, or_false, exists_and_right, and_false,
    exists_false] at h
  exact h.2

namespace Recovery

variable {recovery : Recovery}

theorem topUpRecoverVotes_spec {votes : RecoveredVotes} (blocks : List Block) {temp : List Pick}
    (options : TransmitOptions) (hpicks : ∀ pick ∈ recovery.picks, Honest pick)
    (hmissing : ∀ pick ∈ votes.missing, Honest pick) (htemp : FromEach votes.tempVotes temp) :
    ∃ early, (∀ event ∈ early, Early (temp ++ votes.missing) votes.missing event) ∧
      ((∃ error, recovery.topUpRecoverVotes votes blocks options = ⟨early, .error error⟩) ∨
      ∃ votes' blocks' more,
        recovery.topUpRecoverVotes votes blocks options =
          ⟨early ++ (recovery.picks.filter fun pick => pick.key ∉ votes.permKeys).map
            fun pick => .asked .permanent pick.key, .ok (votes', blocks')⟩ ∧
        votes'.permVotes = votes.permVotes ++ more ∧
        FromEach more (recovery.picks.filter fun pick => pick.key ∉ votes.permKeys)) := by
  -- the temporary round
  obtain ⟨asked, more, hfirst, hasked, hmore⟩ : ∃ asked more,
      (if votes.tempVotes.length ≠ recovery.picks.length then
        requestVotesOn (recovery.arrival .temporary) .temporary votes.missing blocks
          votes.permVotes options.quotes
      else pure [] : Recovering (List Vote)) = ⟨asked, .ok more⟩ ∧
      (∀ event ∈ asked, Early (temp ++ votes.missing) votes.missing event) ∧
      FromEach more votes.missing := by
    split
    · obtain ⟨more, hrequest, hmore⟩ := requestVotesOn_eq _ _ _ _ _ hmissing
      refine ⟨_, more, hrequest, fun event hevent => ?_, hmore⟩
      obtain ⟨pick, hpick, rfl⟩ := List.mem_map.mp hevent
      exact .inl ⟨pick, hpick, rfl⟩
    · exact ⟨[], [], rfl, by simp, List.nil_subperm⟩
  -- the fee block
  obtain ⟨⟨assembled, feeBlock⟩, hfee, hassembled⟩ : ∃ fee,
      (if votes.permVotes.isEmpty && feesRequired (votes.tempVotes ++ more) then
        (fun block => [block]) <$>
          feeBlockFromOptions blocks (votes.tempVotes ++ more) recovery.moment options
      else pure [] : Recovering (List Block)) = fee ∧
      ∀ event ∈ fee.trace, event = .assembled .temporary (votes.tempVotes ++ more) := by
    split <;> refine ⟨_, rfl, fun event hevent => ?_⟩
    · rw [Traced.trace_map] at hevent
      exact mem_feeBlockFromOptions hevent
    · cases hevent
  have hearly : ∀ event ∈ asked ++ assembled,
      Early (temp ++ votes.missing) votes.missing event := by
    intro event hevent
    rcases List.mem_append.mp hevent with hevent | hevent
    · exact hasked event hevent
    · exact .inr ⟨_, htemp.append hmore, hassembled event hevent⟩
  refine ⟨asked ++ assembled, hearly, ?_⟩
  unfold topUpRecoverVotes
  rw [hfirst, Traced.mk_ok_bind]
  cases feeBlock with
  | error error => exact .inl ⟨error, by simp only [hfee, Traced.mk_error_bind]⟩
  | ok feeBlock =>
    -- the permanent round
    have hlacking : ∀ pick ∈ recovery.picks.filter fun pick => pick.key ∉ votes.permKeys,
        Honest pick := fun pick hpick => hpicks pick (List.mem_of_mem_filter hpick)
    obtain ⟨permanent, hrequest, hpermanent⟩ := requestVotesOn_eq (recovery.arrival .permanent)
      .permanent (blocks ++ feeBlock) (votes.tempVotes ++ more ++ votes.permVotes) options.quotes
      hlacking
    refine .inr ⟨{ votes with
      tempVotes := votes.tempVotes ++ more
      permVotes := votes.permVotes ++ permanent }, blocks ++ feeBlock, permanent, ?_, rfl,
      hpermanent⟩
    simp only [hfee, Traced.mk_ok_bind, hrequest, Traced.trace_pure, Traced.result_pure,
      List.append_nil]
    rw [List.append_assoc]

theorem assembleStaple_trace (votes : RecoveredVotes) (blocks : List Block) (publish : Bool) :
    (recovery.assembleStaple votes blocks publish).trace = [] ∨
      (recovery.assembleStaple votes blocks publish).trace =
        [.assembled .permanent votes.permVotes] := by
  unfold assembleStaple
  obtain hnil | ⟨_, -, htrace⟩ := Traced.trace_liftM_bind _ _
  · exact .inl hnil
  · right
    rw [htrace, Traced.perform_bind, List.append_right_eq_self]
    obtain hnil | ⟨staple, -, htrace⟩ := Traced.trace_liftM_bind _ _
    · exact hnil
    · rw [htrace]
      split
      · obtain hnil | ⟨_, -, htrace⟩ := Traced.trace_liftM_bind _ _
        · exact hnil
        · exact htrace
      · rfl

theorem recoverAccount_trace (recovery : Recovery) (publish : Bool) (options : TransmitOptions) :
    (recovery.recoverAccount publish options).trace = [] ∨
      ∃ successor hashes, pendingBlock recovery.pending = .ok (some successor) ∧
        (recovery.recoverAccount publish options).trace =
          (recovery.reassemble (collectRecoverVotes recovery.picks successor.hash recovery.moment
            recovery.singleRep) hashes publish options).trace := by
  unfold recoverAccount
  obtain hnil | ⟨_ | successor, hpending, htrace⟩ :=
    Traced.trace_liftM_bind (pendingBlock recovery.pending) _
  · exact .inl hnil
  · exact .inl htrace
  · rw [htrace]
    obtain hnil | ⟨_, -, htrace⟩ := Traced.trace_liftM_bind _ _
    · exact .inl hnil
    · rw [htrace]
      dsimp only
      cases (collectRecoverVotes recovery.picks successor.hash recovery.moment
        recovery.singleRep).blockHashes with
      | none => exact .inl rfl
      | some hashes => exact .inr ⟨successor, hashes, hpending, rfl⟩

/-- A staple is the one of the votes that are recorded. -/
theorem assembled_of_assembleStaple {votes : RecoveredVotes} {blocks : List Block}
    {publish : Bool} {staple : VoteStaple}
    (h : (recovery.assembleStaple votes blocks publish).result = .ok (some staple)) :
    .assembled .permanent votes.permVotes ∈
        (recovery.assembleStaple votes blocks publish).trace ∧
      staple.votes = sortVotes votes.permVotes := by
  unfold assembleStaple at h ⊢
  simp only [Traced.result_bind, Traced.result_liftM, Traced.result_perform, bind_eq_ok] at h
  obtain ⟨_, hsome, _, -, built, hbuilt, hresult⟩ := h
  -- the staple is transmitted or not, and is the same in both cases
  have hstaple : built = staple := by
    split at hresult
    · simp only [Traced.result_bind, Traced.result_liftM, bind_eq_ok] at hresult
      obtain ⟨_, -, hresult⟩ := hresult
      cases hresult
      rfl
    · cases hresult
      rfl
  subst hstaple
  refine ⟨?_, (VoteStaple.tryNew_eq_ok.mp (mapError_eq_ok.mp hbuilt)).2.2.2.1⟩
  rw [Traced.mem_trace_bind]
  exact .inr ⟨_, hsome, by simp [Traced.perform_bind]⟩

theorem assembled_of_reassemble {votes : RecoveredVotes} {hashes : List BlockHash}
    {publish : Bool} {options : TransmitOptions} {staple : VoteStaple}
    (h : (recovery.reassemble votes hashes publish options).result = .ok (some staple)) :
    ∃ permVotes,
      .assembled .permanent permVotes ∈ (recovery.reassemble votes hashes publish options).trace ∧
        staple.votes = sortVotes permVotes := by
  unfold reassemble at h ⊢
  simp only [Traced.result_bind, Traced.result_liftM, bind_eq_ok] at h
  obtain ⟨blocks, hblocks, ⟨votes', blocks'⟩, htop, h⟩ := h
  obtain ⟨hassembled, hvotes⟩ := assembled_of_assembleStaple h
  refine ⟨_, ?_, hvotes⟩
  rw [Traced.mem_trace_bind]
  refine .inr ⟨blocks, hblocks, ?_⟩
  rw [Traced.mem_trace_bind]
  exact .inr ⟨_, htop, hassembled⟩

theorem assembled_of_recoverAccount {publish : Bool} {options : TransmitOptions}
    {staple : VoteStaple}
    (h : (recovery.recoverAccount publish options).result = .ok (some staple)) :
    ∃ votes, .assembled .permanent votes ∈ (recovery.recoverAccount publish options).trace ∧
      staple.votes = sortVotes votes := by
  unfold recoverAccount at h ⊢
  cases hpending : pendingBlock recovery.pending with
  | error error =>
    rw [hpending] at h
    cases h
  | ok found =>
    rw [hpending, Traced.liftM_ok_bind] at h
    rw [Traced.liftM_ok_bind]
    cases found with
    | none => cases h
    | some successor =>
      simp only [Traced.result_bind, Traced.result_liftM, bind_eq_ok] at h
      obtain ⟨_, hpicks, h⟩ := h
      simp only [hpicks, Traced.liftM_ok_bind]
      split at h
      · exact assembled_of_reassemble h
      · cases h

/-- **With the votes that are held, every representative without a permanent one is asked for
it, unless the recovery is over early.** -/
theorem reassemble_trace {votes : RecoveredVotes} (hashes : List BlockHash)
    {temp perm : List Pick} (publish : Bool) (options : TransmitOptions)
    (hpicks : ∀ pick ∈ recovery.picks, Honest pick)
    (hmissing : ∀ pick ∈ votes.missing, Honest pick) (htemp : FromEach votes.tempVotes temp)
    (hperm : FromEach votes.permVotes perm)
    (hcount : votes.permVotes.length = recovery.picks.length →
      (recovery.picks.filter fun pick => pick.key ∉ votes.permKeys) = []) :
    ∃ early, (∀ event ∈ early, Early (temp ++ votes.missing) votes.missing event) ∧
      ((recovery.reassemble votes hashes publish options).trace = early ∨
      ∃ assembled,
        (assembled = [] ∨ ∃ permVotes, assembled = [.assembled .permanent permVotes] ∧
          FromEach permVotes
            (perm ++ recovery.picks.filter fun pick => pick.key ∉ votes.permKeys)) ∧
        (recovery.reassemble votes hashes publish options).trace =
          early ++ (recovery.picks.filter fun pick => pick.key ∉ votes.permKeys).map
            (fun pick => .asked .permanent pick.key) ++ assembled) := by
  unfold reassemble
  obtain hnil | ⟨blocks, -, htrace⟩ := Traced.trace_liftM_bind _ _
  · exact ⟨[], by simp, .inl hnil⟩
  rw [htrace]
  split <;> rename_i hlength
  · -- the missing votes are topped up first
    obtain ⟨early, hearly, ⟨error, htop⟩ | ⟨votes', blocks', more, htop, hmore, hfrom⟩⟩ :=
      topUpRecoverVotes_spec blocks options hpicks hmissing htemp
    · exact ⟨early, hearly, .inl (by rw [htop, Traced.mk_error_bind])⟩
    · refine ⟨early, hearly, .inr ⟨_, ?_, by rw [htop, Traced.mk_ok_bind]⟩⟩
      obtain hnil | hassembled := assembleStaple_trace votes' blocks' publish
      · exact .inl hnil
      · exact .inr ⟨_, hassembled, hmore ▸ hperm.append hfrom⟩
  · -- nobody is to be asked
    rw [hcount (not_not.mp hlength), Traced.pure_bind]
    refine ⟨[], by simp, .inr ⟨_, ?_, rfl⟩⟩
    obtain hnil | hassembled := assembleStaple_trace votes blocks publish
    · exact .inl hnil
    · exact .inr ⟨_, hassembled, by simpa using hperm⟩

omit [Tlv Tag Asn1Error] [Zlib] in
theorem foundPermanent_iff {pick : Pick} {successor : Block} (hsingle : recovery.singleRep = false)
    (hpending : pendingBlock recovery.pending = .ok (some successor)) :
    recovery.FoundPermanent pick ↔
      (holds successor.hash recovery.moment false true pick).isSome = true := by
  simp [FoundPermanent, holds, hpending, hsingle, Option.any_eq_true]

/-- What the recovery asks for and assembles. -/
def trace (recovery : Recovery) (publish : Bool) (options : TransmitOptions) :
    List RecoverEvent :=
  (recovery.recoverAccount publish options).trace

theorem reassemble_unfolds (hkeys : (recovery.picks.map RepPick.key).Nodup)
    (hhonest : ∀ pick ∈ recovery.picks, Honest pick) (hash : BlockHash)
    (hashes : List BlockHash) (publish : Bool) (options : TransmitOptions) :
    Unfolds recovery.picks
      (recovery.picks.filter fun pick => !(holds hash recovery.moment false true pick).isSome)
      (recovery.reassemble (collectRecoverVotes recovery.picks hash recovery.moment false) hashes
        publish options).trace := by
  generalize hcollect : collectRecoverVotes recovery.picks hash recovery.moment false = votes
  rw [collectRecoverVotes_eq] at hcollect
  have hmissing : ∀ pick ∈ votes.missing, Honest pick := by
    rw [← hcollect]
    exact fun pick hpick => hhonest pick (List.mem_of_mem_filter hpick)
  -- the keys are distinct, so that a representative lacks a vote exactly if its key is not found
  have hlacking : (recovery.picks.filter fun pick => pick.key ∉ votes.permKeys) =
      recovery.picks.filter fun pick => !(holds hash recovery.moment false true pick).isSome := by
    rw [← hcollect]
    exact filter_notMem_keys hkeys _
  have hcount : votes.permVotes.length = recovery.picks.length →
      (recovery.picks.filter fun pick => pick.key ∉ votes.permKeys) = [] := by
    rw [hlacking, ← hcollect]
    exact nobody_lacks
  have htemp : FromEach votes.tempVotes (recovery.picks.filter fun pick =>
      (holds hash recovery.moment false false pick).isSome) := by
    rw [← hcollect]
    exact fromEach_holds _ _ _ _
  have hperm : FromEach votes.permVotes (recovery.picks.filter fun pick =>
      (holds hash recovery.moment false true pick).isSome) := by
    rw [← hcollect]
    exact fromEach_holds _ _ _ _
  obtain ⟨early, hearly, hcases⟩ :=
    reassemble_trace hashes publish options hhonest hmissing htemp hperm hcount
  rw [hlacking] at hcases
  refine ⟨early, fun event hevent => ?_, hcases.imp id ?_⟩
  · have hevent := hearly event hevent
    rw [← hcollect] at hevent
    exact hevent.mono (subperm_temporary _ _ _) (missing_subset _ _ _)
  · rintro ⟨assembled, hassembled, htrace⟩
    refine ⟨assembled, hassembled.imp id ?_, htrace⟩
    rintro ⟨permVotes, rfl, hfrom⟩
    exact ⟨permVotes, rfl, hfrom.trans (List.filter_append_perm _ _).subperm⟩

/-- A recovery asks those whose permanent vote was not found. -/
theorem trace_unfolds (hsingle : recovery.singleRep = false)
    (hkeys : (recovery.picks.map RepPick.key).Nodup)
    (hhonest : ∀ pick ∈ recovery.picks, Honest pick) (publish : Bool)
    (options : TransmitOptions) :
    ∃ lacking, lacking.Sublist recovery.picks ∧
      (∀ pick ∈ recovery.picks, pick ∈ lacking ↔ ¬ recovery.FoundPermanent pick) ∧
      Unfolds recovery.picks lacking (recovery.trace publish options) := by
  obtain hnil | ⟨successor, hashes, hpending, hrun⟩ :=
    recoverAccount_trace recovery publish options
  · classical
    refine ⟨recovery.picks.filter fun pick => ¬ recovery.FoundPermanent pick,
      List.filter_sublist, fun pick hpick => ?_, [], by simp, .inl hnil⟩
    simp [hpick]
  · rw [hsingle] at hrun
    refine ⟨_, List.filter_sublist, fun pick hpick => ?_,
      hrun ▸ reassemble_unfolds hkeys hhonest successor.hash hashes publish options⟩
    rw [foundPermanent_iff hsingle hpending]
    simp [hpick]

/-- **Recovery never assembles two votes of one representative.** It asks nobody for a vote whose
permanent vote it has found and, if it gets as far as the permanent round, everybody else once.
A staple it returns is one of those it has assembled. -/
theorem recoverAccount_spec (hsingle : recovery.singleRep = false)
    (hkeys : (recovery.picks.map RepPick.key).Nodup)
    (hhonest : ∀ pick ∈ recovery.picks, Honest pick) (publish : Bool)
    (options : TransmitOptions) :
    (∀ round votes, .assembled round votes ∈ recovery.trace publish options →
      (votes.map Vote.issuerBytes).Nodup) ∧
    (∀ pick ∈ recovery.picks, recovery.FoundPermanent pick → ∀ round,
      .asked round pick.key ∉ recovery.trace publish options) ∧
    (askedIn .permanent (recovery.trace publish options) ≠ [] ∨
        (∃ votes, .assembled .permanent votes ∈ recovery.trace publish options) →
      ∀ pick ∈ recovery.picks, ¬ recovery.FoundPermanent pick →
        (askedIn .permanent (recovery.trace publish options)).count pick.key = 1) ∧
    ∀ staple, (recovery.recoverAccount publish options).result = .ok (some staple) →
      ∃ votes, .assembled .permanent votes ∈ recovery.trace publish options ∧
        staple.votes = sortVotes votes := by
  obtain ⟨lacking, hsub, hlacking, hunfolds⟩ :=
    trace_unfolds hsingle hkeys hhonest publish options
  refine ⟨fun round votes hmem => (hunfolds.fromEach hmem).nodup hkeys, ?_, ?_,
    fun _ => assembled_of_recoverAccount⟩
  · -- only those who lack a permanent vote are asked
    intro pick hpick hfound round hasked
    obtain ⟨other, hother, hkey⟩ := hunfolds.lacks hasked
    obtain rfl := List.inj_on_of_nodup_map hkeys (hsub.subset hother) hpick hkey
    exact (hlacking other hpick).mp hother hfound
  · -- once the permanent round is reached, each of them is asked in it
    intro hreached pick hpick hnot
    rw [hunfolds.askedIn_permanent hreached]
    exact List.count_eq_one_of_mem (hkeys.sublist (hsub.map _))
      (List.mem_map_of_mem ((hlacking pick hpick).mpr hnot))

end Recovery

end Recovery

section Samples

open scoped Reference Asn1.Reference

namespace Sample

open Reference

/-- A vote for the sample block that is valid for two hundred years. -/
def permanentVote (issuer : GenericAccount) : Except ClientError Vote :=
  (UnsignedVote.sign { KeetaNode.Sample.unsignedVote issuer [KeetaNode.Sample.blockHash] none with
    validity := ⟨Asn1.Sample.date, 2225, 1, 2, 3, 4, 5, 500, by decide⟩ }
    (signatureBy issuer.publicKey)).mapError .vote

/-- A representative with the block, with these votes for it and willing to give its own. -/
def representative (issuer : GenericAccount) (block : Block) (held : List Vote) : Pick where
  key := issuer.toString
  weight := 1
  transport :=
    { blockVotes := fun _ _ => .ok (some held)
      block := fun _ _ => .ok (some block)
      createVote := fun _ _ _ _ => permanentVote issuer }

/-- Alice has her vote, and bob has none. The answers arrive in reverse order. -/
def recovery (block : Block) (vote : Vote) : Recovery where
  singleRep := false
  picks := [representative alice block [vote], representative bob block []]
  pending := [.ok (some block), .ok none]
  moment := Asn1.Sample.date
  arrival := fun _ => ⟨List.reverse, List.reverse_perm⟩
  transmitStaple := fun _ => .ok true

theorem honest_representative (issuer : GenericAccount) (block : Block) (held : List Vote) :
    Honest (representative issuer block held) := by
  intro round blocks prior quote vote hvote
  obtain ⟨_, _, _, _, -, -, -, hdecoded⟩ := UnsignedVote.sign_eq_ok (mapError_eq_ok.mp hvote)
  rw [hdecoded]
  rfl

end Sample

open KeetaNode.Client.Sample Reference

theorem Recovery.recoverAccount_spec_sample :
    ∃ block vote staple,
      ((recovery block vote).recoverAccount true {}).result = .ok (some staple) ∧
      (staple.votes.map Vote.issuerBytes).Nodup ∧
      (askedIn .permanent ((recovery block vote).trace true {})).count bob.toString = 1 := by
  obtain ⟨staple, h⟩ := exists_eq_ok (by decide +kernel : (do
    let unsigned ← (asVoteBlockError KeetaNode.Sample.unsigned).mapError ClientError.vote
    let block ← (asVoteBlockError (unsigned.sealWith KeetaNode.Sample.signatures)).mapError .vote
    let vote ← permanentVote alice
    let staple ← ((recovery block vote).recoverAccount true {}).result
    (staple.elim (throw ClientError.recoverFailed) pure : Except ClientError VoteStaple)).isOk =
      true)
  simp only [bind_eq_ok, elim_throw_eq_ok] at h
  obtain ⟨-, -, block, -, vote, -, _, hresult, rfl⟩ := h
  have hkeys : ((recovery block vote).picks.map RepPick.key).Nodup := by
    have hne : alice.toString ≠ bob.toString := by decide +kernel
    simp [recovery, representative, hne]
  have hhonest : ∀ pick ∈ (recovery block vote).picks, Honest pick := by
    simp [recovery, honest_representative]
  obtain ⟨hdistinct, -, hasked, hassembled⟩ :=
    Recovery.recoverAccount_spec rfl hkeys hhonest true {}
  obtain ⟨votes, hvotes, hsorted⟩ := hassembled staple hresult
  refine ⟨block, vote, staple, hresult, ?_, ?_⟩
  · rw [hsorted]
    exact ((sortVotes_perm votes).map _).nodup_iff.mpr (hdistinct _ votes hvotes)
  · refine hasked (.inr ⟨votes, hvotes⟩) (representative bob block []) ?_ ?_
    · simp [recovery]
    · rintro ⟨successor, other, -, hother, -⟩
      cases hother

end Samples

end KeetaNode.Client
