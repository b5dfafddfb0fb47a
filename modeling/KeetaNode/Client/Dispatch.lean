import KeetaNode.Client.Recovery
import KeetaNode.Lib.Loop

/-!
# Dispatching a call

A call is sent to one representative at a time until one responds. A failure is tried again a
limited number of times. When the node answers that a ledger vote is in conflict, the accounts
of the vote are synchronized first, and if that succeeds the call is sent again uncounted.

- `keetanetwork-client/src/client.rs` (`dispatch_any`, `try_recover_on_error`, `sync_account`,
  `head_info`, `height_value`, `compose_staple_on`)
- `keetanetwork-client/src/math.rs` (`next_backoff`)

The outcomes of the calls are an infinite stream, an entry of which also holds whatever the
representatives answer while its accounts are synchronized. The scores of the representatives
and the pauses between the calls are left out.

## Main results

- `dispatch_bounded_iff`: the number of calls is bounded if and only if the recoveries are
- `not_dispatch_bounded`: nodes that keep a call going forever
-/

namespace KeetaNode.Client

open ByteCodec
open Asn1 (Tag Asn1Error)

section Dispatch

variable [Crypto]

/-! ## Synchronizing an account -/

/-- The head and the height of an account; an account that is not open has neither. -/
structure AccountState where
  head : Option BlockHash
  height : Option Int
  deriving DecidableEq

/-- What a representative answers while an account is synchronized. -/
structure SyncPick where
  accountState : Except ClientError AccountState
  successorBlock : BlockHash → Except ClientError (Option Block)
  blockVotes : BlockHash → LedgerSide → Except ClientError (Option (List Vote))
  block : BlockHash → Option LedgerSide → Except ClientError (Option Block)
  /-- The state after the staple has been published. -/
  updatedState : Except ClientError AccountState

/-- An error is the same as no head. -/
def headInfo : Except ClientError AccountState → Option (BlockHash × Int)
  | .ok ⟨some head, some height⟩ => some (head, height)
  | _ => none

def heightValue (info : Option (BlockHash × Int)) : Int := info.elim (-1) Prod.snd

structure RepHead where
  pick : SyncPick
  head : Option (BlockHash × Int)

/-- `sort_by_key` on the height. -/
def precedesByHeight (left right : RepHead) : Prop :=
  heightValue left.head ≤ heightValue right.head

instance instDecidableRelPrecedesByHeight : DecidableRel precedesByHeight := fun left right =>
  inferInstanceAs (Decidable (heightValue left.head ≤ heightValue right.head))

/-- The blocks with these hashes, unless one is missing. -/
def blocksOn (pick : SyncPick) (ledger : LedgerSide) :
    List BlockHash → Except ClientError (Option (List Block))
  | [] => .ok (some [])
  | hash :: hashes => do
    let some block ← pick.block hash (some ledger) | return none
    let some blocks ← blocksOn pick ledger hashes | return none
    return some (block :: blocks)

section Sync

variable [Tlv Tag Asn1Error] [Zlib]

def composeStapleOn (pick : SyncPick) (now : BlockTime) (hash : BlockHash) (ledger : LedgerSide) :
    Except ClientError (Option VoteStaple) := do
  match ← pick.blockVotes hash ledger with
  | some (vote :: votes) =>
    let some blocks ← blocksOn pick ledger vote.decoded.blocks | return none
    let moment := stapleMoment (vote :: votes) now
    some <$> (VoteStaple.tryNew blocks (vote :: votes) .default moment).mapError ClientError.vote
  | _ => return none

/-- The staple that the lagging representatives lack; they are handed it, and their conflicts are
ignored. -/
def syncAccount (account : GenericAccount) (now : BlockTime) (picks : List SyncPick)
    (publish : Bool) : Except ClientError (Option VoteStaple) := do
  let heads := (picks.map fun pick => ⟨pick, headInfo pick.accountState⟩).insertionSort
    precedesByHeight
  match heads.head?, heads.getLast? with
  | some lowest, some highest =>
    if heightValue lowest.head = heightValue highest.head then return none
    let lowestHead := lowest.head.elim account.toOpeningHash Prod.fst
    let some successor ← highest.pick.successorBlock lowestHead | return none
    let some staple ← composeStapleOn highest.pick now successor.hash .main | return none
    if publish then
      let updated := headInfo lowest.pick.updatedState
      rejectIf (heightValue updated = heightValue lowest.head) ClientError.syncPublishFailed
    return some staple
  | _, _ => throw .noRepresentatives

/-! ## Outcomes of a call -/

/-- An account that is party to a conflict, as the node writes it, and the answers of the
representatives while it is synchronized. -/
structure Contended where
  account : String
  now : BlockTime
  picks : List SyncPick

/-- What a round of the loop meets. -/
inductive Outcome (α : Type) where
  /-- There is no representative to call. -/
  | noTarget
  | response (value : α)
  /-- A ledger vote conflict (`KeetaNetError::LedgerVote`). -/
  | conflict (code : String) (accounts : List Contended)
  | failure (error : ClientError)
  | timeout

/-- `try_recover_on_error`, for the accounts of a conflict: one of them is synchronized. -/
def tryRecover (accounts : List Contended) : Bool :=
  accounts.any fun contended =>
    match GenericAccount.fromStr contended.account with
    | .error _ => false
    | .ok account =>
      match syncAccount account contended.now contended.picks true with
      | .ok (some _) => true
      | _ => false

/-! ## The loop -/

structure ClientConfig where
  maxRetries : ℕ
  maxBackoffMs : ℕ

def nextBackoff (delay max : ℕ) : ℕ := min (min (delay * 2) (2 ^ 64 - 1)) max

/-- The variables of the loop of `dispatch_any`, and the outcomes of the calls to come. -/
structure DispatchState (α : Type) where
  attempt : ℕ := 0
  delay : ℕ := 1
  outcomes : Stream' (Outcome α)

namespace DispatchState

variable {α : Type} (config : ClientConfig)

/-- A failed call is tried again, after a pause. -/
def retry (state : DispatchState α) (error : ClientError) :
    DispatchState α ⊕ Except ClientError α :=
  if config.maxRetries ≤ state.attempt then .inr (.error error)
  else .inl {
    attempt := state.attempt + 1
    delay := nextBackoff state.delay config.maxBackoffMs
    outcomes := state.outcomes.tail }

def step (state : DispatchState α) : DispatchState α ⊕ Except ClientError α :=
  match state.outcomes.head with
  | .noTarget => .inr (.error .noRepresentatives)
  | .response value => .inr (.ok value)
  | .conflict code accounts =>
    -- a recovery is not counted
    if tryRecover accounts then .inl { state with outcomes := state.outcomes.tail }
    else state.retry config (.node (some code))
  | .failure error => state.retry config error
  | .timeout => state.retry config .timeout

end DispatchState

/-- `dispatch_any` returns after at most so many calls. -/
def DispatchesWithin {α : Type} (config : ClientConfig) (outcomes : Stream' (Outcome α))
    (calls : ℕ) : Prop :=
  ∃ result, attempt (DispatchState.step config) calls { outcomes } = some result

/-! ## Calls and recoveries -/

namespace Outcome

variable {α : Type}

/-- The call is sent again, uncounted. -/
def recovers : Outcome α → Bool
  | .conflict _ accounts => tryRecover accounts
  | _ => false

/-- The call is sent again if there are retries left. -/
def fails : Outcome α → Bool
  | .conflict _ accounts => !tryRecover accounts
  | .failure _ | .timeout => true
  | _ => false

end Outcome

section Calls

variable {α : Type} {config : ClientConfig} {outcomes : Stream' (Outcome α)}

/-- Nothing in the first outcomes ends the loop: no response, and no more failures than can be
tried again. -/
def KeepsGoing (config : ClientConfig) (outcomes : Stream' (Outcome α)) (calls : ℕ) : Prop :=
  (∀ outcome ∈ outcomes.take calls, outcome.recovers ∨ outcome.fails) ∧
    (outcomes.take calls).countP Outcome.fails ≤ config.maxRetries

/-- The recoveries among the first outcomes. -/
def recoveries (outcomes : Stream' (Outcome α)) (calls : ℕ) : ℕ :=
  (outcomes.take calls).countP Outcome.recovers

theorem not_fails_of_recovers {outcome : Outcome α} (h : outcome.recovers = true) :
    outcome.fails = false := by
  cases outcome <;> simp_all [Outcome.recovers, Outcome.fails]

namespace DispatchState

variable {state : DispatchState α}

theorem step_of_recovers (config : ClientConfig) (h : state.outcomes.head.recovers = true) :
    state.step config = .inl { state with outcomes := state.outcomes.tail } := by
  unfold step
  cases houtcome : state.outcomes.head <;> simp_all [Outcome.recovers]

theorem step_of_fails (config : ClientConfig) (h : state.outcomes.head.fails = true) :
    ∃ error, state.step config = state.retry config error := by
  unfold step
  cases houtcome : state.outcomes.head <;> simp_all [Outcome.fails]

theorem step_of_final (config : ClientConfig) (hrecovers : state.outcomes.head.recovers = false)
    (hfails : state.outcomes.head.fails = false) :
    ∃ result, state.step config = .inr result := by
  unfold step
  cases houtcome : state.outcomes.head <;> simp_all [Outcome.recovers, Outcome.fails]

end DispatchState

open DispatchState in
/-- **The loop goes on as long as neither a response nor one failure too many has come.** -/
theorem attempt_eq_none_iff (calls : ℕ) (state : DispatchState α)
    (hattempt : state.attempt ≤ config.maxRetries) :
    ByteCodec.attempt (DispatchState.step config) calls state = none ↔
      (∀ outcome ∈ state.outcomes.take calls, outcome.recovers ∨ outcome.fails) ∧
        state.attempt + (state.outcomes.take calls).countP Outcome.fails ≤ config.maxRetries := by
  induction calls generalizing state with
  | zero => simpa [ByteCodec.attempt] using hattempt
  | succ calls ih =>
    rw [Stream'.take_succ, List.forall_mem_cons, List.countP_cons]
    cases hrecovers : state.outcomes.head.recovers with
    | true =>
      simp only [ByteCodec.attempt, step_of_recovers config hrecovers]
      rw [ih { state with outcomes := state.outcomes.tail } hattempt]
      simp [not_fails_of_recovers hrecovers]
    | false =>
      cases hfails : state.outcomes.head.fails with
      | true =>
        obtain ⟨error, hstep⟩ := step_of_fails config hfails
        by_cases hlast : config.maxRetries ≤ state.attempt
        · -- the last failure that can be tried again has gone by
          simp only [ByteCodec.attempt, hstep, retry, if_pos hlast, if_true, reduceCtorEq,
            false_iff, not_and]
          intro _
          omega
        · simp only [ByteCodec.attempt, hstep, retry, if_neg hlast]
          rw [ih _ (by dsimp only; omega)]
          simp
          omega
      | false =>
        obtain ⟨result, hstep⟩ := step_of_final config hrecovers hfails
        simp [ByteCodec.attempt, hstep]

theorem dispatchesWithin_iff {calls : ℕ} :
    DispatchesWithin config outcomes calls ↔ ¬ KeepsGoing config outcomes calls := by
  have hnone := attempt_eq_none_iff calls { outcomes } (Nat.zero_le config.maxRetries)
  rw [Nat.zero_add] at hnone
  rw [KeepsGoing, ← hnone, DispatchesWithin, ← Option.ne_none_iff_exists']

theorem length_eq_recovers_add_fails {outcomes : List (Outcome α)}
    (h : ∀ outcome ∈ outcomes, outcome.recovers ∨ outcome.fails) :
    outcomes.length = outcomes.countP Outcome.recovers + outcomes.countP Outcome.fails := by
  have hfails : outcomes.countP Outcome.fails =
      outcomes.countP fun outcome => ¬ outcome.recovers := by
    refine List.countP_congr fun outcome houtcome => ?_
    cases hrecovers : outcome.recovers with
    | true => simp [not_fails_of_recovers hrecovers]
    | false => simpa [hrecovers] using h outcome houtcome
  rw [hfails]
  exact List.length_eq_countP_add_countP Outcome.recovers

/-- A loop that goes on makes no more calls than there are retries and recoveries. -/
theorem KeepsGoing.calls_le {calls : ℕ} (h : KeepsGoing config outcomes calls) :
    calls ≤ config.maxRetries + recoveries outcomes calls := by
  have hlength := length_eq_recovers_add_fails h.1
  rw [Stream'.length_take] at hlength
  have hfails := h.2
  unfold recoveries
  omega

theorem KeepsGoing.mono {calls fewer : ℕ} (h : KeepsGoing config outcomes calls)
    (hle : fewer ≤ calls) : KeepsGoing config outcomes fewer := by
  have hsub : (outcomes.take fewer).Sublist (outcomes.take calls) := by
    rw [← Nat.min_eq_right hle, ← Stream'.take_take]
    exact List.take_sublist _ _
  exact ⟨fun outcome houtcome => h.1 outcome (hsub.subset houtcome),
    (hsub.countP_le).trans h.2⟩

theorem recoveries_le (outcomes : Stream' (Outcome α)) (calls : ℕ) :
    recoveries outcomes calls ≤ calls := by
  have hle := List.countP_le_length (p := Outcome.recovers) (l := outcomes.take calls)
  rwa [Stream'.length_take] at hle

theorem dispatchesWithin_of_recoveries_le {bound : ℕ}
    (h : ∀ calls, KeepsGoing config outcomes calls → recoveries outcomes calls ≤ bound) :
    DispatchesWithin config outcomes (config.maxRetries + 1 + bound) := by
  rw [dispatchesWithin_iff]
  intro hgoing
  have hcalls := hgoing.calls_le
  have hbound := h _ hgoing
  omega

/-- **The number of calls is bounded if and only if the number of recoveries is.** Without a
recovery a call is sent once and tried again `maxRetries` times. -/
theorem dispatch_bounded_iff (config : ClientConfig) (streams : Set (Stream' (Outcome α))) :
    ((∃ bound, ∀ outcomes ∈ streams, DispatchesWithin config outcomes bound) ↔
      ∃ bound, ∀ outcomes ∈ streams, ∀ calls,
        KeepsGoing config outcomes calls → recoveries outcomes calls ≤ bound) ∧
    ∀ outcomes : Stream' (Outcome α), (∀ calls, recoveries outcomes calls = 0) →
      DispatchesWithin config outcomes (config.maxRetries + 1) := by
  refine ⟨⟨?_, ?_⟩, fun outcomes hnone => ?_⟩
  · rintro ⟨bound, hbound⟩
    refine ⟨bound, fun outcomes houtcomes calls hgoing => ?_⟩
    -- the loop is over after that many calls
    have hlt : calls < bound := by
      by_contra hle
      exact dispatchesWithin_iff.mp (hbound outcomes houtcomes) (hgoing.mono (not_lt.mp hle))
    exact (recoveries_le outcomes calls).trans hlt.le
  · rintro ⟨bound, hbound⟩
    exact ⟨_, fun outcomes houtcomes =>
      dispatchesWithin_of_recoveries_le (hbound outcomes houtcomes)⟩
  · exact dispatchesWithin_of_recoveries_le fun calls _ => (hnone calls).le

/-- Nodes that always report a conflict which can be recovered keep the call going. -/
theorem keepsGoing_const (config : ClientConfig) {outcome : Outcome α}
    (h : outcome.recovers = true) (calls : ℕ) :
    KeepsGoing config (Stream'.const outcome) calls := by
  have hmem : ∀ calls, ∀ other ∈ (Stream'.const outcome).take calls, other = outcome := by
    intro calls
    induction calls with
    | zero => simp
    | succ calls ih =>
      rw [Stream'.take_succ, Stream'.tail_const]
      exact List.forall_mem_cons.mpr ⟨rfl, ih⟩
  refine ⟨fun other hother => .inl (hmem calls other hother ▸ h), ?_⟩
  have hnone : ((Stream'.const outcome).take calls).countP Outcome.fails = 0 := by
    rw [List.countP_eq_zero]
    intro other hother
    rw [hmem calls other hother, not_fails_of_recovers h]
    exact Bool.false_ne_true
  rw [hnone]
  exact Nat.zero_le _

end Calls

end Sync

end Dispatch

section Samples

open scoped Reference Asn1.Reference

namespace Sample

open Reference

def peer (block : Block) (votes : List Vote) (state : AccountState) : SyncPick where
  accountState := .ok state
  successorBlock := fun _ => .ok (some block)
  blockVotes := fun _ _ => .ok (some votes)
  block := fun _ _ => .ok (some block)
  updatedState := .ok ⟨some block.hash, some 1⟩

/-- An account of which one representative has the block while the other one lags behind. -/
def contended (block : Block) (votes : List Vote) : Contended where
  account := block.data.account.toString
  now := Asn1.Sample.date
  picks := [peer block votes ⟨some block.hash, some 1⟩, peer block votes ⟨none, none⟩]

end Sample

open KeetaNode.Client.Sample Reference

/-- A call that is answered with the same conflict every time never returns. -/
theorem not_dispatch_bounded :
    ∃ block v w, permanentVote alice = .ok v ∧ permanentVote bob = .ok w ∧
      ∀ config calls, ¬ DispatchesWithin config (Stream'.const
        (.conflict "LEDGER_NOT_SUCCESSOR" [contended block [v, w]] : Outcome Unit)) calls := by
  obtain ⟨⟨⟩, h⟩ := exists_eq_ok (by decide +kernel : (do
    let unsigned ← (asVoteBlockError KeetaNode.Sample.unsigned).mapError ClientError.vote
    let block ← (asVoteBlockError (unsigned.sealWith KeetaNode.Sample.signatures)).mapError .vote
    let v ← permanentVote alice
    let w ← permanentVote bob
    rejectIf (tryRecover [contended block [v, w]] = false) ClientError.recoverFailed).isOk = true)
  simp only [bind_eq_ok, rejectIf_eq_ok, Bool.not_eq_false] at h
  obtain ⟨-, -, block, -, v, hv, w, hw, hrecover⟩ := h
  refine ⟨block, v, w, hv, hw, fun config calls => ?_⟩
  rw [dispatchesWithin_iff, not_not]
  exact keepsGoing_const config (by simpa only [Outcome.recovers] using hrecover) calls

end Samples

end KeetaNode.Client
