import KeetaNode.Block.Time
import KeetaNode.Vote.Activity

/-!
# The moment of a reassembled staple

A staple is rebuilt at the latest start of its votes' validity periods, when the periods
overlap. The fold over the running latest start and earliest stop is the intersection of
the periods.

- `keetanetwork-client/src/math.rs` (`overlapping_moment`)
- `keetanetwork-client/src/client.rs` (`staple_moment`)
-/

namespace KeetaNode.Client

open ByteCodec
open Asn1 (Tag Asn1Error Chrono OidCodec)

/-! ## Overlapping windows -/

/-- One round of the loop: `seen` is the latest start and the earliest stop so far. -/
def widenSeen (seen : Option Int × Option Int) (window : Int × Int) :
    Option Int × Option Int :=
  (some (seen.1.elim window.1 fun start => max start window.1),
    some (seen.2.elim window.2 fun stop => min stop window.2))

/-- The latest start shared by all windows, when they overlap. -/
def overlappingMoment (windows : List (Int × Int)) : Option Int :=
  match windows.foldl widenSeen (none, none) with
  | (some start, some stop) => if start ≤ stop then some start else none
  | _ => none

/-- The loop finds the latest start and the earliest stop. -/
theorem foldl_widenSeen (windows : List (Int × Int)) :
    windows.foldl widenSeen (none, none) =
      ((windows.map Prod.fst).max?, (windows.map Prod.snd).min?) := by
  cases windows with
  | nil => rfl
  | cons first rest =>
    -- from the first window on, both are present
    have hloop : ∀ (windows : List (Int × Int)) (start stop : Int),
        windows.foldl widenSeen (some start, some stop) =
          (some ((windows.map Prod.fst).foldl max start),
            some ((windows.map Prod.snd).foldl min stop)) := by
      intro windows
      induction windows with
      | nil => simp
      | cons window windows ih =>
        intro start stop
        simp only [List.foldl_cons, List.map_cons, widenSeen, Option.elim_some, ih]
    simp only [List.foldl_cons, List.map_cons, List.max?_cons', List.min?_cons', widenSeen,
      Option.elim_none, hloop]

/-- **The moment is a start that lies in every window**, and there is none only if no
start does. -/
theorem overlappingMoment_eq_some_iff {windows : List (Int × Int)} {moment : Int} :
    overlappingMoment windows = some moment ↔
      (∃ window ∈ windows, window.1 = moment) ∧
        ∀ window ∈ windows, window.1 ≤ moment ∧ moment ≤ window.2 := by
  have hmax : ∀ start, (windows.map Prod.fst).max? = some start ↔
      (∃ window ∈ windows, window.1 = start) ∧ ∀ window ∈ windows, window.1 ≤ start := by
    intro start
    rw [List.max?_eq_some_iff, List.mem_map, List.forall_mem_map]
  have hmin : ∀ stop, (windows.map Prod.snd).min? = some stop ↔
      (∃ window ∈ windows, window.2 = stop) ∧ ∀ window ∈ windows, stop ≤ window.2 := by
    intro stop
    rw [List.min?_eq_some_iff, List.mem_map, List.forall_mem_map]
  rw [overlappingMoment, foldl_widenSeen]
  constructor
  · intro h
    -- the latest start is in every window if it is not after the earliest stop
    split at h
    · rename_i start stop hfound
      rw [Prod.mk.injEq] at hfound
      obtain ⟨hstarts, hlatest⟩ := (hmax start).mp hfound.1
      obtain ⟨-, hearliest⟩ := (hmin stop).mp hfound.2
      split at h
      · rename_i hle
        cases h
        exact ⟨hstarts, fun window hwindow =>
          ⟨hlatest window hwindow, hle.trans (hearliest window hwindow)⟩⟩
      · cases h
    · cases h
  · rintro ⟨hstart, hinside⟩
    have hlatest := (hmax moment).mpr ⟨hstart, fun window hwindow => (hinside window hwindow).1⟩
    obtain ⟨window, hwindow, -⟩ := hstart
    cases hearliest : (windows.map Prod.snd).min? with
    | none =>
      rw [List.min?_eq_none_iff, List.map_eq_nil_iff] at hearliest
      rw [hearliest] at hwindow
      cases hwindow
    | some stop =>
      obtain ⟨⟨last, hlast, rfl⟩, -⟩ := (hmin stop).mp hearliest
      simp only [hlatest, if_pos (hinside last hlast).2]

/-- The windows have an instant in common. -/
def CommonInstant (windows : List (Int × Int)) : Prop :=
  ∃ instant, ∀ window ∈ windows, window.1 ≤ instant ∧ instant ≤ window.2

/-- The latest start is found exactly when there are windows and they overlap. -/
theorem exists_overlappingMoment_iff {windows : List (Int × Int)} :
    (∃ moment, overlappingMoment windows = some moment) ↔
      windows ≠ [] ∧ CommonInstant windows := by
  constructor
  · rintro ⟨moment, h⟩
    obtain ⟨⟨window, hwindow, -⟩, hinside⟩ := overlappingMoment_eq_some_iff.mp h
    exact ⟨List.ne_nil_of_mem hwindow, moment, hinside⟩
  · rintro ⟨hne, instant, hcommon⟩
    cases hlatest : (windows.map Prod.fst).max? with
    | none =>
      rw [List.max?_eq_none_iff, List.map_eq_nil_iff] at hlatest
      exact absurd hlatest hne
    | some start =>
      rw [List.max?_eq_some_iff, List.mem_map, List.forall_mem_map] at hlatest
      obtain ⟨⟨window, hwindow, rfl⟩, hle⟩ := hlatest
      refine ⟨window.1, overlappingMoment_eq_some_iff.mpr ⟨⟨window, hwindow, rfl⟩, ?_⟩⟩
      intro other hother
      exact ⟨hle other hother, (hcommon window hwindow).1.trans (hcommon other hother).2⟩

theorem overlappingMoment_perm {windows windows' : List (Int × Int)}
    (h : windows.Perm windows') : overlappingMoment windows = overlappingMoment windows' := by
  apply Option.ext
  intro moment
  simp only [overlappingMoment_eq_some_iff, h.mem_iff]

/-! ## Staples -/

section Staples

variable [Crypto]

/-- The periods of votes, as timestamps. -/
def windows (votes : List Vote) : List (Int × Int) :=
  votes.map fun vote =>
    (unixMillis vote.decoded.validity.start, unixMillis vote.decoded.validity.stop)

def stapleMoment (votes : List Vote) (fallback : BlockTime) : BlockTime :=
  match overlappingMoment (windows votes) with
  | some millis => (fromUnixMillis millis).getD fallback
  | none => fallback

/-- `BlockTime::default`. -/
def epoch : BlockTime := ⟨1970, 1, 1, 0, 0, 0, 0, by decide⟩

/-- The millisecond after the epoch. -/
def afterEpoch : BlockTime := ⟨1970, 1, 1, 0, 0, 0, 1, by decide⟩

/-- The moment lies in the period of the vote. -/
def Within (vote : Vote) (moment : BlockTime) : Prop :=
  unixMillis vote.decoded.validity.start ≤ unixMillis moment ∧
    unixMillis moment ≤ unixMillis vote.decoded.validity.stop

variable [Tlv Tag Asn1Error] [OidCodec] [NumBigint] [Chrono] {votes : List Vote}

/-- With a common instant the moment is one of its own, whatever the fallback. -/
theorem stapleMoment_of_common (hvotes : ∀ vote ∈ votes, vote.Obtained) (hne : votes ≠ [])
    (hcommon : CommonInstant (windows votes)) :
    ∃ moment, (∀ fallback, stapleMoment votes fallback = moment) ∧
      ∀ vote ∈ votes, Within vote moment := by
  have hwindows : windows votes ≠ [] := by simpa [windows] using hne
  obtain ⟨millis, hmillis⟩ := exists_overlappingMoment_iff.mpr ⟨hwindows, hcommon⟩
  obtain ⟨hstart, hinside⟩ := overlappingMoment_eq_some_iff.mp hmillis
  obtain ⟨latest, hlatest, rfl⟩ : ∃ latest ∈ votes,
      unixMillis latest.decoded.validity.start = millis := by
    simpa [windows] using hstart
  obtain ⟨moment, hmoment, hsame⟩ :=
    fromUnixMillis_unixMillis (hvotes latest hlatest).hasFourDigitYear
  refine ⟨moment, fun fallback => ?_, fun vote hvote => ?_⟩
  · simp only [stapleMoment, hmillis, hmoment, Option.getD_some]
  · unfold Within
    rw [hsame]
    exact hinside _ (List.mem_map.mpr ⟨vote, hvote, rfl⟩)

omit [Tlv Tag Asn1Error] [OidCodec] [NumBigint] [Chrono] in
theorem stapleMoment_perm {votes' : List Vote} (h : votes.Perm votes') (fallback : BlockTime) :
    stapleMoment votes fallback = stapleMoment votes' fallback := by
  have hwindows : (windows votes).Perm (windows votes') := h.map _
  simp only [stapleMoment, overlappingMoment_perm hwindows]

/-- **A staple gets a moment at which all its votes are active, if there is one.** The
order of the votes does not matter, and the fallback is used exactly when there are no
votes or their periods have no instant in common. -/
theorem stapleMoment_spec (hvotes : ∀ vote ∈ votes, vote.Obtained) :
    (CommonInstant (windows votes) → ∀ fallback, ∀ vote ∈ votes,
      Within vote (stapleMoment votes fallback) ∧ ∀ config : VoteConfig,
        0 ≤ config.allowedSlopMs →
          vote.decoded.validity.ensureActiveAt (stapleMoment votes fallback) config = .ok ()) ∧
    (∀ votes', votes.Perm votes' → ∀ fallback,
      stapleMoment votes fallback = stapleMoment votes' fallback) ∧
    ((∀ fallback, stapleMoment votes fallback = fallback) ↔
      votes = [] ∨ ¬ CommonInstant (windows votes)) := by
  refine ⟨?_, fun _ h fallback => stapleMoment_perm h fallback, ?_, ?_⟩
  · intro hcommon fallback vote hvote
    obtain ⟨moment, hmoment, hwithin⟩ :=
      stapleMoment_of_common hvotes (List.ne_nil_of_mem hvote) hcommon
    obtain ⟨hstart, hstop⟩ := hwithin vote hvote
    rw [hmoment]
    refine ⟨⟨hstart, hstop⟩, fun config hslop => Validity.ensureActiveAt_eq_ok.mpr ?_⟩
    unfold Validity.ActiveAt
    omega
  · intro hfallback
    by_contra hnot
    rw [not_or, not_not] at hnot
    obtain ⟨moment, hmoment, -⟩ := stapleMoment_of_common hvotes hnot.1 hnot.2
    -- no moment is every fallback
    have hfirst := (hmoment epoch).symm.trans (hfallback epoch)
    have hsecond := (hmoment afterEpoch).symm.trans (hfallback afterEpoch)
    exact absurd (hfirst.symm.trans hsecond) (by decide)
  · intro hnone fallback
    cases hoverlap : overlappingMoment (windows votes) with
    | none => simp only [stapleMoment, hoverlap]
    | some millis =>
      obtain ⟨hne, hcommon⟩ := exists_overlappingMoment_iff.mp ⟨millis, hoverlap⟩
      rcases hnone with rfl | hnot
      · exact absurd rfl hne
      · exact absurd hcommon hnot

end Staples

section Sample

open scoped Reference Asn1.Reference

theorem stapleMoment_spec_sample :
    ∃ vote, Sample.vote Reference.alice [Sample.blockHash] none = .ok vote ∧
      Within vote (stapleMoment [vote] epoch) := by
  obtain ⟨vote, hvote⟩ := exists_eq_ok (by decide +kernel :
    (Sample.vote Reference.alice [Sample.blockHash] none).isOk = true)
  have hobtained : ∀ vote' ∈ [vote], vote'.Obtained := by
    intro vote' hmem
    rw [List.mem_singleton.mp hmem]
    exact .inr ⟨_, _, hvote⟩
  have hdecoded : vote.decoded.validity = Sample.validity := by
    obtain ⟨algo, tbs, tbsBytes, signature, -, -, -, hcontents⟩ := UnsignedVote.sign_eq_ok hvote
    rw [hcontents]
    rfl
  have hcommon : CommonInstant (windows [vote]) := by
    refine ⟨unixMillis Asn1.Sample.date, fun window hwindow => ?_⟩
    simp only [windows, List.map_cons, List.map_nil, List.mem_singleton, hdecoded] at hwindow
    subst hwindow
    exact ⟨le_refl _, le_refl _⟩
  exact ⟨vote, hvote, ((stapleMoment_spec hobtained).1 hcommon epoch vote (by simp)).1⟩

end Sample

end KeetaNode.Client
