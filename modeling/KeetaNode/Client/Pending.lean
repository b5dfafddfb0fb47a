import KeetaNode.Client.Rendering
import KeetaNode.Block.Sealing

/-!
# The pending block of an account

All representatives are asked for the next block that an account has to receive. Their
answers arrive in any order; the block that most of them report wins.

- `keetanetwork-client/src/math.rs` (`most_common_hash`)
- `keetanetwork-client/src/client.rs` (`pending_block`)

How the answers change the scores of the representatives is left out.

## Main results

- `mostCommonHash_eq_some_iff`: the winner of a vote with a tie-break
- `pendingBlock_spec`: the answer does not depend on the order of arrival
-/

namespace KeetaNode.Client

open ByteCodec

/-! ## Counting -/

section Counting

variable {κ ν : Type} [LinearOrder κ]

theorem lookup_eq_none_of_lt {key : κ} {entries : List (κ × ν)} (h : ∀ e ∈ entries, key < e.1) :
    entries.lookup key = none := by
  rw [List.lookup_eq_none_iff]
  intro e he
  exact bne_iff_ne.mpr (h e he).ne

theorem lookup_cons_eq_ite (key other : κ) (value : ν) (entries : List (κ × ν)) :
    ((key, value) :: entries).lookup other =
      if other = key then some value else entries.lookup other := by
  by_cases hother : other = key
  · subst hother
    rw [if_pos rfl, List.lookup_cons_self]
  · rw [if_neg hother, List.lookup_cons, beq_false_of_ne hother]

/-- Only the entry of the key is altered. -/
theorem lookup_alterEntry {key other : κ} {alter : Option ν → ν} {entries : List (κ × ν)}
    (h : (entries.map Prod.fst).Pairwise (· < ·)) :
    (alterEntry key alter entries).lookup other =
      if other = key then some (alter (entries.lookup key)) else entries.lookup other := by
  induction entries with
  | nil => simp [alterEntry, lookup_cons_eq_ite]
  | cons entry entries ih =>
    obtain ⟨first, value⟩ := entry
    obtain ⟨hfirst, hrest⟩ := List.pairwise_cons.mp h
    unfold alterEntry
    split <;> rename_i hlt
    · -- the key is below all entries
      have hnone : ((first, value) :: entries).lookup key = none := by
        apply lookup_eq_none_of_lt
        rw [List.forall_mem_cons]
        exact ⟨hlt, fun e he => hlt.trans (hfirst e.1 (List.mem_map_of_mem he))⟩
      rw [hnone, lookup_cons_eq_ite]
    · split <;> rename_i hkey
      · subst hkey
        simp only [lookup_cons_eq_ite, if_true]
        split <;> rfl
      · rw [lookup_cons_eq_ite, ih hrest, lookup_cons_eq_ite, lookup_cons_eq_ite, if_neg hkey]
        by_cases hother : other = first
        · rw [if_pos hother, if_pos hother, if_neg (hother ▸ Ne.symm hkey)]
        · rw [if_neg hother, if_neg hother]

/-- An entry of sorted keys is found. -/
theorem mem_iff_lookup {key : κ} {value : ν} {entries : List (κ × ν)}
    (h : (entries.map Prod.fst).Pairwise (· < ·)) :
    (key, value) ∈ entries ↔ entries.lookup key = some value := by
  induction entries with
  | nil => simp
  | cons entry entries ih =>
    obtain ⟨first, found⟩ := entry
    obtain ⟨hfirst, hrest⟩ := List.pairwise_cons.mp h
    rw [List.mem_cons, ih hrest, lookup_cons_eq_ite, Prod.mk.injEq]
    by_cases hkey : key = first
    · subst hkey
      have hnone : entries.lookup key = none :=
        lookup_eq_none_of_lt fun e he => hfirst e.1 (List.mem_map_of_mem he)
      simp [hnone, eq_comm]
    · simp [hkey]

/-- One more occurrence of a hash. -/
def countHash (counts : List (κ × ℕ)) (hash : κ) : List (κ × ℕ) :=
  alterEntry hash (fun count => count.getD 0 + 1) counts

/-- The counts by hash, in the order of the hashes. -/
def countHashes (hashes : List κ) : List (κ × ℕ) := hashes.foldl countHash []

theorem countHashes_append (hashes : List κ) (hash : κ) :
    countHashes (hashes ++ [hash]) = countHash (countHashes hashes) hash := by
  simp [countHashes]

theorem sorted_countHashes (hashes : List κ) :
    ((countHashes hashes).map Prod.fst).Pairwise (· < ·) := by
  induction hashes using List.reverseRecOn with
  | nil => exact .nil
  | append_singleton hashes hash ih =>
    rw [countHashes_append]
    exact sorted_alterEntry ih

theorem lookup_countHashes (hashes : List κ) (hash : κ) :
    (countHashes hashes).lookup hash =
      if hash ∈ hashes then some (hashes.count hash) else none := by
  induction hashes using List.reverseRecOn with
  | nil => simp [countHashes]
  | append_singleton hashes last ih =>
    rw [countHashes_append, countHash, lookup_alterEntry (sorted_countHashes hashes), ih]
    by_cases hlast : hash = last
    · subst hlast
      by_cases hmem : hash ∈ hashes
      · simp [ih, hmem, List.count_append]
      · simp [ih, hmem, List.count_append, List.count_eq_zero_of_not_mem hmem]
    · simp [hlast, List.count_append, Ne.symm hlast]

/-- The entries are the hashes that occur, with how often they do. -/
theorem mem_countHashes {hashes : List κ} {hash : κ} {count : ℕ} :
    (hash, count) ∈ countHashes hashes ↔ hash ∈ hashes ∧ count = hashes.count hash := by
  rw [mem_iff_lookup (sorted_countHashes hashes), lookup_countHashes]
  split <;> rename_i hmem
  · simp [hmem, eq_comm]
  · simp [hmem]

/-! ## The most common hash -/

/-- `Iterator::max_by`: the last of the greatest. -/
def maxBy {α : Type} (compare : α → α → Ordering) : List α → Option α
  | [] => none
  | a :: as => some (as.foldl (fun best a => if compare best a = .gt then best else a) a)

/-- By count, and for equal counts the smaller hash is the greater entry. -/
def compareCounts (left right : κ × ℕ) : Ordering :=
  (compare left.2 right.2).then (compare right.1 left.1)

def mostCommonHash (hashes : List κ) : Option κ :=
  (maxBy compareCounts (countHashes hashes)).map Prod.fst

/-- The entry wins against the other one, or is the same. -/
def Beats (best other : κ × ℕ) : Prop :=
  other.2 < best.2 ∨ (other.2 = best.2 ∧ best.1 ≤ other.1)

theorem beats_refl (entry : κ × ℕ) : Beats entry entry := .inr ⟨rfl, le_refl _⟩

theorem Beats.trans {a b c : κ × ℕ} (hab : Beats a b) (hbc : Beats b c) : Beats a c := by
  rcases hab with hab | ⟨hab, hle⟩ <;> rcases hbc with hbc | ⟨hbc, hle'⟩
  · exact .inl (hbc.trans hab)
  · exact .inl (hbc ▸ hab)
  · exact .inl (hab ▸ hbc)
  · exact .inr ⟨hbc.trans hab, hle.trans hle'⟩

theorem beats_total (a b : κ × ℕ) : Beats a b ∨ Beats b a := by
  unfold Beats
  rcases lt_trichotomy a.2 b.2 with hlt | heq | hgt
  · exact .inr (.inl hlt)
  · rcases le_total a.1 b.1 with hle | hle
    · exact .inl (.inr ⟨heq.symm, hle⟩)
    · exact .inr (.inr ⟨heq, hle⟩)
  · exact .inl (.inl hgt)

theorem compareCounts_eq_gt_iff {left right : κ × ℕ} :
    compareCounts left right = .gt ↔ ¬ Beats right left := by
  unfold compareCounts Beats
  rcases lt_trichotomy left.2 right.2 with hlt | heq | hgt
  · simp [compare_lt_iff_lt.mpr hlt, hlt]
  · simp [heq, compare_gt_iff_gt]
  · simp [compare_gt_iff_gt.mpr hgt, hgt.not_gt, hgt.ne']

/-- The loop keeps an entry that beats those it has seen. -/
theorem foldl_compareCounts (entries : List (κ × ℕ)) (first : κ × ℕ) :
    (entries.foldl (fun best a => if compareCounts best a = .gt then best else a) first) ∈
      first :: entries ∧ ∀ entry ∈ first :: entries,
        Beats (entries.foldl (fun best a => if compareCounts best a = .gt then best else a) first)
          entry := by
  induction entries generalizing first with
  | nil => simp [beats_refl]
  | cons entry entries ih =>
    rw [List.foldl_cons]
    split <;> rename_i hgt
    · -- the first entry goes on, and beats the one it is compared with
      rw [compareCounts_eq_gt_iff] at hgt
      obtain ⟨hmem, hbeats⟩ := ih first
      have hfirst := hbeats first List.mem_cons_self
      refine ⟨?_, List.forall_mem_cons.mpr ⟨hfirst, List.forall_mem_cons.mpr ⟨?_, ?_⟩⟩⟩
      · rcases List.mem_cons.mp hmem with hmem | hmem
        · rw [hmem]
          exact List.mem_cons_self
        · exact List.mem_cons_of_mem _ (List.mem_cons_of_mem _ hmem)
      · exact hfirst.trans ((beats_total first entry).resolve_right hgt)
      · exact fun other hother => hbeats other (List.mem_cons_of_mem _ hother)
    · -- the first entry is beaten by the one it is compared with, on a tie as well
      rw [compareCounts_eq_gt_iff, not_not] at hgt
      obtain ⟨hmem, hbeats⟩ := ih entry
      refine ⟨List.mem_cons_of_mem _ hmem, List.forall_mem_cons.mpr ⟨?_, hbeats⟩⟩
      exact (hbeats entry List.mem_cons_self).trans hgt

/-- The winner is one of the entries and beats all of them. -/
theorem maxBy_compareCounts {entries : List (κ × ℕ)} {best : κ × ℕ}
    (h : maxBy compareCounts entries = some best) :
    best ∈ entries ∧ ∀ entry ∈ entries, Beats best entry := by
  cases entries with
  | nil => cases h
  | cons first entries =>
    cases h
    exact foldl_compareCounts entries first

/-- The hash occurs most often, and is the smallest that does. -/
def MostCommon (hashes : List κ) (hash : κ) : Prop :=
  hash ∈ hashes ∧ ∀ other ∈ hashes,
    hashes.count other ≤ hashes.count hash ∧
      (hashes.count other = hashes.count hash → hash ≤ other)

theorem MostCommon.unique {hashes : List κ} {a b : κ} (ha : MostCommon hashes a)
    (hb : MostCommon hashes b) : a = b := by
  obtain ⟨hle, hsmall⟩ := ha.2 b hb.1
  obtain ⟨hle', hsmall'⟩ := hb.2 a ha.1
  have heq : hashes.count a = hashes.count b := le_antisymm hle' hle
  exact le_antisymm (hsmall heq.symm) (hsmall' heq)

theorem MostCommon.perm {hashes hashes' : List κ} {hash : κ} (h : hashes.Perm hashes')
    (hmost : MostCommon hashes hash) : MostCommon hashes' hash := by
  simpa only [MostCommon, h.mem_iff, h.count_eq] using hmost

theorem mostCommonHash_eq_none_iff {hashes : List κ} :
    mostCommonHash hashes = none ↔ hashes = [] := by
  constructor
  · intro hnone
    rw [mostCommonHash, Option.map_eq_none_iff] at hnone
    have hcounts : countHashes hashes = [] := by
      cases hcounts : countHashes hashes with
      | nil => rfl
      | cons first rest =>
        rw [hcounts] at hnone
        cases hnone
    rw [List.eq_nil_iff_forall_not_mem]
    intro hash hmem
    have hentry := mem_countHashes.mpr ⟨hmem, rfl⟩
    rw [hcounts] at hentry
    cases hentry
  · rintro rfl
    rfl

/-- **The winner is the smallest of the most common hashes.** -/
theorem mostCommonHash_eq_some_iff {hashes : List κ} {hash : κ} :
    mostCommonHash hashes = some hash ↔ MostCommon hashes hash := by
  have hsound : ∀ hash, mostCommonHash hashes = some hash → MostCommon hashes hash := by
    intro hash h
    obtain ⟨⟨_, count⟩, hbest, rfl⟩ := Option.map_eq_some_iff.mp h
    obtain ⟨hmem, hbeats⟩ := maxBy_compareCounts hbest
    obtain ⟨hhash, rfl⟩ := mem_countHashes.mp hmem
    refine ⟨hhash, fun other hother => ?_⟩
    rcases hbeats (other, hashes.count other) (mem_countHashes.mpr ⟨hother, rfl⟩)
      with hless | ⟨heq, hle⟩
    · exact ⟨hless.le, fun heq => absurd heq hless.ne⟩
    · exact ⟨heq.le, fun _ => hle⟩
  refine ⟨hsound hash, fun hmost => ?_⟩
  cases hfound : mostCommonHash hashes with
  | none =>
    rw [mostCommonHash_eq_none_iff] at hfound
    rw [hfound] at hmost
    cases hmost.1
  | some found => rw [(hsound found hfound).unique hmost]

theorem exists_mostCommon {hashes : List κ} (h : hashes ≠ []) :
    ∃ hash, MostCommon hashes hash := by
  obtain ⟨hash, hmost⟩ := Option.ne_none_iff_exists'.mp (mt mostCommonHash_eq_none_iff.mp h)
  exact ⟨hash, mostCommonHash_eq_some_iff.mp hmost⟩

theorem mostCommonHash_perm {hashes hashes' : List κ} (h : hashes.Perm hashes') :
    mostCommonHash hashes = mostCommonHash hashes' := by
  apply Option.ext
  intro hash
  rw [mostCommonHash_eq_some_iff, mostCommonHash_eq_some_iff]
  exact ⟨MostCommon.perm h, MostCommon.perm h.symm⟩

end Counting

/-! ## Tallying the answers -/

theorem toNat_bytes_injective (n : ℕ) :
    Function.Injective fun octets : Octets n => octets.bytes.map UInt8.toNat := by
  intro a b h
  exact Octets.ext_bytes (List.map_injective_iff.mpr (fun _ _ => UInt8.toNat_inj.mp) h)

/-- Hashes are compared octet by octet. -/
instance octets_linearOrder (n : ℕ) : LinearOrder (Octets n) :=
  let order := LinearOrder.lift' (fun octets => octets.bytes.map UInt8.toNat)
    (toNat_bytes_injective n)
  { order with
    toDecidableEq := inferInstance
    compare_eq_compareOfLessAndEq := by
      intro a b
      convert order.compare_eq_compareOfLessAndEq a b }

section Pending

variable [Crypto]

/-- The answer of a representative: a block, no block or an error. -/
abbrev PendingAnswer := Except ClientError (Option Block)

/-- The loop variables of `pending_block`. -/
structure Tally where
  blocksByHash : List (BlockHash × Block) := []
  observed : List BlockHash := []
  anySuccess : Bool := false
  lastError : Option ClientError := none

/-- One more answer. The first block with a hash is kept. -/
def Tally.add (tally : Tally) : PendingAnswer → Tally
  | .ok (some block) =>
    { tally with
      anySuccess := true
      blocksByHash := alterEntry block.hash (fun entry => entry.getD block) tally.blocksByHash
      observed := tally.observed ++ [block.hash] }
  | .ok none => { tally with anySuccess := true }
  | .error error => { tally with lastError := some error }

def tally (answers : List PendingAnswer) : Tally := answers.foldl Tally.add {}

/-- `pending_block`, for the answers in the order in which they arrive, one for each
representative that was asked. -/
def pendingBlock (answers : List PendingAnswer) : Except ClientError (Option Block) :=
  if answers = [] then .error .noRepresentatives
  else
    let tally := tally answers
    match (mostCommonHash tally.observed).bind fun hash => tally.blocksByHash.lookup hash with
    | some block => .ok (some block)
    | none =>
      if tally.anySuccess then .ok none
      else
        match tally.lastError with
        | some error => .error error
        | none => .ok none

/-- The hash an answer reports. -/
def PendingAnswer.hash : PendingAnswer → Option BlockHash
  | .ok (some block) => some block.hash
  | _ => none

/-- What the loop has collected of the answers so far. -/
structure Tally.Of (tally : Tally) (answers : List PendingAnswer) : Prop where
  observed : tally.observed = answers.filterMap PendingAnswer.hash
  anySuccess : tally.anySuccess = true ↔ ∃ answer ∈ answers, ∃ block, answer = .ok block
  lastError : (∃ answer ∈ answers, ∃ error, answer = .error error) → tally.lastError ≠ none
  sorted : (tally.blocksByHash.map Prod.fst).Pairwise (· < ·)
  found : ∀ hash ∈ tally.observed, ∃ block, tally.blocksByHash.lookup hash = some block
  block : ∀ hash block, tally.blocksByHash.lookup hash = some block →
    block.hash = hash ∧ Except.ok (some block) ∈ answers

/-- A block that was found was reported, whatever is reported after it. -/
theorem Tally.Of.block_append {tally : Tally} {answers : List PendingAnswer}
    (h : tally.Of answers) (answer : PendingAnswer) {hash : BlockHash} {block : Block}
    (hfound : tally.blocksByHash.lookup hash = some block) :
    block.hash = hash ∧ Except.ok (some block) ∈ answers ++ [answer] := by
  obtain ⟨hhash, hmem⟩ := h.block hash block hfound
  exact ⟨hhash, List.mem_append_left _ hmem⟩

theorem Tally.Of.add {tally : Tally} {answers : List PendingAnswer} (h : tally.Of answers)
    (answer : PendingAnswer) : (tally.add answer).Of (answers ++ [answer]) := by
  rcases answer with error | _ | block
  · -- an error is only remembered
    refine ⟨?_, ?_, ?_, h.sorted, h.found, fun _ _ => h.block_append _⟩
    · simp [Tally.add, h.observed, PendingAnswer.hash]
    · simp [Tally.add, h.anySuccess]
    · simp [Tally.add]
  · -- an answer without a block counts as a success and leaves the blocks as they are
    refine ⟨?_, ?_, ?_, h.sorted, h.found, fun _ _ => h.block_append _⟩
    · simp [Tally.add, h.observed, PendingAnswer.hash]
    · simp [Tally.add]
    · simpa [Tally.add] using h.lastError
  · refine ⟨?_, ?_, ?_, sorted_alterEntry h.sorted, ?_, ?_⟩
    · simp [Tally.add, h.observed, PendingAnswer.hash]
    · simp [Tally.add]
    · simpa [Tally.add] using h.lastError
    · intro hash hhash
      simp only [Tally.add, lookup_alterEntry h.sorted]
      split
      · exact ⟨_, rfl⟩
      · rename_i hne
        rcases List.mem_append.mp hhash with hhash | hhash
        · exact h.found hash hhash
        · exact absurd (List.mem_singleton.mp hhash) hne
    · intro hash found hfound
      simp only [Tally.add, lookup_alterEntry h.sorted] at hfound
      split at hfound
      · -- the first block with the hash is kept
        rename_i hhash
        cases hfound
        cases hkept : tally.blocksByHash.lookup block.hash with
        | none => exact ⟨hhash.symm, List.mem_append_right _ List.mem_cons_self⟩
        | some kept =>
          obtain ⟨hkeptHash, hmem⟩ := h.block_append _ hkept
          exact ⟨hkeptHash.trans hhash.symm, hmem⟩
      · exact h.block_append _ hfound

theorem tally_of (answers : List PendingAnswer) : (tally answers).Of answers := by
  induction answers using List.reverseRecOn with
  | nil => constructor <;> simp [tally]
  | append_singleton answers answer ih =>
    rw [tally, List.foldl_append]
    exact ih.add answer

/-- The most common hash is that of a block. -/
theorem pendingBlock_of_mostCommon {answers : List PendingAnswer} {hash : BlockHash}
    (h : MostCommon (answers.filterMap PendingAnswer.hash) hash) :
    ∃ block, pendingBlock answers = .ok (some block) ∧ block.hash = hash ∧
      Except.ok (some block) ∈ answers := by
  have hof := tally_of answers
  have hne : answers ≠ [] := by
    rintro rfl
    cases h.1
  rw [← hof.observed] at h
  obtain ⟨block, hfound⟩ := hof.found hash h.1
  refine ⟨block, ?_, hof.block hash block hfound⟩
  simp only [pendingBlock, if_neg hne, mostCommonHash_eq_some_iff.mpr h, Option.bind_some, hfound]

theorem pendingBlock_of_none {answers : List PendingAnswer}
    (h : answers.filterMap PendingAnswer.hash = []) :
    ((∃ answer ∈ answers, ∃ block, answer = .ok block) ∧ pendingBlock answers = .ok none) ∨
      ((∀ answer ∈ answers, ∃ error, answer = .error error) ∧
        ∃ error, pendingBlock answers = .error error) := by
  have hof := tally_of answers
  have hnone : mostCommonHash (tally answers).observed = none := by
    rw [mostCommonHash_eq_none_iff, hof.observed, h]
  unfold pendingBlock
  split <;> rename_i hne
  · subst hne
    exact .inr ⟨by simp, _, rfl⟩
  · simp only [hnone, Option.bind_none]
    split <;> rename_i hsuccess
    · exact .inl ⟨hof.anySuccess.mp hsuccess, rfl⟩
    · -- all answers are errors, and there is one
      rw [hof.anySuccess] at hsuccess
      have herrors : ∀ answer ∈ answers, ∃ error, answer = .error error := by
        intro answer hanswer
        cases answer with
        | error error => exact ⟨error, rfl⟩
        | ok block => exact absurd ⟨_, hanswer, block, rfl⟩ hsuccess
      obtain ⟨answer, hanswer⟩ := List.exists_mem_of_ne_nil answers hne
      have hlast := hof.lastError ⟨answer, hanswer, herrors answer hanswer⟩
      obtain ⟨error, herror⟩ := Option.ne_none_iff_exists'.mp hlast
      refine .inr ⟨herrors, error, ?_⟩
      rw [herror]

/-- Where a hash is reported, a block with the most common one is returned. -/
theorem exists_pendingBlock {answers : List PendingAnswer}
    (hreported : answers.filterMap PendingAnswer.hash ≠ []) :
    ∃ block, pendingBlock answers = .ok (some block) ∧ Except.ok (some block) ∈ answers ∧
      MostCommon (answers.filterMap PendingAnswer.hash) block.hash := by
  obtain ⟨hash, hmost⟩ := exists_mostCommon hreported
  obtain ⟨block, hresult, rfl, hmem⟩ := pendingBlock_of_mostCommon hmost
  exact ⟨block, hresult, hmem, hmost⟩

/-- What a caller sees of the result: an error, no block, or the hash of the block. -/
def outcome (result : Except ClientError (Option Block)) : Option (Option BlockHash) :=
  result.toOption.map (Option.map Block.hash)

theorem any_isOk_iff {answers : List PendingAnswer} :
    answers.any Except.isOk = true ↔ ∃ answer ∈ answers, ∃ block, answer = .ok block := by
  rw [List.any_eq_true]
  refine exists_congr fun answer => and_congr_right fun _ => ?_
  cases answer <;> simp [Except.isOk, Except.toBool]

/-- The outcome is determined by the hashes that are reported, and by whether all answers are
errors. -/
theorem outcome_pendingBlock (answers : List PendingAnswer) :
    outcome (pendingBlock answers) =
      if answers.any Except.isOk then
        some (mostCommonHash (answers.filterMap PendingAnswer.hash))
      else none := by
  by_cases hreported : answers.filterMap PendingAnswer.hash = []
  · have hnone := mostCommonHash_eq_none_iff.mpr hreported
    rcases pendingBlock_of_none hreported with ⟨hsuccess, hresult⟩ | ⟨herrors, error, hresult⟩
    · rw [if_pos (any_isOk_iff.mpr hsuccess), hresult, hnone]
      rfl
    · rw [if_neg, hresult]
      · rfl
      · rw [any_isOk_iff]
        rintro ⟨answer, hanswer, block, rfl⟩
        obtain ⟨error, herror⟩ := herrors _ hanswer
        cases herror
  · obtain ⟨block, hresult, hmem, hmost⟩ := exists_pendingBlock hreported
    rw [if_pos (any_isOk_iff.mpr ⟨_, hmem, _, rfl⟩), hresult, mostCommonHash_eq_some_iff.mpr hmost]
    rfl

theorem outcome_pendingBlock_perm {answers answers' : List PendingAnswer}
    (h : answers.Perm answers') :
    outcome (pendingBlock answers) = outcome (pendingBlock answers') := by
  rw [outcome_pendingBlock, outcome_pendingBlock, h.any_eq,
    mostCommonHash_perm (h.filterMap PendingAnswer.hash)]

/-- **The pending block is decided by majority.** The block has the smallest of the most common
hashes, there is none if and only if none is reported and an answer succeeds, and the outcome
does not depend on the order in which the answers arrive. -/
theorem pendingBlock_spec (answers : List PendingAnswer) :
    (∀ block, pendingBlock answers = .ok (some block) →
      Except.ok (some block) ∈ answers ∧
        MostCommon (answers.filterMap PendingAnswer.hash) block.hash) ∧
    (answers.filterMap PendingAnswer.hash ≠ [] →
      ∃ block, pendingBlock answers = .ok (some block)) ∧
    (pendingBlock answers = .ok none ↔
      answers.filterMap PendingAnswer.hash = [] ∧
        ∃ answer ∈ answers, ∃ block, answer = .ok block) ∧
    ∀ answers', answers.Perm answers' →
      outcome (pendingBlock answers') = outcome (pendingBlock answers) := by
  refine ⟨fun block hresult => ?_, fun hreported => ?_, ?_,
    fun answers' hperm => outcome_pendingBlock_perm hperm.symm⟩
  · -- a block is returned only where a hash is reported
    by_cases hreported : answers.filterMap PendingAnswer.hash = []
    · rcases pendingBlock_of_none hreported with ⟨_, hnone⟩ | ⟨_, error, herror⟩
      · rw [hnone] at hresult
        cases hresult
      · rw [herror] at hresult
        cases hresult
    · obtain ⟨found, hfound, hmem, hmost⟩ := exists_pendingBlock hreported
      rw [hfound] at hresult
      cases hresult
      exact ⟨hmem, hmost⟩
  · obtain ⟨block, hresult, _⟩ := exists_pendingBlock hreported
    exact ⟨block, hresult⟩
  · constructor
    · intro hnone
      by_cases hreported : answers.filterMap PendingAnswer.hash = []
      · rcases pendingBlock_of_none hreported with ⟨hsuccess, _⟩ | ⟨_, error, herror⟩
        · exact ⟨hreported, hsuccess⟩
        · rw [herror] at hnone
          cases hnone
      · obtain ⟨block, hresult, _⟩ := exists_pendingBlock hreported
        rw [hresult] at hnone
        cases hnone
    · rintro ⟨hreported, answer, hanswer, block, rfl⟩
      rcases pendingBlock_of_none hreported with ⟨_, hresult⟩ | ⟨herrors, _⟩
      · exact hresult
      · obtain ⟨error, herror⟩ := herrors _ hanswer
        cases herror

end Pending

end KeetaNode.Client
