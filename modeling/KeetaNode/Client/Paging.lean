import KeetaNode.Block.Sealed
import KeetaNode.Client.Builder
import KeetaNode.Lib.Loop
import KeetaNode.Vote.Stapled

/-!
# Paged reads

`chain_all`, `history_all` and `global_history_all` ask a node for one page after the other,
each at the cursor that came with the page before. Entries without a block or a staple are
dropped while a page is decoded, and a page that holds nothing afterwards ends the read.

- `keetanetwork-client/src/client.rs` (`drain_cursor_pages`)
- `keetanetwork-client/src/codec.rs`
- `keetanetwork-client/src/transport.rs`

A node may answer every call differently, so that the answers are numbered by the calls. Which
representative is asked, and how often before its answer is used, is not modelled: an answer is
the one to the last attempt.

## Main results

- `drainCursorPages_collect_iff`: a read returns all pages unless an empty one cuts it short
- `pagedReads_iff`: the same of the three reads
-/

namespace KeetaNode.Client

open ByteCodec
open Asn1 (Tag Asn1Error Chrono OidCodec)

section Drain

variable {ε α κ : Type}

/-! ## Draining pages -/

/-- The items of a page and the cursor of the one that follows. -/
abbrev Fetched (ε α κ : Type) := Except ε (List α × Option κ)

/-- How many pages were asked for, what they held, and where the next one starts. -/
structure DrainState (α κ : Type) where
  calls : ℕ
  items : List α
  cursor : Option κ

def DrainState.initial : DrainState α κ where
  calls := 0
  items := []
  cursor := none

/-- One round of `drain_cursor_pages`. -/
def drainStep (fetch : ℕ → Option κ → Fetched ε α κ) (state : DrainState α κ) :
    DrainState α κ ⊕ Except ε (List α) :=
  match fetch state.calls state.cursor with
  | .error e => .inr (.error e)
  -- an empty page ends the read, whatever its cursor
  | .ok ([], _) => .inr (.ok state.items)
  | .ok (page, some next) => .inl ⟨state.calls + 1, state.items ++ page, some next⟩
  | .ok (page, none) => .inr (.ok (state.items ++ page))

/-- `drain_cursor_pages` returns the result. A node that never ends the sequence keeps it busy. -/
def DrainCursorPages (fetch : ℕ → Option κ → Fetched ε α κ) (result : Except ε (List α)) : Prop :=
  Returns (drainStep fetch) .initial result

/-! ## What the pages hold -/

/-- The pages that the cursors lead to, from a call on. -/
inductive Linked (fetch : ℕ → Option κ → Fetched ε α κ) :
    ℕ → Option κ → List (Fetched ε α κ) → Prop where
  | failed {call cursor e} (h : fetch call cursor = .error e) : Linked fetch call cursor [.error e]
  | last {call cursor items} (h : fetch call cursor = .ok (items, none)) :
      Linked fetch call cursor [.ok (items, none)]
  | next {call cursor items nextKey pages} (h : fetch call cursor = .ok (items, some nextKey))
      (hrest : Linked fetch (call + 1) (some nextKey) pages) :
      Linked fetch call cursor (.ok (items, some nextKey) :: pages)

/-- The items of all pages in order, or the error of the page that fails. -/
def collect (pages : List (Fetched ε α κ)) : Except ε (List α) :=
  List.flatten <$> pages.mapM fun page => Prod.fst <$> page

/-- Nothing follows a page without items that has a cursor. -/
def Uninterrupted (pages : List (Fetched ε α κ)) : Prop :=
  ∀ before next after, pages = before ++ .ok ([], some next) :: after →
    ∀ page ∈ after, ∃ nextKey, page = .ok ([], nextKey)

theorem collect_cons_ok (items : List α) (nextKey : Option κ) (pages : List (Fetched ε α κ)) :
    collect (.ok (items, nextKey) :: pages) = (items ++ ·) <$> collect pages := by
  unfold collect
  rw [List.mapM_cons]
  cases pages.mapM fun page => Prod.fst <$> page with
  | error e => rfl
  | ok rest => rfl

/-- A sequence of pages holds nothing exactly when every page does. -/
theorem collect_eq_nil_iff {pages : List (Fetched ε α κ)} :
    collect pages = .ok [] ↔ ∀ page ∈ pages, ∃ nextKey, page = .ok ([], nextKey) := by
  induction pages with
  | nil => simp [collect]
  | cons page pages ih =>
    rw [List.forall_mem_cons, ← ih]
    -- a page that fails makes the whole fail
    rcases page with e | ⟨items, nextKey⟩
    · simp [collect]
    -- items of the first page and of the rest, which are appended
    · rw [collect_cons_ok, map_eq_ok]
      simp only [List.append_eq_nil_iff, Except.ok.injEq, Prod.mk.injEq]
      constructor
      · rintro ⟨rest, hrest, rfl, rfl⟩
        exact ⟨⟨nextKey, rfl, rfl⟩, hrest⟩
      · rintro ⟨⟨_, rfl, -⟩, hrest⟩
        exact ⟨[], hrest, rfl, rfl⟩

theorem uninterrupted_singleton {page : Fetched ε α κ} : Uninterrupted [page] := by
  intro before next after h other hother
  rcases before with _ | ⟨first, before⟩
  · obtain ⟨-, rfl⟩ := List.cons.inj h
    cases hother
  · simp at h

theorem uninterrupted_cons {page : Fetched ε α κ} {pages : List (Fetched ε α κ)} :
    Uninterrupted (page :: pages) ↔
      ((∃ next, page = .ok ([], some next)) →
        ∀ other ∈ pages, ∃ nextKey, other = .ok ([], nextKey)) ∧ Uninterrupted pages := by
  constructor
  · intro h
    refine ⟨?_, fun before next after hpages => h (page :: before) next after (by rw [hpages]; rfl)⟩
    rintro ⟨next, rfl⟩
    exact h [] next pages rfl
  · rintro ⟨hfirst, hrest⟩ before next after hpages
    -- the page that cuts short is the first or one of the rest
    rcases before with _ | ⟨first, before⟩
    · obtain ⟨rfl, rfl⟩ := List.cons.inj hpages
      exact hfirst ⟨next, rfl⟩
    · obtain ⟨-, hpages⟩ := List.cons.inj hpages
      exact hrest before next after hpages

/-- Where nothing follows, nothing is cut short. -/
theorem uninterrupted_of_forall {pages : List (Fetched ε α κ)}
    (h : ∀ page ∈ pages, ∃ nextKey, page = .ok ([], nextKey)) : Uninterrupted pages := by
  rintro before next after rfl page hpage
  apply h
  exact List.mem_append_right _ (List.mem_cons_of_mem _ hpage)

/-- From any state, the read returns what it has and all that follows, unless a page without
items cuts it short. -/
theorem returns_append_collect_iff {fetch : ℕ → Option κ → Fetched ε α κ} {call : ℕ}
    {cursor : Option κ} {pages : List (Fetched ε α κ)} (h : Linked fetch call cursor pages)
    (items : List α) :
    Returns (drainStep fetch) ⟨call, items, cursor⟩ ((items ++ ·) <$> collect pages) ↔
      Uninterrupted pages := by
  induction h generalizing items with
  | @failed call cursor e h =>
    have hstep : drainStep fetch ⟨call, items, cursor⟩ = .inr (.error e) := by
      simp only [drainStep, h]
    rw [returns_iff_of_inr hstep]
    simp [collect, uninterrupted_singleton]
  | @last call cursor page h =>
    -- the last page is added, even when there is nothing to add
    have hstep : drainStep fetch ⟨call, items, cursor⟩ = .inr (.ok (items ++ page)) := by
      cases page <;> simp [drainStep, h]
    rw [returns_iff_of_inr hstep]
    simp [collect, uninterrupted_singleton]
  | @next call cursor page nextKey pages h hrest ih =>
    rw [uninterrupted_cons, collect_cons_ok]
    rcases page with _ | ⟨item, page⟩
    · -- the read ends here, so that nothing may follow
      have hstep : drainStep fetch ⟨call, items, cursor⟩ = .inr (.ok items) := by
        simp only [drainStep, h]
      rw [returns_iff_of_inr hstep]
      -- what is returned is all there is just when the rest holds nothing
      have hempty : Except.ok items = (items ++ ·) <$> (([] ++ ·) <$> collect pages) ↔
          collect pages = .ok [] := by
        cases collect pages <;> simp [eq_comm]
      rw [hempty, collect_eq_nil_iff]
      constructor
      · intro hall
        exact ⟨fun _ => hall, uninterrupted_of_forall hall⟩
      · rintro ⟨hall, -⟩
        exact hall ⟨nextKey, rfl⟩
    · have hstep : drainStep fetch ⟨call, items, cursor⟩ =
          .inl ⟨call + 1, items ++ item :: page, some nextKey⟩ := by
        simp only [drainStep, h]
      -- the items of this page are added before the read goes on
      have happend : (items ++ ·) <$> ((item :: page ++ ·) <$> collect pages) =
          ((items ++ item :: page) ++ ·) <$> collect pages := by
        cases collect pages <;> simp
      rw [returns_iff_of_inl hstep, happend, ih (items ++ item :: page)]
      simp

/-- A read returns all pages unless a page without items cuts it short. -/
theorem drainCursorPages_collect_iff {fetch : ℕ → Option κ → Fetched ε α κ}
    {pages : List (Fetched ε α κ)} (h : Linked fetch 0 none pages) :
    DrainCursorPages fetch (collect pages) ↔ Uninterrupted pages := by
  rw [← returns_append_collect_iff h []]
  have hmap : ([] ++ ·) <$> collect pages = collect pages := by
    cases collect pages <;> rfl
  rw [hmap]
  exact Iff.rfl

end Drain

/-! ## Transport types -/

/-- Texts that third-party parsers read. -/
class TextParsers where
  /-- `base64::engine::general_purpose::STANDARD.decode`. -/
  decode64 : String → Option Bytes
  /-- `DateTime::parse_from_rfc3339`, in UTC and truncated to milliseconds. -/
  parseRfc3339 : String → Option BlockTime

/-- A block in an answer, in base 64. -/
structure WireBlock where
  binary : Option String
  deriving DecidableEq, Repr

/-- A vote staple in an answer, in base 64. -/
structure WireStaple where
  binary : Option String
  deriving DecidableEq, Repr

/-- An entry of a chain. -/
structure ChainEntry where
  block : Option WireBlock
  deriving DecidableEq, Repr

/-- An entry of a history. -/
structure WireHistoryEntry where
  voteStaple : Option WireStaple
  id : Option String
  timestamp : Option String
  deriving DecidableEq, Repr

structure ChainResponse where
  blocks : List ChainEntry
  nextKey : Option String
  deriving DecidableEq, Repr

structure HistoryResponse where
  history : List WireHistoryEntry
  nextKey : Option String
  deriving DecidableEq, Repr

/-- The endpoints of a node that pages are read from, as they answer the call of a number. -/
structure NodeApi where
  /-- The answer to an account, an end, a limit and a start. -/
  getAccountChain : ℕ → String → Option String → Option Int → Option String →
    Except ClientError ChainResponse
  /-- The answer to an account, a limit and a start. -/
  getAccountHistory : ℕ → String → Option Int → Option String → Except ClientError HistoryResponse
  /-- The answer to a limit and a start. -/
  getGlobalHistory : ℕ → Option Int → Option String → Except ClientError HistoryResponse
  /-- The time at which the answer is verified. -/
  verifyMoment : ℕ → BlockTime

/-! ## Decoding -/

/-- `hex::decode_to_slice` into a digest. -/
def hashFromStr (text : String) : Except ClientError (Octets 32) :=
  match (hexDecode text).bind (Octets.ofBytes 32) with
  | some hash => .ok hash
  | none => .error .hash

def decodeHash : Option String → Except ClientError (Option (Octets 32))
  | none => .ok none
  | some value => some <$> hashFromStr value

/-- The entries that decode to something. The first that fails stops the others. -/
def decodeEach {α β : Type} (decode : α → Except ClientError (Option β)) (entries : List α) :
    Except ClientError (List β) :=
  List.reduceOption <$> entries.mapM decode

section Codec

variable [TextParsers]

def decode64 (encoded : String) : Except ClientError Bytes :=
  match TextParsers.decode64 encoded with
  | some bytes => .ok bytes
  | none => .error .decode

def decodeMoment : Option String → Except ClientError (Option BlockTime)
  | none => .ok none
  | some value =>
    match TextParsers.parseRfc3339 value with
    | some moment => .ok (some moment)
    | none => .error .moment

variable [Crypto] [X509] [Tlv Tag Asn1Error] [OidCodec] [NumBigint] [Chrono] [Zlib]

structure ChainPage where
  blocks : List Block
  nextKey : Option BlockHash

/-- An entry of a history with its verified staple. -/
structure HistoryEntry where
  staple : VoteStaple
  id : Option (Octets 32)
  timestamp : Option BlockTime

structure HistoryPage where
  entries : List HistoryEntry
  nextKey : Option (Octets 32)

def decodeBlock (block : Option WireBlock) : Except ClientError (Option Block) :=
  match block.bind WireBlock.binary with
  | none => .ok none
  | some encoded => do
    let bytes ← decode64 encoded
    some <$> (Block.ofBytes bytes).mapError .block

def decodeStaple (staple : Option WireStaple) (moment : BlockTime) :
    Except ClientError (Option VoteStaple) :=
  match staple.bind WireStaple.binary with
  | none => .ok none
  | some encoded => do
    let bytes ← decode64 encoded
    some <$> (VoteStaple.verify bytes .default moment).mapError .vote

def decodeHistoryEntry (staple : VoteStaple) (id timestamp : Option String) :
    Except ClientError HistoryEntry := do
  let id ← decodeHash id
  let timestamp ← decodeMoment timestamp
  return { staple, id, timestamp }

def decodeHistory (entries : List WireHistoryEntry) (moment : BlockTime) :
    Except ClientError (List HistoryEntry) :=
  decodeEach (fun entry => do
    match ← decodeStaple entry.voteStaple moment with
    -- an entry without a staple is dropped, its other fields unread
    | none => return none
    | some staple => some <$> decodeHistoryEntry staple entry.id entry.timestamp) entries

def decodeHistoryPage (history : List WireHistoryEntry) (nextKey : Option String)
    (moment : BlockTime) : Except ClientError HistoryPage := do
  let entries ← decodeHistory history moment
  let nextKey ← decodeHash nextKey
  return { entries, nextKey }

/-! ## The pages of a node -/

/-- Bounds of a page of a chain. -/
structure ChainQuery where
  start : Option BlockHash
  stop : Option BlockHash
  limit : Option Int

/-- Bounds of a page of a history. -/
structure HistoryQuery where
  start : Option (Octets 32)
  limit : Option Int

namespace NodeApi

variable (api : NodeApi) (call : ℕ)

def chainPage (account : String) (query : ChainQuery) : Except ClientError ChainPage := do
  let stop := query.stop.map fun hash => hexEncodeUpper hash.bytes
  let start := query.start.map fun hash => hexEncodeUpper hash.bytes
  let response ← api.getAccountChain call account stop query.limit start
  -- an entry without a block is dropped, so that the page may be left with none
  let blocks ← decodeEach (fun entry => decodeBlock entry.block) response.blocks
  let nextKey ← decodeHash response.nextKey
  return { blocks, nextKey }

def historyPage (account : String) (query : HistoryQuery) : Except ClientError HistoryPage := do
  let start := query.start.map fun hash => hexEncodeUpper hash.bytes
  let response ← api.getAccountHistory call account query.limit start
  decodeHistoryPage response.history response.nextKey (api.verifyMoment call)

def globalHistoryPage (query : HistoryQuery) : Except ClientError HistoryPage := do
  let start := query.start.map fun hash => hexEncodeUpper hash.bytes
  let response ← api.getGlobalHistory call query.limit start
  decodeHistoryPage response.history response.nextKey (api.verifyMoment call)

end NodeApi

/-! ## Reads of all pages -/

/-- `i64::from(page_limit.max(1))`. -/
def pageSize (pageLimit : UInt32) : Int := (max pageLimit 1).toNat

section Reads

variable (api : NodeApi) (account : GenericAccount) (pageLimit : UInt32)

/-- The page of a chain at a cursor. -/
def chainFetch (call : ℕ) (cursor : Option BlockHash) :
    Except ClientError (List Block × Option BlockHash) := do
  let query := { start := cursor, stop := none, limit := some (pageSize pageLimit) }
  let page ← api.chainPage call account.toString query
  return (page.blocks, page.nextKey)

/-- The page of an account's history at a cursor. -/
def historyFetch (call : ℕ) (cursor : Option (Octets 32)) :
    Except ClientError (List HistoryEntry × Option (Octets 32)) := do
  let query := { start := cursor, limit := some (pageSize pageLimit) }
  let page ← api.historyPage call account.toString query
  return (page.entries, page.nextKey)

/-- The page of the node's history at a cursor. -/
def globalHistoryFetch (call : ℕ) (cursor : Option (Octets 32)) :
    Except ClientError (List HistoryEntry × Option (Octets 32)) := do
  let query := { start := cursor, limit := some (pageSize pageLimit) }
  let page ← api.globalHistoryPage call query
  return (page.entries, page.nextKey)

/-- `chain_all` returns the result. -/
def ChainAll (result : Except ClientError (List Block)) : Prop :=
  DrainCursorPages (chainFetch api account pageLimit) result

/-- `history_all` returns the result. -/
def HistoryAll (result : Except ClientError (List HistoryEntry)) : Prop :=
  DrainCursorPages (historyFetch api account pageLimit) result

/-- `global_history_all` returns the result. -/
def GlobalHistoryAll (result : Except ClientError (List HistoryEntry)) : Prop :=
  DrainCursorPages (globalHistoryFetch api pageLimit) result

/-- **Paged reads are complete unless a page without entries cuts them short.** Whatever is
dropped from the pages that the cursors link, a read returns the entries of all of them, or the
error of the one that fails, exactly when every page that has a cursor and decodes to nothing
is followed by pages that decode to nothing only. -/
theorem pagedReads_iff :
    (∀ pages, Linked (chainFetch api account pageLimit) 0 none pages →
      (ChainAll api account pageLimit (collect pages) ↔ Uninterrupted pages)) ∧
    (∀ pages, Linked (historyFetch api account pageLimit) 0 none pages →
      (HistoryAll api account pageLimit (collect pages) ↔ Uninterrupted pages)) ∧
    (∀ pages, Linked (globalHistoryFetch api pageLimit) 0 none pages →
      (GlobalHistoryAll api pageLimit (collect pages) ↔ Uninterrupted pages)) := by
  refine ⟨?_, ?_, ?_⟩
  · intro pages h
    exact drainCursorPages_collect_iff h
  · intro pages h
    exact drainCursorPages_collect_iff h
  · intro pages h
    exact drainCursorPages_collect_iff h

end Reads

end Codec

/-! ## Samples -/

namespace Base64

/-- The digits of base 64. -/
def digit (value : Nat) : Char :=
  if value < 26 then Char.ofNat (65 + value)
  else if value < 52 then Char.ofNat (71 + value)
  else if value < 62 then Char.ofNat (value - 4)
  else if value = 62 then '+' else '/'

def value64 (digit : Char) : Option Nat :=
  let code := digit.toNat
  if 65 ≤ code ∧ code ≤ 90 then some (code - 65)
  else if 97 ≤ code ∧ code ≤ 122 then some (code - 71)
  else if 48 ≤ code ∧ code ≤ 57 then some (code + 4)
  else if code = 43 then some 62
  else if code = 47 then some 63
  else none

def digits : Bytes → List Char
  | [] => []
  | [a] => [digit (a.toNat / 4), digit (a.toNat % 4 * 16), '=', '=']
  | [a, b] =>
    [digit (a.toNat / 4), digit (a.toNat % 4 * 16 + b.toNat / 16),
      digit (b.toNat % 16 * 4), '=']
  | a :: b :: c :: rest =>
    digit (a.toNat / 4) :: digit (a.toNat % 4 * 16 + b.toNat / 16) ::
      digit (b.toNat % 16 * 4 + c.toNat / 64) :: digit (c.toNat % 64) ::
        digits rest

/-- Four digits are three octets. The last group is padded and has no spare bits. -/
def decode : List Char → Option Bytes
  | [] => some []
  | a :: b :: c :: d :: rest => do
    let x ← value64 a
    let y ← value64 b
    let first := UInt8.ofNat (x * 4 + y / 16)
    if c = '=' then
      if d = '=' ∧ rest = [] ∧ y % 16 = 0 then return [first] else none
    else
      let z ← value64 c
      let second := UInt8.ofNat (y % 16 * 16 + z / 4)
      if d = '=' then
        if rest = [] ∧ z % 4 = 0 then return [first, second] else none
      else
        let w ← value64 d
        return first :: second :: UInt8.ofNat (z % 4 * 64 + w) :: (← decode rest)
  | _ => none

/-- No moment is read, for the samples only. -/
scoped instance textParsers : TextParsers where
  decode64 text := decode text.toList
  parseRfc3339 _ := none

end Base64

section Samples

open scoped Reference Asn1.Reference Base64
open Reference

namespace Sample

def cursor : BlockHash := hashDefault []

/-- A node that knows two entries of a chain, one on each page. -/
def nodeApi (first second : ChainEntry) : NodeApi where
  getAccountChain call _ _ _ _ :=
    if call = 0 then .ok { blocks := [first], nextKey := some (hexEncodeUpper cursor.bytes) }
    else .ok { blocks := [second], nextKey := none }
  getAccountHistory _ _ _ _ := .ok { history := [], nextKey := none }
  getGlobalHistory _ _ _ := .ok { history := [], nextKey := none }
  verifyMoment _ := Asn1.Sample.date

/-- The sample block, which is sent in base 64. -/
def sent : Except BlockError Block := do
  let unsigned ← KeetaNode.Sample.unsigned
  let block ← unsigned.sealWith KeetaNode.Sample.signatures
  -- evaluated here once, where the block is at hand
  rejectIf (Base64.decode (Base64.digits block.bytes) ≠ some block.bytes)
    .invalidVersion
  return block

theorem exists_wireBlock : ∃ encoded block, decodeBlock (some encoded) = .ok (some block) := by
  obtain ⟨block, h⟩ := exists_eq_ok (by decide +kernel : sent.isOk = true)
  simp only [sent, bind_eq_ok, rejectIf_eq_ok, not_not, pure_eq_ok, Except.ok.injEq] at h
  obtain ⟨unsigned, -, block, hseal, -, h64, rfl⟩ := h
  obtain ⟨bytes, hchecked⟩ := (Block.Obtained.sealing hseal).checked
  have hdecode : decode64 (String.ofList (Base64.digits block.bytes)) =
      .ok block.bytes := by
    simp only [decode64, TextParsers.decode64, String.toList_ofList, h64]
  -- what is decoded is the block that was sent, as it looks on the wire
  refine ⟨⟨some (String.ofList (Base64.digits block.bytes))⟩,
    { block with data := block.data.onWire }, ?_⟩
  simp only [decodeBlock, Option.bind_some, hdecode, ok_bind, hchecked.ofBytes]
  rfl

theorem decodeHash_cursor :
    decodeHash (some (hexEncodeUpper cursor.bytes)) = .ok (some cursor) := by
  decide +kernel

/-- A page of one entry. -/
theorem decodeEach_singleton {entry : ChainEntry} {decoded : Option Block}
    (h : decodeBlock entry.block = .ok decoded) :
    decodeEach (fun entry : ChainEntry => decodeBlock entry.block) [entry] =
      .ok decoded.toList := by
  cases decoded <;> simp [decodeEach, h, List.reduceOption]

/-- The two pages of the node, with what their entries decode to. -/
theorem linked_nodeApi (first second : ChainEntry) {before after : Option Block}
    (hfirst : decodeBlock first.block = .ok before) (hsecond : decodeBlock second.block = .ok after)
    (pageLimit : UInt32) :
    Linked (chainFetch (nodeApi first second) alice pageLimit) 0 none
      [.ok (before.toList, some cursor), .ok (after.toList, none)] := by
  apply Linked.next
  · simp only [chainFetch, NodeApi.chainPage, nodeApi, if_true, ok_bind,
      decodeEach_singleton hfirst, decodeHash_cursor, pure_eq_ok]
  · apply Linked.last
    simp only [chainFetch, NodeApi.chainPage, nodeApi, zero_add, one_ne_zero, if_false, ok_bind,
      decodeEach_singleton hsecond, decodeHash, pure_eq_ok]

end Sample

/-- The first page holds an entry without a block, the second one a block that is not
returned. -/
theorem not_pagedReads_complete : ∃ encoded block pages,
    decodeBlock (some encoded) = .ok (some block) ∧
      Linked (chainFetch (Sample.nodeApi ⟨none⟩ ⟨some encoded⟩) alice 1) 0 none pages ∧
      collect pages = .ok [block] ∧
      ChainAll (Sample.nodeApi ⟨none⟩ ⟨some encoded⟩) alice 1 (.ok []) ∧
      ¬ ChainAll (Sample.nodeApi ⟨none⟩ ⟨some encoded⟩) alice 1 (collect pages) := by
  obtain ⟨encoded, block, hblock⟩ := Sample.exists_wireBlock
  have hlinked := Sample.linked_nodeApi ⟨none⟩ ⟨some encoded⟩ rfl hblock 1
  -- the first page decodes to nothing, so that the read ends before the second
  have hstep : drainStep (chainFetch (Sample.nodeApi ⟨none⟩ ⟨some encoded⟩) alice 1) .initial =
      .inr (.ok []) := by
    cases hlinked with
    | next hfirst _ => simp only [drainStep, DrainState.initial, hfirst, Option.toList_none]
  refine ⟨encoded, block, _, hblock, hlinked, rfl, ?_, ?_⟩
  · exact (returns_iff_of_inr hstep).mpr rfl
  · intro h
    cases (returns_iff_of_inr hstep).mp h

theorem pagedReads_iff_sample : ∃ encoded block pages,
    decodeBlock (some encoded) = .ok (some block) ∧
      Linked (chainFetch (Sample.nodeApi ⟨some encoded⟩ ⟨some encoded⟩) alice 1) 0 none pages ∧
      collect pages = .ok [block, block] ∧
      ChainAll (Sample.nodeApi ⟨some encoded⟩ ⟨some encoded⟩) alice 1 (collect pages) := by
  obtain ⟨encoded, block, hblock⟩ := Sample.exists_wireBlock
  have hlinked := Sample.linked_nodeApi ⟨some encoded⟩ ⟨some encoded⟩ hblock hblock 1
  refine ⟨encoded, block, _, hblock, hlinked, rfl, ?_⟩
  apply ((pagedReads_iff _ alice 1).1 _ hlinked).mpr
  refine uninterrupted_cons.mpr ⟨?_, uninterrupted_singleton⟩
  rintro ⟨next, h⟩
  cases h

end Samples

end KeetaNode.Client
