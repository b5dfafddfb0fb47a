import KeetaNode.Asn1.Der
import KeetaNode.Bindings.Pure
import KeetaNode.Vote.Stapled

/-!
# The flat interface

A guest holds handles only. Every call looks up the handles it is given, computes, and stores
what it computed; a call that fails records its error and returns the null handle. The builder
calls consume the handle they are given, whether they succeed or not.

- `keetanetwork-client-wasi/src/p1/mod.rs`

## Main results

- `objects_are_sound`: an object that has not passed its checks is never held
- `handles_last`: a handle keeps its object until it is freed or consumed
-/

namespace KeetaNode.Bindings

open ByteCodec Machine
open Asn1 (Tag Asn1Error Chrono OidCodec fromUtf8 utf8Bytes)

/-! ## The state -/

/-- The tables of the state. -/
inductive Kind where
  | account | block | bytes | permissions | operation | builder | unsigned | vote | staple
  | certificate
  deriving DecidableEq

namespace Kind

def resource : Kind → String
  | account => "account"
  | block => "block"
  | bytes => "bytes"
  | permissions => "permissions"
  | operation => "operation"
  | builder => "builder"
  | unsigned => "unsigned-block"
  | vote => "vote"
  | staple => "staple"
  | certificate => "certificate"

/-- `Registered`: the objects of a table. -/
def Value [Crypto] [X509] : Kind → Type
  | account => GenericAccount
  | block => Block
  | bytes => Bytes
  | permissions => Permissions
  | operation => Operation
  | builder => BlockBuilder
  | unsigned => UnsignedBlock
  | vote => Vote
  | staple => VoteStaple
  | certificate => X509.Certificate

end Kind

section P1

variable [Crypto] [X509]

structure State where
  table : (kind : Kind) → HandleRegistry kind.Value
  lastError : Option CodedError

def State.default : State where
  table kind := .new kind.resource
  lastError := none

def State.withTable (state : State) (kind : Kind) (table : HandleRegistry kind.Value) : State :=
  { state with table := Function.update state.table kind table }

/-- A call on the state. It has no result when it looks for a free handle for ever. -/
abbrev Abi (α : Type) := StateT State Option α

variable {α β : Type}

/-! ## Handles -/

/-- Record the error and return the null handle. -/
def fail (error : CodedError) : Abi Int32 := fun state =>
  some (0, { state with lastError := some error })

def okOrFail (result : Except CodedError α) : Abi (Option α) :=
  match result with
  | .ok value => return some value
  | .error error => do
    let _ ← fail error
    return none

def store (kind : Kind) (value : kind.Value) : Abi Int32 := fun state =>
  ((state.table kind).store value).map fun (handle, table) => (handle, state.withTable kind table)

def resolve (kind : Kind) (handle : Int32) : Abi (Option kind.Value) := fun state =>
  okOrFail ((state.table kind).withValue handle id) state

def take (kind : Kind) (handle : Int32) : Abi (Option kind.Value) := fun state =>
  let (result, table) := (state.table kind).take handle
  okOrFail result (state.withTable kind table)

/-- Free a handle. -/
def release (kind : Kind) (handle : Int32) : Abi Int32 := fun state =>
  some (0, state.withTable kind ((state.table kind).remove handle))

/-- A call goes on with what it looked up, or returns the null handle. -/
def orNull (lookup : Abi (Option α)) (body : α → Abi Int32) : Abi Int32 := do
  match ← lookup with
  | some value => body value
  | none => return 0

/-- Two arguments are read, the second one also when the first one fails. -/
def both (first : Abi (Option α)) (second : Abi (Option β)) : Abi (Option (α × β)) := do
  let a ← first
  let b ← second
  return a.bind fun a => b.map fun b => (a, b)

def stringIn (bytes : Bytes) : Abi (Option String) :=
  okOrFail (match fromUtf8 bytes with
    | some value => .ok value
    | none => .error ⟨"INVALID_UTF8", "argument must be valid UTF-8"⟩)

/-- The null handle stands for no account. -/
def optionalAccount (handle : Int32) : Abi (Option (Option GenericAccount)) :=
  if handle = 0 then return some none
  else do
    let account ← resolve .account handle
    return account.map some

/-- Handles in four octets each, low octet first. -/
def handleChunks : Bytes → Option (List Int32)
  | [] => some []
  | a :: b :: c :: d :: rest =>
    (handleChunks rest).map fun handles =>
      Int32.ofNat (a.toNat + 256 * b.toNat + 65536 * c.toNat + 16777216 * d.toNat) :: handles
  | _ => none

/-- Look up the handles, up to the first one that is not known. -/
def resolveEach (kind : Kind) : List Int32 → Abi (Option (List kind.Value))
  | [] => return some []
  | handle :: handles => do
    match ← resolve kind handle with
    | none => return none
    | some value =>
      let values ← resolveEach kind handles
      return values.map (value :: ·)

def resolveHandles (kind : Kind) (bytes : Bytes) : Abi (Option (List kind.Value)) :=
  match handleChunks bytes with
  | some handles => resolveEach kind handles
  | none =>
    okOrFail (.error ⟨"INVALID_HANDLE_LIST", "handle list must be 4-byte aligned"⟩)

/-- Store what was computed. -/
def storeResult (kind : Kind) (result : Except CodedError kind.Value) : Abi Int32 :=
  match result with
  | .ok value => store kind value
  | .error error => fail error

/-- Apply a transformation to a builder; its handle is consumed. -/
def reboxBuilder (handle : Int32) (apply : BlockBuilder → Except CodedError BlockBuilder) :
    Abi Int32 :=
  orNull (take .builder handle) fun builder => storeResult .builder (apply builder)

/-- A builder call whose arguments cannot be read consumes the builder. -/
def reboxWith (handle : Int32) (argument : Abi (Option α))
    (apply : α → BlockBuilder → Except CodedError BlockBuilder) : Abi Int32 := do
  match ← argument with
  | some value => reboxBuilder handle (apply value)
  | none => orNull (take .builder handle) fun _ => return 0

/-! ## The calls -/

section Calls

variable [Tlv Tag Asn1Error] [Chrono] [OidCodec] [NumBigint] [Zlib] [BigIntParser]
  (texts : ErrorTexts)

/-- All the texts are read, also when one of them cannot be. -/
def stringsIn : List Bytes → Abi (Option (List String))
  | [] => return some []
  | bytes :: rest => do
    let values ← both (stringIn bytes) (stringsIn rest)
    return values.map fun (value, values) => value :: values

/-- The calls that make an object of the guest's texts alone, or of nothing: accounts of seeds,
keys and addresses, permissions of flags and bitmaps, certificates and their hashes, new seeds. -/
def fromTexts (kind : Kind) (arguments : List Bytes)
    (parse : List String → Except CodedError kind.Value) : Abi Int32 :=
  orNull (stringsIn arguments) fun values => storeResult kind (parse values)

/-- The calls that describe an object: its bytes, its hash, its signature of a message. -/
def describe (kind : Kind) (handle : Int32) (text : kind.Value → Except CodedError Bytes) :
    Abi Int32 :=
  orNull (resolve kind handle) fun value => storeResult .bytes (text value)

/-- `keeta_last_error_code` and `keeta_last_error_message`. -/
def keetaLastError (text : CodedError → String) : Abi Int32 := fun state =>
  match state.lastError with
  | some error => store .bytes (utf8Bytes (text error)) state
  | none => some (0, state)

def identifierPrevious (given : Option Bytes) : Except CodedError (Option (Octets 32)) :=
  match given with
  | none => .ok none
  | some bytes =>
    match Octets.ofBytes 32 bytes with
    | some hash => .ok (some hash)
    | none => .error ⟨"INVALID_HASH", "previous hash must be 32 bytes"⟩

def keetaGenerateIdentifier (handle : Int32) (kind : Bytes) (previous : Option Bytes)
    (index : UInt32) : Abi Int32 :=
  orNull (resolve .account handle) fun account => orNull (stringIn kind) fun kind =>
    storeResult .account (do
      let kind ← identifierType kind
      let previous ← identifierPrevious previous
      generateIdentifier texts account kind previous index)

def keetaGenerateMultisigIdentifier (handle : Int32) (previous : Option Bytes) (index : UInt32) :
    Abi Int32 :=
  orNull (resolve .account handle) fun account =>
    storeResult .account (do
      let previous ← identifierPrevious previous
      generateIdentifier texts account .multisig previous index)

def keetaBlockFromHex (value : Bytes) : Abi Int32 :=
  orNull (stringIn value) fun value => storeResult .block (blockFromHex texts value)

def keetaBlockAccount (handle : Int32) : Abi Int32 :=
  orNull (resolve .block handle) fun block => store .account (Block.data block).account

def keetaOpSetRep (recipient : Int32) : Abi Int32 :=
  orNull (resolve .account recipient) fun recipient => store .operation (opSetRep recipient)

def keetaOpSend (recipient : Int32) (amount : Bytes) (token : Int32) (external : Bytes) :
    Abi Int32 :=
  orNull (both (resolve .account recipient) (resolve .account token)) fun (recipient, token) =>
    orNull (both (stringIn amount) (stringIn external)) fun (amount, external) =>
      storeResult .operation (opSend recipient amount token external)

def keetaOpReceive (sender : Int32) (amount : Bytes) (token : Int32) (isExact : Bool)
    (forward : Int32) : Abi Int32 :=
  orNull (both (resolve .account sender) (resolve .account token)) fun (sender, token) =>
    orNull (stringIn amount) fun amount => orNull (optionalAccount forward) fun forward =>
      storeResult .operation (opReceive sender amount token isExact forward)

def keetaOpTokenAdminSupply (amount method : Bytes) : Abi Int32 :=
  orNull (both (stringIn amount) (stringIn method)) fun (amount, method) =>
    storeResult .operation (opTokenAdminSupply amount method)

def keetaOpTokenAdminModifyBalance (token : Int32) (amount method : Bytes) : Abi Int32 :=
  orNull (resolve .account token) fun token =>
    orNull (both (stringIn amount) (stringIn method)) fun (amount, method) =>
      storeResult .operation (opTokenAdminModifyBalance token amount method)

/-- The null handle stands for no default permission. -/
def keetaOpSetInfo (name description metadata : Bytes) (permissions : Int32) : Abi Int32 :=
  orNull (both (stringIn name) (both (stringIn description) (stringIn metadata)))
    fun (name, description, metadata) =>
      if permissions = 0 then store .operation (opSetInfo name description metadata none)
      else orNull (resolve .permissions permissions) fun permissions =>
        store .operation (opSetInfo name description metadata (some permissions))

def keetaOpCreateIdentifier (identifier : Int32) : Abi Int32 :=
  orNull (resolve .account identifier) fun identifier =>
    store .operation (opCreateIdentifier identifier)

def keetaOpCreateMultisig (multisig : Int32) (signers : Bytes) (quorum : UInt32) : Abi Int32 :=
  orNull (resolve .account multisig) fun multisig =>
    orNull (resolveHandles .account signers) fun signers =>
      store .operation (opCreateMultisig multisig signers quorum)

def keetaOpModifyPermissions (principal permissions : Int32) (method : Bytes) (target : Int32) :
    Abi Int32 :=
  orNull (resolve .account principal) fun principal =>
    orNull (resolve .permissions permissions) fun permissions =>
      orNull (stringIn method) fun method =>
        match adjustMethod method with
        | .error error => fail error
        | .ok method => orNull (optionalAccount target) fun target =>
          store .operation (opModifyPermissions principal permissions method target)

def keetaOpManageCertificateAdd (certificate intermediates : Bytes) : Abi Int32 :=
  orNull (stringIn certificate) fun certificate => orNull (stringIn intermediates) fun joined =>
    storeResult .operation (opManageCertificateAdd certificate (lines joined))

def keetaOpManageCertificateRemove (hash : Bytes) : Abi Int32 :=
  orNull (stringIn hash) fun hash => storeResult .operation (opManageCertificateRemove hash)

/-! ### Builders -/

def keetaBuilderNew : Abi Int32 := store .builder ({} : BlockBuilder)

def keetaBuilderWithVersion (handle : Int32) (version : UInt32) : Abi Int32 :=
  reboxBuilder handle fun builder => do
    return { builder with version := some (← blockVersion version) }

def keetaBuilderWithNetwork (handle : Int32) (network : Int64) : Abi Int32 :=
  reboxBuilder handle fun builder => .ok { builder with network := some network.toInt }

def keetaBuilderWithAccount (handle account : Int32) : Abi Int32 :=
  reboxWith handle (resolve .account account) fun account builder =>
    .ok { builder with account := some account }

def keetaBuilderWithSigner (handle account : Int32) : Abi Int32 :=
  reboxWith handle (resolve .account account) fun account builder =>
    .ok { builder with signer := some (signerSingle account) }

def keetaBuilderWithMultisigSigner (handle multisig : Int32) (signers : Bytes) : Abi Int32 :=
  reboxWith handle (both (resolve .account multisig) (resolveHandles .account signers))
    fun (multisig, signers) builder =>
      .ok { builder with signer := some (signerMultisig multisig signers) }

/-- A hash has to be given. -/
def keetaBuilderWithPrevious (handle : Int32) (previous : Option Bytes) : Abi Int32 :=
  reboxWith handle
    (okOrFail (do
      match ← identifierPrevious previous with
      | some previous => return previous
      | none => throw ⟨"INVALID_HASH", "previous hash must be 32 bytes"⟩))
    fun previous builder => .ok { builder with previous := some (.hash previous) }

def keetaBuilderAsOpening (handle : Int32) : Abi Int32 :=
  reboxBuilder handle fun builder => .ok { builder with previous := some .opening }

def keetaBuilderWithDate (handle : Int32) (unixMillis : Int64) : Abi Int32 :=
  reboxBuilder handle fun builder => do
    return { builder with date := some (← blockTime unixMillis) }

def keetaBuilderWithPurpose (handle : Int32) (purpose : Bytes) : Abi Int32 :=
  reboxWith handle (stringIn purpose) fun purpose builder => do
    return { builder with purpose := some (← blockPurpose purpose) }

def keetaBuilderWithOperation (handle operation : Int32) : Abi Int32 :=
  reboxWith handle (resolve .operation operation) fun (operation : Operation) builder =>
    .ok { builder with operations := builder.operations ++ [operation] }

def keetaBuilderBuild (handle : Int32) (clock : Option BlockTime) : Abi Int32 :=
  orNull (take .builder handle) fun builder =>
    storeResult .unsigned (buildUnsigned texts builder clock)

def keetaUnsignedSign (handle : Int32)
    (signatureOf : GenericAccount → Bytes → Except AccountError Bytes) : Abi Int32 :=
  orNull (take .unsigned handle) fun unsigned =>
    storeResult .block (signUnsigned texts unsigned signatureOf)

/-! ### Votes and staples -/

def keetaVoteFromBytes (bytes : Bytes) : Abi Int32 :=
  storeResult .vote (voteFromBytes texts bytes)

def keetaVoteStapleBuild (blocks votes : Bytes) (momentMillis : Int64) : Abi Int32 :=
  orNull (both (resolveHandles .block blocks) (resolveHandles .vote votes)) fun (blocks, votes) =>
    storeResult .bytes (voteStapleBuild texts blocks votes momentMillis)

def keetaVoteStapleNew (blocks votes : Bytes) (momentMillis : Int64) : Abi Int32 :=
  orNull (both (resolveHandles .block blocks) (resolveHandles .vote votes)) fun (blocks, votes) =>
    storeResult .staple (voteStapleNew texts blocks votes momentMillis)

/-- A handle in four octets, low octet first. -/
def leBytes (handle : Int32) : Bytes :=
  let number := handle.toUInt32.toNat
  [UInt8.ofNat number, UInt8.ofNat (number / 256), UInt8.ofNat (number / 65536),
    UInt8.ofNat (number / 16777216)]

/-- Store the operations one after the other, and give their handles. -/
def storeEach : List Operation → Abi Bytes
  | [] => return []
  | operation :: operations => do
    let handle ← store .operation operation
    let rest ← storeEach operations
    return leBytes handle ++ rest

/-- The null handle is also the answer when no fee is owed. -/
def keetaStapleFeeSends (staple baseToken : Int32) (priority : Bytes) : Abi Int32 :=
  orNull (both (resolve .staple staple)
      (both (resolve .account baseToken) (resolveHandles .account priority)))
    fun (staple, baseToken, priority) =>
      let operations := stapleFeeSends staple baseToken priority
      if operations = [] then return 0
      else do
        let handles ← storeEach operations
        store .bytes handles

/-- The null handle is also the answer when the payer has no block. -/
def keetaStapleTipFor (staple payer : Int32) : Abi Int32 :=
  orNull (both (resolve .staple staple) (resolve .account payer)) fun (staple, payer) =>
    match stapleTipFor staple payer with
    | some hash => store .bytes (utf8Bytes hash)
    | none => return 0

end Calls

/-! ## What calls uphold -/

section Tables

variable {state state' : State} {consumed : Option (Kind × Int32)}

/-- Every handle but the consumed one keeps its object. -/
def Kept (consumed : Option (Kind × Int32)) (state state' : State) : Prop :=
  ∀ kind handle value, consumed ≠ some (kind, handle) →
    (state.table kind).contents handle = some value →
    (state'.table kind).contents handle = some value

theorem Kept.of_table (h : state'.table = state.table) : Kept consumed state state' := by
  intro kind handle value _ hvalue
  rwa [h]

theorem Kept.trans {state'' : State} (h : Kept consumed state state')
    (h' : Kept consumed state' state'') : Kept consumed state state'' :=
  fun kind handle value hne hvalue => h' kind handle value hne (h kind handle value hne hvalue)

@[simp] theorem table_withTable_self (state : State) (kind : Kind)
    (table : HandleRegistry kind.Value) : (state.withTable kind table).table kind = table :=
  Function.update_self ..

theorem table_withTable_of_ne (state : State) {kind kind' : Kind}
    (table : HandleRegistry kind.Value) (h : kind' ≠ kind) :
    (state.withTable kind table).table kind' = state.table kind' :=
  Function.update_of_ne h ..

/-- The contents of the tables after an object is stored. -/
theorem store_eq_some {kind : Kind} {value : kind.Value} {handle : Int32}
    (h : store kind value state = some (handle, state')) :
    0 < handle ∧ (state.table kind).contents handle = none ∧
      (state'.table kind).contents =
        Function.update (state.table kind).contents handle (some value) ∧
      ∀ kind', kind' ≠ kind → state'.table kind' = state.table kind' := by
  obtain ⟨⟨_, table⟩, hstore, heq⟩ := Option.map_eq_some_iff.mp h
  cases heq
  obtain ⟨hfirst, rfl⟩ := HandleRegistry.store_eq_some_iff.mp hstore
  refine ⟨HandleRegistry.pos_of_first hfirst,
    AList.lookup_eq_none.mpr (HandleRegistry.notMem_of_first hfirst), ?_,
    fun kind' hne => table_withTable_of_ne _ _ hne⟩
  rw [table_withTable_self, HandleRegistry.contents_insert]

end Tables

section Upholds

variable [Tlv Tag Asn1Error] [Chrono] [OidCodec] [NumBigint] [Zlib]

/-- What is checked before an object is stored. -/
def Kind.Sound : (kind : Kind) → kind.Value → Prop
  | .block, (value : Block) => value.Obtained
  | .unsigned, (value : UnsignedBlock) =>
    ∃ builder clock, BlockBuilder.build builder clock = .ok value
  | .vote, (value : Vote) => ∃ bytes, Vote.verify bytes = .ok value
  | .staple, (value : VoteStaple) => ∃ blocks votes moment,
      (∀ block ∈ blocks, Block.Obtained block) ∧
      (∀ vote ∈ votes, ∃ bytes, Vote.verify bytes = .ok vote) ∧
      VoteStaple.tryNew blocks votes .default moment = .ok value
  | _, _ => True

def State.Sound (state : State) : Prop :=
  ∀ kind handle value, (state.table kind).contents handle = some value → kind.Sound value

/-- A lookup changes no table, and what it finds satisfies `P`. -/
def Reads (lookup : Abi (Option α)) (P : α → Prop) : Prop :=
  ∀ state found state', state.Sound → lookup state = some (found, state') →
    state'.table = state.table ∧ ∀ value, found = some value → P value

/-- A call keeps the objects sound and behind their handles, and gives the null handle or one
that has an object. -/
def Upholds (consumed : Option (Kind × Int32)) (gives : Kind) (call : Abi Int32) : Prop :=
  ∀ state handle state', state.Sound → call state = some (handle, state') →
    state'.Sound ∧ Kept consumed state state' ∧
    (handle = 0 ∨ 0 < handle ∧ ∃ value, (state'.table gives).contents handle = some value)

variable {kind gives : Kind} {consumed : Option (Kind × Int32)} {P : α → Prop} {Q : β → Prop}
  {state state' : State}

theorem State.Sound.of_table (hsound : state.Sound) (h : state'.table = state.table) :
    state'.Sound := by
  intro kind handle value hvalue
  rw [h] at hvalue
  exact hsound kind handle value hvalue

/-! ### Lookups -/

theorem Reads.absent : Reads (return none) P := by
  intro state found state' _ hrun
  cases hrun
  exact ⟨rfl, fun value hvalue => by cases hvalue⟩

theorem Reads.found {value : α} (h : P value) : Reads (return some value) P := by
  intro state found state' _ hrun
  cases hrun
  refine ⟨rfl, fun value' hvalue => ?_⟩
  cases hvalue
  exact h

theorem Reads.okOrFail {result : Except CodedError α} (h : ∀ value, result = .ok value → P value) :
    Reads (okOrFail result) P := by
  cases result with
  | ok value => exact .found (h value rfl)
  | error error =>
    intro state found state' _ hrun
    cases hrun
    exact ⟨rfl, fun value hvalue => by cases hvalue⟩

/-- Lookups follow one another, whatever the first one finds. -/
theorem Reads.bind {lookup : Abi (Option α)} {next : Option α → Abi (Option β)}
    (hlookup : Reads lookup P) (hnone : Reads (next none) Q)
    (hsome : ∀ value, P value → Reads (next (some value)) Q) : Reads (lookup >>= next) Q := by
  intro state found state' hsound hrun
  obtain ⟨⟨first, middle⟩, hfirst, hnext⟩ := Option.bind_eq_some_iff.mp hrun
  obtain ⟨htable, hP⟩ := hlookup state first middle hsound hfirst
  have hsound' := hsound.of_table htable
  rw [← htable]
  cases first with
  | none => exact hnone middle found state' hsound' hnext
  | some value => exact hsome value (hP value rfl) middle found state' hsound' hnext

theorem Reads.map {lookup : Abi (Option α)} {f : α → β} (hlookup : Reads lookup P)
    (hQ : ∀ value, P value → Q (f value)) :
    Reads (do let value ← lookup; return value.map f) Q :=
  .bind hlookup .absent fun value hvalue => .found (hQ value hvalue)

theorem Reads.resolve (handle : Int32) : Reads (resolve kind handle) kind.Sound := by
  intro state found state' hsound hrun
  refine Reads.okOrFail (fun value hvalue => ?_) state found state' hsound hrun
  apply hsound kind handle
  rw [← HandleRegistry.toOption_withValue, hvalue]
  rfl

theorem Reads.stringIn (bytes : Bytes) : Reads (stringIn bytes) fun _ => True :=
  .okOrFail fun _ _ => trivial

theorem Reads.both {first : Abi (Option α)} {second : Abi (Option β)} (hfirst : Reads first P)
    (hsecond : Reads second Q) :
    Reads (both first second) fun values => P values.1 ∧ Q values.2 := by
  refine .bind hfirst ?_ fun a ha => .bind hsecond .absent fun b hb => .found ⟨ha, hb⟩
  exact .bind hsecond .absent fun _ _ => .absent

theorem Reads.optionalAccount (handle : Int32) : Reads (optionalAccount handle) fun _ => True := by
  rw [Bindings.optionalAccount]
  split
  · exact .found trivial
  · exact .map (.resolve handle) fun _ _ => trivial

theorem Reads.resolveEach (handles : List Int32) :
    Reads (resolveEach kind handles) fun values => ∀ value ∈ values, kind.Sound value := by
  induction handles with
  | nil => exact .found fun _ h => absurd h List.not_mem_nil
  | cons handle handles ih =>
    refine .bind (.resolve handle) .absent fun value hvalue => ?_
    exact .map ih fun values hvalues => List.forall_mem_cons.mpr ⟨hvalue, hvalues⟩

theorem Reads.resolveHandles (bytes : Bytes) :
    Reads (resolveHandles kind bytes) fun values => ∀ value ∈ values, kind.Sound value := by
  rw [Bindings.resolveHandles]
  cases handleChunks bytes with
  | none => exact .okOrFail fun _ h => by cases h
  | some handles => exact .resolveEach handles

theorem Reads.stringsIn (arguments : List Bytes) : Reads (stringsIn arguments) fun _ => True := by
  induction arguments with
  | nil => exact .found trivial
  | cons bytes rest ih => exact .map (.both (.stringIn bytes) ih) fun _ _ => trivial

/-! ### Calls -/

theorem Upholds.null : Upholds consumed gives (return 0) := by
  intro state handle state' hsound hrun
  cases hrun
  exact ⟨hsound, .of_table rfl, .inl rfl⟩

theorem Upholds.fail (error : CodedError) : Upholds consumed gives (fail error) := by
  intro state handle state' hsound hrun
  cases hrun
  exact ⟨hsound, .of_table rfl, .inl rfl⟩

theorem Upholds.store (kind : Kind) {value : kind.Value} (h : kind.Sound value) :
    Upholds consumed kind (store kind value) := by
  intro state handle state' hsound hrun
  obtain ⟨hpos, hfree, hcontents, hothers⟩ := store_eq_some hrun
  refine ⟨fun kind' handle' value' hvalue => ?_, fun kind' handle' value' _ hvalue => ?_,
    .inr ⟨hpos, value, by rw [hcontents, Function.update_self]⟩⟩
  · by_cases hkind : kind' = kind
    · subst hkind
      rw [hcontents] at hvalue
      by_cases hhandle : handle' = handle
      · subst hhandle
        rw [Function.update_self] at hvalue
        cases hvalue
        exact h
      · rw [Function.update_of_ne hhandle] at hvalue
        exact hsound _ _ _ hvalue
    · rw [hothers kind' hkind] at hvalue
      exact hsound _ _ _ hvalue
  · by_cases hkind : kind' = kind
    · subst hkind
      have hhandle : handle' ≠ handle := by
        rintro rfl
        rw [hfree] at hvalue
        cases hvalue
      rwa [hcontents, Function.update_of_ne hhandle]
    · rwa [hothers kind' hkind]

theorem Upholds.storeResult {result : Except CodedError kind.Value}
    (h : ∀ value, result = .ok value → kind.Sound value) :
    Upholds consumed kind (storeResult kind result) := by
  cases result with
  | ok value => exact .store kind (h value rfl)
  | error error => exact .fail error

/-- After a lookup that changes no table. -/
theorem Upholds.after {lookup : Abi (Option α)} {next : Option α → Abi Int32}
    (hlookup : Reads lookup P) (hnone : Upholds consumed gives (next none))
    (hsome : ∀ value, P value → Upholds consumed gives (next (some value))) :
    Upholds consumed gives (lookup >>= next) := by
  intro state handle state' hsound hrun
  obtain ⟨⟨found, middle⟩, hfound, hnext⟩ := Option.bind_eq_some_iff.mp hrun
  obtain ⟨htable, hP⟩ := hlookup state found middle hsound hfound
  have hsound' := hsound.of_table htable
  have hupholds : Upholds consumed gives (next found) := by
    cases found with
    | none => exact hnone
    | some value => exact hsome value (hP value rfl)
  obtain ⟨hsound'', hkept, hgiven⟩ := hupholds middle handle state' hsound' hnext
  exact ⟨hsound'', (Kept.of_table htable).trans hkept, hgiven⟩

theorem Upholds.orNull {lookup : Abi (Option α)} {body : α → Abi Int32} (hlookup : Reads lookup P)
    (hbody : ∀ value, P value → Upholds consumed gives (body value)) :
    Upholds consumed gives (orNull lookup body) := .after hlookup .null hbody

theorem Upholds.ite {condition : Prop} [Decidable condition] {call call' : Abi Int32}
    (h : Upholds consumed gives call) (h' : Upholds consumed gives call') :
    Upholds consumed gives (if condition then call else call') := by
  split
  · exact h
  · exact h'

/-- Removing an object removes no other one. -/
theorem sound_kept_withTable (kind : Kind) {handle : Int32} {table : HandleRegistry kind.Value}
    (hsound : state.Sound)
    (h : table.contents = Function.update (state.table kind).contents handle none) :
    (state.withTable kind table).Sound ∧
      Kept (some (kind, handle)) state (state.withTable kind table) := by
  have hcontents : ∀ kind' handle', ((state.withTable kind table).table kind').contents handle' =
      if kind' = kind ∧ handle' = handle then none else (state.table kind').contents handle' := by
    intro kind' handle'
    by_cases hkind : kind' = kind
    · subst hkind
      by_cases hhandle : handle' = handle
      · subst hhandle
        simp [h]
      · simp [h, hhandle]
    · simp [table_withTable_of_ne _ _ hkind, hkind]
  refine ⟨fun kind' handle' value hvalue => ?_, fun kind' handle' value hne hvalue => ?_⟩
  · rw [hcontents] at hvalue
    split at hvalue
    · cases hvalue
    · exact hsound _ _ _ hvalue
  · rw [hcontents, if_neg]
    · exact hvalue
    · rintro ⟨rfl, rfl⟩
      exact hne rfl

theorem Upholds.release (handle : Int32) :
    Upholds (some (kind, handle)) gives (release kind handle) := by
  intro state handle' state' hsound hrun
  cases hrun
  obtain ⟨hsound', hkept⟩ := sound_kept_withTable kind hsound
    (HandleRegistry.contents_erase (state.table kind) handle)
  exact ⟨hsound', hkept, .inl rfl⟩

/-- What is taken out of a table is no longer in it, but still sound. -/
theorem Upholds.take {handle : Int32} {body : kind.Value → Abi Int32}
    (hbody : ∀ value, kind.Sound value → Upholds (some (kind, handle)) gives (body value)) :
    Upholds (some (kind, handle)) gives (Bindings.orNull (Bindings.take kind handle) body) := by
  intro state handle' state' hsound hrun
  obtain ⟨htaken, hcontents⟩ := (state.table kind).take_spec handle
  obtain ⟨hsound', hkept⟩ := sound_kept_withTable kind hsound hcontents
  have hreads : Reads (okOrFail ((state.table kind).take handle).1) kind.Sound := by
    refine .okOrFail fun value hvalue => ?_
    rw [hvalue] at htaken
    exact hsound kind handle value htaken.symm
  obtain ⟨hsound'', hkept', hgiven⟩ := Upholds.orNull hreads hbody _ handle' state' hsound' hrun
  exact ⟨hsound'', hkept.trans hkept', hgiven⟩

theorem Upholds.reboxBuilder {handle : Int32}
    (apply : BlockBuilder → Except CodedError BlockBuilder) :
    Upholds (some (.builder, handle)) .builder (reboxBuilder handle apply) :=
  .take fun _ _ => .storeResult fun _ _ => trivial

theorem Upholds.reboxWith {handle : Int32} {argument : Abi (Option α)}
    (hargument : Reads argument P) (apply : α → BlockBuilder → Except CodedError BlockBuilder) :
    Upholds (some (.builder, handle)) .builder (reboxWith handle argument apply) :=
  .after hargument (.take fun _ _ => .null) fun value _ => .reboxBuilder (apply value)

/-- Storing operations keeps all objects. -/
theorem storeEach_keeps {operations : List Operation} {bytes : Bytes} (hsound : state.Sound)
    (hrun : storeEach operations state = some (bytes, state')) :
    state'.Sound ∧ Kept consumed state state' := by
  induction operations generalizing state bytes with
  | nil =>
    cases hrun
    exact ⟨hsound, .of_table rfl⟩
  | cons operation operations ih =>
    obtain ⟨⟨handle, middle⟩, hstore, hnext⟩ := Option.bind_eq_some_iff.mp hrun
    obtain ⟨⟨rest, last⟩, hrest, hlast⟩ := Option.bind_eq_some_iff.mp hnext
    cases hlast
    have hupholds : Upholds consumed .operation (store .operation operation) :=
      .store .operation trivial
    obtain ⟨hsound', hkept, -⟩ := hupholds state handle middle hsound hstore
    obtain ⟨hsound'', hkept'⟩ := ih hsound' hrest
    exact ⟨hsound'', hkept.trans hkept'⟩

theorem Upholds.keetaLastError (text : CodedError → String) :
    Upholds consumed .bytes (keetaLastError text) := by
  intro state handle state' hsound hrun
  rw [Bindings.keetaLastError] at hrun
  split at hrun
  · exact Upholds.store .bytes trivial state handle state' hsound hrun
  · cases hrun
    exact ⟨hsound, .of_table rfl, .inl rfl⟩

theorem Upholds.keetaStapleFeeSends (staple baseToken : Int32) (priority : Bytes) :
    Upholds consumed .bytes (keetaStapleFeeSends staple baseToken priority) := by
  refine .orNull (.both (.resolve _) (.both (.resolve _) (.resolveHandles _))) fun values _ => ?_
  dsimp only
  split
  · exact .null
  · intro state handle state' hsound hrun
    obtain ⟨⟨handles, middle⟩, hstored, hlast⟩ := Option.bind_eq_some_iff.mp hrun
    obtain ⟨hsound', hkept⟩ := storeEach_keeps hsound hstored
    obtain ⟨hsound'', hkept', hgiven⟩ :=
      Upholds.store .bytes trivial middle handle state' hsound' hlast
    exact ⟨hsound'', hkept.trans hkept', hgiven⟩

theorem sound_default : (State.default : State).Sound := by
  intro kind handle value hvalue
  rw [State.default, HandleRegistry.contents_new] at hvalue
  cases hvalue

end Upholds

/-! ## Runs -/

section Runs

variable [Tlv Tag Asn1Error] [Chrono] [OidCodec] [NumBigint] [Zlib] [BigIntParser]
  (texts : ErrorTexts)

/-- The exported calls that give handles, with the handle they consume and the table of the
handle they give. -/
inductive Exported : Option (Kind × Int32) → Kind → Abi Int32 → Prop
  | fromTexts {kind : Kind} (hkind : kind ∈ [Kind.account, .permissions, .certificate, .bytes])
      (arguments : List Bytes) (parse : List String → Except CodedError kind.Value) :
      Exported none kind (fromTexts kind arguments parse)
  | describe (kind : Kind) (handle : Int32) (text : kind.Value → Except CodedError Bytes) :
      Exported none .bytes (describe kind handle text)
  | lastError (text : CodedError → String) : Exported none .bytes (keetaLastError text)
  | free (kind : Kind) (handle : Int32) : Exported (some (kind, handle)) kind (release kind handle)
  | generateIdentifier (handle : Int32) (kind : Bytes) (previous : Option Bytes) (index : UInt32) :
      Exported none .account (keetaGenerateIdentifier texts handle kind previous index)
  | generateMultisigIdentifier (handle : Int32) (previous : Option Bytes) (index : UInt32) :
      Exported none .account (keetaGenerateMultisigIdentifier texts handle previous index)
  | blockFromHex (value : Bytes) : Exported none .block (keetaBlockFromHex texts value)
  | blockAccount (handle : Int32) : Exported none .account (keetaBlockAccount handle)
  | opSetRep (recipient : Int32) : Exported none .operation (keetaOpSetRep recipient)
  | opSend (recipient : Int32) (amount : Bytes) (token : Int32) (external : Bytes) :
      Exported none .operation (keetaOpSend recipient amount token external)
  | opReceive (sender : Int32) (amount : Bytes) (token : Int32) (isExact : Bool)
      (forward : Int32) :
      Exported none .operation (keetaOpReceive sender amount token isExact forward)
  | opTokenAdminSupply (amount method : Bytes) :
      Exported none .operation (keetaOpTokenAdminSupply amount method)
  | opTokenAdminModifyBalance (token : Int32) (amount method : Bytes) :
      Exported none .operation (keetaOpTokenAdminModifyBalance token amount method)
  | opSetInfo (name description metadata : Bytes) (permissions : Int32) :
      Exported none .operation (keetaOpSetInfo name description metadata permissions)
  | opCreateIdentifier (identifier : Int32) :
      Exported none .operation (keetaOpCreateIdentifier identifier)
  | opCreateMultisig (multisig : Int32) (signers : Bytes) (quorum : UInt32) :
      Exported none .operation (keetaOpCreateMultisig multisig signers quorum)
  | opModifyPermissions (principal permissions : Int32) (method : Bytes) (target : Int32) :
      Exported none .operation (keetaOpModifyPermissions principal permissions method target)
  | opManageCertificateAdd (certificate intermediates : Bytes) :
      Exported none .operation (keetaOpManageCertificateAdd certificate intermediates)
  | opManageCertificateRemove (hash : Bytes) :
      Exported none .operation (keetaOpManageCertificateRemove hash)
  | builderNew : Exported none .builder keetaBuilderNew
  | builderWithVersion (handle : Int32) (version : UInt32) :
      Exported (some (.builder, handle)) .builder (keetaBuilderWithVersion handle version)
  | builderWithNetwork (handle : Int32) (network : Int64) :
      Exported (some (.builder, handle)) .builder (keetaBuilderWithNetwork handle network)
  | builderWithAccount (handle account : Int32) :
      Exported (some (.builder, handle)) .builder (keetaBuilderWithAccount handle account)
  | builderWithSigner (handle account : Int32) :
      Exported (some (.builder, handle)) .builder (keetaBuilderWithSigner handle account)
  | builderWithMultisigSigner (handle multisig : Int32) (signers : Bytes) :
      Exported (some (.builder, handle)) .builder
        (keetaBuilderWithMultisigSigner handle multisig signers)
  | builderWithPrevious (handle : Int32) (previous : Option Bytes) :
      Exported (some (.builder, handle)) .builder (keetaBuilderWithPrevious handle previous)
  | builderAsOpening (handle : Int32) :
      Exported (some (.builder, handle)) .builder (keetaBuilderAsOpening handle)
  | builderWithDate (handle : Int32) (unixMillis : Int64) :
      Exported (some (.builder, handle)) .builder (keetaBuilderWithDate handle unixMillis)
  | builderWithPurpose (handle : Int32) (purpose : Bytes) :
      Exported (some (.builder, handle)) .builder (keetaBuilderWithPurpose handle purpose)
  | builderWithOperation (handle operation : Int32) :
      Exported (some (.builder, handle)) .builder (keetaBuilderWithOperation handle operation)
  | builderBuild (handle : Int32) (clock : Option BlockTime) :
      Exported (some (.builder, handle)) .unsigned (keetaBuilderBuild texts handle clock)
  | unsignedSign (handle : Int32)
      (signatureOf : GenericAccount → Bytes → Except AccountError Bytes) :
      Exported (some (.unsigned, handle)) .block (keetaUnsignedSign texts handle signatureOf)
  | voteFromBytes (bytes : Bytes) : Exported none .vote (keetaVoteFromBytes texts bytes)
  | voteStapleBuild (blocks votes : Bytes) (momentMillis : Int64) :
      Exported none .bytes (keetaVoteStapleBuild texts blocks votes momentMillis)
  | voteStapleNew (blocks votes : Bytes) (momentMillis : Int64) :
      Exported none .staple (keetaVoteStapleNew texts blocks votes momentMillis)
  | stapleFeeSends (staple baseToken : Int32) (priority : Bytes) :
      Exported none .bytes (keetaStapleFeeSends staple baseToken priority)
  | stapleTipFor (staple payer : Int32) : Exported none .bytes (keetaStapleTipFor staple payer)

variable {consumed : Option (Kind × Int32)} {gives : Kind} {call : Abi Int32}

/-- Every exported call keeps the objects sound and behind their handles. -/
theorem upholds_exported (h : Exported texts consumed gives call) :
    Upholds consumed gives call := by
  cases h with
  | fromTexts hkind arguments parse =>
    refine .orNull (.stringsIn arguments) fun _ _ => .storeResult fun _ _ => ?_
    fin_cases hkind <;> trivial
  | describe kind handle text =>
    exact .orNull (.resolve handle) fun _ _ => .storeResult fun _ _ => trivial
  | lastError text => exact .keetaLastError text
  | free kind handle => exact .release handle
  | generateIdentifier handle kind previous index =>
    exact .orNull (.resolve handle) fun _ _ => .orNull (.stringIn kind) fun _ _ =>
      .storeResult fun _ _ => trivial
  | generateMultisigIdentifier handle previous index =>
    exact .orNull (.resolve handle) fun _ _ => .storeResult fun _ _ => trivial
  | blockFromHex value =>
    refine .orNull (.stringIn value) fun value _ => .storeResult fun block hblock => ?_
    obtain ⟨bytes, -, hdecoded⟩ := bind_eq_ok.mp hblock
    exact .decoding (mapError_eq_ok.mp hdecoded)
  | blockAccount handle =>
    exact .orNull (.resolve handle) fun _ _ => .store .account trivial
  | opSetRep recipient => exact .orNull (.resolve recipient) fun _ _ => .store _ trivial
  | opSend recipient amount token external =>
    exact .orNull (.both (.resolve recipient) (.resolve token)) fun _ _ =>
      .orNull (.both (.stringIn amount) (.stringIn external)) fun _ _ =>
        .storeResult fun _ _ => trivial
  | opReceive sender amount token isExact forward =>
    exact .orNull (.both (.resolve sender) (.resolve token)) fun _ _ =>
      .orNull (.stringIn amount) fun _ _ => .orNull (.optionalAccount forward) fun _ _ =>
        .storeResult fun _ _ => trivial
  | opTokenAdminSupply amount method =>
    exact .orNull (.both (.stringIn amount) (.stringIn method)) fun _ _ =>
      .storeResult fun _ _ => trivial
  | opTokenAdminModifyBalance token amount method =>
    exact .orNull (.resolve token) fun _ _ =>
      .orNull (.both (.stringIn amount) (.stringIn method)) fun _ _ =>
        .storeResult fun _ _ => trivial
  | opSetInfo name description metadata permissions =>
    refine .orNull (.both (.stringIn name) (.both (.stringIn description) (.stringIn metadata)))
      fun ⟨_, _, _⟩ _ => ?_
    apply Upholds.ite
    · exact .store .operation trivial
    · exact .orNull (.resolve permissions) fun _ _ => .store .operation trivial
  | opCreateIdentifier identifier => exact .orNull (.resolve identifier) fun _ _ => .store _ trivial
  | opCreateMultisig multisig signers quorum =>
    exact .orNull (.resolve multisig) fun _ _ => .orNull (.resolveHandles signers) fun _ _ =>
      .store _ trivial
  | opModifyPermissions principal permissions method target =>
    refine .orNull (.resolve principal) fun _ _ => .orNull (.resolve permissions) fun _ _ =>
      .orNull (.stringIn method) fun method _ => ?_
    cases adjustMethod method with
    | error error => exact .fail error
    | ok method => exact .orNull (.optionalAccount target) fun _ _ => .store _ trivial
  | opManageCertificateAdd certificate intermediates =>
    exact .orNull (.stringIn certificate) fun _ _ => .orNull (.stringIn intermediates) fun _ _ =>
      .storeResult fun _ _ => trivial
  | opManageCertificateRemove hash =>
    exact .orNull (.stringIn hash) fun _ _ => .storeResult fun _ _ => trivial
  | builderNew => exact .store _ trivial
  | builderWithVersion handle version => exact .reboxBuilder _
  | builderWithNetwork handle network => exact .reboxBuilder _
  | builderWithAccount handle account => exact .reboxWith (.resolve account) _
  | builderWithSigner handle account => exact .reboxWith (.resolve account) _
  | builderWithMultisigSigner handle multisig signers =>
    exact .reboxWith (.both (.resolve multisig) (.resolveHandles signers)) _
  | builderWithPrevious handle previous =>
    exact .reboxWith (.okOrFail (P := fun _ => True) fun _ _ => trivial) _
  | builderAsOpening handle => exact .reboxBuilder _
  | builderWithDate handle unixMillis => exact .reboxBuilder _
  | builderWithPurpose handle purpose => exact .reboxWith (.stringIn purpose) _
  | builderWithOperation handle operation => exact .reboxWith (.resolve operation) _
  | builderBuild handle clock =>
    exact .take fun builder _ => .storeResult fun unsigned hunsigned =>
      ⟨builder, clock, mapError_eq_ok.mp hunsigned⟩
  | unsignedSign handle signatureOf =>
    exact .take fun unsigned _ => .storeResult fun block hblock =>
      .signing (mapError_eq_ok.mp hblock)
  | voteFromBytes bytes =>
    exact .storeResult fun vote hvote => ⟨bytes, mapError_eq_ok.mp hvote⟩
  | voteStapleBuild blocks votes momentMillis =>
    exact .orNull (.both (.resolveHandles blocks) (.resolveHandles votes)) fun _ _ =>
      .storeResult fun _ _ => trivial
  | voteStapleNew blocks votes momentMillis =>
    refine .orNull (.both (.resolveHandles blocks) (.resolveHandles votes)) fun values hvalues =>
      .storeResult fun staple hstaple => ?_
    obtain ⟨moment, -, hbuilt⟩ := bind_eq_ok.mp hstaple
    exact ⟨values.1, values.2, moment, hvalues.1, hvalues.2, mapError_eq_ok.mp hbuilt⟩
  | stapleFeeSends staple baseToken priority => exact .keetaStapleFeeSends staple baseToken priority
  | stapleTipFor staple payer =>
    refine .orNull (.both (.resolve staple) (.resolve payer)) fun values _ => ?_
    dsimp only
    split
    · exact .store _ trivial
    · exact .null

/-- A call that was made, with the handle it gave. -/
structure Made where
  consumed : Option (Kind × Int32)
  gives : Kind
  handle : Int32

inductive Makes : State → Made → State → Prop
  | call {state state' : State} {consumed : Option (Kind × Int32)} {gives : Kind}
      {call : Abi Int32} {handle : Int32} (h : Exported texts consumed gives call)
      (hrun : call state = some (handle, state')) : Makes state ⟨consumed, gives, handle⟩ state'

variable {state state' last : State} {made : Made} {calls : List Made}

theorem upholds_runs (hsound : state.Sound) (h : Runs (Makes texts) state calls last) :
    last.Sound ∧ ∀ kind handle value, (∀ call ∈ calls, call.consumed ≠ some (kind, handle)) →
      (state.table kind).contents handle = some value →
      (last.table kind).contents handle = some value := by
  induction h with
  | nil => exact ⟨hsound, fun _ _ _ _ hvalue => hvalue⟩
  | cons hmade _ ih =>
    obtain ⟨hexported, hrun⟩ := hmade
    obtain ⟨hsound', hkept, -⟩ := upholds_exported texts hexported _ _ _ hsound hrun
    obtain ⟨hsound'', hkept'⟩ := ih hsound'
    refine ⟨hsound'', fun kind handle value hcalls hvalue => ?_⟩
    obtain ⟨hcall, hrest⟩ := List.forall_mem_cons.mp hcalls
    exact hkept' kind handle value hrest (hkept kind handle value hcall hvalue)

/-- **Blocks are checked, votes verified and staples keep their invariant, in whatever order a
guest makes its calls.** -/
theorem objects_are_sound (h : Runs (Makes texts) State.default calls last) :
    (∀ handle (block : Block), (last.table .block).contents handle = some block →
      ∃ bytes, block.Checked bytes) ∧
    (∀ handle (unsigned : UnsignedBlock),
      (last.table .unsigned).contents handle = some unsigned →
      ∃ data, UnsignedBlock.ofData data = .ok unsigned) ∧
    (∀ handle (vote : Vote), (last.table .vote).contents handle = some vote →
      ∃ bytes, Vote.verify bytes = .ok vote) ∧
    ∀ handle (staple : VoteStaple), (last.table .staple).contents handle = some staple →
      (∃ moment, staple.Invariant .default moment) ∧
      (∀ block ∈ staple.blocks, ∃ bytes, block.Checked bytes) ∧
      ∀ vote ∈ staple.votes, ∃ bytes, Vote.verify bytes = .ok vote := by
  have hsound := (upholds_runs texts sound_default h).1
  refine ⟨fun handle block hblock => ?_, fun handle unsigned hunsigned => ?_,
    fun handle vote hvote => hsound .vote handle vote hvote, fun handle staple hstaple => ?_⟩
  · exact (hsound .block handle block hblock : block.Obtained).checked
  · obtain ⟨builder, clock, hbuilt⟩ := hsound .unsigned handle unsigned hunsigned
    obtain ⟨_, -, _, -, _, -, _, -, hdata⟩ := by
      simpa only [BlockBuilder.build, bind_eq_ok] using hbuilt
    exact ⟨_, hdata⟩
  · obtain ⟨blocks, votes, moment, hblocks, hvotes, hbuilt⟩ := hsound .staple handle staple hstaple
    obtain ⟨hstaple, -, hperm, hsorted, -⟩ := VoteStaple.tryNew_eq_ok.mp hbuilt
    refine ⟨⟨moment, hstaple.invariant⟩, fun block hblock => ?_, fun vote hvote => ?_⟩
    · exact (hblocks block (hperm.mem_iff.mp hblock)).checked
    · rw [hsorted, (sortVotes_perm votes).mem_iff] at hvote
      exact hvotes vote hvote

/-- **A handle keeps its object until it is freed or consumed.** -/
theorem handles_last (hfirst : Runs (Makes texts) State.default calls state)
    (hmade : Makes texts state made state') (hhandle : made.handle ≠ 0) {later : List Made}
    (hlater : Runs (Makes texts) state' later last)
    (hkept : ∀ call ∈ later, call.consumed ≠ some (made.gives, made.handle)) :
    0 < made.handle ∧ ∃ value, (state'.table made.gives).contents made.handle = some value ∧
      (last.table made.gives).contents made.handle = some value := by
  obtain ⟨hexported, hrun⟩ := hmade
  have hsound := (upholds_runs texts sound_default hfirst).1
  obtain ⟨hsound', -, hgiven⟩ := upholds_exported texts hexported _ _ _ hsound hrun
  obtain ⟨hpos, value, hvalue⟩ := hgiven.resolve_left hhandle
  exact ⟨hpos, value, hvalue,
    (upholds_runs texts hsound' hlater).2 _ _ value hkept hvalue⟩

end Runs

end P1

section Samples

open scoped Reference Asn1.Reference

/-- Error texts of the samples. -/
def Sample.texts : ErrorTexts where
  block _ := ⟨"BLOCK", "block"⟩
  vote _ := ⟨"VOTE", "vote"⟩
  account _ := "account"

/-- A guest loads a vote, begins a block, and gives the builder up with a wrong version. -/
theorem Sample.exists_runs :
    ∃ vote first last, Vote.verify vote.serialized = .ok vote ∧
      Makes Sample.texts State.default ⟨none, .vote, 1⟩ first ∧
      (first.table .vote).contents 1 = some vote ∧
      Runs (Makes Sample.texts) first
        [⟨none, .builder, 1⟩, ⟨some (.builder, 1), .builder, 0⟩] last := by
  obtain ⟨_, vote, _, _, -, hvote, -⟩ := KeetaNode.Sample.exists_staple
  have hload : keetaVoteFromBytes Sample.texts vote.serialized State.default =
      store .vote vote State.default := by
    rw [keetaVoteFromBytes, voteFromBytes, hvote]
    rfl
  exact ⟨vote, _, _, hvote, .call (.voteFromBytes _) (hload.trans rfl), rfl,
    .cons (.call .builderNew rfl) (.cons (.call (.builderWithVersion 1 3) rfl) (.nil _))⟩

theorem objects_are_sound_sample :
    ∃ calls last vote, Runs (Makes Sample.texts) State.default calls last ∧
      (last.table .vote).contents 1 = some vote ∧ ∃ bytes, Vote.verify bytes = .ok vote := by
  obtain ⟨vote, first, last, -, hmade, hvote, -⟩ := Sample.exists_runs
  have hrun : Runs (Makes Sample.texts) State.default [⟨none, .vote, 1⟩] first :=
    .cons hmade (.nil _)
  exact ⟨_, first, vote, hrun, hvote, (objects_are_sound Sample.texts hrun).2.2.1 1 vote hvote⟩

theorem handles_last_sample :
    ∃ state last vote, Makes Sample.texts State.default ⟨none, .vote, 1⟩ state ∧
      Runs (Makes Sample.texts) state
        [⟨none, .builder, 1⟩, ⟨some (.builder, 1), .builder, 0⟩] last ∧
      (last.table .vote).contents 1 = some vote := by
  obtain ⟨_, state, last, -, hmade, -, hlater⟩ := Sample.exists_runs
  obtain ⟨-, vote, -, hvote⟩ :=
    handles_last Sample.texts (.nil _) hmade (by decide) hlater (by decide)
  exact ⟨state, last, vote, hmade, hlater, hvote⟩

end Samples

end KeetaNode.Bindings
