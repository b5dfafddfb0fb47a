import KeetaNode.Client.Builder
import KeetaNode.Account.Derivation

/-!
# What a group renders to

Rendering sorts the operations of a group by kind. Sends without external data are added up
by recipient and token, transfers of nothing disappear, and everything else is kept as it
was queued.

- `keetanetwork-client/src/builder.rs` (`RenderBuckets`, `render_ops`)

## Main results

- `pushOp_cases`: what staging one operation can do
- `renderOps_conserves`: nothing is lost, doubled or paid to somebody else
-/

namespace KeetaNode.Client

open ByteCodec

section Entries

/-! ## Entries of a map -/

variable {κ ν : Type} [LinearOrder κ] {key : κ} {alter : Option ν → ν}

theorem forall_mem_alterEntry {P : κ × ν → Prop} {entries : List (κ × ν)}
    (hentries : ∀ e ∈ entries, P e) (hnone : P (key, alter none))
    (hsome : ∀ value, P (key, value) → P (key, alter (some value))) :
    ∀ e ∈ alterEntry key alter entries, P e := by
  induction entries with
  | nil => simpa [alterEntry] using hnone
  | cons entry entries ih =>
    obtain ⟨other, value⟩ := entry
    obtain ⟨hfirst, hrest⟩ := List.forall_mem_cons.mp hentries
    unfold alterEntry
    split
    · exact List.forall_mem_cons.mpr ⟨hnone, hentries⟩
    -- the new entry goes in front, into this one, or further on
    · split <;> rename_i hkey
      · subst hkey
        exact List.forall_mem_cons.mpr ⟨hsome value hfirst, hrest⟩
      · exact List.forall_mem_cons.mpr ⟨hfirst, ih hrest⟩

/-- The keys stay in order. -/
theorem sorted_alterEntry {entries : List (κ × ν)}
    (h : (entries.map Prod.fst).Pairwise (· < ·)) :
    ((alterEntry key alter entries).map Prod.fst).Pairwise (· < ·) := by
  induction entries with
  | nil => simp [alterEntry]
  | cons entry entries ih =>
    obtain ⟨other, value⟩ := entry
    obtain ⟨hfirst, hrest⟩ := List.pairwise_cons.mp h
    unfold alterEntry
    split <;> rename_i hlt
    · refine List.pairwise_cons.mpr ⟨fun k hk => ?_, h⟩
      rcases List.mem_cons.mp hk with rfl | hk
      · exact hlt
      · exact hlt.trans (hfirst k hk)
    · split <;> rename_i hkey
      · subst hkey
        exact List.pairwise_cons.mpr ⟨hfirst, hrest⟩
      · refine List.pairwise_cons.mpr ⟨fun k hk => ?_, ih hrest⟩
        -- an inserted key is not below the entries it was taken past
        have hall : ∀ e ∈ alterEntry key alter entries, other < e.1 := by
          refine forall_mem_alterEntry (fun e he => hfirst e.1 (List.mem_map_of_mem he)) ?_ ?_
          · exact lt_of_le_of_ne (not_lt.mp hlt) (Ne.symm hkey)
          · exact fun _ hless => hless
        obtain ⟨e, he, rfl⟩ := List.mem_map.mp hk
        exact hall e he

/-- A sum over the entries changes by what the altered entry changes by. -/
theorem sum_alterEntry {f : κ × ν → ℤ} {d : ℤ} {entries : List (κ × ν)}
    (hnone : f (key, alter none) = d)
    (hsome : ∀ value, (key, value) ∈ entries → f (key, alter (some value)) = f (key, value) + d) :
    ((alterEntry key alter entries).map f).sum = (entries.map f).sum + d := by
  induction entries with
  | nil => simp [alterEntry, hnone]
  | cons entry entries ih =>
    obtain ⟨other, value⟩ := entry
    unfold alterEntry
    split
    -- a new entry adds all it holds, an altered one the difference
    · simp only [List.map_cons, List.sum_cons, hnone]
      omega
    · split <;> rename_i hkey
      · subst hkey
        simp only [List.map_cons, List.sum_cons, hsome value List.mem_cons_self]
        omega
      · have hrest := ih fun v hv => hsome v (List.mem_cons_of_mem _ hv)
        simp only [List.map_cons, List.sum_cons, hrest]
        omega

/-- Where keys are distinct, one element has a given key. -/
private theorem filter_eq_singleton {α β : Type} [DecidableEq β] {f : α → β} {as : List α} {a : α}
    (hnodup : (as.map f).Nodup) (ha : a ∈ as) : (as.filter fun x => f x = f a) = [a] := by
  induction as with
  | nil => cases ha
  | cons b as ih =>
    obtain ⟨hb, hnodup⟩ := List.nodup_cons.mp hnodup
    -- the element is this one, and none behind shares its key, or it is behind
    rcases List.mem_cons.mp ha with rfl | ha
    · rw [List.filter_cons_of_pos (by simp), List.filter_eq_nil_iff.mpr]
      intro x hx hsame
      exact hb (List.mem_map.mpr ⟨x, hx, by simpa using hsame⟩)
    · rw [List.filter_cons_of_neg, ih hnodup ha]
      intro hsame
      exact hb (List.mem_map.mpr ⟨a, ha, by simpa using Eq.symm (of_decide_eq_true hsame)⟩)

end Entries

/-! ## Kinds -/

/-- The kinds of operations rendering tells apart. -/
inductive OperationKind where
  | create | externalSend | aggregatedSend | receive | info | setRep | supply | certificate
  | balance | permission | raw
  deriving DecidableEq, Repr

/-- The order of the kinds in a block. -/
def OperationKind.renderOrder : List OperationKind :=
  [create, externalSend, aggregatedSend, receive, info, setRep, supply, certificate, balance,
    permission, raw]

section Kinds

variable [Crypto]

/-- The kind of a queued operation; a transfer of nothing has none. -/
def PendingOp.kind : PendingOp → Option OperationKind
  | .createIdentifier _ _ _ => some .create
  | .send _ _ amount external =>
    if amount = 0 then none
    else if external.isSome then some .externalSend else some .aggregatedSend
  | .receive _ _ amount _ _ => if amount = 0 then none else some .receive
  | .setInfo _ => some .info
  | .setRep _ => some .setRep
  | .modifyTokenSupply _ _ => some .supply
  | .manageCertificate _ => some .certificate
  | .modifyTokenBalance _ _ _ => some .balance
  | .modifyPermissions _ => some .permission
  | .raw _ => some .raw

/-- An operation has the fields a queued one was given, its operands being what the handles
hold. -/
inductive RendersTo (handles : Handles) : PendingOp → Operation → Prop
  | createIdentifier {keyType : KeyPairType} {handle : PendingAccount}
      {createArguments : Option IdentifierCreateArguments} {identifier : GenericAccount}
      (hkind : identifier.keyType = keyType) :
      RendersTo handles (.createIdentifier keyType createArguments handle)
        (.createIdentifier { identifier, createArguments })
  | send {recipient token : AccountOrPending} {r t : GenericAccount} {amount : Int}
      {external : Option String} (hr : recipient.resolve handles = .ok r)
      (ht : token.resolve handles = .ok t) :
      RendersTo handles (.send recipient token amount external)
        (.send { recipient := r, amount, token := t, external })
  | receive {sender token : AccountOrPending} {forward : Option AccountOrPending}
      {s t : GenericAccount} {f : Option GenericAccount} {amount : Int} {isExact : Bool}
      (hs : sender.resolve handles = .ok s) (ht : token.resolve handles = .ok t)
      (hf : forward.mapM (AccountOrPending.resolve handles) = .ok f) :
      RendersTo handles (.receive sender token amount isExact forward)
        (.receive { amount, token := t, sender := s, isExact, forward := f })
  | setInfo {info : SetInfo} : RendersTo handles (.setInfo info) (.setInfo info)
  | setRep {recipient : GenericAccount} :
      RendersTo handles (.setRep recipient) (.setRep { recipient })
  | modifyTokenSupply {amount : Int} {method : AdjustMethod} :
      RendersTo handles (.modifyTokenSupply amount method) (.tokenAdminSupply { amount, method })
  | manageCertificate {certificate : ManageCertificate} :
      RendersTo handles (.manageCertificate certificate) (.manageCertificate certificate)
  | modifyTokenBalance {token : AccountOrPending} {t : GenericAccount} {amount : Int}
      {method : AdjustMethod} (ht : token.resolve handles = .ok t) :
      RendersTo handles (.modifyTokenBalance token amount method)
        (.tokenAdminModifyBalance { token := t, amount, method })
  | modifyPermissions {permissions : ModifyPermissions} :
      RendersTo handles (.modifyPermissions permissions) (.modifyPermissions permissions)
  | raw {operation : Operation} : RendersTo handles (.raw operation) operation

/-- A create that is queued, and the handle it fills. -/
structure QueuedCreate where
  keyType : KeyPairType
  createArguments : Option IdentifierCreateArguments
  handle : PendingAccount
  deriving DecidableEq

def PendingOp.create : PendingOp → Option QueuedCreate
  | .createIdentifier keyType createArguments handle => some { keyType, createArguments, handle }
  | _ => none

/-- What a queued operation sends to a recipient in a token without external data. -/
def PendingOp.plainAmount (handles : Handles) (recipient token : GenericAccount) :
    PendingOp → Int
  | .send r t amount none =>
    if r.resolve handles = .ok recipient ∧ t.resolve handles = .ok token then amount else 0
  | _ => 0

/-- Only the sends that are added up count. -/
theorem plainAmount_of_kind {op : PendingOp} {handles : Handles} {recipient token : GenericAccount}
    (h : op.kind ≠ some .aggregatedSend) : op.plainAmount handles recipient token = 0 := by
  cases op with
  | send r t amount external =>
    cases external with
    | none =>
      -- a plain send is added up unless it sends nothing
      have hzero : amount = 0 := by
        by_contra hamount
        exact h (by simp [PendingOp.kind, hamount])
      simp [PendingOp.plainAmount, hzero]
    | some external => rfl
  | _ => rfl

/-! ## Handles only grow -/

/-- Handles keep what they hold. -/
def Extends (handles handles' : Handles) : Prop :=
  ∀ handle account, handles.lookup handle = some account → handles'.lookup handle = some account

theorem Extends.refl (handles : Handles) : Extends handles handles := fun _ _ h => h

theorem Extends.trans {a b c : Handles} (hab : Extends a b) (hbc : Extends b c) : Extends a c :=
  fun handle account h => hbc handle account (hab handle account h)

theorem extends_fill (pending : PendingAccount) (account : GenericAccount) (handles : Handles) :
    Extends handles (pending.fill account handles) := by
  intro handle held hheld
  unfold PendingAccount.fill
  split <;> rename_i hfilled
  · exact hheld
  · rw [List.lookup_cons]
    -- the handle that is filled held nothing
    have hne : handle ≠ pending := by
      rintro rfl
      rw [hfilled] at hheld
      cases hheld
    rw [beq_false_of_ne hne]
    exact hheld

/-- What an operation does to the handles: only a create fills one. -/
inductive Fills (handles : Handles) : PendingOp → Handles → Prop
  | kept {op : PendingOp} (hop : op.create = none) : Fills handles op handles
  | filled {keyType : KeyPairType} {createArguments : Option IdentifierCreateArguments}
      {handle : PendingAccount} {identifier : GenericAccount} :
      Fills handles (.createIdentifier keyType createArguments handle)
        (handle.fill identifier handles)

theorem Fills.extends {handles handles' : Handles} {op : PendingOp}
    (h : Fills handles op handles') : Extends handles handles' := by
  cases h with
  | kept => exact .refl handles
  | filled => exact extends_fill _ _ handles

theorem AccountOrPending.resolve_extends {operand : AccountOrPending} {handles handles' : Handles}
    {account : GenericAccount} (hgrow : Extends handles handles')
    (h : operand.resolve handles = .ok account) : operand.resolve handles' = .ok account := by
  cases operand with
  | resolved known => exact h
  | pending handle =>
    simp only [resolve, PendingAccount.get] at h ⊢
    split at h <;> rename_i hheld
    · rw [hgrow handle _ hheld]
      exact h
    · cases h

theorem mapM_resolve_extends {forward : Option AccountOrPending} {handles handles' : Handles}
    {account : Option GenericAccount} (hgrow : Extends handles handles')
    (h : forward.mapM (AccountOrPending.resolve handles) = .ok account) :
    forward.mapM (AccountOrPending.resolve handles') = .ok account := by
  cases forward with
  | none => exact h
  | some operand =>
    simp only [Option.mapM_some, map_eq_ok] at h ⊢
    obtain ⟨held, hheld, rfl⟩ := h
    exact ⟨held, AccountOrPending.resolve_extends hgrow hheld, rfl⟩

theorem RendersTo.extends {op : PendingOp} {operation : Operation} {handles handles' : Handles}
    (hgrow : Extends handles handles') (h : RendersTo handles op operation) :
    RendersTo handles' op operation := by
  cases h with
  | createIdentifier hkind => exact .createIdentifier hkind
  | send hr ht =>
    exact .send (AccountOrPending.resolve_extends hgrow hr)
      (AccountOrPending.resolve_extends hgrow ht)
  | receive hs ht hf =>
    exact .receive (AccountOrPending.resolve_extends hgrow hs)
      (AccountOrPending.resolve_extends hgrow ht) (mapM_resolve_extends hgrow hf)
  | setInfo => exact .setInfo
  | setRep => exact .setRep
  | modifyTokenSupply => exact .modifyTokenSupply
  | manageCertificate => exact .manageCertificate
  | modifyTokenBalance ht =>
    exact .modifyTokenBalance (AccountOrPending.resolve_extends hgrow ht)
  | modifyPermissions => exact .modifyPermissions
  | raw => exact .raw

end Kinds

section Buckets

variable [Crypto]

/-! ## Buckets by kind -/

def AggregatedSend.toSend (aggregated : AggregatedSend) : Send where
  recipient := aggregated.recipient
  amount := aggregated.amount
  token := aggregated.token
  external := none

namespace RenderBuckets

/-- The aggregated sends of something. -/
def aggregated (buckets : RenderBuckets) : List Send :=
  (buckets.aggregatedSends.filter fun entry => entry.2.amount ≠ 0).map fun entry => entry.2.toSend

/-- The operations of a kind. -/
def bucket (buckets : RenderBuckets) : OperationKind → List Operation
  | .create => buckets.creates
  | .externalSend => buckets.externalSends
  | .aggregatedSend => buckets.aggregated.map .send
  | .receive => buckets.receives
  | .info => buckets.info
  | .setRep => buckets.setRep
  | .supply => buckets.supply
  | .certificate => buckets.certificates
  | .balance => buckets.balance
  | .permission => buckets.permissions
  | .raw => buckets.raw

/-- An operation staged behind the others of its kind. -/
def stage (buckets : RenderBuckets) (operation : Operation) : OperationKind → RenderBuckets
  | .create => { buckets with creates := buckets.creates ++ [operation] }
  | .externalSend => { buckets with externalSends := buckets.externalSends ++ [operation] }
  | .aggregatedSend => buckets
  | .receive => { buckets with receives := buckets.receives ++ [operation] }
  | .info => { buckets with info := buckets.info ++ [operation] }
  | .setRep => { buckets with setRep := buckets.setRep ++ [operation] }
  | .supply => { buckets with supply := buckets.supply ++ [operation] }
  | .certificate => { buckets with certificates := buckets.certificates ++ [operation] }
  | .balance => { buckets with balance := buckets.balance ++ [operation] }
  | .permission => { buckets with permissions := buckets.permissions ++ [operation] }
  | .raw => { buckets with raw := buckets.raw ++ [operation] }

variable {buckets : RenderBuckets} {operation : Operation} {kind : OperationKind}

theorem intoOperations_eq : buckets.intoOperations =
    OperationKind.renderOrder.flatMap buckets.bucket := by
  simp [intoOperations, OperationKind.renderOrder, bucket, aggregated, AggregatedSend.toSend,
    Function.comp_def, List.append_assoc]

theorem bucket_stage_self (hkind : kind ≠ .aggregatedSend) :
    (buckets.stage operation kind).bucket kind = buckets.bucket kind ++ [operation] := by
  cases kind with
  | aggregatedSend => exact absurd rfl hkind
  | _ => rfl

theorem bucket_stage_of_ne {other : OperationKind} (hne : other ≠ kind) :
    (buckets.stage operation kind).bucket other = buckets.bucket other := by
  cases kind <;> cases other <;> first | rfl | exact absurd rfl hne

@[simp] theorem aggregatedSends_stage :
    (buckets.stage operation kind).aggregatedSends = buckets.aggregatedSends := by
  cases kind <;> rfl

/-- The entry of a recipient and token after one more send. -/
def addSend (recipient token : GenericAccount) (amount : Int) (entry : Option AggregatedSend) :
    AggregatedSend :=
  { entry.getD { recipient, token, amount := 0 } with
    amount := (entry.getD { recipient, token, amount := 0 }).amount + amount }

def addAggregated (buckets : RenderBuckets) (recipient token : GenericAccount) (amount : Int) :
    RenderBuckets :=
  { buckets with
    aggregatedSends := alterEntry (toLex (recipient.toString, token.toString))
      (addSend recipient token amount) buckets.aggregatedSends }

theorem bucket_addAggregated {recipient token : GenericAccount} {amount : Int}
    (hkind : kind ≠ .aggregatedSend) :
    (buckets.addAggregated recipient token amount).bucket kind = buckets.bucket kind := by
  cases kind with
  | aggregatedSend => exact absurd rfl hkind
  | _ => rfl

/-! ## One operation -/

/-- What staging one operation comes to. -/
inductive Stages (handles' : Handles) (buckets : RenderBuckets) :
    PendingOp → RenderBuckets → Prop
  | dropped {op : PendingOp} (hkind : op.kind = none) : Stages handles' buckets op buckets
  | staged {op : PendingOp} {kind : OperationKind} {operation : Operation}
      (hkind : op.kind = some kind) (hne : kind ≠ .aggregatedSend)
      (hrenders : RendersTo handles' op operation) :
      Stages handles' buckets op (buckets.stage operation kind)
  | added {recipient token : AccountOrPending} {r t : GenericAccount} {amount : Int}
      (hamount : amount ≠ 0) (hr : recipient.resolve handles' = .ok r)
      (ht : token.resolve handles' = .ok t) :
      Stages handles' buckets (.send recipient token amount none)
        (buckets.addAggregated r t amount)

theorem pushCreate_eq_ok {group : Group} {derivePrevious : Option BlockHash}
    {keyType : KeyPairType} {createArguments : Option IdentifierCreateArguments}
    {handle : PendingAccount} {handles handles' : Handles} {buckets' : RenderBuckets} :
    buckets.pushCreate group derivePrevious keyType createArguments handle handles =
        .ok (handles', buckets') ↔
      ∃ identifier, group.account.generateIdentifier keyType derivePrevious
          (UInt32.ofNat buckets.creates.length) = .ok identifier ∧
        handles' = handle.fill identifier handles ∧
        buckets' = buckets.stage (.createIdentifier { identifier, createArguments }) .create := by
  simp only [pushCreate, bind_eq_ok, mapError_eq_ok, pure_eq_ok, Except.ok.injEq, Prod.mk.injEq,
    stage]
  constructor
  · rintro ⟨identifier, hidentifier, rfl, rfl⟩
    exact ⟨identifier, hidentifier, rfl, rfl⟩
  · rintro ⟨identifier, hidentifier, rfl, rfl⟩
    exact ⟨identifier, hidentifier, rfl, rfl⟩

/-- **What one operation does**: it fills its handle if it is a create, and is dropped, staged by
its kind or added to the send of its recipient and token. -/
theorem pushOp_cases {group : Group} {derivePrevious : Option BlockHash}
    {handles handles' : Handles} {buckets' : RenderBuckets} {op : PendingOp}
    (h : pushOp group derivePrevious (handles, buckets) op = .ok (handles', buckets')) :
    Fills handles op handles' ∧ Stages handles' buckets op buckets' := by
  cases op with
  | createIdentifier keyType createArguments handle =>
    obtain ⟨identifier, hidentifier, rfl, rfl⟩ := pushCreate_eq_ok.mp h
    obtain ⟨hkind, -⟩ := GenericAccount.generateIdentifier_eq_ok hidentifier
    exact ⟨.filled,
      .staged rfl (by decide) (.createIdentifier hkind)⟩
  -- a send of nothing is dropped, and external data keep it from being added up
  | send recipient token amount external =>
    by_cases hamount : amount = 0
    · simp only [pushOp, hamount, ne_eq, not_true, if_false] at h
      cases h
      exact ⟨.kept rfl, .dropped (by simp [PendingOp.kind, hamount])⟩
    · simp only [pushOp, hamount, ne_eq, not_false_eq_true, if_true, pushSend, bind_eq_ok] at h
      obtain ⟨pushed, ⟨r, hr, t, ht, hpushed⟩, h⟩ := h
      cases h
      refine ⟨.kept rfl, ?_⟩
      cases external with
      | none =>
        cases hpushed
        exact .added hamount hr ht
      | some external =>
        cases hpushed
        have hkind : (PendingOp.send recipient token amount (some external)).kind =
            some .externalSend := by
          simp [PendingOp.kind, hamount]
        exact .staged hkind (by decide) (.send hr ht)
  | receive sender token amount isExact forward =>
    by_cases hamount : amount = 0
    · simp only [pushOp, hamount, ne_eq, not_true, if_false] at h
      cases h
      exact ⟨.kept rfl, .dropped (by simp [PendingOp.kind, hamount])⟩
    · simp only [pushOp, hamount, ne_eq, not_false_eq_true, if_true, pushReceive, bind_eq_ok] at h
      obtain ⟨pushed, ⟨s, hs, t, ht, f, hf, hpushed⟩, h⟩ := h
      cases h
      cases hpushed
      have hkind : (PendingOp.receive sender token amount isExact forward).kind =
          some .receive := by
        simp [PendingOp.kind, hamount]
      exact ⟨.kept rfl, .staged hkind (by decide) (.receive hs ht hf)⟩
  -- the kinds below are staged whatever they hold
  | modifyTokenBalance token amount method =>
    simp only [pushOp, bind_eq_ok] at h
    obtain ⟨t, ht, h⟩ := h
    cases h
    exact ⟨.kept rfl, .staged rfl (by decide) (.modifyTokenBalance ht)⟩
  | setRep recipient =>
    cases h
    exact ⟨.kept rfl, .staged rfl (by decide) .setRep⟩
  | setInfo info =>
    cases h
    exact ⟨.kept rfl, .staged rfl (by decide) .setInfo⟩
  | modifyPermissions permissions =>
    cases h
    exact ⟨.kept rfl, .staged rfl (by decide) .modifyPermissions⟩
  | modifyTokenSupply amount method =>
    cases h
    exact ⟨.kept rfl, .staged rfl (by decide) .modifyTokenSupply⟩
  | manageCertificate certificate =>
    cases h
    exact ⟨.kept rfl, .staged rfl (by decide) .manageCertificate⟩
  | raw operation =>
    cases h
    exact ⟨.kept rfl, .staged rfl (by decide) .raw⟩

/-! ## All operations -/

variable {group : Group} {derivePrevious : Option BlockHash} {handles final : Handles}
  {buckets' : RenderBuckets} {ops : List PendingOp}

/-- Every bucket but that of the aggregated sends receives the operations of its kind, in
order. -/
theorem bucket_foldlM
    (h : ops.foldlM (pushOp group derivePrevious) (handles, buckets) = .ok (final, buckets')) :
    Extends handles final ∧ ∀ kind, kind ≠ .aggregatedSend → ∃ rendered,
      buckets'.bucket kind = buckets.bucket kind ++ rendered ∧
        List.Forall₂ (RendersTo final) (ops.filter fun op => op.kind = some kind) rendered := by
  induction ops generalizing handles buckets with
  | nil =>
    cases h
    exact ⟨.refl _, fun kind _ => ⟨[], by simp, .nil⟩⟩
  | cons op ops ih =>
    obtain ⟨⟨handles₁, buckets₁⟩, hop, hops⟩ := foldlM_cons_eq_ok.mp h
    obtain ⟨hfills, hstages⟩ := pushOp_cases hop
    obtain ⟨hrest, hbuckets⟩ := ih hops
    refine ⟨hfills.extends.trans hrest, fun kind hne => ?_⟩
    obtain ⟨rendered, hbucket, hrendered⟩ := hbuckets kind hne
    cases hstages with
    | dropped hkind =>
      rw [List.filter_cons_of_neg (by simp [hkind])]
      exact ⟨rendered, hbucket, hrendered⟩
    | @staged _ other operation hkind hother hrenders =>
      -- the operation goes behind those of its own kind only
      by_cases hsame : other = kind
      · subst hsame
        rw [bucket_stage_self hother, List.append_assoc] at hbucket
        rw [List.filter_cons_of_pos (by simp [hkind])]
        exact ⟨operation :: rendered, hbucket, .cons (hrenders.extends hrest) hrendered⟩
      · rw [bucket_stage_of_ne (Ne.symm hsame)] at hbucket
        rw [List.filter_cons_of_neg (by simpa [hkind] using hsame)]
        exact ⟨rendered, hbucket, hrendered⟩
    | added hamount hr ht =>
      -- a send that is added up changes the bucket of the aggregated sends only
      rw [bucket_addAggregated hne] at hbucket
      rw [List.filter_cons_of_neg (by simpa [PendingOp.kind, hamount] using Ne.symm hne)]
      exact ⟨rendered, hbucket, hrendered⟩

/-- A send that is added up has had its operands resolved. -/
theorem resolved_of_foldlM
    (h : ops.foldlM (pushOp group derivePrevious) (handles, buckets) = .ok (final, buckets'))
    {recipient token : AccountOrPending} {amount : Int}
    (hmem : .send recipient token amount none ∈ ops) (hamount : amount ≠ 0) :
    ∃ r t, recipient.resolve final = .ok r ∧ token.resolve final = .ok t := by
  induction ops generalizing handles buckets with
  | nil => cases hmem
  | cons op ops ih =>
    obtain ⟨⟨handles₁, buckets₁⟩, hop, hops⟩ := foldlM_cons_eq_ok.mp h
    rcases List.mem_cons.mp hmem with rfl | hmem
    · obtain ⟨-, hstages⟩ := pushOp_cases hop
      obtain ⟨hgrow, -⟩ := bucket_foldlM hops
      cases hstages with
      -- the send is of something and without external data, so that it is added up
      | dropped hkind => simp [PendingOp.kind, hamount] at hkind
      | staged hkind hne _ =>
        simp only [PendingOp.kind, hamount, if_false, Option.isSome_none, Bool.false_eq_true,
          Option.some.injEq] at hkind
        exact absurd hkind.symm hne
      | added _ hr ht =>
        exact ⟨_, _, AccountOrPending.resolve_extends hgrow hr,
          AccountOrPending.resolve_extends hgrow ht⟩
    · exact ih hops hmem

/-- The entries are in the order of their keys, which are the addresses of their recipient
and token. -/
structure WellKeyed (entries : List ((String ×ₗ String) × AggregatedSend)) : Prop where
  sorted : (entries.map Prod.fst).Pairwise (· < ·)
  keyed : ∀ entry ∈ entries,
    entry.1 = toLex (entry.2.recipient.toString, entry.2.token.toString)

/-- What an entry sends to a recipient in a token. -/
def entryAmount (recipient token : GenericAccount) (entry : (String ×ₗ String) × AggregatedSend) :
    Int :=
  if entry.2.recipient = recipient ∧ entry.2.token = token then entry.2.amount else 0

theorem wellKeyed_addAggregated {recipient token : GenericAccount} {amount : Int}
    (h : WellKeyed buckets.aggregatedSends) :
    WellKeyed (buckets.addAggregated recipient token amount).aggregatedSends where
  sorted := sorted_alterEntry h.sorted
  keyed := forall_mem_alterEntry h.keyed rfl fun _ hvalue => hvalue

/-- One more send counts for its recipient and token only. -/
theorem sum_addAggregated [LawfulCrypto] {r t : GenericAccount} {amount : Int}
    (h : WellKeyed buckets.aggregatedSends) (recipient token : GenericAccount) :
    ((buckets.addAggregated r t amount).aggregatedSends.map (entryAmount recipient token)).sum =
      (buckets.aggregatedSends.map (entryAmount recipient token)).sum +
        if r = recipient ∧ t = token then amount else 0 := by
  apply sum_alterEntry
  · simp [entryAmount, addSend]
  · intro value hvalue
    -- an entry found under the key is for the same recipient and token
    have hkey := congrArg ofLex (h.keyed _ hvalue)
    simp only [ofLex_toLex, Prod.mk.injEq, GenericAccount.toString_injective.eq_iff] at hkey
    obtain ⟨rfl, rfl⟩ := hkey
    by_cases hpair : value.recipient = recipient ∧ value.token = token <;>
      simp [entryAmount, addSend, hpair]

theorem aggregatedSends_foldlM [LawfulCrypto]
    (h : ops.foldlM (pushOp group derivePrevious) (handles, buckets) = .ok (final, buckets'))
    (hkeyed : WellKeyed buckets.aggregatedSends) :
    WellKeyed buckets'.aggregatedSends ∧ ∀ recipient token,
      (buckets'.aggregatedSends.map (entryAmount recipient token)).sum =
        (buckets.aggregatedSends.map (entryAmount recipient token)).sum +
          (ops.map (PendingOp.plainAmount final recipient token)).sum := by
  induction ops generalizing handles buckets with
  | nil =>
    cases h
    exact ⟨hkeyed, fun _ _ => by simp⟩
  | cons op ops ih =>
    obtain ⟨⟨handles₁, buckets₁⟩, hop, hops⟩ := foldlM_cons_eq_ok.mp h
    obtain ⟨-, hstages⟩ := pushOp_cases hop
    obtain ⟨hgrow, -⟩ := bucket_foldlM hops
    cases hstages with
    | dropped hkind =>
      obtain ⟨hfinal, hsum⟩ := ih hops hkeyed
      refine ⟨hfinal, fun recipient token => ?_⟩
      rw [hsum, List.map_cons, List.sum_cons, plainAmount_of_kind (by simp [hkind]), zero_add]
    | @staged _ kind operation hkind hother hrenders =>
      obtain ⟨hfinal, hsum⟩ := ih hops (by simpa using hkeyed)
      refine ⟨hfinal, fun recipient token => ?_⟩
      rw [hsum, List.map_cons, List.sum_cons, plainAmount_of_kind (by simpa [hkind] using hother),
        zero_add, aggregatedSends_stage]
    | @added recipientOperand tokenOperand r t amount hamount hr ht =>
      obtain ⟨hfinal, hsum⟩ := ih hops (wellKeyed_addAggregated hkeyed)
      refine ⟨hfinal, fun recipient token => ?_⟩
      -- the operands still resolve to the same accounts at the end
      have hr' := AccountOrPending.resolve_extends hgrow hr
      have ht' := AccountOrPending.resolve_extends hgrow ht
      rw [hsum, List.map_cons, List.sum_cons, sum_addAggregated hkeyed]
      simp only [PendingOp.plainAmount, hr', ht', Except.ok.injEq]
      omega

end RenderBuckets

/-! ## What a group renders to -/

/-- Who a send is for, and in which token. -/
def Send.pair (send : Send) : GenericAccount × GenericAccount := (send.recipient, send.token)

/-- The sends stand for the plain sends that were queued. -/
structure Aggregates (handles : Handles) (queued : List PendingOp) (sends : List Send) : Prop where
  plain : ∀ send ∈ sends, send.external = none
  one_per_pair : (sends.map Send.pair).Nodup
  total : ∀ recipient token,
    ((sends.filter fun send => Send.pair send = (recipient, token)).map Send.amount).sum =
      (queued.map (PendingOp.plainAmount handles recipient token)).sum
  none_of_zero : ∀ recipient token,
    (queued.map (PendingOp.plainAmount handles recipient token)).sum = 0 →
      ∀ send ∈ sends, Send.pair send ≠ (recipient, token)
  /-- Whatever is queued is queued for somebody. -/
  resolved : ∀ recipient token amount, .send recipient token amount none ∈ queued → amount ≠ 0 →
    ∃ r t, recipient.resolve handles = .ok r ∧ token.resolve handles = .ok t

namespace RenderBuckets

variable {buckets : RenderBuckets}

/-- Every entry is one send, and an entry of nothing is none. -/
theorem sum_aggregated (recipient token : GenericAccount) :
    ((buckets.aggregated.filter fun send => Send.pair send = (recipient, token)).map
        Send.amount).sum =
      (buckets.aggregatedSends.map (entryAmount recipient token)).sum := by
  unfold aggregated
  induction buckets.aggregatedSends with
  | nil => rfl
  | cons entry entries ih =>
    rw [List.map_cons, List.sum_cons, ← ih]
    by_cases hzero : entry.2.amount = 0
    -- an entry of nothing is left out and counts nothing
    · rw [List.filter_cons_of_neg (by simp [hzero])]
      simp [entryAmount, hzero]
    · rw [List.filter_cons_of_pos (by simp [hzero]), List.map_cons]
      by_cases hpair : entry.2.recipient = recipient ∧ entry.2.token = token
      · rw [List.filter_cons_of_pos (by simpa [Send.pair, AggregatedSend.toSend] using hpair),
          List.map_cons, List.sum_cons]
        simp [entryAmount, hpair, AggregatedSend.toSend]
      · rw [List.filter_cons_of_neg (by simpa [Send.pair, AggregatedSend.toSend] using hpair)]
        simp [entryAmount, hpair]

/-- Entries of one recipient and token have one key. -/
theorem nodup_pair_aggregated (h : WellKeyed buckets.aggregatedSends) :
    (buckets.aggregated.map Send.pair).Nodup := by
  have hkeys : (buckets.aggregatedSends.map fun entry => Send.pair entry.2.toSend).Nodup := by
    refine List.Nodup.of_map (fun pair => toLex (pair.1.toString, pair.2.toString)) ?_
    -- the keys are a function of the pairs, so that equal pairs would be equal keys
    have hkey : buckets.aggregatedSends.map Prod.fst = (buckets.aggregatedSends.map fun entry =>
        Send.pair entry.2.toSend).map fun pair => toLex (pair.1.toString, pair.2.toString) := by
      rw [List.map_map]
      exact List.map_congr_left h.keyed
    rw [← hkey]
    exact h.sorted.imp fun hlt => hlt.ne
  rw [aggregated, List.map_map]
  exact hkeys.sublist (List.filter_sublist.map _)

end RenderBuckets

/-- **Rendering loses, doubles and misdirects nothing.** A group renders to its operations by
kind: those that are not added up appear once, in order and with their own fields, and the
plain sends to the sums for each recipient and token. -/
theorem renderOps_conserves [LawfulCrypto] (group : Group) (previous : Option BlockHash)
    {handles final : Handles} {ops : List Operation}
    (h : renderOps group previous handles = .ok (final, ops)) :
    ∃ (bucket : OperationKind → List Operation) (sends : List Send),
      ops = OperationKind.renderOrder.flatMap bucket ∧
        (∀ kind, kind ≠ .aggregatedSend → List.Forall₂ (RendersTo final)
          (group.ops.filter fun op => op.kind = some kind) (bucket kind)) ∧
        bucket .aggregatedSend = sends.map .send ∧ Aggregates final group.ops sends := by
  simp only [renderOps, bind_eq_ok] at h
  obtain ⟨⟨final', buckets⟩, hfold, hdone⟩ := h
  cases hdone
  obtain ⟨-, hbuckets⟩ := RenderBuckets.bucket_foldlM hfold
  obtain ⟨hkeyed, hsum⟩ := RenderBuckets.aggregatedSends_foldlM hfold ⟨.nil, by simp⟩
  -- the fold starts without entries, so that the sums are those of the group
  have htotal : ∀ recipient token,
      ((buckets.aggregated.filter fun send => Send.pair send = (recipient, token)).map
          Send.amount).sum =
        (group.ops.map (PendingOp.plainAmount final' recipient token)).sum := by
    intro recipient token
    rw [RenderBuckets.sum_aggregated, hsum]
    simp
  refine ⟨buckets.bucket, buckets.aggregated, RenderBuckets.intoOperations_eq, ?_, rfl, {
    plain := ?_
    one_per_pair := RenderBuckets.nodup_pair_aggregated hkeyed
    total := htotal
    none_of_zero := ?_
    resolved := ?_ }⟩
  · intro kind hne
    obtain ⟨rendered, hbucket, hrendered⟩ := hbuckets kind hne
    -- and without operations
    have hempty : RenderBuckets.bucket {} kind = [] := by
      cases kind <;> rfl
    rw [hbucket, hempty, List.nil_append]
    exact hrendered
  · intro send hsend
    obtain ⟨entry, -, rfl⟩ := List.mem_map.mp hsend
    rfl
  · intro recipient token hzero send hsend hpair
    -- the only send of the pair would be one of nothing
    have honly := filter_eq_singleton (RenderBuckets.nodup_pair_aggregated hkeyed) hsend
    have hamount := htotal recipient token
    rw [hzero, ← hpair, honly] at hamount
    obtain ⟨entry, hentry, rfl⟩ := List.mem_map.mp hsend
    have hnonzero : entry.2.amount ≠ 0 := by simpa using (List.mem_filter.mp hentry).2
    exact hnonzero (by simpa [AggregatedSend.toSend] using hamount)
  · intro recipient token amount hmem hamount
    exact RenderBuckets.resolved_of_foldlM hfold hmem hamount

end Buckets

/-! ## Samples -/

section Samples

open scoped Reference

namespace Sample

open Reference

/-- A token is created and sent to bob, twice to be added up and once with external data. -/
def tokenGroup : Group where
  account := alice
  signer := alice
  ops := [.setRep bob, .createIdentifier .token none ⟨0⟩,
    .send (.resolved bob) (.pending ⟨0⟩) 5 none,
    .send (.resolved bob) (.pending ⟨0⟩) 1 (some "note"),
    .receive (.resolved bob) (.pending ⟨0⟩) 0 false none,
    .send (.resolved bob) (.pending ⟨0⟩) 2 none]

def rendered : Except ClientError (Handles × List Operation) := renderOps tokenGroup none []

end Sample

theorem renderOps_conserves_sample : ∃ final ops, Sample.rendered = .ok (final, ops) ∧
    ∃ (bucket : OperationKind → List Operation) (sends : List Send),
      ops = OperationKind.renderOrder.flatMap bucket ∧
        (∀ kind, kind ≠ .aggregatedSend → List.Forall₂ (RendersTo final)
          (Sample.tokenGroup.ops.filter fun op => op.kind = some kind) (bucket kind)) ∧
        bucket .aggregatedSend = sends.map .send ∧
          Aggregates final Sample.tokenGroup.ops sends := by
  obtain ⟨⟨final, ops⟩, h⟩ := exists_eq_ok (by decide +kernel : Sample.rendered.isOk = true)
  exact ⟨final, ops, h, renderOps_conserves Sample.tokenGroup none h⟩

end Samples

end KeetaNode.Client
