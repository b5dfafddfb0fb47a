import KeetaNode.Certificates.Reference
import KeetaNode.Lib.Digraph

/-!
# The graph of a certificate and its intermediates

`Certificate::assert_can_construct_valid_graph` bounds the number of certificates,
rejects duplicates and certificates that are not connected to the subject, and looks
for cycles of issuers. Both searches only go to members of the set that is given: a
certificate that is not a member itself is a node with outgoing edges only.

- `keetanetwork-x509/src/certificates.rs`

## Main results

- `assertCanConstructValidGraph_eq_ok`: what the check accepts
- `checksGraph_iff`: when that is what the check is for
-/

namespace KeetaNode.Certificates

open ByteCodec Asn1 Digraph Relation

/-- `CertificateHash`. -/
structure CertificateHash where
  hash : Bytes
  algorithmOid : ObjectIdentifier
  deriving DecidableEq, Repr

namespace Certificate

/-! ## The check -/

def maxGraphCertificates : Nat := 10

section Hashes

variable [Crypto] [CertificateCodec]

/-- The SHA3-256 digest of the encoding (`CertificateHash::try_from`). -/
def certificateHash (certificate : Certificate) : Except CertificateError CertificateHash := do
  let der ← certificate.toDer
  return ⟨(Crypto.sha3_256 der).bytes, ⟨[2, 16, 840, 1, 101, 3, 4, 2, 8]⟩⟩

/-- The hashes of the certificates, each of which has to be new. -/
def seenHashes (certificates : List Certificate) :
    Except CertificateError (List CertificateHash) :=
  certificates.foldlM (fun seen cert => do
    let hash ← cert.certificateHash
    rejectIf (hash ∈ seen) CertificateError.certificateDuplicateIncluded
    return seen.insert hash) []

end Hashes

/-- One may have issued the other, by name. -/
def isLinked (current cert : Certificate) : Bool :=
  let isPotentialIssuer := current.tbsCertificate.issuer = cert.tbsCertificate.subject
  let isPotentialSubject := cert.tbsCertificate.issuer = current.tbsCertificate.subject
  isPotentialIssuer ∨ isPotentialSubject

/-- A turn of the loop of `find_connected_certificates`. -/
def connectedStep (certificates : List Certificate) (s : Frontier Certificate) :
    Frontier Certificate ⊕ List Certificate :=
  match s.toVisit with
  | [] => .inr s.connected
  | current :: toVisit =>
    if current ∈ s.visited then .inl { s with toVisit }
    else
      let visited := s.visited.insert current
      let (connected, toVisit) := certificates.foldl (fun (connected, toVisit) cert =>
        if current.isLinked cert then
          (connected.insert cert, if cert ∈ visited then toVisit else cert :: toVisit)
        else (connected, toVisit)) (s.connected, toVisit)
      .inl { toVisit, visited, connected }

/-- All certificates connected to this one. -/
def findConnectedCertificates (self : Certificate) (certificates : List Certificate) :
    List Certificate :=
  loop (connectedStep certificates) []
    (reachMeasure (self :: certificates) certificates.length) ⟨[self], [], []⟩

/-- Depth-first search along issued certificates. Every call visits a certificate that was
not visited before, so that `fuel` may be their number. -/
def dfsCycleDetection (certificates : List Certificate) :
    (fuel : Nat) → (self : Certificate) → Marks Certificate →
      Except CertificateError (Marks Certificate)
  | 0, _, _ => .error .certificateCycleFound
  | fuel + 1, self, marks => do
    let marks ← certificates.foldlM (fun marks cert =>
        if cert.tbsCertificate.issuer = self.tbsCertificate.subject then
          -- certificates in their own name are no cycles
          if cert.isSelfSigned then .ok marks
          else if cert ∈ marks.recStack then .error .certificateCycleFound
          else if cert ∈ marks.visited then .ok marks
          else dfsCycleDetection certificates fuel cert marks
        else .ok marks)
      ⟨marks.visited.insert self, marks.recStack.insert self⟩
    .ok { marks with recStack := marks.recStack.erase self }

def detectCycles (self : Certificate) (certificates : List Certificate) :
    Except CertificateError Unit := do
  let fuel := certificates.length + 1
  let marks ← dfsCycleDetection certificates fuel self ⟨[], []⟩
  let _ ← certificates.foldlM (fun marks cert =>
    if cert ∈ marks.visited then .ok marks else dfsCycleDetection certificates fuel cert marks)
    marks
  return ()

def assertCanConstructValidGraph [Crypto] [CertificateCodec] (self : Certificate)
    (certificates : CertificateSet) : Except CertificateError Unit := do
  rejectIf (maxGraphCertificates < certificates.members.length)
    (CertificateError.certificateInvalidGraphCount maxGraphCertificates)
  let _ ← seenHashes certificates.members
  let connectedCerts := self.findConnectedCertificates certificates.members
  certificates.members.forM fun cert =>
    rejectIf (cert ∉ connectedCerts ∧ cert ≠ self) CertificateError.certificateOrphanFound
  self.detectCycles certificates.members

/-! ## What the searches find -/

/-- The certificates of the set that a name links to `current`. -/
def linkedTo (certificates : List Certificate) (current : Certificate) : List Certificate :=
  certificates.filter current.isLinked

/-- `issuer` has issued `cert` by name; a certificate in its own name has no issuer. -/
def Issues (issuer cert : Certificate) : Prop :=
  cert.tbsCertificate.issuer = issuer.tbsCertificate.subject ∧ cert.isSelfSigned = false

instance decidableIssues (issuer cert : Certificate) : Decidable (issuer.Issues cert) :=
  inferInstanceAs (Decidable (_ ∧ _))

def issuedIn (certificates : List Certificate) (issuer : Certificate) : List Certificate :=
  certificates.filter (issuer.Issues ·)

theorem connectedStep_eq (certificates : List Certificate) :
    connectedStep certificates = reachStep (linkedTo certificates) := by
  -- the loop over the set does both updates of the work list at once
  have hfold : ∀ (current : Certificate) (visited connected toVisit : List Certificate),
      certificates.foldl (fun (p : List Certificate × List Certificate) cert =>
        if current.isLinked cert then
          (p.1.insert cert, if cert ∈ visited then p.2 else cert :: p.2)
        else p) (connected, toVisit) =
      ((linkedTo certificates current).foldl (fun set node => set.insert node) connected,
        ((linkedTo certificates current).filter (· ∉ visited)).reverse ++ toVisit) := by
    intro current visited
    simp only [linkedTo]
    induction certificates with
    | nil => simp
    | cons cert certificates ih =>
      intro connected toVisit
      rw [List.foldl_cons, List.filter_cons]
      split
      case isFalse => rw [ih]
      case isTrue =>
        rw [ih, List.foldl_cons, List.filter_cons]
        by_cases hvisited : cert ∈ visited <;> simp [hvisited]
  funext s
  obtain ⟨toVisit, visited, connected⟩ := s
  cases toVisit with
  | nil => rfl
  | cons current toVisit =>
    simp only [connectedStep, reachStep]
    split
    case isTrue => rfl
    case isFalse => rw [hfold]

theorem mem_findConnectedCertificates {self cert : Certificate} {certificates : List Certificate} :
    cert ∈ self.findConnectedCertificates certificates ↔
      TransGen (fun a b => b ∈ linkedTo certificates a) self cert := by
  rw [findConnectedCertificates, connectedStep_eq]
  apply mem_reachable_iff (by simp)
  · exact fun a b hb => List.mem_cons_of_mem _ (List.mem_of_mem_filter hb)
  · exact fun a => List.length_filter_le _ _

theorem dfsCycleDetection_eq (certificates : List Certificate) (fuel : Nat) :
    dfsCycleDetection certificates fuel =
      search CertificateError.certificateCycleFound (issuedIn certificates) fuel := by
  induction fuel with
  | zero => rfl
  | succ fuel ih =>
    funext self marks
    rw [dfsCycleDetection, search, issuedIn, List.foldlM_filter, ih]
    congr 2
    funext marks cert
    by_cases hissuer : cert.tbsCertificate.issuer = self.tbsCertificate.subject
    · cases hself : cert.isSelfSigned <;> simp [Issues, hissuer, hself, pure, Except.pure]
    · simp [Issues, hissuer, pure, Except.pure]

theorem detectCycles_eq_ok {self : Certificate} {certificates : List Certificate} :
    self.detectCycles certificates = .ok () ↔
      Acyclic (Edge (issuedIn certificates)) := by
  have hall : self.detectCycles certificates = .ok () ↔ ∃ marks,
      searchAll CertificateError.certificateCycleFound (issuedIn certificates)
        (certificates.length + 1) (self :: certificates) ⟨[], []⟩ = .ok marks := by
    simp only [detectCycles, dfsCycleDetection_eq, searchAll, List.foldlM_cons,
      List.not_mem_nil, if_false, bind_eq_ok, pure_eq_ok]
    tauto
  rw [hall, searchAll_eq_ok_iff]
  · exact fun a b hb => List.mem_cons_of_mem _ (List.mem_of_mem_filter hb)
  · simp

/-! ## What the check is for -/

/-- Every other member is connected to the certificate through links inside the set. -/
def IsConnected (self : Certificate) (certificates : List Certificate) : Prop :=
  ∀ cert ∈ certificates, cert ≠ self →
    ReflTransGen (fun a b => b ∈ certificates ∧ a.isLinked b = true) self cert

/-- The edges from issuer to subject over the certificate and the set. -/
def GraphEdge (self : Certificate) (certificates : List Certificate) :
    Certificate → Certificate → Prop :=
  Within (insert self {cert | cert ∈ certificates}) Issues

/-- Two sets that differ in the certificate at most. -/
def SameOthers (self : Certificate) (certificates certificates' : CertificateSet) : Prop :=
  ∀ cert, cert ≠ self → (cert ∈ certificates'.members ↔ cert ∈ certificates.members)

/-- The check is exact, and it does not matter whether the certificate is in the set. -/
def ChecksGraph [Crypto] [CertificateCodec] (self : Certificate) (certificates : CertificateSet) :
    Prop :=
  (self.assertCanConstructValidGraph certificates = .ok () ↔
    certificates.members.length ≤ maxGraphCertificates ∧
      self.IsConnected certificates.members ∧
      Acyclic (self.GraphEdge certificates.members)) ∧
  ∀ certificates' : CertificateSet, self.SameOthers certificates certificates' →
    (self.assertCanConstructValidGraph certificates' = .ok () ↔
      self.assertCanConstructValidGraph certificates = .ok ())

/-- Encoding and hashing succeed on the certificates, and tell them apart. -/
structure HashesIdentify [Crypto] [CertificateCodec] (certificates : List Certificate) : Prop where
  succeeds : ∀ cert ∈ certificates, ∃ hash, cert.certificateHash = .ok hash
  injective : ∀ cert ∈ certificates, ∀ cert' ∈ certificates,
    cert.certificateHash = cert'.certificateHash → cert = cert'

section Exact

variable [Crypto] [CertificateCodec] {self : Certificate} {certificates : CertificateSet}

theorem HashesIdentify.subset {certs certs' : List Certificate} (h : HashesIdentify certs)
    (hsub : certs' ⊆ certs) : HashesIdentify certs' :=
  ⟨fun cert hcert => h.succeeds cert (hsub hcert),
    fun cert hcert cert' hcert' => h.injective cert (hsub hcert) cert' (hsub hcert')⟩

/-- The loop goes on as long as the certificates ahead have hashes that are new. -/
theorem foldlM_seenHashes {certs : List Certificate} (hnodup : certs.Nodup)
    (h : HashesIdentify certs) {seen : List CertificateHash}
    (hnew : ∀ cert ∈ certs, ∀ hash ∈ seen, cert.certificateHash ≠ .ok hash) :
    ∃ seen', certs.foldlM (fun seen cert => do
      let hash ← cert.certificateHash
      rejectIf (hash ∈ seen) CertificateError.certificateDuplicateIncluded
      return seen.insert hash) seen = .ok seen' := by
  induction certs generalizing seen with
  | nil => exact ⟨seen, rfl⟩
  | cons cert certs ih =>
    obtain ⟨hash, hhash⟩ := h.succeeds cert List.mem_cons_self
    have hfresh : hash ∉ seen := fun hmem => hnew cert List.mem_cons_self hash hmem hhash
    obtain ⟨hcert, hcerts⟩ := List.nodup_cons.mp hnodup
    -- the others have other hashes than this one
    have hnext : ∀ cert' ∈ certs, ∀ hash' ∈ seen.insert hash,
        cert'.certificateHash ≠ .ok hash' := by
      intro cert' hcert' hash' hhash' heq
      rcases List.mem_insert_iff.mp hhash' with rfl | hold
      · have := h.injective cert List.mem_cons_self cert' (List.mem_cons_of_mem _ hcert')
          (hhash.trans heq.symm)
        exact hcert (this ▸ hcert')
      · exact hnew cert' (List.mem_cons_of_mem _ hcert') hash' hold heq
    obtain ⟨seen', hseen'⟩ := ih hcerts (h.subset (List.subset_cons_self _ _)) hnext
    refine ⟨seen', ?_⟩
    simp only [List.foldlM_cons, hhash, ok_bind, rejectIf, hfresh, if_false]
    exact hseen'

/-- Where hashes identify certificates, a set has no duplicates. -/
theorem seenHashes_eq_ok {certs : List Certificate} (hnodup : certs.Nodup)
    (h : HashesIdentify certs) : ∃ seen, seenHashes certs = .ok seen :=
  foldlM_seenHashes hnodup h (by simp)

omit [Crypto] [CertificateCodec] in
/-- The cycles that the search sees are those inside the set. -/
theorem acyclic_issuedIn {certs : List Certificate} :
    Acyclic (Edge (issuedIn certs)) ↔ Acyclic (Within {cert | cert ∈ certs} Issues) := by
  have hedge : ∀ a b, Edge (issuedIn certs) a b ↔ b ∈ certs ∧ a.Issues b := by
    simp [Edge, issuedIn]
  have hwithin : Within {cert | cert ∈ certs} (Edge (issuedIn certs)) =
      Within {cert | cert ∈ certs} Issues := by
    funext a b
    simp only [Within, hedge, Set.mem_ofPred_eq]
    exact propext (by tauto)
  rw [← hwithin]
  exact acyclic_iff_within fun a b h => ((hedge a b).mp h).1

/-- What the check accepts. -/
theorem assertCanConstructValidGraph_eq_ok (h : HashesIdentify certificates.members) :
    self.assertCanConstructValidGraph certificates = .ok () ↔
      certificates.members.length ≤ maxGraphCertificates ∧
      self.IsConnected certificates.members ∧
      Acyclic (Within {cert | cert ∈ certificates.members} Issues) := by
  obtain ⟨seen, hseen⟩ := seenHashes_eq_ok certificates.nodup h
  have hconnected : (∀ cert ∈ certificates.members,
        ¬ (cert ∉ self.findConnectedCertificates certificates.members ∧ cert ≠ self)) ↔
      self.IsConnected certificates.members := by
    simp only [IsConnected, mem_findConnectedCertificates, linkedTo, List.mem_filter]
    refine forall₂_congr fun cert _ => ?_
    -- from one certificate to another a path is not empty
    constructor
    · intro hcert hne
      by_contra hpath
      exact hcert ⟨fun h => hpath h.to_reflTransGen, hne⟩
    · rintro hcert ⟨hpath, hne⟩
      rcases reflTransGen_iff_eq_or_transGen.mp (hcert hne) with heq | htrans
      · exact hne heq
      · exact hpath htrans
  simp only [assertCanConstructValidGraph, bind_eq_ok, rejectIf_eq_ok, hseen, Except.ok.injEq,
    exists_eq_left', forM_rejectIf_eq_ok, detectCycles_eq_ok, acyclic_issuedIn, hconnected,
    not_lt, exists_const]

/-! ## When the check is exact -/

/-- The members of a set other than the certificate. -/
def others (self : Certificate) (certificates : CertificateSet) : List Certificate :=
  certificates.members.filter (· ≠ self)

omit [Crypto] [CertificateCodec]

variable {certificates' : CertificateSet}

theorem SameOthers.symm (h : self.SameOthers certificates certificates') :
    self.SameOthers certificates' certificates :=
  fun cert hcert => (h cert hcert).symm

theorem SameOthers.perm (h : self.SameOthers certificates certificates') :
    (self.others certificates').Perm (self.others certificates) := by
  apply (List.perm_ext_iff_of_nodup (certificates'.nodup.filter _)
    (certificates.nodup.filter _)).mpr
  intro cert
  simp only [List.mem_filter, decide_eq_true_eq]
  exact and_congr_left fun hne => h cert hne

/-- A path from the certificate need not go through it again, so that its own membership
does not matter. -/
theorem SameOthers.isConnected (h : self.SameOthers certificates certificates')
    (hconnected : self.IsConnected certificates.members) :
    self.IsConnected certificates'.members := by
  intro cert hcert hne
  have hpath := reflTransGen_avoiding (hconnected cert ((h cert hne).mp hcert) hne)
  exact hpath.lift id fun a b hab => ⟨(h b hab.1).mpr hab.2.1, hab.2.2⟩

theorem graphEdge_eq_others :
    self.GraphEdge certificates.members =
      Within (insert self {cert | cert ∈ self.others certificates}) Issues := by
  have hnodes : (insert self {cert | cert ∈ certificates.members} : Set Certificate) =
      insert self {cert | cert ∈ self.others certificates} := by
    ext cert
    simp only [Set.mem_insert_iff, Set.mem_ofPred_eq, others, List.mem_filter, decide_eq_true_eq]
    tauto
  rw [GraphEdge, hnodes]

/-- A cycle over the certificate and the set is one among the others, or goes through the
certificate. -/
theorem acyclic_graphEdge :
    Acyclic (self.GraphEdge certificates.members) ↔
      Acyclic (Within {cert | cert ∈ self.others certificates} Issues) ∧
        ¬ TransGen (self.GraphEdge certificates.members) self self := by
  rw [graphEdge_eq_others]
  exact acyclic_within_insert

theorem SameOthers.graphEdge (h : self.SameOthers certificates certificates') :
    self.GraphEdge certificates'.members = self.GraphEdge certificates.members := by
  have hnodes : {cert | cert ∈ self.others certificates'} =
      {cert | cert ∈ self.others certificates} := by
    ext cert
    exact h.perm.mem_iff
  rw [graphEdge_eq_others, graphEdge_eq_others, hnodes]

theorem length_members_of_mem (hself : self ∈ certificates.members) :
    certificates.members.length = (self.others certificates).length + 1 := by
  have herase : self.others certificates = certificates.members.erase self := by
    rw [certificates.nodup.erase_eq_filter, others]
    exact List.filter_congr fun cert _ => by simp [bne, beq_eq_decide]
  have hpos := List.length_pos_of_mem hself
  rw [herase, List.length_erase_of_mem hself]
  omega

theorem others_eq_of_not_mem (hself : self ∉ certificates.members) :
    self.others certificates = certificates.members := by
  apply List.filter_eq_self.mpr
  intro cert hcert
  simp only [decide_eq_true_eq]
  rintro rfl
  exact hself hcert

/-- A set without the certificate, and with it. -/
def withoutSelf (self : Certificate) (certificates : CertificateSet) : CertificateSet where
  members := self.others certificates
  nodup := certificates.nodup.filter _

def withSelf (self : Certificate) (certificates : CertificateSet) : CertificateSet where
  members := self :: self.others certificates
  nodup := List.nodup_cons.mpr ⟨by simp [others], certificates.nodup.filter _⟩

theorem sameOthers_withoutSelf : self.SameOthers certificates (self.withoutSelf certificates) :=
  fun cert hne => by simp [withoutSelf, others, hne]

theorem sameOthers_withSelf : self.SameOthers certificates (self.withSelf certificates) :=
  fun cert hne => by simp [withSelf, others, hne]

variable [Crypto] [CertificateCodec]

/-- The verdict on a set with the certificate in it: one more member, and cycles through the
certificate count. -/
theorem assert_eq_ok_of_mem (h : HashesIdentify certificates.members)
    (hself : self ∈ certificates.members) :
    self.assertCanConstructValidGraph certificates = .ok () ↔
      (self.others certificates).length < maxGraphCertificates ∧
        self.IsConnected certificates.members ∧
        Acyclic (self.GraphEdge certificates.members) := by
  have hnodes : (insert self {cert | cert ∈ certificates.members} : Set Certificate) =
      {cert | cert ∈ certificates.members} := Set.insert_eq_of_mem hself
  rw [assertCanConstructValidGraph_eq_ok h, length_members_of_mem hself, GraphEdge, hnodes,
    Nat.succ_le_iff]

/-- The verdict on a set without the certificate: cycles through it do not count. -/
theorem assert_eq_ok_of_not_mem (h : HashesIdentify certificates.members)
    (hself : self ∉ certificates.members) :
    self.assertCanConstructValidGraph certificates = .ok () ↔
      (self.others certificates).length ≤ maxGraphCertificates ∧
        self.IsConnected certificates.members ∧
        Acyclic (Within {cert | cert ∈ self.others certificates} Issues) := by
  rw [assertCanConstructValidGraph_eq_ok h, others_eq_of_not_mem hself]

/-- The verdict on a set in terms of the other members and of the certificate's place. -/
theorem SameOthers.assert_eq_ok (hsame : self.SameOthers certificates certificates')
    (h : HashesIdentify (self :: certificates.members)) :
    self.assertCanConstructValidGraph certificates' = .ok () ↔
      ((self.others certificates).length ≤ maxGraphCertificates ∧
        self.IsConnected certificates.members ∧
        Acyclic (Within {cert | cert ∈ self.others certificates} Issues)) ∧
      (self ∈ certificates'.members → (self.others certificates).length < maxGraphCertificates ∧
        ¬ TransGen (self.GraphEdge certificates.members) self self) := by
  have hids : HashesIdentify certificates'.members := by
    refine h.subset fun cert hcert => ?_
    by_cases hne : cert = self
    · exact hne ▸ List.mem_cons_self
    · exact List.mem_cons_of_mem _ ((hsame cert hne).mp hcert)
  have hconnected : self.IsConnected certificates'.members ↔
      self.IsConnected certificates.members :=
    ⟨hsame.symm.isConnected, hsame.isConnected⟩
  have hothers : {cert | cert ∈ self.others certificates'} =
      {cert | cert ∈ self.others certificates} := by
    ext cert
    exact hsame.perm.mem_iff
  -- a set that holds the certificate has one member more, and cycles through it count
  by_cases hself : self ∈ certificates'.members
  · rw [assert_eq_ok_of_mem hids hself, hsame.perm.length_eq, hconnected, hsame.graphEdge,
      acyclic_graphEdge]
    constructor
    · exact fun ⟨hcount, hconn, hrest, hcycle⟩ =>
        ⟨⟨hcount.le, hconn, hrest⟩, fun _ => ⟨hcount, hcycle⟩⟩
    · exact fun ⟨⟨_, hconn, hrest⟩, hmem⟩ => ⟨(hmem hself).1, hconn, hrest, (hmem hself).2⟩
  · rw [assert_eq_ok_of_not_mem hids hself, hsame.perm.length_eq, hconnected, hothers]
    simp [hself]

/-- The check is exact on the sets whose other members are too many, not connected or on a
cycle of their own, and on those of nine others at most where the certificate is on no
cycle. -/
theorem checksGraph_iff (h : HashesIdentify (self :: certificates.members)) :
    self.ChecksGraph certificates ↔
      maxGraphCertificates < (self.others certificates).length ∨
      ¬ self.IsConnected certificates.members ∨
      ¬ Acyclic (Within {cert | cert ∈ self.others certificates} Issues) ∨
      ((self.others certificates).length < maxGraphCertificates ∧
        ¬ TransGen (self.GraphEdge certificates.members) self self) := by
  constructor
  · rintro ⟨-, hindependent⟩
    by_contra hcond
    simp only [not_or, not_lt, not_not] at hcond
    obtain ⟨hcount, hconn, hrest, hcycle⟩ := hcond
    -- the set without the certificate is accepted, so the one with it would be
    have hwithout := (sameOthers_withoutSelf.assert_eq_ok h).mpr
      ⟨⟨hcount, hconn, hrest⟩, fun hself => by simp [withoutSelf, others] at hself⟩
    have hwith := (hindependent _ sameOthers_withSelf).mpr
      ((hindependent _ sameOthers_withoutSelf).mp hwithout)
    exact hcycle (((sameOthers_withSelf.assert_eq_ok h).mp hwith).2 List.mem_cons_self)
  · intro hcond
    -- what every set with these other members has to meet
    have hfree : (self.others certificates).length ≤ maxGraphCertificates ∧
        self.IsConnected certificates.members ∧
        Acyclic (Within {cert | cert ∈ self.others certificates} Issues) →
        (self.others certificates).length < maxGraphCertificates ∧
          ¬ TransGen (self.GraphEdge certificates.members) self self := by
      rintro ⟨hcount, hconn, hrest⟩
      rcases hcond with h | h | h | h
      exacts [absurd hcount (not_le.mpr h), absurd hconn h, absurd hrest h, h]
    have hids := h.subset (List.subset_cons_self _ _)
    constructor
    · by_cases hself : self ∈ certificates.members
      · rw [assert_eq_ok_of_mem hids hself, length_members_of_mem hself, Nat.succ_le_iff]
      · rw [assert_eq_ok_of_not_mem hids hself, acyclic_graphEdge]
        constructor
        · intro hok
          exact ⟨others_eq_of_not_mem hself ▸ hok.1, hok.2.1, hok.2.2, (hfree hok).2⟩
        · rintro ⟨hcount, hconn, hrest, -⟩
          exact ⟨(others_eq_of_not_mem hself).symm ▸ hcount, hconn, hrest⟩
    · intro certificates' hsame
      have hitself : self.SameOthers certificates certificates := fun _ _ => Iff.rfl
      rw [hsame.assert_eq_ok h, hitself.assert_eq_ok h]
      constructor
      · exact fun hok => ⟨hok.1, fun _ => hfree hok.1⟩
      · exact fun hok => ⟨hok.1, fun _ => hfree hok.1⟩

end Exact

/-! ## A cycle through the certificate -/

section CrossSigned

open KeetaNode.Reference Asn1.Reference Certificates.Reference Certificates.Sample

/-- The set of one of two authorities that have certified each other. -/
def setOfA : CertificateSet := ⟨[crossA], by simp⟩

/-- A subject of that authority is on no cycle, and the check is exact. -/
theorem checksGraph_subjectOfA : HashesIdentify (subjectOfA :: setOfA.members) ∧
    subjectOfA.ChecksGraph setOfA := by
  have hids : HashesIdentify (subjectOfA :: setOfA.members) := by
    constructor
    · simp only [setOfA, List.mem_cons, List.not_mem_nil, or_false, forall_eq_or_imp, forall_eq]
      exact ⟨⟨_, rfl⟩, ⟨_, rfl⟩⟩
    · simp only [setOfA, List.mem_cons, List.not_mem_nil, or_false, forall_eq_or_imp, forall_eq]
      decide +kernel
  refine ⟨hids, (checksGraph_iff hids).mpr (.inr (.inr (.inr ⟨by decide +kernel, ?_⟩)))⟩
  -- the subject has issued no certificate
  intro hcycle
  obtain ⟨cert, ⟨-, hcert, hissues⟩, -⟩ := TransGen.head'_iff.mp hcycle
  simp only [Set.mem_insert_iff, Set.mem_ofPred_eq, setOfA, List.mem_singleton] at hcert
  rcases hcert with rfl | rfl
  · exact absurd hissues (by decide +kernel)
  · exact absurd hissues (by decide +kernel)

/-- The other authority is accepted with it, although the two have issued each other. -/
theorem not_checksGraph_crossB : ¬ crossB.ChecksGraph setOfA := by
  rintro ⟨hexact, -⟩
  have hok : crossB.assertCanConstructValidGraph setOfA = .ok () := by decide +kernel
  obtain ⟨-, -, hacyclic⟩ := hexact.mp hok
  have hforth : crossB.GraphEdge setOfA.members crossB crossA := by
    refine ⟨.inl rfl, .inr ?_, by decide +kernel⟩
    simp [setOfA]
  have hback : crossB.GraphEdge setOfA.members crossA crossB := by
    refine ⟨.inr ?_, .inl rfl, by decide +kernel⟩
    simp [setOfA]
  exact hacyclic crossB ((TransGen.single hforth).tail hback)

end CrossSigned

end Certificate

end KeetaNode.Certificates
