import KeetaNode.Certificates.Reference
import KeetaNode.Lib.Digraph

/-!
# Certificate chains

`Certificate::verify_chain` follows, from a certificate, the first issuer in a
collection until it meets a certificate in its own name or finds no issuer. The set of
certificates in the chain keeps a certificate from being added twice; it does not stop
the loop. So the loop is taken as it stands, without a bound, and chain building halts
exactly when the issuers it follows do not come back to a certificate.

- `keetanetwork-x509/src/certificates.rs`

## Main results

- `acyclicFrom_of_verifyChain`, `buildsChain_of_acyclicFrom`: when `verify_chain` returns,
  and that what it returns is a chain
- `verifyChain_halts_iff`: the same for a bundle's chain, root, length and encoding
-/

namespace KeetaNode.Certificates

open ByteCodec Asn1 Digraph Relation

section Chain

variable [Crypto] [CertificateCodec] [Tlv Tag Asn1Error] [OidCodec]

/-! ## The loop -/

/-- The variables of the loop. -/
structure ChainState where
  current : Certificate
  orderedChain : List Certificate
  chainSet : List Certificate

namespace Certificate

variable (self : Certificate) (certificates : List Certificate)

/-- The first issuer in the collection, which skips certificates identical to `self`. -/
def findIssuer (current : Certificate) : Option Certificate :=
  certificates.find? fun cert => cert ≠ self ∧ current.isIssuedBy cert

def chainStep (s : ChainState) : ChainState ⊕ List Certificate :=
  if s.current.isSelfSigned then .inr s.orderedChain
  else
    match self.findIssuer certificates s.current with
    | some issuerCert =>
      -- only added when it is not in the chain already
      if issuerCert ∈ s.chainSet then .inl { s with current := issuerCert }
      else .inl {
        current := issuerCert
        orderedChain := s.orderedChain ++ [issuerCert]
        chainSet := s.chainSet.insert issuerCert }
    -- the chain is incomplete
    | none => .inr s.orderedChain

/-- The chain, if the loop ends within `fuel` turns. -/
def verifyChain (fuel : Nat) : Option (List Certificate) :=
  attempt (self.chainStep certificates) fuel ⟨self, [self], [self]⟩

/-! ## Chains -/

/-- The chain goes on from `subject` with `issuer`. -/
def FirstIssuer (subject issuer : Certificate) : Prop :=
  subject.isSelfSigned = false ∧ self.findIssuer certificates subject = some issuer

/-- A list that starts with `first`, repeats nothing, and goes from subject to issuer. -/
structure IsIssuerChain (first : Certificate) (chain : List Certificate) : Prop where
  starts : chain.head? = some first
  nodup : chain.Nodup
  issued : chain.IsChain fun subject issuer => subject.isIssuedBy issuer = true

/-- Chain building halts, with a chain. -/
def BuildsChain : Prop :=
  ∃ fuel chain, self.verifyChain certificates fuel = some chain ∧ self.IsIssuerChain chain

/-! ## Correctness of the loop -/

variable {self certificates} {subject issuer : Certificate}

theorem FirstIssuer.isIssuedBy (h : self.FirstIssuer certificates subject issuer) :
    subject.isIssuedBy issuer = true := by
  have := List.find?_some h.2
  simp only [decide_eq_true_eq] at this
  exact this.2

theorem FirstIssuer.mem (h : self.FirstIssuer certificates subject issuer) :
    issuer ∈ certificates :=
  List.mem_of_find?_eq_some h.2

/-- What holds at the head of the loop while no cycle lies ahead. -/
structure ChainInvariant (first : Certificate) (certificates : List Certificate)
    (s : ChainState) : Prop where
  set_iff : ∀ cert, cert ∈ s.chainSet ↔ cert ∈ s.orderedChain
  starts : s.orderedChain.head? = some first
  last : s.orderedChain.getLast? = some s.current
  nodup : s.orderedChain.Nodup
  linked : s.orderedChain.IsChain (first.FirstIssuer certificates)
  behind : ∀ cert ∈ s.orderedChain,
    ReflTransGen (first.FirstIssuer certificates) cert s.current
  ahead : AcyclicFrom (first.FirstIssuer certificates) s.current

/-- A turn of the loop follows the first issuer, or ends it with the chain so far. -/
theorem chainStep_cases (self : Certificate) (certificates : List Certificate) (s : ChainState) :
    (∃ issuer, self.FirstIssuer certificates s.current issuer ∧
      ((issuer ∈ s.chainSet ∧ self.chainStep certificates s = .inl { s with current := issuer }) ∨
       (issuer ∉ s.chainSet ∧ self.chainStep certificates s = .inl {
          current := issuer
          orderedChain := s.orderedChain ++ [issuer]
          chainSet := s.chainSet.insert issuer }))) ∨
      ((∀ issuer, ¬ self.FirstIssuer certificates s.current issuer) ∧
        self.chainStep certificates s = .inr s.orderedChain) := by
  unfold chainStep
  split
  case isTrue hself => exact .inr ⟨fun _ h => by simp [FirstIssuer, hself] at h, rfl⟩
  case isFalse hself =>
    have hself' : s.current.isSelfSigned = false := by simpa using hself
    cases hfind : self.findIssuer certificates s.current with
    | none => exact .inr ⟨fun _ h => by simp [FirstIssuer, hfind] at h, rfl⟩
    | some issuer =>
      refine .inl ⟨issuer, ⟨hself', hfind⟩, ?_⟩
      by_cases hmem : issuer ∈ s.chainSet
      · exact .inl ⟨hmem, by simp [hmem]⟩
      · exact .inr ⟨hmem, by simp [hmem]⟩

theorem chainInvariant_step {s s' : ChainState} (hs : ChainInvariant self certificates s)
    (h : self.chainStep certificates s = .inl s') :
    ChainInvariant self certificates s' ∧
      self.FirstIssuer certificates s.current s'.current := by
  rcases chainStep_cases self certificates s with
    ⟨issuer, hissuer, hcase⟩ | ⟨-, hstop⟩
  · rcases hcase with ⟨hmem, hstep⟩ | ⟨hnew, hstep⟩
    · -- an issuer in the chain leads to the current certificate, which would close a cycle
      exfalso
      have hback := hs.behind issuer ((hs.set_iff issuer).mp hmem)
      exact hs.ahead _ ReflTransGen.refl ((TransGen.single hissuer).trans_left hback)
    · obtain rfl := Sum.inl.inj (hstep.symm.trans h)
      -- the issuer is new, and goes to the end of the chain
      refine ⟨⟨?_, ?_, ?_, ?_, ?_, ?_, hs.ahead.next hissuer⟩, hissuer⟩
      · intro cert
        simp only [List.mem_insert_iff, List.mem_append, List.mem_singleton, hs.set_iff]
        tauto
      · simp [List.head?_append, hs.starts]
      · simp
      · rw [hs.set_iff] at hnew
        exact List.nodup_append.mpr ⟨hs.nodup, List.nodup_singleton _, by
          intro a ha b hb hab
          simp only [List.mem_singleton] at hb
          exact hnew (by rwa [← hb, ← hab])⟩
      · apply List.isChain_append.mpr
        refine ⟨hs.linked, List.isChain_singleton _, ?_⟩
        simpa [hs.last] using hissuer
      · intro cert hcert
        rcases List.mem_append.mp hcert with hcert | hcert
        · exact (hs.behind cert hcert).tail hissuer
        · obtain rfl := List.mem_singleton.mp hcert
          exact ReflTransGen.refl
  · simp [hstop] at h

/-- A loop that ends has no cycle ahead: with one there is always a first issuer, and the
cycle stays ahead. -/
theorem acyclicFrom_of_verifyChain {fuel : Nat} {chain : List Certificate}
    (h : self.verifyChain certificates fuel = some chain) :
    AcyclicFrom (self.FirstIssuer certificates) self := by
  by_contra hcycle
  apply not_returns_of_invariant
    (I := fun s => ¬ AcyclicFrom (self.FirstIssuer certificates) s.current) ?_ hcycle chain
    ⟨fuel, h⟩
  intro s hs
  obtain ⟨issuer, hissuer, hahead⟩ := exists_next_of_not_acyclicFrom hs
  rcases chainStep_cases self certificates s with ⟨issuer', hissuer', hcase⟩ | ⟨hnone, -⟩
  · obtain rfl : issuer' = issuer := Option.some.inj (hissuer'.2.symm.trans hissuer.2)
    rcases hcase with ⟨-, hstep⟩ | ⟨-, hstep⟩
    · exact ⟨_, hstep, hahead⟩
    · exact ⟨_, hstep, hahead⟩
  · exact absurd hissuer (hnone issuer)

/-- Without a cycle ahead the loop ends with a chain. -/
theorem buildsChain_of_acyclicFrom (hacyclic : AcyclicFrom (self.FirstIssuer certificates) self) :
    self.BuildsChain certificates := by
  have hacc : Acc (flip (self.FirstIssuer certificates)) self :=
    acc_of_acyclicFrom (List.finite_toSet certificates) (fun _ _ h => h.mem) hacyclic
  have hstart : ChainInvariant self certificates ⟨self, [self], [self]⟩ :=
    ⟨by simp, rfl, rfl, by simp, by simp, by simp [ReflTransGen.refl], hacyclic⟩
  -- no cycle is ahead, so that the walk is well founded
  have hstop : ∀ s chain, ChainInvariant self certificates s →
      self.chainStep certificates s = .inr chain → self.IsIssuerChain chain := by
    intro s chain hs h
    rcases chainStep_cases self certificates s with
      ⟨issuer, -, ⟨-, hstep⟩ | ⟨-, hstep⟩⟩ | ⟨-, hstop⟩
    · simp [hstep] at h
    · simp [hstep] at h
    · obtain rfl := Sum.inr.inj (hstop.symm.trans h)
      exact ⟨hs.starts, hs.nodup, hs.linked.imp fun _ _ h => h.isIssuedBy⟩
  have hturn : ∀ s s', ChainInvariant self certificates s →
      self.chainStep certificates s = .inl s' → ChainInvariant self certificates s' ∧
        flip (self.FirstIssuer certificates) s'.current s.current :=
    fun s s' hs h => chainInvariant_step hs h
  obtain ⟨chain, ⟨fuel, hfuel⟩, hchain⟩ := exists_returns_of_acc hturn hstop hstart hacc
  exact ⟨fuel, chain, hfuel, hchain⟩

end Certificate

/-! ## Bundles -/

/-- A certificate with the root and intermediate certificates it comes with. -/
structure CertificateBundle where
  certificate : Certificate
  root : CertificateSet
  intermediate : CertificateSet

namespace CertificateBundle

variable (bundle : CertificateBundle) (fuel : Nat)

/-- `From<&CertificateBundle> for Vec<Certificate>`. -/
def toCertificates : List Certificate :=
  bundle.certificate :: (bundle.root.members ++ bundle.intermediate.members)

/-- The chain of the bundle's own certificates. -/
def intoIter : Option (List Certificate) :=
  bundle.certificate.verifyChain bundle.toCertificates fuel

/-- The last certificate of a chain of two or more. -/
def toRootCertificate : Option (Option Certificate) :=
  (bundle.intoIter fuel).map fun chain =>
    if 1 < chain.length then chain.getLast?
    else if bundle.certificate.isSelfSigned then some bundle.certificate
    else none

def toChainLength : Option Nat := (bundle.intoIter fuel).map List.length

/-- The encoding of the certificate, then those of the chain after it. -/
def toDer : Option (Except CertificateError Bytes) :=
  match bundle.certificate.toDer with
  | .error error => some (.error error)
  | .ok der => (bundle.intoIter fuel).map fun chain =>
    (chain.drop 1).foldlM (fun result cert => do return result ++ (← cert.toDer)) der

/-- The four users of a bundle's chain return. -/
def Terminates : Prop :=
  (∃ fuel der, bundle.toDer fuel = some der) ∧
  (∃ fuel chain, bundle.intoIter fuel = some chain) ∧
  (∃ fuel root, bundle.toRootCertificate fuel = some root) ∧
  (∃ fuel length, bundle.toChainLength fuel = some length)

variable {bundle}

/-- Once the chain is there, so is everything taken from it. -/
theorem terminates_iff : bundle.Terminates ↔ ∃ fuel chain, bundle.intoIter fuel = some chain := by
  constructor
  · exact fun h => h.2.1
  · rintro ⟨fuel, chain, h⟩
    refine ⟨⟨fuel, ?_⟩, ⟨fuel, chain, h⟩, ⟨fuel, ?_⟩, ⟨fuel, ?_⟩⟩
    · unfold toDer
      cases bundle.certificate.toDer with
      | error error => exact ⟨_, rfl⟩
      | ok der => exact ⟨_, by rw [h]; rfl⟩
    · exact ⟨_, by rw [toRootCertificate, h]; rfl⟩
    · exact ⟨_, by rw [toChainLength, h]; rfl⟩

end CertificateBundle

/-! ## When chain building halts -/

/-- For every certificate and collection, and for every bundle: chain building halts, with
a chain of issuers that repeats nothing, exactly when no certificate that the first issuers
lead to leads back to itself. -/
theorem verifyChain_halts_iff :
    (∀ (self : Certificate) (certificates : List Certificate),
      self.BuildsChain certificates ↔ AcyclicFrom (self.FirstIssuer certificates) self) ∧
    (∀ bundle : CertificateBundle, bundle.Terminates ↔
      AcyclicFrom (bundle.certificate.FirstIssuer bundle.toCertificates) bundle.certificate) := by
  constructor
  · intro self certificates
    constructor
    · rintro ⟨fuel, chain, h, -⟩
      exact Certificate.acyclicFrom_of_verifyChain h
    · exact Certificate.buildsChain_of_acyclicFrom
  · intro bundle
    rw [CertificateBundle.terminates_iff]
    constructor
    · rintro ⟨fuel, chain, h⟩
      exact Certificate.acyclicFrom_of_verifyChain h
    · intro hacyclic
      obtain ⟨fuel, chain, h, -⟩ := Certificate.buildsChain_of_acyclicFrom hacyclic
      exact ⟨fuel, chain, h⟩

end Chain

/-! ## Authorities that certify each other -/

section CrossSigned

open Certificate KeetaNode.Reference Asn1.Reference Certificates.Reference Certificates.Sample

/-- From a subject of the first of two authorities that have certified each other, the loop
goes from one authority to the other and never ends. -/
theorem not_buildsChain_crossSigned : ¬ subjectOfA.BuildsChain [crossA, crossB] := by
  rintro ⟨fuel, chain, h, -⟩
  have hacyclic := acyclicFrom_of_verifyChain h
  have hsubject : subjectOfA.FirstIssuer [crossA, crossB] subjectOfA crossA := by
    constructor <;> decide +kernel
  have hforth : subjectOfA.FirstIssuer [crossA, crossB] crossA crossB := by
    constructor <;> decide +kernel
  have hback : subjectOfA.FirstIssuer [crossA, crossB] crossB crossA := by
    constructor <;> decide +kernel
  exact hacyclic crossA (ReflTransGen.single hsubject) ((TransGen.single hforth).tail hback)

end CrossSigned

end KeetaNode.Certificates
