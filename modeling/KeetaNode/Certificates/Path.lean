import KeetaNode.Certificates.Reference

/-!
# Certification paths

`Certificate::validate_certificate_path` goes up a path from a certificate and tests each
pair of subject and issuer, then asks whether the last certificate is in its own name. It
refers to the path validation of RFC 5280, Section 6, but it tests neither that the
issuers may issue certificates nor the signature of the last certificate.

- `keetanetwork-x509/src/certificates.rs`

## Main results

- `validateCertificatePath_eq_true`: the paths that are accepted
- `pathIsSound_iff`: when an accepted path is a path of authorities
-/

namespace KeetaNode.Certificates.Certificate

open ByteCodec Asn1

section Path

variable [Crypto] [CertificateCodec] [Tlv Tag Asn1Error] [OidCodec]

/-! ## The validation -/

/-- The loop over the pairs of neighbours. -/
def linksAreValid : List Certificate → Except CertificateError Bool
  | subjectCert :: issuerCert :: rest => do
    if !(← subjectCert.isValidIssuerSubjectPair issuerCert) then return false
    linksAreValid (issuerCert :: rest)
  | _ => return true

def validateCertificatePath (self : Certificate) :
    (path : List Certificate) → Except CertificateError Bool
  | [] => return false
  | first :: rest => do
    if self ≠ first then return false
    if !(← linksAreValid (first :: rest)) then return false
    let trustAnchor := (first :: rest).getLast (List.cons_ne_nil first rest)
    if !trustAnchor.isSelfSigned then return false
    return true

/-! ## Accepted paths -/

/-- The signature of `certificate` verifies under the key of `issuer`. -/
def VerifiesUnder (certificate issuer : Certificate) : Prop :=
  ∃ key, issuer.tbsCertificate.subjectPublicKeyInfo.tryFrom = .ok key ∧
    certificate.verifySignature key = .ok true

/-- What is tested of a pair of neighbours. -/
structure IsLink (subject issuer : Certificate) : Prop where
  name : issuer.tbsCertificate.subject = subject.tbsCertificate.issuer
  keyIdentifier : subject.hasValidAuthorityKeyIdentifier issuer = true
  signature : subject.VerifiesUnder issuer
  valid : issuer.isValidAt subject.toNotBefore = .ok true

/-- A path of links from a certificate to one in its own name. -/
structure IsLinkedPath (start : Certificate) (path : List Certificate) : Prop where
  starts : path.head? = some start
  links : path.IsChain IsLink
  anchor : ∃ last ∈ path.getLast?, last.isSelfSigned = true

theorem isValidIssuerSubjectPair_eq_true {subject issuer : Certificate} :
    subject.isValidIssuerSubjectPair issuer = .ok true ↔ subject.IsLink issuer := by
  simp only [isValidIssuerSubjectPair, pure_eq_ok, ite_false_eq_ok_true, bind_eq_ok]
  constructor
  · rintro ⟨hname, hkey, key, htry, _, hverify, rfl, _, hvalid, rfl, -⟩
    simp only [hasMatchingIssuerSubjectDn, decide_eq_true_eq] at hname
    exact ⟨hname.symm, hkey, ⟨key, htry, hverify⟩, hvalid⟩
  · rintro ⟨hname, hkey, ⟨key, htry, hverify⟩, hvalid⟩
    have hname' : subject.hasMatchingIssuerSubjectDn issuer = true := by
      simp [hasMatchingIssuerSubjectDn, hname]
    exact ⟨hname', hkey, key, htry, true, hverify, rfl, true, hvalid, rfl, trivial⟩

/-- The loop accepts the lists in which every pair of neighbours is a link. -/
theorem linksAreValid_eq_true {path : List Certificate} :
    linksAreValid path = .ok true ↔ path.IsChain IsLink := by
  induction path with
  | nil => simp [linksAreValid]
  | cons subject rest ih =>
    cases rest with
    | nil => simp [linksAreValid]
    | cons issuer rest =>
      simp only [linksAreValid, pure_eq_ok, ite_false_eq_ok_true, bind_eq_ok, ih,
        List.isChain_cons_cons, ← isValidIssuerSubjectPair_eq_true]
      constructor
      · rintro ⟨_, hpair, rfl, hrest⟩
        exact ⟨hpair, hrest⟩
      · rintro ⟨hpair, hrest⟩
        exact ⟨true, hpair, rfl, hrest⟩

/-- The paths that are accepted. -/
theorem validateCertificatePath_eq_true {self : Certificate} {path : List Certificate} :
    self.validateCertificatePath path = .ok true ↔ self.IsLinkedPath path := by
  cases path with
  | nil =>
    simp only [validateCertificatePath, pure_eq_ok, Except.ok.injEq, Bool.false_eq_true, false_iff]
    intro h
    simpa using h.starts
  | cons first rest =>
    simp only [validateCertificatePath, pure_eq_ok]
    split
    case isTrue hne =>
      simp only [Except.ok.injEq, Bool.false_eq_true, false_iff]
      intro h
      exact hne (Option.some.inj h.starts).symm
    case isFalse hfirst =>
      obtain rfl := not_not.mp hfirst
      simp only [bind_eq_ok, ite_false_eq_ok_true, and_true]
      constructor
      · rintro ⟨_, hlinks, rfl, hanchor⟩
        exact ⟨rfl, linksAreValid_eq_true.mp hlinks, _, List.getLast?_eq_some_getLast _, hanchor⟩
      · rintro ⟨-, hlinks, last, hlast, hanchor⟩
        rw [List.getLast?_eq_some_getLast (List.cons_ne_nil _ _)] at hlast
        obtain rfl := Option.some.inj hlast
        exact ⟨true, linksAreValid_eq_true.mpr hlinks, rfl, hanchor⟩

/-! ## Paths of authorities -/

/-- `issuer` is an authority that has issued `subject`. -/
structure IsAuthorityOf (subject issuer : Certificate) : Prop where
  isCa : issuer.isCa = true
  name : issuer.tbsCertificate.subject = subject.tbsCertificate.issuer
  signature : subject.VerifiesUnder issuer
  valid : issuer.isValidAt subject.toNotBefore = .ok true

/-- A path from a certificate through authorities to one that verifies under its own key. -/
structure IsAuthorityPath (start : Certificate) (path : List Certificate) : Prop where
  starts : path.head? = some start
  issued : path.IsChain IsAuthorityOf
  anchor : ∀ last ∈ path.getLast?, last.VerifiesUnder last

/-- Acceptance of the path is sound. -/
def PathIsSound (self : Certificate) (path : List Certificate) : Prop :=
  self.validateCertificatePath path = .ok true → self.IsAuthorityPath path

/-- A chain of links is one of authorities when its issuers are. -/
theorem isChain_isAuthorityOf {path : List Certificate} (h : path.IsChain IsLink) :
    path.IsChain IsAuthorityOf ↔ ∀ issuer ∈ path.tail, issuer.isCa = true := by
  induction path with
  | nil => simp
  | cons subject rest ih =>
    cases rest with
    | nil => simp
    | cons issuer rest =>
      rw [List.isChain_cons_cons] at h ⊢
      obtain ⟨hlink, hrest⟩ := h
      rw [ih hrest]
      simp only [List.tail_cons, List.mem_cons, forall_eq_or_imp]
      constructor
      · exact fun ⟨hissuer, hall⟩ => ⟨hissuer.isCa, hall⟩
      · exact fun ⟨hca, hall⟩ =>
          ⟨⟨hca, hlink.name, hlink.signature, hlink.valid⟩, hall⟩

/-- Acceptance is sound on the paths on which a link is missing, and on those whose issuers
are authorities and whose last certificate verifies under its own key. -/
theorem pathIsSound_iff (self : Certificate) (path : List Certificate) :
    self.PathIsSound path ↔ (self.IsLinkedPath path →
      (∀ issuer ∈ path.tail, issuer.isCa = true) ∧
        ∀ last ∈ path.getLast?, last.VerifiesUnder last) := by
  unfold PathIsSound
  rw [validateCertificatePath_eq_true]
  refine forall_congr' fun hlinked => ?_
  constructor
  · intro h
    exact ⟨(isChain_isAuthorityOf hlinked.links).mp h.issued, h.anchor⟩
  · rintro ⟨hissuers, hanchor⟩
    exact ⟨hlinked.starts, (isChain_isAuthorityOf hlinked.links).mpr hissuers, hanchor⟩

end Path

/-! ## An end entity as an issuer -/

section EndEntity

open KeetaNode.Reference Asn1.Reference Certificates.Reference Certificates.Sample

/-- A path through an end-entity certificate to one with a signature of zeros is accepted. -/
theorem not_pathIsSound_endEntity :
    ¬ issuedByEndEntity.PathIsSound [issuedByEndEntity, endEntity, forgedAnchor] := by
  intro hsound
  have hpath := hsound (by decide +kernel)
  obtain ⟨hissuer, -⟩ := List.isChain_cons_cons.mp hpath.issued
  have hca : endEntity.isCa = false := by decide +kernel
  exact absurd hissuer.isCa (by simp [hca])

end EndEntity

end KeetaNode.Certificates.Certificate
