import KeetaNode.Certificates.Chain
import KeetaNode.Lib.Ber

/-!
# Bundles from concatenated encodings

`CertificateBundle::try_from` splits a byte string into certificates with a length parser
of its own, `parse_der_length`, and offsets of type `usize`, here of 64 bits. An addition
past `usize` is a panic, or wraps around where overflow is not checked; in the model it
has no value. The decoder of certificates that the `der` crate derives stays a parameter
(`CertificateDecoder`); the checks that follow it are the repository's own.

- `keetanetwork-x509/src/certificates.rs`
- `keetanetwork-x509/src/utils.rs`

## Main results

- `tryFromBytes_flatten`: the concatenation of encodings is split between them
- `accountsForInput_iff`: when all of the input is accounted for, read as its octets
  denote and without overflow
-/

namespace KeetaNode.Certificates

open ByteCodec Asn1

/-! ## Reading one certificate -/

namespace Oids

def keyUsage : ObjectIdentifier := ⟨[2, 5, 29, 15]⟩
def certificatePolicies : ObjectIdentifier := ⟨[2, 5, 29, 32]⟩
def subjectAltName : ObjectIdentifier := ⟨[2, 5, 29, 17]⟩
def nameConstraints : ObjectIdentifier := ⟨[2, 5, 29, 30]⟩

end Oids

/-- `Display`: the arcs in decimal, with dots between them. -/
def ObjectIdentifier.display (oid : ObjectIdentifier) : String :=
  ".".intercalate (oid.arcs.map fun arc => toString arc.toNat)

/-- The derived decoder of certificates (`Decode::from_der`). -/
class CertificateDecoder where
  fromDer : Bytes → Except DerError Certificate

namespace Certificate

section Compliance

variable [CertificateCodec] (certificate : Certificate)

/-- Critical extensions are among those that are known. -/
def validateCriticalExtensions : Except CertificateError Unit :=
  match certificate.tbsCertificate.extensions with
  | none => .ok ()
  | some extensions =>
    let knownCriticalExtensions := [Oids.basicConstraints, Oids.keyUsage,
      Oids.certificatePolicies, Oids.subjectAltName, Oids.nameConstraints]
    match extensions.find? fun extension =>
        extension.critical ∧ extension.extnId ∉ knownCriticalExtensions with
    | some extension =>
      .error (.validationFailed ("Unknown critical extension: " ++ extension.extnId.display))
    | none => .ok ()

/-- No identifier comes twice. -/
def checkDuplicateExtensions (extensions : List Extension) : Except CertificateError Unit :=
  go [] extensions
where
  go (seenOids : List ObjectIdentifier) : List Extension → Except CertificateError Unit
    | [] => .ok ()
    | extension :: extensions =>
      if extension.extnId ∈ seenOids then
        .error (.validationFailed ("Duplicate extension OID: " ++ extension.extnId.display))
      else go (extension.extnId :: seenOids) extensions

/-- The basic constraints of an authority are critical. -/
def checkBasicConstraintsConsistency : Except CertificateError Unit :=
  match certificate.extension Oids.basicConstraints with
  | none => .ok ()
  | some extension =>
    match CertificateCodec.basicConstraints extension.extnValue with
    | none => .ok ()
    | some constraints =>
      if constraints.ca ∧ ¬ extension.critical then
        .error (.validationFailed
          "CA certificates must have Basic Constraints marked as critical")
      else .ok ()

def validateExtensionConsistency : Except CertificateError Unit :=
  match certificate.tbsCertificate.extensions with
  | none => .ok ()
  | some extensions => do
    checkDuplicateExtensions extensions
    certificate.checkBasicConstraintsConsistency

/-- An empty subject asks for a critical alternative name; the issuer is never empty. -/
def validateDistinguishedNames : Except CertificateError Unit := do
  if certificate.tbsCertificate.subject.rdns = [] then
    match certificate.extension Oids.subjectAltName with
    | some extension =>
      if ¬ extension.critical then
        throw (.validationFailed
          "Empty subject DN requires critical Subject Alternative Name extension")
    | none =>
      throw (.validationFailed
        "Subject DN cannot be empty without Subject Alternative Name extension")
  if certificate.tbsCertificate.issuer.rdns = [] then
    throw (.validationFailed "Issuer DN cannot be empty")

def validateRfc5280Compliance : Except CertificateError Unit := do
  if certificate.tbsCertificate.version ≠ .v3 then
    throw (.validationFailed "Only X.509 v3 certificates are supported per RFC 5280")
  certificate.validateCriticalExtensions
  certificate.validateExtensionConsistency
  certificate.validateDistinguishedNames

end Compliance

/-- `TryFrom<&[u8]>`. -/
def tryFrom [CertificateCodec] [CertificateDecoder] (data : Bytes) :
    Except CertificateError Certificate := do
  let cert ← (CertificateDecoder.fromDer data).mapError ofDerError
  cert.validateRfc5280Compliance
  return cert

end Certificate

/-! ## Lengths -/

/-- Addition in `usize`; no value where it overflows. -/
def usizeAdd (a b : Nat) : Option Nat := if a + b < 2 ^ 64 then some (a + b) else none

theorem usizeAdd_of_lt {a b : Nat} (h : a + b < 2 ^ 64) : usizeAdd a b = some (a + b) := if_pos h

theorem usizeAdd_of_not_lt {a b : Nat} (h : ¬ a + b < 2 ^ 64) : usizeAdd a b = none := if_neg h

/-- The lengths of the content and of the header of a SEQUENCE. -/
def parseDerLength (data : Bytes) : Option (Nat × Nat) :=
  match data with
  | [] => none
  | tag :: afterTag =>
    if tag ≠ 0x30 then none
    else
      match afterTag with
      | [] => none
      | lengthByte :: rest =>
        if lengthByte &&& 0x80 = 0 then some (lengthByte.toNat, 2)
        else
          let lengthBytes := (lengthByte &&& 0x7F).toNat
          if lengthBytes = 0 ∨ data.length < 2 + lengthBytes then none
          else
            -- a shift in `usize` loses what goes past 64 bits
            let contentLength := (rest.take lengthBytes).foldl
              (fun acc byte => ((acc <<< 8) % 2 ^ 64) ||| byte.toNat) 0
            some (contentLength, 2 + lengthBytes)

/-! ## Splitting -/

/-- The variables of the loop. -/
structure SplitState where
  offset : Nat
  certificates : List Certificate

section Split

variable [CertificateCodec] [CertificateDecoder]

/-- A turn of the loop; `none` is an addition that overflows. -/
def splitStep (data : Bytes) (s : SplitState) : SplitState ⊕ Option (List Certificate) :=
  if s.offset < data.length then
    match parseDerLength (data.drop s.offset) with
    | some (certLen, headerLen) =>
      match usizeAdd headerLen certLen with
      | none => .inr none
      | some totalLen =>
        match usizeAdd s.offset totalLen with
        | none => .inr none
        | some stop =>
          if stop ≤ data.length then
            match Certificate.tryFrom ((data.take stop).drop s.offset) with
            | .ok cert => .inl ⟨stop, s.certificates ++ [cert]⟩
            | .error _ => .inr (some s.certificates)
          else .inr (some s.certificates)
    | none => .inr (some s.certificates)
  else .inr (some s.certificates)

def splitCertificates (data : Bytes) : Option (List Certificate) :=
  loop (splitStep data) none (fun s => data.length - s.offset) ⟨0, []⟩

end Split

/-! ## Bundles -/

namespace CertificateSet

variable [CertificateCodec]

/-- The encoding that certificates are ordered by. -/
def derKey (certificate : Certificate) : Option Bytes :=
  match certificate.toDer with
  | .ok der => some der
  | .error _ => none

/-- `Ord for Certificate`: no encoding comes before any. -/
def derLe (a b : Certificate) : Bool :=
  match derKey a, derKey b with
  | none, _ => true
  | some _, none => false
  | some a, some b => a ≤ b

/-- `BTreeSet::insert`: nothing changes where a certificate of that encoding is present. -/
def insert (set : CertificateSet) (certificate : Certificate) : CertificateSet :=
  if h : ∃ member ∈ set.members, derKey member = derKey certificate then set
  else
    { members := set.members.orderedInsert (fun a b => derLe a b) certificate
      nodup := by
        rw [(List.perm_orderedInsert _ certificate set.members).nodup_iff, List.nodup_cons]
        exact ⟨fun hmem => h ⟨certificate, hmem, rfl⟩, set.nodup⟩ }

end CertificateSet

namespace CertificateBundle

/-- A certificate that issued itself is a root, any other an intermediate. -/
def add [CertificateCodec] (bundle : CertificateBundle) (cert : Certificate) :
    CertificateBundle :=
  if cert.isSelfSigned then { bundle with root := bundle.root.insert cert }
  else { bundle with intermediate := bundle.intermediate.insert cert }

/-- `TryFrom<Vec<Certificate>>`: the first certificate, and the others added to it. -/
def tryFromCertificates [CertificateCodec] :
    List Certificate → Except CertificateError CertificateBundle
  | [] => .error (.validationFailed "Cannot create options from empty certificate vector")
  | certificate :: others =>
    .ok (others.foldl add ⟨certificate, ⟨[], List.nodup_nil⟩, ⟨[], List.nodup_nil⟩⟩)

/-- `TryFrom<&[u8]>`. -/
def tryFromBytes [CertificateCodec] [CertificateDecoder] (data : Slice) :
    Option (Except CertificateError CertificateBundle) :=
  (splitCertificates data.bytes).map tryFromCertificates

end CertificateBundle

/-! ## What the length parser reads -/

/-- Folding in `usize` is folding without a bound, with the bits past 64 lost at the end. -/
theorem foldl_shift (octets : Bytes) (acc : Nat) :
    octets.foldl (fun acc byte => ((acc <<< 8) % 2 ^ 64) ||| byte.toNat) (acc % 2 ^ 64) =
      (octets.foldl (fun acc byte => acc * 256 + byte.toNat) acc) % 2 ^ 64 := by
  induction octets generalizing acc with
  | nil => rfl
  | cons byte octets ih =>
    have hbyte : byte.toNat < 2 ^ 8 := byte.toNat_lt
    have hshift : ((acc % 2 ^ 64) <<< 8) % 2 ^ 64 = (acc % 2 ^ 56) <<< 8 := by
      simp only [Nat.shiftLeft_eq]
      omega
    have hstep : (((acc % 2 ^ 64) <<< 8) % 2 ^ 64) ||| byte.toNat =
        (acc * 256 + byte.toNat) % 2 ^ 64 := by
      rw [hshift, ← Nat.shiftLeft_add_eq_or_of_lt hbyte, Nat.shiftLeft_eq]
      omega
    rw [List.foldl_cons, List.foldl_cons, hstep, ih]

/-- What is parsed is a header in some definite form, and the length that it denotes modulo the
size of `usize`. -/
theorem form_of_parseDerLength {data : Bytes} {certLen headerLen : Nat}
    (h : parseDerLength data = some (certLen, headerLen)) :
    ∃ form rest length, data = 0x30 :: (form ++ rest) ∧ DenotesLength form length ∧
      certLen = length % 2 ^ 64 ∧ headerLen = 1 + form.length := by
  unfold parseDerLength at h
  split at h
  case h_1 => cases h
  case h_2 tag afterTag =>
    split at h
    case isTrue => cases h
    case isFalse htag =>
      obtain rfl : tag = 0x30 := not_not.mp htag
      split at h
      case h_1 => cases h
      case h_2 lengthByte rest =>
        have hbyte := lengthByte.toNat_lt
        split at h
        case isTrue hshort =>
          have hlt := (and_signBit_eq_zero lengthByte).mp hshort
          obtain ⟨rfl, rfl⟩ := Prod.mk.inj (Option.some.inj h)
          exact ⟨[lengthByte], rest, _, rfl, .short hlt, by omega, rfl⟩
        case isFalse hlong =>
          have hle := (and_signBit lengthByte).mp hlong
          have hcount := and_lengthBits lengthByte
          generalize (lengthByte &&& 0x7F).toNat = count at h hcount
          simp only at h
          split at h
          case isTrue => cases h
          case isFalse hbounds =>
            -- the octets of the length are all there
            simp only [List.length_cons] at hbounds
            have htake : (rest.take count).length = count := by
              rw [List.length_take]
              omega
            have hform : DenotesLength (lengthByte :: rest.take count)
                (ofDigitOctets (rest.take count)) :=
              .long (List.length_pos_iff.mp (by omega)) (by omega)
            obtain ⟨rfl, rfl⟩ := Prod.mk.inj (Option.some.inj h)
            refine ⟨_, rest.drop count, _, ?_, hform, foldl_shift _ 0, ?_⟩
            · rw [List.cons_append, List.take_append_drop]
            · rw [List.length_cons, htake]
              omega

/-- Every definite form is parsed. -/
theorem parseDerLength_of_form {form : Bytes} {length : Nat} (hform : DenotesLength form length)
    (rest : Bytes) :
    parseDerLength (0x30 :: (form ++ rest)) = some (length % 2 ^ 64, 1 + form.length) := by
  cases hform with
  | @short b hb =>
    have hshort := (and_signBit_eq_zero b).mpr hb
    simp [parseDerLength, hshort]
  | @long b octets hne hb =>
    have hlong : b &&& 0x80 ≠ 0 := (and_signBit b).mpr (by omega)
    have hbyte := b.toNat_lt
    have hpos := List.length_pos_iff.mpr hne
    have hcount : (b &&& 0x7F).toNat = octets.length := by
      rw [and_lengthBits]
      omega
    -- the fold of the parser loses what is above 64 bits, at any number of octets
    have hfold := foldl_shift octets 0
    rw [Nat.zero_mod] at hfold
    have hbounds : ¬ ((b &&& 0x7F).toNat = 0 ∨
        (0x30 :: (b :: octets ++ rest)).length < 2 + (b &&& 0x7F).toNat) := by
      simp only [hcount, List.length_cons, List.length_append]
      omega
    have hheader : 2 + octets.length = 1 + (b :: octets).length := by
      rw [List.length_cons]
      omega
    simp only [parseDerLength, List.cons_append] at hbounds ⊢
    rw [if_neg (by simp), if_neg hlong, if_neg hbounds, hcount, List.take_left, hfold, hheader]
    rfl

/-! ## Splitting, without offsets -/

/-- The encoding of a certificate is one SEQUENCE, its length in the shortest form. -/
class LawfulCertificateDecoder [CertificateDecoder] : Prop where
  frame_of_fromDer {data : Bytes} {cert : Certificate} :
    CertificateDecoder.fromDer data = .ok cert → ∃ content, data = frame Tag.sequence content

section Split

variable [CertificateCodec] [CertificateDecoder]

/-- Certificates whose encodings stand one after another at the front, and what follows. -/
inductive Splits : Bytes → List Certificate → Bytes → Prop
  | done (rest : Bytes) : Splits rest [] rest
  | next {piece data rest : Bytes} {cert : Certificate} {certs : List Certificate} :
      Certificate.tryFrom piece = .ok cert → Splits data certs rest →
      Splits (piece ++ data) (cert :: certs) rest

/-- No certificate stands at the front. -/
def Stuck (rest : Bytes) : Prop :=
  ∀ piece tail cert, rest = piece ++ tail → Certificate.tryFrom piece ≠ .ok cert

theorem fromDer_of_tryFrom {data : Bytes} {cert : Certificate}
    (h : Certificate.tryFrom data = .ok cert) : CertificateDecoder.fromDer data = .ok cert := by
  obtain ⟨read, hread, h⟩ := bind_eq_ok.mp h
  obtain ⟨-, -, h⟩ := bind_eq_ok.mp h
  obtain rfl := Except.ok.inj h
  exact mapError_eq_ok.mp hread

variable [LawfulCertificateDecoder]

/-- What is read as a certificate is its header and as many octets as the header says. -/
theorem header_of_tryFrom {piece : Bytes} {cert : Certificate}
    (h : Certificate.tryFrom piece = .ok cert) (hfits : piece.length < 2 ^ 63) :
    ∃ form content, piece = 0x30 :: (form ++ content) ∧ DenotesLength form content.length := by
  obtain ⟨content, rfl⟩ := LawfulCertificateDecoder.frame_of_fromDer (fromDer_of_tryFrom h)
  refine ⟨lengthOctets content.length, content, rfl, denotesLength_lengthOctets ?_⟩
  have hle : content.length < 2 ^ 63 := by
    simp only [frame, List.length_cons, List.length_append] at hfits
    omega
  exact hle.trans_le (by norm_num)

/-- Two certificates at the front of the same octets have the same encoding. -/
theorem tryFrom_append_inj {piece piece' tail tail' : Bytes} {cert cert' : Certificate}
    (h : Certificate.tryFrom piece = .ok cert) (h' : Certificate.tryFrom piece' = .ok cert')
    (hfits : (piece ++ tail).length < 2 ^ 63) (heq : piece ++ tail = piece' ++ tail') :
    piece = piece' ∧ tail = tail' := by
  have hfits' := heq ▸ hfits
  rw [List.length_append] at hfits hfits'
  obtain ⟨form, content, rfl, hform⟩ := header_of_tryFrom h (by omega)
  obtain ⟨form', content', rfl, hform'⟩ := header_of_tryFrom h' (by omega)
  simp only [List.cons_append, List.append_assoc, List.cons.injEq, true_and] at heq
  obtain ⟨rfl, hrest, hlength⟩ := hform.append_inj hform' heq
  obtain ⟨rfl, rfl⟩ := List.append_inj hrest hlength
  exact ⟨rfl, rfl⟩

/-- Octets are split as far as possible in one way. -/
theorem Splits.unique {data rest rest' : Bytes} {certs certs' : List Certificate}
    (hfits : data.length < 2 ^ 63) (h : Splits data certs rest) (hstuck : Stuck rest)
    (h' : Splits data certs' rest') (hstuck' : Stuck rest') : certs = certs' ∧ rest = rest' := by
  induction h generalizing certs' with
  | done rest =>
    cases h' with
    | done => exact ⟨rfl, rfl⟩
    | next hpiece _ => exact absurd hpiece (hstuck _ _ _ rfl)
  | @next piece data rest cert certs hpiece hdata ih =>
    generalize hwhole : piece ++ data = whole at h' hfits
    cases h' with
    | done => exact absurd hpiece (hstuck' _ _ _ hwhole.symm)
    | @next piece' data' _ cert' certs' hpiece' hdata' =>
      obtain ⟨rfl, rfl⟩ := tryFrom_append_inj hpiece hpiece' (by rwa [hwhole]) hwhole
      obtain rfl := Except.ok.inj (hpiece.symm.trans hpiece')
      have hlt : data.length < 2 ^ 63 := by
        rw [List.length_append] at hfits
        omega
      obtain ⟨rfl, rfl⟩ := ih hlt hstuck hdata'
      exact ⟨rfl, rfl⟩

theorem exists_splits (data : Bytes) (hfits : data.length < 2 ^ 63) :
    ∃ certs rest, Splits data certs rest ∧ Stuck rest := by
  induction hlength : data.length using Nat.strongRecOn generalizing data with
  | ind n ih =>
    by_cases hstuck : Stuck data
    case pos => exact ⟨[], data, .done data, hstuck⟩
    case neg =>
      simp only [Stuck, not_forall, not_not] at hstuck
      obtain ⟨piece, tail, cert, rfl, hpiece⟩ := hstuck
      rw [List.length_append] at hlength hfits
      obtain ⟨form, content, hframe, -⟩ := header_of_tryFrom hpiece (by omega)
      have hpos : 0 < piece.length := by
        rw [hframe]
        simp
      obtain ⟨certs, rest, hsplits, hrest⟩ := ih tail.length (by omega) tail (by omega) rfl
      exact ⟨cert :: certs, rest, .next hpiece hsplits, hrest⟩

/-! ## What the loop returns -/

/-- The header at the front of the rest, counted from an offset, lies within `usize`. -/
def Measurable (offset : Nat) (rest : Bytes) : Prop :=
  ∀ certLen headerLen, parseDerLength rest = some (certLen, headerLen) →
    offset + (headerLen + certLen) < 2 ^ 64

omit [LawfulCertificateDecoder] in
/-- A turn of the loop takes a certificate, or ends it with those so far, or overflows. -/
theorem splitStep_cases (data : Bytes) (s : SplitState) :
    (∃ certLen headerLen cert,
      parseDerLength (data.drop s.offset) = some (certLen, headerLen) ∧
      s.offset + (headerLen + certLen) ≤ data.length ∧
      Certificate.tryFrom ((data.take (s.offset + (headerLen + certLen))).drop s.offset) =
        .ok cert ∧
      splitStep data s = .inl ⟨s.offset + (headerLen + certLen), s.certificates ++ [cert]⟩) ∨
    (Measurable s.offset (data.drop s.offset) ∧
      (∀ certLen headerLen cert,
        parseDerLength (data.drop s.offset) = some (certLen, headerLen) →
        s.offset + (headerLen + certLen) ≤ data.length →
        Certificate.tryFrom ((data.take (s.offset + (headerLen + certLen))).drop s.offset) ≠
          .ok cert) ∧
      splitStep data s = .inr (some s.certificates)) ∨
    (¬ Measurable s.offset (data.drop s.offset) ∧ splitStep data s = .inr none) := by
  unfold splitStep
  by_cases hoffset : s.offset < data.length
  case neg =>
    -- nothing is left, and no header stands there
    have hnil : data.drop s.offset = [] := List.drop_eq_nil_of_le (by omega)
    rw [if_neg hoffset, hnil]
    exact .inr (.inl ⟨fun _ _ h => (nomatch h), fun _ _ _ h => (nomatch h), rfl⟩)
  case pos =>
    rw [if_pos hoffset]
    cases hparse : parseDerLength (data.drop s.offset) with
    | none =>
      refine .inr (.inl ⟨fun _ _ h => ?_, fun _ _ _ h => (nomatch h), rfl⟩)
      rw [hparse] at h
      cases h
    | some lengths =>
      obtain ⟨certLen, headerLen⟩ := lengths
      have hmeasurable : Measurable s.offset (data.drop s.offset) ↔
          s.offset + (headerLen + certLen) < 2 ^ 64 := by
        simp [Measurable, hparse]
      by_cases hsum : s.offset + (headerLen + certLen) < 2 ^ 64
      case neg =>
        -- one of the two additions overflows
        refine .inr (.inr ⟨by rwa [hmeasurable], ?_⟩)
        by_cases htotal : headerLen + certLen < 2 ^ 64
        · simp only [usizeAdd_of_lt htotal, usizeAdd_of_not_lt hsum]
        · simp only [usizeAdd_of_not_lt htotal]
      case pos =>
        have htotal : headerLen + certLen < 2 ^ 64 := by omega
        simp only [usizeAdd_of_lt htotal, usizeAdd_of_lt hsum]
        by_cases hle : s.offset + (headerLen + certLen) ≤ data.length
        case neg =>
          refine .inr (.inl ⟨hmeasurable.mpr hsum, ?_, if_neg hle⟩)
          rintro _ _ _ ⟨⟩ hle'
          exact absurd hle' hle
        case pos =>
          rw [if_pos hle]
          cases hread : Certificate.tryFrom
              ((data.take (s.offset + (headerLen + certLen))).drop s.offset) with
          | ok cert => exact .inl ⟨_, _, cert, rfl, hle, hread, rfl⟩
          | error error =>
            refine .inr (.inl ⟨hmeasurable.mpr hsum, ?_, rfl⟩)
            rintro _ _ _ ⟨⟩ -
            simp [hread]

omit [LawfulCertificateDecoder] in
theorem decreasing_splitStep (data : Bytes) :
    Decreasing (splitStep data) fun s => data.length - s.offset := by
  intro s s' h
  rcases splitStep_cases data s with
    ⟨certLen, headerLen, cert, hparse, hle, -, hstep⟩ | ⟨-, -, hstep⟩ | ⟨-, hstep⟩
  · obtain rfl := Sum.inl.inj (hstep.symm.trans h)
    obtain ⟨form, rest, length, -, -, -, rfl⟩ := form_of_parseDerLength hparse
    simp only
    omega
  · cases hstep.symm.trans h
  · cases hstep.symm.trans h

omit [LawfulCertificateDecoder] in
/-- Where no certificate stands at the front, the loop ends. -/
theorem splitStep_stuck {before rest : Bytes} (certs : List Certificate) (hstuck : Stuck rest) :
    (Measurable before.length rest →
      splitStep (before ++ rest) ⟨before.length, certs⟩ = .inr (some certs)) ∧
    (¬ Measurable before.length rest →
      splitStep (before ++ rest) ⟨before.length, certs⟩ = .inr none) := by
  have hdrop : (before ++ rest).drop before.length = rest := List.drop_left
  rcases splitStep_cases (before ++ rest) ⟨before.length, certs⟩ with
    ⟨certLen, headerLen, cert, -, -, hread, -⟩ | ⟨hmeasurable, -, hstep⟩ | ⟨hoverflow, hstep⟩
  · -- what would be read is the front of the rest
    rw [List.take_length_add_append, List.drop_left] at hread
    exact absurd hread (hstuck _ _ _ (List.take_append_drop _ rest).symm)
  · rw [hdrop] at hmeasurable
    exact ⟨fun _ => hstep, fun h => absurd hmeasurable h⟩
  · rw [hdrop] at hoverflow
    exact ⟨fun h => absurd h hoverflow, fun _ => hstep⟩

/-- A certificate at the front is taken whole. -/
theorem splitStep_next {before piece tail : Bytes} {cert : Certificate}
    (certs : List Certificate) (hpiece : Certificate.tryFrom piece = .ok cert)
    (hfits : (before ++ (piece ++ tail)).length < 2 ^ 63) :
    splitStep (before ++ (piece ++ tail)) ⟨before.length, certs⟩ =
      .inl ⟨(before ++ piece).length, certs ++ [cert]⟩ := by
  have hlengths : (before ++ (piece ++ tail)).length =
      before.length + (piece.length + tail.length) := by simp
  obtain ⟨form, content, hframe, hform⟩ := header_of_tryFrom hpiece (by omega)
  have hlength : piece.length = 1 + form.length + content.length := by
    rw [hframe, List.length_cons, List.length_append]
    omega
  have hparse : parseDerLength (piece ++ tail) = some (content.length, 1 + form.length) := by
    have hsmall : content.length % 2 ^ 64 = content.length := Nat.mod_eq_of_lt (by omega)
    rw [hframe, List.cons_append, List.append_assoc, parseDerLength_of_form hform, hsmall]
  have hdrop : (before ++ (piece ++ tail)).drop before.length = piece ++ tail := List.drop_left
  have htake : ((before ++ (piece ++ tail)).take
      (before.length + (1 + form.length + content.length))).drop before.length = piece := by
    rw [← hlength, List.take_length_add_append, List.drop_left, List.take_left]
  have hsplit := splitStep_cases (before ++ (piece ++ tail)) ⟨before.length, certs⟩
  simp only [hdrop, hparse, Option.some.injEq, Prod.mk.injEq] at hsplit
  -- neither does the loop end before the piece, nor is an addition out of range
  rcases hsplit with
    ⟨_, _, cert', ⟨rfl, rfl⟩, -, hread, hstep⟩ | ⟨-, hread, -⟩ | ⟨hoverflow, -⟩
  · rw [htake, hpiece] at hread
    obtain rfl := Except.ok.inj hread
    rw [hstep, List.length_append, hlength]
  · exact absurd (htake.symm ▸ hpiece) (hread _ _ _ ⟨rfl, rfl⟩ (by omega))
  · refine absurd ?_ hoverflow
    simp only [Measurable, hparse, Option.some.injEq, Prod.mk.injEq]
    rintro _ _ ⟨rfl, rfl⟩
    omega

/-- The loop goes through certificates at the front. -/
theorem loop_splits {before data rest : Bytes} {certs : List Certificate}
    (hsplits : Splits data certs rest) (hfits : (before ++ data).length < 2 ^ 63)
    (found : List Certificate) :
    ∃ piece, data = piece ++ rest ∧
      loop (splitStep (before ++ data)) none (fun s => (before ++ data).length - s.offset)
          ⟨before.length, found⟩ =
        loop (splitStep (before ++ data)) none (fun s => (before ++ data).length - s.offset)
          ⟨(before ++ piece).length, found ++ certs⟩ := by
  induction hsplits generalizing before found with
  | done rest => exact ⟨[], rfl, by simp⟩
  | @next piece data rest cert certs hpiece hdata ih =>
    rw [← List.append_assoc] at hfits
    obtain ⟨others, hothers, hloop⟩ := ih hfits (found ++ [cert])
    refine ⟨piece ++ others, by rw [hothers, List.append_assoc], ?_⟩
    rw [loop_eq (decreasing_splitStep _), splitStep_next found hpiece (by simpa using hfits)]
    simpa using hloop

/-- **The loop splits its input as far as possible**, where no addition overflows at the
end of what can be split. -/
theorem splitCertificates_eq {data rest : Bytes} {certs : List Certificate}
    (hfits : data.length < 2 ^ 63) (hsplits : Splits data certs rest) (hstuck : Stuck rest) :
    (Measurable (data.length - rest.length) rest → splitCertificates data = some certs) ∧
    (¬ Measurable (data.length - rest.length) rest → splitCertificates data = none) := by
  obtain ⟨front, rfl, hloop⟩ := @loop_splits _ _ _ [] data rest certs hsplits hfits []
  simp only [List.nil_append, List.length_nil] at hloop
  have hoffset : (front ++ rest).length - rest.length = front.length := by simp
  have hend := @splitStep_stuck _ _ front rest certs hstuck
  rw [hoffset, splitCertificates, hloop, loop_eq (decreasing_splitStep _)]
  exact ⟨fun h => by rw [hend.1 h], fun h => by rw [hend.2 h]⟩

omit [LawfulCertificateDecoder] in
theorem Splits.length_le {data rest : Bytes} {certs : List Certificate}
    (h : Splits data certs rest) : rest.length ≤ data.length := by
  induction h with
  | done => exact Nat.le_refl _
  | next _ _ ih =>
    rw [List.length_append]
    omega

/-- The header of a certificate denotes a length within the input. -/
theorem Splits.length_lt_of_not_stuck {data rest form tail : Bytes} {certs : List Certificate}
    {length : Nat} (hsplits : Splits data certs rest) (hfits : data.length < 2 ^ 63)
    (hstuck : ¬ Stuck rest) (hrest : rest = 0x30 :: (form ++ tail))
    (hform : DenotesLength form length) : length < 2 ^ 64 := by
  simp only [Stuck, not_forall, not_not] at hstuck
  obtain ⟨piece, others, cert, rfl, hpiece⟩ := hstuck
  have hle := hsplits.length_le
  rw [List.length_append] at hle
  obtain ⟨form', content, rfl, hform'⟩ := header_of_tryFrom hpiece (by omega)
  rw [List.cons_append, List.append_assoc] at hrest
  obtain ⟨-, -, rfl⟩ := hform.append_inj hform' (List.cons.inj hrest).2.symm
  simp only [List.length_cons, List.length_append] at hle
  omega

theorem Splits.nil_of_stuck : Stuck [] := by
  intro piece tail cert hnil hread
  obtain ⟨rfl, -⟩ := List.append_eq_nil_iff.mp hnil.symm
  obtain ⟨form, content, hframe, -⟩ := header_of_tryFrom hread (by simp)
  cases hframe

omit [LawfulCertificateDecoder] in
theorem splits_flatten {certs : List Certificate} {ders : List Bytes}
    (h : List.Forall₂ (fun cert der => Certificate.tryFrom der = .ok cert) certs ders) :
    Splits ders.flatten certs [] := by
  induction h with
  | nil => exact .done []
  | cons hread _ ih => exact .next hread ih

end Split

/-! ## Bundles of what was split -/

namespace CertificateSet

variable [CertificateCodec]

/-- A set takes a certificate that has the encoding of no other member. -/
theorem mem_insert {set : CertificateSet} {certificate cert : Certificate}
    (h : ∀ member ∈ set.members, derKey member = derKey certificate → member = certificate) :
    cert ∈ (set.insert certificate).members ↔ cert = certificate ∨ cert ∈ set.members := by
  unfold insert
  split
  case isTrue hmem =>
    obtain ⟨member, hmember, hkey⟩ := hmem
    obtain rfl := h member hmember hkey
    constructor
    · exact Or.inr
    · rintro (rfl | hcert)
      · exact hmember
      · exact hcert
  case isFalse => exact List.mem_orderedInsert _

end CertificateSet

namespace CertificateBundle

variable [CertificateCodec]

/-- The bundle of a certificate and others that were added to it, in either set. -/
structure Sorts (first : Certificate) (others : List Certificate) (bundle : CertificateBundle) :
    Prop where
  certificate : bundle.certificate = first
  root (cert : Certificate) :
    cert ∈ bundle.root.members ↔ cert ∈ others ∧ cert.isSelfSigned = true
  intermediate (cert : Certificate) :
    cert ∈ bundle.intermediate.members ↔ cert ∈ others ∧ cert.isSelfSigned = false

/-- A certificate of a set's kind is put into it. -/
theorem mem_insert_of_kind {set : CertificateSet} {others : List Certificate}
    {cert c : Certificate} {kind : Certificate → Prop}
    (hset : ∀ c, c ∈ set.members ↔ c ∈ others ∧ kind c) (hcert : kind cert)
    (hkeys : ∀ other ∈ others, CertificateSet.derKey other = CertificateSet.derKey cert →
      other = cert) : c ∈ (set.insert cert).members ↔ c ∈ others ++ [cert] ∧ kind c := by
  rw [CertificateSet.mem_insert fun member hmember => hkeys member ((hset member).mp hmember).1,
    hset, List.mem_append, List.mem_singleton]
  constructor
  · rintro (rfl | ⟨hc, hkind⟩)
    · exact ⟨.inr rfl, hcert⟩
    · exact ⟨.inl hc, hkind⟩
  · rintro ⟨hc | rfl, hkind⟩
    · exact .inr ⟨hc, hkind⟩
    · exact .inl rfl

omit [CertificateCodec] in
/-- A certificate of another kind leaves the set as it is. -/
theorem mem_of_other_kind {set : CertificateSet} {others : List Certificate}
    {cert c : Certificate} {kind : Certificate → Prop}
    (hset : ∀ c, c ∈ set.members ↔ c ∈ others ∧ kind c) (hcert : ¬ kind cert) :
    c ∈ set.members ↔ c ∈ others ++ [cert] ∧ kind c := by
  rw [hset, List.mem_append, List.mem_singleton]
  constructor
  · exact fun ⟨hc, hkind⟩ => ⟨.inl hc, hkind⟩
  · rintro ⟨hc | rfl, hkind⟩
    · exact ⟨hc, hkind⟩
    · exact absurd hkind hcert

theorem Sorts.add {first cert : Certificate} {others : List Certificate}
    {bundle : CertificateBundle} (h : bundle.Sorts first others)
    (hkeys : ∀ other ∈ others, CertificateSet.derKey other = CertificateSet.derKey cert →
      other = cert) : (bundle.add cert).Sorts first (others ++ [cert]) := by
  obtain ⟨hcertificate, hroot, hintermediate⟩ := h
  unfold CertificateBundle.add
  split
  case isTrue hself =>
    exact ⟨hcertificate, fun c => mem_insert_of_kind hroot hself hkeys,
      fun c => mem_of_other_kind hintermediate (by simp [hself])⟩
  case isFalse hself =>
    exact ⟨hcertificate, fun c => mem_of_other_kind hroot hself,
      fun c => mem_insert_of_kind hintermediate (by simpa using hself) hkeys⟩

theorem Sorts.foldl_add {first : Certificate} {others more : List Certificate}
    {bundle : CertificateBundle} (h : bundle.Sorts first others)
    (hkeys : ∀ a ∈ others ++ more, ∀ b ∈ others ++ more,
      CertificateSet.derKey a = CertificateSet.derKey b → a = b) :
    (more.foldl CertificateBundle.add bundle).Sorts first (others ++ more) := by
  induction more generalizing others bundle with
  | nil => simpa using h
  | cons cert more ih =>
    have hadd := h.add fun other hother =>
      hkeys other (List.mem_append_left _ hother) cert (by simp)
    rw [← List.singleton_append, ← List.append_assoc] at hkeys ⊢
    exact ih hadd hkeys

/-- Certificates told apart by their encodings all get into one of the two sets. -/
theorem tryFromCertificates_cons {first : Certificate} {others : List Certificate}
    (hkeys : ∀ a ∈ others, ∀ b ∈ others,
      CertificateSet.derKey a = CertificateSet.derKey b → a = b) :
    ∃ bundle, tryFromCertificates (first :: others) = .ok bundle ∧ bundle.Sorts first others := by
  have hempty : Sorts first [] ⟨first, ⟨[], List.nodup_nil⟩, ⟨[], List.nodup_nil⟩⟩ :=
    ⟨rfl, by simp, by simp⟩
  have hadded := hempty.foldl_add (by simpa only [List.nil_append] using hkeys)
  exact ⟨_, rfl, by simpa only [List.nil_append] using hadded⟩

end CertificateBundle

/-! ## Main results -/

/-- What the encoder of certificates writes is read back, where it is read at all. -/
class LawfulCertificateCodec [CertificateCodec] [CertificateDecoder] : Prop
    extends LawfulCertificateDecoder where
  fromDer_encode {cert read : Certificate} {der : Bytes} :
    CertificateCodec.encode cert = .ok der → CertificateDecoder.fromDer der = .ok read →
      read = cert

section Main

variable [CertificateCodec] [CertificateDecoder]

omit [CertificateDecoder] in
theorem derKey_eq_some {certificate : Certificate} {der : Bytes}
    (h : CertificateSet.derKey certificate = some der) : certificate.toDer = .ok der := by
  unfold CertificateSet.derKey at h
  cases hder : certificate.toDer with
  | ok _ =>
    rw [hder] at h
    rw [Option.some.inj h]
  | error _ =>
    rw [hder] at h
    cases h

omit [CertificateDecoder] in
theorem encode_of_toDer {certificate : Certificate} {der : Bytes}
    (h : certificate.toDer = .ok der) : CertificateCodec.encode certificate = .ok der := by
  unfold Certificate.toDer at h
  cases hencode : CertificateCodec.encode certificate with
  | ok _ =>
    rw [hencode] at h
    rw [Except.ok.inj h]
  | error _ =>
    rw [hencode] at h
    cases h

/-- **A bundle of encodings is split exactly between them.** The first certificate is the
bundle's own, and every other is in the set it belongs to. -/
theorem tryFromBytes_flatten [LawfulCertificateCodec] {first : Certificate}
    {others : List Certificate} {ders : List Bytes} {data : Slice}
    (haccepted : List.Forall₂ (fun cert der =>
      cert.toDer = .ok der ∧ ∃ read, Certificate.tryFrom der = .ok read) (first :: others) ders)
    (hdata : data.bytes = ders.flatten) :
    ∃ bundle, CertificateBundle.tryFromBytes data = some (.ok bundle) ∧
      bundle.Sorts first others := by
  have hreads : List.Forall₂ (fun cert der =>
      (∃ der, cert.toDer = .ok der ∧ CertificateDecoder.fromDer der = .ok cert) ∧
        Certificate.tryFrom der = .ok cert) (first :: others) ders := by
    refine haccepted.imp ?_
    rintro cert der ⟨hder, read, hread⟩
    have hfrom := fromDer_of_tryFrom hread
    obtain rfl := LawfulCertificateCodec.fromDer_encode (encode_of_toDer hder) hfrom
    exact ⟨⟨der, hder, hfrom⟩, hread⟩
  obtain ⟨hown, hreads⟩ := (List.forall₂_and_left _ _).mp hreads
  have hsplits := splits_flatten hreads
  rw [← hdata] at hsplits
  have hcerts := (splitCertificates_eq data.fits hsplits Splits.nil_of_stuck).1
    fun _ _ h => nomatch h
  -- what is read back is told apart by its encoding
  have hkeys : ∀ a ∈ others, ∀ b ∈ others,
      CertificateSet.derKey a = CertificateSet.derKey b → a = b := by
    intro a ha b hb hkey
    obtain ⟨der, hder, hfrom⟩ := hown a (List.mem_cons_of_mem first ha)
    have hkeyA : CertificateSet.derKey a = some der := by rw [CertificateSet.derKey, hder]
    have hderB := derKey_eq_some (hkey.symm.trans hkeyA)
    exact LawfulCertificateCodec.fromDer_encode (encode_of_toDer hderB) hfrom
  obtain ⟨bundle, hbundle, hsorts⟩ :=
    @CertificateBundle.tryFromCertificates_cons _ first others hkeys
  exact ⟨bundle, by rw [CertificateBundle.tryFromBytes, hcerts, Option.map_some, hbundle], hsorts⟩

/-- All of the input is accounted for: it is the encodings of the parsed certificates, one
after another; no addition overflows; and every length is read as its octets denote it. -/
structure AccountsForInput (data : Slice) : Prop where
  complete (bundle : CertificateBundle) :
    CertificateBundle.tryFromBytes data = some (.ok bundle) →
      ∃ certs, Splits data.bytes certs [] ∧
        CertificateBundle.tryFromCertificates certs = .ok bundle
  additions : CertificateBundle.tryFromBytes data ≠ none
  lengths {certs : List Certificate} {rest : Bytes} {certLen headerLen : Nat} :
    Splits data.bytes certs rest → parseDerLength rest = some (certLen, headerLen) →
      ∃ form tail, rest = 0x30 :: (form ++ tail) ∧ DenotesLength form certLen ∧
        headerLen = 1 + form.length

/-- Where the input cannot be split any further, either it is at its end or it had no
certificate at all, and a header there denotes an element that ends within `usize`. -/
def EndsWithCertificates (data : Slice) : Prop :=
  ∀ certs rest, Splits data.bytes certs rest → Stuck rest →
    (certs = [] ∨ rest = []) ∧
    ∀ form tail length, rest = 0x30 :: (form ++ tail) → DenotesLength form length →
      data.bytes.length - rest.length + (1 + form.length + length) < 2 ^ 64

theorem accountsForInput_iff [LawfulCertificateDecoder] (data : Slice) :
    AccountsForInput data ↔ EndsWithCertificates data := by
  constructor
  case mp =>
    rintro ⟨hcomplete, hadditions, hlengths⟩ certs rest hsplits hstuck
    obtain ⟨hsome, hnone⟩ := splitCertificates_eq data.fits hsplits hstuck
    -- no addition overflows, so that the loop ends with the certificates of the split
    have hmeasurable : Measurable (data.bytes.length - rest.length) rest := by
      by_contra hoverflow
      exact hadditions (by rw [CertificateBundle.tryFromBytes, hnone hoverflow]; rfl)
    refine ⟨?_, ?_⟩
    · cases certs with
      | nil => exact .inl rfl
      | cons first others =>
        obtain ⟨certs', hsplits', -⟩ := hcomplete _ (by
          rw [CertificateBundle.tryFromBytes, hsome hmeasurable, Option.map_some]; rfl)
        exact .inr (hsplits.unique data.fits hstuck hsplits' Splits.nil_of_stuck).2
    · rintro form tail length rfl hform
      -- the length that is parsed is the one denoted, not only modulo the size of a word
      have hparse := parseDerLength_of_form hform tail
      obtain ⟨form', tail', heq, hform', -⟩ := hlengths hsplits hparse
      obtain ⟨-, -, hlength⟩ := hform.append_inj hform' (List.cons.inj heq).2
      have := hmeasurable _ _ hparse
      rw [← hlength] at this
      omega
  case mpr =>
    intro h
    obtain ⟨certs, rest, hsplits, hstuck⟩ := exists_splits data.bytes data.fits
    obtain ⟨hends, hwithin⟩ := h certs rest hsplits hstuck
    have hmeasurable : Measurable (data.bytes.length - rest.length) rest := by
      intro certLen headerLen hparse
      obtain ⟨form, tail, length, hrest, hform, rfl, rfl⟩ := form_of_parseDerLength hparse
      have := hwithin form tail length hrest hform
      have hmod := Nat.mod_le length (2 ^ 64)
      omega
    have hcerts := (splitCertificates_eq data.fits hsplits hstuck).1 hmeasurable
    refine ⟨fun bundle hbundle => ?_, ?_, ?_⟩
    · rw [CertificateBundle.tryFromBytes, hcerts, Option.map_some] at hbundle
      have hbundle := Option.some.inj hbundle
      rcases hends with rfl | rfl
      · cases hbundle
      · exact ⟨certs, hsplits, hbundle⟩
    · rw [CertificateBundle.tryFromBytes, hcerts]
      exact Option.some_ne_none _
    · intro certs' rest' certLen headerLen hsplits' hparse
      obtain ⟨form, tail, length, hrest, hform, rfl, rfl⟩ := form_of_parseDerLength hparse
      -- where the split goes on, the certificate that follows bounds the length
      have hlt : length < 2 ^ 64 := by
        by_cases hstuck' : Stuck rest'
        case pos =>
          obtain ⟨-, rfl⟩ := hsplits'.unique data.fits hstuck' hsplits hstuck
          have := hwithin form tail length hrest hform
          omega
        case neg => exact hsplits'.length_lt_of_not_stuck data.fits hstuck' hrest hform
      exact ⟨form, tail, hrest, by rwa [Nat.mod_eq_of_lt hlt], rfl⟩

end Main

/-! ## Sample bundles -/

section Samples

open KeetaNode.Reference Asn1.Reference Certificates.Reference Certificates.Sample

/-- An encoder and a decoder of two of the sample certificates. -/
@[reducible] def sampleCodec : CertificateCodec :=
  { Reference.certificateCodec with
    encode := fun cert =>
      if cert = endEntity ∨ cert = forgedAnchor then .ok (certificateElement cert)
      else .error .incomplete }

@[reducible] def sampleDecoder : CertificateDecoder where
  fromDer data :=
    if data = certificateElement endEntity then .ok endEntity
    else if data = certificateElement forgedAnchor then .ok forgedAnchor
    else .error .incomplete

theorem fromDer_sampleDecoder {data : Bytes} {cert : Certificate}
    (h : sampleDecoder.fromDer data = .ok cert) :
    data = certificateElement cert ∧ (cert = endEntity ∨ cert = forgedAnchor) := by
  change (if data = certificateElement endEntity then Except.ok endEntity
    else if data = certificateElement forgedAnchor then .ok forgedAnchor
    else .error DerError.incomplete) = .ok cert at h
  split at h
  case isTrue hdata =>
    obtain rfl := Except.ok.inj h
    exact ⟨hdata, .inl rfl⟩
  case isFalse =>
    split at h
    case isTrue hdata =>
      obtain rfl := Except.ok.inj h
      exact ⟨hdata, .inr rfl⟩
    case isFalse => cases h

theorem encode_sampleCodec {cert : Certificate} {der : Bytes}
    (h : sampleCodec.encode cert = .ok der) :
    certificateElement cert = der ∧ (cert = endEntity ∨ cert = forgedAnchor) := by
  change (if cert = endEntity ∨ cert = forgedAnchor then Except.ok (certificateElement cert)
    else .error DerError.incomplete) = .ok der at h
  split at h
  case isTrue hcert => exact ⟨Except.ok.inj h, hcert⟩
  case isFalse => cases h

theorem toDer_sampleCodec {cert : Certificate} (h : cert = endEntity ∨ cert = forgedAnchor) :
    @Certificate.toDer sampleCodec cert = .ok (certificateElement cert) := by
  have hencode : sampleCodec.encode cert = .ok (certificateElement cert) := if_pos h
  unfold Certificate.toDer
  rw [hencode]

theorem certificateElement_sample_ne :
    certificateElement endEntity ≠ certificateElement forgedAnchor := by
  decide +kernel

theorem lawful_sampleDecoder : @LawfulCertificateDecoder sampleDecoder := by
  let _ := sampleDecoder
  constructor
  intro data cert h
  exact ⟨_, (fromDer_sampleDecoder h).1⟩

theorem lawful_sampleCodec : @LawfulCertificateCodec sampleCodec sampleDecoder := by
  let _ := sampleCodec
  let _ := sampleDecoder
  let _ := lawful_sampleDecoder
  constructor
  intro cert read der hencode hread
  obtain ⟨rfl, hsample⟩ := fromDer_sampleDecoder hread
  obtain ⟨heq, hcert⟩ := encode_sampleCodec hencode
  -- the two encodings differ, so that both are of one certificate
  rcases hcert with rfl | rfl <;> rcases hsample with rfl | rfl
  · rfl
  · exact absurd heq certificateElement_sample_ne
  · exact absurd heq.symm certificateElement_sample_ne
  · rfl

/-- The end entity and the certificate that issued itself, one after the other. -/
def sampleBundle : Slice where
  bytes := certificateElement endEntity ++ certificateElement forgedAnchor
  fits := by decide +kernel

theorem tryFrom_sample :
    @Certificate.tryFrom sampleCodec sampleDecoder (certificateElement endEntity) =
      .ok endEntity ∧
    @Certificate.tryFrom sampleCodec sampleDecoder (certificateElement forgedAnchor) =
      .ok forgedAnchor := by
  decide +kernel

theorem tryFromBytes_flatten_sample :
    ∃ bundle : CertificateBundle,
      @CertificateBundle.tryFromBytes sampleCodec sampleDecoder sampleBundle =
        some (.ok bundle) ∧
      bundle.Sorts endEntity [forgedAnchor] := by
  let _ := sampleCodec
  let _ := sampleDecoder
  let _ := lawful_sampleCodec
  exact tryFromBytes_flatten (.cons ⟨toDer_sampleCodec (.inl rfl), _, tryFrom_sample.1⟩
    (.cons ⟨toDer_sampleCodec (.inr rfl), _, tryFrom_sample.2⟩ .nil)) (by simp [sampleBundle])

theorem accountsForInput_iff_sample :
    @AccountsForInput sampleCodec sampleDecoder sampleBundle ↔
      @EndsWithCertificates sampleCodec sampleDecoder sampleBundle := by
  let _ := sampleCodec
  let _ := sampleDecoder
  let _ := lawful_sampleDecoder
  exact accountsForInput_iff sampleBundle

/-- A certificate and an octet after it. -/
def trailingOctet : Slice := ⟨certificateElement endEntity ++ [0x00], by decide +kernel⟩

/-- A length of eight octets that are all ones, which goes past `usize` with its header. -/
def overflowingLength : Slice := ⟨0x30 :: 0x88 :: List.replicate 8 0xFF, by decide⟩

/-- A length of nine octets, the first of which is shifted out. -/
def shiftedLength : Slice := ⟨0x30 :: 0x89 :: 0x01 :: List.replicate 8 0x00, by decide⟩

/-- The octet after a certificate is ignored, the addition overflows, and the long length
is read as zero. -/
theorem not_accountsForInput_samples :
    ¬ @AccountsForInput sampleCodec sampleDecoder trailingOctet ∧
    ¬ @AccountsForInput sampleCodec sampleDecoder overflowingLength ∧
    ¬ @AccountsForInput sampleCodec sampleDecoder shiftedLength := by
  let _ := sampleCodec
  let _ := sampleDecoder
  let _ := lawful_sampleDecoder
  refine ⟨fun h => ?_, fun h => h.additions rfl, fun h => ?_⟩
  case refine_1 =>
    have hstuck : Stuck [0x00] := by
      intro piece tail cert heq hread
      have hle := congrArg List.length heq
      rw [List.length_append] at hle
      obtain ⟨form, content, rfl, -⟩ := header_of_tryFrom hread (by simp at hle; omega)
      cases heq
    have hsplits : Splits trailingOctet.bytes [endEntity] [0x00] :=
      .next tryFrom_sample.1 (.done _)
    have hcerts := (splitCertificates_eq trailingOctet.fits hsplits hstuck).1
      fun _ _ h => nomatch h
    obtain ⟨certs, hall, -⟩ := h.complete _ (by
      rw [CertificateBundle.tryFromBytes, hcerts, Option.map_some]
      rfl)
    cases (hsplits.unique trailingOctet.fits hstuck hall Splits.nil_of_stuck).2
  case refine_2 =>
    have hform : DenotesLength (0x89 :: 0x01 :: List.replicate 8 0x00) (2 ^ 64) :=
      @DenotesLength.long 0x89 (0x01 :: List.replicate 8 0x00) (by simp) (by decide)
    have hread : parseDerLength shiftedLength.bytes = some (0, 11) := by decide
    obtain ⟨form, tail, heq, hzero, -⟩ := h.lengths (.done _) hread
    have hsplit : (0x89 :: 0x01 :: List.replicate 8 0x00) ++ [] = form ++ tail :=
      (List.append_nil _).trans (List.cons.inj heq).2
    have := (hform.append_inj hzero hsplit).2.2
    omega

end Samples

end KeetaNode.Certificates
