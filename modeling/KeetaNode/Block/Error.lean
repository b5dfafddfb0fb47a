import KeetaNode.Account
import KeetaNode.Asn1.Der

/-!
# Errors of the block crate

- `keetanetwork-block/src/error.rs`
- `keetanetwork-x509/src/error.rs`
-/

namespace KeetaNode

/-- Account info fields validated by `SET_INFO`. -/
inductive InfoField where
  | name | description | metadata
  deriving DecidableEq, Repr

/-- Fields of a block that errors name. -/
inductive BlockField where
  | version | network | account | previous | signer | date
  deriving DecidableEq, Repr

/-- Failures of parsing a certificate and of checking the graph it belongs to. -/
inductive CertificateError where
  | invalidCertificate
  | asn1ParseError (message : String)
  | validationFailed (reason : String)
  | unsupportedVersion (version : Nat)
  | certificateSignatureVerificationFailed
  | certificateDuplicateIncluded
  | certificateOrphanFound
  | certificateCycleFound
  | certificateInvalidGraphCount (max : Nat)
  deriving DecidableEq, Repr

/-- The conversion of a slice to a fixed-size array is the only fallible crypto
operation a block's encoding uses. -/
inductive CryptoError where
  | invalidKeySize
  deriving DecidableEq, Repr

inductive BlockError where
  | codec (source : Asn1.Asn1Error)
  | account (source : AccountError)
  | crypto (source : CryptoError)
  | certificate (source : CertificateError)
  | missingField (field : BlockField)
  | invalidVersion
  | previousSelf
  | negativeNetwork
  | negativeSubnet
  | unknownNetwork
  | multisigAccountForbidden
  | redundantAccountField
  | signatureRequired
  | signatureCountMismatch (expected actual : Nat)
  | invalidSignature (index : Nat) (hash : BlockHash)
  | invalidSignatureLength (length : Nat)
  | invalidSignatureSequence
  | recalculatedBytesMismatch
  | v1SingleSignerOnly
  | v1PurposeInvalid
  | idempotentTooLong (length max : Nat)
  | feePurposeRequiresSend (operationIndex : Nat)
  | invalidPurpose
  | invalidAdjustMethod
  | adjustMethodSetForbidden
  | multisigSignerDepthExceeded (depth max : Nat)
  | multisigSignerCountInvalid (count max : Nat)
  | multisigSignerDuplicate
  | multisigQuorumInvalid
  | malformedSigner
  | amountBelowZero
  | supplyInvalid
  | tokenFieldNotToken
  | tokenOperationForbidden
  | tokenAccountRequired
  | tokenReceiveDiffers
  | externalTooLong (length max : Nat)
  | externalInvalid
  | externalMissing
  | forwardToSelf
  | forwardRequiresExact
  | identifierDelegationForbidden
  | multipleSetRep
  | infoFieldInvalid (field : InfoField)
  | defaultPermissionRequired
  | identifierAccountRequired
  | identifierInvalid
  | invalidCreateIdentifierArguments
  | invalidPrincipal
  | permissionsRequireSet
  | adminWithTarget
  | delegationForbidden
  | duplicatePermissionModification
  | permissionsCannotMix
  | permissionsExternalOffsetTooLarge (size max : Nat)
  | permissionsInvalidDefault
  | permissionsInvalidEntity
  | permissionsInvalidPrincipal
  | permissionsInvalidTarget
  | permissionsExternalDefaultForbidden
  | invalidCertificateValue
  | certificateSubjectMismatch
  | intermediateCertificatesOnlyAdd
  | duplicateCertificateOperation
  deriving DecidableEq, Repr

end KeetaNode
