import KeetaNode.Asn1.Time

/-!
# Schemas and intermediate values

`Schema` and `Asn1` of `keetanetwork-asn1/src/schema_codec.rs`: the declarative schema
nodes, and the decoded values which a schema is matched against and which the DER codec
reads and writes. A `SEQUENCE` and a `SEQUENCE OF` share `Asn1Value.seq`.
-/

namespace KeetaNode.Asn1.SchemaCodec

open ByteCodec

mutual

/-- A declarative ASN.1 schema node. -/
inductive Schema where
  | utf8
  | oid
  | octetString
  /-- `GeneralizedTime`, or a legacy `UTCTime` on decode. -/
  | date
  /-- An `[value] EXPLICIT` wrapper. -/
  | context (value : UInt8) (inner : Schema)
  | optional (inner : Schema)
  | choice (alternatives : List Schema)
  | sequenceOf (inner : Schema)
  | struct (fields : List Field)

/-- A named member of a struct. -/
structure Field where
  name : String
  schema : Schema

end

/-- A decoded value, `Asn1` of the source. -/
inductive Asn1Value where
  | seq (items : List Asn1Value)
  | context (tag : UInt8) (contains : Asn1Value)
  | str (text : String)
  /-- In dotted-decimal form. -/
  | oid (oid : String)
  | octets (bytes : Bytes)
  | date (time : Asn1Time)

inductive SchemaCodecError where
  | truncated
  | trailing
  | malformedLength
  | unsupportedTag (tag : UInt8)
  | contextTagTooLarge (tag : UInt8)
  | multipleContextElements
  | schemaMismatch
  | componentCountOutOfBounds
  | invalidOid
  | invalidDateTime
  deriving DecidableEq, Repr

end KeetaNode.Asn1.SchemaCodec
