import KeetaNode.Lib.Result
import KeetaNode.Lib.Loop
import KeetaNode.Lib.Reader
import KeetaNode.Lib.Tlv
import KeetaNode.Lib.TwosComplement
import KeetaNode.Lib.X690
import KeetaNode.Lib.Ber
import KeetaNode.Lib.Text
import KeetaNode.Lib.Numeral
import KeetaNode.Lib.Arrange
import KeetaNode.Lib.Positional
import KeetaNode.Lib.Digraph
import KeetaNode.Lib.Run
import KeetaNode.Lib.Traced
import KeetaNode.Asn1.Der
import KeetaNode.Asn1.Time
import KeetaNode.Asn1.Reference
import KeetaNode.Asn1.Bridge
import KeetaNode.Asn1.SchemaCodec.Types
import KeetaNode.Asn1.SchemaCodec.Matching
import KeetaNode.Asn1.SchemaCodec.Element
import KeetaNode.Asn1.SchemaCodec.Der
import KeetaNode.Asn1.SchemaCodec.Reference
import KeetaNode.Asn1.SchemaCodec.RoundTrip
import KeetaNode.Asn1.SchemaCodec.Reencoding
import KeetaNode.Asn1.Block.Types
import KeetaNode.Asn1.Block.SignerTree
import KeetaNode.Asn1.Block.Codec
import KeetaNode.Asn1.Block.RoundTrip
import KeetaNode.Asn1.Vote.Types
import KeetaNode.Asn1.Vote.Codec
import KeetaNode.Asn1.Vote.RoundTrip
import KeetaNode.Crypto
import KeetaNode.Account
import KeetaNode.Account.Addresses
import KeetaNode.Block.Error
import KeetaNode.Block.Amount
import KeetaNode.Block.Permissions
import KeetaNode.Block.Signer
import KeetaNode.Block.Types
import KeetaNode.Block.Time
import KeetaNode.Block.Validation
import KeetaNode.Block.Transport
import KeetaNode.Block.Sealing
import KeetaNode.Crypto.Reference
import KeetaNode.Crypto.Ecies
import KeetaNode.Crypto.EciesRoundTrip
import KeetaNode.Account.Derivation
import KeetaNode.Block.WireForm
import KeetaNode.Block.RoundTrip
import KeetaNode.Block.Grants
import KeetaNode.Block.IsoTime
import KeetaNode.Block.Unsigned
import KeetaNode.Block.Rules
import KeetaNode.Block.SignerField
import KeetaNode.Block.Sealed
import KeetaNode.Vote.Types
import KeetaNode.Vote.Certificate
import KeetaNode.Vote.Signed
import KeetaNode.Vote.Activity
import KeetaNode.Vote.Fees
import KeetaNode.Vote.Staple
import KeetaNode.Vote.Stapled
import KeetaNode.Vote.Builder
import KeetaNode.Certificates.Types
import KeetaNode.Certificates.Reference
import KeetaNode.Certificates.EcdsaSignature
import KeetaNode.Certificates.Chain
import KeetaNode.Certificates.Bundle
import KeetaNode.Certificates.Trust
import KeetaNode.Certificates.Graph
import KeetaNode.Certificates.Path
import KeetaNode.Client.Moment
import KeetaNode.Client.Builder
import KeetaNode.Client.Chains
import KeetaNode.Client.Rendering
import KeetaNode.Client.Identifiers
import KeetaNode.Client.Publish
import KeetaNode.Client.Supply
import KeetaNode.Client.Swap
import KeetaNode.Client.Fees
import KeetaNode.Client.Paging
import KeetaNode.Client.Representatives
import KeetaNode.Client.Pending
import KeetaNode.Client.Recovery
import KeetaNode.Client.Dispatch
import KeetaNode.Client.Transmit
import KeetaNode.Client.Transmission
import KeetaNode.Client.FeeBlock
import KeetaNode.Client.Genesis
import KeetaNode.Bindings.Registry
import KeetaNode.Bindings.Pure
import KeetaNode.Bindings.Permissions
import KeetaNode.Bindings.P1
