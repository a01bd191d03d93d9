import DataSquare.Bytes
import DataSquare.Hash.Sha256
import DataSquare.Hash.Blake2b
import DataSquare.PowerOfTwo
import DataSquare.SquareRoot
import DataSquare.Varint
import DataSquare.Text.Hex
import DataSquare.Text.Utf8
import DataSquare.Text.Basic
import DataSquare.Namespace
import DataSquare.Share.Count
import DataSquare.Share.Basic
import DataSquare.Share.Run
import DataSquare.Blob
import DataSquare.Share.Compact
import DataSquare.Share.Sparse
import DataSquare.Consensus
import DataSquare.Tx
import DataSquare.Block
import DataSquare.Wire.Error
import DataSquare.Wire.Format
import DataSquare.Wire.Message
import DataSquare.Merkle.Tree
import DataSquare.Merkle.Binary
import DataSquare.Merkle.Namespaced
import DataSquare.Erasure.Gf256
import DataSquare.Erasure.Code
import DataSquare.Erasure.ExtendedSquare
import DataSquare.Square.CellTree
import DataSquare.Square.Header
import DataSquare.Square.Commitment
import DataSquare.Mempool.Candidate
import DataSquare.Mempool.Usage
import DataSquare.Mempool.Eviction
import DataSquare.Square.Layout
import DataSquare.Square.Split
import DataSquare.Proposal.Basic
import DataSquare.Proposal.Prepare
import DataSquare.Proposal.Process
import DataSquare.Inclusion.RowProof
import DataSquare.Inclusion.ShareProof
import DataSquare.Wire.Proof
import DataSquare.Text.Visible
import DataSquare.Text.Alphanumeric
import DataSquare.Inclusion.Query
import DataSquare.Sample
import DataSquare.Log.Level
import DataSquare.Log.Event
import DataSquare.Text.CharSet
import DataSquare.Text.Cut
import DataSquare.Log.Pattern
import DataSquare.Log.Pattern.Escape
import DataSquare.Log.Pattern.Brackets
import DataSquare.Log.Pattern.Grammar
import DataSquare.Log.Directive
import DataSquare.Log.Filter
import DataSquare.Log.Gate
import DataSquare.Log.Record
import DataSquare.Log.Line
import DataSquare.Log.Settings
import DataSquare.Log.Mempool
import DataSquare.Log.Proposal
import DataSquare.Yaml.Place
import DataSquare.Yaml.Scalar.Gap
import DataSquare.Yaml.Scalar.Quoted
import DataSquare.Yaml.Scalar.Plain
import DataSquare.Yaml.Scalar.Block
import DataSquare.Yaml.Tag
import DataSquare.Yaml.Token
import DataSquare.Yaml.Token.Lexer
import DataSquare.Yaml.Event
import DataSquare.Yaml.Value
import DataSquare.Yaml.Node
import DataSquare.Settings
import DataSquare.Proofs.Outcome
import DataSquare.Proofs.Rounding
import DataSquare.Proofs.Namespace
import DataSquare.Proofs.Tx
import DataSquare.Proofs.Consensus
import DataSquare.Proofs.Hash.Collision
import DataSquare.Proofs.Merkle.Binding
import DataSquare.Proofs.Merkle.Messages
import DataSquare.Proofs.Merkle.Range
import DataSquare.Proofs.Erasure.Shape
import DataSquare.Proofs.Share.Parts
import DataSquare.Proofs.Share.Sparse
import DataSquare.Proofs.Share.Compact
import DataSquare.Proofs.Wire.Encodings
import DataSquare.Proofs.Wire.Exact
import DataSquare.Proofs.Wire.Format
import DataSquare.Proofs.Wire.Message
import DataSquare.Proofs.Square.CellTree
import DataSquare.Proofs.Square.Header
import DataSquare.Proofs.Square.Ordered
import DataSquare.Proofs.Square.MountainRange
import DataSquare.Proofs.Square.Commitment
import DataSquare.Proofs.Square.Binding
import DataSquare.Proofs.Square.Split
import DataSquare.Proofs.Square.Layout
import DataSquare.Proofs.Mempool.Candidate
import DataSquare.Proofs.Mempool.Usage
import DataSquare.Proofs.Mempool.Eviction
import DataSquare.Proofs.Proposal.Accepted
import DataSquare.Proofs.Proposal.Payments
import DataSquare.Proofs.Proposal.Placed
import DataSquare.Proofs.Proposal.SingleBlob
import DataSquare.Proofs.Proposal.DataHash
import DataSquare.Proofs.Proposal.Declared
import DataSquare.Proofs.Proposal.Layout
import DataSquare.Proofs.Proposal.Prepared
import DataSquare.Proofs.Merkle.Path
import DataSquare.Proofs.Merkle.Sides
import DataSquare.Proofs.Proposal.Pairing
import DataSquare.Proofs.Square.Determined
import DataSquare.Proofs.Merkle.Rebuilt
import DataSquare.Proofs.Merkle.BinaryProof
import DataSquare.Proofs.Merkle.RangeProof
import DataSquare.Proofs.Inclusion.RowProof
import DataSquare.Proofs.Inclusion.ShareProof
import DataSquare.Proofs.Inclusion.Consecutive
import DataSquare.Proofs.Share.Frame
import DataSquare.Proofs.Share.Grammar
import DataSquare.Proofs.Share.ReadBack
import DataSquare.Proofs.Share.Damage
import DataSquare.Proofs.Square.ReadBack
import DataSquare.Proofs.Square.Gaps
import DataSquare.Proofs.Square.Trace
import DataSquare.Proofs.Square.Packing
import DataSquare.Proofs.Square.Placement
import DataSquare.Proofs.Mempool.Room
import DataSquare.Proofs.Square.Consistent
import DataSquare.Proofs.Erasure.Field
import DataSquare.Proofs.Erasure.Interpolation
import DataSquare.Proofs.Erasure.Vandermonde
import DataSquare.Proofs.Erasure.Codeword
import DataSquare.Proofs.Erasure.Recovery
import DataSquare.Proofs.Erasure.ProductCode
import DataSquare.Proofs.Erasure.Distance
import DataSquare.Proofs.Proposal.Refused
import DataSquare.Proofs.Inclusion.Complete
import DataSquare.Proofs.Share.UnitRange
import DataSquare.Proofs.Share.UnitStart
import DataSquare.Proofs.Inclusion.Transaction
import DataSquare.Proofs.Mempool.Kept
import DataSquare.Proofs.Square.Stable
import DataSquare.Proofs.Proposal.Conserved
import DataSquare.Proofs.Mempool.Interleaving
import DataSquare.Proofs.Proposal.Interleaving
import DataSquare.Proofs.Proposal.Aligned
import DataSquare.Proofs.Mempool.Shortest
import DataSquare.Proofs.Proposal.Reserved
import DataSquare.Proofs.Merkle.Grown
import DataSquare.Proofs.Square.Axes
import DataSquare.Proofs.Proposal.Classified
import DataSquare.Proofs.Inclusion.Arithmetic
import DataSquare.Proofs.Merkle.Logged
import DataSquare.Proofs.Merkle.Subtree
import DataSquare.Proofs.Loop
import DataSquare.Proofs.SquareRoot
import DataSquare.Proofs.Square.Mountains
