import TxForensics.Analysis.Analyzer
import TxForensics.Analysis.Load
import TxForensics.Configuration.Layers
import TxForensics.Settings.Json
import TxForensics.Trace.Draft
import TxForensics.Proofs.Bytecode.Partition
import TxForensics.Proofs.Bytecode.Starts
import TxForensics.Proofs.Resolution.Attribution
import TxForensics.Proofs.Resolution.Site
import TxForensics.Proofs.Resolution.Store
import TxForensics.Proofs.SourceMap.Inheritance
import TxForensics.Proofs.Trace.Observation
import TxForensics.Proofs.Analysis.Stages
import TxForensics.Proofs.Analysis.History
import TxForensics.Proofs.Analysis.OutermostFrame
import TxForensics.Proofs.Storage.Slice
import TxForensics.Proofs.Storage.Visibility
import TxForensics.Proofs.Storage.Packing
import TxForensics.Proofs.Analysis.Endings
import TxForensics.Proofs.Bytecode.Object
import TxForensics.Proofs.Analysis.ChainCode
import TxForensics.Proofs.Analysis.Accounting
import TxForensics.Proofs.Analysis.Degradation
import TxForensics.Proofs.Analysis.Verdict
import TxForensics.Proofs.Text.Hex
import TxForensics.Proofs.Analysis.Reason
import TxForensics.Proofs.SourceMap.Encoding
import TxForensics.Proofs.Bytecode.Append
import TxForensics.Proofs.Source.Body
import TxForensics.Proofs.Source.Literal
import TxForensics.Proofs.Analysis.RoundTrip
import TxForensics.Proofs.Source.Lines
import TxForensics.Proofs.Source.Comment
import TxForensics.Proofs.Source.Locality
import TxForensics.Proofs.Trace.Acceptance
import TxForensics.Proofs.Text.Spelling
import TxForensics.Proofs.Bytecode.Placeholder
import TxForensics.Proofs.Trace.Memory
import TxForensics.Proofs.Revert.Classification
import TxForensics.Proofs.Bytecode.Acceptance
import TxForensics.Proofs.Storage.TypeSyntax
import TxForensics.Proofs.Storage.StringSlot
import TxForensics.Proofs.Analysis.Opcodes
import TxForensics.Proofs.Resolution.Calls
import TxForensics.Proofs.Bytecode.Printing
import TxForensics.Proofs.Trace.Building
import TxForensics.Proofs.Bounds.Queries
import TxForensics.Proofs.Trace.Quantity
import TxForensics.Proofs.Configuration.Choice
