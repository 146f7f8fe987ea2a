import VoltageStats.Archive
import VoltageStats.Archive.Load
import VoltageStats.Archive.Save
import VoltageStats.Archive.Words
import VoltageStats.Binary.Arithmetic
import VoltageStats.Binary.Extended
import VoltageStats.Binary.Format
import VoltageStats.Bytes.Inflate
import VoltageStats.Bytes.LittleEndian
import VoltageStats.Command.Error
import VoltageStats.Command.Generate
import VoltageStats.Command.Host
import VoltageStats.Command.Run
import VoltageStats.Command.Summary
import VoltageStats.CommandLine.Grammar
import VoltageStats.CommandLine.Invocation
import VoltageStats.Decimal.Literal
import VoltageStats.Decimal.Shortest
import VoltageStats.Decimal.Style
import VoltageStats.Field
import VoltageStats.FileTree.Basic
import VoltageStats.FileTree.Statistics
import VoltageStats.FileTree.Traffic
import VoltageStats.Generator.Checked
import VoltageStats.Generator.Config
import VoltageStats.Generator.Counting
import VoltageStats.Generator.Generated
import VoltageStats.Generator.Moments
import VoltageStats.Generator.Reduction
import VoltageStats.Generator.Settings
import VoltageStats.Header.Codec
import VoltageStats.Header.Record
import VoltageStats.Json.Printer
import VoltageStats.Json.Reader
import VoltageStats.Json.Record
import VoltageStats.Main
import VoltageStats.Metadata
import VoltageStats.Npy.ElementType
import VoltageStats.Npy.File
import VoltageStats.Npy.Literal
import VoltageStats.Options.ArgumentFile
import VoltageStats.Options.Basic
import VoltageStats.Path
import VoltageStats.Proofs.Archive.Contents
import VoltageStats.Proofs.Archive.Load
import VoltageStats.Proofs.Archive.Order
import VoltageStats.Proofs.Archive.RoundTrip
import VoltageStats.Proofs.Archive.Words
import VoltageStats.Proofs.Binary.Canonical
import VoltageStats.Proofs.Binary.Nearest
import VoltageStats.Proofs.Binary.Rounding
import VoltageStats.Proofs.Bytes
import VoltageStats.Proofs.Checked
import VoltageStats.Proofs.Command.ArchivePath
import VoltageStats.Proofs.Command.FailedSave
import VoltageStats.Proofs.Command.Replay
import VoltageStats.Proofs.Decimal.Literal
import VoltageStats.Proofs.Decimal.Shortest
import VoltageStats.Proofs.FileTree.Basic
import VoltageStats.Proofs.FileTree.ByteMembers
import VoltageStats.Proofs.FileTree.Reading
import VoltageStats.Proofs.FileTree.RoundTrip
import VoltageStats.Proofs.FileTree.Step
import VoltageStats.Proofs.FileTree.Traffic
import VoltageStats.Proofs.Generator.Arrays
import VoltageStats.Proofs.Generator.Band
import VoltageStats.Proofs.Generator.BinCount
import VoltageStats.Proofs.Generator.Bins
import VoltageStats.Proofs.Generator.Bookkeeping
import VoltageStats.Proofs.Generator.Cells
import VoltageStats.Proofs.Generator.Config
import VoltageStats.Proofs.Generator.Consistent
import VoltageStats.Proofs.Generator.Counting
import VoltageStats.Proofs.Generator.Counts
import VoltageStats.Proofs.Generator.Exact
import VoltageStats.Proofs.Generator.Excision
import VoltageStats.Proofs.Generator.Flagged
import VoltageStats.Proofs.Generator.Labels
import VoltageStats.Proofs.Generator.Moments
import VoltageStats.Proofs.Generator.Polarisations
import VoltageStats.Proofs.Generator.Power
import VoltageStats.Proofs.Generator.Quantisation
import VoltageStats.Proofs.Generator.Rebinning
import VoltageStats.Proofs.Generator.Steps
import VoltageStats.Proofs.Generator.Surplus
import VoltageStats.Proofs.Generator.Tally
import VoltageStats.Proofs.Generator.Unchecked
import VoltageStats.Proofs.Header.Codec
import VoltageStats.Proofs.Header.Record
import VoltageStats.Proofs.Header.Size
import VoltageStats.Proofs.Header.Truncation
import VoltageStats.Proofs.Header.Versions
import VoltageStats.Proofs.Json.Canonical
import VoltageStats.Proofs.Npy.File
import VoltageStats.Proofs.Npy.Literal
import VoltageStats.Proofs.OptionSources
import VoltageStats.Proofs.Options
import VoltageStats.Proofs.Path
import VoltageStats.Proofs.ScanDirectory
import VoltageStats.Proofs.StatPath
import VoltageStats.Proofs.Statistics
import VoltageStats.Proofs.Tensor
import VoltageStats.Proofs.TensorOrder
import VoltageStats.Proofs.Toml.Canonical
import VoltageStats.Proofs.Toml.Document
import VoltageStats.Proofs.Toml.Number
import VoltageStats.Proofs.Toml.Text
import VoltageStats.Proofs.Toml.Value
import VoltageStats.Proofs.Views.Channels
import VoltageStats.Proofs.Views.Enumeration
import VoltageStats.Proofs.Views.Histogram
import VoltageStats.Proofs.Views.Rows
import VoltageStats.Schema
import VoltageStats.StatPath
import VoltageStats.Statistics
import VoltageStats.Tensor
import VoltageStats.Text.CaseData
import VoltageStats.Text.Lowercase
import VoltageStats.Toml.Document
import VoltageStats.Toml.Moment
import VoltageStats.Toml.Printer
import VoltageStats.Toml.Reader
import VoltageStats.Views
import VoltageStats.Zip.Directory
import VoltageStats.Zip.Encoding
