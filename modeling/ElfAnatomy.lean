import ElfAnatomy.ByteOrder
import ElfAnatomy.Bytes
import ElfAnatomy.CommandLine
import ElfAnatomy.DecodeError
import ElfAnatomy.Decoder
import ElfAnatomy.Device
import ElfAnatomy.Dynamic.Entry
import ElfAnatomy.Dynamic.Linkage
import ElfAnatomy.FileHeader
import ElfAnatomy.FileHeader.Reading
import ElfAnatomy.Folder
import ElfAnatomy.Identification
import ElfAnatomy.Image
import ElfAnatomy.Inspection
import ElfAnatomy.Json
import ElfAnatomy.Main
import ElfAnatomy.Names
import ElfAnatomy.Notice
import ElfAnatomy.OpenError
import ElfAnatomy.Plan
import ElfAnatomy.Proofs.Acceptance
import ElfAnatomy.Proofs.Addresses
import ElfAnatomy.Proofs.Calls
import ElfAnatomy.Proofs.Causes
import ElfAnatomy.Proofs.Checked
import ElfAnatomy.Proofs.Codes
import ElfAnatomy.Proofs.Comparison
import ElfAnatomy.Proofs.Defects
import ElfAnatomy.Proofs.Delivery
import ElfAnatomy.Proofs.Dependencies
import ElfAnatomy.Proofs.Depths
import ElfAnatomy.Proofs.Diagnostics
import ElfAnatomy.Proofs.Domains
import ElfAnatomy.Proofs.DynamicView
import ElfAnatomy.Proofs.ExitStatus
import ElfAnatomy.Proofs.Extension
import ElfAnatomy.Proofs.Fidelity
import ElfAnatomy.Proofs.Format
import ElfAnatomy.Proofs.Header
import ElfAnatomy.Proofs.History
import ElfAnatomy.Proofs.Images
import ElfAnatomy.Proofs.Interruption
import ElfAnatomy.Proofs.JsonGrammar
import ElfAnatomy.Proofs.JsonReader
import ElfAnatomy.Proofs.Kinds
import ElfAnatomy.Proofs.Layouts
import ElfAnatomy.Proofs.LinePerRow
import ElfAnatomy.Proofs.Measured
import ElfAnatomy.Proofs.Numbering
import ElfAnatomy.Proofs.Origins
import ElfAnatomy.Proofs.Outcome
import ElfAnatomy.Proofs.Reading
import ElfAnatomy.Proofs.Refusals
import ElfAnatomy.Proofs.ReportReading
import ElfAnatomy.Proofs.RowStrings
import ElfAnatomy.Proofs.Safety
import ElfAnatomy.Proofs.SectionData
import ElfAnatomy.Proofs.SegmentNumber
import ElfAnatomy.Proofs.Stages
import ElfAnatomy.Proofs.Steps
import ElfAnatomy.Proofs.StringResolution
import ElfAnatomy.Proofs.Strings
import ElfAnatomy.Proofs.Suspicion
import ElfAnatomy.Proofs.Switches
import ElfAnatomy.Proofs.TableRequests
import ElfAnatomy.Proofs.Tables
import ElfAnatomy.Proofs.TextLines
import ElfAnatomy.Proofs.Utf8Syntax
import ElfAnatomy.Proofs.Work
import ElfAnatomy.Record
import ElfAnatomy.Region
import ElfAnatomy.Report
import ElfAnatomy.Section
import ElfAnatomy.Section.Reading
import ElfAnatomy.Segment
import ElfAnatomy.Source
import ElfAnatomy.Stage
import ElfAnatomy.StringTable
import ElfAnatomy.Table.Dynamic
import ElfAnatomy.Table.FileHeader
import ElfAnatomy.Table.Sections
import ElfAnatomy.Table.Segments
import ElfAnatomy.Tables
import ElfAnatomy.Text.Column
import ElfAnatomy.Text.Hex
import ElfAnatomy.Text.Utf8
import ElfAnatomy.Views
