import MockForge.Main
import MockForge.Proofs.FileSystem.Contract
import MockForge.Proofs.Writer.Temporary
import MockForge.Proofs.Writer.Staging
import MockForge.Proofs.Writer.Placing
import MockForge.Proofs.Writer.Atomicity
import MockForge.Proofs.Generator.Schedule
import MockForge.Proofs.Generator.Text
import MockForge.Proofs.Header.RoundTrip
import MockForge.Proofs.FileSystem.Passage
import MockForge.Proofs.FileSystem.Above
import MockForge.Proofs.Writer.Completion
import MockForge.Proofs.Writer.Visibility
import MockForge.Proofs.Command.Generation
import MockForge.Proofs.Command.ExitCodes
import MockForge.Proofs.Command.DryRun
import MockForge.Proofs.Path.Spelling
import MockForge.Proofs.FileSystem.Leading
import MockForge.Proofs.Writer.Checking
import MockForge.Proofs.Writer.Footprint
import MockForge.Proofs.Writer.Duplicates
import MockForge.Proofs.Path.Extension
import MockForge.Proofs.Command.Containment
import MockForge.Proofs.Generator.Companion
import MockForge.Proofs.Plugin.Composition
import MockForge.Proofs.Plugin.Attribution
import MockForge.Proofs.Generator.Appending
import MockForge.Proofs.Json.Grammar
import MockForge.Proofs.Json.Skipping
import MockForge.Proofs.Json.Reading
import MockForge.Proofs.Signature.Fields
import MockForge.Proofs.Failure.Precedence
import MockForge.Proofs.Generator.Appearance
import MockForge.Proofs.Settings.Table
import MockForge.Proofs.Settings.Document
import MockForge.Proofs.FileSystem.Making
import MockForge.Proofs.Writer.Success
import MockForge.Proofs.FileSystem.Presence
import MockForge.Proofs.Writer.Repetition
import MockForge.Proofs.Settings.Symbols
import MockForge.Proofs.Json.Values
import MockForge.Proofs.Json.Document
import MockForge.Proofs.Json.Layout
import MockForge.Proofs.Report.Formats
import MockForge.Proofs.Report.Colors
import MockForge.Proofs.Mock.RoundTrip
import MockForge.Proofs.Header.Duplicates
import MockForge.Proofs.Writer.Notices
import MockForge.Proofs.Generator.Notices
import MockForge.Proofs.Generator.Frame
import MockForge.Proofs.Command.Repetitions
import MockForge.Proofs.Generator.Guard
