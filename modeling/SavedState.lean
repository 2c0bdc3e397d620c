import SavedState.Accessor
import SavedState.Arguments
import SavedState.Binary64
import SavedState.Collection
import SavedState.Configuration
import SavedState.DeclaringType
import SavedState.Diagnostic
import SavedState.Element
import SavedState.Eligibility
import SavedState.Emission
import SavedState.FieldRecord
import SavedState.FieldType.Basic
import SavedState.FieldType.Reader
import SavedState.FilePath
import SavedState.FileTree
import SavedState.Fixture
import SavedState.HelperName
import SavedState.HelperText
import SavedState.Hierarchy
import SavedState.Host
import SavedState.Identifier
import SavedState.Invocation
import SavedState.Json.Quoted
import SavedState.Json.Reader
import SavedState.Json.Record
import SavedState.Json.Scan
import SavedState.Json.Value
import SavedState.Json.Whole
import SavedState.Json.Written
import SavedState.Layer.Basic
import SavedState.Layer.Environment
import SavedState.Main
import SavedState.Manifest
import SavedState.Modifier
import SavedState.NameSet
import SavedState.Processor
import SavedState.Resolver
import SavedState.Run
import SavedState.RunError
import SavedState.Settings
import SavedState.Settings.Json
import SavedState.Sink.Basic
import SavedState.Sink.Directory
import SavedState.Sink.Memory
import SavedState.Store
import SavedState.Summary
import SavedState.Text.Alphabetic
import SavedState.Text.Blank
import SavedState.Text.Hex
import SavedState.Text.Numeric
import SavedState.Text.Order
import SavedState.Text.Printable
import SavedState.Text.Ranges
import SavedState.Text.Reader
import SavedState.Text.Segments
import SavedState.Text.Shown
import SavedState.Text.Utf8
import SavedState.Toml.Document
import SavedState.Toml.Node
import SavedState.Toml.Scan
import SavedState.TypeSyntax
import SavedState.Vocabulary
import SavedState.Proofs.Grouping
import SavedState.Proofs.Pass
import SavedState.Proofs.WrittenOnce
import SavedState.Proofs.Writing
import SavedState.Proofs.MemoryWriting
import SavedState.Proofs.WholeHelpers
import SavedState.Proofs.ProperTypes
import SavedState.Proofs.Reading
import SavedState.Proofs.HelperPath
import SavedState.Proofs.DirectoryWriting
import SavedState.Proofs.SideBySide
import SavedState.Proofs.Layers
import SavedState.Proofs.Mirroring
import SavedState.Proofs.DryRun
import SavedState.Proofs.Deferral
import SavedState.Proofs.Policies
import SavedState.Proofs.TypeGrammar
import SavedState.Proofs.TypeReading
import SavedState.Proofs.Templates
import SavedState.Proofs.HelperSource
import SavedState.Proofs.HelperReading
import SavedState.Proofs.RestoredTypes
import SavedState.Proofs.Ancestry
import SavedState.Proofs.TypeRendering
import SavedState.Proofs.Inheritance
import SavedState.Proofs.Ranking
import SavedState.Proofs.Books
import SavedState.Proofs.Sightings
import SavedState.Proofs.MemoryVisits
import SavedState.Proofs.Isolation
import SavedState.Proofs.Rearrangement
import SavedState.Proofs.Interleaving
import SavedState.Proofs.BrokenManifests
import SavedState.Proofs.GrowingTrees
import SavedState.Proofs.Deposits
import SavedState.Proofs.Surroundings
import SavedState.Proofs.Ledgers
import SavedState.Proofs.Overlays
import SavedState.Proofs.DistinctKeys
import SavedState.Proofs.Precedence
import SavedState.Proofs.LastingTrees
import SavedState.Proofs.SecondAttempts
import SavedState.Proofs.Repetition
import SavedState.Proofs.PlainManifests
import SavedState.Proofs.OverlongPackages
import SavedState.Proofs.Regeneration
import SavedState.Proofs.Identity
import SavedState.Proofs.TransitiveClosure
import SavedState.Proofs.TypeRoundTrip
import SavedState.Proofs.CanonicalSplit
import SavedState.Proofs.FieldKeys
import SavedState.Proofs.Knowledge
import SavedState.Proofs.Serializability
import SavedState.Proofs.Conversion
import SavedState.Proofs.SharedFiles
import SavedState.Proofs.BrokenChannels
import SavedState.Proofs.StepEndings
import SavedState.Proofs.LocalReading
import SavedState.Proofs.SyntaxOffsets
import SavedState.Proofs.WrittenStrings
import SavedState.Proofs.WrittenValues
import SavedState.Proofs.FixtureRounds
import SavedState.Proofs.NestedArrays
import SavedState.Proofs.SummaryWriting
import SavedState.Proofs.JsonGrammar
import SavedState.Proofs.SkippedValues
import SavedState.Proofs.RecordTexts
import SavedState.Proofs.SettingTexts
