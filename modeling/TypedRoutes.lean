import TypedRoutes.Bundle
import TypedRoutes.CommandLine.Command
import TypedRoutes.CommandLine.Help
import TypedRoutes.CommandLine.Option
import TypedRoutes.CommandLine.Run
import TypedRoutes.Config.Basic
import TypedRoutes.Config.Json
import TypedRoutes.Config.Storage
import TypedRoutes.Config.Validation
import TypedRoutes.Console.Logger
import TypedRoutes.Console.Reporter
import TypedRoutes.Console.Usage
import TypedRoutes.Decimal.Shortest
import TypedRoutes.Emission
import TypedRoutes.Error
import TypedRoutes.FileTree
import TypedRoutes.Generation
import TypedRoutes.Json.Decoder
import TypedRoutes.Json.Printer
import TypedRoutes.Json.Reader
import TypedRoutes.Json.Value
import TypedRoutes.Main
import TypedRoutes.Manifest
import TypedRoutes.Naming.Binding
import TypedRoutes.Naming.Identifier
import TypedRoutes.Naming.Registry
import TypedRoutes.Naming.Rename
import TypedRoutes.Naming.TypeName
import TypedRoutes.Path
import TypedRoutes.Pattern.Basic
import TypedRoutes.Pattern.Parser
import TypedRoutes.Pattern.Property
import TypedRoutes.Proofs.CallPaths
import TypedRoutes.Proofs.ClientOutline
import TypedRoutes.Proofs.CodeBlocks
import TypedRoutes.Proofs.DocumentSlots
import TypedRoutes.Proofs.EndpointPaths
import TypedRoutes.Proofs.GeneratedFragments
import TypedRoutes.Proofs.NameRegistry
import TypedRoutes.Proofs.PlacedTrees
import TypedRoutes.Proofs.QuotedLiterals
import TypedRoutes.Proofs.RenamedText
import TypedRoutes.Proofs.RouterDispatch
import TypedRoutes.Proofs.SiblingReferences
import TypedRoutes.Proofs.TextPieces
import TypedRoutes.Render.Client
import TypedRoutes.Render.Document
import TypedRoutes.Render.Options
import TypedRoutes.Render.Router
import TypedRoutes.Route.Analysis
import TypedRoutes.Route.Builder
import TypedRoutes.Route.Endpoint
import TypedRoutes.Route.Exclusion
import TypedRoutes.Route.Json
import TypedRoutes.Route.Tree
import TypedRoutes.Script.Facts
import TypedRoutes.Script.Grammar.Class
import TypedRoutes.Script.Grammar.Element
import TypedRoutes.Script.Grammar.Expression
import TypedRoutes.Script.Grammar.Function
import TypedRoutes.Script.Grammar.Module
import TypedRoutes.Script.Grammar.Parameter
import TypedRoutes.Script.Grammar.Statement
import TypedRoutes.Script.Grammar.Type
import TypedRoutes.Script.Lexer
import TypedRoutes.Script.Module
import TypedRoutes.Script.Parser
import TypedRoutes.Script.Syntax
import TypedRoutes.Script.Token
import TypedRoutes.Session
import TypedRoutes.Template.BuiltIn
import TypedRoutes.Template.CodeWriter
import TypedRoutes.Template.Document
import TypedRoutes.Template.Fragment
import TypedRoutes.Template.Literal
import TypedRoutes.Text.Basic
import TypedRoutes.Text.Case
import TypedRoutes.Text.Character
import TypedRoutes.Text.Property.Alphabetic
import TypedRoutes.Text.Property.Category
import TypedRoutes.Text.Property.DecimalDigit
import TypedRoutes.Text.Property.Lowercase
import TypedRoutes.Text.Property.Lowering
import TypedRoutes.Text.Property.Mark
import TypedRoutes.Text.Property.Number
import TypedRoutes.Text.Property.Raising
import TypedRoutes.Text.Property.Script
import TypedRoutes.Text.Property.Uppercase
import TypedRoutes.Proofs.DeclarationLookup
import TypedRoutes.Proofs.QualifiedReferences
import TypedRoutes.Proofs.LexicalPaths
import TypedRoutes.Proofs.RouterImports
import TypedRoutes.Proofs.DecimalReading
import TypedRoutes.Proofs.ReaderRuns
import TypedRoutes.Proofs.DecodedRecords
import TypedRoutes.Proofs.PrintedNumbers
import TypedRoutes.Proofs.ReadableValues
import TypedRoutes.Proofs.StoredFiles
import TypedRoutes.Proofs.StoredSettings
import TypedRoutes.Proofs.BuiltInTemplates
import TypedRoutes.Proofs.FirstSettings
import TypedRoutes.Proofs.TemplateMarkers
import TypedRoutes.Proofs.TemplateReading
import TypedRoutes.Proofs.SlotFilling
import TypedRoutes.Proofs.ListTables
import TypedRoutes.Proofs.Listings
import TypedRoutes.Proofs.SourceNames
import TypedRoutes.Proofs.SkippedEntries
import TypedRoutes.Proofs.AnalyzerIsolation
import TypedRoutes.Proofs.EmptyDirectories
import TypedRoutes.Proofs.RouterScope
import TypedRoutes.Proofs.RunOutcomes
import TypedRoutes.Proofs.RunChanges
import TypedRoutes.Proofs.ArrivedDocuments
import TypedRoutes.Proofs.ScopeNesting
import TypedRoutes.Proofs.WrittenOptions
import TypedRoutes.Proofs.LayeredSettings
import TypedRoutes.Proofs.WellFormedTrees
import TypedRoutes.Proofs.WrittenAgain
import TypedRoutes.Proofs.PassedPlaces
import TypedRoutes.Proofs.RelistedDirectories
import TypedRoutes.Proofs.RereadModules
import TypedRoutes.Proofs.ApartDocuments
import TypedRoutes.Proofs.RepeatedRuns
import TypedRoutes.Proofs.HandlerSignatures
import TypedRoutes.Proofs.RenderingFaults
import TypedRoutes.Proofs.ScopeMembers
import TypedRoutes.Proofs.StandardExclusion
import TypedRoutes.Proofs.RecordedWalks
import TypedRoutes.Proofs.GatheredPlaces
import TypedRoutes.Proofs.FragmentTokens
import TypedRoutes.Proofs.ReachedDeclarations
import TypedRoutes.Proofs.DefaultSpellings
import TypedRoutes.Proofs.RenamedWords
import TypedRoutes.Proofs.RenamedNames
import TypedRoutes.Proofs.RenamedReferences
import TypedRoutes.Proofs.WholeNames
import TypedRoutes.Proofs.ExportedDeclarations
import TypedRoutes.Proofs.PlainIdentifiers
import TypedRoutes.Proofs.ScopeIdentifiers
import TypedRoutes.Proofs.SynthesizedNames
import TypedRoutes.Proofs.WordSpellings
import TypedRoutes.Proofs.ReferenceTexts
import TypedRoutes.Proofs.DisplayNames
import TypedRoutes.Proofs.LineStartScans
import TypedRoutes.Proofs.DeclarationHeads
import TypedRoutes.Proofs.ImportClauses
import TypedRoutes.Proofs.ImportHeads
import TypedRoutes.Proofs.TextSegments
import TypedRoutes.Proofs.TemplateBindings
import TypedRoutes.Proofs.StandardSettings
import TypedRoutes.Proofs.KeptManifests
import TypedRoutes.Proofs.SpelledStrings
import TypedRoutes.Proofs.TakenStrings
import TypedRoutes.Proofs.GuardedSections
import TypedRoutes.Proofs.LoneMarkers
import TypedRoutes.Proofs.DanglingMarkers
import TypedRoutes.Proofs.NormalPrefixes
import TypedRoutes.Proofs.AncestorPaths
import TypedRoutes.Proofs.NearestManifests
import TypedRoutes.Proofs.ConcurrentBuilds
import TypedRoutes.Proofs.WrittenLogs
import TypedRoutes.Proofs.RearrangedObjects
import TypedRoutes.Proofs.KeptIndentation
