import DesignTokens.Build.Config
import DesignTokens.Build.Run
import DesignTokens.Build.Save
import DesignTokens.Build.Stage
import DesignTokens.Calendar
import DesignTokens.CommandLine.Grammar
import DesignTokens.CommandLine.Programs
import DesignTokens.Error
import DesignTokens.Error.Diagnosis
import DesignTokens.Event
import DesignTokens.Fields
import DesignTokens.Files.Access
import DesignTokens.Files.Disk
import DesignTokens.Files.Fault
import DesignTokens.Files.Path
import DesignTokens.Files.Text
import DesignTokens.Json.Basic
import DesignTokens.Json.Equality
import DesignTokens.Json.Fault
import DesignTokens.Json.Identity
import DesignTokens.Json.Literal
import DesignTokens.Json.Printer
import DesignTokens.Json.Reader
import DesignTokens.Main
import DesignTokens.Naming
import DesignTokens.Number.Binary64
import DesignTokens.Number.Layout
import DesignTokens.Number.Shortest
import DesignTokens.Outcome
import DesignTokens.Overlay
import DesignTokens.Product
import DesignTokens.Proofs.Build.Completion
import DesignTokens.Proofs.Build.DarkTheme
import DesignTokens.Proofs.Build.Failures
import DesignTokens.Proofs.Build.Interruption
import DesignTokens.Proofs.Build.OutputPaths
import DesignTokens.Proofs.Build.ScopeMismatch
import DesignTokens.Proofs.Build.ThemeNames
import DesignTokens.Proofs.Build.ThemeValues
import DesignTokens.Proofs.Build.Values
import DesignTokens.Proofs.Calendar.Days
import DesignTokens.Proofs.Calendar.Timestamps
import DesignTokens.Proofs.ConstantUnit.Declarations
import DesignTokens.Proofs.ConstantUnit.Identifiers
import DesignTokens.Proofs.ConstantUnit.KebabKeys
import DesignTokens.Proofs.Fields
import DesignTokens.Proofs.Files.Location
import DesignTokens.Proofs.Files.View
import DesignTokens.Proofs.Json.Lines
import DesignTokens.Proofs.Json.Numbers
import DesignTokens.Proofs.Json.Readable
import DesignTokens.Proofs.Json.RoundTrip
import DesignTokens.Proofs.Json.Sameness
import DesignTokens.Proofs.Json.Strings
import DesignTokens.Proofs.Json.Structure
import DesignTokens.Proofs.KebabCase
import DesignTokens.Proofs.Layout
import DesignTokens.Proofs.Lines
import DesignTokens.Proofs.Naming
import DesignTokens.Proofs.Number.Rounding
import DesignTokens.Proofs.Number.Shortest
import DesignTokens.Proofs.Number.Word
import DesignTokens.Proofs.Outcome
import DesignTokens.Proofs.Overlay.Agreement
import DesignTokens.Proofs.Overlay.Associativity
import DesignTokens.Proofs.Overlay.KeyPaths
import DesignTokens.Proofs.Overlay.LayerForms
import DesignTokens.Proofs.Overlay.Lookup
import DesignTokens.Proofs.Overlay.Overriding
import DesignTokens.Proofs.Overlay.Precedence
import DesignTokens.Proofs.Product
import DesignTokens.Proofs.Reference
import DesignTokens.Proofs.Scope
import DesignTokens.Proofs.Target.Failures
import DesignTokens.Proofs.Target.FlatStylesheet
import DesignTokens.Proofs.Target.InactiveVariants
import DesignTokens.Proofs.Target.LineBreaks
import DesignTokens.Proofs.Target.StrictAliases
import DesignTokens.Proofs.Target.ThemeOverride
import DesignTokens.Proofs.Target.TwoNamings
import DesignTokens.Proofs.Target.UtilityCoverage
import DesignTokens.Proofs.Target.UtilityNesting
import DesignTokens.Proofs.Target.UtilityTheme
import DesignTokens.Proofs.Tree.Coverage
import DesignTokens.Proofs.Tree.Flattening
import DesignTokens.Proofs.Tree.KeyOrder
import DesignTokens.Proofs.Tree.Leaves
import DesignTokens.Proofs.Tree.PlainKeys
import DesignTokens.Proofs.Tree.Reading
import DesignTokens.Proofs.Tree.Rearrangement
import DesignTokens.Proofs.Tree.Rebase
import DesignTokens.Proofs.Tree.Site
import DesignTokens.Proofs.Tree.SiteLookup
import DesignTokens.Proofs.Tree.Writing
import DesignTokens.Proofs.Validation.Contract
import DesignTokens.Proofs.Validation.ThemeReferences
import DesignTokens.Proofs.Version.Element
import DesignTokens.Proofs.Version.Interruption
import DesignTokens.Proofs.Version.Rewriting
import DesignTokens.Proofs.Version.Synchronization
import DesignTokens.Reference
import DesignTokens.Target.ConstantUnit
import DesignTokens.Target.ConstantUnit.Source
import DesignTokens.Target.FlatStylesheet
import DesignTokens.Target.NameModule
import DesignTokens.Target.Stylesheet
import DesignTokens.Target.UtilityTheme
import DesignTokens.Text.Case
import DesignTokens.Text.CaseTable
import DesignTokens.Text.CodePoints
import DesignTokens.Text.DecimalDigit
import DesignTokens.Text.LineFeed
import DesignTokens.Text.Printable
import DesignTokens.Text.WordChar
import DesignTokens.Tree.Basic
import DesignTokens.Tree.Document
import DesignTokens.Tree.Walk
import DesignTokens.Validation.Color
import DesignTokens.Validation.Issue
import DesignTokens.Validation.Report
import DesignTokens.Version.Manifest
import DesignTokens.Version.Number
