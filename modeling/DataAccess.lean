import DataAccess.CommandLine.Arguments
import DataAccess.CommandLine.Display
import DataAccess.CommandLine.Run
import DataAccess.Compiler
import DataAccess.Decimal.Shortest
import DataAccess.Disk.Basic
import DataAccess.Disk.Change
import DataAccess.Disk.Path
import DataAccess.Disk.Tree
import DataAccess.Error
import DataAccess.Generation.AccessFunction
import DataAccess.Generation.GoMod
import DataAccess.Generation.ModelUnit
import DataAccess.Generation.Names
import DataAccess.Generation.Package
import DataAccess.Generation.Prepare
import DataAccess.Generation.Request
import DataAccess.Generation.Row
import DataAccess.Generation.Schema
import DataAccess.Generation.SupportFile
import DataAccess.Generation.Types
import DataAccess.Go.Declaration
import DataAccess.Go.Identifier
import DataAccess.Go.Import
import DataAccess.Go.Literal
import DataAccess.Go.Node.Basic
import DataAccess.Go.Node.Directives
import DataAccess.Go.Node.Imports
import DataAccess.Go.Node.Printer
import DataAccess.Go.SourceFile
import DataAccess.Go.TypeRef
import DataAccess.Json.Basic
import DataAccess.Json.Decode
import DataAccess.Json.Mismatch
import DataAccess.Json.Number
import DataAccess.Json.Reader
import DataAccess.Json.Writer
import DataAccess.Main
import DataAccess.Model.Access
import DataAccess.Model.Attribute
import DataAccess.Model.Basic
import DataAccess.Model.Codec
import DataAccess.Model.Filter
import DataAccess.Model.Operator
import DataAccess.Model.Registry
import DataAccess.ModelSet
import DataAccess.Naming
import DataAccess.Ordered
import DataAccess.Proofs.Acceptance
import DataAccess.Proofs.BindValues
import DataAccess.Proofs.Fragments
import DataAccess.Proofs.PackageNames
import DataAccess.Proofs.Numbering
import DataAccess.Proofs.SqlReader
import DataAccess.Proofs.Scanners
import DataAccess.Proofs.SqlTokens
import DataAccess.Proofs.WhereMeaning
import DataAccess.Sql.Builder
import DataAccess.Sql.Condition
import DataAccess.Sql.Dialect
import DataAccess.Sql.Fragment
import DataAccess.Sql.Identifier
import DataAccess.Sql.Parameter
import DataAccess.Sql.Statement
import DataAccess.Sql.Table
import DataAccess.Text.Layout
import DataAccess.Text.Split
import DataAccess.Unicode.Alphabetic
import DataAccess.Unicode.Blank
import DataAccess.Unicode.CaseMap
import DataAccess.Unicode.CodeSet
import DataAccess.Unicode.LetterCase
import DataAccess.Unicode.Numeric
import DataAccess.Unicode.Obscure
import DataAccess.Validation.Package
import DataAccess.Validation.Resolution
import DataAccess.Validation.Structure
import DataAccess.Warning
import DataAccess.Proofs.GeneratedUnits
import DataAccess.Proofs.ArgsMethod
import DataAccess.Proofs.Letters
import DataAccess.Proofs.WellFormed
import DataAccess.Proofs.ExportedNames
import DataAccess.Proofs.DeclaredIdentifiers
import DataAccess.Proofs.SchemaStatements
import DataAccess.Proofs.Scripts
import DataAccess.Proofs.SqlColumns
import DataAccess.Proofs.DiskWrites
import DataAccess.Proofs.RowLayout
import DataAccess.Proofs.FileNames
import DataAccess.Proofs.Substitution
import DataAccess.Proofs.FrontEnds
import DataAccess.Proofs.OwnStatements
import DataAccess.Proofs.ConstantGroups
import DataAccess.Proofs.QueryConstants
import DataAccess.Proofs.UpsertIndexes
import DataAccess.Proofs.IndexNames
import DataAccess.Proofs.IndexedColumns
import DataAccess.Proofs.Mentions
import DataAccess.Proofs.PredeclaredNames
import DataAccess.Proofs.Shadowing
import DataAccess.Proofs.OrderedLists
import DataAccess.Proofs.ImportSets
import DataAccess.Proofs.UnitImports
import DataAccess.Proofs.Qualifiers
import DataAccess.Proofs.ExactImports
import DataAccess.Proofs.ModelOrder
import DataAccess.Proofs.JsonRecords
import DataAccess.Proofs.JsonText
import DataAccess.Proofs.RoundTrip
import DataAccess.Proofs.TreeGrafts
import DataAccess.Proofs.TreeListings
import DataAccess.Proofs.PackageWrites
import DataAccess.Proofs.SourceFiles
import DataAccess.Proofs.RepeatedRuns
import DataAccess.Proofs.LiveComparisons
import DataAccess.Proofs.ParameterRenaming
import DataAccess.Proofs.DialectChoice
import DataAccess.Proofs.TableNames
import DataAccess.Proofs.InsertedRows
import DataAccess.Proofs.QuotedNames
import DataAccess.Proofs.SchemaIndexes
import DataAccess.Proofs.RegistryIndex
import DataAccess.Proofs.DirectiveHistories
import DataAccess.Proofs.NodeParts
import DataAccess.Proofs.ExpressionGrammar
import DataAccess.Proofs.ExpressionTokens
import DataAccess.Proofs.IgnoredDirectives
import DataAccess.Proofs.PrintedOperators
import DataAccess.Proofs.OperatorTrees
import DataAccess.Proofs.OperandExtents
import DataAccess.Proofs.TextBytes
import DataAccess.Proofs.ImportHistories
import DataAccess.Proofs.InterpretedLiterals
import DataAccess.Proofs.ListingOrder
import DataAccess.Proofs.DirectoryLoading
