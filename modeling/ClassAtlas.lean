import ClassAtlas.Analysis
import ClassAtlas.AnnotationUse
import ClassAtlas.Archive.Codepage
import ClassAtlas.Archive.Crc32
import ClassAtlas.Archive.Directory
import ClassAtlas.Archive.Entry
import ClassAtlas.Archive.ExtraField
import ClassAtlas.Archive.Inflate
import ClassAtlas.Archive.Number
import ClassAtlas.Archive.RepairedUtf8
import ClassAtlas.Archive.Zip
import ClassAtlas.Artifact
import ClassAtlas.Bucket
import ClassAtlas.ClassFile.AnnotationTable
import ClassAtlas.ClassFile.Code
import ClassAtlas.ClassFile.ConstantPool
import ClassAtlas.ClassFile.Decoder
import ClassAtlas.ClassFile.Fault
import ClassAtlas.ClassFile.Instruction
import ClassAtlas.ClassFile.LineTable
import ClassAtlas.ClassFile.ModifiedUtf8
import ClassAtlas.ClassFile.Reader
import ClassAtlas.ClassFile.Record
import ClassAtlas.Classpath
import ClassAtlas.Command.Arguments
import ClassAtlas.Command.Output
import ClassAtlas.Command.Run
import ClassAtlas.Command.Starter
import ClassAtlas.Data.Fields
import ClassAtlas.Data.Firsts
import ClassAtlas.Data.Json
import ClassAtlas.Diagnostic
import ClassAtlas.Digest.Sha256
import ClassAtlas.Files.FileTree
import ClassAtlas.Files.Path
import ClassAtlas.Finding.Report
import ClassAtlas.Finding.Violation
import ClassAtlas.Graph.ClassGraph
import ClassAtlas.Graph.ClassTable
import ClassAtlas.Graph.Declaration
import ClassAtlas.Graph.Dependencies
import ClassAtlas.Graph.Hierarchy
import ClassAtlas.Graph.Link
import ClassAtlas.Graph.Modifier
import ClassAtlas.Graph.Node
import ClassAtlas.Graph.RecordTypes
import ClassAtlas.Graph.Resolution
import ClassAtlas.Import
import ClassAtlas.Main
import ClassAtlas.Name
import ClassAtlas.Pattern.Glob
import ClassAtlas.Pattern.PackagePattern
import ClassAtlas.Pool
import ClassAtlas.Predicate
import ClassAtlas.Reachability
import ClassAtlas.Resolver
import ClassAtlas.Rule.Basic
import ClassAtlas.Rule.Catalogue
import ClassAtlas.Rule.Cycles
import ClassAtlas.Rule.Definitions
import ClassAtlas.Rule.Denied
import ClassAtlas.Rule.Layers
import ClassAtlas.Settings
import ClassAtlas.Source
import ClassAtlas.Toml.Datetime
import ClassAtlas.Toml.Decode
import ClassAtlas.Toml.Document
import ClassAtlas.Toml.Number
import ClassAtlas.Toml.Quoted
import ClassAtlas.Toml.Scanner
import ClassAtlas.Toml.Tree
import ClassAtlas.Toml.Value
import ClassAtlas.Types.Cache
import ClassAtlas.Types.Descriptor
import ClassAtlas.Types.Primitive
import ClassAtlas.Types.Spelling
import ClassAtlas.Types.TypeName
import ClassAtlas.Proofs.Ancestors
import ClassAtlas.Proofs.Numbering
import ClassAtlas.Proofs.Typing
import ClassAtlas.Proofs.Declarations
import ClassAtlas.Proofs.Passes
import ClassAtlas.Proofs.WellFormed
import ClassAtlas.Proofs.Resolution
import ClassAtlas.Proofs.LinkedHierarchy
import ClassAtlas.Proofs.AccessTargets
import ClassAtlas.Proofs.References
import ClassAtlas.Proofs.Dependencies
import ClassAtlas.Proofs.PrefixFree
import ClassAtlas.Proofs.Completion
import ClassAtlas.Proofs.Encoding
import ClassAtlas.Proofs.SourceLines
import ClassAtlas.Proofs.Assembly
import ClassAtlas.Proofs.CodeScan
import ClassAtlas.Proofs.SliceCycles
import ClassAtlas.Proofs.ClassNames
import ClassAtlas.Proofs.Mentions
import ClassAtlas.Proofs.LinkedClasses
import ClassAtlas.Proofs.LinkedAccesses
import ClassAtlas.Proofs.DeclaredNodes
import ClassAtlas.Proofs.MemberLists
import ClassAtlas.Proofs.ReverseViews
import ClassAtlas.Proofs.TypeIdentity
import ClassAtlas.Proofs.RecordReferences
import ClassAtlas.Proofs.OwnDependencies
import ClassAtlas.Proofs.Collecting
import ClassAtlas.Proofs.ImportOrder
import ClassAtlas.Proofs.ImportFates
import ClassAtlas.Proofs.PackageSplits
import ClassAtlas.Proofs.ReportedDependencies
import ClassAtlas.Proofs.ClassProfiles
import ClassAtlas.Proofs.ImportGrowth
import ClassAtlas.Proofs.ReportOrder
import ClassAtlas.Proofs.Spellings
import ClassAtlas.Proofs.ExactDeclarations
import ClassAtlas.Proofs.CodeUnits
import ClassAtlas.Proofs.PoolEntries
import ClassAtlas.Proofs.AnnotationTables
import ClassAtlas.Proofs.DescriptorGrammar
import ClassAtlas.Proofs.LoneSurrogates
import ClassAtlas.Proofs.ScanBounds
import ClassAtlas.Proofs.ClassAttributes
import ClassAtlas.Proofs.CachedReadings
import ClassAtlas.Proofs.ReadTypes
import ClassAtlas.Proofs.RuleValidity
import ClassAtlas.Proofs.NameLookup
import ClassAtlas.Proofs.AcceptedCode
import ClassAtlas.Proofs.RecordedLines
