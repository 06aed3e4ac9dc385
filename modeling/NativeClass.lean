import NativeClass.Binary64
import NativeClass.ClassSource.Basic
import NativeClass.ClassSource.Reading
import NativeClass.CommandLine.Arguments
import NativeClass.CommandLine.Run
import NativeClass.Compilation.Backend
import NativeClass.Compilation.Basic
import NativeClass.CompileError
import NativeClass.Config.Basic
import NativeClass.Config.Document
import NativeClass.Digest.Blake3
import NativeClass.Dispatch.EntryPoint
import NativeClass.Dispatch.VTable
import NativeClass.Draft.Basic
import NativeClass.Draft.Edit
import NativeClass.Draft.Signatures
import NativeClass.Draft.Validation
import NativeClass.EditDistance
import NativeClass.FileTree
import NativeClass.Flags
import NativeClass.Glob.Expansion
import NativeClass.Glob.Pattern
import NativeClass.Inference.Basic
import NativeClass.Inference.Body
import NativeClass.Inference.Expr
import NativeClass.Inference.Operation
import NativeClass.Inference.Stmt
import NativeClass.Json
import NativeClass.Layout.Basic
import NativeClass.Layout.Instance
import NativeClass.LittleEndian
import NativeClass.Logging
import NativeClass.Main
import NativeClass.Method
import NativeClass.Metrics
import NativeClass.Module.Basic
import NativeClass.Module.Dependency
import NativeClass.Module.Summary
import NativeClass.NativeType.Basic
import NativeClass.NativeType.Summary
import NativeClass.OrderedMap.Basic
import NativeClass.OrderedMap.Indexed
import NativeClass.Padding
import NativeClass.Python.Identifier
import NativeClass.Python.Lexer
import NativeClass.Python.Lines
import NativeClass.Python.Parser.Basic
import NativeClass.Python.Parser.Expr
import NativeClass.Python.Parser.Pattern
import NativeClass.Python.Parser.Stmt
import NativeClass.Python.StringLiteral
import NativeClass.Python.Token
import NativeClass.Python.Tree
import NativeClass.Registry
import NativeClass.Rounding
import NativeClass.Signature
import NativeClass.SymbolTable
import NativeClass.Table
import NativeClass.Toml.Basic
import NativeClass.Toml.Reader
import NativeClass.Toml.Scalar
import NativeClass.Toml.Table
import NativeClass.Toml.Text
import NativeClass.Toml.Writer
import NativeClass.Ty.Basic
import NativeClass.Ty.Text
import NativeClass.TypeHint
import NativeClass.Proofs.Compilation.Totality
import NativeClass.Proofs.NativeType.BaseView
import NativeClass.Proofs.NativeType.Substitution
import NativeClass.Proofs.NativeType.WellFormed
import NativeClass.Proofs.NativeType.SlotOrigin
import NativeClass.Proofs.NativeType.InheritedTypes
import NativeClass.Proofs.NativeType.Abstract
import NativeClass.Proofs.Compilation.Protocol
import NativeClass.Proofs.Inference.Stores
import NativeClass.Proofs.Compilation.Attributes
import NativeClass.Proofs.Compilation.Blame
import NativeClass.Proofs.Module.Dependency
import NativeClass.Proofs.Module.Outcome
import NativeClass.Proofs.Module.Interleaving
import NativeClass.Proofs.Module.Components
import NativeClass.Proofs.Module.Driver
import NativeClass.Proofs.Module.Trace
import NativeClass.Proofs.Module.Registration
import NativeClass.Proofs.Module.Counters
import NativeClass.Proofs.Module.Shadowing
import NativeClass.Proofs.Module.SourceTypes
import NativeClass.Proofs.Ty.Subtyping
import NativeClass.Proofs.Ty.Canonical
import NativeClass.Proofs.Ty.Order
import NativeClass.Proofs.Ty.Union
import NativeClass.Proofs.Table.Merge
import NativeClass.Proofs.Draft.Edit
import NativeClass.Proofs.Draft.Recording
import NativeClass.Proofs.Layout.Packing
import NativeClass.Proofs.Binary64
import NativeClass.Proofs.Instance
import NativeClass.Proofs.Inference.EveryUnion
import NativeClass.Proofs.Ty.Admission
import NativeClass.Proofs.Ty.JoinOrder
import NativeClass.Proofs.Ty.NoneType
import NativeClass.Proofs.Ty.Widening
import NativeClass.Proofs.Inference.Visits
import NativeClass.Proofs.Inference.Discipline
import NativeClass.Proofs.Inference.Hints
import NativeClass.Proofs.Inference.Returns
import NativeClass.Proofs.Inference.Canonical
import NativeClass.Proofs.Inference.Results
import NativeClass.Proofs.Inference.StoredValues
import NativeClass.Proofs.Inference.Places
import NativeClass.Proofs.Inference.Locality
import NativeClass.Proofs.Compilation.EveryUnion
import NativeClass.Proofs.Compilation.StoredValues
import NativeClass.Proofs.Compilation.Reordering
import NativeClass.Proofs.Compilation.MethodOrder
import NativeClass.Proofs.Compilation.Members
import NativeClass.Proofs.Compilation.Constructor
import NativeClass.Proofs.Compilation.Hints
import NativeClass.Proofs.Compilation.Overrides
import NativeClass.Proofs.Module.BlamedBase
import NativeClass.Proofs.CommandLine.ExitCode
import NativeClass.Proofs.Config.Defaults
import NativeClass.Proofs.Python.TokenWidth
import NativeClass.Proofs.Python.ExprWidth
import NativeClass.Proofs.TypeHint.Spelling
import NativeClass.Proofs.EditDistance
import NativeClass.Proofs.Python.Lines
import NativeClass.Proofs.Inference.FallThrough
import NativeClass.Proofs.Dispatch.Identity
import NativeClass.Proofs.OrderedMap.History
