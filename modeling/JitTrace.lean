import JitTrace.CallTree.Basic
import JitTrace.CallTree.Derived
import JitTrace.CallTree.Family
import JitTrace.CallTree.LineTicks
import JitTrace.CallTree.Report
import JitTrace.CallTree.View
import JitTrace.CallTree.Walk
import JitTrace.Code.Entry
import JitTrace.Code.Map
import JitTrace.CommandLine.Arguments
import JitTrace.CommandLine.Report
import JitTrace.CommandLine.Run
import JitTrace.CpuProfile.Basic
import JitTrace.CpuProfile.Export
import JitTrace.Document.Analysis
import JitTrace.Document.Basic
import JitTrace.Document.Code
import JitTrace.Document.Events
import JitTrace.Document.Record
import JitTrace.Document.Settings
import JitTrace.Document.Tree
import JitTrace.Events.History
import JitTrace.Events.Log
import JitTrace.Fault
import JitTrace.Files.View
import JitTrace.Files.Tree
import JitTrace.Json.Basic
import JitTrace.Json.Parser
import JitTrace.Json.Printer
import JitTrace.Json.Record
import JitTrace.Line.Fields
import JitTrace.Line.Reader
import JitTrace.Main
import JitTrace.Number.Decimal
import JitTrace.Number.Digits
import JitTrace.Number.Word
import JitTrace.Profile.Basic
import JitTrace.Profile.Finalize
import JitTrace.Profile.Frames
import JitTrace.Profile.Queries
import JitTrace.Profile.Skip
import JitTrace.Profile.Ticks
import JitTrace.Record.Arguments
import JitTrace.Record.Integer
import JitTrace.Record.Layout
import JitTrace.Record.Table
import JitTrace.Record.Value
import JitTrace.Settings
import JitTrace.Source.Location
import JitTrace.Source.Position
import JitTrace.Source.PositionText
import JitTrace.Source.Script
import JitTrace.SplayTree.Basic
import JitTrace.SplayTree.Slot
import JitTrace.SplayTree.Walk
import JitTrace.Symbols.Library
import JitTrace.Tally
import JitTrace.Text.Blank
import JitTrace.Text.Cut
import JitTrace.Text.Property
import JitTrace.Text.Quoted
import JitTrace.Text.Utf8
import JitTrace.Trace.Analyzer
import JitTrace.Trace.Event
import JitTrace.Version.Basic
import JitTrace.Version.Bound
import JitTrace.Version.Encoding
import JitTrace.Version.Enumerations
import JitTrace.Proofs.Tally
import JitTrace.Proofs.SplayTree.Shape
import JitTrace.Proofs.SplayTree.Slots
import JitTrace.Proofs.SplayTree.Spine
import JitTrace.Proofs.SplayTree.Splay
import JitTrace.Proofs.SplayTree.SearchTree
import JitTrace.Proofs.SplayTree.FreeList
import JitTrace.Proofs.SplayTree.Thread
import JitTrace.Proofs.SplayTree.Coherent
import JitTrace.Proofs.SplayTree.Lookup
import JitTrace.Proofs.SplayTree.Insertion
import JitTrace.Proofs.SplayTree.Removal
import JitTrace.Proofs.SplayTree.Entries
import JitTrace.Proofs.SplayTree.Retention
import JitTrace.Proofs.SplayTree.Contents
import JitTrace.Proofs.SplayTree.Run
import JitTrace.Proofs.SplayTree.Refinement
import JitTrace.Proofs.Code.Index
import JitTrace.Proofs.Code.Eviction
import JitTrace.Proofs.Code.Run
import JitTrace.Proofs.Code.Placement
import JitTrace.Proofs.Code.Indexed
import JitTrace.Proofs.Code.SharedFunctions
import JitTrace.Proofs.Code.Growth
import JitTrace.Proofs.CallTree.LineTicks
import JitTrace.Proofs.CallTree.Weights
import JitTrace.Proofs.CallTree.Totals
import JitTrace.Proofs.CallTree.Links
import JitTrace.Proofs.CallTree.PreOrder
import JitTrace.Proofs.CallTree.Trie
import JitTrace.Proofs.CallTree.Derived
import JitTrace.Proofs.CallTree.Run
import JitTrace.Proofs.CallTree.Ids
import JitTrace.Proofs.CallTree.Paths
import JitTrace.Proofs.CallTree.Collecting
import JitTrace.Proofs.CallTree.Inversion
import JitTrace.Proofs.CallTree.FlatWalk
import JitTrace.Proofs.CallTree.Flat
import JitTrace.Proofs.CallTree.Recursion
import JitTrace.Proofs.Profile.Stack
import JitTrace.Proofs.Profile.Samples
import JitTrace.Proofs.Profile.Smoothing
import JitTrace.Proofs.Profile.Conservation
import JitTrace.Proofs.Profile.LoneSamples
import JitTrace.Proofs.Profile.Lineage
import JitTrace.Proofs.Profile.Export
import JitTrace.Proofs.Code.Likeness
import JitTrace.Proofs.Profile.Likeness
import JitTrace.Proofs.Profile.TickAgreement
import JitTrace.Proofs.Trace.Likeness
import JitTrace.Proofs.Profile.Growth
import JitTrace.Proofs.Profile.FunctionReferences
import JitTrace.Proofs.Profile.PseudoFunctions
import JitTrace.Proofs.Profile.Attribution
import JitTrace.Proofs.Profile.Skipping
import JitTrace.Proofs.Code.Relocation
import JitTrace.Proofs.Code.Lookup
import JitTrace.Proofs.Code.Detached
import JitTrace.Proofs.Profile.Relocation
import JitTrace.Proofs.Outcome
import JitTrace.Proofs.Record.Layout
import JitTrace.Proofs.Record.Faults
import JitTrace.Proofs.Trace.Faults
import JitTrace.Proofs.Line.Verdict
import JitTrace.Proofs.Line.Schedule
import JitTrace.Proofs.Line.Following
import JitTrace.Proofs.Line.Deletion
import JitTrace.Proofs.Line.Chunks
import JitTrace.Proofs.Line.Uncancelled
import JitTrace.Proofs.Line.Selection
import JitTrace.Proofs.Text.Utf8
import JitTrace.Proofs.Line.Accounting
import JitTrace.Proofs.Line.Returns
import JitTrace.Proofs.Trace.Table
import JitTrace.Proofs.Profile.Answers
import JitTrace.Proofs.Profile.Finalized
import JitTrace.Proofs.Trace.Recording
import JitTrace.Proofs.Trace.LineFaults
import JitTrace.Proofs.Trace.MalformedLines
import JitTrace.Proofs.Trace.FailingProviders
import JitTrace.Proofs.Json.Literals
import JitTrace.Proofs.Json.Documents
import JitTrace.Proofs.Json.Records
import JitTrace.Proofs.CpuProfile.RoundTrip
import JitTrace.Proofs.Number.Hexadecimal
import JitTrace.Proofs.Line.Escapes
import JitTrace.Proofs.Line.Writing
import JitTrace.Proofs.Profile.Inlining
import JitTrace.Proofs.Profile.Circles
import JitTrace.Proofs.Number.Decimal
import JitTrace.Proofs.Source.Groups
import JitTrace.Proofs.Source.Lines
import JitTrace.Proofs.Source.Position
import JitTrace.Proofs.Source.Registry
import JitTrace.Proofs.Source.Tables
import JitTrace.Proofs.Source.Writing
import JitTrace.Proofs.Profile.Naming
import JitTrace.Proofs.Profile.NamingRun
import JitTrace.Proofs.Profile.ApplyBuiltins
import JitTrace.Proofs.Profile.Pruning
import JitTrace.Proofs.Profile.NativeEntries
import JitTrace.Proofs.Profile.Rereporting
import JitTrace.Proofs.Code.NumberedNames
import JitTrace.Proofs.CallTree.BreadthFirst
import JitTrace.Proofs.CallTree.CopyPaths
import JitTrace.Proofs.CallTree.Merging
import JitTrace.Proofs.CallTree.Subtrees
import JitTrace.Proofs.CallTree.FoldedStacks
import JitTrace.Proofs.SplayTree.Handles
import JitTrace.Proofs.SplayTree.Cursors
import JitTrace.Proofs.Profile.SkipPatterns
import JitTrace.Proofs.Number.Signs
import JitTrace.Proofs.Text.Cut
import JitTrace.Proofs.Record.Numbers
import JitTrace.Proofs.Profile.StackFrames
import JitTrace.Proofs.CallTree.Families
import JitTrace.Proofs.Profile.FunctionNames
import JitTrace.Proofs.Events.Groups
import JitTrace.Proofs.Line.Order
import JitTrace.Proofs.Line.FailureOrder
import JitTrace.Proofs.Events.Rankings
import JitTrace.Proofs.Code.Whereabouts
import JitTrace.Proofs.Code.LibraryPages
import JitTrace.Proofs.Code.RepeatedLibraries
import JitTrace.Proofs.Record.Declarations
import JitTrace.Proofs.Line.Calls
import JitTrace.Proofs.Line.Cancellation
import JitTrace.Proofs.Version.Encodings
import JitTrace.Proofs.CallTree.FunctionListing
