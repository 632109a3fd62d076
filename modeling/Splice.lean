import Splice.Closure.Alignment
import Splice.Closure.Application
import Splice.Closure.Arithmetic
import Splice.Closure.Array
import Splice.Closure.Basic
import Splice.Closure.Branch
import Splice.Closure.Compare
import Splice.Closure.Eval
import Splice.Closure.Loop
import Splice.Closure.Native
import Splice.Closure.Record
import Splice.Closure.Recovery
import Splice.Closure.Unifier
import Splice.Compose
import Splice.CompositionError
import Splice.Conversion
import Splice.Decimal.Shortest
import Splice.Double.Basic
import Splice.Double.Text
import Splice.Exec
import Splice.Fault
import Splice.Fieldwise.Columns
import Splice.Fieldwise.Equality
import Splice.Fieldwise.Order
import Splice.Fieldwise.Text
import Splice.Fieldwise.Totals
import Splice.Handle.Arguments
import Splice.Handle.Basic
import Splice.Handle.Branch
import Splice.Handle.Calls
import Splice.Handle.Loop
import Splice.Handle.Recovery
import Splice.Handle.Result
import Splice.Schema.Basic
import Splice.Schema.Define
import Splice.Scope.Basic
import Splice.Scope.Build
import Splice.Scope.Growth
import Splice.Scope.Run
import Splice.Signature
import Splice.Stock
import Splice.Store.Array
import Splice.Store.Iterator
import Splice.Store.Record
import Splice.Store.Text
import Splice.Text.Blank
import Splice.Text.Units
import Splice.Tracing
import Splice.Ty
import Splice.Value.Basic
import Splice.Value.Equality
import Splice.Value.Expect
import Splice.Value.Member
import Splice.Var
import Splice.World
import Splice.Proofs.Scope.Grown
import Splice.Proofs.Scope.Function
import Splice.Proofs.Scope.Block
import Splice.Proofs.Closure.CallByValue
import Splice.Proofs.Closure.Unification
import Splice.Proofs.Exec.Course
import Splice.Proofs.Handle.Turns
import Splice.Proofs.Closure.Pieces
import Splice.Proofs.Compose
import Splice.Proofs.Handle.Control
import Splice.Proofs.Closure.WhileLoop
import Splice.Proofs.Closure.CountedLoop
import Splice.Proofs.Closure.IteratorLoop
import Splice.Proofs.Closure.Branching
import Splice.Proofs.Exec.Recovery
import Splice.Proofs.Handle.Recovery
import Splice.Proofs.Closure.Recovery
import Splice.Proofs.Closure.Catching
import Splice.Proofs.Closure.Cleanup
import Splice.Proofs.Closure.Guards
import Splice.Proofs.Exec.Watch
import Splice.Proofs.Handle.Typing
import Splice.Proofs.Handle.Watch
import Splice.Proofs.Handle.Conversion
import Splice.Proofs.Closure.Control
import Splice.Proofs.Session.Operation
import Splice.Proofs.Session.Basic
import Splice.Proofs.Session.Keys
import Splice.Proofs.Session.FreeVariables
import Splice.Proofs.Session.Refusal
import Splice.Proofs.Closure.Storage
import Splice.Proofs.Closure.Operands
import Splice.Proofs.Closure.Connectives
import Splice.Proofs.Scope.Program
import Splice.Proofs.Columns.Access
import Splice.Proofs.Columns.Stored
import Splice.Proofs.Columns.Lists
import Splice.Proofs.Columns.Refinement
import Splice.Proofs.Exec.Trace
import Splice.Proofs.Handle.Trace
import Splice.Proofs.Closure.HandlerFree
import Splice.Proofs.Scope.HandlerFree
import Splice.Proofs.Fieldwise.HandlerFree
import Splice.Proofs.Handle.FailFast
import Splice.Proofs.Matching.Basic
import Splice.Proofs.Matching.Closure
import Splice.Proofs.Matching.Operation
import Splice.Proofs.Matching.Scope
import Splice.Proofs.Scope.RefusedCalls
import Splice.Proofs.Store.TypedRecords
import Splice.Proofs.Columns.TypedRecords
import Splice.Proofs.Renaming.Basic
import Splice.Proofs.Renaming.Step
import Splice.Proofs.Renaming.Fieldwise
import Splice.Proofs.Renaming.Control
import Splice.Proofs.Renaming.Item
import Splice.Proofs.Renaming.Call
import Splice.Proofs.Renaming.Script
import Splice.Proofs.Scope.Local
import Splice.Proofs.Value.Equality
import Splice.Proofs.Fieldwise.Equality
import Splice.Proofs.Fieldwise.HashCode
import Splice.Proofs.Fieldwise.Order
import Splice.Proofs.Value.Order
import Splice.Proofs.Fieldwise.Sorting
import Splice.Proofs.Fieldwise.Ties
import Splice.Proofs.Store.Text
import Splice.Proofs.Fieldwise.Text
import Splice.Proofs.Fieldwise.Totals
import Splice.Proofs.Fieldwise.Sum
import Splice.Proofs.Value.Member
import Splice.Proofs.Closure.ListElements
import Splice.Proofs.Closure.Identity
import Splice.Proofs.Closure.Casts
import Splice.Proofs.Fieldwise.Receivers
import Splice.Proofs.Closure.Invocation
import Splice.Proofs.Closure.LocalVariables
import Splice.Proofs.Store.History
import Splice.Proofs.Store.Arrays
import Splice.Proofs.Store.Course
import Splice.Proofs.Store.Records
