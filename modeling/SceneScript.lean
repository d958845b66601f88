import SceneScript.Action
import SceneScript.Component.Combination
import SceneScript.Component.Dense
import SceneScript.Component.Description
import SceneScript.Component.Id
import SceneScript.Component.Ref
import SceneScript.Component.Storage
import SceneScript.Component.Store
import SceneScript.Component.Transform
import SceneScript.Entity.Basic
import SceneScript.Entity.FreeIds
import SceneScript.Entity.Roster
import SceneScript.Entity.Signature
import SceneScript.Error
import SceneScript.Event.Basic
import SceneScript.Event.Stream
import SceneScript.Index
import SceneScript.Json.Basic
import SceneScript.Json.Number
import SceneScript.Json.Raw
import SceneScript.Json.Reader
import SceneScript.Json.Token
import SceneScript.Json.Writer
import SceneScript.Log.Record
import SceneScript.Log.Router
import SceneScript.Number.Binary
import SceneScript.Number.Layout
import SceneScript.Number.Literal
import SceneScript.Number.Shortest
import SceneScript.Proofs.Action
import SceneScript.Proofs.Calls
import SceneScript.Proofs.Component.Array
import SceneScript.Proofs.Component.Calls
import SceneScript.Proofs.Component.Combination
import SceneScript.Proofs.Component.Form
import SceneScript.Proofs.Component.Interchange
import SceneScript.Proofs.Component.Intersection
import SceneScript.Proofs.Component.Names
import SceneScript.Proofs.Component.Narrowing
import SceneScript.Proofs.Component.Registration
import SceneScript.Proofs.Component.Requests
import SceneScript.Proofs.Component.Store
import SceneScript.Proofs.Dispatch.Cascade
import SceneScript.Proofs.Dispatch.Steps
import SceneScript.Proofs.Dispatch.Thread
import SceneScript.Proofs.Dispatch.Visits
import SceneScript.Proofs.Entity.Allocation
import SceneScript.Proofs.Entity.Generations
import SceneScript.Proofs.Entity.Numbers
import SceneScript.Proofs.Entity.Roster
import SceneScript.Proofs.Event.Queues
import SceneScript.Proofs.Index.Accepted
import SceneScript.Proofs.Index.Growth
import SceneScript.Proofs.Log.Captures
import SceneScript.Proofs.Number.Zero
import SceneScript.Proofs.Result
import SceneScript.Proofs.Scenario.Bodies
import SceneScript.Proofs.Scenario.Chain
import SceneScript.Proofs.Scenario.Counters
import SceneScript.Proofs.Scenario.Frames
import SceneScript.Proofs.Scenario.Gravity
import SceneScript.Proofs.Scenario.Rounds
import SceneScript.Proofs.Scenario.Stage
import SceneScript.Proofs.Scene.Assets
import SceneScript.Proofs.Scene.Consistent
import SceneScript.Proofs.Scene.Documents
import SceneScript.Proofs.Scene.Fitting
import SceneScript.Proofs.Scene.Interference
import SceneScript.Proofs.Scene.Links
import SceneScript.Proofs.Scene.Persisted
import SceneScript.Proofs.Scene.Reachable
import SceneScript.Proofs.Scene.Rebuild
import SceneScript.Proofs.Scene.Refused
import SceneScript.Proofs.Scene.Resaved
import SceneScript.Proofs.Scene.Run
import SceneScript.Proofs.Scene.Stale
import SceneScript.Proofs.Scene.Steps
import SceneScript.Proofs.Scene.Structure
import SceneScript.Proofs.Script.Brackets
import SceneScript.Proofs.Script.Builtins
import SceneScript.Proofs.Script.Calls
import SceneScript.Proofs.Script.Compiled
import SceneScript.Proofs.Script.Cuts
import SceneScript.Proofs.Script.Decimal
import SceneScript.Proofs.Script.Edits
import SceneScript.Proofs.Script.Entry
import SceneScript.Proofs.Script.Expression
import SceneScript.Proofs.Script.Failure
import SceneScript.Proofs.Script.Follows
import SceneScript.Proofs.Script.Gaps
import SceneScript.Proofs.Script.Grammar
import SceneScript.Proofs.Script.Grammar.Declaration
import SceneScript.Proofs.Script.Grammar.Expression
import SceneScript.Proofs.Script.Grammar.File
import SceneScript.Proofs.Script.Grammar.Statement
import SceneScript.Proofs.Script.Halting
import SceneScript.Proofs.Script.Insertion
import SceneScript.Proofs.Script.Layout
import SceneScript.Proofs.Script.Lexed
import SceneScript.Proofs.Script.Loaded
import SceneScript.Proofs.Script.Locations
import SceneScript.Proofs.Script.Loops
import SceneScript.Proofs.Script.Memory
import SceneScript.Proofs.Script.Parsed
import SceneScript.Proofs.Script.Places
import SceneScript.Proofs.Script.Reduction
import SceneScript.Proofs.Script.Rows
import SceneScript.Proofs.Script.Simulates
import SceneScript.Proofs.Script.Spans
import SceneScript.Proofs.Script.Splice
import SceneScript.Proofs.Script.Twins
import SceneScript.Proofs.Table
import SceneScript.Proofs.Text.Lines
import SceneScript.Proofs.Value.Contents
import SceneScript.Proofs.Value.Decoded
import SceneScript.Proofs.Value.Path
import SceneScript.Proofs.Value.Resaved
import SceneScript.Proofs.Value.RoundTrip
import SceneScript.Proofs.Value.Typing
import SceneScript.Random
import SceneScript.Scenario.Cascade
import SceneScript.Scenario.Physics
import SceneScript.Scenario.Stage
import SceneScript.Scene.Basic
import SceneScript.Scene.Snapshot
import SceneScript.Script.Builtin
import SceneScript.Script.Declare
import SceneScript.Script.Error
import SceneScript.Script.Execute
import SceneScript.Script.Load
import SceneScript.Script.Node
import SceneScript.Script.Node.Cursor
import SceneScript.Script.Node.Declaration
import SceneScript.Script.Node.Expression
import SceneScript.Script.Node.Statement
import SceneScript.Script.Postfix
import SceneScript.Script.Stack
import SceneScript.Script.Token
import SceneScript.Script.Token.Layout
import SceneScript.Script.Token.Line
import SceneScript.System.Basic
import SceneScript.System.Dispatch
import SceneScript.Table
import SceneScript.Text.Letters
import SceneScript.Text.Lines
import SceneScript.Value.Apply
import SceneScript.Value.Basic
import SceneScript.Value.Display
import SceneScript.Value.Document
import SceneScript.Value.Member
import SceneScript.Value.Operator
import SceneScript.Value.Reading
import SceneScript.Value.Type
import SceneScript.Value.Vector
