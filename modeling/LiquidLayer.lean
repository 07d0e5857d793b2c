import LiquidLayer.Lib.OrdMap
import LiquidLayer.Lib.Alike
import LiquidLayer.Lib.Prog
import LiquidLayer.Lib.Newest
import LiquidLayer.Lib.Nested
import LiquidLayer.Basic
import LiquidLayer.Value.Basic
import LiquidLayer.Effects.Types
import LiquidLayer.Events.Record
import LiquidLayer.Events.Replay
import LiquidLayer.Events.Project
import LiquidLayer.Events.Checkpoint
import LiquidLayer.Events.Store
import LiquidLayer.Events.FileFormat
import LiquidLayer.Events.FileScan
import LiquidLayer.Events.Stores
import LiquidLayer.Events.StoresAgree
import LiquidLayer.Effects.State
import LiquidLayer.Effects.Restore
import LiquidLayer.Effects.Step
import LiquidLayer.Effects.Moves
import LiquidLayer.Effects.Writes
import LiquidLayer.Effects.Ledger
import LiquidLayer.Effects.Sim
import LiquidLayer.Effects.Replayed
import LiquidLayer.Effects.Restored
import LiquidLayer.Effects.Restart
import LiquidLayer.Effects.Run
import LiquidLayer.Effects.Refinement
import LiquidLayer.Effects.Transparent
import LiquidLayer.Effects.Statuses
import LiquidLayer.Effects.WriteAhead
import LiquidLayer.Effects.Table
import LiquidLayer.Effects.Contained
import LiquidLayer.Effects.Delivery
import LiquidLayer.Effects.Dispatcher
import LiquidLayer.Effects.DispatchSound
import LiquidLayer.Effects.DispatchOnce
import LiquidLayer.Effects.KeyReuse
import LiquidLayer.Events.Verify
import LiquidLayer.Lib.MultiMap
import LiquidLayer.Lib.Utf8
import LiquidLayer.Lib.Json
import LiquidLayer.Lib.FirstSeen
import LiquidLayer.Simulation.InMemoryAdapter
import LiquidLayer.Simulation.Delivery
import LiquidLayer.Value.ValidUtf8
import LiquidLayer.Simulation.JsonString
import LiquidLayer.Simulation.Scenario
import LiquidLayer.Simulation.TraceBridge
import LiquidLayer.Simulation.TraceReading
import LiquidLayer.Simulation.Verdict
import LiquidLayer.Authoring.Trace
import LiquidLayer.Lib.Bytes
import LiquidLayer.Value.Codec
import LiquidLayer.Value.Canonical
import LiquidLayer.World.Ids
import LiquidLayer.World.Components
import LiquidLayer.World.Registered
import LiquidLayer.World.Intents
import LiquidLayer.World.IntentIndex
import LiquidLayer.World.IntentMoves
import LiquidLayer.World.IntentRollback
import LiquidLayer.World.IntentRun
import LiquidLayer.World.IntentExact
import LiquidLayer.World.SlotWrap
import LiquidLayer.World.World
import LiquidLayer.World.Hosted
import LiquidLayer.World.Quiet
import LiquidLayer.World.Bundle
import LiquidLayer.World.Tended
import LiquidLayer.World.Told
import LiquidLayer.World.Content
import LiquidLayer.World.Sound
import LiquidLayer.World.SystemOps
import LiquidLayer.World.BehaviorOps
import LiquidLayer.World.ComponentOps
import LiquidLayer.World.Handles
import LiquidLayer.World.Respected
import LiquidLayer.World.Situated
import LiquidLayer.World.Run
import LiquidLayer.World.Removal
import LiquidLayer.World.AccessOps
import LiquidLayer.World.Disposed
import LiquidLayer.World.Authority
import LiquidLayer.World.Resolution
import LiquidLayer.Scripting.Commit
import LiquidLayer.Scripting.Collision
import LiquidLayer.Scripting.Capabilities
import LiquidLayer.World.Represented
import LiquidLayer.Lib.LuaLex
import LiquidLayer.Scripting.IndexSegment
import LiquidLayer.Scripting.Schema
import LiquidLayer.Scripting.Validation
import LiquidLayer.Scripting.WorstCase
import LiquidLayer.Scripting.Manifest
import LiquidLayer.Lib.Metered
import LiquidLayer.Scripting.LuaHeap
import LiquidLayer.Scripting.Marshal
import LiquidLayer.Scripting.RoundTrip
import LiquidLayer.Lib.Crc
import LiquidLayer.Events.Checksum
import LiquidLayer.Atech.Recording
import LiquidLayer.Lib.Segments
import LiquidLayer.Atech.ActionLines
import LiquidLayer.Atech.FlatJson
import LiquidLayer.Scripting.Lifecycle
import LiquidLayer.Scripting.Observed
import LiquidLayer.Scripting.Delivered
import LiquidLayer.Runtime.State
import LiquidLayer.Runtime.Evidence
import LiquidLayer.Runtime.Bindings
import LiquidLayer.Runtime.Frame
import LiquidLayer.Runtime.Respected
import LiquidLayer.Runtime.Bound
import LiquidLayer.Runtime.Selected
import LiquidLayer.Authoring.BoundedStore
import LiquidLayer.Authoring.CaseExecution
import LiquidLayer.Authoring.Verdict
import LiquidLayer.Lib.Total
import LiquidLayer.Authoring.Session
import LiquidLayer.Authoring.Accounted
import LiquidLayer.Authoring.Authorized
