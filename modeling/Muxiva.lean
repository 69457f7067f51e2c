import Muxiva.Lib.System
import Muxiva.Lib.History
import Muxiva.Lib.Fallible
import Muxiva.Lib.SortedMap
import Muxiva.Lib.Topological
import Muxiva.Stream.Types
import Muxiva.Stream.Model
import Muxiva.Stream.Frame
import Muxiva.Stream.Order
import Muxiva.Stream.Calls
import Muxiva.Stream.Wakeup
import Muxiva.Stream.Ownership
import Muxiva.Stream.Registration
import Muxiva.Stream.Tally
import Muxiva.Stream.Outcome
import Muxiva.Stream.Bounds
import Muxiva.Graph.Types
import Muxiva.Graph.Lifecycle
import Muxiva.Runtime.Control
import Muxiva.Runtime.Queue
import Muxiva.Runtime.Edge
import Muxiva.Runtime.Types
import Muxiva.Runtime.Model
import Muxiva.Runtime.Moves
import Muxiva.Runtime.Frame
import Muxiva.Runtime.Exits
import Muxiva.Runtime.Outcome
import Muxiva.Runtime.Lifecycle
import Muxiva.Runtime.Placement
import Muxiva.Runtime.Channels
import Muxiva.Runtime.Clean
import Muxiva.Runtime.Tasks
import Muxiva.Runtime.Wake
import Muxiva.Runtime.Gate
import Muxiva.Runtime.Progress
import Muxiva.Runtime.Barrier
import Muxiva.Runtime.Link
import Muxiva.Runtime.Delivery
import Muxiva.Runtime.Signals
import Muxiva.Runtime.Reasons
import Muxiva.Runtime.Deadline
import Muxiva.Lib.Rotation
import Muxiva.Runtime.Fairness
import Muxiva.Runner.Model
import Muxiva.Runner.Lifecycle
import Muxiva.Edge.Pipeline
import Muxiva.Edge.Agreement
import Muxiva.Edge.Answers
import Muxiva.Foreign.Types
import Muxiva.Foreign.Model
import Muxiva.Foreign.Moves
import Muxiva.Foreign.Mailbox
import Muxiva.Foreign.Order
import Muxiva.Foreign.Work
import Muxiva.Foreign.Controls
import Muxiva.Foreign.Draining
import Muxiva.Foreign.Refusal
import Muxiva.Queue.Model
import Muxiva.Queue.Conservation
import Muxiva.Queue.Measurement
import Muxiva.Flow.Profile
import Muxiva.Flow.Model
import Muxiva.Flow.Conservation
import Muxiva.Flow.Signals
import Muxiva.Flow.Atomicity
import Muxiva.Flow.Hysteresis
import Muxiva.Build.Types
import Muxiva.Build.Builder
import Muxiva.Build.Order
import Muxiva.Build.Document
import Muxiva.Build.Permutation
import Muxiva.Build.Integrity
import Muxiva.Build.Values
import Muxiva.Build.Migration
import Muxiva.Node.Context
import Muxiva.Node.Overflow
import Muxiva.Node.Budget
import Muxiva.Admission.Model
import Muxiva.Admission.Accounting
import Muxiva.Audio.Coalescing
import Muxiva.Audio.Content
import Muxiva.Audio.Prefix
import Muxiva.Lib.Rounding
import Muxiva.Audio.Resample
import Muxiva.Audio.Duration
import Muxiva.Audio.Indices
import Muxiva.Turn.Controller
import Muxiva.Turn.Moves
import Muxiva.Turn.Generations
import Muxiva.Turn.Utterances
import Muxiva.Lib.Text
import Muxiva.Speech.Segmentation
import Muxiva.Speech.Formatter
import Muxiva.Speech.Race
import Muxiva.Speech.Tokens
import Muxiva.Speech.Format
import Muxiva.Speech.Letters
import Muxiva.Speech.Origin
import Muxiva.Speech.Fences
import Muxiva.Speech.Speaking
import Muxiva.Speech.Plain
import Muxiva.Speech.Prefixes
import Muxiva.Speech.Brackets
import Muxiva.Speech.Urls
import Muxiva.Lib.WaitGraph
import Muxiva.Studio.MediaDump
import Muxiva.Studio.Deadlock
import Muxiva.Xiaozhi.Gateway
import Muxiva.Xiaozhi.Reset
import Muxiva.Lib.Until
import Muxiva.Xiaozhi.Stop
import Muxiva.Xiaozhi.MediaBarrier
import Muxiva.Lib.Blocks
import Muxiva.Xiaozhi.Reblocking
import Muxiva.Xiaozhi.StopOrder
import Muxiva.Agent.Adapter
import Muxiva.Agent.Moves
import Muxiva.Agent.Driver
import Muxiva.Agent.Stale
import Muxiva.Agent.Grammar
import Muxiva.Llm.Node
import Muxiva.Llm.Moves
import Muxiva.Llm.Generations
import Muxiva.Llm.Pending
import Muxiva.Llm.Suppression
import Muxiva.Llm.Stale
import Muxiva.Tts.Node
import Muxiva.Tts.Moves
import Muxiva.Tts.Known
import Muxiva.Tts.Barrier
import Muxiva.Tts.Drained
import Muxiva.Ffi.Agreement
import Muxiva.Ffi.Planes
import Muxiva.Ffi.Emissions
import Muxiva.Ffi.FinalPop
import Muxiva.Ffi.NodeRecord
import Muxiva.Ffi.Tokens
import Muxiva.Studio.SemanticTrace
import Muxiva.Lib.Machine
import Muxiva.Media.Continuity
import Muxiva.Lib.Bytes
import Muxiva.Studio.Totals
import Muxiva.Notify.Bus
import Muxiva.Notify.Soundness
import Muxiva.Notify.Accounting
import Muxiva.Kahn.Agree
import Muxiva.Kahn.Refinement
import Muxiva.Lib.Framing
import Muxiva.Lib.JsonString
import Muxiva.Lib.Lines
import Muxiva.Studio.Connections
import Muxiva.Studio.Credentials
import Muxiva.Studio.Request
import Muxiva.Studio.Serving
import Muxiva.Qwen.AudioRealtime
import Muxiva.Qwen.Input
import Muxiva.Studio.HostCalls
import Muxiva.Runtime.Launch
import Muxiva.Runtime.Starting
import Muxiva.Agora.Adapter
import Muxiva.Agora.Drain
import Muxiva.Agora.Leave
