import Uniterm.Machine.Run
import Uniterm.Model.Inbox.Board
import Uniterm.Soundness.Inbox.Records
import Uniterm.Soundness.Inbox.WellFormed
import Uniterm.Soundness.Inbox.Moves
import Uniterm.Soundness.Inbox.Threads
import Uniterm.Soundness.Inbox.Claims
import Uniterm.Soundness.Inbox.Pages
import Uniterm.Model.Grid.Basic
import Uniterm.Model.Word
import Uniterm.Model.Grid.Edit
import Uniterm.Model.Grid.Reflow
import Uniterm.Soundness.Grid.Resolve
import Uniterm.Soundness.Grid.Edits
import Uniterm.Soundness.Grid.Shape
import Uniterm.Soundness.Grid.Emission
import Uniterm.Soundness.Grid.Damage
import Uniterm.Model.Terminal.State
import Uniterm.Model.Terminal.Performer
import Uniterm.Model.Terminal.Dispatch
import Uniterm.ToMathlib.Paired
import Uniterm.Machine.Outcome
import Uniterm.Soundness.Grid.Tidy
import Uniterm.Soundness.Grid.Fitted
import Uniterm.Soundness.Terminal.Sound
import Uniterm.Soundness.Terminal.Screens
import Uniterm.Soundness.Terminal.Print
import Uniterm.Soundness.Terminal.Actions
import Uniterm.Soundness.Terminal.Steps
import Uniterm.Soundness.Terminal.Safety
import Uniterm.Soundness.Terminal.Pairing
import Uniterm.Soundness.Grid.Content
import Uniterm.Model.Grid.Stored
import Uniterm.Soundness.Grid.Storing
import Uniterm.Soundness.Grid.Reference
import Uniterm.Soundness.Grid.Rebuild
import Uniterm.Soundness.Grid.Streaming
import Uniterm.ToMathlib.TreeTotals
import Uniterm.Soundness.Inbox.Budgets
import Uniterm.Model.Runs.RunGraph
import Uniterm.Soundness.Runs.Indexes
import Uniterm.Soundness.Runs.Activity
import Uniterm.Soundness.Runs.Graph
import Uniterm.Model.Orchestrate.Engine
import Uniterm.Soundness.Orchestrate.Contract
import Uniterm.Model.Server.Tokens
import Uniterm.ToMathlib.XorPowers
import Uniterm.Soundness.Server.Tokens
import Uniterm.Model.EventLog.Event
import Uniterm.Model.EventLog.Replay
import Uniterm.Soundness.EventLog.Lines
import Uniterm.Soundness.EventLog.Scan
import Uniterm.Soundness.EventLog.Repair
import Uniterm.Soundness.EventLog.History
import Uniterm.Soundness.EventLog.Restore
import Uniterm.Soundness.EventLog.Compaction
import Uniterm.Soundness.EventLog.Reducers
import Uniterm.Model.Server.Orchestration
import Uniterm.Model.Server.Supervision
import Uniterm.Soundness.Server.Ledger
import Uniterm.Soundness.Server.Replayed
import Uniterm.Model.Wire.Frame
import Uniterm.Model.Runtime.Outbox
import Uniterm.Soundness.Wire.Framing
import Uniterm.Soundness.Runtime.Backlog
import Uniterm.Soundness.Work.Artifacts
import Uniterm.Model.Workspace.Layout
import Uniterm.ToMathlib.Tiling
import Uniterm.Soundness.Workspace.Tiling
import Uniterm.Model.Server.Client
import Uniterm.Soundness.Server.Owed
import Uniterm.Model.Workspace.Hierarchy
import Uniterm.Soundness.Workspace.Trees
import Uniterm.Soundness.Workspace.Tabs
import Uniterm.Soundness.Workspace.Hierarchy
import Uniterm.Soundness.Workspace.Reordering
import Uniterm.Soundness.Workspace.Closing
import Uniterm.Soundness.Workspace.Runs
import Uniterm.Soundness.Workspace.Forest
import Uniterm.Soundness.Workspace.Stacks
import Uniterm.Soundness.Workspace.Reanchoring
import Uniterm.Soundness.Workspace.StackRuns
import Uniterm.Model.EventLog.Log
import Uniterm.Model.Server.Queues
import Uniterm.Soundness.Server.Order
import Uniterm.Soundness.Orchestrate.Budget
import Uniterm.Model.Terminal.Renderer
import Uniterm.Soundness.Terminal.Style
import Uniterm.Soundness.Grid.Frames
import Uniterm.Soundness.Terminal.Frames
import Uniterm.Soundness.Grid.Palette
import Uniterm.Soundness.Terminal.Pens
import Uniterm.Soundness.Terminal.Isolation
import Uniterm.Soundness.Grid.Paragraphs
import Uniterm.Soundness.Grid.RoundTrip
import Uniterm.Soundness.Grid.Cursor
import Uniterm.Soundness.Grid.Following
import Uniterm.Model.Providers.Approval
import Uniterm.Soundness.Providers.Dialogs
import Uniterm.Soundness.Providers.Navigation
import Uniterm.Model.Runtime.Inbox
import Uniterm.Soundness.Inbox.Growth
import Uniterm.Soundness.Inbox.Watches
import Uniterm.Soundness.Inbox.Inputs
import Uniterm.Soundness.Workspace.Splitting
import Uniterm.Soundness.Workspace.Dividers
import Uniterm.Soundness.Workspace.Overview
import Uniterm.Model.Timeline.Spans
import Uniterm.Soundness.Timeline.Spans
import Uniterm.Model.Timeline.Forest
import Uniterm.Soundness.Timeline.Forest
import Uniterm.Model.Input.Keyboard
import Uniterm.Model.Input.Prefix
import Uniterm.Soundness.Input.Pasting
import Uniterm.Soundness.Input.Prefixes
import Uniterm.Soundness.Inbox.Retries
import Uniterm.Soundness.Inbox.Rates
import Uniterm.Model.Grid.Copies
import Uniterm.Soundness.Grid.Reached
import Uniterm.Soundness.Grid.Freezing
import Uniterm.Model.Grid.Capture
import Uniterm.Soundness.Grid.Captures
import Uniterm.Model.Server.Delivery
import Uniterm.Posix.Escapes
import Uniterm.Posix.Words
import Uniterm.Soundness.Server.Launching
import Uniterm.Soundness.Input.Injecting
import Uniterm.Model.Server.TabBar
import Uniterm.Soundness.Server.TabBar
import Uniterm.Model.Input.Mouse
import Uniterm.Soundness.Input.Reads
import Uniterm.Model.Server.CopyMode
import Uniterm.Soundness.Grid.LineIds
import Uniterm.Soundness.Server.CopyHistory
import Uniterm.Soundness.Server.FrozenSelection
import Uniterm.Soundness.Server.Copied
import Uniterm.ToMathlib.Cyclic
import Uniterm.Soundness.Server.CopySearch
import Uniterm.Model.Workspace.Import
import Uniterm.Soundness.Workspace.Import
import Uniterm.Model.Config.Omarchy
import Uniterm.Model.Config.Theme
import Uniterm.Model.Config.Values
import Uniterm.Model.Config.Settings
import Uniterm.Soundness.Config.Judgement
import Uniterm.Soundness.Config.Written
import Uniterm.Model.Runtime.Files
import Uniterm.Soundness.Runtime.Files
import Uniterm.Model.Server.FileManager
import Uniterm.Soundness.Server.FileManager
import Uniterm.Model.Timeline.Day
import Uniterm.Soundness.Timeline.Freshness
import Uniterm.Soundness.Server.Idle
import Uniterm.Soundness.Server.QueueReplay
