import Hydration.Text.Blank
import Hydration.Text.Fields
import Hydration.Text.Hidden
import Hydration.Text.Quoted
import Hydration.Path
import Hydration.Fault
import Hydration.Context.Basic
import Hydration.Context.Parser
import Hydration.Media.Viewport
import Hydration.Media.Query
import Hydration.Media.Parser
import Hydration.Decimal.Shortest
import Hydration.Decimal.Layout
import Hydration.Json.Basic
import Hydration.Json.Access
import Hydration.Json.Parser
import Hydration.Json.Printer
import Hydration.Toml
import Hydration.Settings.Basic
import Hydration.Settings.Document
import Hydration.Table
import Hydration.Registry
import Hydration.Text.Order
import Hydration.Slot.Basic
import Hydration.Slot.Board
import Hydration.Tree
import Hydration.Visibility
import Hydration.Catalog
import Hydration.Module
import Hydration.Monitor
import Hydration.Scene
import Hydration.Request
import Hydration.Hooks
import Hydration.Binding
import Hydration.Executor
import Hydration.Page.Basic
import Hydration.Page.Watching
import Hydration.Page.Lifecycle
import Hydration.Page.Hydration
import Hydration.Page.Driving
import Hydration.Page.Step
import Hydration.Description
import Hydration.Report
import Hydration.Proofs.Run
import Hydration.Proofs.Life.Basic
import Hydration.Proofs.Outcomes
import Hydration.Proofs.Life.Working
import Hydration.Proofs.Life.View
import Hydration.Proofs.Life.Foreign
import Hydration.Proofs.Life.Step
import Hydration.Proofs.Life.Asked
import Hydration.Proofs.Life.Reached
import Hydration.Proofs.Life.Sheltered
import Hydration.Proofs.Life.Attempts
import Hydration.Proofs.Life.Wishes
import Hydration.Proofs.Convergence
import Hydration.Proofs.Terminal
import Hydration.Proofs.Life.Instances
import Hydration.Proofs.Life.Mountings
import Hydration.Proofs.Life.Strays
import Hydration.Proofs.Occupancy
import Hydration.Proofs.Pairing
import Hydration.Proofs.Visibility
import Hydration.Proofs.Watching.Tracking
import Hydration.Proofs.Watching.Making
import Hydration.Proofs.Watching.Listening
import Hydration.Proofs.Watching.Dropping
import Hydration.Proofs.Watching.Attaching
import Hydration.Proofs.Watching.Leasing
import Hydration.Proofs.Watching.Living
import Hydration.Proofs.Watching.Flipping
import Hydration.Proofs.Watching.Calm
import Hydration.Proofs.Watching.Tending
import Hydration.Proofs.Watching.Heeding
import Hydration.Proofs.Watching.Attending
import Hydration.Proofs.Surroundings
import Hydration.Proofs.ContextConvergence
import Hydration.Proofs.Passive.Confined
import Hydration.Proofs.Passive.Ordered
import Hydration.Proofs.Passive.Course
import Hydration.Proofs.Passive.Plan
import Hydration.Proofs.OrderlyCourse
import Hydration.Proofs.Passive.Settling
import Hydration.Proofs.Passive.Relaying
import Hydration.Proofs.Passive.Hearing
import Hydration.Proofs.Passive.Trying
import Hydration.Proofs.Passive.Turning
import Hydration.Proofs.Passive.Linked
import Hydration.Proofs.Passive.Minding
import Hydration.Proofs.Passive.Changing
import Hydration.Proofs.GlitchFreedom
import Hydration.Proofs.AttemptsPerChange
import Hydration.Proofs.Texts.Trimming
import Hydration.Proofs.Contexts.Terms
import Hydration.Proofs.CanonicalText
import Hydration.Proofs.Imports.Session
import Hydration.Proofs.Imports.Ledger
import Hydration.Proofs.LoadOnce
import Hydration.Proofs.Life.Ending
import Hydration.Proofs.EndOnce
import Hydration.Proofs.Sharing.Toggle
import Hydration.Proofs.Sharing.Wishes
import Hydration.Proofs.Sharing.Hydrating
import Hydration.Proofs.Sharing.Switching
import Hydration.Proofs.SharedToggle
import Hydration.Proofs.CurrentMonitors
import Hydration.Proofs.Sharing.Joining
import Hydration.Proofs.LatestListener
import Hydration.Proofs.VisibleElements
import Hydration.Proofs.Paths.Absolute
import Hydration.Proofs.RegisteredOptions
import Hydration.Proofs.Imports.Provision
import Hydration.Proofs.Life.Proceeding
import Hydration.Proofs.Imports.Fetching
import Hydration.Proofs.ModuleResolution
import Hydration.Proofs.Pairs.Remaining
import Hydration.Proofs.Pairs.Listing
import Hydration.Proofs.Resting
import Hydration.Proofs.Pairs.Passing
import Hydration.Proofs.Trees.Forest
import Hydration.Proofs.PairsOnce
import Hydration.Proofs.Siblings.Extending
import Hydration.Proofs.Siblings.Alike
import Hydration.Proofs.Siblings.Refreshing
import Hydration.Proofs.Siblings.Queues
import Hydration.Proofs.Siblings.Parallel
import Hydration.Proofs.Siblings.Lockstep
import Hydration.Proofs.Siblings.Following
import Hydration.Proofs.Siblings.Rejecting
import Hydration.Proofs.Siblings.Returning
import Hydration.Proofs.FailingSiblings
import Hydration.Proofs.Queries.Grammar
import Hydration.Proofs.Queries.Lexemes
import Hydration.Proofs.Queries.Features
import Hydration.Proofs.QueryGrammar
import Hydration.Proofs.Imports.History
import Hydration.Proofs.Imports.Recording
import Hydration.Proofs.ImportHistory
import Hydration.Proofs.Watching.Counting
import Hydration.Proofs.Watching.Owning
import Hydration.Proofs.Passive.Belonging
import Hydration.Proofs.Passive.Remembering
import Hydration.Proofs.Passive.Visiting
import Hydration.Proofs.ObserverCount
import Hydration.Proofs.Life.Awaiting
import Hydration.Proofs.Imports.Queueing
import Hydration.Proofs.Imports.Completing
import Hydration.Proofs.PendingImports
import Hydration.Proofs.AbsolutePaths
import Hydration.Proofs.Contexts.Reading
import Hydration.Proofs.ContextGrammar
import Hydration.Proofs.QueryAlgebra
import Hydration.Proofs.DefaultMonitor
import Hydration.Proofs.Trees.Positions
import Hydration.Proofs.Trees.Editing
import Hydration.Proofs.ElementForest
import Hydration.Proofs.Watching.Refusing
import Hydration.Proofs.FailedContexts
import Hydration.Proofs.Watching.Telling
import Hydration.Proofs.Alternation
import Hydration.Proofs.OwnedRegister
