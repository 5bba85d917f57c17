import OrgTree.Calendar.Date
import OrgTree.Calendar.Json
import OrgTree.Command.Config
import OrgTree.Command.Desk
import OrgTree.Command.Error
import OrgTree.Command.Host
import OrgTree.Command.Options
import OrgTree.Command.Run
import OrgTree.Decimal.Layout
import OrgTree.Decimal.Shortest
import OrgTree.Diff.Basic
import OrgTree.Diff.Comparison
import OrgTree.Diff.Path
import OrgTree.Diff.Report
import OrgTree.Export.Error
import OrgTree.Export.Groups
import OrgTree.Export.Refs
import OrgTree.Export.Run
import OrgTree.Export.Session
import OrgTree.Export.Units
import OrgTree.Export.Versions
import OrgTree.Field.Basic
import OrgTree.Field.Value
import OrgTree.Geometry
import OrgTree.Id
import OrgTree.Json.Basic
import OrgTree.Json.Decode
import OrgTree.Json.Numeral
import OrgTree.Json.Printer
import OrgTree.Json.Reader
import OrgTree.Main
import OrgTree.OrgUnit.Group
import OrgTree.OrgUnit.Record
import OrgTree.OrgUnit.Snapshot
import OrgTree.OrgUnit.Status
import OrgTree.Progress
import OrgTree.Proofs.Diff.Path
import OrgTree.Proofs.Outcome
import OrgTree.Proofs.Store.Ancestry
import OrgTree.Proofs.Store.Sound
import OrgTree.Proofs.Store.Table
import OrgTree.Proofs.Text
import OrgTree.RefSupply
import OrgTree.Remote.Client
import OrgTree.Remote.Messages
import OrgTree.Remote.Payload
import OrgTree.Remote.Registry
import OrgTree.Remote.Script
import OrgTree.Render.Csv
import OrgTree.Render.Nested
import OrgTree.Render.Paint
import OrgTree.Render.Stats
import OrgTree.Render.Table
import OrgTree.Store.Basic
import OrgTree.Store.Document
import OrgTree.Store.Error
import OrgTree.Store.Read
import OrgTree.Store.Table
import OrgTree.Store.Write
import OrgTree.Sync.Compact
import OrgTree.Sync.Error
import OrgTree.Sync.Run
import OrgTree.Sync.Values
import OrgTree.Text.Blank
import OrgTree.Text.Hidden
import OrgTree.Text.Numeral
import OrgTree.Text.Pieces
import OrgTree.Text.Quoted
import OrgTree.Toml.Basic
import OrgTree.Toml.Reader
import OrgTree.Toml.Scalar
import OrgTree.Toml.Text
import OrgTree.Uid
import OrgTree.Proofs.Calendar
import OrgTree.Proofs.Field
import OrgTree.Proofs.Geometry
import OrgTree.Proofs.Store.Writes
import OrgTree.Proofs.Diff.Report
import OrgTree.Proofs.Diff.Account
import OrgTree.Proofs.Diff.Itself
import OrgTree.Proofs.Diff.Swap
import OrgTree.Proofs.Diff.Blank
import OrgTree.Proofs.Store.Cleared
import OrgTree.Proofs.Sync.Step
import OrgTree.Proofs.Sync.Run
import OrgTree.Proofs.Sync.Tracking
import OrgTree.Proofs.Sync.Hierarchy
import OrgTree.Proofs.Sync.Memberships
import OrgTree.Proofs.Sync.Plain
import OrgTree.Proofs.Sync.Mirror
import OrgTree.Proofs.Sync.Advance
import OrgTree.Proofs.Sync.Convergence
import OrgTree.Proofs.Store.Alike
import OrgTree.Proofs.Sync.Regroup
import OrgTree.Proofs.Sync.Reorder
import OrgTree.Proofs.Sync.Rediff
import OrgTree.Proofs.Sync.Replay
import OrgTree.Proofs.Sync.Resume
import OrgTree.Proofs.Members
import OrgTree.Proofs.Remote.Payload
import OrgTree.Proofs.Remote.Registry
import OrgTree.Proofs.Export.Plan
import OrgTree.Proofs.Export.Units
import OrgTree.Proofs.Export.Groups
import OrgTree.Proofs.Export.Refs
import OrgTree.Proofs.Export.Report
import OrgTree.Proofs.Export.Run
import OrgTree.Proofs.Export.Mirror
import OrgTree.Proofs.Store.Linked
import OrgTree.Proofs.Store.Reload
import OrgTree.Proofs.Store.Forest
import OrgTree.Proofs.Export.Status
import OrgTree.Proofs.Export.GroupSets
import OrgTree.Proofs.Sync.Created
import OrgTree.Proofs.Sync.Edits
import OrgTree.Proofs.Sync.Demands
import OrgTree.Proofs.Sync.Applied
import OrgTree.Proofs.Sync.Counting
import OrgTree.Proofs.Sync.Repeat
import OrgTree.Proofs.Diff.Keys
import OrgTree.Proofs.Sync.Modified
import OrgTree.Proofs.Export.Requests
import OrgTree.Proofs.Export.Parents
import OrgTree.Proofs.Sync.Frame
import OrgTree.Proofs.Sync.Refused
import OrgTree.Proofs.Store.Loading
import OrgTree.Proofs.Sync.AnyOrder
import OrgTree.Proofs.Sync.Distinct
import OrgTree.Proofs.Uid
import OrgTree.Proofs.Export.Versions
import OrgTree.Proofs.Diff.PathOrder
import OrgTree.Proofs.Store.DepthFirst
import OrgTree.Proofs.Json.Record
import OrgTree.Proofs.OrgUnit.Json
import OrgTree.Proofs.Sync.CompactJson
import OrgTree.Proofs.Json.Token
import OrgTree.Proofs.Json.Text
import OrgTree.Proofs.Store.DocumentText
import OrgTree.Proofs.Remote.Messages
import OrgTree.Proofs.Store.Fresh
import OrgTree.Proofs.Remote.Reachable
import OrgTree.Proofs.Export.Memberships
import OrgTree.Proofs.Export.Imports
import OrgTree.Proofs.Store.Selection
import OrgTree.Proofs.Store.OneRow
import OrgTree.Proofs.Store.SameGroups
import OrgTree.Proofs.Diff.SameGroups
import OrgTree.Proofs.Store.Census
import OrgTree.Proofs.Sync.Balance
import OrgTree.Proofs.Sync.Journal
import OrgTree.Proofs.Sync.Tally
import OrgTree.Proofs.Remote.Merge
import OrgTree.Proofs.Remote.Shapes
import OrgTree.Proofs.Diff.Columns
import OrgTree.Proofs.Render.Csv
import OrgTree.Proofs.Store.Walks
import OrgTree.Proofs.Diff.Grammar
import OrgTree.Proofs.Render.Stats
