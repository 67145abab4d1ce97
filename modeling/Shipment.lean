import Shipment.Main
import Shipment.Repository.Faults
import Shipment.Repository.Site
import Shipment.System.Scripted
import Shipment.Proofs.Program
import Shipment.Proofs.Run.Ensures
import Shipment.Proofs.Run.Footprint
import Shipment.Proofs.Run.Pieces
import Shipment.Proofs.Repository.Effect
import Shipment.Proofs.Repository.Steady
import Shipment.Proofs.Repository.World
import Shipment.Proofs.Run.Cut
import Shipment.Proofs.BranchName
import Shipment.Proofs.Requests
import Shipment.Proofs.Shipped
import Shipment.Proofs.Run.Flows
import Shipment.Proofs.Run.Whole
import Shipment.Proofs.Settled
import Shipment.Proofs.Work
import Shipment.Proofs.Rollback
import Shipment.Proofs.Lease
import Shipment.Proofs.Rule
import Shipment.Proofs.Run.Heeds
import Shipment.Proofs.Description
import Shipment.Proofs.Clearance
import Shipment.Proofs.Order
import Shipment.Proofs.Run.Refusal
import Shipment.Proofs.FirstFailure
import Shipment.Proofs.OneRequest
import Shipment.Proofs.Freshness
import Shipment.Proofs.Run.Faultless
import Shipment.Proofs.NewBranch
import Shipment.Proofs.DefaultBranch
import Shipment.Proofs.Sync
import Shipment.Proofs.Update
import Shipment.Proofs.NoOp
import Shipment.Proofs.Confined
import Shipment.Proofs.OwnBase
import Shipment.Proofs.Run.Woven
import Shipment.Proofs.Course
import Shipment.Proofs.Run.Record
import Shipment.Proofs.Run.Changes
import Shipment.Proofs.Run.Route
import Shipment.Proofs.Recorded
import Shipment.Proofs.Trace
import Shipment.Proofs.Narration
import Shipment.Proofs.Run.Twin
import Shipment.Proofs.Indifferent
import Shipment.Proofs.Rerun
import Shipment.Proofs.NewName
import Shipment.Proofs.System
import Shipment.Proofs.Text.Utf8
import Shipment.Proofs.Text.Lines
import Shipment.Proofs.CommitLog
import Shipment.Proofs.Toml.Quotation
import Shipment.Proofs.Toml.Assignment
import Shipment.Proofs.Path
import Shipment.Proofs.System.Files
import Shipment.Proofs.System.Scripted
import Shipment.Proofs.System.Tree
import Shipment.Proofs.System.Saved
import Shipment.Proofs.Config.Document
import Shipment.Proofs.Config.Store
import Shipment.Proofs.Config.Layers
import Shipment.Proofs.Text.Quoted
import Shipment.Proofs.Config.Shown
import Shipment.Proofs.Configure
import Shipment.Proofs.Grammar
import Shipment.Proofs.Slug
import Shipment.Proofs.LooseHeader
import Shipment.Proofs.Header
import Shipment.Proofs.Text.Number
import Shipment.Proofs.CivilTime
import Shipment.Proofs.GeneratedName
import Shipment.Proofs.Json.Grammar
import Shipment.Proofs.Json.Compact
import Shipment.Proofs.Listing
import Shipment.Proofs.Relevance
import Shipment.Proofs.RequestState
import Shipment.Proofs.SlugOfText
import Shipment.Proofs.Panel
import Shipment.Proofs.HeadBranch
import Shipment.Proofs.Quiet
import Shipment.Proofs.Json.Pretty
import Shipment.Proofs.ShipDocument
