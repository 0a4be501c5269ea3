import NativeBuild.Main
import NativeBuild.Toolchain.Scripted
import NativeBuild.Proofs.Dependency.LinkPath
import NativeBuild.Proofs.Dependency.HeaderClosure
import NativeBuild.Proofs.Dependency.Errors
import NativeBuild.Proofs.Dependency.ClosedSeed
import NativeBuild.Proofs.Build.OwnWork
import NativeBuild.Proofs.Build.Derivation
import NativeBuild.Proofs.Build.Script
import NativeBuild.Proofs.Build.Requests
import NativeBuild.Proofs.Build.Trace
import NativeBuild.Proofs.Build.Advance
import NativeBuild.Proofs.Build.Order
import NativeBuild.Proofs.Build.Marker
import NativeBuild.Proofs.Build.Steady
import NativeBuild.Proofs.Build.Attainable
import NativeBuild.Proofs.Path.Join
import NativeBuild.Proofs.Project.Layout
import NativeBuild.Proofs.Build.Tally
import NativeBuild.Proofs.Build.Calls
import NativeBuild.Proofs.Build.Resolution
import NativeBuild.Proofs.Build.Stock
import NativeBuild.Proofs.Build.Demand
import NativeBuild.Proofs.Build.Effort
import NativeBuild.Proofs.Build.FailureChain
import NativeBuild.Proofs.Build.Blocks
import NativeBuild.Proofs.Build.RootCause
import NativeBuild.Proofs.CommandLine.FailedStages
import NativeBuild.Proofs.Path.Parent
import NativeBuild.Proofs.FileSystem.Listing
import NativeBuild.Proofs.FileSystem.WalkOrder
import NativeBuild.Proofs.Path.Below
import NativeBuild.Proofs.Plan.Objects
import NativeBuild.Proofs.Config.Discovery
import NativeBuild.Proofs.Build.Execution
import NativeBuild.Proofs.Build.Replay
import NativeBuild.Proofs.Build.Frame
import NativeBuild.Proofs.Build.Settling
import NativeBuild.Proofs.Plan.Sources
import NativeBuild.Proofs.Plan.SearchOrder
import NativeBuild.Proofs.Plan.Units
import NativeBuild.Proofs.Text.Decoding
import NativeBuild.Proofs.Generated.Linked
import NativeBuild.Proofs.Plan.Outputs
import NativeBuild.Proofs.FileSystem.Removal
import NativeBuild.Proofs.Build.Confinement
import NativeBuild.Proofs.Text.Order
import NativeBuild.Proofs.Project.Registration
import NativeBuild.Proofs.Build.History
import NativeBuild.Proofs.Build.Reset
import NativeBuild.Proofs.Build.Depth
import NativeBuild.Proofs.Path.Steps
import NativeBuild.Proofs.FileSystem.Straight
import NativeBuild.Proofs.Config.Overlap
import NativeBuild.Proofs.Config.Upward
import NativeBuild.Proofs.Json.RoundTrip
import NativeBuild.Proofs.Config.ManifestForm
import NativeBuild.Proofs.Config.Layers
import NativeBuild.Proofs.Config.Precedence
