import DocPipeline.Json.Access
import DocPipeline.Main
import DocPipeline.StandIn.Collaborators
import DocPipeline.Proofs.Effect
import DocPipeline.Proofs.Lifecycle.Delivery
import DocPipeline.Proofs.Parsing.Assembly
import DocPipeline.Proofs.Coordinator.Parse
import DocPipeline.Proofs.Conduct
import DocPipeline.Proofs.Coordinator.Blueprint
import DocPipeline.Proofs.Coordinator.History
import DocPipeline.Proofs.Coordinator.Regeneration
import DocPipeline.Proofs.Discovery.Find
import DocPipeline.Proofs.Parsing.Accounting
import DocPipeline.Proofs.Coordinator.Files
import DocPipeline.Proofs.Tree.Follow
import DocPipeline.Proofs.Publish.Destination
import DocPipeline.Proofs.Coordinator.Calls
import DocPipeline.Proofs.Coordinator.Hooks
import DocPipeline.Proofs.Coordinator.Ending
import DocPipeline.Proofs.Failure.Verdict
import DocPipeline.Proofs.Config.Read
import DocPipeline.Proofs.Config.Extends
import DocPipeline.Proofs.Config.Form
import DocPipeline.Proofs.Config.Reload
import DocPipeline.Proofs.Publish.Document
import DocPipeline.Proofs.Tree.Edits
import DocPipeline.Proofs.Publish.Output
import DocPipeline.Proofs.Discovery.Portable
import DocPipeline.Proofs.Config.Hidden
import DocPipeline.Proofs.Coordinator.Abreast
import DocPipeline.Proofs.Text.CharSet
import DocPipeline.Proofs.Store.Changes
import DocPipeline.Proofs.Config.Plan
import DocPipeline.Proofs.Coordinator.Manifest
import DocPipeline.Proofs.Coordinator.Reparse
import DocPipeline.Proofs.Path.Normal
import DocPipeline.Proofs.Discovery.Spelling
import DocPipeline.Proofs.Discovery.Selection
import DocPipeline.Proofs.Coordinator.Indexing
import DocPipeline.Proofs.Json.Merge
import DocPipeline.Proofs.Plugin.Dispatch
import DocPipeline.Proofs.Source.Declarations
import DocPipeline.Proofs.Source.Sites
import DocPipeline.Proofs.Glob.Everything
import DocPipeline.Proofs.Discovery.Recorded
import DocPipeline.Proofs.Lifecycle.Requests
import DocPipeline.Proofs.Plugin.Observed
import DocPipeline.Proofs.Coordinator.Origins
import DocPipeline.Proofs.Config.Respelled
