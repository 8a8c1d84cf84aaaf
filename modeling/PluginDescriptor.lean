import PluginDescriptor.Main
import PluginDescriptor.Proofs.Acceptance
import PluginDescriptor.Proofs.Schema
import PluginDescriptor.Proofs.Yaml.Block
import PluginDescriptor.Proofs.Builds
import PluginDescriptor.Proofs.Reordering
import PluginDescriptor.Proofs.Reporting
import PluginDescriptor.Proofs.Yaml.Comments
import PluginDescriptor.Proofs.Invariance
import PluginDescriptor.Proofs.Faults
import PluginDescriptor.Proofs.Json.Snapshot
import PluginDescriptor.Proofs.Toml.Document
import PluginDescriptor.Proofs.Settings
import PluginDescriptor.Proofs.Below
import PluginDescriptor.Proofs.Listing
import PluginDescriptor.Proofs.LogFile
import PluginDescriptor.Proofs.Inputs
import PluginDescriptor.Proofs.DryRun
import PluginDescriptor.Proofs.MapLaws
import PluginDescriptor.Proofs.Neighbours
import PluginDescriptor.Proofs.Resemblance
import PluginDescriptor.Proofs.LoneValues
import PluginDescriptor.Proofs.Shuffling
import PluginDescriptor.Proofs.Metadata
import PluginDescriptor.Proofs.Priority
import PluginDescriptor.Proofs.Blank
import PluginDescriptor.Proofs.Targets
import PluginDescriptor.Proofs.Lossless
import PluginDescriptor.Proofs.Handles
import PluginDescriptor.Proofs.Candidates
import PluginDescriptor.Proofs.Containers
import PluginDescriptor.Proofs.Untagged
import PluginDescriptor.Proofs.Assignments
