import TrafficIntent.Connections
import TrafficIntent.Grouping
import TrafficIntent.Json.Parse
import TrafficIntent.Main
import TrafficIntent.Manifest.Cluster
import TrafficIntent.Yaml.Manifest
import TrafficIntent.Proofs.Admission
import TrafficIntent.Proofs.CiliumAdmission
import TrafficIntent.Proofs.ConnectionTable
import TrafficIntent.Proofs.Conversion
import TrafficIntent.Proofs.ResourceKeys
import TrafficIntent.Proofs.RuleOrder
import TrafficIntent.Proofs.SafeManifests
import TrafficIntent.Proofs.Timestamps
import TrafficIntent.Proofs.TypedManifests
import TrafficIntent.Proofs.Commands
import TrafficIntent.Proofs.Locality
import TrafficIntent.Proofs.RuleChanges
import TrafficIntent.Proofs.NarrowEntries
import TrafficIntent.Proofs.ClusterForm
import TrafficIntent.Proofs.CiliumEntries
import TrafficIntent.Proofs.ConnectionInvariant
import TrafficIntent.Proofs.UngovernedEntries
import TrafficIntent.Proofs.PortRepetitions
import TrafficIntent.Proofs.IntentDocuments
import TrafficIntent.Proofs.SpelledIntents
import TrafficIntent.Proofs.StablePartition
import TrafficIntent.Proofs.VisibleNamespaces
import TrafficIntent.Proofs.Yaml.ShownEntries
