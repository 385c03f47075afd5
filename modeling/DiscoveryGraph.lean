import DiscoveryGraph.Graph.Outline
import DiscoveryGraph.Proofs.BothSides
import DiscoveryGraph.Proofs.Catalog
import DiscoveryGraph.Proofs.Commuting
import DiscoveryGraph.Proofs.Defaults
import DiscoveryGraph.Proofs.Escapes
import DiscoveryGraph.Proofs.Fieldwise
import DiscoveryGraph.Proofs.Files
import DiscoveryGraph.Proofs.Fitting
import DiscoveryGraph.Proofs.Frame
import DiscoveryGraph.Proofs.GidForms
import DiscoveryGraph.Proofs.Handling
import DiscoveryGraph.Proofs.Independence
import DiscoveryGraph.Proofs.Members
import DiscoveryGraph.Proofs.Notation
import DiscoveryGraph.Proofs.Preferences
import DiscoveryGraph.Proofs.Printed
import DiscoveryGraph.Proofs.Republished
import DiscoveryGraph.Proofs.Roster
import DiscoveryGraph.Proofs.Settling
import DiscoveryGraph.Proofs.Skipping
import DiscoveryGraph.Proofs.Spelling
import DiscoveryGraph.Proofs.StoresAgree
import DiscoveryGraph.Proofs.Teardown
import DiscoveryGraph.Proofs.Tolerance
import DiscoveryGraph.Proofs.Turnover
import DiscoveryGraph.Proofs.TypeNames
import DiscoveryGraph.Proofs.Visibility
import DiscoveryGraph.Settings.Service
import DiscoveryGraph.Snapshot.Cbor
import DiscoveryGraph.Snapshot.Json
