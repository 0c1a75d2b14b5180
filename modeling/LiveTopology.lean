import LiveTopology.Bus.Recorder
import LiveTopology.Main
import LiveTopology.Proofs.Bus.Closing
import LiveTopology.Proofs.Bus.Filling
import LiveTopology.Proofs.Bus.Ledger
import LiveTopology.Proofs.Bus.Reconnection
import LiveTopology.Proofs.Bus.Tapped
import LiveTopology.Proofs.Config.BrokerAddress
import LiveTopology.Proofs.Config.Settings
import LiveTopology.Proofs.Consumer
import LiveTopology.Proofs.Ingest.Feed
import LiveTopology.Proofs.Ingest.Isolation
import LiveTopology.Proofs.Ingest.Outcomes
import LiveTopology.Proofs.Ingest.Requests
import LiveTopology.Proofs.Ingest.Runtimes
import LiveTopology.Proofs.Ingest.Served
import LiveTopology.Proofs.Ingest.Subtree
import LiveTopology.Proofs.Ingest.Traffic
import LiveTopology.Proofs.Node.Stored
import LiveTopology.Proofs.Registry.Calls
import LiveTopology.Proofs.Registry.History
import LiveTopology.Proofs.Registry.Reordering
import LiveTopology.Proofs.Registry.Roster
import LiveTopology.Proofs.Relay.Written
import LiveTopology.Proofs.Service.Prefix
import LiveTopology.Proofs.Service.Wiring
import LiveTopology.Proofs.Toml.Items
import LiveTopology.Proofs.Toml.Reading
import LiveTopology.Proofs.Toml.Sections
import LiveTopology.Proofs.Viewer.Session
