import Birger.Spec.Route
import Birger.Spec.Agent
import Birger.Spec.Credentials
import Birger.Spec.Endpoint
import Birger.Spec.Controller
import Birger.Sanity.Table
import Birger.Proofs.Refinement
import Birger.Proofs.Select
import Birger.Proofs.Gauge
import Birger.Proofs.Cancel
import Birger.Proofs.Frames
import Birger.Proofs.Refresh
import Birger.Proofs.Snapshot
import Birger.Proofs.Progress
import Birger.Proofs.Keyset
import Birger.Proofs.Ticker
import Birger.Proofs.Linearizable
