import Overland.Disk.Tree
import Overland.Settings.DataFolders
import Overland.Verbosity
import Overland.Proofs.Mesh.Neighbourhood
import Overland.Proofs.Route.Independence
import Overland.Proofs.Route.Resting
import Overland.Proofs.Ground.Transparency
import Overland.Proofs.Tile.Integrity
import Overland.Proofs.Ground.Accounting
import Overland.Proofs.Ground.Isolation
import Overland.Proofs.Mesh.Attempts
import Overland.Proofs.Route.Verdict
import Overland.Proofs.Ground.Refusal
import Overland.Proofs.Ground.Explained
import Overland.Proofs.Mesh.Aligned
import Overland.Proofs.Route.Overflow
import Overland.Proofs.Tile.Steps
import Overland.Proofs.Tile.Surface
import Overland.Proofs.Mesh.Growth
import Overland.Proofs.Mesh.Repeated
import Overland.Proofs.Route.Resampled
import Overland.Proofs.Sampling.StepBound
import Overland.Proofs.Ground.AreaSearch
import Overland.Proofs.Bytes.Agreement
import Overland.Proofs.Tile.Locality
import Overland.Proofs.Ground.Topmost
import Overland.Proofs.Tile.LiquidAnswers
import Overland.Proofs.Mesh.Header
import Overland.Proofs.Bytes.Bulk
import Overland.Proofs.Bytes.Queue
import Overland.Proofs.Bytes.Limits
import Overland.Proofs.Settings.Written
import Overland.Proofs.Settings.History
import Overland.Proofs.Settings.Precedence
