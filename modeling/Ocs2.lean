import Ocs2.Eigen
import Ocs2.Quadratic
import Ocs2.Hpipm.Size
import Ocs2.Hpipm.MemoryBlock
import Ocs2.Hpipm.Workspace
import Ocs2.Hpipm.Runs
import Ocs2.Hpipm.Reuse
import Ocs2.Hpipm.Access
import Ocs2.Hpipm.Transcription
import Ocs2.Hpipm.Equivalence
import Ocs2.Hpipm.Riccati
import Ocs2.Hpipm.RiccatiGetters
import Ocs2.Hpipm.ZeroStage
import Ocs2.Hpipm.Horizon
import Ocs2.Hpipm.LqHorizon
import Ocs2.Hpipm.Policy
import Ocs2.Cost.QuadraticCostFunction
