import LocalNet.Json.Printer
import LocalNet.Log.Setup
import LocalNet.Rehearsal.Local
import LocalNet.Rehearsal.Script
import LocalNet.Rehearsal.Session
import LocalNet.Proofs.Names
import LocalNet.Proofs.Names.Search
import LocalNet.Proofs.Validation.Batch
import LocalNet.Proofs.Network.Turn
import LocalNet.Proofs.Network.Step
import LocalNet.Proofs.Network.Calls
import LocalNet.Proofs.Network.Sound
import LocalNet.Proofs.Network.Trace
import LocalNet.Proofs.Network.Naming
import LocalNet.Proofs.Network.Custody
import LocalNet.Proofs.Network.Ownership
import LocalNet.Proofs.Network.Membership
import LocalNet.Proofs.Network.Course
import LocalNet.Proofs.Network.Registration
import LocalNet.Proofs.Network.Stopped
import LocalNet.Proofs.Network.Construction
import LocalNet.Proofs.Network.AllOrNothing
import LocalNet.Proofs.Validation.Normalization
import LocalNet.Proofs.Network.NameSupply
import LocalNet.Proofs.Validation.Judgement
import LocalNet.Proofs.Network.LiveNames
import LocalNet.Proofs.Network.Shutdown
import LocalNet.Proofs.Network.StopOutcome
import LocalNet.Proofs.Network.LaunchEvents
import LocalNet.Proofs.Network.LaunchCourse
import LocalNet.Proofs.Network.Launches
import LocalNet.Proofs.Health.Step
import LocalNet.Proofs.Health.Course
import LocalNet.Proofs.Health.Outcome
import LocalNet.Proofs.Health.Polls
import LocalNet.Proofs.Health.Verdict
import LocalNet.Proofs.Health.FirstFailure
import LocalNet.Proofs.Process.Admission
import LocalNet.Proofs.Staking.Leaf
import LocalNet.Proofs.Network.Identity
import LocalNet.Proofs.Config.RoundTrip
import LocalNet.Proofs.Network.FailedAdd
import LocalNet.Proofs.Health.Discipline
import LocalNet.Proofs.Process.Staged
import LocalNet.Proofs.Process.Viewpoint
import LocalNet.Proofs.Process.SettingsForms
import LocalNet.Proofs.Process.LifeCycle
import LocalNet.Proofs.Process.Confined
import LocalNet.Proofs.Process.TempRoot
import LocalNet.Proofs.Process.NodeDirectory
import LocalNet.Proofs.Staking.FirstSections
import LocalNet.Proofs.Config.Port
import LocalNet.Proofs.Api.Answer
import LocalNet.Proofs.Validation.Idempotence
import LocalNet.Proofs.Validation.Sequence
