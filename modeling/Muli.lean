import Muli.Engine.ResourceManager
import Muli.Engine.JobOutput
import Muli.Pipeline.MatrixEnv
import Muli.Pipeline.MatrixNames
import Muli.Pipeline.Filters
import Muli.Server.Alone
import Muli.Server.DailyRuns
import Muli.Server.RetrySteps
import Muli.Server.Idempotency
import Muli.Server.JobLimit
import Muli.Store.Agreement
import Muli.Registry.Npm.Tarballs
import Muli.Registry.Npm.Directories
import Muli.Server.Assignment
import Muli.Server.SubstepProgress
import Muli.Registry.Luat.Settlement
import Muli.Store.Quotas
import Muli.Registry.Oci.Accounting
import Muli.Registry.Oci.CollectorLock
import Muli.Registry.Cargo.Concurrency
import Muli.Registry.Maven.Immutability
import Muli.Store.GitTokens
import Muli.Git.Lfs
import Muli.Git.Pushes
import Muli.Git.PullRequests
import Muli.Git.Webhooks
import Muli.Server.RemoteJobs
import Muli.Store.SshKeys
