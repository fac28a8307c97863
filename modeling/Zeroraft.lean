import Zeroraft.Library.Ballot
import Zeroraft.Properties.Leadership
import Zeroraft.Properties.OnlyLeaders
import Zeroraft.Properties.CommitRule
import Zeroraft.Properties.CommittedEntries
import Zeroraft.Properties.CrashSafety
import Zeroraft.Properties.LogMatching
import Zeroraft.Properties.VoteOnce
import Zeroraft.Properties.TermMonotonicity
import Zeroraft.Properties.Lifecycle
import Zeroraft.Properties.SelfDeadlock
import Zeroraft.Properties.Quorum
import Zeroraft.Properties.VoteRecord
import Zeroraft.Properties.Acknowledged
import Zeroraft.Properties.LogTerms
import Zeroraft.Properties.PeerBounds
import Zeroraft.Properties.ForgottenPeers
import Zeroraft.Properties.AppendEntries
import Zeroraft.Properties.CatchUp
import Zeroraft.Properties.ResentVotes
import Zeroraft.Properties.VotesCounted
import Zeroraft.Runtime.VoteRounds
import Zeroraft.Properties.VoteThreshold
import Zeroraft.Properties.VoteRequests
import Zeroraft.Properties.ComposedSlice
import Zeroraft.Properties.ResponseTerm
import Zeroraft.Properties.StoreFailures
import Zeroraft.Properties.CommitBound
import Zeroraft.Properties.MemoryContract
import Zeroraft.Properties.KnownLeader
import Zeroraft.Properties.ClientAnswers
import Zeroraft.Properties.Timers
import Zeroraft.Properties.Pacing
import Zeroraft.Properties.NothingReplicated
import Zeroraft.Properties.TermSources
import Zeroraft.Properties.ElectionRestriction
import Zeroraft.Properties.Atomicity
import Zeroraft.Properties.Progress
import Zeroraft.Properties.Addressing
import Zeroraft.Properties.Redirects
import Zeroraft.Properties.ServedCluster
import Zeroraft.Properties.Isolation
import Zeroraft.Properties.Electability
import Zeroraft.Properties.SessionRounds
