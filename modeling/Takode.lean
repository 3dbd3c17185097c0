import Takode.RemoteHost.Gaps
import Takode.RemoteHost.Takeover
import Takode.SyncedProjection.Convergence
import Takode.Leases.Queues
import Takode.LandingQueue.Attestations
import Takode.Sessions.Serving
import Takode.Timers.Keeping
import Takode.Drafts.Convergence
import Takode.Coordinator.Epochs
import Takode.DirectoryLock.Breaking
import Takode.MemoryLock.Holding
import Takode.Streams.Ordering
import Takode.TreeGroups.Restart
import Takode.Todos.Restart
import Takode.HerdEvents.Runs
import Takode.KeyedLists.Browsers
import Takode.TurnLifecycle.Turns
import Takode.Quests.Concurrency
import Takode.CodexHistory.Replays
import Takode.CodexInputs.Reaching
import Takode.Timers.Occurrences
import Takode.MessageDelivery.FollowUps
import Takode.HistorySync.Prefixes
import Takode.LeaderTabs.Orders
import Takode.Leases.Durability
import Takode.ViewportHandoff.Restarts
import Takode.SessionHistory.Codec
import Takode.DraftPosts.Comparing
import Takode.Todos.TakingBack
import Takode.Streams.Migrating
import Takode.ThreadRouting.RoundTrip
import Takode.Quests.Reopening
import Takode.Quests.FileChunks
import Takode.CodexTurns.Order
import Takode.HistoryWindows.Covering
import Takode.Journeys.Stability
import Takode.Journeys.Revising
import Takode.AutoPause.Splitting
import Takode.TurnLifecycle.Starts
import Takode.Journeys.Waiting
import Takode.SessionHistory.Digests
import Takode.CodexPlans.Sequences
import Takode.SessionHistory.Compaction
import Takode.SessionHistory.Reading
