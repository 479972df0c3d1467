import HundredDays.Semantics.Run
import HundredDays.PagedStorage.Lifecycle
import HundredDays.PagedStorage.Cache.Recency
import HundredDays.PagedStorage.Pinning
import HundredDays.PagedStorage.Cache.Contents
import HundredDays.PagedStorage.Transparency
import HundredDays.PagedStorage.FreeList
import HundredDays.PagedStorage.Allocation
import HundredDays.PagedStorage.Crash
import HundredDays.PagedStorage.BufferPool
import HundredDays.PagedStorage.BufferPool.Refinement
import HundredDays.PagedStorage.BufferPool.Operations
import HundredDays.PagedStorage.Agreement
import HundredDays.PagedStorage.Cache.Exhaustion
import HundredDays.PagedStorage.Exhaustion
import HundredDays.PagedStorage.BufferPool.Exhaustion
import HundredDays.PagedStorage.Cache.Owing
import HundredDays.PagedStorage.WriteFailures
import HundredDays.PagedStorage.PageGuard
import HundredDays.PagedStorage.PageGuard.Shelves
import HundredDays.PagedStorage.PageGuard.Balance
import HundredDays.PagedStorage.PageGuard.Debts
import HundredDays.PagedStorage.PageGuard.Clients
import HundredDays.Data.Dyadic
import HundredDays.Buddy.Layout
import HundredDays.Buddy.Moves
import HundredDays.Buddy.Loops
import HundredDays.Deadlock.Detector
import HundredDays.FirstFit.Session
import HundredDays.LookUpTable.Growth
import HundredDays.LruCache.Session
import HundredDays.SpinLock.Totals
import HundredDays.SpscQueue.Fifo
import HundredDays.ThreadPool.Orderly
import HundredDays.ActorModel.Lifetime
import HundredDays.ActorModel.Mailbox
import HundredDays.AudioPipeline.Completion
import HundredDays.AudioPipeline.Turns
import HundredDays.ThreadPool.Jobs
import HundredDays.MpmcQueue.StressTest
import HundredDays.ActorModel.CActor
import HundredDays.MpmcQueue.Refusal
import HundredDays.StealStack.Consumers
import HundredDays.SsoString.Union
import HundredDays.SsoString.Ownership
import HundredDays.SsoString.CppModel
import HundredDays.SsoString.Operations
import HundredDays.SsoString.Values
import HundredDays.SsoString.CModel
import HundredDays.SsoString.Failure
import HundredDays.SsoString.Survival
import HundredDays.TreiberStack.Linearizable
import HundredDays.TreiberStack.Reclamation
import HundredDays.TreiberStack.Custody
import HundredDays.TreiberStack.Knowledge
import HundredDays.TreiberStack.Hazards
import HundredDays.TreiberStack.Steps
import HundredDays.TreiberStack.Guarded
import HundredDays.TreiberStack.Safety
import HundredDays.TreiberStack.Accounts
import HundredDays.TreiberStack.Completion
import HundredDays.Interning.Hashes
import HundredDays.LookUpTable.BenchMap
import HundredDays.Data.Accumulate
import HundredDays.Matmul.Products
import HundredDays.Data.BigEndian
import HundredDays.Data.Chunks
import HundredDays.Memory.Buffer
import HundredDays.TickSerializer.Model
import HundredDays.TickSerializer.RoundTrip
import HundredDays.FeedParser.Model
import HundredDays.FeedParser.Fragments
import HundredDays.EntityPool.Model
import HundredDays.EntityPool.Sessions
import HundredDays.EventLoop.Model
import HundredDays.EventLoop.Responses
import HundredDays.PriceTracker.Model
import HundredDays.PriceTracker.Maximum
import HundredDays.PriceTracker.Pairs
import HundredDays.LockFreeBasics.Model
import HundredDays.LockFreeBasics.Publication
import HundredDays.Data.References
import HundredDays.CowString.Model
import HundredDays.CowString.Isolation
import HundredDays.SharedPtr.Model
import HundredDays.SharedPtr.Ownership
import HundredDays.SharedPtr.Release
import HundredDays.SharedPtr.Histories
import HundredDays.Deadlock.CGraph
import HundredDays.Deadlock.CRefinement
import HundredDays.Deadlock.CDetector
import HundredDays.Buddy.Sessions
import HundredDays.Buddy.Coalescing
import HundredDays.AudioBuffer.Model
import HundredDays.AudioBuffer.Shutdown
import HundredDays.Bmp.RoundTrip
import HundredDays.Interning.Canonical
import HundredDays.LeakTracker.Exact
import HundredDays.SpscQueue.Lifetimes
import HundredDays.Buddy.Exhaustion
import HundredDays.Buddy.Narrowing
import HundredDays.Buddy.Configurations
import HundredDays.Buddy.Sizes
import HundredDays.Buddy.Containment
import HundredDays.Buddy.Alignment
import HundredDays.ArenaAlloc.Model
import HundredDays.ArenaAlloc.Padding
import HundredDays.BitBoard.Knights
import HundredDays.BitBoard.Pawns
import HundredDays.FirstFit.Requests
import HundredDays.BumpArena.Model
import HundredDays.BumpArena.Requests
import HundredDays.BumpArena.Histories
import HundredDays.LockFreeQueue.Model
import HundredDays.LockFreeQueue.Fifo
import HundredDays.Data.Occurrences
import HundredDays.GrepBuffer.Model
import HundredDays.GrepBuffer.Matches
import HundredDays.Memory.Backend
import HundredDays.CustomVector.Model
import HundredDays.CustomVector.Growth
import HundredDays.CustomVector.Backends
import HundredDays.CustomVector.Lists
import HundredDays.ObjectPool.Model
import HundredDays.ObjectPool.Slots
import HundredDays.ObjectPool.Calls
import HundredDays.ObjectPool.Sessions
import HundredDays.ObjectPool.Destroying
import HundredDays.ObjectPool.Throwing
