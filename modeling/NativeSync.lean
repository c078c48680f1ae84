import NativeSync.Foundations.Cell
import NativeSync.Foundations.Fifo
import NativeSync.Foundations.Linearization
import NativeSync.Foundations.Progress
import NativeSync.Foundations.Refcount
import NativeSync.Foundations.Resources
import NativeSync.Foundations.RingBuffer
import NativeSync.Foundations.Runs
import NativeSync.Foundations.Statements
import NativeSync.Foundations.Threads
import NativeSync.Native
import NativeSync.Endpoints
import NativeSync.OwnedBytes.Core
import NativeSync.OwnedBytes.System
import NativeSync.OwnedBytes.Moves
import NativeSync.OwnedBytes.Invariant
import NativeSync.OwnedBytes.Linearizable
import NativeSync.OwnedBytes.Wakeups
import NativeSync.OwnedBytes.Stranding
import NativeSync.OwnedBytes.Progress
import NativeSync.Channel.Core
import NativeSync.Channel.System
import NativeSync.Channel.Moves
import NativeSync.Channel.Refinement
import NativeSync.Channel.Wakeups
import NativeSync.Channel.Statements
import NativeSync.Channel.Progress
import NativeSync.ThreadPool.Core
import NativeSync.ThreadPool.System
import NativeSync.ThreadPool.Moves
import NativeSync.ThreadPool.Invariant
import NativeSync.ThreadPool.Wakeups
import NativeSync.ThreadPool.ExactlyOnce
import NativeSync.ThreadPool.Faults
import NativeSync.ThreadPool.Failures
import NativeSync.ThreadPool.Lifetime
import NativeSync.ThreadPool.Progress
import NativeSync.ThreadPool.AllocHook
import NativeSync.Thread.Core
import NativeSync.Thread.System
import NativeSync.Thread.Moves
import NativeSync.Thread.Invariant
import NativeSync.Thread.Books
import NativeSync.Thread.OneClose
import NativeSync.Thread.Release
import NativeSync.Thread.Progress
import NativeSync.Once.Core
import NativeSync.Once.System
import NativeSync.Once.Moves
import NativeSync.Once.Safety
import NativeSync.Once.Failures
import NativeSync.Once.Statements
import NativeSync.Once.Progress
import NativeSync.Once.Lifetime
import NativeSync.WaitGroup.Core
import NativeSync.WaitGroup.System
import NativeSync.WaitGroup.Counting
import NativeSync.WaitGroup.Statements
import NativeSync.WaitGroup.Progress
import NativeSync.WaitGroup.Lifetime
import NativeSync.Handles
import NativeSync.OwnedBytes.Outcomes
import NativeSync.OwnedBytes.Budget
import NativeSync.OwnedBytes.Failures
import NativeSync.Channel.Failures
import NativeSync.ChannelFailures
import NativeSync.ChannelHandles
import NativeSync.OwnedBytes.Copies
import NativeSync.OwnedBytes.Custody
import NativeSync.OwnedBytes.Ledger
import NativeSync.Mutex.System
import NativeSync.Mutex.Moves
import NativeSync.Mutex.Exclusion
import NativeSync.Mutex.Guards
import NativeSync.Mutex.Progress
import NativeSync.Atomic.Core
import NativeSync.Atomic.Api
import NativeSync.Atomic.Cell
import NativeSync.RwLock.System
import NativeSync.RwLock.Moves
import NativeSync.RwLock.Exclusion
import NativeSync.RwLock.Scopes
import NativeSync.RwLock.Lifetime
import NativeSync.RwLock.Progress
import NativeSync.Constructors
