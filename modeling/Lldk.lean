import Lldk.Lib.Trace
import Lldk.Lib.Heap
import Lldk.Utilities.UnorderedMap
import Lldk.Utilities.UnorderedMapInvariant
import Lldk.Utilities.UnorderedMapRefinement
import Lldk.Utilities.UnorderedMapCopy
import Lldk.Lib.BitWords
import Lldk.Utilities.Bitset
import Lldk.Base.Process
import Lldk.Utilities.ThreadLocalBase
import Lldk.Utilities.ThreadLocalStore
import Lldk.Utilities.ThreadLocal
import Lldk.Utilities.ThreadLocalIds
import Lldk.Utilities.ThreadLocalLifetime
import Lldk.Base.AllocatorImpl
import Lldk.Base.AllocatorStats
import Lldk.Base.Allocator
import Lldk.Base.AllocatorCreate
import Lldk.Base.AllocatorOwners
import Lldk.Lib.Threads
import Lldk.Lib.LockOrder
import Lldk.Lib.Outline
import Lldk.Lib.Hands
import Lldk.Base.AllocatorLocks
import Lldk.Base.AllocatorDeadlock
import Lldk.Utilities.BitsetStore
import Lldk.Utilities.ThreadLocalRange
import Lldk.Utilities.ThreadLocalOwnership
import Lldk.Utilities.ThreadLocalBalance
import Lldk.Utilities.ThreadLocalIsolation
import Lldk.Base.AllocatorApi
import Lldk.Base.AllocatorEffects
import Lldk.Base.AllocatorRegistry
import Lldk.Base.AllocatorCycles
import Lldk.Base.AllocatorSpares
import Lldk.Base.AllocatorSound
import Lldk.Base.AllocatorFailures
import Lldk.Lib.Ledger
import Lldk.Base.AllocatorLoans
import Lldk.Base.AllocatorLimit
import Lldk.Base.AllocatorBalance
import Lldk.Utilities.BitsetQueries
import Lldk.Utilities.UnorderedMapMisses
import Lldk.Utilities.ThreadLocalFailures
import Lldk.Utilities.ThreadLocalForeach
import Lldk.Utilities.ThreadLocalOrder
import Lldk.Lib.ByteMemory
import Lldk.Base.AllocatorMemory
import Lldk.Base.AllocatorPayload
import Lldk.Base.AllocatorSingleton
import Lldk.Base.AllocatorCounters
import Lldk.Base.AllocatorAlignment
import Lldk.Lib.Reduction
import Lldk.Utilities.ThreadLocalIdCalls
import Lldk.Lib.AtomicObject
import Lldk.Base.AllocatorAtomic
import Lldk.Utilities.ThreadLocalTraversal
import Lldk.Base.AllocatorKept
import Lldk.Base.AllocatorExit
import Lldk.Lib.Progress
import Lldk.Base.AllocatorProgress
import Lldk.Lib.Stuck
import Lldk.Base.AllocatorRelock
import Lldk.Utilities.UnorderedMapFailures
import Lldk.Base.AllocatorPool
import Lldk.Lib.HeapTotal
import Lldk.Base.AllocatorAccounts
import Lldk.Base.AllocatorReturns
import Lldk.Base.AllocatorLasting
