import CEmbeddedUtils.BoundedHeapOrderProofs
import CEmbeddedUtils.BoundedHeapRepairProofs
import CEmbeddedUtils.CopyQueueProofs
import CEmbeddedUtils.CopyQueueConfigProofs
import CEmbeddedUtils.PtrStackLifoProofs
import CEmbeddedUtils.StaticPoolProofs
import CEmbeddedUtils.StaticPoolMisuseProofs
import CEmbeddedUtils.CircularBufferInterruptProofs
import CEmbeddedUtils.FastCircularBufferProofs
import CEmbeddedUtils.DeinitProofs
import CEmbeddedUtils.BitOpsProofs
import CEmbeddedUtils.BsearchSortedProofs
import CEmbeddedUtils.BsearchHalvingProofs
import CEmbeddedUtils.BsearchOverflowProofs
import CEmbeddedUtils.LePackProofs
import CEmbeddedUtils.LePackBoundsProofs
import CEmbeddedUtils.LePackDecodeProofs
import CEmbeddedUtils.LePackSignedProofs
import CEmbeddedUtils.SimpleFsmProofs
import CEmbeddedUtils.SimpleFsmGrammarProofs
import CEmbeddedUtils.StaticEventPublisherProofs
import CEmbeddedUtils.PoolAllocatorProofs
import CEmbeddedUtils.ContainerLifecycleProofs
import CEmbeddedUtils.SimpleFsmRecurrenceProofs
import CEmbeddedUtils.BoundedHeapQueueProofs
import CEmbeddedUtils.LePackLayoutProofs
import CEmbeddedUtils.LePackOverflowProofs
import CEmbeddedUtils.ByteStreamProofs
import CEmbeddedUtils.CircularBufferConcurrencyProofs
import CEmbeddedUtils.FastCircularBufferConcurrencyProofs
import CEmbeddedUtils.CopyQueueLifetimeProofs
import CEmbeddedUtils.BsearchEffortProofs
import CEmbeddedUtils.SimpleFsmTableProofs
import CEmbeddedUtils.SimpleFsmNestingProofs
