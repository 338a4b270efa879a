import Kubernetes.Foundations.Bits
import Kubernetes.Foundations.Scan
import Kubernetes.Foundations.Reach
import Kubernetes.Foundations.GoStd
import Kubernetes.Foundations.GoHeap
import Kubernetes.Allocator.Bitmap
import Kubernetes.Allocator.Storage
import Kubernetes.NodeIpam.CidrSet
import Kubernetes.Scheduler.Heap
import Kubernetes.Scheduler.Nominator
import Kubernetes.Scheduler.Queue
import Kubernetes.Scheduler.QueueInv
import Kubernetes.Scheduler.QueueRun
import Kubernetes.Foundations.Best
import Kubernetes.TopologyManager.Bitmask
import Kubernetes.TopologyManager.Policy
import Kubernetes.MemoryManager.State
import Kubernetes.MemoryManager.Hints
import Kubernetes.MemoryManager.PolicyStatic
import Kubernetes.MemoryManager.Accounting
import Kubernetes.Deployment.Rolling
import Kubernetes.Deployment.Budget
import Kubernetes.StatefulSet.Control
import Kubernetes.StatefulSet.OrderedReady
import Kubernetes.Proxy.ServiceMap
import Kubernetes.Proxy.ServiceChanges
import Kubernetes.Proxy.EndpointSliceCache
import Kubernetes.Proxy.EndpointSliceChanges
import Kubernetes.ServiceRegistry.ClusterIPs
import Kubernetes.CPUManager.PolicyStatic
import Kubernetes.CPUManager.Invariants
import Kubernetes.Foundations.Placement
import Kubernetes.Scheduler.Cache
import Kubernetes.Scheduler.CachePods
import Kubernetes.PortAllocator.Operation
import Kubernetes.PortAllocator.Etcd
import Kubernetes.NodeIpam.Blocks
import Kubernetes.IPAllocator.Range
import Kubernetes.Foundations.GoRange
import Kubernetes.CPUManager.Assignment
import Kubernetes.CPUManager.WholeCores
import Kubernetes.CPUManager.Hints
import Kubernetes.TopologyManager.SingleNumaNode
import Kubernetes.Foundations.GoStrconv
import Kubernetes.CPUManager.CPUSet
import Kubernetes.Proxy.StaleClusterIP
import Kubernetes.Scheduler.NodeInfo
import Kubernetes.TopologyManager.Scope
import Kubernetes.Deployment.Progress
import Kubernetes.Deployment.Scale
import Kubernetes.Podautoscaler.Behavior
import Kubernetes.EndpointSlice.TopologyCache
import Kubernetes.CronJob.Schedule
import Kubernetes.Job.Indexed
import Kubernetes.Job.ManageJob
import Kubernetes.Foundations.GoSlice
import Kubernetes.Scheduler.Victims
import Kubernetes.Scheduler.PickNode
import Kubernetes.PersistentVolume.Index
import Kubernetes.NodeLifecycle.Disruption
import Kubernetes.NodeLifecycle.TaintManager
import Kubernetes.ReplicaSet.ActivePods
import Kubernetes.ReplicaSet.ManageReplicas
import Kubernetes.Kubelet.StatusManager
import Kubernetes.Kubelet.PodActions
import Kubernetes.Kubelet.Eviction
import Kubernetes.GarbageCollector.Graph
import Kubernetes.GarbageCollector.Invariants
import Kubernetes.PortAllocator.Repair
import Kubernetes.Scheduler.TopologySpread.Filtering
import Kubernetes.Scheduler.TopologySpread.CriticalPaths
import Kubernetes.Scheduler.TopologySpread.Refinement
import Kubernetes.TopologyManager.IterateBitMasks
import Kubernetes.Foundations.Bins
import Kubernetes.EndpointSlice.Reconciler
import Kubernetes.EndpointSlice.ReconcilerSteps
import Kubernetes.EndpointSlice.ReconcilerPlacement
import Kubernetes.EndpointSlice.ReconcilerCurrent
import Kubernetes.EndpointSlice.ReconcilerPlan
import Kubernetes.EndpointSlice.ReconcilerFixpoint
import Kubernetes.EndpointSlice.ReconcilerFinalize
