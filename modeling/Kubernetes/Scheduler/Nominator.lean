import Mathlib

/-!
# The pod nominator

`nominatedPodMap` (`pkg/scheduler/internal/queue`) records the node each pod is nominated to, in
two maps: `nominatedPods` from a node name to the pods nominated to it, and `nominatedPodToNode`
from a pod's UID to its node. `add` first deletes the pod, then files it under the node given, or
under the pod's own `Status.NominatedNodeName` when none is given, or not at all when that is
empty too; `delete` takes the pod out of its node's list, dropping a list that becomes empty;
`UpdateNominatedPod` deletes the old pod and adds the new one, keeping the old node when neither
pod names one.

`Inv` says the two maps agree: `nominatedPodToNode` sends a UID to a node exactly when a pod of
that UID is in the node's list, each UID occurs at most once in a list, and no list is empty.
`add`, `delete` and `updateNominatedPod` keep it (`Inv.add`, `Inv.delete`,
`Inv.updateNominatedPod`), so it holds after any sequence of calls (`Inv.run`).

Pods are of any type `P`; `uid` and `nominatedNodeName` read a pod's UID and its
`Status.NominatedNodeName`, the empty string standing for none.
-/

namespace Kubernetes.Scheduler

variable {P υ : Type*} [DecidableEq υ]

/-- `nominatedPodMap`, without its lock. -/
structure NominatedPodMap (P υ : Type*) where
  nominatedPods : String → Option (List P)
  nominatedPodToNode : υ → Option String

namespace NominatedPodMap

/-- The map `NewPodNominator` makes. -/
def empty : NominatedPodMap P υ := ⟨fun _ => none, fun _ => none⟩

variable (uid : P → υ) (nominatedNodeName : P → String)

/-- `npm.delete(p)`: take the first pod of `p`'s UID out of the list of its node, drop the list
if it becomes empty, and forget the UID. -/
def delete (npm : NominatedPodMap P υ) (p : P) : NominatedPodMap P υ :=
  match npm.nominatedPodToNode (uid p) with
  | none => npm
  | some nnn =>
    let pods := (npm.nominatedPods nnn).getD []
    let nominatedPods :=
      if pods.any (fun np => uid np == uid p) then
        let rest := pods.eraseP (fun np => uid np == uid p)
        if rest = [] then Function.update npm.nominatedPods nnn none
        else Function.update npm.nominatedPods nnn (some rest)
      else npm.nominatedPods
    ⟨nominatedPods, Function.update npm.nominatedPodToNode (uid p) none⟩

/-- `npm.add(pi, nodeName)`: delete the pod, then file it under `nodeName`, or under its own
nominated node when `nodeName` is empty; a pod nominated nowhere is not filed. -/
def add (npm : NominatedPodMap P υ) (pi : P) (nodeName : String) : NominatedPodMap P υ :=
  let npm := npm.delete uid pi
  let nnn := if nodeName = "" then nominatedNodeName pi else nodeName
  if nnn = "" then npm
  else
    let npm : NominatedPodMap P υ :=
      ⟨npm.nominatedPods, Function.update npm.nominatedPodToNode (uid pi) (some nnn)⟩
    let pods := (npm.nominatedPods nnn).getD []
    -- the pod was just deleted, so this search never finds it
    if pods.any (fun npi => uid npi == uid pi) then npm
    else ⟨Function.update npm.nominatedPods nnn (some (pods ++ [pi])), npm.nominatedPodToNode⟩

/-- `UpdateNominatedPod(oldPod, newPodInfo)`: replace the old pod by the new one, on the old
pod's node when neither pod names a node. -/
def updateNominatedPod (npm : NominatedPodMap P υ) (oldPod newPod : P) : NominatedPodMap P υ :=
  let nodeName :=
    if nominatedNodeName oldPod = "" ∧ nominatedNodeName newPod = "" then
      (npm.nominatedPodToNode (uid oldPod)).getD ""
    else ""
  (npm.delete uid oldPod).add uid nominatedNodeName newPod nodeName

/-- The calls the scheduler makes on the nominator. -/
inductive Call (P : Type*)
  /-- `AddNominatedPod(pi, nodeName)`. -/
  | add (pi : P) (nodeName : String)
  /-- `DeleteNominatedPodIfExists(pod)`. -/
  | delete (pod : P)
  /-- `UpdateNominatedPod(oldPod, newPodInfo)`. -/
  | update (oldPod newPod : P)

/-- The nominator after a call. -/
def perform (npm : NominatedPodMap P υ) : Call P → NominatedPodMap P υ
  | .add pi nodeName => npm.add uid nominatedNodeName pi nodeName
  | .delete pod => npm.delete uid pod
  | .update oldPod newPod => npm.updateNominatedPod uid nominatedNodeName oldPod newPod

/-- The two maps agree, no UID occurs twice in a list, and no list is empty. -/
structure Inv (npm : NominatedPodMap P υ) : Prop where
  nonempty : ∀ n l, npm.nominatedPods n = some l → l ≠ []
  nodup : ∀ n l, npm.nominatedPods n = some l → (l.map uid).Nodup
  toNode : ∀ u n, npm.nominatedPodToNode u = some n ↔
    ∃ l, npm.nominatedPods n = some l ∧ u ∈ l.map uid

omit [DecidableEq υ] in
theorem inv_empty : Inv uid (empty : NominatedPodMap P υ) :=
  ⟨fun _ _ h => by simp [empty] at h, fun _ _ h => by simp [empty] at h,
    fun _ _ => by simp [empty]⟩

/-- Erasing the first pod of a UID erases the UID from the list of UIDs. -/
theorem map_eraseP_uid (l : List P) (u : υ) :
    (l.eraseP (fun np => uid np == u)).map uid = (l.map uid).erase u := by
  rw [List.erase_eq_eraseP', List.eraseP_map]
  rfl

variable {uid} {npm : NominatedPodMap P υ}

omit [DecidableEq υ] in
/-- Under the invariant a UID is filed under one node only. -/
theorem Inv.toNode_of_mem (hi : Inv uid npm) {n : String} {l : List P} {u : υ}
    (hl : npm.nominatedPods n = some l) (hu : u ∈ l.map uid) :
    npm.nominatedPodToNode u = some n :=
  (hi.toNode u n).mpr ⟨l, hl, hu⟩

/-- `delete` forgets the pod's UID. -/
theorem delete_nominatedPodToNode (p : P) :
    (npm.delete uid p).nominatedPodToNode = Function.update npm.nominatedPodToNode (uid p) none := by
  unfold NominatedPodMap.delete
  cases hnode : npm.nominatedPodToNode (uid p) with
  | none =>
    dsimp only
    exact (Function.update_eq_self_iff.mpr hnode.symm).symm
  | some nnn => rfl

/-- What `delete` leaves of the lists: the list of the pod's node without the pod, unless that is
empty, and every other list as it was. -/
theorem delete_nominatedPods_eq_some {p : P} {nnn : String} {l₀ : List P}
    (hnode : npm.nominatedPodToNode (uid p) = some nnn) (hl₀ : npm.nominatedPods nnn = some l₀)
    (hany : (l₀.any fun np => uid np == uid p) = true) (n : String) (l : List P) :
    (npm.delete uid p).nominatedPods n = some l ↔
      (n ≠ nnn ∧ npm.nominatedPods n = some l) ∨
        (n = nnn ∧ l = l₀.eraseP (fun np => uid np == uid p) ∧ l ≠ []) := by
  unfold NominatedPodMap.delete
  simp only [hnode, hl₀, Option.getD_some, hany, if_true]
  by_cases hn : n = nnn
  · subst hn
    split <;> rename_i hrest
    · simp [hrest]
    · simp only [Function.update_self, Option.some.injEq, ne_eq, not_true_eq_false, false_and,
        true_and, false_or]
      constructor
      · rintro rfl
        exact ⟨rfl, hrest⟩
      · rintro ⟨rfl, -⟩
        rfl
  · split <;> simp [hn]

/-- Under the invariant, `delete` keeps the invariant and no list holds the pod's UID after it. -/
theorem Inv.delete (hi : Inv uid npm) (p : P) :
    Inv uid (npm.delete uid p) ∧ ∀ n l, (npm.delete uid p).nominatedPods n = some l →
      uid p ∉ l.map uid := by
  have hto : (npm.delete uid p).nominatedPodToNode = _ := delete_nominatedPodToNode p
  cases hnode : npm.nominatedPodToNode (uid p) with
  | none =>
    have hdel : npm.delete uid p = npm := by unfold NominatedPodMap.delete; rw [hnode]
    rw [hdel]
    exact ⟨hi, fun n l hl hu => by rw [hi.toNode_of_mem hl hu] at hnode; cases hnode⟩
  | some nnn =>
    obtain ⟨l₀, hl₀, hu₀⟩ := (hi.toNode _ _).mp hnode
    have hany : (l₀.any fun np => uid np == uid p) = true := by
      obtain ⟨x, hx, hxu⟩ := List.mem_map.mp hu₀
      exact List.any_eq_true.mpr ⟨x, hx, by simp [hxu]⟩
    have hnd₀ := hi.nodup _ _ hl₀
    have hrest : ∀ u, u ∈ (l₀.eraseP fun np => uid np == uid p).map uid ↔
        u ≠ uid p ∧ u ∈ l₀.map uid := fun u => by
      rw [map_eraseP_uid, hnd₀.mem_erase_iff]
    have hpods := delete_nominatedPods_eq_some hnode hl₀ hany
    have hnot : ∀ n l, (npm.delete uid p).nominatedPods n = some l → uid p ∉ l.map uid := by
      intro n l hl hul
      rcases (hpods n l).mp hl with ⟨hn, hl'⟩ | ⟨-, rfl, -⟩
      · exact hn (Option.some.inj ((hi.toNode_of_mem hl' hul).symm.trans hnode))
      · exact ((hrest _).mp hul).1 rfl
    refine ⟨⟨fun n l hl => ?_, fun n l hl => ?_, fun u n => ?_⟩, hnot⟩
    · rcases (hpods n l).mp hl with ⟨-, hl'⟩ | ⟨-, -, hne⟩
      · exact hi.nonempty n l hl'
      · exact hne
    · rcases (hpods n l).mp hl with ⟨-, hl'⟩ | ⟨-, rfl, -⟩
      · exact hi.nodup n l hl'
      · rw [map_eraseP_uid]
        exact hnd₀.erase _
    · rw [hto]
      by_cases hu : u = uid p
      · subst hu
        simp only [Function.update_self, reduceCtorEq, false_iff, not_exists, not_and]
        exact hnot n
      · rw [Function.update_of_ne hu, hi.toNode u n]
        constructor
        · rintro ⟨l, hl, hul⟩
          by_cases hn : n = nnn
          · subst hn
            rw [hl₀] at hl
            cases hl
            have hmem := (hrest u).mpr ⟨hu, hul⟩
            have hne : (l₀.eraseP fun np => uid np == uid p) ≠ [] := by
              intro h
              rw [h] at hmem
              simp at hmem
            exact ⟨_, (hpods _ _).mpr (Or.inr ⟨rfl, rfl, hne⟩), hmem⟩
          · exact ⟨l, (hpods n l).mpr (Or.inl ⟨hn, hl⟩), hul⟩
        · rintro ⟨l, hl, hul⟩
          rcases (hpods n l).mp hl with ⟨-, hl'⟩ | ⟨rfl, rfl, -⟩
          · exact ⟨l, hl', hul⟩
          · exact ⟨l₀, hl₀, ((hrest u).mp hul).2⟩

/-- Filing a pod whose UID is nowhere under a node keeps the invariant. -/
theorem Inv.file (hi : Inv uid npm) {pi : P}
    (hnot : ∀ n l, npm.nominatedPods n = some l → uid pi ∉ l.map uid) (nnn : String) :
    Inv uid ⟨Function.update npm.nominatedPods nnn (some ((npm.nominatedPods nnn).getD [] ++ [pi])),
      Function.update npm.nominatedPodToNode (uid pi) (some nnn)⟩ := by
  have hpods : ∀ l, (npm.nominatedPods nnn).getD [] = l → (l.map uid).Nodup ∧ uid pi ∉ l.map uid ∧
      ∀ u, u ∈ l.map uid ↔ ∃ l', npm.nominatedPods nnn = some l' ∧ u ∈ l'.map uid := by
    rintro l rfl
    cases hn : npm.nominatedPods nnn with
    | none => simp
    | some l => exact ⟨hi.nodup _ _ hn, hnot _ _ hn, fun u => by simp⟩
  obtain ⟨hnd, hpi, hmem⟩ := hpods _ rfl
  refine ⟨fun n l hl => ?_, fun n l hl => ?_, fun u n => ?_⟩
  · dsimp only at hl
    by_cases hn : n = nnn
    · subst hn
      simp only [Function.update_self, Option.some.injEq] at hl
      simp [← hl]
    · rw [Function.update_of_ne hn] at hl
      exact hi.nonempty n l hl
  · dsimp only at hl
    by_cases hn : n = nnn
    · subst hn
      simp only [Function.update_self, Option.some.injEq] at hl
      rw [← hl, List.map_append, List.nodup_append]
      refine ⟨hnd, by simp, fun a ha b hb hab => hpi ?_⟩
      simp only [List.map_cons, List.map_nil, List.mem_singleton] at hb
      rw [← hb, ← hab]
      exact ha
    · rw [Function.update_of_ne hn] at hl
      exact hi.nodup n l hl
  · dsimp only
    by_cases hu : u = uid pi
    · subst hu
      rw [Function.update_self, Option.some.injEq]
      by_cases hn : n = nnn
      · subst hn
        simp
      · rw [Function.update_of_ne hn]
        exact ⟨fun h => absurd h.symm hn, fun ⟨l, hl, hul⟩ => absurd hul (hnot n l hl)⟩
    · rw [Function.update_of_ne hu, hi.toNode u n]
      by_cases hn : n = nnn
      · subst hn
        simp only [Function.update_self, Option.some.injEq, exists_eq_left', List.map_append,
          List.mem_append, List.map_cons, List.map_nil, List.mem_singleton, hu, or_false, hmem]
      · rw [Function.update_of_ne hn]

/-- **`add` keeps the invariant.** -/
theorem Inv.add (hi : Inv uid npm) (pi : P) (nodeName : String) :
    Inv uid (npm.add uid nominatedNodeName pi nodeName) := by
  obtain ⟨hi₁, hnot⟩ := hi.delete pi
  unfold NominatedPodMap.add
  dsimp only
  generalize (if nodeName = "" then nominatedNodeName pi else nodeName) = nnn
  by_cases hempty : nnn = ""
  · rw [if_pos hempty]
    exact hi₁
  · rw [if_neg hempty]
    have hnone : ¬ ((((npm.delete uid pi).nominatedPods nnn).getD []).any
        fun npi => uid npi == uid pi) = true := by
      rw [List.any_eq_true]
      rintro ⟨x, hx, hxu⟩
      cases hn : (npm.delete uid pi).nominatedPods nnn with
      | none => simp [hn] at hx
      | some l =>
        rw [hn, Option.getD_some] at hx
        exact hnot _ _ hn (List.mem_map.mpr ⟨x, hx, by simpa using hxu⟩)
    rw [if_neg hnone]
    exact hi₁.file hnot nnn

/-- `UpdateNominatedPod` keeps the invariant. -/
theorem Inv.updateNominatedPod (hi : Inv uid npm) (oldPod newPod : P) :
    Inv uid (npm.updateNominatedPod uid nominatedNodeName oldPod newPod) :=
  (hi.delete oldPod).1.add nominatedNodeName newPod _

theorem Inv.perform (hi : Inv uid npm) : ∀ c : Call P, Inv uid (npm.perform uid nominatedNodeName c)
  | .add pi nodeName => hi.add nominatedNodeName pi nodeName
  | .delete pod => (hi.delete pod).1
  | .update oldPod newPod => hi.updateNominatedPod nominatedNodeName oldPod newPod

/-- **The invariant holds after any sequence of calls.** -/
theorem Inv.run (hi : Inv uid npm) (calls : List (Call P)) :
    Inv uid (calls.foldl (NominatedPodMap.perform uid nominatedNodeName) npm) := by
  induction calls generalizing npm with
  | nil => exact hi
  | cons c calls ih => exact ih (hi.perform nominatedNodeName c)

end NominatedPodMap

end Kubernetes.Scheduler
