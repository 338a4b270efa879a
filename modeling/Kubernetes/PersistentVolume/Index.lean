import Mathlib
import Kubernetes.Foundations.Best
import Kubernetes.Foundations.GoRange

/-!
# Finding a volume for a claim

`pkg/controller/volume/persistentvolume/index.go` and `util/util.go`. The volume controller keeps
its volumes in an index by their access modes, as `GetAccessModesAsString` writes them.
`findByClaim` tries the index keys holding every requested mode, fewest modes first, and returns
what `FindMatchingVolume` finds in the first key that has a match.

* `getAccessModesFromString_asString`: an index key read back gives the modes it was written
  from, so the keys `allPossibleMatchingAccessModes` returns are those of the volumes that have
  every requested mode (`mem_listByAccessModes_allPossible`).
* `findMatchingVolume_eq`: in one key's volumes, the first volume pre-bound to the claim that
  fits it, and otherwise, unless binding is delayed, the first available volume of the least
  capacity that fits.
* `findByClaim_spec`: a volume is found exactly where one fits the claim with every requested
  mode, and what is found is one of them.
* `findByClaim_skips_prebound_volume`: a key with fewer modes is searched first, so an unbound
  volume there is returned while a volume pre-bound to the claim waits under a key with more.

`FindMatchingVolume` is called with no node and no excluded volumes, as `findByClaim` calls it;
`StorageObjectInUseProtection` is on. A claim's selector is its `MatchLabels`.
-/

namespace Kubernetes.PVController

/-- `v1.PersistentVolumeAccessMode`. -/
inductive AccessMode where
  | readWriteOnce
  | readOnlyMany
  | readWriteMany
  deriving DecidableEq

/-- `v1.PersistentVolumeMode`. -/
inductive VolumeMode where
  | filesystem
  | block
  deriving DecidableEq

/-- `v1.PersistentVolumePhase`. -/
inductive VolumePhase where
  | pending
  | available
  | bound
  | released
  | failed
  deriving DecidableEq

/-- `Spec.ClaimRef`, what `IsVolumeBoundToClaim` reads of it. -/
structure ObjectReference where
  refNamespace : String
  name : String
  uid : String
  deriving DecidableEq

/-- A `v1.PersistentVolume`: `deleting` where its `DeletionTimestamp` is set, `capacity` its
storage, `storageClassName` what `GetPersistentVolumeClass` gives. -/
structure PersistentVolume where
  name : String
  labels : List (String × String)
  deleting : Bool
  claimRef : Option ObjectReference
  capacity : ℕ
  volumeMode : Option VolumeMode
  accessModes : List AccessMode
  storageClassName : String
  phase : VolumePhase
  deriving DecidableEq

/-- A `v1.PersistentVolumeClaim`: `request` its storage request, `storageClassName` what
`GetPersistentVolumeClaimClass` gives. -/
structure PersistentVolumeClaim where
  claimNamespace : String
  name : String
  uid : String
  accessModes : List AccessMode
  request : ℕ
  storageClassName : String
  selector : Option (List (String × String))
  volumeMode : Option VolumeMode

/-! ## Index keys -/

/-- `containsAccessMode`. -/
def containsAccessMode (modes : List AccessMode) (mode : AccessMode) : Bool := modes.contains mode

/-- `removeDuplicateAccessModes`. -/
def removeDuplicateAccessModes (modes : List AccessMode) : List AccessMode :=
  modes.foldl (fun accessModes m => if containsAccessMode accessModes m then accessModes
    else accessModes ++ [m]) []

/-- The key of a set of modes, by which of the three it holds. -/
def modesKey (rwo rox rwx : Bool) : String :=
  ",".intercalate ((if rwo then ["RWO"] else []) ++ (if rox then ["ROX"] else []) ++
    (if rwx then ["RWX"] else []))

/-- `v1helper.GetAccessModesAsString`. -/
def getAccessModesAsString (modes : List AccessMode) : String :=
  let modes := removeDuplicateAccessModes modes
  modesKey (containsAccessMode modes .readWriteOnce) (containsAccessMode modes .readOnlyMany)
    (containsAccessMode modes .readWriteMany)

/-- One part of `GetAccessModesFromString`; the keys it reads have no blanks to trim. -/
def accessModeOfString (s : String) : List AccessMode :=
  if s = "RWO" then [.readWriteOnce]
  else if s = "ROX" then [.readOnlyMany]
  else if s = "RWX" then [.readWriteMany]
  else []

/-- `v1helper.GetAccessModesFromString`, with `strings.Split` on `,` done on the key's
characters. -/
def getAccessModesFromString (modes : String) : List AccessMode :=
  ((modes.toList.splitOn ',').map String.ofList).foldl
    (fun accessModes s => accessModes ++ accessModeOfString s) []

/-- `volumeutil.AccessModesContains`. -/
def accessModesContains (modes : List AccessMode) (mode : AccessMode) : Bool := modes.contains mode

/-- `volumeutil.AccessModesContainedInAll`. -/
def accessModesContainedInAll (indexedModes requestedModes : List AccessMode) : Bool :=
  requestedModes.all (accessModesContains indexedModes)

theorem mem_removeDuplicateAccessModes {modes : List AccessMode} {m : AccessMode} :
    m ∈ removeDuplicateAccessModes modes ↔ m ∈ modes := by
  have h : ∀ acc : List AccessMode, m ∈ modes.foldl (fun accessModes m => if containsAccessMode
      accessModes m then accessModes else accessModes ++ [m]) acc ↔ m ∈ acc ∨ m ∈ modes := by
    induction modes with
    | nil => simp
    | cons x modes ih =>
      intro acc
      rw [List.foldl_cons, ih]
      by_cases hx : containsAccessMode acc x
      · have hmem : x ∈ acc := by simpa [containsAccessMode] using hx
        rw [if_pos hx, List.mem_cons]
        constructor
        · exact fun h => h.elim .inl fun h => .inr (.inr h)
        · rintro (h | rfl | h)
          exacts [.inl h, .inl hmem, .inr h]
      · rw [if_neg hx, List.mem_append, List.mem_singleton, List.mem_cons]
        tauto
  simpa [removeDuplicateAccessModes] using h []

/-- The key of a list of modes depends on which modes it holds. -/
theorem getAccessModesAsString_eq (modes : List AccessMode) :
    getAccessModesAsString modes = modesKey (decide (.readWriteOnce ∈ modes))
      (decide (.readOnlyMany ∈ modes)) (decide (.readWriteMany ∈ modes)) := by
  simp [getAccessModesAsString, containsAccessMode, mem_removeDuplicateAccessModes]

theorem getAccessModesFromString_modesKey (rwo rox rwx : Bool) (m : AccessMode) :
    m ∈ getAccessModesFromString (modesKey rwo rox rwx) ↔
      (m = .readWriteOnce ∧ rwo) ∨ (m = .readOnlyMany ∧ rox) ∨ (m = .readWriteMany ∧ rwx) := by
  cases rwo <;> cases rox <;> cases rwx <;> cases m <;> decide

/-- **An index key read back gives the modes it was written from.** -/
theorem getAccessModesFromString_asString (modes : List AccessMode) (m : AccessMode) :
    m ∈ getAccessModesFromString (getAccessModesAsString modes) ↔ m ∈ modes := by
  rw [getAccessModesAsString_eq, getAccessModesFromString_modesKey]
  cases m <;> simp

theorem getAccessModesAsString_congr {modes modes' : List AccessMode}
    (h : ∀ m, m ∈ modes ↔ m ∈ modes') :
    getAccessModesAsString modes = getAccessModesAsString modes' := by
  simp only [getAccessModesAsString_eq, h]

theorem accessModesContainedInAll_iff {indexedModes requestedModes : List AccessMode} :
    accessModesContainedInAll indexedModes requestedModes = true ↔
      ∀ m ∈ requestedModes, m ∈ indexedModes := by
  simp [accessModesContainedInAll, accessModesContains]

/-! ## The index -/

/-- The `accessmodes` index of the controller's store: each key's volumes, in the order the store
gives keys and volumes, every volume under the key of its modes. -/
structure AccessModesIndex where
  buckets : List (String × List PersistentVolume)
  keys_nodup : (buckets.map Prod.fst).Nodup
  keyed : ∀ b ∈ buckets, ∀ pv ∈ b.2, getAccessModesAsString pv.accessModes = b.1

/-- The volumes in the index. -/
def AccessModesIndex.volumes (index : AccessModesIndex) : List PersistentVolume :=
  index.buckets.flatMap Prod.snd

/-- `listByAccessModes`: the volumes under the key of `modes`. -/
def listByAccessModes (index : AccessModesIndex) (modes : List AccessMode) :
    List PersistentVolume :=
  (index.buckets.lookup (getAccessModesAsString modes)).getD []

/-- `allPossibleMatchingAccessModes`: the modes of the keys that hold every requested mode,
fewest first. The index has at most the eight keys `GetAccessModesAsString` writes, so
`sort.Sort` finishes them as a small slice. -/
def allPossibleMatchingAccessModes (index : AccessModesIndex) (requestedModes : List AccessMode) :
    List (List AccessMode) :=
  let matchedModes := (index.buckets.map Prod.fst).foldl (fun matchedModes key =>
    let indexedModes := getAccessModesFromString key
    if accessModesContainedInAll indexedModes requestedModes then matchedModes ++ [indexedModes]
    else matchedModes) []
  Go.smallSort (fun a b => decide (a.length < b.length)) matchedModes

/-! ## `FindMatchingVolume` -/

/-- `IsVolumeBoundToClaim`. -/
def isVolumeBoundToClaim (volume : PersistentVolume) (claim : PersistentVolumeClaim) : Bool :=
  match volume.claimRef with
  | none => false
  | some ref =>
    claim.name = ref.name && claim.claimNamespace = ref.refNamespace &&
      (ref.uid = "" || claim.uid = ref.uid)

/-- `CheckVolumeModeMismatches`, a mode that is not set being `Filesystem`. -/
def checkVolumeModeMismatches (claim : PersistentVolumeClaim) (volume : PersistentVolume) : Bool :=
  claim.volumeMode.getD .filesystem != volume.volumeMode.getD .filesystem

/-- `selector.Matches` for a selector of `MatchLabels`. -/
def selectorMatches (matchLabels labels : List (String × String)) : Bool :=
  matchLabels.all fun kv => labels.lookup kv.1 == some kv.2

/-- `smallestVolume == nil || smallestVolumeQty.Cmp(volumeQty) > 0`: the volume replaces the
smallest so far where it is strictly smaller. -/
def keepSmallest (smallestVolume : Option PersistentVolume) (volume : PersistentVolume) :
    Option PersistentVolume :=
  match smallestVolume with
  | some smallest => if volume.capacity < smallest.capacity then some volume else some smallest
  | none => some volume

/-- The loop of `FindMatchingVolume`, from the smallest volume so far. -/
def findMatchingVolume (claim : PersistentVolumeClaim) (delayBinding : Bool) :
    List PersistentVolume → Option PersistentVolume → Option PersistentVolume
  | [], smallestVolume => smallestVolume
  | volume :: volumes, smallestVolume =>
    if volume.claimRef.isSome && !isVolumeBoundToClaim volume claim then
      findMatchingVolume claim delayBinding volumes smallestVolume
    else if volume.capacity < claim.request then
      findMatchingVolume claim delayBinding volumes smallestVolume
    else if checkVolumeModeMismatches claim volume then
      findMatchingVolume claim delayBinding volumes smallestVolume
    else if volume.deleting then
      findMatchingVolume claim delayBinding volumes smallestVolume
    else if isVolumeBoundToClaim volume claim then some volume
    else if delayBinding then findMatchingVolume claim delayBinding volumes smallestVolume
    else if volume.phase ≠ .available then
      findMatchingVolume claim delayBinding volumes smallestVolume
    else if (claim.selector.map fun matchLabels => !selectorMatches matchLabels volume.labels).getD
        false then
      findMatchingVolume claim delayBinding volumes smallestVolume
    else if volume.storageClassName ≠ claim.storageClassName then
      findMatchingVolume claim delayBinding volumes smallestVolume
    else findMatchingVolume claim delayBinding volumes (keepSmallest smallestVolume volume)

/-- A volume pre-bound to the claim that the loop returns: large enough, of the claim's mode and
not being deleted. -/
def boundMatch (claim : PersistentVolumeClaim) (volume : PersistentVolume) : Bool :=
  isVolumeBoundToClaim volume claim && decide (claim.request ≤ volume.capacity) &&
    !checkVolumeModeMismatches claim volume && !volume.deleting

/-- An unbound volume the loop may keep as the smallest: large enough, of the claim's mode, not
being deleted, available, matching the claim's selector and of its class. -/
def eligible (claim : PersistentVolumeClaim) (volume : PersistentVolume) : Bool :=
  volume.claimRef.isNone && decide (claim.request ≤ volume.capacity) &&
    !checkVolumeModeMismatches claim volume && !volume.deleting &&
    volume.phase == .available &&
    (claim.selector.all fun matchLabels => selectorMatches matchLabels volume.labels) &&
    volume.storageClassName == claim.storageClassName

theorem findMatchingVolume_cons (claim : PersistentVolumeClaim) (delayBinding : Bool)
    (volume : PersistentVolume) (volumes : List PersistentVolume)
    (smallestVolume : Option PersistentVolume) :
    findMatchingVolume claim delayBinding (volume :: volumes) smallestVolume =
      if boundMatch claim volume then some volume
      else findMatchingVolume claim delayBinding volumes
        (if !delayBinding && eligible claim volume then keepSmallest smallestVolume volume
          else smallestVolume) := by
  rw [findMatchingVolume]
  have hskip : ∀ {P : Prop} [Decidable P], P → boundMatch claim volume = false →
      eligible claim volume = false → ∀ {x : Option PersistentVolume},
        (if P then findMatchingVolume claim delayBinding volumes smallestVolume else x) =
          (if boundMatch claim volume then some volume
          else findMatchingVolume claim delayBinding volumes
            (if !delayBinding && eligible claim volume then keepSmallest smallestVolume volume
              else smallestVolume)) := by
    intro P _ hP hnb hne x
    simp [hP, hnb, hne]
  by_cases hother : volume.claimRef.isSome && !isVolumeBoundToClaim volume claim
  · refine hskip hother ?_ ?_
    · simp_all [boundMatch]
    · simp_all [eligible, Option.isSome_iff_ne_none]
  rw [if_neg hother]
  by_cases hsmall : volume.capacity < claim.request
  · exact hskip hsmall (by simp [boundMatch, not_le.mpr hsmall]) (by simp [eligible, not_le.mpr hsmall])
  rw [if_neg hsmall]
  by_cases hmode : checkVolumeModeMismatches claim volume
  · exact hskip hmode (by simp [boundMatch, hmode]) (by simp [eligible, hmode])
  rw [if_neg hmode]
  by_cases hdel : volume.deleting
  · exact hskip hdel (by simp [boundMatch, hdel]) (by simp [eligible, hdel])
  rw [if_neg hdel]
  by_cases hbound : isVolumeBoundToClaim volume claim
  · -- the pre-bound volume passed every check
    have hb : boundMatch claim volume = true := by
      simp [boundMatch, hbound, not_lt.mp hsmall, hmode, hdel]
    rw [if_pos hbound, if_pos hb]
  rw [if_neg hbound]
  have hnb : boundMatch claim volume = false := by simp [boundMatch, hbound]
  have hunbound : volume.claimRef = none := by simpa [hbound] using hother
  cases delayBinding
  · -- binding now: the remaining checks are those of `eligible`
    have he : eligible claim volume = (volume.phase == .available &&
        (claim.selector.all fun matchLabels => selectorMatches matchLabels volume.labels) &&
        volume.storageClassName == claim.storageClassName) := by
      simp [eligible, hunbound, not_lt.mp hsmall, hmode, hdel]
    rw [if_neg Bool.false_ne_true, hnb, he]
    by_cases hphase : volume.phase ≠ .available
    · rw [if_pos hphase]
      simp [hphase]
    rw [if_neg hphase]
    cases hsel : claim.selector with
    | some matchLabels =>
      by_cases hmatch : selectorMatches matchLabels volume.labels
      · by_cases hclass : volume.storageClassName ≠ claim.storageClassName
        · simp_all
        · simp_all
      · simp_all
    | none =>
      by_cases hclass : volume.storageClassName ≠ claim.storageClassName
      · simp_all
      · simp_all
  · simp [hnb]

/-- **`FindMatchingVolume`'s loop**: the first pre-bound volume that fits the claim, and where
there is none, unless binding is delayed, the smallest of the unbound volumes that fit, the first
of them where several are. -/
theorem findMatchingVolume_eq (claim : PersistentVolumeClaim) (delayBinding : Bool)
    (volumes : List PersistentVolume) (smallestVolume : Option PersistentVolume) :
    findMatchingVolume claim delayBinding volumes smallestVolume =
      match volumes.find? (boundMatch claim) with
      | some volume => some volume
      | none => if delayBinding then smallestVolume
        else (volumes.filter (eligible claim)).foldl keepSmallest smallestVolume := by
  induction volumes generalizing smallestVolume with
  | nil => cases delayBinding <;> rfl
  | cons volume volumes ih =>
    rw [findMatchingVolume_cons, List.find?_cons]
    by_cases hb : boundMatch claim volume
    · simp [hb]
    · rw [if_neg hb, ih]
      cases delayBinding <;> by_cases he : eligible claim volume <;> simp [hb, he]

/-- `findByClaim`: the first key, in the order of `allPossibleMatchingAccessModes`, where
`FindMatchingVolume` finds a volume. -/
def findByClaim (index : AccessModesIndex) (claim : PersistentVolumeClaim) (delayBinding : Bool) :
    Option PersistentVolume :=
  (allPossibleMatchingAccessModes index claim.accessModes).findSome? fun modes =>
    findMatchingVolume claim delayBinding (listByAccessModes index modes) none

theorem foldl_keepSmallest_mem (volumes : List PersistentVolume) :
    ∀ (smallestVolume : Option PersistentVolume) {v : PersistentVolume},
      volumes.foldl keepSmallest smallestVolume = some v → smallestVolume = some v ∨ v ∈ volumes := by
  induction volumes with
  | nil => exact fun _ _ h => .inl h
  | cons volume volumes ih =>
    intro smallestVolume v h
    rcases ih _ h with hkeep | hmem
    · cases smallestVolume with
      | none => exact .inr (by simp [keepSmallest] at hkeep; simp [hkeep])
      | some smallest =>
        dsimp only [keepSmallest] at hkeep
        split_ifs at hkeep
        · exact .inr (by simp [Option.some.inj hkeep])
        · exact .inl hkeep
    · exact .inr (List.mem_cons_of_mem _ hmem)

theorem foldl_keepSmallest_ne_none (volumes : List PersistentVolume) (volume : PersistentVolume) :
    volumes.foldl keepSmallest (some volume) ≠ none := by
  induction volumes generalizing volume with
  | nil => simp
  | cons w volumes ih =>
    rw [List.foldl_cons]
    dsimp only [keepSmallest]
    split_ifs
    · exact ih w
    · exact ih volume

/-- What the loop returns, started with no volume: a pre-bound volume that fits or, binding
now, an unbound one that fits. -/
theorem findMatchingVolume_some {claim : PersistentVolumeClaim} {delayBinding : Bool}
    {volumes : List PersistentVolume} {v : PersistentVolume}
    (h : findMatchingVolume claim delayBinding volumes none = some v) :
    v ∈ volumes ∧ (boundMatch claim v = true ∨ (delayBinding = false ∧ eligible claim v = true)) := by
  rw [findMatchingVolume_eq] at h
  cases hfind : volumes.find? (boundMatch claim) with
  | some w =>
    rw [hfind] at h
    cases h
    exact ⟨List.mem_of_find?_eq_some hfind, .inl (List.find?_some hfind)⟩
  | none =>
    rw [hfind] at h
    cases delayBinding with
    | true => cases h
    | false =>
      rcases foldl_keepSmallest_mem _ none h with h | hmem
      · cases h
      · exact ⟨List.mem_of_mem_filter hmem, .inr ⟨rfl, (List.mem_filter.mp hmem).2⟩⟩

/-- The loop, started with no volume, finds nothing exactly where no volume fits. -/
theorem findMatchingVolume_eq_none {claim : PersistentVolumeClaim} {delayBinding : Bool}
    {volumes : List PersistentVolume} :
    findMatchingVolume claim delayBinding volumes none = none ↔
      ∀ v ∈ volumes, boundMatch claim v = false ∧ (delayBinding = false → eligible claim v = false) := by
  rw [findMatchingVolume_eq]
  cases hfind : volumes.find? (boundMatch claim) with
  | some w =>
    simp only [reduceCtorEq, false_iff, not_forall, not_and]
    exact ⟨w, List.mem_of_find?_eq_some hfind, fun hnb => by simp [List.find?_some hfind] at hnb⟩
  | none =>
    have hnb : ∀ v ∈ volumes, boundMatch claim v = false := by
      simpa using List.find?_eq_none.mp hfind
    cases delayBinding with
    | true => simpa using hnb
    | false =>
      simp only [Bool.false_eq_true, if_false, forall_const]
      cases hel : volumes.filter (eligible claim) with
      | nil =>
        simp only [List.foldl_nil, true_iff]
        intro v hv
        exact ⟨hnb v hv, by simpa using List.filter_eq_nil_iff.mp hel v hv⟩
      | cons w rest =>
        simp only [List.foldl_cons, show keepSmallest none w = some w from rfl,
          foldl_keepSmallest_ne_none, false_iff, not_forall, not_and]
        have hw : w ∈ volumes.filter (eligible claim) := by simp [hel]
        exact ⟨w, List.mem_of_mem_filter hw, fun _ => by simpa using (List.mem_filter.mp hw).2⟩

/-! ## `findByClaim` -/

theorem mem_lookup_getD {buckets : List (String × List PersistentVolume)}
    (hnodup : (buckets.map Prod.fst).Nodup) {key : String} {pv : PersistentVolume} :
    pv ∈ (buckets.lookup key).getD [] ↔ ∃ b ∈ buckets, b.1 = key ∧ pv ∈ b.2 := by
  induction buckets with
  | nil => simp
  | cons b buckets ih =>
    obtain ⟨k, vs⟩ := b
    rw [List.map_cons, List.nodup_cons] at hnodup
    rw [List.lookup_cons]
    by_cases hk : key = k
    · subst hk
      simp only [beq_self_eq_true, Option.getD_some]
      constructor
      · exact fun h => ⟨(key, vs), List.mem_cons_self, rfl, h⟩
      · rintro ⟨b, hb, hkey, hpv⟩
        rcases List.mem_cons.mp hb with rfl | hb
        · exact hpv
        · exact absurd (List.mem_map.mpr ⟨b, hb, hkey⟩) hnodup.1
    · have hbeq : (key == k) = false := by simpa using hk
      simp only [hbeq]
      rw [ih hnodup.2]
      constructor
      · rintro ⟨b, hb, hkey, hpv⟩
        exact ⟨b, List.mem_cons_of_mem _ hb, hkey, hpv⟩
      · rintro ⟨b, hb, hkey, hpv⟩
        rcases List.mem_cons.mp hb with rfl | hb
        · exact absurd hkey.symm hk
        · exact ⟨b, hb, hkey, hpv⟩

/-- The volumes listed for `modes` are those of the index under the same key. -/
theorem mem_listByAccessModes {index : AccessModesIndex} {modes : List AccessMode}
    {pv : PersistentVolume} :
    pv ∈ listByAccessModes index modes ↔
      pv ∈ index.volumes ∧ getAccessModesAsString pv.accessModes = getAccessModesAsString modes := by
  rw [listByAccessModes, mem_lookup_getD index.keys_nodup, AccessModesIndex.volumes,
    List.mem_flatMap]
  constructor
  · rintro ⟨b, hb, hkey, hpv⟩
    exact ⟨⟨b, hb, hpv⟩, (index.keyed b hb pv hpv).trans hkey⟩
  · rintro ⟨⟨b, hb, hpv⟩, hkey⟩
    exact ⟨b, hb, (index.keyed b hb pv hpv).symm.trans hkey, hpv⟩

/-- A volume listed for `modes` has exactly those modes. -/
theorem mem_accessModes_of_mem_listByAccessModes {index : AccessModesIndex}
    {modes : List AccessMode} {pv : PersistentVolume} (h : pv ∈ listByAccessModes index modes)
    (m : AccessMode) : m ∈ pv.accessModes ↔ m ∈ modes := by
  rw [← getAccessModesFromString_asString pv.accessModes, (mem_listByAccessModes.mp h).2,
    getAccessModesFromString_asString]

theorem mem_allPossibleMatchingAccessModes {index : AccessModesIndex}
    {requestedModes modes : List AccessMode} :
    modes ∈ allPossibleMatchingAccessModes index requestedModes ↔
      ∃ b ∈ index.buckets, modes = getAccessModesFromString b.1 ∧ ∀ m ∈ requestedModes, m ∈ modes := by
  have hfold : ∀ (keys : List String) (acc : List (List AccessMode)),
      modes ∈ keys.foldl (fun matchedModes key =>
        if accessModesContainedInAll (getAccessModesFromString key) requestedModes then
          matchedModes ++ [getAccessModesFromString key] else matchedModes) acc ↔
        modes ∈ acc ∨ ∃ key ∈ keys, modes = getAccessModesFromString key ∧
          ∀ m ∈ requestedModes, m ∈ modes := by
    intro keys
    induction keys with
    | nil => simp
    | cons key keys ih =>
      intro acc
      rw [List.foldl_cons, ih]
      by_cases hkey : accessModesContainedInAll (getAccessModesFromString key) requestedModes
      · rw [if_pos hkey]
        have hin := accessModesContainedInAll_iff.mp hkey
        simp only [List.mem_append, List.mem_cons, List.not_mem_nil, or_false, exists_eq_or_imp]
        constructor
        · rintro ((h | rfl) | h)
          exacts [.inl h, .inr (.inl ⟨rfl, hin⟩), .inr (.inr h)]
        · rintro (h | h | h)
          exacts [.inl (.inl h), .inl (.inr h.1), .inr h]
      · rw [if_neg hkey]
        simp only [List.mem_cons, exists_eq_or_imp]
        refine ⟨fun h => h.imp_right .inr, fun h => h.elim .inl fun h => h.elim (fun h => ?_) .inr⟩
        exact absurd (accessModesContainedInAll_iff.mpr (h.1 ▸ h.2)) hkey
  simp only [allPossibleMatchingAccessModes, (Go.smallSort_perm _ _).mem_iff, hfold,
    List.not_mem_nil, false_or, List.mem_map]
  constructor
  · rintro ⟨_, ⟨b, hb, rfl⟩, h⟩
    exact ⟨b, hb, h⟩
  · rintro ⟨b, hb, h⟩
    exact ⟨b.1, ⟨b, hb, rfl⟩, h⟩

/-- Every volume with every requested mode is listed under one of the keys tried. -/
theorem mem_listByAccessModes_allPossible {index : AccessModesIndex}
    {requestedModes : List AccessMode} {pv : PersistentVolume} (hpv : pv ∈ index.volumes)
    (hmodes : ∀ m ∈ requestedModes, m ∈ pv.accessModes) :
    ∃ modes ∈ allPossibleMatchingAccessModes index requestedModes,
      pv ∈ listByAccessModes index modes := by
  obtain ⟨b, hb, hpvb⟩ := List.mem_flatMap.mp hpv
  have hkey := index.keyed b hb pv hpvb
  refine ⟨getAccessModesFromString b.1, mem_allPossibleMatchingAccessModes.mpr
    ⟨b, hb, rfl, fun m hm => ?_⟩, mem_listByAccessModes.mpr ⟨hpv, ?_⟩⟩
  · rw [← hkey, getAccessModesFromString_asString]
    exact hmodes m hm
  · rw [← hkey]
    exact getAccessModesAsString_congr fun m => (getAccessModesFromString_asString _ m).symm

/-- **`findByClaim` finds a volume exactly where one fits the claim** with every requested mode,
pre-bound or, binding now, unbound; what it finds is one of them. -/
theorem findByClaim_spec (index : AccessModesIndex) (claim : PersistentVolumeClaim)
    (delayBinding : Bool) :
    (∀ v, findByClaim index claim delayBinding = some v →
      v ∈ index.volumes ∧ (∀ m ∈ claim.accessModes, m ∈ v.accessModes) ∧
        (boundMatch claim v = true ∨ (delayBinding = false ∧ eligible claim v = true))) ∧
    (findByClaim index claim delayBinding = none ↔
      ∀ v ∈ index.volumes, (∀ m ∈ claim.accessModes, m ∈ v.accessModes) →
        boundMatch claim v = false ∧ (delayBinding = false → eligible claim v = false)) := by
  refine ⟨fun v h => ?_, ⟨fun h v hv hmodes => ?_, fun h => ?_⟩⟩
  · obtain ⟨modes, hmodes, hfind⟩ := List.exists_of_findSome?_eq_some h
    obtain ⟨hv, hfits⟩ := findMatchingVolume_some hfind
    obtain ⟨-, -, -, hreq⟩ := mem_allPossibleMatchingAccessModes.mp hmodes
    refine ⟨(mem_listByAccessModes.mp hv).1, fun m hm => ?_, hfits⟩
    exact (mem_accessModes_of_mem_listByAccessModes hv m).mpr (hreq m hm)
  · obtain ⟨modes, hmodes', hlisted⟩ := mem_listByAccessModes_allPossible hv hmodes
    exact findMatchingVolume_eq_none.mp (List.findSome?_eq_none_iff.mp h modes hmodes') v hlisted
  · refine List.findSome?_eq_none_iff.mpr fun modes hmodes => findMatchingVolume_eq_none.mpr ?_
    intro v hv
    obtain ⟨-, -, -, hreq⟩ := mem_allPossibleMatchingAccessModes.mp hmodes
    exact h v (mem_listByAccessModes.mp hv).1
      fun m hm => (mem_accessModes_of_mem_listByAccessModes hv m).mpr (hreq m hm)

/-! ## A pre-bound volume behind an unbound one -/

/-- A claim for one unit of `ReadWriteOnce` storage of class `standard`. -/
def dataClaim : PersistentVolumeClaim :=
  ⟨"default", "data", "uid-data", [.readWriteOnce], 1, "standard", none, none⟩

/-- A volume pre-bound to `dataClaim`, `ReadWriteOnce` and `ReadOnlyMany`. -/
def preboundVolume : PersistentVolume :=
  ⟨"pv-prebound", [], false, some ⟨"default", "data", ""⟩, 5, none, [.readWriteOnce, .readOnlyMany],
    "standard", .available⟩

/-- An unbound available volume, `ReadWriteOnce` only. -/
def freeVolume : PersistentVolume :=
  ⟨"pv-free", [], false, none, 5, none, [.readWriteOnce], "standard", .available⟩

/-- The index of the two volumes, its keys in either order. -/
def freeKeyFirst : AccessModesIndex :=
  ⟨[("RWO", [freeVolume]), ("RWO,ROX", [preboundVolume])], by decide, by decide⟩
def preboundKeyFirst : AccessModesIndex :=
  ⟨[("RWO,ROX", [preboundVolume]), ("RWO", [freeVolume])], by decide, by decide⟩

/-- `preboundVolume` fits `dataClaim` as a pre-bound volume must, but `findByClaim` returns the
unbound `freeVolume`, in either order of the index's keys. -/
theorem findByClaim_skips_prebound_volume :
    isVolumeBoundToClaim preboundVolume dataClaim = true ∧
    dataClaim.request ≤ preboundVolume.capacity ∧
    checkVolumeModeMismatches dataClaim preboundVolume = false ∧
    preboundVolume.deleting = false ∧
    accessModesContainedInAll preboundVolume.accessModes dataClaim.accessModes = true ∧
    findByClaim freeKeyFirst dataClaim false = some freeVolume ∧
    findByClaim preboundKeyFirst dataClaim false = some freeVolume ∧
    isVolumeBoundToClaim freeVolume dataClaim = false := by
  decide

end Kubernetes.PVController
