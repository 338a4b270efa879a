import Kubernetes.Allocator.Bitmap
import Kubernetes.Foundations.Reach

/-!
# Several apiservers sharing one range allocation

Each apiserver runs an `Etcd` allocator (`pkg/registry/core/service/allocator/storage/storage.go`)
over one stored `RangeAllocation`. It keeps a cached `AllocationBitmap` and the resource version
`last` it last synchronised with. Every `Allocate`, `AllocateNext` and `Release` runs `tryUpdate`:
storage's `GuaranteedUpdate` reads the stored object and applies the update function, which
restores the cache from the object when its version differs from `last`, runs the operation on
the cache, records the version in `last` and returns the cache's snapshot to write; the write is a
compare-and-swap on the version read, retried from a fresh read on conflict, and it may also fail
outright. The update function changes the cache before the write is known to succeed.

`System` is any number of apiservers with their call in progress (`Phase`), the stored object,
and the history of what the calls reported to their callers (`Event`). `Step` is one atomic step
of one apiserver: start a call, read and run the update function, or end the write by commit,
conflict or failure.

A `Release` whose write fails has already cleared the offset in that apiserver's cache, and the
cache is not restored before that apiserver's next update, whose write then persists the
release: a second caller can be handed the offset although the release was reported as failed
(`etcd_reachable_doubleAllocation`). Counting every `Release` call, whatever it reported, the
offsets that were reported allocated and not released since are pairwise distinct and all
persisted (`etcd_reachable_noDoubleAllocation`).
-/

namespace Kubernetes.Allocator.Storage

open Bitset AllocationBitmap

/-- `api.RangeAllocation` under the shared key: its resource version (`none` while the key does
not exist, an empty `ResourceVersion`), its range and the bytes of the bitmap. -/
structure RangeAllocation where
  resourceVersion : Option ℕ
  range : String
  data : List ℕ
  deriving DecidableEq, Repr

/-- `Etcd`: an apiserver's cached bitmap and the version it last synchronised with. -/
structure Etcd where
  alloc : AllocationBitmap
  last : Option ℕ
  deriving DecidableEq, Repr

/-- A call of the `Etcd` allocator. -/
inductive Op
  | allocate (offset : ℕ)
  | allocateNext
  | release (item : ℕ)
  deriving DecidableEq, Repr

/-- The errors an update function returns. -/
inductive UpdateError
  /-- `errorUnableToAllocate`. -/
  | unableToAllocate
  /-- `cannot allocate resources of type %s at this time`: the key does not exist yet. -/
  | notReady
  /-- An error of `Restore`. -/
  | restore (msg : String)
  deriving DecidableEq, Repr

/-- The closure `fn` each call passes to `tryUpdate`: the operation on the cache, with the offset
it concerns; `rnd` is the random draw of `AllocateNext`'s scan. -/
def runFn (rnd : ℕ) : Op → AllocationBitmap → Except UpdateError (ℕ × AllocationBitmap)
  | .allocate offset, a =>
    match a.allocate offset with
    | (true, a') => .ok (offset, a')
    | (false, _) => .error .unableToAllocate
  | .allocateNext, a =>
    match a.allocateNext rnd with
    | ((next, true), a') => .ok (next, a')
    | ((_, false), _) => .error .unableToAllocate
  | .release item, a => .ok (item, a.release item)

/-- The update function of `tryUpdate`, run on the object `existing` read from storage: the
apiserver afterwards (a `Restore` sticks even when the operation then fails) and, on success, the
offset concerned and the object to write. -/
def updateFn (rnd : ℕ) (op : Op) (e : Etcd) (existing : RangeAllocation) :
    Etcd × Except UpdateError (ℕ × RangeAllocation) :=
  if existing.resourceVersion = none then (e, .error .notReady) else
    let synced : Except UpdateError AllocationBitmap :=
      if existing.resourceVersion ≠ e.last then
        (e.alloc.restore existing.range existing.data).mapError UpdateError.restore
      else .ok e.alloc
    match synced with
    | .error err => (e, .error err)
    | .ok alloc =>
      match runFn rnd op alloc with
      | .error err => ({ e with alloc }, .error err)
      | .ok (res, alloc') =>
        ({ alloc := alloc', last := existing.resourceVersion },
          .ok (res, { existing with range := alloc'.snapshot.1, data := alloc'.snapshot.2 }))

/-- Where an apiserver's call is. -/
inductive Phase
  /-- No call in progress. -/
  | idle
  /-- In `GuaranteedUpdate`, about to read the stored object. -/
  | updating (op : Op)
  /-- The update function succeeded on the object of version `read`: `obj` is to be written,
  `res` is the offset concerned. -/
  | writing (op : Op) (res : ℕ) (read : ℕ) (obj : RangeAllocation)
  deriving DecidableEq, Repr

/-- What a call reported to its caller. -/
inductive Event
  /-- An `Allocate` or `AllocateNext` reported `offset` as allocated. -/
  | allocated (offset : ℕ)
  /-- A `Release` of `item` returned, without (`ok = true`) or with an error. -/
  | released (item : ℕ) (ok : Bool)
  deriving DecidableEq, Repr

/-- Apiservers indexed by `ι` sharing one stored range allocation; the history is newest first. -/
structure System (ι : Type*) where
  stored : RangeAllocation
  inst : ι → Etcd
  phase : ι → Phase
  history : List Event

/-- Whether a call allocates (`Allocate`, `AllocateNext`) rather than releases. -/
def Op.allocates : Op → Bool
  | .release _ => false
  | _ => true

/-- The event a call reports when its update function or its write fails. -/
def Op.failed : Op → List Event
  | .release item => [.released item false]
  | _ => []

/-- The event a call reports when its write commits. -/
def Op.committed (res : ℕ) : Op → Event
  | .release item => .released item true
  | _ => .allocated res

variable {ι : Type*} [DecidableEq ι]

/-- One atomic step of apiserver `i`. -/
inductive Step (i : ι) : System ι → System ι → Prop
  /-- A caller starts a call. -/
  | call {s : System ι} (op : Op) : s.phase i = .idle →
      Step i s { s with phase := Function.update s.phase i (.updating op) }
  /-- Read the stored object and run the update function, which fails. -/
  | updateError {s : System ι} {op : Op} (rnd : ℕ) (err : UpdateError) :
      s.phase i = .updating op →
      (updateFn rnd op (s.inst i) s.stored).2 = .error err →
      Step i s { s with inst := Function.update s.inst i (updateFn rnd op (s.inst i) s.stored).1,
                        phase := Function.update s.phase i .idle,
                        history := op.failed ++ s.history }
  /-- Read the stored object and run the update function, which succeeds. -/
  | update {s : System ι} {op : Op} (rnd : ℕ) {res v : ℕ} {obj : RangeAllocation} :
      s.phase i = .updating op → s.stored.resourceVersion = some v →
      (updateFn rnd op (s.inst i) s.stored).2 = .ok (res, obj) →
      Step i s { s with inst := Function.update s.inst i (updateFn rnd op (s.inst i) s.stored).1,
                        phase := Function.update s.phase i (.writing op res v obj) }
  /-- The compare-and-swap finds the version read and writes, under a new version. -/
  | commit {s : System ι} {op : Op} {res v : ℕ} {obj : RangeAllocation} :
      s.phase i = .writing op res v obj → s.stored.resourceVersion = some v →
      Step i s { s with stored := { obj with resourceVersion := some (v + 1) },
                        phase := Function.update s.phase i .idle,
                        history := op.committed res :: s.history }
  /-- The compare-and-swap finds another version: read again. -/
  | conflict {s : System ι} {op : Op} {res v : ℕ} {obj : RangeAllocation} :
      s.phase i = .writing op res v obj → s.stored.resourceVersion ≠ some v →
      Step i s { s with phase := Function.update s.phase i (.updating op) }
  /-- The write fails with an error; the stored object is unchanged. -/
  | writeError {s : System ι} {op : Op} {res v : ℕ} {obj : RangeAllocation} :
      s.phase i = .writing op res v obj →
      Step i s { s with phase := Function.update s.phase i .idle,
                        history := op.failed ++ s.history }

/-- Initial systems: any stored object, apiservers that never synchronised and no call. -/
def Init (s : System ι) : Prop :=
  (∀ i, (s.inst i).last = none ∧ s.phase i = .idle) ∧ s.history = []

/-- The systems some interleaving of steps reaches. -/
abbrev Reachable : System ι → Prop := Reach.Reachable Init Step

/-! ## Live offsets and double allocation -/

/-- Whether `o` is live in a history: its last event is an allocation, the releases that
`counts` accepts ending a life. -/
def isLive (counts : Bool → Bool) (o : ℕ) : List Event → Bool
  | [] => false
  | .allocated o' :: hist => o' == o || isLive counts o hist
  | .released o' ok :: hist => !(o' == o && counts ok) && isLive counts o hist

/-- No allocation event hands out an offset that is still live: no offset is reported allocated
to two callers without a release, of the kind `counts` accepts, in between. -/
def NoDoubleAllocation (counts : Bool → Bool) : List Event → Prop
  | [] => True
  | .allocated o :: hist => isLive counts o hist = false ∧ NoDoubleAllocation counts hist
  | .released _ _ :: hist => NoDoubleAllocation counts hist

/-- Only a `Release` that returned without an error ends a life. -/
def successfulRelease (ok : Bool) : Bool := ok

/-- Every `Release` call ends a life, whatever it returned. -/
def anyRelease (_ : Bool) : Bool := true

/-! ## The update function -/

/-- What a successful operation does to the cached bitmap. -/
theorem runFn_ok {rnd res : ℕ} {op : Op} {a a' : AllocationBitmap}
    (h : runFn rnd op a = .ok (res, a')) :
    (op = .release res ∧ a'.allocated = setBit a.allocated res false) ∨
      (op.allocates = true ∧ a.allocated.testBit res = false ∧
        a'.allocated = setBit a.allocated res true) := by
  cases op with
  | allocate offset =>
    simp only [runFn] at h
    split at h
    · rename_i a'' ha
      cases h
      exact .inr ⟨rfl, allocate_eq_true ha⟩
    · cases h
  | allocateNext =>
    simp only [runFn] at h
    split at h
    · rename_i next a'' ha
      cases h
      exact .inr ⟨rfl, allocateNext_eq_true ha⟩
    · cases h
  | release item =>
    simp only [runFn] at h
    cases h
    exact .inl ⟨rfl, release_allocated _ _⟩

/-- A successful update function ran the operation on the cache, restored from the object read
when its version differs from `last`, recorded that version, and writes the cache's bytes. -/
theorem updateFn_ok {rnd res : ℕ} {op : Op} {e : Etcd} {ex obj : RangeAllocation}
    (h : (updateFn rnd op e ex).2 = .ok (res, obj)) :
    (updateFn rnd op e ex).1.last = ex.resourceVersion ∧
      obj.data = bytes (updateFn rnd op e ex).1.alloc.allocated ∧
      ∃ base : AllocationBitmap,
        ((ex.resourceVersion ≠ e.last ∧ base.allocated = setBytes ex.data) ∨
          (ex.resourceVersion = e.last ∧ base = e.alloc)) ∧
        runFn rnd op base = .ok (res, (updateFn rnd op e ex).1.alloc) := by
  by_cases hnone : ex.resourceVersion = none
  · simp [updateFn, hnone] at h
  by_cases hsync : ex.resourceVersion = e.last
  · have hsync' := hsync.symm
    cases hrun : runFn rnd op e.alloc with
    | error err => simp [updateFn, hnone, hsync', hrun] at h
    | ok p =>
      obtain ⟨res', alloc'⟩ := p
      simp only [updateFn, hnone, hsync', hrun, ne_eq, not_true_eq_false, if_false,
        Except.ok.injEq, Prod.mk.injEq] at h ⊢
      obtain ⟨rfl, rfl⟩ := h
      exact ⟨trivial, rfl, e.alloc, .inr ⟨trivial, rfl⟩, hrun⟩
  · cases hr : e.alloc.restore ex.range ex.data with
    | error msg => simp [updateFn, hnone, hsync, hr, Except.mapError] at h
    | ok base =>
      cases hrun : runFn rnd op base with
      | error err => simp [updateFn, hnone, hsync, hr, Except.mapError, hrun] at h
      | ok p =>
        obtain ⟨res', alloc'⟩ := p
        simp only [updateFn, hnone, hsync, hr, hrun, Except.mapError, ne_eq, not_false_eq_true,
          if_true, if_false, Except.ok.injEq, Prod.mk.injEq] at h ⊢
        obtain ⟨rfl, rfl⟩ := h
        exact ⟨trivial, rfl, base, .inl ⟨trivial, restore_ok hr⟩, hrun⟩

/-- A failing update function leaves `last` alone, and changes the cache only by restoring it
when the version read differs from `last`. -/
theorem updateFn_error {rnd : ℕ} {op : Op} {e : Etcd} {ex : RangeAllocation} {err : UpdateError}
    (h : (updateFn rnd op e ex).2 = .error err) :
    (updateFn rnd op e ex).1.last = e.last ∧
      ((updateFn rnd op e ex).1.alloc = e.alloc ∨ ex.resourceVersion ≠ e.last) := by
  by_cases hnone : ex.resourceVersion = none
  · simp [updateFn, hnone]
  by_cases hsync : ex.resourceVersion = e.last
  · have hsync' := hsync.symm
    cases hrun : runFn rnd op e.alloc with
    | error err => simp [updateFn, hnone, hsync', hrun]
    | ok p => simp [updateFn, hnone, hsync', hrun] at h
  · refine ⟨?_, .inr hsync⟩
    cases hr : e.alloc.restore ex.range ex.data with
    | error msg => simp [updateFn, hnone, hsync, hr, Except.mapError]
    | ok base =>
      cases hrun : runFn rnd op base with
      | error err => simp [updateFn, hnone, hsync, hr, Except.mapError, hrun]
      | ok p => simp [updateFn, hnone, hsync, hr, Except.mapError, hrun] at h

/-! ## Live offsets -/

@[simp] theorem isLive_nil (counts : Bool → Bool) (o : ℕ) : isLive counts o [] = false := rfl

theorem isLive_allocated {counts : Bool → Bool} {o o' : ℕ} {hist : List Event} :
    isLive counts o (.allocated o' :: hist) = true ↔ o' = o ∨ isLive counts o hist = true := by
  simp [isLive]

theorem isLive_released_any {o item : ℕ} {ok : Bool} {hist : List Event} :
    isLive anyRelease o (.released item ok :: hist) = true ↔
      item ≠ o ∧ isLive anyRelease o hist = true := by
  simp [isLive, anyRelease]

/-- Every offset live in `hist'` is live in `hist`. -/
def LiveSub (hist' hist : List Event) : Prop :=
  ∀ o, isLive anyRelease o hist' = true → isLive anyRelease o hist = true

theorem liveSub_failed (op : Op) (hist : List Event) : LiveSub (op.failed ++ hist) hist := by
  intro o ho
  cases op with
  | release item => exact (isLive_released_any.mp ho).2
  | _ => exact ho

theorem noDoubleAllocation_failed {op : Op} {hist : List Event}
    (h : NoDoubleAllocation anyRelease hist) : NoDoubleAllocation anyRelease (op.failed ++ hist) := by
  cases op <;> exact h

/-- The bitmap the stored object holds. -/
def RangeAllocation.bitmap (a : RangeAllocation) : ℕ := setBytes a.data

/-- What a write in flight keeps, should it commit on the version it read: the bitmap `bm` it
writes holds every live offset except the one it releases, and an allocated offset `res` that is
not live yet. -/
def PendingOk (hist : List Event) (op : Op) (res bm : ℕ) : Prop :=
  (∀ o, isLive anyRelease o hist = true → bm.testBit o = true ∨ op = .release o) ∧
    (op.allocates = true → isLive anyRelease res hist = false ∧ bm.testBit res = true)

theorem PendingOk.mono {hist hist' : List Event} {op : Op} {res bm : ℕ}
    (h : PendingOk hist op res bm) (hsub : LiveSub hist' hist) : PendingOk hist' op res bm := by
  refine ⟨fun o ho => h.1 o (hsub o ho), fun hop => ⟨?_, (h.2 hop).2⟩⟩
  cases hres : isLive anyRelease res hist'
  · rfl
  · simpa [(h.2 hop).1] using hsub res hres

/-! ## The invariant -/

/-- The invariant of the shared allocation, counting every `Release` call as a release. -/
structure Inv (s : System ι) : Prop where
  /-- No offset has been handed out twice while live. -/
  noDouble : NoDoubleAllocation anyRelease s.history
  /-- The stored bitmap holds every live offset. -/
  stored_live : ∀ o, isLive anyRelease o s.history = true → s.stored.bitmap.testBit o = true
  /-- No apiserver has synchronised with a version newer than the stored one. -/
  last_le : ∀ i v, (s.inst i).last = some v → ∃ w, s.stored.resourceVersion = some w ∧ v ≤ w
  /-- An apiserver not writing whose `last` is the stored version caches every live offset. -/
  cache_live : ∀ i, (∀ op res v obj, s.phase i ≠ .writing op res v obj) →
    (s.inst i).last = s.stored.resourceVersion →
    ∀ o, isLive anyRelease o s.history = true → (s.inst i).alloc.allocated.testBit o = true
  /-- A writing apiserver synchronised with the version it read and writes its cache. -/
  writing : ∀ i op res v obj, s.phase i = .writing op res v obj →
    (s.inst i).last = some v ∧ obj.data = bytes (s.inst i).alloc.allocated ∧
      (s.stored.resourceVersion = some v → PendingOk s.history op res (s.inst i).alloc.allocated)

omit [DecidableEq ι] in
theorem inv_init {s : System ι} (h : Init s) : Inv s := by
  obtain ⟨hinst, hhist⟩ := h
  refine ⟨by simp [hhist, NoDoubleAllocation], by simp [hhist], ?_, by simp [hhist], ?_⟩
  · intro i v hv
    simp [(hinst i).1] at hv
  · intro i op res v obj hph
    simp [(hinst i).2] at hph

variable {s : System ι} {i : ι}

theorem Inv.call (hs : Inv s) (op : Op) (hph : s.phase i = .idle) :
    Inv { s with phase := Function.update s.phase i (.updating op) } := by
  refine ⟨hs.noDouble, hs.stored_live, hs.last_le, fun j hj hlast o ho => ?_, ?_⟩
  · by_cases hji : j = i
    · subst hji
      exact hs.cache_live j (by simp [hph]) hlast o ho
    · exact hs.cache_live j (by simpa [hji] using hj) hlast o ho
  · intro j op' res v obj hj
    by_cases hji : j = i
    · subst hji; simp at hj
    · exact hs.writing j op' res v obj (by simpa [hji] using hj)

theorem Inv.updateError (hs : Inv s) {op : Op} {rnd : ℕ} {err : UpdateError}
    (hph : s.phase i = .updating op) (herr : (updateFn rnd op (s.inst i) s.stored).2 = .error err) :
    Inv { s with inst := Function.update s.inst i (updateFn rnd op (s.inst i) s.stored).1,
                 phase := Function.update s.phase i .idle,
                 history := op.failed ++ s.history } := by
  obtain ⟨hlast, halloc⟩ := updateFn_error herr
  have hsub := liveSub_failed op s.history
  refine ⟨noDoubleAllocation_failed hs.noDouble, fun o ho => hs.stored_live o (hsub o ho), ?_, ?_, ?_⟩
  · intro j v hv
    by_cases hji : j = i
    · subst hji
      exact hs.last_le j v (by simpa [hlast] using hv)
    · exact hs.last_le j v (by simpa [hji] using hv)
  · intro j hnw hj o ho
    by_cases hji : j = i
    · subst hji
      simp only [Function.update_self] at hj ⊢
      rw [hlast] at hj
      have hsame : (updateFn rnd op (s.inst j) s.stored).1.alloc = (s.inst j).alloc :=
        halloc.resolve_right (fun hne => hne hj.symm)
      rw [hsame]
      exact hs.cache_live j (by simp [hph]) hj o (hsub o ho)
    · simp only [Function.update_of_ne hji] at hj ⊢
      exact hs.cache_live j (by simpa [hji] using hnw) hj o (hsub o ho)
  · intro j op' res v obj hj
    by_cases hji : j = i
    · subst hji; simp at hj
    · simp only [Function.update_of_ne hji] at hj ⊢
      obtain ⟨h1, h2, h3⟩ := hs.writing j op' res v obj hj
      exact ⟨h1, h2, fun hv => (h3 hv).mono hsub⟩

/-- The operation of a successful update function, run on a cache holding every live offset,
leaves a write that keeps `PendingOk`. -/
theorem pendingOk_of_runFn {hist : List Event} {rnd res : ℕ} {op : Op}
    {base a' : AllocationBitmap} (hrun : runFn rnd op base = .ok (res, a'))
    (hbase : ∀ o, isLive anyRelease o hist = true → base.allocated.testBit o = true) :
    PendingOk hist op res a'.allocated := by
  rcases runFn_ok hrun with ⟨rfl, hrel⟩ | ⟨hop, hfree, hset⟩
  · refine ⟨fun o ho => ?_, fun hop => by simp [Op.allocates] at hop⟩
    by_cases hor : res = o
    · exact .inr (hor ▸ rfl)
    · exact .inl (by simpa [hrel, hor] using hbase o ho)
  · refine ⟨fun o ho => .inl ?_, fun _ => ⟨?_, by simp [hset]⟩⟩
    · by_cases hor : res = o
      · simp [hset, hor]
      · simpa [hset, hor] using hbase o ho
    · cases hres : isLive anyRelease res hist
      · rfl
      · simp [hbase res hres] at hfree

theorem Inv.update (hs : Inv s) {op : Op} {rnd res v : ℕ} {obj : RangeAllocation}
    (hph : s.phase i = .updating op) (hv : s.stored.resourceVersion = some v)
    (hok : (updateFn rnd op (s.inst i) s.stored).2 = .ok (res, obj)) :
    Inv { s with inst := Function.update s.inst i (updateFn rnd op (s.inst i) s.stored).1,
                 phase := Function.update s.phase i (.writing op res v obj) } := by
  obtain ⟨hlast, hdata, base, hbase, hrun⟩ := updateFn_ok hok
  have hbase_live : ∀ o, isLive anyRelease o s.history = true → base.allocated.testBit o = true := by
    intro o ho
    rcases hbase with ⟨-, hrestored⟩ | ⟨hsync, rfl⟩
    · rw [hrestored]
      exact hs.stored_live o ho
    · exact hs.cache_live i (by simp [hph]) hsync.symm o ho
  refine ⟨hs.noDouble, hs.stored_live, ?_, ?_, ?_⟩
  · intro j w hw
    by_cases hji : j = i
    · subst hji
      simp only [Function.update_self, hlast, hv, Option.some.injEq] at hw
      exact ⟨v, hv, hw.ge⟩
    · exact hs.last_le j w (by simpa [hji] using hw)
  · intro j hnw hj o ho
    by_cases hji : j = i
    · subst hji
      exact absurd (by simp) (hnw op res v obj)
    · simp only [Function.update_of_ne hji] at hj ⊢
      exact hs.cache_live j (by simpa [hji] using hnw) hj o ho
  · intro j op' res' v' obj' hj
    by_cases hji : j = i
    · subst hji
      simp only [Function.update_self, Phase.writing.injEq] at hj ⊢
      obtain ⟨rfl, rfl, rfl, rfl⟩ := hj
      exact ⟨hlast.trans hv, hdata, fun _ => pendingOk_of_runFn hrun hbase_live⟩
    · simp only [Function.update_of_ne hji] at hj ⊢
      exact hs.writing j op' res' v' obj' hj

theorem Inv.commit (hs : Inv s) {op : Op} {res v : ℕ} {obj : RangeAllocation}
    (hph : s.phase i = .writing op res v obj) (hv : s.stored.resourceVersion = some v) :
    Inv { s with stored := { obj with resourceVersion := some (v + 1) },
                 phase := Function.update s.phase i .idle,
                 history := op.committed res :: s.history } := by
  obtain ⟨-, hdata, hpend⟩ := hs.writing i op res v obj hph
  obtain ⟨hkeep, hnew⟩ := hpend hv
  have hold : ∀ j u, (s.inst j).last = some u → u ≤ v := fun j u hu => by
    obtain ⟨w, hw, hle⟩ := hs.last_le j u hu
    rw [hv, Option.some.injEq] at hw
    exact hw ▸ hle
  have hbitmap : RangeAllocation.bitmap { obj with resourceVersion := some (v + 1) } =
      (s.inst i).alloc.allocated := by
    simp [RangeAllocation.bitmap, hdata]
  refine ⟨?_, ?_, ?_, ?_, ?_⟩
  · cases op with
    | release item => exact hs.noDouble
    | _ => exact ⟨(hnew rfl).1, hs.noDouble⟩
  · intro o ho
    rw [hbitmap]
    cases op with
    | release item =>
      obtain ⟨hne, ho'⟩ := isLive_released_any.mp ho
      exact (hkeep o ho').resolve_right (fun h => hne (Op.release.inj h))
    | allocate offset =>
      rcases isLive_allocated.mp ho with rfl | ho'
      · exact (hnew rfl).2
      · exact (hkeep o ho').resolve_right (by simp)
    | allocateNext =>
      rcases isLive_allocated.mp ho with rfl | ho'
      · exact (hnew rfl).2
      · exact (hkeep o ho').resolve_right (by simp)
  · intro j u hu
    exact ⟨v + 1, rfl, Nat.le_succ_of_le (hold j u hu)⟩
  · intro j _ hj
    cases hu : (s.inst j).last with
    | none => simp [hu] at hj
    | some u =>
      have := hold j u hu
      simp [hu] at hj
      omega
  · intro j op' res' v' obj' hj
    by_cases hji : j = i
    · subst hji; simp at hj
    · simp only [Function.update_of_ne hji] at hj
      obtain ⟨h1, h2, -⟩ := hs.writing j op' res' v' obj' hj
      refine ⟨h1, h2, fun hv' => ?_⟩
      have := hold j v' h1
      simp at hv'
      omega

theorem Inv.conflict (hs : Inv s) {op : Op} {res v : ℕ} {obj : RangeAllocation}
    (hph : s.phase i = .writing op res v obj) (hne : s.stored.resourceVersion ≠ some v) :
    Inv { s with phase := Function.update s.phase i (.updating op) } := by
  refine ⟨hs.noDouble, hs.stored_live, hs.last_le, fun j hnw hj o ho => ?_, ?_⟩
  · by_cases hji : j = i
    · subst hji
      exact absurd (hj.symm.trans (hs.writing j op res v obj hph).1) hne
    · exact hs.cache_live j (by simpa [hji] using hnw) hj o ho
  · intro j op' res' v' obj' hj
    by_cases hji : j = i
    · subst hji; simp at hj
    · exact hs.writing j op' res' v' obj' (by simpa [hji] using hj)

theorem Inv.writeError (hs : Inv s) {op : Op} {res v : ℕ} {obj : RangeAllocation}
    (hph : s.phase i = .writing op res v obj) :
    Inv { s with phase := Function.update s.phase i .idle,
                 history := op.failed ++ s.history } := by
  have hsub := liveSub_failed op s.history
  refine ⟨noDoubleAllocation_failed hs.noDouble, fun o ho => hs.stored_live o (hsub o ho),
    hs.last_le, fun j hnw hj o ho => ?_, ?_⟩
  · by_cases hji : j = i
    · subst hji
      obtain ⟨hlast, -, hpend⟩ := hs.writing j op res v obj hph
      -- the write failed, so the cache keeps the operation's effect, release included
      rcases (hpend (hj.symm.trans hlast)).1 o (hsub o ho) with h | rfl
      · exact h
      · simp [Op.failed, isLive, anyRelease] at ho
    · exact hs.cache_live j (by simpa [hji] using hnw) hj o (hsub o ho)
  · intro j op' res' v' obj' hj
    by_cases hji : j = i
    · subst hji; simp at hj
    · simp only [Function.update_of_ne hji] at hj
      obtain ⟨h1, h2, h3⟩ := hs.writing j op' res' v' obj' hj
      exact ⟨h1, h2, fun hv => (h3 hv).mono hsub⟩

theorem Inv.step (hs : Inv s) {s' : System ι} (h : Step i s s') : Inv s' := by
  cases h with
  | call op hph => exact hs.call op hph
  | updateError rnd err hph herr => exact hs.updateError hph herr
  | update rnd hph hv hok => exact hs.update hph hv hok
  | commit hph hv => exact hs.commit hph hv
  | conflict hph hne => exact hs.conflict hph hne
  | writeError hph => exact hs.writeError hph

theorem inv_invariant : Reach.Invariant (Init (ι := ι)) Step Inv :=
  ⟨fun _ h => inv_init h, fun _ _ _ hs h => hs.step h⟩

/-- **No double allocation, counting every `Release` call.** For any number of apiservers and
any interleaving of their `Allocate`, `AllocateNext` and `Release` calls, with writes that
commit, conflict and retry, or fail: an offset is reported allocated to a second caller only
after a `Release` of it returned, with or without an error, and every offset reported allocated
and not passed to a `Release` since is set in the stored bitmap. -/
theorem etcd_reachable_noDoubleAllocation {s : System ι} (h : Reachable s) :
    NoDoubleAllocation anyRelease s.history ∧
      ∀ o, isLive anyRelease o s.history = true → (setBytes s.stored.data).testBit o = true :=
  let hs := inv_invariant.holds h
  ⟨hs.noDouble, hs.stored_live⟩

/-! ## A failed release followed by an allocation -/

/-- One apiserver over an empty stored range of size one: it allocates `0`; its `Release` of `0`
clears the cache and then fails at the write; its next `AllocateNext` reads the version it last
synchronised with, so it does not restore, finds `0` free in its cache and commits it. -/
theorem doubleAllocationRun :
    ∃ s : System Unit, Reachable s ∧
      s.history = [.allocated 0, .released 0 false, .allocated 0] ∧ s.stored.data = [1] := by
  have r0 : Reachable (ι := Unit)
      { stored := ⟨some 1, "", []⟩,
        inst := fun _ => ⟨AllocationBitmap.new .contiguousScan 1 "", none⟩,
        phase := fun _ => .idle, history := [] } := .init ⟨fun _ => ⟨rfl, rfl⟩, rfl⟩
  have r1 := Reach.Reachable.step () r0 (Step.call (.allocate 0) rfl)
  have r2 := Reach.Reachable.step () r1 (Step.update 0 rfl rfl
    (by decide : (updateFn 0 (.allocate 0) ⟨AllocationBitmap.new .contiguousScan 1 "", none⟩
      ⟨some 1, "", []⟩).2 = .ok (0, ⟨some 1, "", [1]⟩)))
  have r3 := Reach.Reachable.step () r2 (Step.commit rfl rfl)
  have r4 := Reach.Reachable.step () r3 (Step.call (.release 0) rfl)
  have r5 := Reach.Reachable.step () r4 (Step.update 0 rfl rfl
    (by decide : (updateFn 0 (.release 0) (updateFn 0 (.allocate 0)
      ⟨AllocationBitmap.new .contiguousScan 1 "", none⟩ ⟨some 1, "", []⟩).1
      ⟨some 2, "", [1]⟩).2 = .ok (0, ⟨some 2, "", []⟩)))
  have r6 := Reach.Reachable.step () r5 (Step.writeError rfl)
  have r7 := Reach.Reachable.step () r6 (Step.call .allocateNext rfl)
  have r8 := Reach.Reachable.step () r7 (Step.update 0 rfl rfl
    (by decide : (updateFn 0 .allocateNext (updateFn 0 (.release 0) (updateFn 0 (.allocate 0)
      ⟨AllocationBitmap.new .contiguousScan 1 "", none⟩ ⟨some 1, "", []⟩).1
      ⟨some 2, "", [1]⟩).1 ⟨some 2, "", [1]⟩).2 = .ok (0, ⟨some 2, "", [1]⟩)))
  have r9 := Reach.Reachable.step () r8 (Step.commit rfl rfl)
  exact ⟨_, r9, rfl, rfl⟩

/-- Counting only successful releases, an offset can be handed out twice: after the run above,
`0` was reported allocated twice with only a failed `Release` of it in between. -/
theorem etcd_reachable_doubleAllocation :
    ¬ ∀ s : System Unit, Reachable s →
      NoDoubleAllocation successfulRelease s.history ∧
        ∀ o, isLive successfulRelease o s.history = true →
          (setBytes s.stored.data).testBit o = true := by
  intro hall
  obtain ⟨s, hs, hhist, -⟩ := doubleAllocationRun
  have hno := (hall s hs).1
  rw [hhist] at hno
  simp [NoDoubleAllocation, isLive, successfulRelease] at hno

/-- On the run above, counting the failed `Release` as a release, nothing was handed out twice
and the stored bitmap holds the live offset. -/
theorem etcd_doubleAllocationRun_noDoubleAllocation :
    NoDoubleAllocation anyRelease [.allocated 0, .released 0 false, .allocated 0] ∧
      ∀ o, isLive anyRelease o [.allocated 0, .released 0 false, .allocated 0] = true →
        (setBytes [1]).testBit o = true := by
  obtain ⟨s, hs, hhist, hdata⟩ := doubleAllocationRun
  have h := etcd_reachable_noDoubleAllocation hs
  rw [hhist, hdata] at h
  exact h

end Kubernetes.Allocator.Storage
