import GoMqtt.Lib.Lists
import Mathlib.Data.List.Nodup

namespace GoMqtt.Future

open GoMqtt.Lists

inductive FutureState
  | pending
  | completed
  | canceled
  | panicked
  deriving DecidableEq, Repr

namespace FutureState

def complete : FutureState → FutureState
  | pending => completed
  | completed => panicked
  | canceled => canceled
  | panicked => panicked

def cancel : FutureState → FutureState
  | pending => canceled
  | completed => completed
  | canceled => panicked
  | panicked => panicked

end FutureState

def new (fs : List FutureState) : Nat × List FutureState :=
  (fs.length, fs ++ [.pending])

def complete (fs : List FutureState) (f : Nat) : List FutureState :=
  fs.modify f FutureState.complete

def cancel (fs : List FutureState) (f : Nat) : List FutureState :=
  fs.modify f FutureState.cancel

structure Store where
  isProtected : Bool
  store : List (UInt16 × Nat)
  deriving DecidableEq, Repr

def newStore : Store := ⟨false, []⟩

namespace Store

def put (s : Store) (id : UInt16) (future : Nat) : Store :=
  { s with store := insertKey id future s.store }

def get (s : Store) (id : UInt16) : Option Nat :=
  s.store.lookup id

def delete (s : Store) (id : UInt16) : Store :=
  { s with store := eraseKey id s.store }

def all (s : Store) : List Nat :=
  s.store.map Prod.snd

def protect (s : Store) (value : Bool) : Store :=
  { s with isProtected := value }

/-- `Clear` cancels the stored futures and empties the store, unless it is protected. -/
def clear (s : Store) (fs : List FutureState) : Store × List FutureState :=
  if s.isProtected then (s, fs) else ({ s with store := [] }, s.all.foldl cancel fs)

end Store

section Heap

variable {fs : List FutureState} {f g : Nat}

@[simp]
theorem length_new (fs : List FutureState) : (new fs).2.length = fs.length + 1 := by
  simp [new]

@[simp]
theorem getElem?_new_self (fs : List FutureState) : (new fs).2[(new fs).1]? = some .pending := by
  simp [new]

theorem getElem?_new_of_lt (h : g < fs.length) : (new fs).2[g]? = fs[g]? := by
  simp [new, List.getElem?_append_left h]

@[simp]
theorem length_complete : (complete fs f).length = fs.length := List.length_modify ..

@[simp]
theorem length_cancel : (cancel fs f).length = fs.length := List.length_modify ..

theorem getElem?_complete : (complete fs f)[g]? =
    if f = g then fs[g]?.map FutureState.complete else fs[g]? := by
  by_cases h : f = g <;> simp [complete, h]

theorem getElem?_cancel : (cancel fs f)[g]? =
    if f = g then fs[g]?.map FutureState.cancel else fs[g]? := by
  by_cases h : f = g <;> simp [cancel, h]

theorem getElem?_cancel_of_ne (h : f ≠ g) : (cancel fs f)[g]? = fs[g]? := by
  simp [getElem?_cancel, h]

theorem getElem?_complete_of_pending (h : fs[f]? = some .pending) :
    (complete fs f)[f]? = some .completed := by
  simp [getElem?_complete, h, FutureState.complete]

theorem getElem?_cancel_of_pending (h : fs[f]? = some .pending) :
    (cancel fs f)[f]? = some .canceled := by
  simp [getElem?_cancel, h, FutureState.cancel]

theorem getElem?_foldl_cancel {l : List Nat} (hl : l.Nodup)
    (hp : ∀ f ∈ l, fs[f]? = some .pending) (g : Nat) :
    (l.foldl cancel fs)[g]? = if g ∈ l then some .canceled else fs[g]? := by
  induction l generalizing fs with
  | nil => simp
  | cons f l ih =>
    obtain ⟨hfl, hl⟩ := List.nodup_cons.mp hl
    have hp' : ∀ f' ∈ l, (cancel fs f)[f']? = some .pending := by
      intro f' hf'
      have hne : f ≠ f' := fun h => hfl (h ▸ hf')
      rw [getElem?_cancel_of_ne hne]
      exact hp f' (List.mem_cons_of_mem f hf')
    rw [List.foldl_cons, ih hl hp']
    by_cases hg : g ∈ l
    · simp [hg]
    · by_cases hfg : f = g
      · subst hfg
        simp [getElem?_cancel_of_pending (hp f List.mem_cons_self)]
      · simp [hg, getElem?_cancel_of_ne hfg, Ne.symm hfg]

end Heap

namespace Store

variable (s : Store)

@[simp]
theorem get_put_self (id : UInt16) (future : Nat) : (s.put id future).get id = some future := by
  simp [put, get]

theorem get_put_of_ne {id id' : UInt16} (future : Nat) (h : id' ≠ id) :
    (s.put id future).get id' = s.get id' := by
  simp [put, get, lookup_insertKey_of_ne h]

@[simp]
theorem get_delete_self (id : UInt16) : (s.delete id).get id = none := by
  simp [delete, get]

theorem get_delete_of_ne {id id' : UInt16} (h : id' ≠ id) :
    (s.delete id).get id' = s.get id' := by
  simp [delete, get, lookup_eraseKey_of_ne h]

@[simp]
theorem isProtected_put (id : UInt16) (future : Nat) :
    (s.put id future).isProtected = s.isProtected := rfl

@[simp]
theorem isProtected_delete (id : UInt16) : (s.delete id).isProtected = s.isProtected := rfl

theorem clear_of_isProtected (fs : List FutureState) (h : s.isProtected = true) :
    s.clear fs = (s, fs) := by
  simp [clear, h]

theorem clear_of_not_isProtected (fs : List FutureState) (h : s.isProtected = false) :
    s.clear fs = ({ s with store := [] }, s.all.foldl cancel fs) := by
  simp [clear, h]

end Store

section Sound

variable {fs : List FutureState} {f g : Nat}

theorem lt_length_of_getElem? {x : FutureState} (h : fs[f]? = some x) : f < fs.length :=
  (List.getElem?_eq_some_iff.mp h).1

theorem getElem?_new (h : fs[f]? = some x) : (new fs).2[f]? = some x := by
  rw [getElem?_new_of_lt (lt_length_of_getElem? h), h]

theorem new_fst_ne (h : fs[f]? = some x) : (new fs).1 ≠ f :=
  Nat.ne_of_gt (lt_length_of_getElem? h)

theorem getElem?_new_ne_panicked (h : ∀ g : Nat, fs[g]? ≠ some FutureState.panicked) (g : Nat) :
    (new fs).2[g]? ≠ some .panicked := by
  rcases Nat.lt_trichotomy g fs.length with hg | rfl | hg
  · rw [getElem?_new_of_lt hg]
    exact h g
  · simp [new]
  · rw [show (new fs).2[g]? = none by simp [new]; omega]
    simp

theorem getElem?_modify_ne_panicked (h : ∀ g : Nat, fs[g]? ≠ some FutureState.panicked) {op : FutureState → FutureState}
    (hf : fs[f]? = some .pending) (hop : op .pending ≠ .panicked) (g : Nat) :
    (fs.modify f op)[g]? ≠ some .panicked := by
  by_cases hg : f = g
  · subst hg
    simp [hf, hop]
  · simpa [hg] using h g

theorem getElem?_modify_of_ne {op : FutureState → FutureState} (hne : f ≠ g) :
    (fs.modify f op)[g]? = fs[g]? := by
  simp [hne]

namespace Store

variable {s : Store}

/-- A store whose futures are pending, each stored under one id, with distinct keys, in a
heap where no future has panicked. -/
structure Sound (s : Store) (fs : List FutureState) : Prop where
  noPanic : ∀ g : Nat, fs[g]? ≠ some FutureState.panicked
  keys : (s.store.map Prod.fst).Nodup
  pending : ∀ i f, s.get i = some f → fs[f]? = some .pending
  once : ∀ i j f, s.get i = some f → s.get j = some f → i = j

/-- A pending future that no id of the store holds. -/
def Free (s : Store) (fs : List FutureState) (f : Nat) : Prop :=
  fs[f]? = some .pending ∧ ∀ i, s.get i ≠ some f

theorem mem_all {f : Nat} (hk : (s.store.map Prod.fst).Nodup) : f ∈ s.all ↔ ∃ i, s.get i = some f := by
  constructor
  · intro hf
    obtain ⟨⟨i, f'⟩, hmem, rfl⟩ := List.mem_map.mp hf
    exact ⟨i, lookup_eq_some_of_mem hk hmem⟩
  · rintro ⟨i, hi⟩
    exact List.mem_map.mpr ⟨(i, f), mem_of_lookup_eq_some hi, rfl⟩

theorem Sound.nodup_all (h : s.Sound fs) : s.all.Nodup := by
  refine (List.Nodup.of_map Prod.fst h.keys).map_on ?_
  rintro ⟨i, f⟩ hi ⟨j, f'⟩ hj (rfl : f = f')
  have := h.once i j f (lookup_eq_some_of_mem h.keys hi) (lookup_eq_some_of_mem h.keys hj)
  rw [this]

theorem Sound.protect (h : s.Sound fs) (value : Bool) : (s.protect value).Sound fs :=
  ⟨h.noPanic, h.keys, h.pending, h.once⟩

theorem Sound.heap_new (h : s.Sound fs) : s.Sound (Future.new fs).2 :=
  ⟨getElem?_new_ne_panicked h.noPanic, h.keys, fun i f hi => getElem?_new (h.pending i f hi), h.once⟩

theorem Sound.free_new (h : s.Sound fs) : Free s (Future.new fs).2 (Future.new fs).1 :=
  ⟨getElem?_new_self fs, fun i hi => absurd (lt_length_of_getElem? (h.pending i _ hi)) (by simp [new])⟩

theorem Sound.put_new (h : s.Sound fs) (id : UInt16) : (s.put id (Future.new fs).1).Sound (Future.new fs).2 := by
  obtain ⟨hpend, hfree⟩ := h.free_new
  refine ⟨getElem?_new_ne_panicked h.noPanic, keys_insertKey_nodup _ _ h.keys, ?_, ?_⟩
  · intro i f hi
    by_cases hid : i = id
    · subst hid
      rw [get_put_self, Option.some.injEq] at hi
      rw [← hi, hpend]
    · rw [get_put_of_ne _ _ hid] at hi
      exact getElem?_new (h.pending i f hi)
  · intro i j f hi hj
    by_cases hid : i = id <;> by_cases hjd : j = id
    · rw [hid, hjd]
    · rw [hid, get_put_self, Option.some.injEq] at hi
      rw [get_put_of_ne _ _ hjd, ← hi] at hj
      exact absurd hj (hfree j)
    · rw [hjd, get_put_self, Option.some.injEq] at hj
      rw [get_put_of_ne _ _ hid, ← hj] at hi
      exact absurd hi (hfree i)
    · rw [get_put_of_ne _ _ hid] at hi
      rw [get_put_of_ne _ _ hjd] at hj
      exact h.once i j f hi hj

theorem Sound.delete (h : s.Sound fs) (id : UInt16) : (s.delete id).Sound fs := by
  refine ⟨h.noPanic, (h.keys).sublist (keys_eraseKey_sublist _ _), ?_, ?_⟩
  · intro i f hi
    by_cases hid : i = id
    · rw [hid, get_delete_self] at hi
      cases hi
    · rw [get_delete_of_ne _ hid] at hi
      exact h.pending i f hi
  · intro i j f hi hj
    by_cases hid : i = id
    · rw [hid, get_delete_self] at hi
      cases hi
    by_cases hjd : j = id
    · rw [hjd, get_delete_self] at hj
      cases hj
    rw [get_delete_of_ne _ hid] at hi
    rw [get_delete_of_ne _ hjd] at hj
    exact h.once i j f hi hj

theorem Sound.modify (h : s.Sound fs) (hf : Free s fs f) {op : FutureState → FutureState}
    (hop : op .pending ≠ .panicked) : s.Sound (fs.modify f op) := by
  refine ⟨getElem?_modify_ne_panicked h.noPanic hf.1 hop, h.keys, ?_, h.once⟩
  intro i g hi
  have hne : f ≠ g := by
    rintro rfl
    exact hf.2 i hi
  rw [getElem?_modify_of_ne hne]
  exact h.pending i g hi

theorem Sound.free_delete (h : s.Sound fs) {id : UInt16} (hget : s.get id = some f) :
    Free (s.delete id) fs f := by
  refine ⟨h.pending id f hget, fun i hi => ?_⟩
  by_cases hid : i = id
  · rw [hid, get_delete_self] at hi
    cases hi
  · rw [get_delete_of_ne _ hid] at hi
    exact hid (h.once i id f hi hget)

theorem Sound.pending_all (h : s.Sound fs) : ∀ f ∈ s.all, fs[f]? = some .pending := by
  intro f hf
  obtain ⟨i, hi⟩ := (mem_all h.keys).mp hf
  exact h.pending i f hi

theorem Sound.clear (h : s.Sound fs) : (s.clear fs).1.Sound (s.clear fs).2 := by
  cases hp : s.isProtected
  · rw [clear_of_not_isProtected _ _ hp]
    refine ⟨fun g => ?_, by simp, by simp [get], by simp [get]⟩
    rw [getElem?_foldl_cancel h.nodup_all h.pending_all]
    split_ifs
    · simp
    · exact h.noPanic g
  · rw [clear_of_isProtected _ _ hp]
    exact h

theorem Sound.getElem?_clear (h : s.Sound fs) (hf : ∀ i, s.get i ≠ some f) :
    (s.clear fs).2[f]? = fs[f]? := by
  cases hp : s.isProtected
  · rw [clear_of_not_isProtected _ _ hp]
    have hnot : f ∉ s.all := fun hmem => by
      obtain ⟨i, hi⟩ := (mem_all h.keys).mp hmem
      exact hf i hi
    rw [getElem?_foldl_cancel h.nodup_all h.pending_all, if_neg hnot]
  · rw [clear_of_isProtected _ _ hp]

theorem Free.clear (h : s.Sound fs) (hf : Free s fs f) : Free (s.clear fs).1 (s.clear fs).2 f := by
  refine ⟨by rw [h.getElem?_clear hf.2, hf.1], fun i => ?_⟩
  cases hp : s.isProtected
  · rw [clear_of_not_isProtected _ _ hp]
    simp [get]
  · rw [clear_of_isProtected _ _ hp]
    exact hf.2 i

theorem Free.heap_new (hf : Free s fs f) : Free s (Future.new fs).2 f :=
  ⟨getElem?_new hf.1, hf.2⟩

theorem Free.put_new (hf : Free s fs f) (id : UInt16) : Free (s.put id (Future.new fs).1) (Future.new fs).2 f := by
  refine ⟨getElem?_new hf.1, fun i hi => ?_⟩
  by_cases hid : i = id
  · rw [hid, get_put_self, Option.some.injEq] at hi
    exact new_fst_ne hf.1 hi
  · rw [get_put_of_ne _ _ hid] at hi
    exact hf.2 i hi

theorem Free.delete (hf : Free s fs f) (id : UInt16) : Free (s.delete id) fs f := by
  refine ⟨hf.1, fun i hi => ?_⟩
  by_cases hid : i = id
  · rw [hid, get_delete_self] at hi
    cases hi
  · rw [get_delete_of_ne _ hid] at hi
    exact hf.2 i hi

theorem Free.modify (hf : Free s fs f) (hne : g ≠ f) (op : FutureState → FutureState) :
    Free s (fs.modify g op) f :=
  ⟨by rw [getElem?_modify_of_ne hne, hf.1], hf.2⟩

/-- A future that completing does not panic: free, or canceled already. -/
def Completable (s : Store) (fs : List FutureState) (f : Nat) : Prop :=
  Free s fs f ∨ fs[f]? = some .canceled

theorem Free.cancel (hf : Free s fs f) : Completable s (Future.cancel fs f) f :=
  .inr (getElem?_cancel_of_pending hf.1)

theorem complete_of_canceled (hf : fs[f]? = some .canceled) : complete fs f = fs := by
  refine List.ext_getElem? fun g => ?_
  rw [getElem?_complete]
  split_ifs with hg
  · rw [← hg, hf]
    rfl
  · rfl

theorem Completable.not_get (h : s.Sound fs) (hf : Completable s fs f) (i : UInt16) :
    s.get i ≠ some f := by
  rcases hf with hf | hf
  · exact hf.2 i
  · intro hi
    have := h.pending i f hi
    rw [hf] at this
    cases this

theorem Sound.complete (h : s.Sound fs) (hf : Completable s fs f) : s.Sound (complete fs f) := by
  rcases hf with hf | hf
  · exact h.modify hf (by decide)
  · rw [complete_of_canceled hf]
    exact h

theorem Completable.modify (hf : Completable s fs f) (hne : g ≠ f) (op : FutureState → FutureState) :
    Completable s (fs.modify g op) f := by
  rcases hf with hf | hf
  · exact .inl (hf.modify hne op)
  · exact .inr (by rw [getElem?_modify_of_ne hne, hf])

theorem Completable.delete (hf : Completable s fs f) (id : UInt16) : Completable (s.delete id) fs f :=
  hf.imp_left (Free.delete · id)

theorem Completable.new_fst_ne (hf : Completable s fs f) : (Future.new fs).1 ≠ f :=
  hf.elim (fun h => Future.new_fst_ne h.1) Future.new_fst_ne

theorem Completable.heap_new (hf : Completable s fs f) : Completable s (Future.new fs).2 f :=
  hf.imp Free.heap_new getElem?_new

theorem Completable.put_new (hf : Completable s fs f) (id : UInt16) :
    Completable (s.put id (Future.new fs).1) (Future.new fs).2 f :=
  hf.imp (Free.put_new · id) getElem?_new

theorem Completable.clear (h : s.Sound fs) (hf : Completable s fs f) :
    Completable (s.clear fs).1 (s.clear fs).2 f := by
  rcases hf with hf' | hf'
  · exact .inl (hf'.clear h)
  · exact .inr (by rw [h.getElem?_clear (Completable.not_get h (.inr hf')), hf'])

end Store

end Sound

end GoMqtt.Future
