import GoMqtt.Packet.Generic
import GoMqtt.Lib.Lists
import GoMqtt.Lib.Machine

namespace GoMqtt.ClientSession

open GoMqtt.Packet GoMqtt.Lists

structure IDCounter where
  current : UInt16
  deriving DecidableEq, Repr

def newIDCounter : IDCounter := ⟨1⟩

namespace IDCounter

/-- `NextID`: the current id is handed out and the counter moves on, skipping zero when it
wraps. -/
def nextID (c : IDCounter) : UInt16 × IDCounter :=
  let id := c.current
  let current := c.current + 1
  let current := if current = 0 then current + 1 else current
  (id, ⟨current⟩)

def reset (_ : IDCounter) : IDCounter := ⟨1⟩

end IDCounter

structure PacketStore where
  packets : List (UInt16 × GenericPacket)
  deriving DecidableEq, Repr

def newPacketStore : PacketStore := ⟨[]⟩

namespace PacketStore

/-- `Save`: a packet with an id replaces the one stored under it; others are not stored. -/
def save (s : PacketStore) (pkt : GenericPacket) : PacketStore :=
  match pkt.getID with
  | some id => ⟨insertKey id pkt s.packets⟩
  | none => s

def lookup (s : PacketStore) (id : UInt16) : Option GenericPacket :=
  s.packets.lookup id

def delete (s : PacketStore) (id : UInt16) : PacketStore :=
  ⟨eraseKey id s.packets⟩

def all (s : PacketStore) : List GenericPacket :=
  s.packets.map Prod.snd

def reset (_ : PacketStore) : PacketStore := newPacketStore

end PacketStore

inductive Direction
  | incoming
  | outgoing
  deriving DecidableEq, Repr

structure MemorySession where
  counter : IDCounter
  incStore : PacketStore
  outStore : PacketStore
  deriving DecidableEq, Repr

def newMemorySession : MemorySession := ⟨newIDCounter, newPacketStore, newPacketStore⟩

namespace MemorySession

def nextID (s : MemorySession) : UInt16 × MemorySession :=
  let (id, counter) := s.counter.nextID
  (id, { s with counter := counter })

def storeForDirection (s : MemorySession) : Direction → PacketStore
  | .incoming => s.incStore
  | .outgoing => s.outStore

def withStore (s : MemorySession) : Direction → PacketStore → MemorySession
  | .incoming, store => { s with incStore := store }
  | .outgoing, store => { s with outStore := store }

def savePacket (s : MemorySession) (dir : Direction) (pkt : GenericPacket) : MemorySession :=
  s.withStore dir ((s.storeForDirection dir).save pkt)

def lookupPacket (s : MemorySession) (dir : Direction) (id : UInt16) : Option GenericPacket :=
  (s.storeForDirection dir).lookup id

def deletePacket (s : MemorySession) (dir : Direction) (id : UInt16) : MemorySession :=
  s.withStore dir ((s.storeForDirection dir).delete id)

def allPackets (s : MemorySession) (dir : Direction) : List GenericPacket :=
  (s.storeForDirection dir).all

/-- `Reset`; the subscriptions and the will of a `MemorySession` are not used by the client. -/
def reset (s : MemorySession) : MemorySession :=
  ⟨s.counter.reset, s.incStore.reset, s.outStore.reset⟩

end MemorySession

section Lemmas

namespace PacketStore

theorem lookup_save_self (s : PacketStore) {pkt : GenericPacket} {id : UInt16}
    (h : pkt.getID = some id) : (s.save pkt).lookup id = some pkt := by
  simp [save, lookup, h]

theorem lookup_save_of_ne (s : PacketStore) {pkt : GenericPacket} {id id' : UInt16}
    (h : pkt.getID = some id) (hne : id' ≠ id) : (s.save pkt).lookup id' = s.lookup id' := by
  simp [save, lookup, h, lookup_insertKey_of_ne hne]

@[simp]
theorem lookup_delete_self (s : PacketStore) (id : UInt16) : (s.delete id).lookup id = none := by
  simp [delete, lookup]

theorem lookup_delete_of_ne (s : PacketStore) {id id' : UInt16} (hne : id' ≠ id) :
    (s.delete id).lookup id' = s.lookup id' := by
  simp [delete, lookup, lookup_eraseKey_of_ne hne]

theorem lookup_save (s : PacketStore) {pkt : GenericPacket} {id : UInt16}
    (h : pkt.getID = some id) (id' : UInt16) :
    (s.save pkt).lookup id' = if id' = id then some pkt else s.lookup id' := by
  by_cases hid : id' = id
  · subst hid
    simp [lookup_save_self s h]
  · simp [lookup_save_of_ne s h hid, hid]

theorem lookup_delete (s : PacketStore) (id id' : UInt16) :
    (s.delete id).lookup id' = if id' = id then none else s.lookup id' := by
  by_cases hid : id' = id
  · subst hid
    simp
  · simp [lookup_delete_of_ne s hid, hid]

@[simp]
theorem lookup_reset (s : PacketStore) (id : UInt16) : s.reset.lookup id = none := rfl

/-- The ids of the stored packets, which `Save` and `Delete` keep distinct as a Go map's keys
are. -/
def ids (s : PacketStore) : List UInt16 :=
  s.packets.map Prod.fst

theorem nodup_ids_save {s : PacketStore} (h : s.ids.Nodup) (pkt : GenericPacket) :
    (s.save pkt).ids.Nodup := by
  unfold save
  split
  · exact keys_insertKey_nodup _ _ h
  · exact h

theorem nodup_ids_delete {s : PacketStore} (h : s.ids.Nodup) (id : UInt16) : (s.delete id).ids.Nodup :=
  h.sublist (keys_eraseKey_sublist _ _)

end PacketStore

namespace MemorySession

variable (s : MemorySession)

@[simp]
theorem storeForDirection_withStore_self (dir : Direction) (store : PacketStore) :
    (s.withStore dir store).storeForDirection dir = store := by
  cases dir <;> rfl

@[simp]
theorem incStore_savePacket_incoming (pkt : GenericPacket) :
    (s.savePacket .incoming pkt).incStore = s.incStore.save pkt := rfl

@[simp]
theorem outStore_savePacket_outgoing (pkt : GenericPacket) :
    (s.savePacket .outgoing pkt).outStore = s.outStore.save pkt := rfl

@[simp]
theorem incStore_deletePacket_incoming (id : UInt16) :
    (s.deletePacket .incoming id).incStore = s.incStore.delete id := rfl

@[simp]
theorem outStore_deletePacket_outgoing (id : UInt16) :
    (s.deletePacket .outgoing id).outStore = s.outStore.delete id := rfl

@[simp]
theorem lookupPacket_incoming (id : UInt16) :
    s.lookupPacket .incoming id = s.incStore.lookup id := rfl

@[simp]
theorem lookupPacket_outgoing (id : UInt16) :
    s.lookupPacket .outgoing id = s.outStore.lookup id := rfl

@[simp]
theorem incStore_savePacket_outgoing (pkt : GenericPacket) :
    (s.savePacket .outgoing pkt).incStore = s.incStore := rfl

@[simp]
theorem outStore_savePacket_incoming (pkt : GenericPacket) :
    (s.savePacket .incoming pkt).outStore = s.outStore := rfl

@[simp]
theorem incStore_deletePacket_outgoing (id : UInt16) :
    (s.deletePacket .outgoing id).incStore = s.incStore := rfl

@[simp]
theorem outStore_deletePacket_incoming (id : UInt16) :
    (s.deletePacket .incoming id).outStore = s.outStore := rfl

@[simp]
theorem counter_savePacket (dir : Direction) (pkt : GenericPacket) :
    (s.savePacket dir pkt).counter = s.counter := by
  cases dir <;> rfl

@[simp]
theorem counter_deletePacket (dir : Direction) (id : UInt16) :
    (s.deletePacket dir id).counter = s.counter := by
  cases dir <;> rfl

@[simp]
theorem incStore_nextID : (s.nextID).2.incStore = s.incStore := rfl

@[simp]
theorem outStore_nextID : (s.nextID).2.outStore = s.outStore := rfl

end MemorySession

end Lemmas

namespace IDCounter

open GoMqtt.Machine

inductive Call
  | nextID
  | reset

def call (c : IDCounter) : Call → IDCounter
  | .nextID => c.nextID.2
  | .reset => c.reset

def nextIDs (c : IDCounter) : Nat → List UInt16
  | 0 => []
  | k + 1 => c.nextID.1 :: nextIDs c.nextID.2 k

theorem nextID_fst (c : IDCounter) : c.nextID.1 = c.current := rfl

theorem toNat_current_nextID (c : IDCounter) :
    c.nextID.2.current.toNat = c.current.toNat % 65535 + 1 := by
  have hlt := c.current.toNat_lt
  simp only [nextID]
  split
  · next h =>
    -- the increment wrapped: `current` was 65535
    have h65535 : c.current.toNat = 65535 := by
      have := congrArg UInt16.toNat h
      simp [UInt16.toNat_add] at this
      omega
    simp [h, h65535]
  · next h =>
    have hno : c.current.toNat + 1 < 65536 := by
      by_contra hc
      apply h
      apply UInt16.toNat_inj.mp
      simp [UInt16.toNat_add]
      omega
    simp [UInt16.toNat_add]
    omega

theorem current_nextID_ne_zero (c : IDCounter) : c.nextID.2.current ≠ 0 := by
  intro h
  have := toNat_current_nextID c
  simp [h] at this

theorem current_call_ne_zero (c : IDCounter) (x : Call) : (c.call x).current ≠ 0 := by
  cases x with
  | nextID => exact current_nextID_ne_zero c
  | reset =>
    show (1 : UInt16) ≠ 0
    decide

theorem toNat_nextIDs {c : IDCounter} (h : c.current ≠ 0) (n : Nat) :
    (c.nextIDs n).map UInt16.toNat =
      (List.range n).map fun k => (c.current.toNat - 1 + k) % 65535 + 1 := by
  have hpos : 0 < c.current.toNat := by
    rw [Nat.pos_iff_ne_zero]
    exact fun h0 => h (UInt16.toNat_inj.mp h0)
  have hlt := c.current.toNat_lt
  induction n generalizing c with
  | zero => rfl
  | succ n ih =>
    rw [nextIDs, List.range_succ_eq_map, List.map_cons, List.map_cons, List.map_map,
      ih (current_nextID_ne_zero c) (by rw [toNat_current_nextID]; omega)
        c.nextID.2.current.toNat_lt, toNat_current_nextID, nextID_fst]
    congr 1
    · omega
    · apply List.map_congr_left
      intro k _
      simp only [Function.comp_apply]
      omega

theorem current_run_ne_zero (calls : List Call) : (run call newIDCounter calls).current ≠ 0 := by
  have hstep : ∀ (c : IDCounter) x, c.current ≠ 0 → (call c x).current ≠ 0 :=
    fun c x _ => current_call_ne_zero c x
  exact run_invariant hstep calls (by decide)

theorem nextID_cycles :
    (∀ n, (newIDCounter.nextIDs n).map UInt16.toNat = (List.range n).map fun k => k % 65535 + 1) ∧
      (∀ (c : IDCounter) (n : Nat), c.reset.nextIDs n = newIDCounter.nextIDs n) ∧
      ∀ calls : List Call, (run call newIDCounter calls).nextID.1 ≠ 0 ∧
        ((run call newIDCounter calls).nextIDs 65535).Nodup := by
  have h1 : newIDCounter.current.toNat = 1 := rfl
  refine ⟨fun n => by simpa [h1] using toNat_nextIDs (c := newIDCounter) (by decide) n,
    fun c n => rfl, fun calls => ⟨current_run_ne_zero calls, ?_⟩⟩
  have h := toNat_nextIDs (current_run_ne_zero calls) 65535
  apply List.Nodup.of_map UInt16.toNat
  rw [h]
  apply List.Nodup.map_on _ List.nodup_range
  intro i hi j hj hij
  simp only [List.mem_range] at hi hj
  omega

end IDCounter

end GoMqtt.ClientSession
