import P2pInspection.Bytes

/-!
# The DPDK objects the server code works on

Packet buffers and rings, as their documentation describes them: a buffer is
memory with a data length and the room behind it; a ring is a bounded FIFO
whose bulk enqueue is all or nothing and whose burst dequeue takes as many as
there are. The bound is a field of the ring, so an overfull ring cannot be
built.
-/

namespace P2pInspection

/-- A single-segment `rte_mbuf`: the buffer memory from the start of the data,
the length of the data and the room left behind it. -/
structure RteMbuf where
  bytes : Nat → BitVec 8
  dataLen : Nat
  tailroom : Nat

/-- `rte_pktmbuf_append`: the offset of the appended bytes, or `none` (NULL)
when the tailroom is too small. -/
def rtePktmbufAppend (m : RteMbuf) (len : Nat) : Option Nat × RteMbuf :=
  if len ≤ m.tailroom then
    (some m.dataLen, { m with dataLen := m.dataLen + len, tailroom := m.tailroom - len })
  else (none, m)

theorem rtePktmbufAppend_bytes (m : RteMbuf) (len : Nat) :
    (rtePktmbufAppend m len).2.bytes = m.bytes := by
  unfold rtePktmbufAppend
  split <;> rfl

/-! ## Rings -/

structure RteRing (α : Type) where
  capacity : Nat
  entries : List α
  fits : entries.length ≤ capacity

namespace RteRing

variable {α : Type}

/-- `rte_ring_create`: without `RING_F_EXACT_SZ` one slot of `count` is never used. -/
def rteRingCreate (count : Nat) : RteRing α := ⟨count - 1, [], Nat.zero_le _⟩

def HasRoom (r : RteRing α) (n : Nat) : Prop := r.entries.length + n ≤ r.capacity

instance (r : RteRing α) (n : Nat) : Decidable (r.HasRoom n) :=
  inferInstanceAs (Decidable (_ ≤ _))

def push (r : RteRing α) (objs : List α) (h : r.HasRoom objs.length) : RteRing α :=
  ⟨r.capacity, r.entries ++ objs, by rw [List.length_append]; exact h⟩

def pop (r : RteRing α) (n : Nat) : RteRing α :=
  ⟨r.capacity, r.entries.drop n, Nat.le_trans (by simp) r.fits⟩

/-- `rte_ring_enqueue_bulk`: all the objects and their number, or none and 0. -/
def rteRingEnqueueBulk (r : RteRing α) (objs : List α) : Nat × RteRing α :=
  if h : r.HasRoom objs.length then (objs.length, r.push objs h) else (0, r)

/-- `rte_ring_enqueue`: 0 when the object was stored, `-ENOBUFS` otherwise. -/
def rteRingEnqueue (r : RteRing α) (obj : α) : Int × RteRing α :=
  if h : r.HasRoom 1 then (0, r.push [obj] h) else (-105, r)

/-- `rte_ring_dequeue_burst`: up to `n` objects, oldest first. -/
def rteRingDequeueBurst (r : RteRing α) (n : Nat) : List α × RteRing α :=
  (r.entries.take n, r.pop n)

@[simp] theorem push_entries (r : RteRing α) (objs : List α) (h : r.HasRoom objs.length) :
    (r.push objs h).entries = r.entries ++ objs := rfl

@[simp] theorem pop_entries (r : RteRing α) (n : Nat) :
    (r.pop n).entries = r.entries.drop n := rfl

end RteRing

end P2pInspection
