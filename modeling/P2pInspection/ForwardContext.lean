import Mathlib.Algebra.Order.Group.Multiset
import P2pInspection.Timestamps

/-!
# The server's shared state

What the threads of the software forwarder share: the rings, the mempools, the
buffers the NIC transmits from, and the stop flags; and what each of them is
doing. `Sys` also keeps a history of the calls made on shared objects (`log`)
and, for every buffer, which reception its contents come from (`tag`); no
thread reads either of the two.
-/

namespace P2pInspection

open Bytes

def burstSize : Nat := 32

/-- `struct ForwardingContext`: the cards it points to, and its `stats_ring` by number. -/
structure ForwardingContext (Onic : Type) where
  rxOnic : Onic
  txOnic : Onic
  rxPort : Nat
  txPort : Nat
  rxQs : List Int
  txQs : List Int
  nbRxQs : Nat
  nbTxQs : Nat
  statsRing : Nat

/-- The queue a round-robin counter selects, as the 16-bit id DPDK takes. -/
def selectQueue (qs : List Int) (nbQs : Nat) (currQ : BitVec 16) : BitVec 16 :=
  BitVec.ofInt 16 (qs.getD (currQ.toNat % nbQs) (-1))

/-- The rings of the process: one `mbuf_ring` a card, and the `stats_ring`s. -/
inductive RingId (Onic : Type) where
  | mbufRing (onic : Onic)
  | statsRing (id : Nat)
deriving DecidableEq

inductive Thread (Ctx : Type) where
  | rx (c : Ctx)
  | tx (c : Ctx)
  | final (c : Ctx)
  | stats (c : Ctx)
deriving DecidableEq

/-- What is fixed while the threads run: the contexts, `get_ports()[i].get_port_id()`
of each card, the port whose mempool a buffer belongs to, the host and the build. -/
structure Setup (Ctx Onic Mbuf : Type) where
  ctx : Ctx → ForwardingContext Onic
  portId : Onic → Nat → Nat
  home : Mbuf → Nat
  endian : Endian
  ndebug : Bool

namespace Setup

variable {Ctx Onic Mbuf : Type} (K : Setup Ctx Onic Mbuf) (c : Ctx)

def rxPortId : Nat := K.portId (K.ctx c).rxOnic (K.ctx c).rxPort
def txPortId : Nat := K.portId (K.ctx c).txOnic (K.ctx c).txPort

def mbufRing : RingId Onic := .mbufRing (K.ctx c).rxOnic

def statsRing : RingId Onic := .statsRing (K.ctx c).statsRing

@[simp] theorem statsRing_ne_mbufRing : K.statsRing c ≠ K.mbufRing c := nofun
@[simp] theorem mbufRing_ne_statsRing : K.mbufRing c ≠ K.statsRing c := nofun

end Setup

/-! ## Where a thread stands -/

/-- `fpga_rx_thread`: at its loop head, where it reads `stop_flag`; before
`rte_eth_rx_burst`, having read it clear; before `rte_ring_enqueue_bulk` with a
non-empty burst; or in the loop behind it that frees what is left of the burst. -/
inductive RxPc (Mbuf : Type) where
  | head
  | poll
  | enqueue (first : Mbuf) (rest : List Mbuf)
  | overflow (rest : List Mbuf)
  | stopped

/-- `fpga_tx_thread`: at its loop head, before `rte_ring_dequeue_burst`, before
`rte_eth_tx_burst`, or freeing what was not transmitted. -/
inductive TxPc (Mbuf : Type) where
  | head
  | poll
  | send (mbufs : List Mbuf)
  | free (rest : List Mbuf)
  | stopped

/-- `fpga_rx_final_thread`: at its loop head, before `rte_eth_rx_burst`, before the
VLAN test of the next buffer, or behind its enqueue, which returned `ret`. -/
inductive FinalPc (Mbuf : Type) where
  | head
  | poll
  | scan (rest : List Mbuf)
  | release (ret : Int) (m : Mbuf) (rest : List Mbuf)
  | stopped

/-- `run_stats_producer`: at its loop head, before the `rte_ring_dequeue_burst` of
`extract_then_produce_latency_packets`, or with these buffers of that burst read
and these not yet. -/
inductive StatsPc (Mbuf : Type) where
  | head
  | poll
  | reading (done rest : List Mbuf)
  | stopped

structure RxThread (Mbuf : Type) where
  pc : RxPc Mbuf
  currQ : BitVec 16

structure TxThread (Mbuf : Type) where
  pc : TxPc Mbuf
  currQ : BitVec 16

structure FinalThread (Mbuf : Type) where
  pc : FinalPc Mbuf
  currQ : BitVec 16

/-! ## The state -/

/-- A call on a shared object. A burst handed to the NIC carries, for every
buffer, the reception its contents come from. -/
inductive Event (Ctx Onic Mbuf : Type) where
  | polled (t : Thread Ctx) (port : Nat) (queue : BitVec 16) (mbufs : List Mbuf)
  | enqueued (t : Thread Ctx) (ring : RingId Onic) (mbufs : List Mbuf)
  | dequeued (t : Thread Ctx) (ring : RingId Onic) (mbufs : List Mbuf)
  | freed (t : Thread Ctx) (m : Mbuf)
  | sent (c : Ctx) (port : Nat) (queue : BitVec 16) (packets : List (Mbuf × Option (Ctx × Nat)))
  | read (c : Ctx) (m : Mbuf)
deriving DecidableEq

structure Sys (Ctx Onic Mbuf : Type) where
  rings : RingId Onic → RteRing Mbuf
  mempool : Multiset Mbuf
  nicTx : Multiset Mbuf
  buf : Mbuf → RteMbuf
  stopFlag : Ctx → Bool
  rx : Ctx → RxThread Mbuf
  tx : Ctx → TxThread Mbuf
  final : Ctx → FinalThread Mbuf
  stats : Ctx → StatsPc Mbuf
  aborted : Bool
  tag : Mbuf → Option (Ctx × Nat)
  nbReceived : Nat
  log : List (Event Ctx Onic Mbuf)

namespace Sys

variable {Ctx Onic Mbuf : Type} [DecidableEq Ctx] [DecidableEq Onic] [DecidableEq Mbuf]

@[simp] def setRx (s : Sys Ctx Onic Mbuf) (c : Ctx) (t : RxThread Mbuf) : Sys Ctx Onic Mbuf :=
  { s with rx := Function.update s.rx c t }

@[simp] def setTx (s : Sys Ctx Onic Mbuf) (c : Ctx) (t : TxThread Mbuf) : Sys Ctx Onic Mbuf :=
  { s with tx := Function.update s.tx c t }

@[simp] def setFinal (s : Sys Ctx Onic Mbuf) (c : Ctx) (t : FinalThread Mbuf) :
    Sys Ctx Onic Mbuf :=
  { s with final := Function.update s.final c t }

@[simp] def setStats (s : Sys Ctx Onic Mbuf) (c : Ctx) (pc : StatsPc Mbuf) : Sys Ctx Onic Mbuf :=
  { s with stats := Function.update s.stats c pc }

@[simp] def setRing (s : Sys Ctx Onic Mbuf) (r : RingId Onic) (ring : RteRing Mbuf) :
    Sys Ctx Onic Mbuf :=
  { s with rings := Function.update s.rings r ring }

@[simp] def logged (s : Sys Ctx Onic Mbuf) (e : Event Ctx Onic Mbuf) : Sys Ctx Onic Mbuf :=
  { s with log := s.log ++ [e] }

/-- `rte_pktmbuf_free`: the buffer goes to its pool, wherever else it may be. -/
@[simp] def free (s : Sys Ctx Onic Mbuf) (t : Thread Ctx) (m : Mbuf) : Sys Ctx Onic Mbuf :=
  { s with mempool := m ::ₘ s.mempool, log := s.log ++ [.freed t m] }

/-- `rte_eth_rx_burst` on `port` may return these buffers with these contents:
no more than asked for, all from the mempool of the port. -/
def CanReceive (K : Setup Ctx Onic Mbuf) (s : Sys Ctx Onic Mbuf) (port : Nat)
    (burst : List (Mbuf × RteMbuf)) : Prop :=
  burst.length ≤ burstSize ∧ (burst.map Prod.fst : Multiset Mbuf) ≤ s.mempool
    ∧ ∀ x ∈ burst, K.home x.1 = port

instance (K : Setup Ctx Onic Mbuf) (s : Sys Ctx Onic Mbuf) (port : Nat)
    (burst : List (Mbuf × RteMbuf)) : Decidable (CanReceive K s port burst) :=
  inferInstanceAs (Decidable (_ ∧ _ ∧ _))

def tagReception (c : Ctx) (tag : Mbuf → Option (Ctx × Nat)) (x : (Mbuf × RteMbuf) × Nat) :
    Mbuf → Option (Ctx × Nat) :=
  Function.update tag x.1.1 (some (c, x.2))

/-- The state after `rte_eth_rx_burst` returned this burst to a thread of context `c`. -/
def received (s : Sys Ctx Onic Mbuf) (t : Thread Ctx) (c : Ctx) (port : Nat)
    (queue : BitVec 16) (burst : List (Mbuf × RteMbuf)) : Sys Ctx Onic Mbuf :=
  { s with
    mempool := s.mempool - (burst.map Prod.fst : Multiset Mbuf)
    buf := burst.foldl (fun buf x => Function.update buf x.1 x.2) s.buf
    tag := (burst.zipIdx s.nbReceived).foldl (tagReception c) s.tag
    nbReceived := s.nbReceived + burst.length
    log := s.log ++ [.polled t port queue (burst.map Prod.fst)] }

def handedToNic (s : Sys Ctx Onic Mbuf) (c : Ctx) (port : Nat) (queue : BitVec 16)
    (mbufs : List Mbuf) : Sys Ctx Onic Mbuf :=
  { s with
    nicTx := s.nicTx + (mbufs : Multiset Mbuf)
    log := s.log ++ [.sent c port queue (mbufs.map fun m => (m, s.tag m))] }

end Sys

end P2pInspection
