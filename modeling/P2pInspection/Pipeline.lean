import P2pInspection.ForwardContext
import P2pInspection.Transition

/-!
# The threads of the software forwarder

One step of a thread is one call on a shared object, or one reading of its stop
flag, with the local work up to the next one; `step` interleaves the launched
threads with the NIC and with `main` setting the stop flags. Of `fpga_rx_thread` note the test behind the
enqueue, of `fpga_rx_final_thread` the free behind its own, and of
`extract_then_produce_latency_packets` the ring it reads.

`RxStep`, `TxStep`, `FinalStep` and `StatsStep` list what a step can do; the
proofs about runs are case analyses of these (`step_cases`).
-/

namespace P2pInspection

open Bytes

namespace Pipeline

variable {Ctx Onic Mbuf : Type} [DecidableEq Ctx] [DecidableEq Onic] [DecidableEq Mbuf]

/-- `is_vlan_packet`: the Ethertype at byte 12, in host order. -/
def isVlanPacket (e : Endian) (b : Nat → BitVec 8) : Bool :=
  toBe16 e (load16 e b 12) == ClkSyncApp.rteEtherTypeVlan

/-- On either host the test reads the field in network order. -/
theorem isVlanPacket_iff (e : Endian) (b : Nat → BitVec 8) :
    isVlanPacket e b = true ↔ b 12 = 0x81#8 ∧ b 13 = 0x00#8 := by
  have hsplit : ClkSyncApp.rteEtherTypeVlan = 0x81#8 ++ 0x00#8 := rfl
  rw [isVlanPacket, toBe16_load16, hsplit, beq_iff_eq, be16, append_eq_append_iff]

/-! ## One step of each thread -/

section Threads

variable (K : Setup Ctx Onic Mbuf) (c : Ctx)

/-- `next_Q_idx` is computed, but the poll asks for queue 0. The condition on the
result of the bulk enqueue is `!= 0`. -/
def fpgaRxThread (burst : List (Mbuf × RteMbuf)) (s : Sys Ctx Onic Mbuf) :
    Option (Sys Ctx Onic Mbuf) :=
  let currQ := (s.rx c).currQ
  match (s.rx c).pc with
  | .stopped => none
  | .head =>
      if s.stopFlag c then some (s.setRx c ⟨.stopped, currQ⟩)
      else some (s.setRx c ⟨.poll, currQ⟩)
  | .poll =>
      if Sys.CanReceive K s (K.rxPortId c) burst then
        let s := s.received (.rx c) c (K.rxPortId c) 0#16 burst
        match burst with
        | [] => some (s.setRx c ⟨.head, currQ⟩)
        | x :: rest => some (s.setRx c ⟨.enqueue x.1 (rest.map Prod.fst), currQ + 1⟩)
      else none
  | .enqueue first rest =>
      let (n, ring) := (s.rings (K.mbufRing c)).rteRingEnqueueBulk (first :: rest)
      let s := (s.setRing (K.mbufRing c) ring).logged
        (.enqueued (.rx c) (K.mbufRing c) ((first :: rest).take n))
      if n != 0 then some (s.setRx c ⟨.overflow (first :: rest), currQ⟩)
      else some (s.setRx c ⟨.head, currQ⟩)
  | .overflow [] => some (s.setRx c ⟨.head, currQ⟩)
  | .overflow (m :: rest) => some ((s.free (.rx c) m).setRx c ⟨.overflow rest, currQ⟩)

/-- `nbTx` is the result of `rte_eth_tx_burst`. -/
def fpgaTxThread (nbTx : Nat) (s : Sys Ctx Onic Mbuf) : Option (Sys Ctx Onic Mbuf) :=
  let currQ := (s.tx c).currQ
  match (s.tx c).pc with
  | .stopped => none
  | .head =>
      if s.stopFlag c then some (s.setTx c ⟨.stopped, currQ⟩)
      else some (s.setTx c ⟨.poll, currQ⟩)
  | .poll =>
      let (mbufs, ring) := (s.rings (K.mbufRing c)).rteRingDequeueBurst burstSize
      let s := (s.setRing (K.mbufRing c) ring).logged (.dequeued (.tx c) (K.mbufRing c) mbufs)
      some (s.setTx c ⟨if mbufs.isEmpty then .head else .send mbufs, currQ⟩)
  | .send mbufs =>
      if nbTx ≤ mbufs.length then
        let queue := selectQueue (K.ctx c).txQs (K.ctx c).nbTxQs currQ
        some ((s.handedToNic c (K.txPortId c) queue (mbufs.take nbTx)).setTx c
          ⟨.free (mbufs.drop nbTx), currQ + 1⟩)
      else none
  | .free [] => some (s.setTx c ⟨.head, currQ⟩)
  | .free (m :: rest) => some ((s.free (.tx c) m).setTx c ⟨.free rest, currQ⟩)

/-- The free behind the enqueue does not depend on its result. -/
def fpgaRxFinalThread (burst : List (Mbuf × RteMbuf)) (s : Sys Ctx Onic Mbuf) :
    Option (Sys Ctx Onic Mbuf) :=
  let currQ := (s.final c).currQ
  match (s.final c).pc with
  | .stopped => none
  | .head =>
      if s.stopFlag c then some (s.setFinal c ⟨.stopped, currQ⟩)
      else some (s.setFinal c ⟨.poll, currQ⟩)
  | .poll =>
      if Sys.CanReceive K s (K.rxPortId c) burst then
        let queue := selectQueue (K.ctx c).rxQs (K.ctx c).nbRxQs currQ
        let s := s.received (.final c) c (K.rxPortId c) queue burst
        if burst.isEmpty then some (s.setFinal c ⟨.head, currQ⟩)
        else some (s.setFinal c ⟨.scan (burst.map Prod.fst), currQ + 1⟩)
      else none
  | .scan [] => some (s.setFinal c ⟨.head, currQ⟩)
  | .scan (m :: rest) =>
      if isVlanPacket K.endian (s.buf m).bytes then
        let (ret, ring) := (s.rings (K.statsRing c)).rteRingEnqueue m
        let s := (s.setRing (K.statsRing c) ring).logged
          (.enqueued (.final c) (K.statsRing c) (if ret = 0 then [m] else []))
        some (s.setFinal c ⟨.release ret m rest, currQ⟩)
      else some ((s.free (.final c) m).setFinal c ⟨.scan rest, currQ⟩)
  | .release _ m rest => some ((s.free (.final c) m).setFinal c ⟨.scan rest, currQ⟩)

/-- The calls of `extract_then_produce_latency_packets` from the loop of
`run_stats_producer`. The local `mbuf_ring` is set to `ctx->stats_ring`, and the
dequeue names `ctx->rx_onic->mbuf_ring`. `obj` is the memory a `Timestamps`
object is built in; a failed assertion ends the process. -/
def extractThenProduceLatencyPackets (obj : Timestamps) (s : Sys Ctx Onic Mbuf) :
    Option (Sys Ctx Onic Mbuf) :=
  match s.stats c with
  | .stopped => none
  | .head =>
      if s.stopFlag c then some (s.setStats c .stopped) else some (s.setStats c .poll)
  | .poll =>
      let (mbufs, ring) := (s.rings (K.mbufRing c)).rteRingDequeueBurst burstSize
      let s := (s.setRing (K.mbufRing c) ring).logged
        (.dequeued (.stats c) (K.mbufRing c) mbufs)
      some (s.setStats c (.reading [] mbufs))
  | .reading _ [] => some (s.setStats c .head)
  | .reading done (m :: rest) =>
      match Timestamps.construct K.endian K.ndebug obj (s.buf m) with
      | none => some { s with aborted := true }
      | some (_, m') =>
          some (({ s with buf := Function.update s.buf m m' }.logged (.read c m)).setStats c
            (.reading (done ++ [m]) rest))

end Threads

/-! ## The interleaving -/

inductive Action (Ctx Mbuf : Type) where
  | rx (c : Ctx) (burst : List (Mbuf × RteMbuf))
  | tx (c : Ctx) (nbTx : Nat)
  | final (c : Ctx) (burst : List (Mbuf × RteMbuf))
  | stats (c : Ctx) (obj : Timestamps)
  | transmitted (m : Mbuf)
  | stop (c : Ctx)

def Action.thread : Action Ctx Mbuf → Option (Thread Ctx)
  | .rx c _ => some (.rx c)
  | .tx c _ => some (.tx c)
  | .final c _ => some (.final c)
  | .stats c _ => some (.stats c)
  | .transmitted _ => none
  | .stop _ => none

def perform (K : Setup Ctx Onic Mbuf) (s : Sys Ctx Onic Mbuf) :
    Action Ctx Mbuf → Option (Sys Ctx Onic Mbuf)
  | .rx c burst => fpgaRxThread K c burst s
  | .tx c nbTx => fpgaTxThread K c nbTx s
  | .final c burst => fpgaRxFinalThread K c burst s
  | .stats c obj => extractThenProduceLatencyPackets K c obj s
  | .transmitted m =>
      if m ∈ s.nicTx then
        some { s with nicTx := s.nicTx.erase m, mempool := m ::ₘ s.mempool }
      else none
  | .stop c => some { s with stopFlag := Function.update s.stopFlag c true }

/-- A step of the process in which these threads were launched. -/
def step (K : Setup Ctx Onic Mbuf) (launched : Thread Ctx → Bool) (s : Sys Ctx Onic Mbuf)
    (a : Action Ctx Mbuf) : Option (Sys Ctx Onic Mbuf) :=
  if s.aborted || a.thread.any (fun t => !launched t) then none else perform K s a

/-! ## What a step can do -/

section Specs

variable (K : Setup Ctx Onic Mbuf) (c : Ctx)

inductive RxStep (burst : List (Mbuf × RteMbuf)) (s : Sys Ctx Onic Mbuf) :
    Sys Ctx Onic Mbuf → Prop
  | stop (hpc : (s.rx c).pc = .head) (hstop : s.stopFlag c = true) :
      RxStep burst s (s.setRx c ⟨.stopped, (s.rx c).currQ⟩)
  | enter (hpc : (s.rx c).pc = .head) (hrun : s.stopFlag c = false) :
      RxStep burst s (s.setRx c ⟨.poll, (s.rx c).currQ⟩)
  | idle (hpc : (s.rx c).pc = .poll) (hburst : burst = []) :
      RxStep burst s ((s.received (.rx c) c (K.rxPortId c) 0#16 []).setRx c
        ⟨.head, (s.rx c).currQ⟩)
  | receive {x : Mbuf × RteMbuf} {rest : List (Mbuf × RteMbuf)} (hpc : (s.rx c).pc = .poll)
      (hburst : burst = x :: rest) (hcan : Sys.CanReceive K s (K.rxPortId c) (x :: rest)) :
      RxStep burst s ((s.received (.rx c) c (K.rxPortId c) 0#16 (x :: rest)).setRx c
        ⟨.enqueue x.1 (rest.map Prod.fst), (s.rx c).currQ + 1⟩)
  | store {first : Mbuf} {rest : List Mbuf} (hpc : (s.rx c).pc = .enqueue first rest)
      (hroom : (s.rings (K.mbufRing c)).HasRoom (first :: rest).length) :
      RxStep burst s (((s.setRing (K.mbufRing c) ((s.rings (K.mbufRing c)).push _ hroom)).logged
        (.enqueued (.rx c) (K.mbufRing c) (first :: rest))).setRx c
          ⟨.overflow (first :: rest), (s.rx c).currQ⟩)
  | reject {first : Mbuf} {rest : List Mbuf} (hpc : (s.rx c).pc = .enqueue first rest)
      (hfull : ¬(s.rings (K.mbufRing c)).HasRoom (first :: rest).length) :
      RxStep burst s ((s.logged (.enqueued (.rx c) (K.mbufRing c) [])).setRx c
        ⟨.head, (s.rx c).currQ⟩)
  | done (hpc : (s.rx c).pc = .overflow []) :
      RxStep burst s (s.setRx c ⟨.head, (s.rx c).currQ⟩)
  | free {m : Mbuf} {rest : List Mbuf} (hpc : (s.rx c).pc = .overflow (m :: rest)) :
      RxStep burst s ((s.free (.rx c) m).setRx c ⟨.overflow rest, (s.rx c).currQ⟩)

inductive TxStep (s : Sys Ctx Onic Mbuf) : Sys Ctx Onic Mbuf → Prop
  | stop (hpc : (s.tx c).pc = .head) (hstop : s.stopFlag c = true) :
      TxStep s (s.setTx c ⟨.stopped, (s.tx c).currQ⟩)
  | enter (hpc : (s.tx c).pc = .head) (hrun : s.stopFlag c = false) :
      TxStep s (s.setTx c ⟨.poll, (s.tx c).currQ⟩)
  | take (hpc : (s.tx c).pc = .poll) {mbufs : List Mbuf}
      (hmbufs : mbufs = (s.rings (K.mbufRing c)).entries.take burstSize) :
      TxStep s (((s.setRing (K.mbufRing c) ((s.rings (K.mbufRing c)).pop burstSize)).logged
        (.dequeued (.tx c) (K.mbufRing c) mbufs)).setTx c
          ⟨if mbufs.isEmpty then .head else .send mbufs, (s.tx c).currQ⟩)
  | send {mbufs : List Mbuf} {nbTx : Nat} (hpc : (s.tx c).pc = .send mbufs)
      (hle : nbTx ≤ mbufs.length) :
      TxStep s ((s.handedToNic c (K.txPortId c)
        (selectQueue (K.ctx c).txQs (K.ctx c).nbTxQs (s.tx c).currQ) (mbufs.take nbTx)).setTx c
          ⟨.free (mbufs.drop nbTx), (s.tx c).currQ + 1⟩)
  | done (hpc : (s.tx c).pc = .free []) : TxStep s (s.setTx c ⟨.head, (s.tx c).currQ⟩)
  | free {m : Mbuf} {rest : List Mbuf} (hpc : (s.tx c).pc = .free (m :: rest)) :
      TxStep s ((s.free (.tx c) m).setTx c ⟨.free rest, (s.tx c).currQ⟩)

inductive FinalStep (burst : List (Mbuf × RteMbuf)) (s : Sys Ctx Onic Mbuf) :
    Sys Ctx Onic Mbuf → Prop
  | stop (hpc : (s.final c).pc = .head) (hstop : s.stopFlag c = true) :
      FinalStep burst s (s.setFinal c ⟨.stopped, (s.final c).currQ⟩)
  | enter (hpc : (s.final c).pc = .head) (hrun : s.stopFlag c = false) :
      FinalStep burst s (s.setFinal c ⟨.poll, (s.final c).currQ⟩)
  | idle (hpc : (s.final c).pc = .poll) (hburst : burst = []) :
      FinalStep burst s ((s.received (.final c) c (K.rxPortId c)
        (selectQueue (K.ctx c).rxQs (K.ctx c).nbRxQs (s.final c).currQ) []).setFinal c
          ⟨.head, (s.final c).currQ⟩)
  | receive (hpc : (s.final c).pc = .poll) (hne : burst ≠ [])
      (hcan : Sys.CanReceive K s (K.rxPortId c) burst) :
      FinalStep burst s ((s.received (.final c) c (K.rxPortId c)
        (selectQueue (K.ctx c).rxQs (K.ctx c).nbRxQs (s.final c).currQ) burst).setFinal c
          ⟨.scan (burst.map Prod.fst), (s.final c).currQ + 1⟩)
  | done (hpc : (s.final c).pc = .scan []) :
      FinalStep burst s (s.setFinal c ⟨.head, (s.final c).currQ⟩)
  | store {m : Mbuf} {rest : List Mbuf} (hpc : (s.final c).pc = .scan (m :: rest))
      (hvlan : isVlanPacket K.endian (s.buf m).bytes = true)
      (hroom : (s.rings (K.statsRing c)).HasRoom [m].length) :
      FinalStep burst s (((s.setRing (K.statsRing c)
        ((s.rings (K.statsRing c)).push [m] hroom)).logged
          (.enqueued (.final c) (K.statsRing c) [m])).setFinal c
            ⟨.release 0 m rest, (s.final c).currQ⟩)
  | reject {m : Mbuf} {rest : List Mbuf} (hpc : (s.final c).pc = .scan (m :: rest))
      (hvlan : isVlanPacket K.endian (s.buf m).bytes = true)
      (hfull : ¬(s.rings (K.statsRing c)).HasRoom [m].length) :
      FinalStep burst s ((s.logged (.enqueued (.final c) (K.statsRing c) [])).setFinal c
        ⟨.release (-105) m rest, (s.final c).currQ⟩)
  | discard {m : Mbuf} {rest : List Mbuf} (hpc : (s.final c).pc = .scan (m :: rest))
      (hplain : isVlanPacket K.endian (s.buf m).bytes = false) :
      FinalStep burst s ((s.free (.final c) m).setFinal c ⟨.scan rest, (s.final c).currQ⟩)
  | release {ret : Int} {m : Mbuf} {rest : List Mbuf}
      (hpc : (s.final c).pc = .release ret m rest) :
      FinalStep burst s ((s.free (.final c) m).setFinal c ⟨.scan rest, (s.final c).currQ⟩)

inductive StatsStep (s : Sys Ctx Onic Mbuf) : Sys Ctx Onic Mbuf → Prop
  | stop (hpc : s.stats c = .head) (hstop : s.stopFlag c = true) :
      StatsStep s (s.setStats c .stopped)
  | enter (hpc : s.stats c = .head) (hrun : s.stopFlag c = false) :
      StatsStep s (s.setStats c .poll)
  | call (hpc : s.stats c = .poll) :
      StatsStep s (((s.setRing (K.mbufRing c) ((s.rings (K.mbufRing c)).pop burstSize)).logged
        (.dequeued (.stats c) (K.mbufRing c)
          ((s.rings (K.mbufRing c)).entries.take burstSize))).setStats c
            (.reading [] ((s.rings (K.mbufRing c)).entries.take burstSize)))
  | done {read : List Mbuf} (hpc : s.stats c = .reading read []) :
      StatsStep s (s.setStats c .head)
  | abort {read rest : List Mbuf} {m : Mbuf} (hpc : s.stats c = .reading read (m :: rest)) :
      StatsStep s { s with aborted := true }
  | read {read rest : List Mbuf} {m : Mbuf} (hpc : s.stats c = .reading read (m :: rest))
      (m' : RteMbuf) :
      StatsStep s (({ s with buf := Function.update s.buf m m' }.logged (.read c m)).setStats c
        (.reading (read ++ [m]) rest))

variable {K c}

theorem fpgaRxThread_spec {burst : List (Mbuf × RteMbuf)} {s s' : Sys Ctx Onic Mbuf}
    (h : fpgaRxThread K c burst s = some s') : RxStep K c burst s s' := by
  unfold fpgaRxThread at h
  cases hpc : (s.rx c).pc with
  | stopped => simp [hpc] at h
  | head =>
      simp only [hpc] at h
      split at h
      · rename_i hstop
        obtain rfl := Option.some.inj h
        exact .stop hpc hstop
      · rename_i hrun
        obtain rfl := Option.some.inj h
        exact .enter hpc (Bool.not_eq_true _ ▸ hrun)
  | poll =>
      simp only [hpc] at h
      split at h
      · rename_i hcan
        cases burst with
        | nil =>
            obtain rfl := Option.some.inj h
            exact .idle hpc rfl
        | cons x rest =>
            obtain rfl := Option.some.inj h
            exact .receive hpc rfl hcan
      · cases h
  | enqueue first rest =>
      simp only [hpc] at h
      by_cases hroom : (s.rings (K.mbufRing c)).HasRoom (first :: rest).length
      · simp only [RteRing.rteRingEnqueueBulk, dif_pos hroom] at h
        obtain rfl := Option.some.inj h
        rw [List.take_length]
        exact .store hpc hroom
      · simp only [RteRing.rteRingEnqueueBulk, dif_neg hroom] at h
        obtain rfl := Option.some.inj h
        have hsame : s.setRing (K.mbufRing c) (s.rings (K.mbufRing c)) = s := by simp
        rw [hsame]
        exact .reject hpc hroom
  | overflow rest =>
      cases rest with
      | nil =>
          simp only [hpc] at h
          obtain rfl := Option.some.inj h
          exact .done hpc
      | cons m rest =>
          simp only [hpc] at h
          obtain rfl := Option.some.inj h
          exact .free hpc

omit [DecidableEq Mbuf] in
theorem fpgaTxThread_spec {nbTx : Nat} {s s' : Sys Ctx Onic Mbuf}
    (h : fpgaTxThread K c nbTx s = some s') : TxStep K c s s' := by
  unfold fpgaTxThread at h
  cases hpc : (s.tx c).pc with
  | stopped => simp [hpc] at h
  | head =>
      simp only [hpc] at h
      split at h
      · rename_i hstop
        obtain rfl := Option.some.inj h
        exact .stop hpc hstop
      · rename_i hrun
        obtain rfl := Option.some.inj h
        exact .enter hpc (Bool.not_eq_true _ ▸ hrun)
  | poll =>
      simp only [hpc, RteRing.rteRingDequeueBurst] at h
      obtain rfl := Option.some.inj h
      exact .take hpc rfl
  | send mbufs =>
      simp only [hpc] at h
      split at h
      · rename_i hle
        obtain rfl := Option.some.inj h
        exact .send hpc hle
      · cases h
  | free rest =>
      cases rest with
      | nil =>
          simp only [hpc] at h
          obtain rfl := Option.some.inj h
          exact .done hpc
      | cons m rest =>
          simp only [hpc] at h
          obtain rfl := Option.some.inj h
          exact .free hpc

theorem fpgaRxFinalThread_spec {burst : List (Mbuf × RteMbuf)} {s s' : Sys Ctx Onic Mbuf}
    (h : fpgaRxFinalThread K c burst s = some s') : FinalStep K c burst s s' := by
  unfold fpgaRxFinalThread at h
  cases hpc : (s.final c).pc with
  | stopped => simp [hpc] at h
  | head =>
      simp only [hpc] at h
      split at h
      · rename_i hstop
        obtain rfl := Option.some.inj h
        exact .stop hpc hstop
      · rename_i hrun
        obtain rfl := Option.some.inj h
        exact .enter hpc (Bool.not_eq_true _ ▸ hrun)
  | poll =>
      simp only [hpc] at h
      split at h
      · rename_i hcan
        split at h
        · rename_i hempty
          obtain rfl := List.isEmpty_iff.mp hempty
          obtain rfl := Option.some.inj h
          exact .idle hpc rfl
        · rename_i hne
          obtain rfl := Option.some.inj h
          exact .receive hpc (fun hnil => hne (List.isEmpty_iff.mpr hnil)) hcan
      · cases h
  | scan rest =>
      cases rest with
      | nil =>
          simp only [hpc] at h
          obtain rfl := Option.some.inj h
          exact .done hpc
      | cons m rest =>
          simp only [hpc] at h
          split at h
          · rename_i hvlan
            by_cases hroom : (s.rings (K.statsRing c)).HasRoom [m].length
            · simp only [RteRing.rteRingEnqueue, dif_pos (show RteRing.HasRoom _ 1 from hroom)] at h
              obtain rfl := Option.some.inj h
              exact .store hpc hvlan hroom
            · simp only [RteRing.rteRingEnqueue, dif_neg (show ¬RteRing.HasRoom _ 1 from hroom)] at h
              obtain rfl := Option.some.inj h
              have hsame : s.setRing (K.statsRing c) (s.rings (K.statsRing c)) = s := by simp
              rw [hsame]
              exact .reject hpc hvlan hroom
          · rename_i hplain
            obtain rfl := Option.some.inj h
            exact .discard hpc (Bool.not_eq_true _ ▸ hplain)
  | release ret m rest =>
      simp only [hpc] at h
      obtain rfl := Option.some.inj h
      exact .release hpc

theorem extractThenProduceLatencyPackets_spec {obj : Timestamps} {s s' : Sys Ctx Onic Mbuf}
    (h : extractThenProduceLatencyPackets K c obj s = some s') : StatsStep K c s s' := by
  unfold extractThenProduceLatencyPackets at h
  cases hpc : s.stats c with
  | stopped => simp [hpc] at h
  | head =>
      simp only [hpc] at h
      split at h
      · rename_i hstop
        obtain rfl := Option.some.inj h
        exact .stop hpc hstop
      · rename_i hrun
        obtain rfl := Option.some.inj h
        exact .enter hpc (Bool.not_eq_true _ ▸ hrun)
  | poll =>
      simp only [hpc] at h
      obtain rfl := Option.some.inj h
      exact .call hpc
  | reading read rest =>
      cases rest with
      | nil =>
          simp only [hpc] at h
          obtain rfl := Option.some.inj h
          exact .done hpc
      | cons m rest =>
          simp only [hpc] at h
          split at h
          · obtain rfl := Option.some.inj h
            exact .abort hpc
          · obtain rfl := Option.some.inj h
            exact .read hpc _

end Specs

inductive Stepped (K : Setup Ctx Onic Mbuf) (launched : Thread Ctx → Bool)
    (s : Sys Ctx Onic Mbuf) : Action Ctx Mbuf → Sys Ctx Onic Mbuf → Prop
  | rx {c : Ctx} {burst : List (Mbuf × RteMbuf)} {s' : Sys Ctx Onic Mbuf}
      (hl : launched (.rx c) = true) (h : RxStep K c burst s s') :
      Stepped K launched s (.rx c burst) s'
  | tx {c : Ctx} {nbTx : Nat} {s' : Sys Ctx Onic Mbuf} (hl : launched (.tx c) = true)
      (h : TxStep K c s s') : Stepped K launched s (.tx c nbTx) s'
  | final {c : Ctx} {burst : List (Mbuf × RteMbuf)} {s' : Sys Ctx Onic Mbuf}
      (hl : launched (.final c) = true) (h : FinalStep K c burst s s') :
      Stepped K launched s (.final c burst) s'
  | stats {c : Ctx} {obj : Timestamps} {s' : Sys Ctx Onic Mbuf}
      (hl : launched (.stats c) = true) (h : StatsStep K c s s') :
      Stepped K launched s (.stats c obj) s'
  | transmitted {m : Mbuf} (hm : m ∈ s.nicTx) :
      Stepped K launched s (.transmitted m)
        { s with nicTx := s.nicTx.erase m, mempool := m ::ₘ s.mempool }
  | stop {c : Ctx} :
      Stepped K launched s (.stop c) { s with stopFlag := Function.update s.stopFlag c true }

theorem step_cases {K : Setup Ctx Onic Mbuf} {launched : Thread Ctx → Bool}
    {s s' : Sys Ctx Onic Mbuf} {a : Action Ctx Mbuf} (h : step K launched s a = some s') :
    Stepped K launched s a s' := by
  unfold step at h
  split at h
  · cases h
  · rename_i hgo
    rw [Bool.or_eq_true, not_or] at hgo
    obtain ⟨-, hgo⟩ := hgo
    cases a with
    | rx c burst => exact .rx (by simpa [Action.thread] using hgo) (fpgaRxThread_spec h)
    | tx c nbTx => exact .tx (by simpa [Action.thread] using hgo) (fpgaTxThread_spec h)
    | final c burst => exact .final (by simpa [Action.thread] using hgo) (fpgaRxFinalThread_spec h)
    | stats c obj =>
        exact .stats (by simpa [Action.thread] using hgo)
          (extractThenProduceLatencyPackets_spec h)
    | transmitted m =>
        simp only [perform] at h
        split at h
        · rename_i hm
          obtain rfl := Option.some.inj h
          exact .transmitted hm
        · cases h
    | stop c =>
        obtain rfl := Option.some.inj h
        exact .stop

end Pipeline

end P2pInspection
