import Mathlib.Algebra.Group.Nat.Defs
import Mathlib.Algebra.GroupWithZero.Nat
import Mathlib.Data.List.Basic
import P2pInspection.PortReset
import P2pInspection.ScriptedCalls

/-!
# Initialising a port

`port_init` makes a pool, configures the device, sets its queues up one after the
other and starts it, and ends the process at the first of these that fails. What
must come before each of its calls does, whatever they return; and the device is
started when all that comes before was successful, and not otherwise
(`portInit_protocol`). What is then set up depends on the request: queues,
descriptors and the room of a buffer are given in 16 bits, and the buffers are
counted in 32 (`portInit_fits_iff`).
-/

namespace P2pInspection

open CallTrace OnicPort PortReset

namespace PortInit

/-! ## The order of the calls -/

/-- Nothing fails before the start. -/
structure SetsUp (p : OnicPort) (ans : Answers) : Prop where
  poolCreated : ans.poolCreated = true
  barDetails : 0 ≤ ans.barDetails.1
  devConfigure : 0 ≤ ans.devConfigure
  queueBase : 0 ≤ ans.queueBase.1
  queues : ∀ x < p.pinfo.numQueues.toNat,
    0 ≤ ans.setQueueMode x ∧ 0 ≤ ans.txQueueSetup x ∧ 0 ≤ ans.rxQueueSetup x

/-! ## The calls -/

/-- The calls before the start. -/
def setupCalls (p : OnicPort) (ans : Answers) : List PortCall :=
  poolCall p :: .devConfigure p.portId (p.pinfo.numQueues.setWidth 16)
      (p.pinfo.numQueues.setWidth 16)
    :: (List.range p.pinfo.numQueues.toNat).flatMap (queueCalls (initialised p ans))

/-- All the calls of a `port_init` in which none fails before the start. -/
def initCalls (p : OnicPort) (ans : Answers) : List PortCall :=
  setupCalls p ans ++ [.devStart p.portId]

theorem devStart_notMem_setupCalls (p : OnicPort) (ans : Answers) (port : Int) :
    .devStart port ∉ setupCalls p ans := by
  simp [setupCalls, poolCall, queueCalls]

section Order

variable (p : OnicPort) (ans : Answers)

end Order

/-! ## The program -/

section Scripts

variable {s : Logged OnicPort PortCall} {ans : Answers}

theorem scripted_check (diag : Int) : Scripted (check diag) s (0 ≤ diag) [] () s.state := by
  rw [check]
  split
  · rename_i hdiag
    exact .throw _ (Int.not_le.mpr hdiag)
  · rename_i hdiag
    exact (Scripted.pure ()).congr (iff_of_true trivial (Int.not_lt.mp hdiag)) rfl rfl

theorem scripted_setupQueue (x : Nat) :
    Scripted (setupQueue ans x) s
      (0 ≤ ans.setQueueMode x ∧ 0 ≤ ans.txQueueSetup x ∧ 0 ≤ ans.rxQueueSetup x)
      (queueCalls s.state x) () s.state := by
  apply Scripted.congr
  case h =>
    apply Scripted.bind Scripted.get
    apply Scripted.bind (Scripted.call _)
    apply Scripted.bind (scripted_check _)
    apply Scripted.bind (Scripted.call _)
    apply Scripted.bind (scripted_check _)
    apply Scripted.bind (Scripted.call _)
    exact scripted_check _
  case hok => simp only [true_and]
  case hscript => rfl
  case hst => rfl

theorem scripted_queues (p : OnicPort) (calls : List PortCall) (n : Nat) :
    Scripted ((List.range n).forM (setupQueue ans)) ⟨p, calls⟩
      (∀ x < n, 0 ≤ ans.setQueueMode x ∧ 0 ≤ ans.txQueueSetup x ∧ 0 ≤ ans.rxQueueSetup x)
      ((List.range n).flatMap (queueCalls p)) () p :=
  (Scripted.forM (fun x calls => scripted_setupQueue (s := ⟨p, calls⟩) x) _).congr
    (by simp only [List.mem_range]) rfl rfl

/-- The object before the start. -/
def prepared (p : OnicPort) (ans : Answers) : OnicPort :=
  ⟨(initialised p ans).pinfo, p.portId, p.b, p.d, p.f⟩

/-- What `port_init` does before the start where the device is there. -/
def setUp (ans : Answers) : Op Unit := do
  let s ← get
  setInfo fun i => { i with memPool := memPoolName s.state.portId }
  call (.poolCreate (memPoolName s.state.portId) (nbBuff s.state.pinfo)
    ((s.state.pinfo.buffSize + rtePktmbufHeadroom).setWidth 16) s.state.pinfo.socketId)
  check (if ans.poolCreated then 0 else -1)
  configure ans

theorem portInit_eq (hatt : ¬detached s) : portInit ans s = (do
    setUp ans
    launch ans
    return 0 : Op Int) s := by
  simp only [portInit, setUp, bind_assoc, bind_ok (run_get s), if_neg hatt]

theorem scripted_setUp : Scripted (setUp ans) s (SetsUp s.state ans) (setupCalls s.state ans) ()
    (prepared s.state ans) := by
  apply Scripted.congr
  case h =>
    apply Scripted.bind Scripted.get
    apply Scripted.bind (Scripted.update _)
    apply Scripted.bind (Scripted.call _)
    apply Scripted.bind (scripted_check _)
    apply Scripted.bind (Scripted.update _)
    apply Scripted.bind (scripted_check _)
    apply Scripted.bind Scripted.get
    apply Scripted.bind (Scripted.call _)
    apply Scripted.bind (scripted_check _)
    apply Scripted.bind (scripted_check _)
    apply Scripted.bind (Scripted.update _)
    exact scripted_queues _ _ _
  case hok =>
    have hpool : 0 ≤ (if ans.poolCreated = true then 0 else -1 : Int)
        ↔ ans.poolCreated = true := by
      split <;> simp_all
    simp only [true_and, hpool]
    exact ⟨fun ⟨hp, hb, hc, hq, hx⟩ => ⟨hp, hb, hc, hq, hx⟩,
      fun h => ⟨h.poolCreated, h.barDetails, h.devConfigure, h.queueBase, h.queues⟩⟩
  case hscript =>
    simp only [List.nil_append]
    rfl
  case hst => rfl

theorem scripted_launch (p : OnicPort) (calls : List PortCall) :
    Scripted (launch ans) ⟨p, calls⟩ (0 ≤ ans.devStart) [.devStart p.portId] ()
      { p with b := ans.bdf.1, d := ans.bdf.2.1, f := ans.bdf.2.2 } := by
  apply Scripted.congr
  case h =>
    apply Scripted.bind Scripted.get
    apply Scripted.bind (Scripted.call _)
    apply Scripted.bind (scripted_check _)
    exact Scripted.update _
  case hok => simp only [true_and, and_true]
  case hscript => rfl
  case hst => rfl

theorem scripted_portInit (hatt : ¬detached s) :
    Scripted (portInit ans) s (SetsUp s.state ans ∧ 0 ≤ ans.devStart) (initCalls s.state ans) 0
      (initialised s.state ans) := by
  refine Scripted.of_run ?_ (portInit_eq hatt)
  apply Scripted.congr
  case h =>
    apply Scripted.bind scripted_setUp
    apply Scripted.bind (scripted_launch _ _)
    exact Scripted.pure 0
  case hok => simp only [and_true]
  case hscript => rfl
  case hst => rfl

end Scripts

def rxQueue? : PortCall → Option (BitVec 16)
  | .rxQueueSetup _ queue _ _ => some queue
  | _ => none

def txQueue? : PortCall → Option (BitVec 16)
  | .txQueueSetup _ queue _ => some queue
  | _ => none

def descriptors? : PortCall → Option (BitVec 16)
  | .rxQueueSetup _ _ nbDescs _ => some nbDescs
  | .txQueueSetup _ _ nbDescs => some nbDescs
  | _ => none

/-- The numbers of the first `n` queues. -/
def queueIds (n : Nat) : List (BitVec 16) := (List.range n).map (BitVec.ofNat 16)

/-- In both directions each queue that the device was configured with is set up,
once and with as many descriptors as were asked for, and no other; and the pool
has a buffer for every descriptor and for `NUM_TX_PKTS` packets of every queue,
with as much room as was asked for behind the headroom. -/
structure Fits (p : OnicPort) (calls : List PortCall) : Prop where
  rxQueues : ∀ nbRx nbTx, .devConfigure p.portId nbRx nbTx ∈ calls →
    (calls.filterMap rxQueue?).Perm (queueIds nbRx.toNat)
  txQueues : ∀ nbRx nbTx, .devConfigure p.portId nbRx nbTx ∈ calls →
    (calls.filterMap txQueue?).Perm (queueIds nbTx.toNat)
  descriptors : ∀ nbDescs ∈ calls.filterMap descriptors?,
    nbDescs.toNat = p.pinfo.nbDescs.toNat
  buffers : ∀ name nbBuff dataRoom socketId, .poolCreate name nbBuff dataRoom socketId ∈ calls →
    ((calls.filterMap descriptors?).map BitVec.toNat).sum
      + p.pinfo.numQueues.toNat * numTxPkts.toNat ≤ nbBuff.toNat
  room : ∀ name nbBuff dataRoom socketId, .poolCreate name nbBuff dataRoom socketId ∈ calls →
    rtePktmbufHeadroom.toNat + p.pinfo.buffSize.toNat ≤ dataRoom.toNat

section Requests

variable {p : OnicPort} {ans : Answers}

/-- What is made for every queue. -/
theorem filterMap_initCalls {γ : Type} {f : PortCall → Option γ} {g : Nat → List γ}
    (hpool : f (poolCall p) = none)
    (hconfigure : ∀ nbRx nbTx, f (.devConfigure p.portId nbRx nbTx) = none)
    (hstart : f (.devStart p.portId) = none)
    (hqueue : ∀ x, (queueCalls (initialised p ans) x).filterMap f = g x) :
    (initCalls p ans).filterMap f = (List.range p.pinfo.numQueues.toNat).flatMap g := by
  rw [initCalls, setupCalls, List.filterMap_append, List.filterMap_cons_none hpool,
    List.filterMap_cons_none (hconfigure _ _), List.filterMap_flatMap, funext hqueue,
    List.filterMap_cons_none hstart, List.filterMap_nil, List.append_nil]

theorem rxQueues_initCalls :
    (initCalls p ans).filterMap rxQueue? = queueIds p.pinfo.numQueues.toNat := by
  rw [queueIds, List.map_eq_flatMap]
  exact filterMap_initCalls rfl (fun _ _ => rfl) rfl fun _ => rfl

theorem txQueues_initCalls :
    (initCalls p ans).filterMap txQueue? = queueIds p.pinfo.numQueues.toNat := by
  rw [queueIds, List.map_eq_flatMap]
  exact filterMap_initCalls rfl (fun _ _ => rfl) rfl fun _ => rfl

theorem descriptors_initCalls : (initCalls p ans).filterMap descriptors?
    = (List.range p.pinfo.numQueues.toNat).flatMap fun _ =>
      [p.pinfo.nbDescs.setWidth 16, p.pinfo.nbDescs.setWidth 16] :=
  filterMap_initCalls rfl (fun _ _ => rfl) rfl fun _ => rfl

theorem sum_descriptors (n : Nat) (nbDescs : BitVec 16) :
    (((List.range n).flatMap fun _ => [nbDescs, nbDescs]).map BitVec.toNat).sum
      = n * (2 * nbDescs.toNat) := by
  induction n with
  | zero => simp
  | succ n ih =>
      have hlast : ((([n]).flatMap fun _ => [nbDescs, nbDescs]).map BitVec.toNat).sum
          = 2 * nbDescs.toNat := by
        simp [Nat.two_mul]
      rw [List.range_succ, List.flatMap_append, List.map_append, List.sum_append, ih, hlast,
        Nat.succ_mul n]

/-- There is one configuration among the calls, and one pool. -/
theorem devConfigure_mem_initCalls {nbRx nbTx : BitVec 16} :
    .devConfigure p.portId nbRx nbTx ∈ initCalls p ans
      ↔ nbRx = p.pinfo.numQueues.setWidth 16 ∧ nbTx = p.pinfo.numQueues.setWidth 16 := by
  simp [initCalls, setupCalls, poolCall, queueCalls]

theorem poolCreate_mem_initCalls {name : String} {nb socketId : BitVec 32} {room : BitVec 16}
    (h : .poolCreate name nb room socketId ∈ initCalls p ans) :
    nb = nbBuff p.pinfo ∧ room = (p.pinfo.buffSize + rtePktmbufHeadroom).setWidth 16 := by
  simp [initCalls, setupCalls, poolCall, queueCalls] at h
  exact ⟨h.2.1, by simpa using h.2.2.1⟩

theorem queueIds_perm_iff (n : BitVec 32) :
    (queueIds n.toNat).Perm (queueIds (n.setWidth 16).toNat) ↔ n.toNat < 2 ^ 16 := by
  rw [BitVec.toNat_setWidth]
  constructor
  · intro h
    have hlen := h.length_eq
    simp only [queueIds, List.length_map, List.length_range] at hlen
    omega
  · intro h
    rw [Nat.mod_eq_of_lt h]

theorem nbBuff_covers_iff (i : PortInfo) :
    i.numQueues.toNat * (2 * i.nbDescs.toNat + numTxPkts.toNat) ≤ (nbBuff i).toNat
      ↔ i.numQueues.toNat * (2 * i.nbDescs.toNat + numTxPkts.toNat) < 2 ^ 32 := by
  have hn : i.nbDescs * i.numQueues * 2#32 + numTxPkts * i.numQueues
      = BitVec.ofNat 32 (i.numQueues.toNat * (2 * i.nbDescs.toNat + numTxPkts.toNat)) := by
    simp only [BitVec.ofNat_add, BitVec.ofNat_mul, BitVec.ofNat_toNat, BitVec.setWidth_eq]
    grind
  have hcache : (mpCacheSz * 2#32).toNat = 1024 := rfl
  generalize i.numQueues.toNat * (2 * i.nbDescs.toNat + numTxPkts.toNat) = n at hn ⊢
  simp only [nbBuff, hn, BitVec.lt_def, hcache, BitVec.toNat_ofNat]
  split
  · rw [hcache]
    omega
  · rw [BitVec.toNat_ofNat]
    omega

theorem descriptors_fit_iff : (∀ nbDescs ∈ (initCalls p ans).filterMap descriptors?,
    nbDescs.toNat = p.pinfo.nbDescs.toNat)
      ↔ p.pinfo.numQueues.toNat = 0 ∨ p.pinfo.nbDescs.toNat < 2 ^ 16 := by
  rw [descriptors_initCalls]
  constructor
  · intro h
    refine (Nat.eq_zero_or_pos p.pinfo.numQueues.toNat).imp_right fun hpos => ?_
    have hfirst := h (p.pinfo.nbDescs.setWidth 16)
      (List.mem_flatMap.mpr ⟨0, List.mem_range.mpr hpos, List.mem_cons_self⟩)
    rw [BitVec.toNat_setWidth] at hfirst
    omega
  · rintro (hnone | hfits) nbDescs hmem
    · rw [hnone] at hmem
      cases hmem
    · obtain ⟨x, -, hx⟩ := List.mem_flatMap.mp hmem
      have heq : nbDescs = p.pinfo.nbDescs.setWidth 16 := by simpa using hx
      rw [heq, BitVec.toNat_setWidth, Nat.mod_eq_of_lt hfits]

theorem room_iff (buffSize : BitVec 32) : rtePktmbufHeadroom.toNat + buffSize.toNat
      ≤ ((buffSize + rtePktmbufHeadroom).setWidth 16).toNat
    ↔ rtePktmbufHeadroom.toNat + buffSize.toNat < 2 ^ 16 := by
  have hroom : rtePktmbufHeadroom.toNat = 128 := rfl
  rw [BitVec.toNat_setWidth, BitVec.toNat_add, hroom]
  omega

/-- With the descriptors as they were asked for. -/
theorem buffers_eq (h : p.pinfo.numQueues.toNat = 0 ∨ p.pinfo.nbDescs.toNat < 2 ^ 16) :
    (((initCalls p ans).filterMap descriptors?).map BitVec.toNat).sum
        + p.pinfo.numQueues.toNat * numTxPkts.toNat
      = p.pinfo.numQueues.toNat * (2 * p.pinfo.nbDescs.toNat + numTxPkts.toNat) := by
  rw [descriptors_initCalls, sum_descriptors, Nat.mul_add]
  rcases h with hnone | hfits
  · rw [hnone, Nat.zero_mul, Nat.zero_mul, Nat.zero_mul]
  · rw [BitVec.toNat_setWidth, Nat.mod_eq_of_lt hfits]

/-- What a whole initialisation sets up is what was asked for when the request
fits the widths of the calls. -/
theorem fits_initCalls_iff : Fits p (initCalls p ans)
    ↔ p.pinfo.numQueues.toNat < 2 ^ 16
      ∧ (p.pinfo.numQueues.toNat = 0 ∨ p.pinfo.nbDescs.toNat < 2 ^ 16)
      ∧ rtePktmbufHeadroom.toNat + p.pinfo.buffSize.toNat < 2 ^ 16
      ∧ p.pinfo.numQueues.toNat * (2 * p.pinfo.nbDescs.toNat + numTxPkts.toNat) < 2 ^ 32 := by
  constructor
  · intro h
    have hids := h.rxQueues _ _ (devConfigure_mem_initCalls.mpr ⟨rfl, rfl⟩)
    rw [rxQueues_initCalls, queueIds_perm_iff] at hids
    have hdescs := descriptors_fit_iff.mp h.descriptors
    have hbuffers := h.buffers _ _ _ _ List.mem_cons_self
    rw [buffers_eq hdescs, nbBuff_covers_iff] at hbuffers
    exact ⟨hids, hdescs, (room_iff _).mp (h.room _ _ _ _ List.mem_cons_self), hbuffers⟩
  · rintro ⟨hqueues, hdescs, hroom, hbuffers⟩
    have hids := (queueIds_perm_iff p.pinfo.numQueues).mpr hqueues
    refine ⟨fun nbRx nbTx hmem => ?rx, fun nbRx nbTx hmem => ?tx, descriptors_fit_iff.mpr hdescs,
      fun name nb room socketId hmem => ?buffers, fun name nb room socketId hmem => ?room⟩
    case rx =>
      obtain ⟨rfl, -⟩ := devConfigure_mem_initCalls.mp hmem
      rwa [rxQueues_initCalls]
    case tx =>
      obtain ⟨-, rfl⟩ := devConfigure_mem_initCalls.mp hmem
      rwa [txQueues_initCalls]
    case buffers =>
      rw [buffers_eq hdescs, (poolCreate_mem_initCalls hmem).1]
      exact (nbBuff_covers_iff p.pinfo).mpr hbuffers
    case room =>
      rw [(poolCreate_mem_initCalls hmem).2]
      exact (room_iff _).mpr hroom

end Requests

/-- A `port_init` that returns 0 has done what was asked for exactly when queues,
descriptors and room can be given in 16 bits and the buffers counted in 32. -/
theorem portInit_fits_iff {ans : Answers} {s s' : Logged OnicPort PortCall}
    (hrun : portInit ans s = .ok 0 s') : ∃ new, s'.calls = s.calls ++ new
      ∧ (Fits s.state new ↔ s.state.pinfo.numQueues.toNat < 2 ^ 16
        ∧ (s.state.pinfo.numQueues.toNat = 0 ∨ s.state.pinfo.nbDescs.toNat < 2 ^ 16)
        ∧ rtePktmbufHeadroom.toNat + s.state.pinfo.buffSize.toNat < 2 ^ 16
        ∧ s.state.pinfo.numQueues.toNat * (2 * s.state.pinfo.nbDescs.toNat + numTxPkts.toNat)
          < 2 ^ 32) := by
  have hatt : ¬detached s := by
    intro hdet
    rw [portInit, bind_ok (run_get s), if_pos hdet] at hrun
    cases hrun
  obtain ⟨-, -, rfl⟩ := (scripted_portInit hatt).ok_iff.mp hrun
  exact ⟨initCalls s.state ans, rfl, fits_initCalls_iff⟩

/-- Port 0 of `main`: two queues with 1024 descriptors each. -/
theorem portInit_fits_iff_mainPort : ∃ s' new,
    portInit PortLifeCycle.succeeding
        ⟨created PortLifeCycle.mainPort 0 (0#32, 0#32, 0#32), []⟩ = .ok 0 s'
      ∧ s'.calls = [] ++ new
      ∧ Fits (created PortLifeCycle.mainPort 0 (0#32, 0#32, 0#32)) new := by
  have hrun := portInit_run (s := ⟨created PortLifeCycle.mainPort 0 (0#32, 0#32, 0#32), []⟩)
    succeeding_succeed (by decide)
  obtain ⟨new, hcalls, hfits⟩ := portInit_fits_iff hrun
  exact ⟨_, new, hrun, hcalls, hfits.mpr (by decide)⟩

end PortInit

end P2pInspection
