import P2pInspection.MainContexts
import P2pInspection.RoundRobin

/-!
# Which queue is polled

A poll of an RX thread and a transmission of `fpga_tx_thread` are turns: each
names a queue and may move the thread's `curr_Q`. In every run the turns of a
thread follow its counter (`run_follows`). For the polls this decides round
robin exactly: `fpga_rx_thread` asks for queue 0 whatever its counter says, and
`fpga_rx_final_thread` does not leave a queue that returned nothing.
-/

namespace P2pInspection

open Transition RoundRobin

namespace Pipeline

variable {Ctx Onic Mbuf : Type}

/-! ## Turns -/

/-- The id in slot `i` of a queue array, as `rte_eth_rx_burst` takes it. -/
def queueAt (qs : List Int) (i : Nat) : BitVec 16 := BitVec.ofInt 16 (qs.getD i (-1))

/-- The queue the thread names when its counter is `currQ`. -/
def asks (K : Setup Ctx Onic Mbuf) : Thread Ctx → BitVec 16 → BitVec 16
  | .rx _, _ => 0#16
  | .tx c, currQ => selectQueue (K.ctx c).txQs (K.ctx c).nbTxQs currQ
  | .final c, currQ => selectQueue (K.ctx c).rxQs (K.ctx c).nbRxQs currQ
  | .stats _, _ => 0#16

/-- The thread's own counter; the stats thread has none. -/
def currQ (s : Sys Ctx Onic Mbuf) : Thread Ctx → BitVec 16
  | .rx c => (s.rx c).currQ
  | .tx c => (s.tx c).currQ
  | .final c => (s.final c).currQ
  | .stats _ => 0#16

variable [DecidableEq Ctx]

/-- The turn of the thread in a call: the queue named, and whether `curr_Q++` follows. -/
def turnOf (t : Thread Ctx) : Event Ctx Onic Mbuf → List (BitVec 16 × Bool)
  | .polled t' _ queue mbufs => if t' = t then [(queue, !mbufs.isEmpty)] else []
  | .sent c _ queue _ => if .tx c = t then [(queue, true)] else []
  | _ => []

def turns (t : Thread Ctx) (log : List (Event Ctx Onic Mbuf)) : List (BitVec 16 × Bool) :=
  log.flatMap (turnOf t)

/-- The queues the thread named, oldest first. -/
def queues (t : Thread Ctx) (log : List (Event Ctx Onic Mbuf)) : List (BitVec 16) :=
  (turns t log).map Prod.fst

theorem turns_snoc (t : Thread Ctx) (log : List (Event Ctx Onic Mbuf))
    (e : Event Ctx Onic Mbuf) : turns t (log ++ [e]) = turns t log ++ turnOf t e := by
  simp [turns]

/-- The threads as they are launched. -/
structure AtLaunch (s : Sys Ctx Onic Mbuf) : Prop where
  counters : ∀ t, currQ s t = 0#16
  log : s.log = []

/-! ## One step -/

section Steps

variable {K : Setup Ctx Onic Mbuf} {c : Ctx} {s s' : Sys Ctx Onic Mbuf} {t u : Thread Ctx}

/-- What a step does to a thread's turns: nothing, or one more at its counter.
Transmitting always moves the counter. -/
inductive TurnStep (K : Setup Ctx Onic Mbuf) (s s' : Sys Ctx Onic Mbuf) (t : Thread Ctx) : Prop
  | quiet (hturns : turns t s'.log = turns t s.log) (hq : currQ s' t = currQ s t)
  | turn (b : Bool) (hturns : turns t s'.log = turns t s.log ++ [(asks K t (currQ s t), b)])
      (hq : currQ s' t = if b then currQ s t + 1 else currQ s t)
      (hmoves : b = false → ∀ c, t ≠ .tx c)

/-- An event in which no thread takes a turn. -/
def NoTurn : Event Ctx Onic Mbuf → Prop
  | .polled _ _ _ _ => False
  | .sent _ _ _ _ => False
  | _ => True

theorem NoTurn.turnOf {e : Event Ctx Onic Mbuf} (h : NoTurn e) (t : Thread Ctx) :
    turnOf t e = [] := by
  cases e with
  | polled => exact h.elim
  | sent => exact h.elim
  | _ => rfl

/-- The counter of `u` is `q` afterwards, the others are what they were. -/
def Leaves (s s' : Sys Ctx Onic Mbuf) (u : Thread Ctx) (q : BitVec 16) : Prop :=
  ∀ t, currQ s' t = if u = t then q else currQ s t

theorem Leaves.kept (h : Leaves s s' u (currQ s u)) (t : Thread Ctx) :
    currQ s' t = currQ s t := by
  rw [h t]
  split
  · rename_i ht
    rw [ht]
  · rfl

theorem leaves_rx {pc : RxPc Mbuf} {q : BitVec 16} (hrx : s'.rx = Function.update s.rx c ⟨pc, q⟩)
    (htx : s'.tx = s.tx) (hfinal : s'.final = s.final) : Leaves s s' (.rx c) q := by
  intro t
  cases t with
  | rx c' =>
      simp only [currQ, hrx, Function.update_apply, Thread.rx.injEq, eq_comm (a := c')]
      split <;> rfl
  | tx c' => simp [currQ, htx]
  | final c' => simp [currQ, hfinal]
  | stats c' => rfl

theorem leaves_tx {pc : TxPc Mbuf} {q : BitVec 16} (hrx : s'.rx = s.rx)
    (htx : s'.tx = Function.update s.tx c ⟨pc, q⟩) (hfinal : s'.final = s.final) :
    Leaves s s' (.tx c) q := by
  intro t
  cases t with
  | tx c' =>
      simp only [currQ, htx, Function.update_apply, Thread.tx.injEq, eq_comm (a := c')]
      split <;> rfl
  | rx c' => simp [currQ, hrx]
  | final c' => simp [currQ, hfinal]
  | stats c' => rfl

theorem leaves_final {pc : FinalPc Mbuf} {q : BitVec 16} (hrx : s'.rx = s.rx) (htx : s'.tx = s.tx)
    (hfinal : s'.final = Function.update s.final c ⟨pc, q⟩) : Leaves s s' (.final c) q := by
  intro t
  cases t with
  | final c' =>
      simp only [currQ, hfinal, Function.update_apply, Thread.final.injEq, eq_comm (a := c')]
      split <;> rfl
  | rx c' => simp [currQ, hrx]
  | tx c' => simp [currQ, htx]
  | stats c' => rfl

/-- No call, and no counter moved. -/
theorem TurnStep.of_local (hlog : s'.log = s.log) (hq : Leaves s s' u (currQ s u)) :
    TurnStep K s s' t :=
  .quiet (by rw [hlog]) (hq.kept t)

/-- A call that is no turn, and no counter moved. -/
theorem TurnStep.of_call {e : Event Ctx Onic Mbuf} (he : NoTurn e) (hlog : s'.log = s.log ++ [e])
    (hq : Leaves s s' u (currQ s u)) : TurnStep K s s' t := by
  refine .quiet ?_ (hq.kept t)
  rw [hlog, turns_snoc, he.turnOf, List.append_nil]

/-- One thread's turn, of which the others see nothing. -/
theorem TurnStep.of_turn {e : Event Ctx Onic Mbuf} {b : Bool} (hlog : s'.log = s.log ++ [e])
    (he : turnOf t e = if u = t then [(asks K u (currQ s u), b)] else [])
    (hq : Leaves s s' u (if b then currQ s u + 1 else currQ s u))
    (hmoves : b = false → ∀ c, u ≠ .tx c) : TurnStep K s s' t := by
  have hqt := hq t
  by_cases ht : u = t
  · subst ht
    rw [if_pos rfl] at he hqt
    refine .turn b ?_ hqt hmoves
    rw [hlog, turns_snoc, he]
  · rw [if_neg ht] at he hqt
    refine .quiet ?_ hqt
    rw [hlog, turns_snoc, he, List.append_nil]

variable [DecidableEq Onic] [DecidableEq Mbuf] {burst : List (Mbuf × RteMbuf)}

theorem RxStep.turn (h : RxStep K c burst s s') (t : Thread Ctx) : TurnStep K s s' t := by
  cases h with
  | stop => exact .of_local rfl (leaves_rx rfl rfl rfl)
  | enter => exact .of_local rfl (leaves_rx rfl rfl rfl)
  | idle hpc hburst =>
      exact .of_turn (u := .rx c) (b := false) rfl rfl (leaves_rx rfl rfl rfl) nofun
  | receive hpc hburst hcan =>
      exact .of_turn (u := .rx c) (b := true) rfl rfl (leaves_rx rfl rfl rfl) nofun
  | store hpc hroom => exact .of_call (e := .enqueued _ _ _) trivial rfl (leaves_rx rfl rfl rfl)
  | reject hpc hfull => exact .of_call (e := .enqueued _ _ _) trivial rfl (leaves_rx rfl rfl rfl)
  | done => exact .of_local rfl (leaves_rx rfl rfl rfl)
  | free hpc => exact .of_call (e := .freed _ _) trivial rfl (leaves_rx rfl rfl rfl)

omit [DecidableEq Mbuf] in
theorem TxStep.turn (h : TxStep K c s s') (t : Thread Ctx) : TurnStep K s s' t := by
  cases h with
  | stop => exact .of_local rfl (leaves_tx rfl rfl rfl)
  | enter => exact .of_local rfl (leaves_tx rfl rfl rfl)
  | take hpc hmbufs => exact .of_call (e := .dequeued _ _ _) trivial rfl (leaves_tx rfl rfl rfl)
  | send hpc hle => exact .of_turn (u := .tx c) (b := true) rfl rfl (leaves_tx rfl rfl rfl) nofun
  | done => exact .of_local rfl (leaves_tx rfl rfl rfl)
  | free hpc => exact .of_call (e := .freed _ _) trivial rfl (leaves_tx rfl rfl rfl)

theorem FinalStep.turn (h : FinalStep K c burst s s') (t : Thread Ctx) : TurnStep K s s' t := by
  cases h with
  | stop => exact .of_local rfl (leaves_final rfl rfl rfl)
  | enter => exact .of_local rfl (leaves_final rfl rfl rfl)
  | idle hpc hburst =>
      exact .of_turn (u := .final c) (b := false) rfl rfl (leaves_final rfl rfl rfl) nofun
  | receive hpc hne hcan =>
      refine .of_turn (u := .final c) (b := true) rfl ?_ (leaves_final rfl rfl rfl) nofun
      have hmbufs : (burst.map Prod.fst).isEmpty = false := by simpa using hne
      simp only [turnOf, hmbufs]
      rfl
  | done => exact .of_local rfl (leaves_final rfl rfl rfl)
  | store hpc hvlan hroom =>
      exact .of_call (e := .enqueued _ _ _) trivial rfl (leaves_final rfl rfl rfl)
  | reject hpc hvlan hfull =>
      exact .of_call (e := .enqueued _ _ _) trivial rfl (leaves_final rfl rfl rfl)
  | discard hpc hplain => exact .of_call (e := .freed _ _) trivial rfl (leaves_final rfl rfl rfl)
  | release hpc => exact .of_call (e := .freed _ _) trivial rfl (leaves_final rfl rfl rfl)

theorem StatsStep.turn (h : StatsStep K c s s') (t : Thread Ctx) : TurnStep K s s' t := by
  have hsame : ∀ {s'' : Sys Ctx Onic Mbuf}, s''.rx = s.rx → s''.tx = s.tx → s''.final = s.final →
      Leaves s s'' (.stats c) 0#16 := by
    intro s'' hrx htx hfinal t
    cases t <;> simp [currQ, hrx, htx, hfinal]
  cases h with
  | stop => exact .of_local rfl (hsame rfl rfl rfl)
  | enter => exact .of_local rfl (hsame rfl rfl rfl)
  | call hpc => exact .of_call (e := .dequeued _ _ _) trivial rfl (hsame rfl rfl rfl)
  | done => exact .of_local rfl (hsame rfl rfl rfl)
  | abort => exact .of_local rfl (hsame rfl rfl rfl)
  | read hpc m' => exact .of_call (e := .read _ _) trivial rfl (hsame rfl rfl rfl)

theorem step_turn {launched : Thread Ctx → Bool} {a : Action Ctx Mbuf}
    (h : step K launched s a = some s') (t : Thread Ctx) : TurnStep K s s' t := by
  cases step_cases h with
  | rx hl hrx => exact hrx.turn t
  | tx hl htx => exact htx.turn t
  | final hl hfinal => exact hfinal.turn t
  | stats hl hstats => exact hstats.turn t
  | transmitted hm => exact .quiet rfl (by cases t <;> rfl)
  | stop => exact .quiet rfl (by cases t <;> rfl)

end Steps

/-! ## Runs -/

section Runs

variable [DecidableEq Onic] [DecidableEq Mbuf] {K : Setup Ctx Onic Mbuf} {c : Ctx}
  {launched : Thread Ctx → Bool} {s₀ s s' : Sys Ctx Onic Mbuf} {t : Thread Ctx}
  {tr : List (Taken (Sys Ctx Onic Mbuf) (Action Ctx Mbuf))}

omit [DecidableEq Onic] [DecidableEq Mbuf] in
theorem TurnStep.follows (h : TurnStep K s s' t)
    (hs : Follows (asks K t) (turns t s.log) (currQ s t)) :
    Follows (asks K t) (turns t s'.log) (currQ s' t) := by
  cases h with
  | quiet hturns hq =>
      rw [hturns, hq]
      exact hs
  | turn b hturns hq hmoves =>
      rw [hturns, hq]
      exact hs.snoc b

/-- In every run, each thread names what its counter selects. -/
theorem run_follows (hstart : AtLaunch s₀) (hrun : Run (step K launched) s₀ tr s)
    (t : Thread Ctx) : Follows (asks K t) (turns t s.log) (currQ s t) := by
  refine hrun.invariant (I := fun s => Follows (asks K t) (turns t s.log) (currQ s t)) ?_ ?_
  · rw [hstart.log, hstart.counters]
    exact Follows.nil _
  · intro s a s' hs hstep
    exact (step_turn hstep t).follows hs

/-- In every run, each turn of a transmitting thread moved its counter. -/
theorem run_tx_moves (hstart : AtLaunch s₀) (hrun : Run (step K launched) s₀ tr s) :
    ∀ x ∈ turns (.tx c) s.log, x.2 = true := by
  refine hrun.invariant (I := fun s => ∀ x ∈ turns (.tx c) s.log, x.2 = true) ?_ ?_
  · rw [hstart.log]
    nofun
  · intro s a s' hs hstep
    cases step_turn hstep (.tx c) with
    | quiet hturns => rwa [hturns]
    | turn b hturns hq hmoves =>
        rw [hturns]
        refine forall_mem_snoc.mpr ⟨hs, ?_⟩
        cases b with
        | false => exact absurd rfl (hmoves rfl c)
        | true => rfl

end Runs

/-! ## The polls -/

section Polls

/-- Slot `i` of the context's `rx_Qs`. -/
def rxQueue (K : Setup Ctx Onic Mbuf) (c : Ctx) (i : Nat) : BitVec 16 :=
  queueAt (K.ctx c).rxQs i

/-- How many of the thread's first `k` polls returned packets. -/
def busyPolls (t : Thread Ctx) (log : List (Event Ctx Onic Mbuf)) (k : Nat) : Nat :=
  moved ((turns t log).take k)

/-- Poll `k` of the thread reads `rx_Qs[k % nb_rx_Qs]`, and any `nb_rx_Qs` polls
in a row read every configured queue once. -/
structure ServedInTurn (K : Setup Ctx Onic Mbuf) (c : Ctx) (t : Thread Ctx)
    (log : List (Event Ctx Onic Mbuf)) : Prop where
  poll : InTurn (rxQueue K c) (K.ctx c).nbRxQs (queues t log)
  visits : ∀ i, i + (K.ctx c).nbRxQs ≤ (queues t log).length →
    (((queues t log).drop i).take (K.ctx c).nbRxQs).Perm
      ((List.range (K.ctx c).nbRxQs).map (rxQueue K c))

theorem servedInTurn_of_inTurn {K : Setup Ctx Onic Mbuf} {c : Ctx} {t : Thread Ctx}
    {log : List (Event Ctx Onic Mbuf)}
    (h : InTurn (rxQueue K c) (K.ctx c).nbRxQs (queues t log)) : ServedInTurn K c t log :=
  ⟨h, fun _ hi => h.window hi⟩

variable [DecidableEq Onic] [DecidableEq Mbuf] {K : Setup Ctx Onic Mbuf} {c : Ctx}
  {launched : Thread Ctx → Bool} {s₀ s : Sys Ctx Onic Mbuf}
  {tr : List (Taken (Sys Ctx Onic Mbuf) (Action Ctx Mbuf))}

theorem rx_inTurn_iff (hstart : AtLaunch s₀) (hrun : Run (step K launched) s₀ tr s) :
    InTurn (rxQueue K c) (K.ctx c).nbRxQs (queues (.rx c) s.log)
      ↔ ∀ k < (queues (.rx c) s.log).length, rxQueue K c (k % (K.ctx c).nbRxQs) = 0#16 := by
  rw [queues, (run_follows hstart hrun (.rx c)).inTurn_iff, List.length_map]
  exact forall₂_congr fun _ _ => eq_comm

theorem final_inTurn_iff (hstart : AtLaunch s₀) (hrun : Run (step K launched) s₀ tr s) :
    InTurn (rxQueue K c) (K.ctx c).nbRxQs (queues (.final c) s.log)
      ↔ ∀ k < (queues (.final c) s.log).length,
        rxQueue K c (busyPolls (.final c) s.log k % 65536 % (K.ctx c).nbRxQs)
          = rxQueue K c (k % (K.ctx c).nbRxQs) := by
  rw [queues, (run_follows hstart hrun (.final c)).inTurn_iff, List.length_map]
  rfl

/-- Both receiving threads poll in turn exactly when queue 0 is configured in
every slot that is due to `fpga_rx_thread`, and the slot that is due to
`fpga_rx_final_thread` holds the id of the slot its non-empty polls lead to. -/
theorem servedInTurn_iff (hstart : AtLaunch s₀) (hrun : Run (step K launched) s₀ tr s) :
    (ServedInTurn K c (.rx c) s.log ∧ ServedInTurn K c (.final c) s.log)
      ↔ (∀ k < (queues (.rx c) s.log).length, rxQueue K c (k % (K.ctx c).nbRxQs) = 0#16)
        ∧ ∀ k < (queues (.final c) s.log).length,
          rxQueue K c (busyPolls (.final c) s.log k % 65536 % (K.ctx c).nbRxQs)
            = rxQueue K c (k % (K.ctx c).nbRxQs) := by
  rw [← rx_inTurn_iff hstart hrun, ← final_inTurn_iff hstart hrun]
  constructor
  · rintro ⟨hrx, hfinal⟩
    exact ⟨hrx.poll, hfinal.poll⟩
  · rintro ⟨hrx, hfinal⟩
    exact ⟨servedInTurn_of_inTurn hrx, servedInTurn_of_inTurn hfinal⟩

/-- With two or more different queues, `fpga_rx_final_thread` polls in turn as
long as every poll before the last returns packets, and its counter wraps to a
multiple of the number of queues or not at all. -/
theorem final_servedInTurn_iff_busy (hstart : AtLaunch s₀)
    (hrun : Run (step K launched) s₀ tr s) (hnb : 2 ≤ (K.ctx c).nbRxQs)
    (hids : Set.InjOn (rxQueue K c) (Set.Iio (K.ctx c).nbRxQs)) :
    ServedInTurn K c (.final c) s.log
      ↔ (∀ k (hk : k < (turns (.final c) s.log).length),
          k + 1 < (turns (.final c) s.log).length → (turns (.final c) s.log)[k].2 = true)
        ∧ ((K.ctx c).nbRxQs ∣ 2 ^ 16 ∨ (turns (.final c) s.log).length ≤ 2 ^ 16) := by
  have hfollows := run_follows hstart hrun (.final c)
  rw [← hfollows.inTurn_iff_moving hnb hids]
  exact ⟨fun h => h.poll, servedInTurn_of_inTurn⟩

end Polls

/-! ## Three queues -/

open MainContexts

/-- `main`'s contexts with three queues each way. -/
def threeQueues : Setup (Fin 4) Card (Fin 4) :=
  { setup Fin.val with
    ctx := fun c => { ctx c with
      rxQs := [0, 1, 2]
      txQs := [0, 1, 2]
      nbRxQs := 3
      nbTxQs := 3 } }

theorem fourBuffers_atLaunch : AtLaunch fourBuffers := by
  refine ⟨fun t => ?_, rfl⟩
  cases t <;> rfl

/-- Two polls of each thread that return nothing: all four read queue 0. -/
theorem idlePolls_sameQueue :
    ∃ tr s, Run (step threeQueues fun _ => true) fourBuffers tr s ∧ AtLaunch fourBuffers
      ∧ queues (.rx 3) s.log = [0#16, 0#16] ∧ ¬ServedInTurn threeQueues 3 (.rx 3) s.log
      ∧ queues (.final 3) s.log = [0#16, 0#16]
      ∧ ¬ServedInTurn threeQueues 3 (.final 3) s.log := by
  have hrun : Run (step threeQueues fun _ => true) fourBuffers _ _ :=
    (((((((Run.start.snoc (a := .rx 3 []) rfl).snoc (a := .rx 3 []) rfl).snoc
      (a := .rx 3 []) rfl).snoc (a := .rx 3 []) rfl).snoc (a := .final 3 []) rfl).snoc
        (a := .final 3 []) rfl).snoc (a := .final 3 []) rfl).snoc (a := .final 3 []) rfl
  refine ⟨_, _, hrun, fourBuffers_atLaunch, rfl, fun h => ?_, rfl, fun h => ?_⟩
  · exact absurd (h.poll 1 (by decide)) (by decide)
  · exact absurd (h.poll 1 (by decide)) (by decide)

/-- One poll of `fpga_rx_thread`, and three of `fpga_rx_final_thread` that return a
packet each, which is not a VLAN frame. -/
theorem servedInTurn_iff_busy :
    ∃ tr s, Run (step threeQueues fun _ => true) fourBuffers tr s
      ∧ queues (.rx 3) s.log = [0#16] ∧ queues (.final 3) s.log = [0#16, 1#16, 2#16]
      ∧ ServedInTurn threeQueues 3 (.rx 3) s.log ∧ ServedInTurn threeQueues 3 (.final 3) s.log := by
  have hrun : Run (step threeQueues fun _ => true) fourBuffers _ _ :=
    (((((((((((Run.start.snoc (a := .rx 3 []) rfl).snoc (a := .rx 3 []) rfl).snoc
      (a := .final 3 []) rfl).snoc (a := .final 3 [(3, blankFrame)]) rfl).snoc
        (a := .final 3 []) rfl).snoc (a := .final 3 []) rfl).snoc
      (a := .final 3 []) rfl).snoc (a := .final 3 [(3, blankFrame)]) rfl).snoc
        (a := .final 3 []) rfl).snoc (a := .final 3 []) rfl).snoc
      (a := .final 3 []) rfl).snoc (a := .final 3 [(3, blankFrame)]) rfl
  exact ⟨_, _, hrun, rfl, rfl, (servedInTurn_iff fourBuffers_atLaunch hrun).mpr
    ⟨by decide, by decide⟩⟩

end Pipeline

end P2pInspection
