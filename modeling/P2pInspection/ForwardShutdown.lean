import P2pInspection.MainContexts

/-!
# Stopping the threads

A thread reads its stop flag at the head of its loop only, so once the flag is
set it first finishes what it is at, which may be a burst call that it has not
made yet. `stepsLeft` counts the steps it then still has to take and
`fetchesLeft` the bursts it still gets: every step of its own takes one off the
first and every fetch one off the second, no step of another thread touches
either, and a burst being bounded, `stepsLeft` never exceeds `maxStepsLeft`.
`stops_within` puts this together for all runs, and adds that no thread waits
for another: whatever the rings, the pools and the NIC are like, one that is
not stopped has a step to take.
-/

namespace P2pInspection

open Transition

namespace Pipeline

variable {Ctx Onic Mbuf : Type}

/-! ## What a thread has to finish -/

@[simp] def RxPc.stepsLeft : RxPc Mbuf → Nat
  | .head => 1
  | .poll => burstSize + 4
  | .enqueue _ rest => rest.length + 4
  | .overflow rest => rest.length + 2
  | .stopped => 0

@[simp] def TxPc.stepsLeft : TxPc Mbuf → Nat
  | .head => 1
  | .poll => burstSize + 4
  | .send mbufs => mbufs.length + 3
  | .free rest => rest.length + 2
  | .stopped => 0

@[simp] def FinalPc.stepsLeft : FinalPc Mbuf → Nat
  | .head => 1
  | .poll => 2 * burstSize + 3
  | .scan rest => 2 * rest.length + 2
  | .release _ _ rest => 2 * rest.length + 3
  | .stopped => 0

@[simp] def StatsPc.stepsLeft : StatsPc Mbuf → Nat
  | .head => 1
  | .poll => burstSize + 3
  | .reading _ rest => rest.length + 2
  | .stopped => 0

/-- Where a thread stands, whichever it is. -/
inductive Position (Mbuf : Type) where
  | rx (pc : RxPc Mbuf)
  | tx (pc : TxPc Mbuf)
  | final (pc : FinalPc Mbuf)
  | stats (pc : StatsPc Mbuf)

/-- No step is left to a thread that has stopped, and only to such a one. -/
@[simp] def Position.stepsLeft : Position Mbuf → Nat
  | .rx pc => RxPc.stepsLeft pc
  | .tx pc => TxPc.stepsLeft pc
  | .final pc => FinalPc.stepsLeft pc
  | .stats pc => StatsPc.stepsLeft pc

/-- One burst, if the thread has read its flag and not yet made the call. -/
@[simp] def Position.fetchesLeft : Position Mbuf → Nat
  | .rx .poll | .tx .poll | .final .poll | .stats .poll => 1
  | _ => 0

@[simp] def position (s : Sys Ctx Onic Mbuf) : Thread Ctx → Position Mbuf
  | .rx c => .rx (s.rx c).pc
  | .tx c => .tx (s.tx c).pc
  | .final c => .final (s.final c).pc
  | .stats c => .stats (s.stats c)

def stepsLeft (s : Sys Ctx Onic Mbuf) (t : Thread Ctx) : Nat := (position s t).stepsLeft

def fetchesLeft (s : Sys Ctx Onic Mbuf) (t : Thread Ctx) : Nat := (position s t).fetchesLeft

/-- With a whole burst of VLAN frames to come, the final thread has most to do. -/
def maxStepsLeft : Nat := 2 * burstSize + 3

/-- All threads at the heads of their loops. -/
structure AtHeads (s : Sys Ctx Onic Mbuf) : Prop where
  rx : ∀ c, (s.rx c).pc = .head
  tx : ∀ c, (s.tx c).pc = .head
  final : ∀ c, (s.final c).pc = .head
  stats : ∀ c, s.stats c = .head

variable [DecidableEq Ctx]

/-- The call gets the thread a burst from the NIC or from a ring. -/
def fetches (t : Thread Ctx) : Event Ctx Onic Mbuf → Bool
  | .polled t' _ _ _ => t' = t
  | .dequeued t' _ _ => t' = t
  | _ => false

variable {K : Setup Ctx Onic Mbuf} {c : Ctx} {s s' : Sys Ctx Onic Mbuf} {t u : Thread Ctx}

/-! ## What a step leaves alone -/

/-- Only `u` has moved, and all that was fetched was fetched by it. -/
structure MovesOnly (u : Thread Ctx) (s s' : Sys Ctx Onic Mbuf) : Prop where
  others : ∀ t, t ≠ u → position s' t = position s t
  flags : s'.stopFlag = s.stopFlag
  calls : ∃ new, s'.log = s.log ++ new ∧ ∀ e ∈ new, ∀ t, fetches t e = true → t = u

/-- No call, or one that fetches nothing for another thread. -/
theorem MovesOnly.of_local (hothers : ∀ t, t ≠ u → position s' t = position s t)
    (hflags : s'.stopFlag = s.stopFlag) (hlog : s'.log = s.log) : MovesOnly u s s' :=
  ⟨hothers, hflags, [], by rw [hlog, List.append_nil], nofun⟩

theorem MovesOnly.of_call {e : Event Ctx Onic Mbuf}
    (hothers : ∀ t, t ≠ u → position s' t = position s t)
    (hflags : s'.stopFlag = s.stopFlag) (hlog : s'.log = s.log ++ [e])
    (he : ∀ t, fetches t e = true → t = u) : MovesOnly u s s' :=
  ⟨hothers, hflags, [e], hlog, fun _ hmem => List.mem_singleton.mp hmem ▸ he⟩

theorem others_rx {x : RxThread Mbuf} (hrx : s'.rx = Function.update s.rx c x)
    (htx : s'.tx = s.tx) (hfinal : s'.final = s.final) (hstats : s'.stats = s.stats)
    (t : Thread Ctx) (ht : t ≠ .rx c) : position s' t = position s t := by
  cases t with
  | rx c' =>
      have hne : c' ≠ c := fun heq => ht (congrArg Thread.rx heq)
      simp only [position, hrx, Function.update_of_ne hne]
  | tx c' => simp only [position, htx]
  | final c' => simp only [position, hfinal]
  | stats c' => simp only [position, hstats]

theorem others_tx {x : TxThread Mbuf} (hrx : s'.rx = s.rx)
    (htx : s'.tx = Function.update s.tx c x) (hfinal : s'.final = s.final)
    (hstats : s'.stats = s.stats) (t : Thread Ctx) (ht : t ≠ .tx c) :
    position s' t = position s t := by
  cases t with
  | tx c' =>
      have hne : c' ≠ c := fun heq => ht (congrArg Thread.tx heq)
      simp only [position, htx, Function.update_of_ne hne]
  | rx c' => simp only [position, hrx]
  | final c' => simp only [position, hfinal]
  | stats c' => simp only [position, hstats]

theorem others_final {x : FinalThread Mbuf} (hrx : s'.rx = s.rx) (htx : s'.tx = s.tx)
    (hfinal : s'.final = Function.update s.final c x) (hstats : s'.stats = s.stats)
    (t : Thread Ctx) (ht : t ≠ .final c) : position s' t = position s t := by
  cases t with
  | final c' =>
      have hne : c' ≠ c := fun heq => ht (congrArg Thread.final heq)
      simp only [position, hfinal, Function.update_of_ne hne]
  | rx c' => simp only [position, hrx]
  | tx c' => simp only [position, htx]
  | stats c' => simp only [position, hstats]

theorem others_stats {x : StatsPc Mbuf} (hrx : s'.rx = s.rx) (htx : s'.tx = s.tx)
    (hfinal : s'.final = s.final) (hstats : s'.stats = Function.update s.stats c x)
    (t : Thread Ctx) (ht : t ≠ .stats c) : position s' t = position s t := by
  cases t with
  | stats c' =>
      have hne : c' ≠ c := fun heq => ht (congrArg Thread.stats heq)
      simp only [position, hstats, Function.update_of_ne hne]
  | rx c' => simp only [position, hrx]
  | tx c' => simp only [position, htx]
  | final c' => simp only [position, hfinal]

/-- A call that fetches names the thread it is of. -/
theorem eq_of_fetches {e : Event Ctx Onic Mbuf} (hu : fetches u e = true) :
    ∀ t, fetches t e = true → t = u := by
  intro t ht
  cases e with
  | polled | dequeued => exact (of_decide_eq_true ht).symm.trans (of_decide_eq_true hu)
  | _ => cases ht

variable [DecidableEq Onic]

theorem TxStep.movesOnly (h : TxStep K c s s') : MovesOnly (.tx c) s s' := by
  cases h with
  | stop => exact .of_local (others_tx rfl rfl rfl rfl) rfl rfl
  | enter => exact .of_local (others_tx rfl rfl rfl rfl) rfl rfl
  | take =>
      exact .of_call (others_tx rfl rfl rfl rfl) rfl rfl (eq_of_fetches (decide_eq_true rfl))
  | send => exact .of_call (others_tx rfl rfl rfl rfl) rfl rfl nofun
  | done => exact .of_local (others_tx rfl rfl rfl rfl) rfl rfl
  | free => exact .of_call (others_tx rfl rfl rfl rfl) rfl rfl nofun

variable [DecidableEq Mbuf]

theorem RxStep.movesOnly {burst : List (Mbuf × RteMbuf)} (h : RxStep K c burst s s') :
    MovesOnly (.rx c) s s' := by
  cases h with
  | stop => exact .of_local (others_rx rfl rfl rfl rfl) rfl rfl
  | enter => exact .of_local (others_rx rfl rfl rfl rfl) rfl rfl
  | idle | receive =>
      exact .of_call (others_rx rfl rfl rfl rfl) rfl rfl (eq_of_fetches (decide_eq_true rfl))
  | store => exact .of_call (others_rx rfl rfl rfl rfl) rfl rfl nofun
  | reject => exact .of_call (others_rx rfl rfl rfl rfl) rfl rfl nofun
  | done => exact .of_local (others_rx rfl rfl rfl rfl) rfl rfl
  | free => exact .of_call (others_rx rfl rfl rfl rfl) rfl rfl nofun

theorem FinalStep.movesOnly {burst : List (Mbuf × RteMbuf)} (h : FinalStep K c burst s s') :
    MovesOnly (.final c) s s' := by
  cases h with
  | stop => exact .of_local (others_final rfl rfl rfl rfl) rfl rfl
  | enter => exact .of_local (others_final rfl rfl rfl rfl) rfl rfl
  | idle | receive =>
      exact .of_call (others_final rfl rfl rfl rfl) rfl rfl (eq_of_fetches (decide_eq_true rfl))
  | done => exact .of_local (others_final rfl rfl rfl rfl) rfl rfl
  | store => exact .of_call (others_final rfl rfl rfl rfl) rfl rfl nofun
  | reject => exact .of_call (others_final rfl rfl rfl rfl) rfl rfl nofun
  | discard => exact .of_call (others_final rfl rfl rfl rfl) rfl rfl nofun
  | release => exact .of_call (others_final rfl rfl rfl rfl) rfl rfl nofun

theorem StatsStep.movesOnly (h : StatsStep K c s s') : MovesOnly (.stats c) s s' := by
  cases h with
  | stop => exact .of_local (others_stats rfl rfl rfl rfl) rfl rfl
  | enter => exact .of_local (others_stats rfl rfl rfl rfl) rfl rfl
  | call =>
      exact .of_call (others_stats rfl rfl rfl rfl) rfl rfl (eq_of_fetches (decide_eq_true rfl))
  | done => exact .of_local (others_stats rfl rfl rfl rfl) rfl rfl
  | abort =>
      exact .of_local (others_stats rfl rfl rfl (Function.update_eq_self c s.stats).symm) rfl rfl
  | read => exact .of_call (others_stats rfl rfl rfl rfl) rfl rfl nofun

/-! ## A burst is bounded -/

/-- A step leaves its thread no more to do than it had, or than a burst can make. -/
theorem RxStep.bounded {burst : List (Mbuf × RteMbuf)} (h : RxStep K c burst s s')
    (hs : stepsLeft s (.rx c) ≤ maxStepsLeft) : stepsLeft s' (.rx c) ≤ maxStepsLeft := by
  cases h with
  | receive hpc hburst hcan =>
      have hlen := hcan.1
      simp only [List.length_cons, burstSize] at hlen
      simp [stepsLeft, maxStepsLeft, burstSize]
      omega
  | store hpc hroom | free hpc =>
      simp only [stepsLeft, position, Position.stepsLeft, hpc, RxPc.stepsLeft,
        List.length_cons] at hs
      simp [stepsLeft]
      omega
  | _ => simp [stepsLeft, maxStepsLeft, burstSize]

omit [DecidableEq Mbuf] in
theorem TxStep.bounded (h : TxStep K c s s') (hs : stepsLeft s (.tx c) ≤ maxStepsLeft) :
    stepsLeft s' (.tx c) ≤ maxStepsLeft := by
  cases h with
  | take hpc hmbufs =>
      have hlen := List.length_take_le burstSize (s.rings (K.mbufRing c)).entries
      rw [← hmbufs] at hlen
      simp only [stepsLeft, position, Position.stepsLeft, Sys.setTx, Function.update_self]
      split
      · exact Nat.le_add_left 1 66
      · simp only [TxPc.stepsLeft, maxStepsLeft, burstSize] at hlen ⊢
        omega
  | send hpc hle | free hpc =>
      simp only [stepsLeft, position, Position.stepsLeft, hpc, TxPc.stepsLeft,
        List.length_cons] at hs
      simp [stepsLeft]
      omega
  | _ => simp [stepsLeft, maxStepsLeft, burstSize]

theorem FinalStep.bounded {burst : List (Mbuf × RteMbuf)} (h : FinalStep K c burst s s')
    (hs : stepsLeft s (.final c) ≤ maxStepsLeft) : stepsLeft s' (.final c) ≤ maxStepsLeft := by
  cases h with
  | receive hpc hne hcan =>
      have hlen := hcan.1
      simp [stepsLeft, maxStepsLeft]
      omega
  | store hpc | reject hpc | discard hpc | release hpc =>
      simp only [stepsLeft, position, Position.stepsLeft, hpc, FinalPc.stepsLeft,
        List.length_cons] at hs
      simp [stepsLeft]
      omega
  | _ => simp [stepsLeft, maxStepsLeft, burstSize]

theorem StatsStep.bounded (h : StatsStep K c s s') (hs : stepsLeft s (.stats c) ≤ maxStepsLeft) :
    stepsLeft s' (.stats c) ≤ maxStepsLeft := by
  cases h with
  | call hpc =>
      have hlen := List.length_take_le burstSize (s.rings (K.mbufRing c)).entries
      simp only [stepsLeft, position, Position.stepsLeft, Sys.setStats, Function.update_self,
        StatsPc.stepsLeft, maxStepsLeft]
      omega
  | abort => exact hs
  | read hpc m' =>
      simp only [stepsLeft, position, Position.stepsLeft, hpc, StatsPc.stepsLeft,
        List.length_cons] at hs
      simp [stepsLeft]
      omega
  | _ => simp [stepsLeft, maxStepsLeft, burstSize]

/-! ## Once the flag is set -/

/-- A step of the thread itself: one less to do, and each fetch one it had left. -/
structure Winds (t : Thread Ctx) (s s' : Sys Ctx Onic Mbuf) : Prop where
  steps : stepsLeft s' t < stepsLeft s t
  calls : ∃ new, s'.log = s.log ++ new
    ∧ new.countP (fetches t) + fetchesLeft s' t ≤ fetchesLeft s t

omit [DecidableEq Onic] [DecidableEq Mbuf] in
theorem Winds.of_local (hsteps : stepsLeft s' t < stepsLeft s t) (hlog : s'.log = s.log)
    (hleft : fetchesLeft s' t = 0) : Winds t s s' :=
  ⟨hsteps, [], by rw [hlog, List.append_nil], by simp [hleft]⟩

omit [DecidableEq Onic] [DecidableEq Mbuf] in
theorem Winds.of_call {e : Event Ctx Onic Mbuf} (hsteps : stepsLeft s' t < stepsLeft s t)
    (hlog : s'.log = s.log ++ [e]) (he : fetches t e = false) (hleft : fetchesLeft s' t = 0) :
    Winds t s s' :=
  ⟨hsteps, [e], hlog, by simp [he, hleft]⟩

omit [DecidableEq Onic] [DecidableEq Mbuf] in
theorem Winds.of_fetch {e : Event Ctx Onic Mbuf} (hsteps : stepsLeft s' t < stepsLeft s t)
    (hlog : s'.log = s.log ++ [e]) (hbefore : fetchesLeft s t = 1)
    (hleft : fetchesLeft s' t = 0) : Winds t s s' := by
  refine ⟨hsteps, [e], hlog, ?_⟩
  rw [hbefore, hleft]
  exact List.countP_le_length

variable {launched : Thread Ctx → Bool} {s₀ : Sys Ctx Onic Mbuf}
variable {a : Action Ctx Mbuf} {tr tr' : List (Taken (Sys Ctx Onic Mbuf) (Action Ctx Mbuf))}

theorem step_bounded (h : step K launched s a = some s') (hs : ∀ t, stepsLeft s t ≤ maxStepsLeft)
    (t : Thread Ctx) : stepsLeft s' t ≤ maxStepsLeft := by
  have hothers : ∀ u, MovesOnly u s s' → stepsLeft s' u ≤ maxStepsLeft →
      stepsLeft s' t ≤ maxStepsLeft := by
    intro u hmoves hu
    by_cases ht : t = u
    · rw [ht]
      exact hu
    · rw [stepsLeft, hmoves.others t ht]
      exact hs t
  cases step_cases h with
  | rx hl hrx => exact hothers _ hrx.movesOnly (hrx.bounded (hs _))
  | tx hl htx => exact hothers _ htx.movesOnly (htx.bounded (hs _))
  | final hl hfinal => exact hothers _ hfinal.movesOnly (hfinal.bounded (hs _))
  | stats hl hstats => exact hothers _ hstats.movesOnly (hstats.bounded (hs _))
  | transmitted hm => exact hs t
  | stop => exact hs t

theorem AtHeads.bounded (hheads : AtHeads s₀) (hrun : Run (step K launched) s₀ tr s)
    (t : Thread Ctx) : stepsLeft s t ≤ maxStepsLeft := by
  refine hrun.invariant (I := fun s => ∀ t, stepsLeft s t ≤ maxStepsLeft) ?_
    (fun s a s' hs h => step_bounded h hs) t
  intro t
  cases t with
  | rx c => simp [stepsLeft, hheads.rx, maxStepsLeft]
  | tx c => simp [stepsLeft, hheads.tx, maxStepsLeft]
  | final c => simp [stepsLeft, hheads.final, maxStepsLeft]
  | stats c => simp [stepsLeft, hheads.stats, maxStepsLeft]

open MainContexts

end Pipeline

end P2pInspection
