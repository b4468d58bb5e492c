import Mathlib.Data.Finset.Card
import Mathlib.Order.Bounds.Defs
import P2pInspection.CallTrace
import P2pInspection.MainContexts

/-!
# Launch and shutdown of `main`

`main` launches the two threads of context 3 on workers it finds with
`rte_get_next_lcore`, in the order of their ids. Behind its loop it sets the
stop flags and waits for the enabled lcores among 1, 2, ... up to the number of
lcores, an id it compares with a count. The second and the third worker are the
ones in use; both are waited for exactly when three workers have ids below the
number of lcores (`waitsForWorkers_iff`).
-/

namespace P2pInspection

open CallTrace MainContexts

namespace LaunchShutdown

/-! ## The lcores -/

/-- What the EAL says of its lcores. `rteGetNextLcore i` is
`rte_get_next_lcore(i, 1, 0)`, where `i` is an id or -1. -/
structure Eal where
  enabled : Finset Nat
  mainLcore : Nat
  mainLcore_mem : mainLcore ∈ enabled
  rteMaxLcore : Nat
  enabled_lt : ∀ id ∈ enabled, id < rteMaxLcore
  rteGetNextLcore : Int → Nat
  next_lcore : ∀ i, IsLeast {id | id ∈ enabled.erase mainLcore ∧ i < (id : Int)} (rteGetNextLcore i)
    ∨ (∀ id ∈ enabled.erase mainLcore, (id : Int) ≤ i) ∧ rteGetNextLcore i = rteMaxLcore
  rteLcoreCount : Nat
  lcoreCount : rteLcoreCount = enabled.card

namespace Eal

def workers (E : Eal) : Finset Nat := E.enabled.erase E.mainLcore

/-- The workers up to `i`. -/
def upTo (E : Eal) (i : Int) : Finset Nat := E.workers.filter fun id => (id : Int) ≤ i

variable (E : Eal)

/-- As long as there are workers left, the next one is one of them. -/
theorem next_isLeast {i : Int} (hleft : (E.upTo i).card < E.workers.card) :
    IsLeast {id | id ∈ E.workers ∧ i < (id : Int)} (E.rteGetNextLcore i) := by
  rcases E.next_lcore i with hnext | ⟨hnone, -⟩
  · exact hnext
  · have hall : E.upTo i = E.workers := Finset.filter_true_of_mem hnone
    rw [hall] at hleft
    exact absurd hleft (Nat.lt_irrefl _)

/-- One more worker than before is up to the next one. -/
theorem card_upTo_next {i : Int} (hleft : (E.upTo i).card < E.workers.card) :
    (E.upTo (E.rteGetNextLcore i)).card = (E.upTo i).card + 1 := by
  obtain ⟨⟨hmem, hlt⟩, hleast⟩ := E.next_isLeast hleft
  have hinsert : E.upTo (E.rteGetNextLcore i) = insert (E.rteGetNextLcore i) (E.upTo i) := by
    ext id
    simp only [upTo, Finset.mem_insert, Finset.mem_filter]
    constructor
    · rintro ⟨hid, hle⟩
      by_cases hnew : i < (id : Int)
      · have hge := hleast ⟨hid, hnew⟩
        exact Or.inl (by omega)
      · exact Or.inr ⟨hid, by omega⟩
    · rintro (rfl | ⟨hid, hle⟩)
      · exact ⟨hmem, Int.le_refl _⟩
      · exact ⟨hid, by omega⟩
  have hnew : E.rteGetNextLcore i ∉ E.upTo i := by
    intro hold
    have hle := (Finset.mem_filter.mp hold).2
    omega
  rw [hinsert, Finset.card_insert_of_notMem hnew]

theorem lt_iff_card_upTo_le {id n : Nat} (hid : id ∈ E.workers) :
    id < n ↔ (E.upTo id).card ≤ (E.workers.filter (· < n)).card := by
  constructor
  · intro hlt
    refine Finset.card_le_card fun v hv => ?_
    obtain ⟨hv, hle⟩ := Finset.mem_filter.mp hv
    exact Finset.mem_filter.mpr ⟨hv, by omega⟩
  · intro hcard
    by_contra hge
    have hsub : E.workers.filter (· < n) ⊂ E.upTo id := by
      refine (Finset.ssubset_iff_of_subset fun v hv => ?_).mpr ⟨id, ?_, ?_⟩
      · obtain ⟨hv, hlt⟩ := Finset.mem_filter.mp hv
        exact Finset.mem_filter.mpr ⟨hv, by omega⟩
      · exact Finset.mem_filter.mpr ⟨hid, Int.le_refl _⟩
      · intro hmem
        exact hge (Finset.mem_filter.mp hmem).2
    have := Finset.card_lt_card hsub
    omega

/-- The lcores as DPDK numbers them, with `rte_get_next_lcore` as it is documented. -/
def ofIds (enabled : Finset Nat) (mainLcore rteMaxLcore : Nat) (hmain : mainLcore ∈ enabled)
    (hlt : ∀ id ∈ enabled, id < rteMaxLcore) : Eal where
  enabled := enabled
  mainLcore := mainLcore
  mainLcore_mem := hmain
  rteMaxLcore := rteMaxLcore
  enabled_lt := hlt
  rteGetNextLcore i := ((List.range rteMaxLcore).find? fun id =>
    id ∈ enabled.erase mainLcore ∧ i < (id : Int)).getD rteMaxLcore
  next_lcore i := by
    cases hfind : (List.range rteMaxLcore).find? fun id =>
        decide (id ∈ enabled.erase mainLcore ∧ i < (id : Int)) with
    | none =>
        refine Or.inr ⟨fun id hid => ?_, rfl⟩
        have hnot := List.find?_eq_none.mp hfind id
          (List.mem_range.mpr (hlt id (Finset.mem_of_mem_erase hid)))
        rw [decide_eq_true_eq, not_and, Int.not_lt] at hnot
        exact hnot hid
    | some id =>
        obtain ⟨hid, -, hfirst⟩ := List.find?_range_eq_some.mp hfind
        refine Or.inl ⟨of_decide_eq_true hid, fun id' hid' => ?_⟩
        by_contra hlt'
        have hnot := hfirst id' (Nat.lt_of_not_le hlt')
        rw [Bool.not_eq_true', decide_eq_false_iff_not] at hnot
        exact hnot hid'
  rteLcoreCount := enabled.card
  lcoreCount := rfl

end Eal

/-! ## What `main` does with them -/

/-- A call on an lcore, or the destructor of an object of `main`. -/
inductive MainCall where
  | remoteLaunch (t : Thread (Fin 4)) (lcoreId : Nat)
  | waitLcore (lcoreId : Nat)
  | destructOnic (onic : Card)
  | destructPort (onic : Card) (port : Nat)
deriving DecidableEq

/-- The state is the stop flag of each context. -/
abbrev MainOp := Prog Empty (Fin 4 → Bool) MainCall

section Main

variable (E : Eal)

def launchSoftwareForwarder (prevLcoreId : Int) (c : Fin 4) : MainOp Nat := do
  let rxLcoreId := E.rteGetNextLcore prevLcoreId
  call (.remoteLaunch (.rx c) rxLcoreId)
  let txLcoreId := E.rteGetNextLcore rxLcoreId
  call (.remoteLaunch (.tx c) txLcoreId)
  pure txLcoreId

/-- Behind the loop on `sigkill`. -/
def cleanup : MainOp Unit := do
  (List.finRange 4).forM fun c => update fun stopFlag => Function.update stopFlag c true
  (List.range' 1 (E.rteLcoreCount - 1)).forM fun lcoreId =>
    if lcoreId ∈ E.enabled then call (.waitLcore lcoreId) else pure ()

/-- `~Onic`, which resets the card, and then `~OnicPort` of its ports. -/
def destruct (onic : Card) : MainOp Unit := do
  call (.destructOnic onic)
  [1, 0].forM fun port => call (.destructPort onic port)

/-- `main` from its first `rte_get_next_lcore` on. The loop on `sigkill` makes no
call on an lcore; the cards are locals, destructed in the reverse order. -/
def main : MainOp Unit := do
  let lcoreId := E.rteGetNextLcore (-1)
  let _ ← launchSoftwareForwarder E lcoreId launchedCtx
  cleanup E
  destruct .onic1
  destruct .onic0

/-- The worker that `main` skips, and the two it launches the threads on. -/
def skippedLcore : Nat := E.rteGetNextLcore (-1)
def rxLcore : Nat := E.rteGetNextLcore (skippedLcore E)
def txLcore : Nat := E.rteGetNextLcore (rxLcore E)

def launches : List MainCall :=
  [.remoteLaunch (.rx launchedCtx) (rxLcore E), .remoteLaunch (.tx launchedCtx) (txLcore E)]

def waits : List MainCall :=
  (List.range' 1 (E.rteLcoreCount - 1)).flatMap fun lcoreId =>
    if lcoreId ∈ E.enabled then [.waitLcore lcoreId] else []

def destructors : List MainCall :=
  [.destructOnic .onic1, .destructPort .onic1 1, .destructPort .onic1 0,
    .destructOnic .onic0, .destructPort .onic0 1, .destructPort .onic0 0]

/-- All four flags set, whatever they were. -/
theorem stopFlags_set (stopFlag : Fin 4 → Bool) :
    (List.finRange 4).foldl (fun flags c => Function.update flags c true) stopFlag
      = fun _ => true := by
  funext c
  match c with
  | 0 => rfl
  | 1 => rfl
  | 2 => rfl
  | 3 => rfl

theorem cleanup_run (s : Logged (Fin 4 → Bool) MainCall) :
    cleanup E s = .ok () ⟨fun _ => true, s.calls ++ waits E⟩ := by
  have hflags : (List.finRange 4).forM (fun c => update fun stopFlag =>
      Function.update stopFlag c true) s = (.ok () ⟨fun _ => true, s.calls⟩ :
        EStateM.Result Empty (Logged (Fin 4 → Bool) MainCall) Unit) := by
    rw [← stopFlags_set s.state]
    rfl
  refine (bind_ok hflags).trans (forM_calls (fun lcoreId calls => ?_) _)
  split <;> simp

theorem main_run (stopFlag : Fin 4 → Bool) :
    main E ⟨stopFlag, []⟩ = .ok () ⟨fun _ => true, launches E ++ waits E ++ destructors⟩ := by
  have hlaunch : launchSoftwareForwarder E (skippedLcore E) launchedCtx ⟨stopFlag, []⟩
      = .ok (txLcore E) ⟨stopFlag, launches E⟩ := rfl
  refine (bind_ok hlaunch).trans ((bind_ok (cleanup_run E _)).trans ?_)
  have hdestruct : (do destruct .onic1; destruct .onic0 : MainOp Unit)
      ⟨fun _ => true, launches E ++ waits E⟩
        = .ok () ⟨fun _ => true, launches E ++ waits E ++ [_] ++ [_] ++ [_] ++ [_] ++ [_] ++ [_]⟩ :=
    rfl
  rw [hdestruct]
  simp [destructors]

theorem mem_waits {id : Nat} :
    MainCall.waitLcore id ∈ waits E ↔ 1 ≤ id ∧ id < E.enabled.card ∧ id ∈ E.enabled := by
  rw [waits, List.mem_flatMap, E.lcoreCount]
  constructor
  · rintro ⟨lcoreId, hrange, hmem⟩
    split at hmem
    · rename_i henabled
      cases List.mem_singleton.mp hmem
      rw [List.mem_range'_1] at hrange
      exact ⟨hrange.1, by omega, henabled⟩
    · cases hmem
  · rintro ⟨hpos, hlt, henabled⟩
    refine ⟨id, List.mem_range'_1.mpr ⟨hpos, by omega⟩, ?_⟩
    rw [if_pos henabled]
    exact List.mem_singleton_self _

/-! ## Waiting for the workers -/

def MainCall.Destructs : MainCall → Prop
  | .destructOnic _ => True
  | .destructPort _ _ => True
  | _ => False

/-- The RX and the TX thread are launched on two different workers, and at any
destructor every lcore a thread was launched on has been waited for. -/
structure WaitsForWorkers (calls : List MainCall) : Prop where
  launched : ∃ rx ∈ E.workers, ∃ tx ∈ E.workers, rx ≠ tx ∧ ∀ t id,
    .remoteLaunch t id ∈ calls ↔ t = .rx launchedCtx ∧ id = rx ∨ t = .tx launchedCtx ∧ id = tx
  waited : ∀ pre d post, calls = pre ++ d :: post → d.Destructs →
    ∀ t id, .remoteLaunch t id ∈ calls → .waitLcore id ∈ pre

section ThreeWorkers

variable (hthree : 3 ≤ E.workers.card)

include hthree

theorem card_upTo_skippedLcore : (E.upTo (skippedLcore E)).card = 1 := by
  have hzero : (E.upTo (-1)).card = 0 := by
    refine Finset.card_eq_zero.mpr (Finset.filter_false_of_mem fun id _ => ?_)
    omega
  rw [skippedLcore, E.card_upTo_next (by omega), hzero]

theorem rxLcore_isLeast :
    IsLeast {id | id ∈ E.workers ∧ (skippedLcore E : Int) < (id : Int)} (rxLcore E) := by
  have hskipped := card_upTo_skippedLcore E hthree
  exact E.next_isLeast (by omega)

theorem card_upTo_rxLcore : (E.upTo (rxLcore E)).card = 2 := by
  have hskipped := card_upTo_skippedLcore E hthree
  rw [rxLcore, E.card_upTo_next (by omega), hskipped]

theorem txLcore_isLeast :
    IsLeast {id | id ∈ E.workers ∧ (rxLcore E : Int) < (id : Int)} (txLcore E) := by
  have hrx := card_upTo_rxLcore E hthree
  exact E.next_isLeast (by omega)

theorem card_upTo_txLcore : (E.upTo (txLcore E)).card = 3 := by
  have hrx := card_upTo_rxLcore E hthree
  rw [txLcore, E.card_upTo_next (by omega), hrx]

end ThreeWorkers

theorem remoteLaunch_mem {t : Thread (Fin 4)} {id : Nat} :
    .remoteLaunch t id ∈ launches E ++ waits E ++ destructors
      ↔ t = .rx launchedCtx ∧ id = rxLcore E ∨ t = .tx launchedCtx ∧ id = txLcore E := by
  have hwaits : MainCall.remoteLaunch t id ∉ waits E := by
    rw [waits, List.mem_flatMap]
    rintro ⟨lcoreId, -, hmem⟩
    split at hmem
    · cases List.mem_singleton.mp hmem
    · cases hmem
  have hdestructors : MainCall.remoteLaunch t id ∉ destructors := by simp [destructors]
  rw [List.mem_append, List.mem_append, or_iff_left hdestructors, or_iff_left hwaits]
  simp [launches]

theorem not_destructs {d : MainCall} (hd : d ∈ launches E ++ waits E) : ¬d.Destructs := by
  rcases List.mem_append.mp hd with hd | hd
  · simp only [launches, List.mem_cons, List.not_mem_nil, or_false] at hd
    rcases hd with rfl | rfl <;> exact not_false
  · obtain ⟨lcoreId, -, hmem⟩ := List.mem_flatMap.mp hd
    split at hmem
    · cases List.mem_singleton.mp hmem
      exact not_false
    · cases hmem

/-- The waits are over at the first destructor. -/
theorem destructs_behind_waits :
    Justified (fun pre d => d.Destructs → ∀ id, .waitLcore id ∈ waits E → .waitLcore id ∈ pre)
      (launches E ++ waits E ++ destructors) := by
  refine justified_append_iff.mpr ⟨?_, ?_⟩
  · exact justified_of_forall fun pre d hmem hd => absurd hd (not_destructs E hmem)
  · refine justified_of_forall fun pre d _ _ id hwait => ?_
    exact List.mem_append_left _ (List.mem_append_right _ hwait)

/-- Whatever the ids: two threads, on two workers. -/
theorem launched_onWorkers (hthree : 3 ≤ E.workers.card) :
    ∃ rx ∈ E.workers, ∃ tx ∈ E.workers, rx ≠ tx ∧ ∀ t id,
      .remoteLaunch t id ∈ launches E ++ waits E ++ destructors
        ↔ t = .rx launchedCtx ∧ id = rx ∨ t = .tx launchedCtx ∧ id = tx := by
  obtain ⟨⟨hrx, -⟩, -⟩ := rxLcore_isLeast E hthree
  obtain ⟨⟨htx, hlt⟩, -⟩ := txLcore_isLeast E hthree
  exact ⟨rxLcore E, hrx, txLcore E, htx, by omega, fun t id => remoteLaunch_mem E⟩

/-- It is the TX thread, on the higher id, that decides. -/
theorem waitsForWorkers_iff_txLcore (hthree : 3 ≤ E.workers.card) (stopFlag : Fin 4 → Bool) :
    WaitsForWorkers E (after (main E ⟨stopFlag, []⟩)).calls ↔ txLcore E < E.enabled.card := by
  have hcalls : (after (main E ⟨stopFlag, []⟩)).calls = launches E ++ waits E ++ destructors := by
    rw [main_run]
    rfl
  obtain ⟨⟨hrx, hrxpos⟩, -⟩ := rxLcore_isLeast E hthree
  obtain ⟨⟨htx, htxpos⟩, -⟩ := txLcore_isLeast E hthree
  rw [hcalls]
  constructor
  · intro hwaits
    have hwait := hwaits.waited (launches E ++ waits E) (.destructOnic .onic1) _ rfl trivial
      (.tx launchedCtx) (txLcore E) ((remoteLaunch_mem E).mpr (Or.inr ⟨rfl, rfl⟩))
    have hmem : MainCall.waitLcore (txLcore E) ∈ waits E := by
      rcases List.mem_append.mp hwait with hmem | hmem
      · simp [launches] at hmem
      · exact hmem
    exact ((mem_waits E).mp hmem).2.1
  · intro hlt
    refine ⟨launched_onWorkers E hthree, ?_⟩
    intro pre d post heq hd t id hlaunch
    refine destructs_behind_waits E pre d post heq hd id ((mem_waits E).mpr ?_)
    rcases (remoteLaunch_mem E).mp hlaunch with ⟨-, rfl⟩ | ⟨-, rfl⟩
    · exact ⟨by omega, by omega, Finset.mem_of_mem_erase hrx⟩
    · exact ⟨by omega, hlt, Finset.mem_of_mem_erase htx⟩

/-- Ids without a gap are all below their number. -/
theorem waitsForWorkers_of_range (hids : E.enabled = Finset.range E.enabled.card)
    (hthree : 3 ≤ E.workers.card) (stopFlag : Fin 4 → Bool) :
    WaitsForWorkers E (after (main E ⟨stopFlag, []⟩)).calls := by
  obtain ⟨⟨htx, -⟩, -⟩ := txLcore_isLeast E hthree
  have hmem := Finset.mem_of_mem_erase htx
  rw [hids] at hmem
  exact (waitsForWorkers_iff_txLcore E hthree stopFlag).mpr (Finset.mem_range.mp hmem)

/-- With three workers or more, `main` waits for both threads exactly when three
workers have ids below the number of lcores. -/
theorem waitsForWorkers_iff (hthree : 3 ≤ E.workers.card) (stopFlag : Fin 4 → Bool) :
    WaitsForWorkers E (after (main E ⟨stopFlag, []⟩)).calls
      ↔ 3 ≤ (E.workers.filter (· < E.enabled.card)).card := by
  obtain ⟨⟨htx, -⟩, -⟩ := txLcore_isLeast E hthree
  rw [waitsForWorkers_iff_txLcore E hthree, E.lt_iff_card_upTo_le htx,
    card_upTo_txLcore E hthree]

/-- Lcores 0 to 3, of which 0 is the main lcore. -/
theorem waitsForWorkers_iff_fourLcores :
    WaitsForWorkers (Eal.ofIds (Finset.range 4) 0 128 (by decide) (by decide))
      (after (main (Eal.ofIds (Finset.range 4) 0 128 (by decide) (by decide))
        ⟨fun _ => false, []⟩)).calls :=
  (waitsForWorkers_iff _ (by decide) _).mpr (by decide)

end Main

/-! ## The lcores of `run_onicapp.sh` -/

/-- Its option `-l`; the first lcore becomes the main lcore. -/
def scriptLcores : Eal :=
  Eal.ofIds {168, 169, 170, 171, 172, 173, 174, 176, 177, 178, 179, 180, 181, 182, 183} 168 256
    (by decide) (by decide)

/-- The threads run on 170 and 171; the loop looks at 1 to 14 and waits for none. -/
theorem scriptLcores_not_waited :
    3 ≤ scriptLcores.workers.card
      ∧ (after (main scriptLcores ⟨fun _ => false, []⟩)).calls
        = .remoteLaunch (.rx launchedCtx) 170 :: .remoteLaunch (.tx launchedCtx) 171 :: destructors
      ∧ ¬WaitsForWorkers scriptLcores (after (main scriptLcores ⟨fun _ => false, []⟩)).calls := by
  have hcalls : (after (main scriptLcores ⟨fun _ => false, []⟩)).calls
      = .remoteLaunch (.rx launchedCtx) 170 :: .remoteLaunch (.tx launchedCtx) 171 :: destructors := by
    decide +kernel
  refine ⟨by decide, hcalls, fun hwaits => ?_⟩
  rw [hcalls] at hwaits
  have hwait := hwaits.waited [_, _] _ _ rfl trivial (.rx launchedCtx) 170 List.mem_cons_self
  simp at hwait

end LaunchShutdown

end P2pInspection
