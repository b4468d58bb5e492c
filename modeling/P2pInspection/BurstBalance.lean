import P2pInspection.QueueTurns

/-!
# The balance of transmitted bursts

`fpga_tx_thread` moves `curr_Q` at every burst, so burst `k` goes to slot
`k % 65536 % nb_tx_Qs`. Two queues get their bursts in turn for ever. Three do
until the counter wraps: 65536 is not a multiple of three, so slot 0 gets burst
65535 and burst 65536. Slots with the same id are out of balance earlier
(`burstsBalanced_iff`).
-/

namespace P2pInspection

open Transition RoundRobin

namespace Pipeline

/-- `MAX_Q_PER_FORWARDER`. -/
def maxQPerForwarder : Nat := 3

variable {Ctx Onic Mbuf : Type}

/-- Slot `i` of the context's `tx_Qs`. -/
def txQueue (K : Setup Ctx Onic Mbuf) (c : Ctx) (i : Nat) : BitVec 16 :=
  queueAt (K.ctx c).txQs i

/-- After any number of bursts, the numbers handed to any two of the context's
TX queues differ by at most one. -/
def BurstsBalanced [DecidableEq Ctx] (K : Setup Ctx Onic Mbuf) (c : Ctx)
    (log : List (Event Ctx Onic Mbuf)) : Prop :=
  Balanced (txQueue K c) (K.ctx c).nbTxQs (queues (.tx c) log)

/-! ## Three slots -/

section Slots

variable {q : Nat → BitVec 16} {l : List (BitVec 16)} {n : Nat}

/-- How many bursts three ids stay in balance for, unless all three are equal. -/
def balancedBursts (q : Nat → BitVec 16) : Nat :=
  if q 0 = q 1 then 1 else if q 0 = q 2 then 3 else if q 1 = q 2 then 5 else 65536

theorem balanced_of_same (hsame : ∀ i < n, q i = q 0) : Balanced q n l := by
  intro m hm i hi j hj
  rw [hsame i hi, hsame j hj]
  omega

/-- Which bursts of the first `m` go to slot `i` depends only on which ids are equal. -/
theorem count_of_pattern {p : Nat → Nat}
    (hp : ∀ i < 3, ∀ j < 3, q i = q j ↔ p i = p j) (m : Nat) {i : Nat} (hi : i < 3) :
    Nat.count (fun k => q (k % 65536 % 3) = q i) m
      = Nat.count (fun k => p (k % 65536 % 3) = p i) m := by
  have hmod : ∀ k, k % 65536 % 3 < 3 := fun k => Nat.mod_lt _ (by decide)
  simp only [hp _ (hmod _) i hi]

/-- If the ids stay in balance for `n` bursts and lose it at the next, they do so
in every longer run. -/
theorem balanced_iff_of_pattern {p : Nat → Nat}
    (hserved : ∀ k (hk : k < l.length), l[k] = q (k % 65536 % 3))
    (hp : ∀ i < 3, ∀ j < 3, q i = q j ↔ p i = p j)
    (hgood : ∀ m ≤ n, ∀ i < 3, ∀ j < 3, Nat.count (fun k => p (k % 65536 % 3) = p i) m
      ≤ Nat.count (fun k => p (k % 65536 % 3) = p j) m + 1)
    (hbad : ∃ i < 3, ∃ j < 3, Nat.count (fun k => p (k % 65536 % 3) = p j) (n + 1) + 1
      < Nat.count (fun k => p (k % 65536 % 3) = p i) (n + 1)) :
    Balanced q 3 l ↔ l.length ≤ n := by
  constructor
  · intro hbal
    by_contra hlt
    obtain ⟨i, hi, j, hj, hij⟩ := hbad
    have hm : n + 1 ≤ l.length := by omega
    have hlast := hbal (n + 1) hm i hi j hj
    rw [count_take hserved _ hm, count_take hserved _ hm, count_of_pattern hp _ hi,
      count_of_pattern hp _ hj] at hlast
    omega
  · intro hle m hm i hi j hj
    rw [count_take hserved _ hm, count_take hserved _ hm, count_of_pattern hp _ hi,
      count_of_pattern hp _ hj]
    exact hgood m (Nat.le_trans hm hle) i hi j hj

theorem lt_three {i : Nat} (hi : i < 3) : i = 0 ∨ i = 1 ∨ i = 2 := by omega

/-- Labels that tell one slot from the two others. -/
def oddSlot (odd i : Nat) : Nat := if i = odd then 1 else 0

theorem pattern_of_pairs {p : Nat → Nat} (h01 : q 0 = q 1 ↔ p 0 = p 1)
    (h02 : q 0 = q 2 ↔ p 0 = p 2) (h12 : q 1 = q 2 ↔ p 1 = p 2) :
    ∀ i < 3, ∀ j < 3, q i = q j ↔ p i = p j := by
  intro i hi j hj
  rcases lt_three hi with rfl | rfl | rfl
  · rcases lt_three hj with rfl | rfl | rfl
    · simp
    · exact h01
    · exact h02
  · rcases lt_three hj with rfl | rfl | rfl
    · rw [eq_comm, h01, eq_comm]
    · simp
    · exact h12
  · rcases lt_three hj with rfl | rfl | rfl
    · rw [eq_comm, h02, eq_comm]
    · rw [eq_comm, h12, eq_comm]
    · simp

theorem injOn_two (h01 : q 0 ≠ q 1) : Set.InjOn q (Set.Iio 2) := by
  intro i hi j hj heq
  rw [Set.mem_Iio] at hi hj
  by_contra hij
  rcases (show i = 0 ∧ j = 1 ∨ i = 1 ∧ j = 0 by omega) with ⟨rfl, rfl⟩ | ⟨rfl, rfl⟩
  · exact h01 heq
  · exact h01 heq.symm

theorem injOn_three (h01 : q 0 ≠ q 1) (h02 : q 0 ≠ q 2) (h12 : q 1 ≠ q 2) :
    Set.InjOn q (Set.Iio 3) := by
  have hp : ∀ i < 3, ∀ j < 3, q i = q j ↔ i = j :=
    pattern_of_pairs (p := id) (iff_of_false h01 (by decide)) (iff_of_false h02 (by decide))
      (iff_of_false h12 (by decide))
  exact fun i hi j hj => (hp i hi j hj).mp

/-- Three slots: balanced for as many bursts as their ids allow. -/
theorem balanced_three_iff {l : List (BitVec 16 × Bool)} {c : BitVec 16}
    (h : Follows (fun c => q (c.toNat % 3)) l c) (hall : ∀ x ∈ l, x.2 = true) :
    Balanced q 3 (l.map Prod.fst) ↔ (q 0 = q 1 ∧ q 1 = q 2) ∨ l.length ≤ balancedBursts q := by
  have hserved : ∀ k (hk : k < (l.map Prod.fst).length),
      (l.map Prod.fst)[k] = q (k % 65536 % 3) := by
    intro k hk
    rw [h.served_moving hall k hk, BitVec.toNat_ofNat]
  have hlength : (l.map Prod.fst).length = l.length := List.length_map _
  by_cases h01 : q 0 = q 1
  · by_cases h12 : q 1 = q 2
    · refine iff_of_true (balanced_of_same fun i hi => ?_) (Or.inl ⟨h01, h12⟩)
      rcases lt_three hi with rfl | rfl | rfl
      · rfl
      · exact h01.symm
      · exact (h01.trans h12).symm
    · have hp : ∀ i < 3, ∀ j < 3, q i = q j ↔ oddSlot 2 i = oddSlot 2 j :=
        pattern_of_pairs (iff_of_true h01 rfl) (iff_of_false (h01 ▸ h12) (by decide))
          (iff_of_false h12 (by decide))
      rw [balancedBursts, if_pos h01, or_iff_right fun hsame => h12 hsame.2, ← hlength]
      exact balanced_iff_of_pattern hserved hp (by decide) (by decide)
  · rw [balancedBursts, if_neg h01, or_iff_right fun hsame => h01 hsame.1]
    by_cases h02 : q 0 = q 2
    · have hp : ∀ i < 3, ∀ j < 3, q i = q j ↔ oddSlot 1 i = oddSlot 1 j :=
        pattern_of_pairs (iff_of_false h01 (by decide)) (iff_of_true h02 rfl)
          (iff_of_false (fun h12 => h01 (h02.trans h12.symm)) (by decide))
      rw [if_pos h02, ← hlength]
      exact balanced_iff_of_pattern hserved hp (by decide) (by decide)
    · rw [if_neg h02]
      by_cases h12 : q 1 = q 2
      · have hp : ∀ i < 3, ∀ j < 3, q i = q j ↔ oddSlot 0 i = oddSlot 0 j :=
          pattern_of_pairs (iff_of_false h01 (by decide)) (iff_of_false h02 (by decide))
            (iff_of_true h12 rfl)
        rw [if_pos h12, ← hlength]
        exact balanced_iff_of_pattern hserved hp (by decide) (by decide)
      · have hinj : Set.InjOn q (Set.Iio 3) := injOn_three h01 h02 h12
        rw [if_neg h12, h.balanced_iff (by decide) hinj hall]
        exact or_iff_right (by decide)

end Slots

/-! ## Runs -/

section Bursts

variable [DecidableEq Ctx] [DecidableEq Onic] [DecidableEq Mbuf] {K : Setup Ctx Onic Mbuf}
  {c : Ctx} {launched : Thread Ctx → Bool} {s₀ s : Sys Ctx Onic Mbuf}
  {tr : List (Taken (Sys Ctx Onic Mbuf) (Action Ctx Mbuf))}

/-- A context's bursts are balanced exactly if it has at most two queues, or
three with one id, or has transmitted no more bursts than its ids allow. -/
theorem burstsBalanced_iff (hnb : 1 ≤ (K.ctx c).nbTxQs)
    (hmax : (K.ctx c).nbTxQs ≤ maxQPerForwarder) (hstart : AtLaunch s₀)
    (hrun : Run (step K launched) s₀ tr s) :
    BurstsBalanced K c s.log ↔ (K.ctx c).nbTxQs ≤ 2
      ∨ (txQueue K c 0 = txQueue K c 1 ∧ txQueue K c 1 = txQueue K c 2)
      ∨ (queues (.tx c) s.log).length ≤ balancedBursts (txQueue K c) := by
  have hfollows : Follows (fun currQ => txQueue K c (currQ.toNat % (K.ctx c).nbTxQs))
      (turns (.tx c) s.log) (currQ s (.tx c)) := run_follows hstart hrun (.tx c)
  have hall := run_tx_moves (c := c) hstart hrun
  rw [BurstsBalanced, queues, List.length_map]
  rcases Nat.lt_or_ge 2 (K.ctx c).nbTxQs with hthree | htwo
  · have hnb3 : (K.ctx c).nbTxQs = 3 := Nat.le_antisymm hmax hthree
    rw [hnb3] at hfollows ⊢
    rw [balanced_three_iff hfollows hall]
    exact (or_iff_right (by decide)).symm
  · refine iff_of_true ?_ (Or.inl htwo)
    by_cases hsame : ∀ i < (K.ctx c).nbTxQs, txQueue K c i = txQueue K c 0
    · exact balanced_of_same hsame
    · -- a second id takes a second slot, and 65536 is even
      rw [not_forall₂] at hsame
      obtain ⟨i, hi, hne⟩ := hsame
      have hi0 : i ≠ 0 := fun h => hne (h ▸ rfl)
      have hnb2 : (K.ctx c).nbTxQs = 2 := by omega
      obtain rfl : i = 1 := by omega
      rw [hnb2] at hfollows ⊢
      have hbalanced := hfollows.balanced_iff (by decide) (injOn_two (Ne.symm hne)) hall
      exact hbalanced.mpr (Or.inl (by decide))

end Bursts

/-! ## 65537 bursts -/

open MainContexts

def oneBuffer : Sys (Fin 4) Card (Fin 4) := start {Fin.last 3} (fun _ => blankFrame)

/-- Context 3 between two packets: its one buffer is in the mempool. -/
structure Serving (s : Sys (Fin 4) Card (Fin 4)) : Prop where
  ring : ∃ rings, s.rings = Function.update rings (.mbufRing .onic1) (.rteRingCreate ringSize)
  mempool : s.mempool = {3}
  running : s.stopFlag = fun _ => false
  rx : ∃ rx q, s.rx = Function.update rx 3 ⟨.head, q⟩
  tx : ∃ tx q, s.tx = Function.update tx 3 ⟨.head, q⟩
  alive : s.aborted = false

theorem oneBuffer_serving : Serving oneBuffer :=
  ⟨⟨_, (Function.update_eq_self _ _).symm⟩, rfl, rfl, ⟨_, _, (Function.update_eq_self 3 _).symm⟩,
    ⟨_, _, (Function.update_eq_self 3 _).symm⟩, rfl⟩

/-- One packet more: received, stored, freed, and transmitted. -/
theorem Serving.burst {s₀ s : Sys (Fin 4) Card (Fin 4)} (h : Serving s) {tr}
    (hrun : Run (step threeQueues fun _ => true) s₀ tr s) :
    ∃ tr' s', Run (step threeQueues fun _ => true) s₀ tr' s' ∧ Serving s'
      ∧ (turns (.tx 3) s'.log).length = (turns (.tx 3) s.log).length + 1 := by
  obtain ⟨rings, mempool, nicTx, buf, stopFlag, rx, tx, final, stats, aborted, tag, n, log⟩ := s
  obtain ⟨⟨rings, rfl⟩, rfl, rfl, ⟨rx, q, rfl⟩, ⟨tx, q', rfl⟩, rfl⟩ := h
  have hburst := ((((((((hrun.snoc (a := .rx 3 []) rfl).snoc (a := .rx 3 [(3, blankFrame)])
    rfl).snoc (a := .rx 3 []) rfl).snoc (a := .rx 3 []) rfl).snoc (a := .rx 3 []) rfl).snoc
    (a := .tx 3 0) rfl).snoc (a := .tx 3 0) rfl).snoc (a := .tx 3 1) rfl).snoc (a := .tx 3 0) rfl
  refine ⟨_, _, hburst, ⟨⟨_, rfl⟩, rfl, rfl, ⟨_, _, rfl⟩, ⟨_, _, rfl⟩, rfl⟩, ?_⟩
  -- of the five calls only the last one is a turn of the thread
  change (turns (.tx 3) (log ++ [_] ++ [_] ++ [_] ++ [_] ++ [_])).length = _
  simp only [turns_snoc, List.length_append]
  rfl

theorem exists_bursts (n : Nat) :
    ∃ tr s, Run (step threeQueues fun _ => true) oneBuffer tr s ∧ Serving s
      ∧ (turns (.tx 3) s.log).length = n := by
  induction n with
  | zero => exact ⟨[], oneBuffer, .start, oneBuffer_serving, rfl⟩
  | succ n ih =>
      obtain ⟨tr, s, hrun, hs, hn⟩ := ih
      obtain ⟨tr', s', hrun', hs', hn'⟩ := hs.burst hrun
      exact ⟨tr', s', hrun', hs', by rw [hn', hn]⟩

theorem threeQueues_injOn : Set.InjOn (txQueue threeQueues 3) (Set.Iio 3) :=
  injOn_three (by decide) (by decide) (by decide)

/-- Queues 0, 1 and 2: the burst after the counter wrapped is one too many for queue 0. -/
theorem wrappedCounter_unbalanced :
    ∃ tr s, Run (step threeQueues fun _ => true) oneBuffer tr s ∧ AtLaunch oneBuffer
      ∧ (queues (.tx 3) s.log).length = 65537 ∧ ¬BurstsBalanced threeQueues 3 s.log := by
  obtain ⟨tr, s, hrun, -, hn⟩ := exists_bursts 65537
  have hstart : AtLaunch oneBuffer := ⟨fun t => by cases t <;> rfl, rfl⟩
  refine ⟨tr, s, hrun, hstart, (List.length_map _).trans hn, fun hbal => ?_⟩
  have hfollows : Follows (fun currQ => txQueue threeQueues 3 (currQ.toNat % 3))
      (turns (.tx 3) s.log) (currQ s (.tx 3)) := run_follows hstart hrun (.tx 3)
  have hwraps := (hfollows.balanced_iff (by decide) threeQueues_injOn
    (run_tx_moves hstart hrun)).mp hbal
  rw [hn] at hwraps
  exact absurd hwraps (by decide)

/-- As long as it has not wrapped, the bursts are balanced. -/
theorem burstsBalanced_iff_wrapping :
    ∃ tr s, Run (step threeQueues fun _ => true) oneBuffer tr s
      ∧ (queues (.tx 3) s.log).length = 65536 ∧ BurstsBalanced threeQueues 3 s.log := by
  obtain ⟨tr, s, hrun, -, hn⟩ := exists_bursts 65536
  have hn' : (queues (.tx 3) s.log).length = 65536 := (List.length_map _).trans hn
  have hstart : AtLaunch oneBuffer := ⟨fun t => by cases t <;> rfl, rfl⟩
  refine ⟨tr, s, hrun, hn', (burstsBalanced_iff (by decide) (by decide) hstart hrun).mpr ?_⟩
  rw [hn']
  exact Or.inr (Or.inr (by decide))

end Pipeline

end P2pInspection
