import P2pInspection.P2p322
import P2pInspection.SyncCounting

/-!
# Detections across the clock domains

A detection is a cycle of one injector, on the clock of its port, in which it
asserts `o_sync_detected`. The OR of all injectors is sampled by two flip-flops
on `cmac_clk[0]`, and each sample that is high becomes one increment of
`nb_sync`. To say which detections an increment comes from, the box is run with
the detections behind each register written beside it (`Traced`).

`countedOnce_iff` is what the crossing does for any edges of any clocks: a
detection leads to one increment, and not to another's, exactly when one edge
of `cmac_clk[0]` fell in its cycle and no other injector asserted there.
-/

namespace P2pInspection

open StreamFifo TimestampInject

namespace P2p322

/-- Cycle number `cycle` of the clock of this port, at this injector. -/
structure Detection (n : Nat) where
  port : Fin (n + 1)
  dir : Direction
  cycle : Nat
deriving Repr, DecidableEq

/-- The box, the number of edges of each clock so far, the detections behind
the two flip-flops, those at each edge of `cmac_clk[0]` and behind each
increment of `nb_sync`, and the detections whose cycle is over. -/
structure Traced (slice : Slice Beat) (n : Nat) where
  box : Box slice n
  cycle : Fin (n + 1) → Nat
  inMeta : List (Detection n)
  inR : List (Detection n)
  samples : List (List (Detection n))
  increments : List (List (Detection n))
  ended : List (Detection n)

namespace Traced

variable {slice : Slice Beat} {n : Nat}

def asserting (t : Traced slice n) : List (Detection n) :=
  (List.finRange (n + 1)).flatMap fun i =>
    [Direction.tx, Direction.rx].filterMap fun dir =>
      if (t.box.path i dir).oSyncDetected dir then some ⟨i, dir, t.cycle i⟩ else none

def step (t : Traced slice n) (e : Event n) : Traced slice n where
  box := t.box.step e
  cycle i := if e.cmacClk i then t.cycle i + 1 else t.cycle i
  inMeta := if e.cmacClk ⟨0, n.succ_pos⟩ then t.asserting else t.inMeta
  inR := if e.cmacClk ⟨0, n.succ_pos⟩ then t.inMeta else t.inR
  samples := if e.cmacClk ⟨0, n.succ_pos⟩ then t.samples ++ [t.asserting] else t.samples
  increments :=
    if (t.box.step e).clkSyncPulse.regNbSync = t.box.clkSyncPulse.regNbSync then t.increments
    else t.increments ++ [t.inR]
  ended := t.ended ++ t.asserting.filter fun d => e.cmacClk d.port

def run (t : Traced slice n) (es : List (Event n)) : Traced slice n := es.foldl step t

def start (b : Box slice n) : Traced slice n := ⟨b, fun _ => 0, [], [], [], [], []⟩

/-- The box as a slave after its reset; the other registers have none. -/
def released (slice : Slice Beat) (inPacket : Fin (n + 1) → Direction → Bool)
    (combinedMeta combinedR : Bool) : Traced slice n :=
  start (Box.released slice inPacket combinedMeta combinedR
    (ClkSyncPulse.settled .slave ClkSyncPulse.defaultPeriod))

/-- The entries this detection is in. -/
def having (d : Detection n) (l : List (List (Detection n))) : List (List (Detection n)) :=
  l.filter (d ∈ ·)

/-- The detection led to one increment of `nb_sync`, which no other led to. -/
def CountedOnce (t : Traced slice n) (d : Detection n) : Prop := having d t.increments = [[d]]

/-- One edge of `cmac_clk[0]` fell in its cycle, and no other injector asserted there. -/
def SampledAlone (t : Traced slice n) (d : Detection n) : Prop := having d t.samples = [[d]]

instance (t : Traced slice n) (d : Detection n) : Decidable (t.CountedOnce d) :=
  inferInstanceAs (Decidable (_ = _))

instance (t : Traced slice n) (d : Detection n) : Decidable (t.SampledAlone d) :=
  inferInstanceAs (Decidable (_ = _))

end Traced

/-- At most two edges of clock `j` between two consecutive edges of clock `i`. -/
def KeepsPace {n : Nat} (i j : Fin (n + 1)) (es : List (Event n)) : Prop :=
  ∀ between ∈ es.splitOnP fun e => e.cmacClk i, between.countP (fun e => e.cmacClk j) ≤ 2

instance {n : Nat} (i j : Fin (n + 1)) (es : List (Event n)) : Decidable (KeepsPace i j es) :=
  inferInstanceAs (Decidable (∀ _ ∈ _, _))

namespace Traced

variable {slice : Slice Beat} {n : Nat} {t t₀ : Traced slice n} {d : Detection n}

/-! ## What the OR and the counter see -/

theorem mem_asserting :
    d ∈ t.asserting
      ↔ (t.box.path d.port d.dir).oSyncDetected d.dir = true ∧ t.cycle d.port = d.cycle := by
  obtain ⟨i, dir, k⟩ := d
  simp only [asserting, List.mem_flatMap, List.mem_filterMap, List.mem_finRange, true_and]
  constructor
  · rintro ⟨j, dir', -, hsome⟩
    split at hsome
    · rename_i hdet
      obtain ⟨rfl, rfl, rfl⟩ := Detection.mk.inj (Option.some.inj hsome)
      exact ⟨hdet, rfl⟩
    · cases hsome
  · rintro ⟨hdet, rfl⟩
    exact ⟨i, dir, by cases dir <;> simp, by rw [if_pos hdet]⟩

theorem anySyncDetected_eq : t.box.anySyncDetected = !t.asserting.isEmpty := by
  rw [Bool.eq_iff_iff, Bool.not_eq_true', List.isEmpty_eq_false_iff_exists_mem,
    Box.anySyncDetected, List.any_eq_true]
  constructor
  · rintro ⟨i, -, hdet⟩
    rcases Bool.or_eq_true .. |>.mp hdet with htx | hrx
    · exact ⟨⟨i, .tx, t.cycle i⟩, mem_asserting.mpr ⟨htx, rfl⟩⟩
    · exact ⟨⟨i, .rx, t.cycle i⟩, mem_asserting.mpr ⟨hrx, rfl⟩⟩
  · rintro ⟨⟨i, dir, k⟩, hd⟩
    obtain ⟨hdet, -⟩ := mem_asserting.mp hd
    refine ⟨i, List.mem_finRange i, Bool.or_eq_true .. |>.mpr ?_⟩
    cases dir with
    | tx => exact Or.inl hdet
    | rx => exact Or.inr hdet

theorem having_append (l l' : List (List (Detection n))) :
    having d (l ++ l') = having d l ++ having d l' := List.filter_append ..

theorem having_of_notMem {entry : List (Detection n)} (h : d ∉ entry) : having d [entry] = [] := by
  simp [having, h]

/-! ## The two flip-flops and the counter -/

/-- Every sample is an increment, or in a flip-flop that will make it one. -/
structure Pipelined (t : Traced slice n) : Prop where
  slave : ClkSyncPulse.SlaveAt ClkSyncPulse.defaultPeriod t.box.clkSyncPulse
  nbSync : t.box.clkSyncPulse.regNbSync = BitVec.ofNat 32 t.increments.length
  metaHigh : t.inMeta ≠ [] → t.box.syncDetectedCombinedMeta = true
  rHigh : t.inR ≠ [] → t.box.syncDetectedCombinedR = true
  kept : ∀ d, having d t.increments ++ having d [t.inR] ++ having d [t.inMeta]
    = having d t.samples

theorem pipelined_released (inPacket : Fin (n + 1) → Direction → Bool)
    (combinedMeta combinedR : Bool) :
    (released slice inPacket combinedMeta combinedR).Pipelined :=
  ⟨⟨ClkSyncPulse.steady_settled _ _, rfl, rfl⟩, rfl, fun h => absurd rfl h,
    fun h => absurd rfl h, fun _ => rfl⟩

theorem step_still {e : Event n} (hclk : e.cmacClk 0 = false) :
    (t.step e).box.clkSyncPulse = t.box.clkSyncPulse ∧ (t.step e).increments = t.increments
      ∧ (t.step e).inMeta = t.inMeta ∧ (t.step e).inR = t.inR
      ∧ (t.step e).samples = t.samples := by
  simp [step, Box.step, hclk]

theorem step_samples {e : Event n} (hclk : e.cmacClk 0 = true) :
    (t.step e).inMeta = t.asserting ∧ (t.step e).inR = t.inMeta
      ∧ (t.step e).samples = t.samples ++ [t.asserting] := by
  simp [step, hclk]

/-- At an edge of `cmac_clk[0]` a slave counts what the second flip-flop holds. -/
theorem Pipelined.step_counts (h : t.Pipelined) {e : Event n} (hclk : e.cmacClk 0 = true) :
    (t.step e).increments
        = (if t.box.syncDetectedCombinedR then t.increments ++ [t.inR] else t.increments)
      ∧ (t.step e).box.clkSyncPulse.regNbSync
        = BitVec.ofNat 32 (t.step e).increments.length := by
  have hedge := h.slave.nbSync_edge t.box.syncDetectedCombinedR
  have hclock : (t.box.step e).clkSyncPulse
      = ClkSyncPulse.edge .slave ClkSyncPulse.defaultPeriod true t.box.clkSyncPulse
          t.box.syncDetectedCombinedR := by
    simp [Box.step, hclk]
  simp only [step, hclock, hedge]
  cases t.box.syncDetectedCombinedR with
  | true => simp [h.nbSync, BitVec.ofNat_add]
  | false => simp [h.nbSync]

theorem Pipelined.step (h : t.Pipelined) (e : Event n) : (t.step e).Pipelined := by
  cases hclk : e.cmacClk 0 with
  | false =>
      obtain ⟨hclock, hinc, hmeta, hr, hsamples⟩ := step_still (t := t) hclk
      refine ⟨hclock ▸ h.slave, ?_, ?_, ?_, fun d => ?_⟩
      · rw [hclock, hinc, h.nbSync]
      · rw [hmeta]
        simpa [Traced.step, Box.step, hclk] using h.metaHigh
      · rw [hr]
        simpa [Traced.step, Box.step, hclk] using h.rHigh
      · rw [hinc, hmeta, hr, hsamples, h.kept]
  | true =>
      obtain ⟨hinc, hnb⟩ := h.step_counts hclk
      obtain ⟨hmeta, hr, hsamples⟩ := step_samples (t := t) hclk
      refine ⟨?_, hnb, ?_, ?_, fun d => ?_⟩
      · simpa [Traced.step, Box.step, hclk] using h.slave.edge t.box.syncDetectedCombinedR
      · rw [hmeta]
        simp [Traced.step, Box.step, hclk, anySyncDetected_eq]
      · rw [hr]
        simpa [Traced.step, Box.step, hclk] using h.metaHigh
      · have hcounted : having d (t.step e).increments
            = having d t.increments ++ having d [t.inR] := by
          rw [hinc]
          split
          · exact having_append _ _
          · rename_i hlow
            have hnil : t.inR = [] := by
              by_contra hne
              exact hlow (h.rHigh hne)
            rw [hnil, having_of_notMem List.not_mem_nil, List.append_nil]
        rw [hcounted, hmeta, hr, hsamples, having_append, ← h.kept d]

theorem run_snoc (t : Traced slice n) (es : List (Event n)) (e : Event n) :
    t.run (es ++ [e]) = (t.run es).step e := by
  simp [run]

theorem run_append (t : Traced slice n) (es es' : List (Event n)) :
    t.run (es ++ es') = (t.run es).run es' := List.foldl_append ..

theorem Pipelined.run (h : t.Pipelined) (es : List (Event n)) : (t.run es).Pipelined := by
  induction es generalizing t with
  | nil => exact h
  | cons e es ih => exact ih (h.step e)

/-! ## A detection that is over -/

theorem step_cycle (t : Traced slice n) (e : Event n) (i : Fin (n + 1)) :
    (t.step e).cycle i = if e.cmacClk i then t.cycle i + 1 else t.cycle i := rfl

theorem cycle_le_step (t : Traced slice n) (e : Event n) (i : Fin (n + 1)) :
    t.cycle i ≤ (t.step e).cycle i := by
  rw [step_cycle]
  split <;> omega

/-- The clock of the detection's port has had its edge. -/
def Over (t : Traced slice n) (d : Detection n) : Prop := d.cycle < t.cycle d.port

theorem Over.step (h : t.Over d) (e : Event n) : (t.step e).Over d :=
  Nat.lt_of_lt_of_le h (cycle_le_step t e d.port)

theorem Over.notMem_asserting (h : t.Over d) : d ∉ t.asserting := by
  intro hd
  rw [Over, (mem_asserting.mp hd).2] at h
  exact Nat.lt_irrefl _ h

theorem over_of_ended (b : Box slice n) (es : List (Event n)) :
    ∀ d ∈ ((start b).run es).ended, ((start b).run es).Over d := by
  induction es using List.reverseRecOn with
  | nil => exact nofun
  | append_singleton es e ih =>
      intro d hd
      rw [run_snoc] at hd ⊢
      rcases List.mem_append.mp hd with hbefore | hnow
      · exact (ih d hbefore).step e
      · obtain ⟨hassert, hclk⟩ := List.mem_filter.mp hnow
        have hcycle := (mem_asserting.mp hassert).2
        rw [Over, step_cycle, if_pos hclk, hcycle]
        exact Nat.lt_succ_self _

/-- After `k` edges of `cmac_clk[0]` behind its end a detection is in no new
sample, and has left the flip-flops one by one. -/
structure Passed (t₀ : Traced slice n) (d : Detection n) (k : Nat) (t : Traced slice n) :
    Prop where
  isOver : t.Over d
  samples : having d t.samples = having d t₀.samples
  inMeta : 1 ≤ k → d ∉ t.inMeta
  inR : 2 ≤ k → d ∉ t.inR

theorem Passed.step {k : Nat} (h : Passed t₀ d k t) (e : Event n) :
    Passed t₀ d (if e.cmacClk 0 then k + 1 else k) (t.step e) := by
  cases hclk : e.cmacClk 0 with
  | false =>
      obtain ⟨-, -, hmeta, hr, hsamples⟩ := step_still (t := t) hclk
      refine ⟨h.isOver.step e, ?_, ?_, ?_⟩
      · rw [hsamples, h.samples]
      · rw [hmeta]
        exact h.inMeta
      · rw [hr]
        exact h.inR
  | true =>
      have hnew := h.isOver.notMem_asserting
      obtain ⟨hmeta, hr, hsamples⟩ := step_samples (t := t) hclk
      refine ⟨h.isOver.step e, ?_, ?_, ?_⟩
      · rw [hsamples, having_append, having_of_notMem hnew, List.append_nil, h.samples]
      · intro _
        rwa [hmeta]
      · intro hk
        rw [hr]
        exact h.inMeta (by simpa using hk)

theorem Passed.run (h : t.Over d) (es : List (Event n)) :
    Passed t d (es.countP fun e => e.cmacClk 0) (t.run es) := by
  induction es using List.reverseRecOn with
  | nil => exact ⟨h, rfl, nofun, nofun⟩
  | append_singleton es e ih =>
      have hstep := ih.step e
      rw [run_snoc, List.countP_append, List.countP_singleton]
      cases hclk : e.cmacClk 0 with
      | true => simpa [hclk] using hstep
      | false => simpa [hclk] using hstep

/-! ## What a detection leads to -/

/-- Two edges of `cmac_clk[0]` behind its end, the increments a detection led
to are the samples taken in its cycle. -/
theorem increments_eq_samples (h : t.Pipelined) (hover : t.Over d) {es : List (Event n)}
    (hes : 2 ≤ es.countP fun e => e.cmacClk 0) :
    having d (t.run es).increments = having d t.samples := by
  have hpassed := Passed.run hover es
  have hkept := (h.run es).kept d
  rw [having_of_notMem (hpassed.inMeta (by omega)), having_of_notMem (hpassed.inR hes),
    List.append_nil, List.append_nil] at hkept
  rw [hkept, hpassed.samples]

/-- A detection that is over after `es` has led to one increment of its own, two
edges of `cmac_clk[0]` later, exactly when it was sampled once and alone. -/
theorem countedOnce_iff (inPacket : Fin (n + 1) → Direction → Bool) (combinedMeta combinedR : Bool)
    (es es' : List (Event n)) (hes' : 2 ≤ es'.countP fun e => e.cmacClk 0) (d : Detection n)
    (hd : d ∈ ((released slice inPacket combinedMeta combinedR).run es).ended) :
    ((released slice inPacket combinedMeta combinedR).run (es ++ es')).CountedOnce d
      ↔ ((released slice inPacket combinedMeta combinedR).run es).SampledAlone d := by
  have hpipe : ((released slice inPacket combinedMeta combinedR).run es).Pipelined :=
    (pipelined_released inPacket combinedMeta combinedR).run es
  have hover := over_of_ended _ es d hd
  rw [CountedOnce, SampledAlone, run_append, increments_eq_samples hpipe hover hes']

theorem nbSync_run (inPacket : Fin (n + 1) → Direction → Bool) (combinedMeta combinedR : Bool)
    (es : List (Event n)) :
    ((released slice inPacket combinedMeta combinedR).run es).box.clkSyncPulse.regNbSync
      = BitVec.ofNat 32
        ((released slice inPacket combinedMeta combinedR).run es).increments.length :=
  ((pipelined_released inPacket combinedMeta combinedR).run es).nbSync

/-! ## Frames at two ports -/

/-- Edges of these clocks, with a sync frame coming from the CMAC of each sender. -/
def crossingEvent (clk0 clk1 : Bool) (senders : List (Fin 2)) : Event 1 :=
  ⟨fun i => if i = 0 then clk0 else clk1,
    fun i dir => ⟨decide (i ∈ senders) && dir == .rx, unstampedBeat, true⟩⟩

def twoPorts : Traced (skid (oneBeat 0#512 false)) 1 := released _ (fun _ _ => false) false false

/-- In step with the other clock, and with time for the flip-flops. -/
def settling : List (Event 1) :=
  [crossingEvent true false [], crossingEvent false true [], crossingEvent true false [],
    crossingEvent false true []]

/-- The cycle is over before `cmac_clk[0]` has an edge. -/
def missedEdges : List (Event 1) := [crossingEvent false true [1], crossingEvent false true []]

/-- Two edges of `cmac_clk[0]` fall in the cycle. -/
def doubledEdges : List (Event 1) :=
  [crossingEvent false true [1], crossingEvent true false [], crossingEvent true false [],
    crossingEvent false true []]

/-- Both ports at once. -/
def mergedEdges : List (Event 1) := [crossingEvent true true [0, 1], crossingEvent true true []]

/-- With the clocks in pace, the frame of port 1 is not counted once. -/
def Miscounted (es : List (Event 1)) : Prop :=
  KeepsPace 0 1 (es ++ settling) ∧ KeepsPace 1 0 (es ++ settling)
    ∧ 2 ≤ settling.countP (fun e => e.cmacClk 0) ∧ ⟨1, .rx, 1⟩ ∈ (twoPorts.run es).ended
    ∧ ¬(twoPorts.run (es ++ settling)).CountedOnce ⟨1, .rx, 1⟩

instance (es : List (Event 1)) : Decidable (Miscounted es) :=
  inferInstanceAs (Decidable (_ ∧ _ ∧ _ ∧ _ ∧ ¬_))

/-- A sync frame that is never counted, one that is counted twice, and two that
are counted as one. -/
theorem crossing_miscounts :
    Miscounted missedEdges ∧ Miscounted doubledEdges ∧ Miscounted mergedEdges := by
  decide +kernel

/-- One frame, on clocks that rise together. -/
theorem countedOnce_iff_aligned :
    (twoPorts.run ([crossingEvent true true [1], crossingEvent true true []]
      ++ [crossingEvent true true [], crossingEvent true true []])).CountedOnce ⟨1, .rx, 1⟩ :=
  (countedOnce_iff (fun _ _ => false) false false
    [crossingEvent true true [1], crossingEvent true true []]
    [crossingEvent true true [], crossingEvent true true []] (by decide) ⟨1, .rx, 1⟩
    (by decide +kernel)).mpr (by decide +kernel)

end Traced

end P2p322

end P2pInspection
