import P2pInspection.Custodians
import P2pInspection.MainContexts

/-!
# Ownership on the latency path

`fpga_rx_final_thread` as the producer of `stats_ring` and
`extract_then_produce_latency_packets` as its consumer, in any order of steps.
The producer's free does not look at the result of its enqueue, and the
consumer takes its burst from the card's `mbuf_ring` and releases nothing.
`latency_ownership_iff` says in which runs neither shows.
-/

namespace P2pInspection

open Custody Transition

namespace Pipeline

variable {Ctx Onic Mbuf : Type}

def latencyThreads [DecidableEq Ctx] (c : Ctx) (t : Thread Ctx) : Bool :=
  t == .final c || t == .stats c

def latencyPath : Finset Holder := {.final, .statsRing, .consumer, .mbufRing, .nicTx, .mempool}

/-- A call of the consumer that has taken its burst holds the oldest entries of
`stats_ring`. -/
def ConsumesStats (K : Setup Ctx Onic Mbuf) (c : Ctx) (s : Sys Ctx Onic Mbuf)
    (a : Action Ctx Mbuf) (s' : Sys Ctx Onic Mbuf) : Prop :=
  ∀ obj, a = .stats c obj → s.stats c = .poll →
    (s'.stats c).owned = (s.rings (K.statsRing c)).entries.take burstSize

/-- What the two threads owe at each step: to free only what they hold, which a
stored frame is not, and to consume from `stats_ring`. -/
structure LatencyDuty (K : Setup Ctx Onic Mbuf) (c : Ctx) (s : Sys Ctx Onic Mbuf)
    (a : Action Ctx Mbuf) (s' : Sys Ctx Onic Mbuf) : Prop where
  frees : FreesOwn K c s a
  consumes : ConsumesStats K c s a s'

/-- The producer is not before the free of a frame it has stored. -/
def FinalSpares (c : Ctx) (s : Sys Ctx Onic Mbuf) : Prop :=
  ∀ m rest, (s.final c).pc ≠ .release 0 m rest

/-- The consumer is not before a dequeue with an entry in one of the rings, nor at
the end of a call that took something. -/
structure StatsSpares (K : Setup Ctx Onic Mbuf) (c : Ctx) (s : Sys Ctx Onic Mbuf) : Prop where
  call : s.stats c = .poll →
    (s.rings (K.mbufRing c)).entries = [] ∧ (s.rings (K.statsRing c)).entries = []
  done : ∀ read, s.stats c = .reading read [] → read = []

def LatencyOk (K : Setup Ctx Onic Mbuf) (s : Sys Ctx Onic Mbuf) : Action Ctx Mbuf → Prop
  | .final c _ => FinalSpares c s
  | .stats c _ => StatsSpares K c s
  | _ => True

variable [DecidableEq Ctx] [DecidableEq Onic] [DecidableEq Mbuf]
  {K : Setup Ctx Onic Mbuf} {c : Ctx} {hs : Finset Holder} {s s' : Sys Ctx Onic Mbuf}

/-! ## The producer -/

omit [DecidableEq Ctx] [DecidableEq Onic] [DecidableEq Mbuf] in
theorem FinalSpares.ret_ne (h : FinalSpares c s) {ret : Int} {m : Mbuf} {rest : List Mbuf}
    (hpc : (s.final c).pc = .release ret m rest) : ret ≠ 0 := by
  rintro rfl
  exact h m rest hpc

theorem FinalStep.owned {burst : List (Mbuf × RteMbuf)} (h : FinalStep K c burst s s')
    (hok : FinalSpares c s) (hfinal : .final ∈ hs) (hring : .statsRing ∈ hs)
    (hpool : .mempool ∈ hs) (hown : Owned K c hs s) : Owned K c hs s' := by
  cases h with
  | stop hpc => exact hown.same fun x => by cases x <;> simp [hpc]
  | enter hpc => exact hown.same fun x => by cases x <;> simp [hpc]
  | idle hpc => exact hown.same fun x => by cases x <;> simp [Sys.received, hpc]
  | receive hpc _ hcan =>
      refine hown.handOver (burst.map Prod.fst) hpool hfinal fun y => ?_
      cases y with
      | mempool => simpa [Sys.received, entry] using Multiset.sub_add_cancel hcan.2.1
      | _ => simp [Sys.received, entry, hpc]
  | done hpc => exact hown.same fun x => by cases x <;> simp [hpc]
  | @store m rest hpc =>
      refine hown.handOver {m} hfinal hring fun y => ?_
      cases y <;> simp [entry, hpc, coe_snoc, cons_eq_add, ← Multiset.cons_coe]
  | reject hpc => exact hown.same fun x => by cases x <;> simp [hpc]
  | @discard m rest hpc =>
      refine hown.handOver {m} hfinal hpool fun y => ?_
      cases y <;> simp [entry, hpc, cons_eq_add, ← Multiset.cons_coe]
  | @release ret m rest hpc =>
      refine hown.handOver {m} hfinal hpool fun y => ?_
      cases y <;> simp [entry, hpc, hok.ret_ne hpc, cons_eq_add, ← Multiset.cons_coe]

theorem FinalStep.not_owned {burst : List (Mbuf × RteMbuf)} (h : FinalStep K c burst s s')
    (hbad : ¬FinalSpares c s) (hpool : .mempool ∈ hs) (hown : Owned K c hs s) :
    ¬Owned K c hs s' := by
  obtain ⟨m, hbad⟩ := not_forall.mp hbad
  obtain ⟨rest, hbad⟩ := not_forall.mp hbad
  have hpc : (s.final c).pc = .release 0 m rest := not_not.mp hbad
  cases h with
  | @release ret m' rest' hpc' =>
      obtain ⟨rfl, rfl, rfl⟩ := FinalPc.release.inj (hpc'.symm.trans hpc)
      refine hown.not_minted (m := m') {m'} hpool (by simp) fun y => ?_
      cases y <;> simp [entry, hpc, cons_eq_add]
  | stop h' | enter h' | idle h' | receive h' | done h' | store h' | reject h' | discard h' =>
      rw [hpc] at h'
      cases h'

/-! ## The consumer -/

theorem StatsStep.owned (h : StatsStep K c s s') (hok : StatsSpares K c s)
    (hown : Owned K c hs s) : Owned K c hs s' := by
  cases h with
  | stop hpc => exact hown.same fun x => by cases x <;> simp [hpc]
  | enter hpc => exact hown.same fun x => by cases x <;> simp [hpc]
  | call hpc =>
      obtain ⟨hempty, -⟩ := hok.call hpc
      exact hown.same fun x => by cases x <;> simp [hpc, hempty]
  | done hpc =>
      obtain rfl := hok.done _ hpc
      exact hown.same fun x => by cases x <;> simp [hpc]
  | abort hpc => exact hown.same fun x => by cases x <;> simp
  | read hpc => exact hown.same fun x => by cases x <;> simp [hpc]

theorem StatsStep.consumes {obj : Timestamps} (h : StatsStep K c s s') (hok : StatsSpares K c s) :
    ConsumesStats K c s (.stats c obj) s' := by
  rintro _ - hpoll
  obtain ⟨hmbuf, hstats⟩ := hok.call hpoll
  cases h with
  | call hpc => simp [hmbuf, hstats]
  | stop hpc | enter hpc | done hpc | abort hpc | read hpc =>
      rw [hpoll] at hpc
      cases hpc

omit [DecidableEq Mbuf] in
theorem take_burst_eq_nil {l : List Mbuf} (h : l.take burstSize = []) : l = [] := by
  rcases List.take_eq_nil_iff.mp h with h32 | hnil
  · cases h32
  · exact hnil

/-- A call with an entry in a ring takes something that is not the head of
`stats_ring`, and the end of a call loses what it took. -/
theorem StatsStep.breaks {obj : Timestamps} (h : StatsStep K c s s')
    (hbad : ¬StatsSpares K c s) (hcons : .consumer ∈ hs) (hmbuf : .mbufRing ∈ hs)
    (hstats : .statsRing ∈ hs) (hown : Owned K c hs s) :
    ¬(ConsumesStats K c s (.stats c obj) s' ∧ Owned K c hs s') := by
  rintro ⟨htakes, hown'⟩
  cases h with
  | call hpc =>
      have heq : (s.rings (K.mbufRing c)).entries.take burstSize
          = (s.rings (K.statsRing c)).entries.take burstSize := by
        simpa using htakes obj rfl hpc
      refine hbad ⟨fun _ => ?_, fun _ h => by simp [hpc] at h⟩
      cases hburst : (s.rings (K.mbufRing c)).entries.take burstSize with
      | nil => exact ⟨take_burst_eq_nil hburst, take_burst_eq_nil (heq.symm.trans hburst)⟩
      | cons x rest =>
          have hx : x ∈ (s.rings (K.mbufRing c)).entries.take burstSize := by simp [hburst]
          have hmem : x ∈ holds K c s .mbufRing := List.mem_of_mem_take hx
          have hmem' : x ∈ holds K c s .statsRing := List.mem_of_mem_take (heq ▸ hx)
          cases (hown x).unique hmbuf hstats hmem hmem'
  | @done read hpc =>
      cases read with
      | nil =>
          refine hbad ⟨fun h => by simp [hpc] at h, fun read h => ?_⟩
          exact (StatsPc.reading.inj (h.symm.trans hpc)).1
      | cons m rest =>
          refine hown.not_lost (m := m) (m :: rest : List Mbuf) hcons (by simp) (fun y => ?_) hown'
          cases y <;> simp [entry, hpc]
  | stop hpc | enter hpc | abort hpc | read hpc =>
      exact hbad ⟨fun h => by simp [hpc] at h, fun _ h => by simp [hpc] at h⟩

/-! ## The two threads together -/

omit [DecidableEq Ctx] [DecidableEq Onic] [DecidableEq Mbuf] in
theorem freesOwn_final (hok : FinalSpares c s) (burst : List (Mbuf × RteMbuf)) :
    FreesOwn K c s (.final c burst) := by
  rintro h m hfree
  simp only [freeing] at hfree
  split at hfree
  · rename_i hpc
    split at hfree
    · cases hfree
    · obtain ⟨rfl, rfl⟩ := Prod.mk.inj (Option.some.inj hfree)
      simp [hpc]
  · rename_i hpc
    obtain ⟨rfl, rfl⟩ := Prod.mk.inj (Option.some.inj hfree)
    simp [hpc, hok.ret_ne hpc]
  · cases hfree

theorem latency_decides (K : Setup Ctx Onic Mbuf) (c : Ctx) :
    Decides (step K (latencyThreads c)) (fun _ => True) (Owned K c latencyPath)
      (LatencyDuty K c) (LatencyOk K) := by
  refine ⟨fun _ _ _ _ _ => trivial, fun s a s' _ hown hok hstep => ?_,
    fun s a s' _ hown hbad hstep => ?_⟩
  · cases step_cases hstep with
    | final hl h =>
        obtain rfl : _ = c := by simpa [latencyThreads] using hl
        exact ⟨⟨freesOwn_final hok _, nofun⟩,
          h.owned hok (by decide) (by decide) (by decide) hown⟩
    | stats hl h =>
        obtain rfl : _ = c := by simpa [latencyThreads] using hl
        exact ⟨⟨nofun, h.consumes hok⟩, h.owned hok hown⟩
    | rx hl => simp [latencyThreads] at hl
    | tx hl => simp [latencyThreads] at hl
    | transmitted hm =>
        exact ⟨⟨nofun, nofun⟩, hown.transmitted hm (by decide) (by decide)⟩
    | stop => exact ⟨⟨nofun, nofun⟩, hown.same fun x => by cases x <;> rfl⟩
  · cases step_cases hstep with
    | final hl h =>
        obtain rfl : _ = c := by simpa [latencyThreads] using hl
        exact fun hboth => h.not_owned hbad (by decide) hown hboth.2
    | stats hl h =>
        obtain rfl : _ = c := by simpa [latencyThreads] using hl
        exact fun hboth => h.breaks hbad (by decide) (by decide) (by decide) hown
          ⟨hboth.1.consumes, hboth.2⟩
    | rx | tx | transmitted | stop => exact absurd trivial hbad

/-- Along a run every buffer stays in one pair of hands, and both threads do
their duty, exactly when no stored frame is freed by the producer and every
call of the consumer finds both rings empty. -/
theorem latency_ownership_iff (K : Setup Ctx Onic Mbuf) (c : Ctx) {s₀ s : Sys Ctx Onic Mbuf}
    {tr : List (Taken (Sys Ctx Onic Mbuf) (Action Ctx Mbuf))}
    (hown : Owned K c latencyPath s₀) (hrun : Run (step K (latencyThreads c)) s₀ tr s) :
    Always (Owned K c latencyPath) (LatencyDuty K c) tr s
      ↔ ∀ t ∈ tr, LatencyOk K t.pre t.act :=
  hrun.always_iff (latency_decides K c) trivial hown

/-! ## One VLAN frame on port 3 -/

open MainContexts

def vlanFrame : RteMbuf :=
  ⟨fun k => if k = 12 then 0x81#8 else 0x00#8, 64, 1984⟩

theorem storedFrame_freed :
    isVlanPacket .little vlanFrame.bytes = true
      ∧ Owned (setup Fin.val) 3 latencyPath fourBuffers
      ∧ ∃ tr s, Run (step (setup Fin.val) (latencyThreads 3)) fourBuffers tr s
        ∧ ¬Owned (setup Fin.val) 3 latencyPath s := by
  refine ⟨(isVlanPacket_iff ..).mpr ⟨rfl, rfl⟩, fun m => ?_, _, _,
    (((Run.start.snoc (a := .final 3 []) rfl).snoc (a := .final 3 [(3, vlanFrame)])
    rfl).snoc (a := .final 3 []) rfl).snoc (a := .final 3 []) rfl, fun h => ?_⟩
  · rw [heldOnce_iff]
    decide +revert
  · exact absurd (heldOnce_iff.mp (h 3)) (by decide)

/-- A frame without a VLAN tag, and a call of the consumer. -/
theorem latency_ownership_iff_plain :
    ∃ tr s, Run (step (setup Fin.val) (latencyThreads 3)) fourBuffers tr s ∧ 3 ∈ s.mempool
      ∧ Always (Owned (setup Fin.val) 3 latencyPath) (LatencyDuty (setup Fin.val) 3) tr s := by
  have hrun : Run (step (setup Fin.val) (latencyThreads 3)) fourBuffers _ _ :=
    ((((Run.start.snoc (a := .final 3 []) rfl).snoc (a := .final 3 [(3, blankFrame)]) rfl).snoc
      (a := .final 3 []) rfl).snoc (a := .stats 3 ⟨fun _ => 0#64, fun _ => 0#64⟩) rfl).snoc
        (a := .stats 3 ⟨fun _ => 0#64, fun _ => 0#64⟩) rfl
  refine ⟨_, _, hrun, by decide,
    (latency_ownership_iff (setup Fin.val) 3 (fun m => ?_) hrun).mpr ?_⟩
  · rw [heldOnce_iff]
    decide +revert
  · intro t ht
    simp only [List.nil_append, List.cons_append, List.mem_cons, List.not_mem_nil, or_false] at ht
    rcases ht with rfl | rfl | rfl | rfl | rfl
    · exact nofun
    · exact nofun
    · exact nofun
    · exact ⟨nofun, nofun⟩
    · exact ⟨fun _ => ⟨rfl, rfl⟩, nofun⟩

end Pipeline

end P2pInspection
