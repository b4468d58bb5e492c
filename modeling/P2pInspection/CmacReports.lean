import P2pInspection.CmacReaders

/-!
# What `run_cmac_producer` reports of the traffic

In each round `run_cmac_producer` takes a snapshot for the (R) values of its
message and one for the (T) values, each with a tick of its own. The card has
two CMACs, and every port id but 0 stands for the second one, so both snapshots
may be of one CMAC. The traffic is whatever the two CMACs count between the
accesses to them; of a CMAC it is assumed what `Cmac` says.
-/

namespace P2pInspection

open CallTrace CounterLatch CmacStats StatsLog CmacSource CmacReaders

namespace CmacReports

inductive Direction where
  | rx | tx
deriving Repr, DecidableEq

instance : Fintype Direction := ⟨{.rx, .tx}, fun d => by cases d <;> decide⟩

/-- The register accesses of the producer. -/
def effects : RegLog Effect where
  record := .reg
  reg?
    | .reg c => some c
    | _ => none
  reg?_record _ := rfl

/-- The records of a direction, in the messages among these calls. -/
def records (d : Direction) (calls : List Effect) : List CmacStats :=
  calls.filterMap fun
    | .produced msg => (cmacStats? msg).map fun x =>
        match d with
        | .rx => x.1
        | .tx => x.2
    | _ => none

section Producer

variable {Card : Type} (C : Cards Card) (coreId : BitVec 32) (ctx : ForwardingContext Card)

def portIdOf : Direction → BitVec 16
  | .rx => rxPortId C ctx
  | .tx => txPortId C ctx

/-- The CMAC that the values of a direction are read from. -/
def cmacOf (d : Direction) : Bool := isFirst (portIdOf C ctx d).toNat

/-- The accesses to a CMAC for a direction in a round. -/
def directionSchedule (k : Bool) (d : Direction) : List (Direction × Access CmacField) :=
  if cmacOf C ctx d = k then (snapshot totalKinds).map fun a => (d, a) else []

def roundSchedule (k : Bool) : List (Direction × Access CmacField) :=
  directionSchedule C ctx k .rx ++ directionSchedule C ctx k .tx

def producerSchedule : Nat → Bool → List (Direction × Access CmacField)
  | 0, _ => []
  | n + 1, k => roundSchedule C ctx k ++ producerSchedule n k

theorem producerSchedule_succ (n : Nat) (k : Bool) : producerSchedule C ctx (n + 1) k
    = directionSchedule C ctx k .rx
      ++ (directionSchedule C ctx k .tx ++ producerSchedule C ctx n k) :=
  List.append_assoc _ _ _

variable (values : Bool → List (CmacField → BitVec 32)) {done : Bool → Nat}

/-- A round of the producer on the registers of the card. -/
def round (tsc : BitVec 64) : Produce Unit :=
  cmacRound (effects.latchBus (onic C ctx.rxOnic) values) (onic C) coreId ctx tsc

/-- How many accesses have been made behind a round. -/
def doneAfter (done : Bool → Nat) : Bool → Nat :=
  RegLog.further (RegLog.further done (cmacOf C ctx .rx) 9) (cmacOf C ctx .tx) 9

/-- Where a direction's snapshot of the next round begins. -/
def startOf (done : Bool → Nat) : Direction → Nat
  | .rx => done (cmacOf C ctx .rx)
  | .tx => RegLog.further done (cmacOf C ctx .rx) 9 (cmacOf C ctx .tx)

/-- The calls of a round. -/
def roundCalls (rxStats txStats : CmacStats) (tsc : BitVec 64) (msg : Message) : List Effect :=
  totals (onic C ctx.rxOnic) (onic C ctx.rxOnic) (rxPortId C ctx).toNat (txPortId C ctx).toNat
    rxStats txStats ++ [.tscCycles tsc, .produced msg]

theorem accesses_roundCalls (k : Bool) (rxStats txStats : CmacStats) (tsc : BitVec 64)
    (msg : Message) :
    effects.accesses (onic C ctx.rxOnic) k (roundCalls C ctx rxStats txStats tsc msg)
      = (roundSchedule C ctx k).map Prod.snd := by
  have hreport : effects.accesses (onic C ctx.rxOnic) k [.tscCycles tsc, .produced msg] = [] := rfl
  have hsnapshot : ∀ (d : Direction) (stats : CmacStats), effects.accesses (onic C ctx.rxOnic) k
      (((onic C ctx.rxOnic).cmacAccesses (portIdOf C ctx d).toNat stats).map .reg)
        = (directionSchedule C ctx k d).map Prod.snd := by
    intro d stats
    refine (RegLog.accesses_cmacAccesses (R := effects) k _ stats).trans ?_
    change (if cmacOf C ctx d = k then _ else _) = _
    unfold directionSchedule
    by_cases hk : cmacOf C ctx d = k
    · rw [if_pos hk, if_pos hk, List.map_map]
      exact (List.map_id _).symm
    · rw [if_neg hk, if_neg hk, List.map_nil]
  rw [roundCalls, totals, List.map_append, RegLog.accesses_append, RegLog.accesses_append,
    hreport, List.append_nil]
  refine (congrArg₂ (· ++ ·) (hsnapshot .rx rxStats) (hsnapshot .tx txStats)).trans ?_
  rw [roundSchedule, List.map_append]

theorem records_roundCalls (d : Direction) {rxStats txStats : CmacStats} (tsc : BitVec 64)
    {msg : Message} (hmsg : cmacStats? msg = some (rxStats, txStats)) :
    records d (roundCalls C ctx rxStats txStats tsc msg)
      = match d with
        | .rx => [rxStats]
        | .tx => [txStats] := by
  cases d <;> simp [records, roundCalls, totals, hmsg]

theorem round_run (tsc : BitVec 64) {s : Logged StatsLog Effect}
    (hs : effects.At (onic C ctx.rxOnic) done s.calls) :
    ∃ s' new, round C coreId ctx values tsc s = .ok () s' ∧ s'.calls = s.calls ++ new
      ∧ effects.At (onic C ctx.rxOnic) (doneAfter C ctx done) s'.calls
      ∧ (∀ k, effects.accesses (onic C ctx.rxOnic) k new = (roundSchedule C ctx k).map Prod.snd)
      ∧ ∀ d, records d new
        = [latched ((values (cmacOf C ctx d)).drop (startOf C ctx done d))] := by
  obtain ⟨rxStats, s₁, hrx, -, hcalls₁, hat₁, hrun₁⟩ :=
    getCmacStats_latched (ε := Timestamps.Abort) values (rxPortId C ctx).toNat hs
  obtain ⟨txStats, s₂, htx, -, hcalls₂, hat₂, hrun₂⟩ :=
    getCmacStats_latched (ε := Timestamps.Abort) values (txPortId C ctx).toNat hat₁
  let msg : Message := .cmac coreId (C.ports ctx.rxOnic ctx.rxPort)
    (C.ports ctx.txOnic ctx.txPort) rxStats txStats
    (getTscDeltaNs s₂.state.oldTime tsc s₂.state.hz)
  refine ⟨_, roundCalls C ctx rxStats txStats tsc msg,
    (bind_ok hrun₁).trans ((bind_ok hrun₂).trans (report_run tsc _ s₂)), ?_, ?_, ?_, ?_⟩
  · rw [hcalls₂, hcalls₁]
    simp only [roundCalls, totals, List.map_append, List.append_assoc]
    rfl
  · intro k
    rw [RegLog.accesses_append]
    exact (congrArg List.length (List.append_nil _)).trans (hat₂ k)
  · exact fun k => accesses_roundCalls C ctx k rxStats txStats tsc msg
  · intro d
    rw [records_roundCalls C ctx d tsc (rfl : cmacStats? msg = some (rxStats, txStats))]
    cases d with
    | rx => rw [hrx]; rfl
    | tx => rw [htx]; rfl

/-- The accesses of one direction in a round. -/
theorem gathered_direction (d e : Direction) {k : Bool} {m : Nat} (f : CmacField)
    (l : List (Direction × Access CmacField)) (vals : List (CmacField → Nat)) :
    gathered (only d) f (directionSchedule C ctx k e ++ l) (vals.drop m)
      = (if e = d ∧ cmacOf C ctx e = k then tally f (snapshot totalKinds) (vals.drop m) else 0)
        + gathered (only d) f l (vals.drop (if cmacOf C ctx e = k then m + 9 else m)) := by
  unfold directionSchedule
  by_cases hk : cmacOf C ctx e = k
  · rw [if_pos hk, gathered_append, if_pos hk, List.drop_drop]
    simp only [only, decide_eq_true_eq, hk, and_true]
    rfl
  · rw [if_neg hk, if_neg hk, if_neg fun h => hk h.2, List.nil_append, Nat.zero_add]

theorem gathered_round (d : Direction) (f : CmacField) (l : List (Direction × Access CmacField))
    (vals : List (CmacField → Nat)) :
    gathered (only d) f (roundSchedule C ctx (cmacOf C ctx d) ++ l)
        (vals.drop (done (cmacOf C ctx d)))
      = tally f (snapshot totalKinds) (vals.drop (startOf C ctx done d))
        + gathered (only d) f l (vals.drop (doneAfter C ctx done (cmacOf C ctx d))) := by
  rw [roundSchedule, List.append_assoc, gathered_direction, gathered_direction]
  cases d with
  | rx =>
      by_cases hsame : cmacOf C ctx .tx = cmacOf C ctx .rx
      · simp [startOf, doneAfter, hsame]
      · simp [startOf, doneAfter, RegLog.further_of_ne _ (Ne.symm hsame), hsame]
  | tx =>
      by_cases hsame : cmacOf C ctx .rx = cmacOf C ctx .tx
      · simp [startOf, doneAfter, hsame]
      · simp [startOf, doneAfter, RegLog.further_of_ne _ (Ne.symm hsame), hsame]

theorem rounds_run (latch : Bool → List (CmacField → Nat)) (rounds : List (BitVec 64))
    (done : Bool → Nat) {s : Logged StatsLog Effect}
    (hvalues : ∀ k, values k = (latch k).map words)
    (hs : effects.At (onic C ctx.rxOnic) done s.calls) :
    ∃ s' new, rounds.forM (round C coreId ctx values) s = .ok () s' ∧ s'.calls = s.calls ++ new
      ∧ (∀ k, effects.accesses (onic C ctx.rxOnic) k new
        = (producerSchedule C ctx rounds.length k).map Prod.snd)
      ∧ ∀ d, ∀ f ∈ totalKinds, fieldSum (records d new) f % 2 ^ 32
        = gathered (only d) f (producerSchedule C ctx rounds.length (cmacOf C ctx d))
          ((latch (cmacOf C ctx d)).drop (done (cmacOf C ctx d))) % 2 ^ 32 := by
  induction rounds generalizing s done with
  | nil => exact ⟨s, [], rfl, (List.append_nil _).symm, fun _ => rfl, fun _ _ _ => rfl⟩
  | cons tsc rounds ih =>
      obtain ⟨s₁, new₁, hrun₁, hcalls₁, hat, haccesses₁, hrecords₁⟩ :=
        round_run C coreId ctx values tsc hs
      obtain ⟨s₂, new₂, hrun₂, hcalls₂, haccesses₂, hsums₂⟩ := ih (doneAfter C ctx done) hat
      refine ⟨s₂, new₁ ++ new₂, (forM_cons_ok hrun₁).trans hrun₂, ?_, ?_, ?_⟩
      · rw [hcalls₂, hcalls₁, List.append_assoc]
      · intro k
        rw [RegLog.accesses_append, haccesses₁, haccesses₂, ← List.map_append]
        rfl
      · intro d f hf
        have hsplit : fieldSum (records d (new₁ ++ new₂)) f
            = ((latched (((latch (cmacOf C ctx d)).drop (startOf C ctx done d)).map words)).get
                f).toNat + fieldSum (records d new₂) f := by
          rw [records, List.filterMap_append, ← records, ← records, hrecords₁ d, hvalues,
            List.map_drop]
          rfl
        rw [hsplit, List.length_cons, producerSchedule, gathered_round, get_latched hf, Nat.add_mod,
          hsums₂ d f hf, Nat.mod_mod, ← Nat.add_mod]

/-! ## Who disturbs whom -/

variable {C ctx}

theorem own_direction (d e : Direction) (k : Bool) (l : List (Direction × Access CmacField)) :
    own d (directionSchedule C ctx k e ++ l)
      = (if e = d ∧ cmacOf C ctx e = k then snapshot totalKinds else []) ++ own d l := by
  unfold directionSchedule
  by_cases hk : cmacOf C ctx e = k
  · rw [if_pos hk, own_append]
    simp only [hk, and_true]
  · rw [if_neg hk, if_neg fun h => hk h.2]
    rfl

theorem own_producerSchedule (d : Direction) (k : Bool) (n : Nat) :
    own d (producerSchedule C ctx n k)
      = if cmacOf C ctx d = k then snapshots totalKinds n else [] := by
  induction n with
  | zero => exact (ite_self _).symm
  | succ n ih =>
      rw [producerSchedule_succ, own_direction, own_direction, ih, snapshots_succ]
      by_cases hk : cmacOf C ctx d = k
      · cases d <;> simp [hk]
      · cases d <;> simp [hk]

/-- Directions with a CMAC each do not disturb one another. -/
theorem alone_of_ne (hne : cmacOf C ctx .rx ≠ cmacOf C ctx .tx) (d : Direction) (n : Nat) :
    Alone d (producerSchedule C ctx n (cmacOf C ctx d)) := by
  induction n with
  | zero => exact alone_nil
  | succ n ih =>
      rw [producerSchedule_succ, directionSchedule, directionSchedule]
      cases d with
      | rx =>
          rw [if_pos rfl, if_neg hne.symm, List.nil_append, alone_append_self]
          exact ih
      | tx =>
          rw [if_neg hne, if_pos rfl, List.nil_append, alone_append_self]
          exact ih

/-- How many rounds a direction is undisturbed for if both have one CMAC. -/
def undisturbed : Direction → Nat
  | .rx => 1
  | .tx => 0

theorem alone_of_eq (hsame : cmacOf C ctx .rx = cmacOf C ctx .tx) (d : Direction) (n : Nat) :
    Alone d (producerSchedule C ctx n (cmacOf C ctx d)) ↔ n ≤ undisturbed d := by
  have hboth : ∀ d, cmacOf C ctx d = cmacOf C ctx .tx := by
    intro d
    cases d
    · exact hsame
    · rfl
  cases n with
  | zero => exact iff_of_true alone_nil (Nat.zero_le _)
  | succ n =>
      rw [producerSchedule_succ, directionSchedule, directionSchedule,
        if_pos (by rw [hboth, hboth d]), if_pos (by rw [hboth d])]
      cases d with
      | rx =>
          rw [alone_append_self, alone_append_other (by decide), own_producerSchedule, if_pos rfl]
          cases n with
          | zero => exact iff_of_true ⟨rfl, alone_nil⟩ (Nat.le_refl 1)
          | succ n =>
              refine iff_of_false (fun h => ?_) (by simp [undisturbed])
              exact absurd h.1 (List.cons_ne_nil _ _)
      | tx =>
          rw [alone_append_other (by decide), own_append, if_pos rfl]
          refine iff_of_false (fun h => ?_) (Nat.not_succ_le_zero n)
          exact absurd h.1 (List.cons_ne_nil _ _)

theorem serial_producerSchedule (k : Bool) (n : Nat) :
    Serial totalKinds (producerSchedule C ctx n k) := by
  have hdirection : ∀ d, Serial totalKinds (directionSchedule C ctx k d) := by
    intro d
    unfold directionSchedule
    split
    · exact serial_snapshot totalKinds d
    · exact serial_nil totalKinds
  induction n with
  | zero => exact serial_nil totalKinds
  | succ n ih =>
      rw [producerSchedule_succ]
      exact (hdirection .rx).append ((hdirection .tx).append ih)

/-! ## What is reported -/

variable (C ctx) (l : StatsLog) (rounds : List (BitVec 64))

/-- The calls of a run in which the CMACs have these values latched. -/
def latchedCalls : List Effect :=
  calls C (effects.latchBus (onic C ctx.rxOnic) values).answer coreId ctx l rounds

theorem latchedCalls_run (latch : Bool → List (CmacField → Nat))
    (hvalues : ∀ k, values k = (latch k).map words) :
    (∀ k, effects.accesses (onic C ctx.rxOnic) k (latchedCalls C coreId ctx values l rounds)
      = (producerSchedule C ctx rounds.length k).map Prod.snd)
    ∧ ∀ d, ∀ f ∈ totalKinds,
      fieldSum (records d (latchedCalls C coreId ctx values l rounds)) f % 2 ^ 32
        = gathered (only d) f (producerSchedule C ctx rounds.length (cmacOf C ctx d))
          (latch (cmacOf C ctx d)) % 2 ^ 32 := by
  obtain ⟨s', new, hrun, hcalls, hruns⟩ := rounds_run C coreId ctx values latch rounds
    (fun _ => 0) (s := ⟨l, []⟩) hvalues fun _ => rfl
  have hnew : latchedCalls C coreId ctx values l rounds = new := by
    rw [latchedCalls, calls, cmacProducerLoop, after_bind_pure]
    exact (congrArg (fun r => (after r).calls) hrun).trans hcalls
  rw [hnew]
  exact hruns

end Producer

/-- What the CMACs count in a run of so many rounds, each from a tick on. That the
run has these accesses is part of `latchedCalls_run`. -/
structure Traffic (D : Cmac) {Card : Type} (C : Cards Card) (ctx : ForwardingContext Card)
    (n : Nat) where
  moments : Bool → List (Moment Direction CmacField)
  schedule_eq : ∀ k, schedule (moments k) = producerSchedule C ctx n k
  before : Bool → D.State

section Reported

variable {D : Cmac} {Card : Type} {C : Cards Card} {ctx : ForwardingContext Card}

/-- What the CMACs show at the accesses to them. -/
def Traffic.values {n : Nat} (traffic : Traffic D C ctx n) : Bool → List (CmacField → BitVec 32) :=
  fun k => D.observed everyone (D.tick (traffic.before k)) (traffic.moments k)

variable (coreId : BitVec 32) (l : StatsLog) (rounds : List (BitVec 64))

/-- The values of a direction, added up over the messages. -/
def reported (traffic : Traffic D C ctx rounds.length) (d : Direction) (f : CmacField) : Nat :=
  fieldSum (records d (latchedCalls C coreId ctx traffic.values l rounds)) f

theorem reported_eq (traffic : Traffic D C ctx rounds.length) (d : Direction) {f : CmacField}
    (hf : f ∈ totalKinds) : reported coreId l rounds traffic d f % 2 ^ 32
      = found (only d) f (.cleared (D.held (traffic.before (cmacOf C ctx d))))
        (traffic.moments (cmacOf C ctx d)) % 2 ^ 32 := by
  have hvalues : ∀ k, traffic.values k = (observed everyone
      (.cleared (D.held (traffic.before k))) (traffic.moments k)).map words :=
    fun k => LatchingDevice.observed_eq (LatchingDevice.represents_tick (traffic.before k)) everyone
      (traffic.moments k)
  rw [reported, (latchedCalls_run C coreId ctx traffic.values l rounds _ hvalues).2 d f hf,
    found_eq_gathered, traffic.schedule_eq]

theorem cmacOf_ne_iff :
    cmacOf C ctx .rx ≠ cmacOf C ctx .tx ↔ ¬(rxPortId C ctx = 0#16 ↔ txPortId C ctx = 0#16) := by
  have hzero : ∀ x : BitVec 16, (x.toNat : Int) = 0 ↔ x = 0#16 := fun x => by
    rw [Int.natCast_eq_zero, ← BitVec.toNat_inj]
    rfl
  rw [Ne, cmacOf, cmacOf, isFirst, isFirst, decide_eq_decide, hzero, hzero]
  rfl

/-- The values of a direction, added up over the messages, are modulo 2^32 what
its CMAC counts up to the direction's last tick. -/
def Accounts (D : Cmac) (C : Cards Card) (ctx : ForwardingContext Card) (d : Direction) : Prop :=
  ∀ (traffic : Traffic D C ctx rounds.length) (f : CmacField), f.isTotal = true →
    reported coreId l rounds traffic d f % 2 ^ 32
      = shown (only d) f (traffic.moments (cmacOf C ctx d)) % 2 ^ 32

theorem accounts_iff_exact (d : Direction) : Accounts coreId l rounds D C ctx d
    ↔ ∀ f ∈ totalKinds, Exact (only d) f (2 ^ 32)
      (producerSchedule C ctx rounds.length (cmacOf C ctx d)) := by
  constructor
  · intro h f hf ms latch hms
    obtain ⟨s, rfl⟩ := D.exists_held latch
    let traffic : Traffic D C ctx rounds.length := {
      moments k := if k = cmacOf C ctx d then ms else quiet (producerSchedule C ctx rounds.length k)
      schedule_eq k := by
        split
        · next hk => rw [hk, hms]
        · exact schedule_quiet _
      before _ := s }
    have hmoments : traffic.moments (cmacOf C ctx d) = ms := if_pos rfl
    have haccounts := h traffic f (mem_totalKinds.mp hf)
    rw [reported_eq coreId l rounds traffic d hf, hmoments] at haccounts
    exact haccounts
  · intro h traffic f hf
    have hf' := mem_totalKinds.mpr hf
    rw [reported_eq coreId l rounds traffic d hf']
    exact h f hf' _ _ (traffic.schedule_eq _)

/-- If both port ids stand for one CMAC, what it counts goes to the direction
that ticks next: modulo 2^32 only the (R) values of a first message are right. -/
theorem accounts_iff (d : Direction) : Accounts coreId l rounds D C ctx d
    ↔ rounds.length ≤ undisturbed d ∨ ¬(rxPortId C ctx = 0#16 ↔ txPortId C ctx = 0#16) := by
  have hM : 1 < 2 ^ 32 := by decide
  have hkinds : totalKinds ≠ [] := List.cons_ne_nil _ _
  have hown : own d (producerSchedule C ctx rounds.length (cmacOf C ctx d))
      = snapshots totalKinds rounds.length := by
    rw [own_producerSchedule, if_pos rfl]
  rw [accounts_iff_exact, alone_iff hM hkinds nodup_totalKinds hown, ← cmacOf_ne_iff]
  by_cases hsame : cmacOf C ctx .rx = cmacOf C ctx .tx
  · rw [alone_of_eq hsame]
    simp [hsame]
  · exact iff_of_true (alone_of_ne hsame d rounds.length) (Or.inr hsame)

/-- In the context that `main` launches both ports have the second CMAC. -/
theorem accounts_iff_oneRound :
    Accounts 0#32 ⟨0#64, 0#64, 0#64⟩ [0#64] (bankDevice _ _) mainCards
        (MainContexts.ctx MainContexts.launchedCtx) .rx
      ∧ ¬ Accounts 0#32 ⟨0#64, 0#64, 0#64⟩ [0#64] (bankDevice _ _) mainCards
        (MainContexts.ctx MainContexts.launchedCtx) .tx :=
  ⟨(accounts_iff 0#32 _ [0#64] .rx).mpr (by decide),
    fun h => absurd ((accounts_iff 0#32 _ [0#64] .tx).mp h) (by decide)⟩

/-- The messages as a whole report what a CMAC counts, and nothing twice. -/
theorem reported_once (traffic : Traffic D C ctx rounds.length) (k : Bool) (f : CmacField)
    (hf : f.isTotal = true) :
    (∑ d with cmacOf C ctx d = k, reported coreId l rounds traffic d f) % 2 ^ 32
      = shown everyone f (traffic.moments k) % 2 ^ 32 := by
  have hM : 1 < 2 ^ 32 := by decide
  have hf' := mem_totalKinds.mpr hf
  have hown : ∀ d, own d (producerSchedule C ctx rounds.length k)
      = snapshots totalKinds (if cmacOf C ctx d = k then rounds.length else 0) := by
    intro d
    rw [own_producerSchedule]
    split <;> rfl
  have hexact := (serial_iff hM nodup_totalKinds hown).mpr
    (serial_producerSchedule k rounds.length) f hf'
  rw [← hexact _ (D.held (traffic.before k)) (traffic.schedule_eq k), ← sum_found,
    Finset.sum_filter, Finset.sum_nat_mod, Finset.sum_nat_mod _ _ fun d => found (only d) f _ _]
  congr 1
  refine Finset.sum_congr rfl fun d _ => ?_
  by_cases hk : cmacOf C ctx d = k
  · subst hk
    rw [if_pos rfl, reported_eq coreId l rounds traffic d hf']
  · rw [if_neg hk, found_eq_tally, traffic.schedule_eq, own_producerSchedule, if_neg hk]
    rfl

/-- An event of every kind before each access, in a round of the context that
`main` launches. -/
def steady : Traffic (bankDevice _ _) mainCards (MainContexts.ctx MainContexts.launchedCtx) 1 where
  moments k := (producerSchedule mainCards (MainContexts.ctx MainContexts.launchedCtx) 1 k).map
    fun x => ⟨fun _ => 1, x.1, x.2⟩
  schedule_eq k := by
    rw [schedule, List.map_map]
    exact List.map_id _
  before _ := .cleared fun _ => 0

theorem steady_reported_once :
    (∑ d with cmacOf mainCards (MainContexts.ctx MainContexts.launchedCtx) d = false,
      reported 0#32 ⟨0#64, 0#64, 0#64⟩ [0#64] steady d .rxTotalPkts) % 2 ^ 32 = 10 :=
  (reported_once 0#32 ⟨0#64, 0#64, 0#64⟩ [0#64] steady false .rxTotalPkts rfl).trans (by decide)

end Reported

end CmacReports

end P2pInspection
