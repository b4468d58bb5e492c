import P2pInspection.CmacSource
import P2pInspection.CmacSums
import P2pInspection.CounterLatch

/-!
# Several readers of one CMAC

`get_cmac_stats` first makes a CMAC move what it has counted to its registers,
which begins the count again, and then reads the eight totals one by one. Nothing
keeps two threads from doing this to one CMAC at the same time, and
`run_cmac_producer` does it twice in a round, possibly to one CMAC. Here any
number of readers take snapshots of a CMAC, their accesses interleaved in any
way, while it counts any traffic. Of the CMAC it is assumed that a tick does as
the comment in `get_cmac_stats` has it and that reading changes nothing (`Cmac`).
-/

namespace P2pInspection

open CallTrace CounterLatch CmacStats

namespace CmacReaders

/-- The totals, in the order in which they are read. -/
def totalKinds : List CmacField :=
  [.txTotalPkts, .txTotalGoodPkts, .txTotalBytes, .txTotalGoodBytes,
    .rxTotalPkts, .rxTotalGoodPkts, .rxTotalBytes, .rxTotalGoodBytes]

theorem nodup_totalKinds : totalKinds.Nodup := by decide

theorem mem_totalKinds {f : CmacField} : f ∈ totalKinds ↔ f.isTotal = true := by
  cases f <;> decide

/-- The statistics of a CMAC, which is not part of the sources: a register shows
the low word of what was counted between the last two ticks. -/
abbrev Cmac := LatchingDevice CmacField (BitVec 32) (BitVec.ofNat 32)

/-! ## The CMACs of a card -/

/-- The register map has two CMACs; all numbers but 0 stand for the second one. -/
def isFirst (cmacId : Int) : Bool := decide (cmacId = 0)

def number (first : Bool) : Int := if first then 0 else 1

/-- The CMAC and the field that have their register there. -/
def fieldAt? (offset : BitVec 32) : Option (Bool × CmacField) :=
  ([true, false].flatMap fun k => CmacField.all.map fun f => (k, f)).find? fun x =>
    x.2.register (number x.1) = offset

/-- What an access of a register is to a CMAC. -/
def access? (o : Onic) (k : Bool) : RegCall → Option (Access CmacField)
  | .write port bar offset _ =>
      if port = o.configPortId ∧ bar = o.axilBarId ∧ offset = cmacOffsetTick (number k) then
        some .tick
      else none
  | .read port bar offset _ =>
      if port = o.configPortId ∧ bar = o.axilBarId then
        (fieldAt? offset).bind fun x => if x.1 = k then some (.read x.2) else none
      else none

section Map

variable (o : Onic) (k : Bool) (cmacId : Int)

theorem eq_zero_iff_number : cmacId = 0 ↔ number (isFirst cmacId) = 0 := by
  by_cases h : cmacId = 0 <;> simp [number, isFirst, h]

theorem isFirst_number : isFirst (number k) = k := by
  cases k <;> rfl

theorem fieldAt?_register (f : CmacField) :
    fieldAt? (f.register cmacId) = some (isFirst cmacId, f) := by
  cases hfind : fieldAt? (f.register cmacId) with
  | none =>
      have hmem : (isFirst cmacId, f)
          ∈ [true, false].flatMap fun k => CmacField.all.map fun f => (k, f) := by
        cases isFirst cmacId <;> simp [CmacField.mem_all]
      have hnot := List.find?_eq_none.mp hfind _ hmem
      rw [decide_eq_true_eq] at hnot
      exact absurd (CmacField.register_congr (eq_zero_iff_number cmacId) f).symm hnot
  | some x =>
      have hsame := List.find?_some hfind
      rw [decide_eq_true_eq] at hsame
      obtain ⟨hf, hzero⟩ := CmacField.register_inj hsame
      have hfirst : isFirst cmacId = isFirst (number x.1) := decide_eq_decide.mpr hzero.symm
      rw [hfirst, isFirst_number, ← hf]

theorem access?_tick (v : BitVec 32) :
    access? o k (.write o.configPortId o.axilBarId (cmacOffsetTick cmacId) v)
      = if isFirst cmacId = k then some .tick else none := by
  have hsame : cmacOffsetTick cmacId = cmacOffsetTick (number k) ↔ isFirst cmacId = k := by
    unfold cmacOffsetTick
    rw [BitVec.add_left_inj, cmacOffset_eq_iff]
    conv_rhs => rw [← isFirst_number k, isFirst, isFirst, decide_eq_decide]
  simp [access?, hsame]

theorem access?_register (f : CmacField) (v : BitVec 32) :
    access? o k (.read o.configPortId o.axilBarId (f.register cmacId) v)
      = if isFirst cmacId = k then some (.read f) else none := by
  simp [access?, fieldAt?_register]

end Map

/-- The register accesses among the calls of a program. -/
structure RegLog (κ : Type) where
  record : RegCall → κ
  reg? : κ → Option RegCall
  reg?_record : ∀ c, reg? (record c) = some c

namespace RegLog

variable {κ : Type} (R : RegLog κ) (o : Onic)

/-- The accesses to a CMAC among these calls. -/
def accesses (k : Bool) (calls : List κ) : List (Access CmacField) :=
  calls.filterMap fun c => (R.reg? c).bind (access? o k)

/-- The registers of the card: a CMAC shows its `values k` at the accesses to it,
in their order. -/
def latchBus (values : Bool → List (CmacField → BitVec 32)) : Bus κ where
  record := R.record
  answer calls _ _ offset :=
    match fieldAt? offset with
    | some (k, f) => ((values k).drop (R.accesses o k calls).length).headD (fun _ => 0#32) f
    | none => 0#32

/-- So many accesses have been made to the CMACs. -/
def At (done : Bool → Nat) (calls : List κ) : Prop :=
  ∀ k, (R.accesses o k calls).length = done k

/-- `n` more accesses to a CMAC. -/
def further (done : Bool → Nat) (k : Bool) (n : Nat) : Bool → Nat :=
  fun k' => if k' = k then done k' + n else done k'

@[simp] theorem further_self (done : Bool → Nat) (k : Bool) (n : Nat) :
    further done k n k = done k + n := by
  simp [further]

theorem further_zero (done : Bool → Nat) (k : Bool) : further done k 0 = done :=
  funext fun _ => ite_self _

theorem further_further (done : Bool → Nat) (k : Bool) (n n' : Nat) :
    further (further done k n) k n' = further done k (n + n') := by
  funext k'
  simp only [further]
  split
  · rw [Nat.add_assoc]
  · rfl

theorem further_of_ne (done : Bool → Nat) {k k' : Bool} (h : k' ≠ k) (n : Nat) :
    further done k n k' = done k' := by
  simp [further, h]

variable {R o}

theorem accesses_append (k : Bool) (calls calls' : List κ) :
    R.accesses o k (calls ++ calls') = R.accesses o k calls ++ R.accesses o k calls' :=
  List.filterMap_append

theorem accesses_record (k : Bool) (c : RegCall) :
    R.accesses o k [R.record c] = (access? o k c).toList := by
  rw [accesses, List.filterMap_cons, R.reg?_record, Option.bind_some, List.filterMap_nil]
  cases access? o k c <;> rfl

/-- One more access to one CMAC is none to the other. -/
theorem At.record {done : Bool → Nat} {k : Bool} {n : Nat} {calls : List κ} {c : RegCall}
    {a : Access CmacField} (h : R.At o (further done k n) calls)
    (hc : ∀ k', access? o k' c = if k = k' then some a else none) :
    R.At o (further done k (n + 1)) (calls ++ [R.record c]) := by
  intro k'
  rw [accesses_append, List.length_append, h k', accesses_record, hc k']
  by_cases hk : k' = k
  · subst hk
    rw [further_self, further_self, if_pos rfl]
    rfl
  · rw [further_of_ne done hk, further_of_ne done hk, if_neg (Ne.symm hk)]
    rfl

theorem accesses_cmacAccesses (k : Bool) (cmacId : Int) (stats : CmacStats) :
    R.accesses o k ((o.cmacAccesses cmacId stats).map R.record)
      = if isFirst cmacId = k then snapshot totalKinds else [] := by
  have hfields : o.cmacAccesses cmacId stats
      = .write o.configPortId o.axilBarId (cmacOffsetTick cmacId) 0b1#32
        :: totalKinds.map fun f =>
          .read o.configPortId o.axilBarId (f.register cmacId) (stats.get f) := rfl
  rw [hfields, accesses, List.filterMap_map]
  simp only [Function.comp_def, R.reg?_record, Option.bind_some, List.filterMap_cons,
    access?_tick, List.filterMap_map, access?_register]
  by_cases hk : isFirst cmacId = k
  · simp [hk, snapshot]
  · simp [hk]

end RegLog

/-! ## What a reader is answered -/

/-- The record of what is shown at the accesses of one snapshot. -/
def latched (values : List (CmacField → BitVec 32)) : CmacStats :=
  let shown (k : Nat) : CmacField → BitVec 32 := (values.drop k).headD fun _ => 0#32
  { txTotalPkts := shown 1 .txTotalPkts
    txTotalGoodPkts := shown 2 .txTotalGoodPkts
    txTotalBytes := shown 3 .txTotalBytes
    txTotalGoodBytes := shown 4 .txTotalGoodBytes
    rxTotalPkts := shown 5 .rxTotalPkts
    rxTotalGoodPkts := shown 6 .rxTotalGoodPkts
    rxTotalBytes := shown 7 .rxTotalBytes
    rxTotalGoodBytes := shown 8 .rxTotalGoodBytes }

/-- What the registers show of a latch. -/
def words (latch : CmacField → Nat) : CmacField → BitVec 32 := fun f => BitVec.ofNat 32 (latch f)

theorem headD_words (values : List (CmacField → Nat)) (k : Nat) (f : CmacField) :
    ((values.map words).drop k).headD (fun _ => 0#32) f
      = BitVec.ofNat 32 ((values.drop k).headD (fun _ => 0) f) := by
  rw [← List.map_drop]
  cases values.drop k <;> rfl

theorem get_latched {f : CmacField} (hf : f ∈ totalKinds) (values : List (CmacField → Nat)) :
    ((latched (values.map words)).get f).toNat
      = tally f (snapshot totalKinds) values % 2 ^ 32 := by
  simp only [totalKinds, List.mem_cons, List.not_mem_nil, or_false] at hf
  rcases hf with rfl | rfl | rfl | rfl | rfl | rfl | rfl | rfl <;>
    simp [latched, headD_words, CmacStats.get, snapshot, totalKinds, tally, -List.drop_one]

section Answers

variable {ε σ κ : Type} {R : RegLog κ} {o : Onic} {values : Bool → List (CmacField → BitVec 32)}
variable {done : Bool → Nat}

theorem returns_readReg (cmacId : Int) (f : CmacField) (n : Nat) :
    Returns (R.At o (RegLog.further done (isFirst cmacId) n))
      (o.readReg (R.latchBus o values) (f.register cmacId) : Prog ε σ κ (BitVec 32))
      (((values (isFirst cmacId)).drop (done (isFirst cmacId) + n)).headD (fun _ => 0#32) f)
      (R.At o (RegLog.further done (isFirst cmacId) (n + 1))) := by
  intro s hs
  have hanswer : (R.latchBus o values).answer s.calls o.configPortId o.axilBarId
      (f.register cmacId)
        = ((values (isFirst cmacId)).drop (done (isFirst cmacId) + n)).headD (fun _ => 0#32) f := by
    have hlen := hs (isFirst cmacId)
    rw [RegLog.further_self] at hlen
    simp only [RegLog.latchBus, fieldAt?_register, hlen]
  refine ⟨_, (Onic.readReg_run _ o _ s).trans (by rw [hanswer]), ?_⟩
  exact hs.record fun k' => access?_register o k' cmacId f _

theorem returns_getCmacStats (values : Bool → List (CmacField → BitVec 32)) (cmacId : Int) :
    Returns (R.At o done) (o.getCmacStats (R.latchBus o values) cmacId : Prog ε σ κ CmacStats)
      (latched ((values (isFirst cmacId)).drop (done (isFirst cmacId))))
      (R.At o (RegLog.further done (isFirst cmacId) 9)) := by
  have hstart := RegLog.further_zero done (isFirst cmacId)
  have htick : Returns (R.At o done)
      (o.writeReg (R.latchBus o values) (cmacOffsetTick cmacId) 0b1#32 : Prog ε σ κ Unit) ()
      (R.At o (RegLog.further done (isFirst cmacId) 1)) :=
    .call fun calls hcalls => (hstart.symm ▸ hcalls : R.At o _ calls).record
      fun k' => access?_tick o k' cmacId _
  unfold Onic.getCmacStats
  simp only [latched, List.drop_drop]
  refine htick.bind ?_
  refine (returns_readReg cmacId .txTotalPkts 1).bind ?_
  refine (returns_readReg cmacId .txTotalGoodPkts 2).bind ?_
  refine (returns_readReg cmacId .txTotalBytes 3).bind ?_
  refine (returns_readReg cmacId .txTotalGoodBytes 4).bind ?_
  refine (returns_readReg cmacId .rxTotalPkts 5).bind ?_
  refine (returns_readReg cmacId .rxTotalGoodPkts 6).bind ?_
  refine (returns_readReg cmacId .rxTotalBytes 7).bind ?_
  refine (returns_readReg cmacId .rxTotalGoodBytes 8).bind ?_
  exact .pure _

/-- The record and the calls of `get_cmac_stats`, where the reads are answered so. -/
theorem getCmacStats_latched (values : Bool → List (CmacField → BitVec 32)) (cmacId : Int)
    {s : Logged σ κ} (hs : R.At o done s.calls) :
    ∃ stats s', stats = latched ((values (isFirst cmacId)).drop (done (isFirst cmacId)))
      ∧ s'.state = s.state ∧ s'.calls = s.calls ++ (o.cmacAccesses cmacId stats).map R.record
      ∧ R.At o (RegLog.further done (isFirst cmacId) 9) s'.calls
      ∧ (o.getCmacStats (R.latchBus o values) cmacId : Prog ε σ κ CmacStats) s
          = .ok stats s' := by
  obtain ⟨s', hrun, hat⟩ := returns_getCmacStats (ε := ε) values cmacId s hs
  obtain ⟨stats, hcalls⟩ := o.getCmacStats_run (ε := ε) (R.latchBus o values) cmacId s
  obtain ⟨hstats, hs'⟩ := EStateM.Result.ok.inj (hrun.symm.trans hcalls)
  exact ⟨stats, s', hstats.symm, by rw [hs'], by rw [hs']; rfl, hat, hstats ▸ hrun⟩

end Answers

/-! ## Readers that run at the same time -/

abbrev Reader (α : Type) := Prog Empty Unit RegCall α

/-- `n` calls of `get_cmac_stats`. -/
def takeSnapshots (o : Onic) (bus : Bus RegCall) (cmacId : Int) : Nat → Reader (List CmacStats)
  | 0 => return []
  | n + 1 => do
      let stats ← o.getCmacStats bus cmacId
      let rest ← takeSnapshots o bus cmacId n
      return stats :: rest

/-- Every call is a register access. -/
def plain : RegLog RegCall := ⟨id, some, fun _ => rfl⟩

section Readers

variable (o : Onic) (cmacId : Int) (n : Nat)

/-- The accesses of a reader to the CMAC, with these answers to its reads. -/
def accessesOf (answer : List RegCall → Int → Int → BitVec 32 → BitVec 32) :
    List (Access CmacField) :=
  plain.accesses o (isFirst cmacId) (after (takeSnapshots o ⟨id, answer⟩ cmacId n ⟨(), []⟩)).calls

/-- The samples of a reader that is shown these values at its accesses. -/
def samples (values : List (CmacField → BitVec 32)) : List CmacStats :=
  match takeSnapshots o (plain.latchBus o fun _ => values) cmacId n ⟨(), []⟩ with
  | .ok stats _ => stats

def latchedSamples : Nat → List (CmacField → BitVec 32) → List CmacStats
  | 0, _ => []
  | n + 1, values => latched values :: latchedSamples n (values.drop 9)

theorem accessesOf_eq (answer : List RegCall → Int → Int → BitVec 32 → BitVec 32) :
    accessesOf o cmacId n answer = snapshots totalKinds n := by
  have hrun : ∀ s : Logged Unit RegCall, ∃ stats s',
      takeSnapshots o ⟨id, answer⟩ cmacId n s = .ok stats s'
        ∧ plain.accesses o (isFirst cmacId) s'.calls
          = plain.accesses o (isFirst cmacId) s.calls ++ snapshots totalKinds n := by
    induction n with
    | zero => exact fun s => ⟨[], s, rfl, (List.append_nil _).symm⟩
    | succ n ih =>
        intro s
        obtain ⟨stats, hstats⟩ := o.getCmacStats_run (ε := Empty) (σ := Unit) ⟨id, answer⟩ cmacId s
        obtain ⟨rest, s', hrest, haccesses⟩ := ih
          ⟨s.state, s.calls ++ (o.cmacAccesses cmacId stats).map plain.record⟩
        refine ⟨stats :: rest, s', (bind_ok hstats).trans (bind_ok hrest), ?_⟩
        rw [haccesses, RegLog.accesses_append, RegLog.accesses_cmacAccesses, if_pos rfl,
          List.append_assoc]
        rfl
  obtain ⟨stats, s', hreturns, haccesses⟩ := hrun ⟨(), []⟩
  rw [accessesOf, hreturns]
  exact haccesses

theorem returns_takeSnapshots (values : Bool → List (CmacField → BitVec 32)) (done : Bool → Nat) :
    Returns (plain.At o done) (takeSnapshots o (plain.latchBus o values) cmacId n)
      (latchedSamples n ((values (isFirst cmacId)).drop (done (isFirst cmacId))))
      (plain.At o (RegLog.further done (isFirst cmacId) (9 * n))) := by
  induction n generalizing done with
  | zero =>
      rw [Nat.mul_zero, RegLog.further_zero]
      exact .pure []
  | succ n ih =>
      have hnext := ih (RegLog.further done (isFirst cmacId) 9)
      rw [RegLog.further_self, RegLog.further_further, Nat.add_comm 9] at hnext
      rw [takeSnapshots, latchedSamples, List.drop_drop]
      exact (returns_getCmacStats values cmacId).bind (hnext.bind (.pure _))

theorem samples_eq (values : List (CmacField → BitVec 32)) :
    samples o cmacId n values = latchedSamples n values := by
  obtain ⟨s, hrun, -⟩ := returns_takeSnapshots o cmacId n (fun _ => values) (fun _ => 0)
    ⟨(), []⟩ fun _ => rfl
  rw [samples, hrun]
  rfl

/-- The sum of a field over the samples is what the reads of its register find. -/
theorem fieldSum_latchedSamples {f : CmacField} (hf : f ∈ totalKinds) (n : Nat)
    (values : List (CmacField → Nat)) :
    fieldSum (latchedSamples n (values.map words)) f % 2 ^ 32
      = tally f (snapshots totalKinds n) values % 2 ^ 32 := by
  induction n generalizing values with
  | zero => rfl
  | succ n ih =>
      have hsum : fieldSum (latchedSamples (n + 1) (values.map words)) f
          = ((latched (values.map words)).get f).toNat
            + fieldSum (latchedSamples n ((values.drop 9).map words)) f := by
        rw [List.map_drop]
        rfl
      rw [snapshots_succ, tally_append, hsum, get_latched hf, Nat.add_mod, ih, Nat.mod_mod, ← Nat.add_mod]
      rfl

variable {T : Type} [DecidableEq T] (D : Cmac)

/-- What a reader adds up, if its program makes the accesses it has in the schedule. -/
theorem accumulate_samples {t : T} {ms : List (Moment T CmacField)}
    (hown : own t (schedule ms) = snapshots totalKinds n) (s : D.State) {f : CmacField}
    (hf : f ∈ totalKinds) :
    ((accumulate (samples o cmacId n (D.observed (only t) (D.tick s) ms))).get f).toNat
      = found (only t) f (.cleared (D.held s)) ms % 2 ^ 32 := by
  have hshown : D.observed (only t) (D.tick s) ms
      = (observed (only t) (.cleared (D.held s)) ms).map words :=
    LatchingDevice.observed_eq (LatchingDevice.represents_tick s) (only t) ms
  rw [accumulate, get_foldl_add (mem_totalKinds.mp hf), get_default, BitVec.toNat_zero,
    Nat.zero_add, samples_eq, hshown, fieldSum_latchedSamples hf, found_eq_tally, hown]

/-- From a tick on, the totals that the reader adds up are what the CMAC counts up
to the reader's last tick, whatever the traffic. -/
def ReadsAll (t : T) (sched : List (T × Access CmacField)) : Prop :=
  ∀ ms s, schedule ms = sched → ∀ f, f.isTotal = true →
    ((accumulate (samples o cmacId n (D.observed (only t) (D.tick s) ms))).get f).toNat
      = shown (only t) f ms % 2 ^ 32

theorem readsAll_iff_exact {t : T} {sched : List (T × Access CmacField)}
    (hown : own t sched = snapshots totalKinds n) : ReadsAll o cmacId n D t sched
      ↔ ∀ f ∈ totalKinds, Exact (only t) f (2 ^ 32) sched := by
  constructor
  · intro h f hf ms latch hms
    obtain ⟨s, rfl⟩ := D.exists_held latch
    rw [← accumulate_samples o cmacId n D (hms ▸ hown) s hf]
    exact h ms s hms f (mem_totalKinds.mp hf)
  · intro h ms s hms f hf
    rw [accumulate_samples o cmacId n D (hms ▸ hown) s (mem_totalKinds.mpr hf)]
    exact h f (mem_totalKinds.mpr hf) ms (D.held s) hms

/-- Of all that runs beside a reader it is the ticks that count: the reader misses
something, for some traffic, as soon as another one ticks in front of one of its accesses. -/
theorem readsAll_iff (answer : List RegCall → Int → Int → BitVec 32 → BitVec 32) (t : T)
    (sched : List (T × Access CmacField)) (hown : own t sched = accessesOf o cmacId n answer) :
    ReadsAll o cmacId n D t sched ↔ Alone t sched := by
  rw [accessesOf_eq] at hown
  have hM : 1 < 2 ^ 32 := by decide
  have hkinds : totalKinds ≠ [] := List.cons_ne_nil _ _
  rw [readsAll_iff_exact o cmacId n D hown]
  exact alone_iff hM hkinds nodup_totalKinds hown

/-- A second reader, `false`, ticks while the first one has only ticked itself. -/
def overlapping : List (Bool × Access CmacField) :=
  (true, .tick) :: (false, .tick)
    :: (totalKinds.map (fun f => (true, .read f)) ++ totalKinds.map fun f => (false, .read f))

theorem overlapping_not_readsAll :
    ¬ReadsAll (CmacSource.onic CmacSource.mainCards .onic0) 0 1 (bankDevice _ _) true
      overlapping := by
  have hown : own true overlapping
      = accessesOf (CmacSource.onic CmacSource.mainCards .onic0) 0 1 fun _ _ _ _ => 0#32 := by
    rw [accessesOf_eq]
    decide
  rw [readsAll_iff _ 0 1 _ _ true overlapping hown]
  intro halone
  have hdone := halone [(true, .tick)] false _ rfl (by decide)
  exact absurd hdone (by decide)

/-- From a tick on, what the readers add up is together what the CMAC counts up to
the last tick. -/
def ReadTogether [Fintype T] (n : T → Nat) (sched : List (T × Access CmacField)) : Prop :=
  ∀ ms s, schedule ms = sched → ∀ f, f.isTotal = true →
    (∑ t, ((accumulate (samples o cmacId (n t) (D.observed (only t) (D.tick s) ms))).get f).toNat)
      % 2 ^ 32 = shown everyone f ms % 2 ^ 32

/-- Together they have it all, and nothing twice, exactly when their calls of
`get_cmac_stats` do not overlap. -/
theorem readTogether_iff [Fintype T] (answer : List RegCall → Int → Int → BitVec 32 → BitVec 32)
    (n : T → Nat) (sched : List (T × Access CmacField))
    (hown : ∀ t, own t sched = accessesOf o cmacId (n t) answer) :
    ReadTogether o cmacId D n sched ↔ Serial totalKinds sched := by
  simp only [accessesOf_eq] at hown
  have hM : 1 < 2 ^ 32 := by decide
  have hfound : ∀ ms s, schedule ms = sched → ∀ f ∈ totalKinds,
      (∑ t, ((accumulate (samples o cmacId (n t) (D.observed (only t) (D.tick s) ms))).get
        f).toNat) % 2 ^ 32 = found everyone f (.cleared (D.held s)) ms % 2 ^ 32 := by
    intro ms s hms f hf
    rw [← sum_found, Finset.sum_nat_mod, Finset.sum_nat_mod _ _ fun t => found (only t) _ _ ms]
    simp only [fun t => accumulate_samples o cmacId (n t) D (hms ▸ hown t) s hf, Nat.mod_mod]
  rw [← serial_iff hM nodup_totalKinds hown]
  constructor
  · intro h f hf ms latch hms
    obtain ⟨s, rfl⟩ := D.exists_held latch
    rw [← hfound ms s hms f hf]
    exact h ms s hms f (mem_totalKinds.mp hf)
  · intro h ms s hms f hf
    rw [hfound ms s hms f (mem_totalKinds.mpr hf)]
    exact h f (mem_totalKinds.mpr hf) ms (D.held s) hms

/-- Two readers behind each other, one of them twice. -/
theorem behindEachOther_readTogether :
    ReadTogether (CmacSource.onic CmacSource.mainCards .onic0) 0 (bankDevice _ _)
      (fun first => if first then 2 else 1)
      ([true, false, true].flatMap fun t => (snapshot totalKinds).map fun a => (t, a)) := by
  have hown : ∀ t, own t ([true, false, true].flatMap fun t => (snapshot totalKinds).map fun a =>
      (t, a)) = accessesOf (CmacSource.onic CmacSource.mainCards .onic0) 0
        (if t = true then 2 else 1) fun _ _ _ _ => 0#32 := by
    intro t
    rw [accessesOf_eq]
    cases t <;> decide
  rw [readTogether_iff _ 0 _ _ _ _ hown]
  exact ⟨_, rfl⟩

end Readers

end CmacReaders

end P2pInspection
