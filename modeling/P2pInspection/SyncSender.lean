import Mathlib.Algebra.Group.Nat.Defs
import Mathlib.Data.List.Chain
import P2pInspection.CallTrace
import P2pInspection.ClkSyncApp

/-!
# `clk_sync_app`: the send loop

The loop of the application's `main`, round by round. The deadline of an attempt
is the one before it plus the period, whatever became of the attempt and however
late it was made, so that the attempts stay on the schedule `t0 + k * period`
(`sender_onSchedule`).
-/

namespace P2pInspection

open CallTrace

namespace ClkSyncApp

structure SendState where
  nextTsc : BitVec 64
  count : BitVec 64 := 0#64
deriving Repr, DecidableEq

inductive SendEffect where
  | timerCycles (reading : BitVec 64)
  | pause
  | clone (done : Bool)
  | txBurst (sent : BitVec 16)
  | free
  | printed (text : String)
deriving Repr, DecidableEq

/-- What a round of the loop finds. -/
structure SendRound where
  cur : BitVec 64
  cloned : Bool
  sent : BitVec 16
deriving Repr, DecidableEq

abbrev Send (α : Type) := Prog Empty SendState SendEffect α

/-- What the loop does with the clone, or when there is none. -/
def sendClone (r : SendRound) : Send Unit := do
  if r.cloned then
    call (.txBurst r.sent)
    if r.sent < 1#16 then
      call .free
      call (.printed "Packet dropped\n")
    update fun s => { s with count := s.count + 1#64 }
  else call (.printed "Failed to clone mbuf\n")

def sendRound (period : BitVec 64) (r : SendRound) : Send Unit := do
  call (.timerCycles r.cur)
  if r.cur < (← get).state.nextTsc then call .pause
  else
    update fun s => { s with nextTsc := s.nextTsc + period }
    call (.clone r.cloned)
    sendClone r

/-- The calls of the loop, with `next_tsc` at `t0` in front of it. -/
def sendCalls (period t0 : BitVec 64) (rounds : List SendRound) : List SendEffect :=
  (after (rounds.forM (sendRound period) ⟨⟨t0, 0#64⟩, []⟩)).calls

/-! ## The schedule -/

/-- An attempt begins with the call of `rte_pktmbuf_clone`. -/
def SendEffect.isAttempt : SendEffect → Bool
  | clone _ => true
  | _ => false

def attempts (calls : List SendEffect) : Nat := calls.countP SendEffect.isAttempt

/-- Attempt `k` comes right behind a reading that is not below `t0 + k * period`,
and a pause behind one that all attempts up to then have caught up with. -/
def Scheduled (t0 period : Nat) (pre : List SendEffect) : SendEffect → Prop
  | .clone _ => ∃ before cur, pre = before ++ [.timerCycles cur]
      ∧ t0 + attempts before * period ≤ cur.toNat
  | .pause => ∃ before cur, pre = before ++ [.timerCycles cur]
      ∧ attempts before = (cur.toNat - t0) / period + 1
  | _ => True

def OnSchedule (t0 period : Nat) (calls : List SendEffect) : Prop :=
  Justified (Scheduled t0 period) calls

/-! ## One round -/

/-- The calls behind `rte_pktmbuf_clone`. -/
def SendEffect.isLater : SendEffect → Bool
  | txBurst _ | free | printed _ => true
  | _ => false

/-- Only such calls, and the deadline as it was. -/
def OnlyLater (s : SendState) (new : List SendEffect) (s' : SendState) : Prop :=
  s'.nextTsc = s.nextTsc ∧ ∀ c ∈ new, SendEffect.isLater c = true

theorem composes_onlyLater : Composes OnlyLater :=
  ⟨fun _ => ⟨rfl, nofun⟩, fun h h' =>
    ⟨h'.1.trans h.1, fun c hc => (List.mem_append.mp hc).elim (h.2 c) (h'.2 c)⟩⟩

/-- Whatever becomes of the clone, the deadline stays as it has been set. -/
theorem obeys_sendClone (r : SendRound) : Obeys OnlyLater (sendClone r) := by
  have hcall : ∀ c : SendEffect, c.isLater = true → Obeys OnlyLater (call c : Send Unit) :=
    fun c hc => .call fun _ => ⟨rfl, fun c' hc' => List.mem_singleton.mp hc' ▸ hc⟩
  have hcount : Obeys OnlyLater
      (update fun s => { s with count := s.count + 1#64 } : Send Unit) :=
    .update fun _ => ⟨rfl, nofun⟩
  have hfree : Obeys OnlyLater (do
      call .free
      call (.printed "Packet dropped\n")
      update fun s => { s with count := s.count + 1#64 } : Send Unit) :=
    .bind composes_onlyLater (hcall _ rfl) fun _ =>
      .bind composes_onlyLater (hcall _ rfl) fun _ => hcount
  exact .ite (.bind composes_onlyLater (hcall _ rfl) fun _ => .ite hfree hcount) (hcall _ rfl)

/-- A round spins in front of the deadline, and makes an attempt from it on. -/
theorem sendRound_cases (period : BitVec 64) (r : SendRound) (s : Logged SendState SendEffect) :
    r.cur < s.state.nextTsc ∧ (after (sendRound period r s)).state.nextTsc = s.state.nextTsc
        ∧ (after (sendRound period r s)).calls = s.calls ++ [.timerCycles r.cur, .pause]
      ∨ s.state.nextTsc ≤ r.cur
        ∧ (after (sendRound period r s)).state.nextTsc = s.state.nextTsc + period
        ∧ ∃ rest, (∀ c ∈ rest, SendEffect.isLater c = true)
          ∧ (after (sendRound period r s)).calls
            = s.calls ++ .timerCycles r.cur :: .clone r.cloned :: rest := by
  by_cases hspin : r.cur < s.state.nextTsc
  · have hrun : sendRound period r s
        = .ok () ⟨s.state, s.calls ++ [.timerCycles r.cur, .pause]⟩ := by
      simp only [sendRound, run_bind, run_call, run_get, if_pos hspin, List.append_assoc,
        List.singleton_append]
    rw [hrun]
    exact Or.inl ⟨hspin, rfl, rfl⟩
  · have hrun : sendRound period r s = sendClone r
        ⟨{ s.state with nextTsc := s.state.nextTsc + period },
          s.calls ++ [.timerCycles r.cur, .clone r.cloned]⟩ := by
      simp only [sendRound, run_bind, run_call, run_get, run_update, if_neg hspin,
        List.append_assoc, List.singleton_append]
    obtain ⟨rest, hcalls, hnext, hrest⟩ := obeys_sendClone r
      ⟨{ s.state with nextTsc := s.state.nextTsc + period },
        s.calls ++ [.timerCycles r.cur, .clone r.cloned]⟩
    rw [hrun]
    refine Or.inr ⟨BitVec.not_lt.mp hspin, hnext, rest, hrest, ?_⟩
    rw [hcalls, List.append_assoc]
    rfl

theorem attempts_spin (l : List SendEffect) (cur : BitVec 64) :
    attempts (l ++ [.timerCycles cur, .pause]) = attempts l := by
  simp [attempts, SendEffect.isAttempt]

theorem attempts_attempt (l : List SendEffect) (cur : BitVec 64) (done : Bool)
    {rest : List SendEffect} (hrest : ∀ c ∈ rest, SendEffect.isLater c = true) :
    attempts (l ++ .timerCycles cur :: .clone done :: rest) = attempts l + 1 := by
  have hnone : rest.countP SendEffect.isAttempt = 0 := by
    refine List.countP_eq_zero.mpr fun c hc hattempt => ?_
    have hlater := hrest c hc
    cases c <;> contradiction
  rw [attempts, List.countP_append, List.countP_cons_of_neg Bool.false_ne_true,
    List.countP_cons_of_pos rfl, hnone]
  rfl

theorem attempts_le_sendRound (period : BitVec 64) (r : SendRound)
    (s : Logged SendState SendEffect) :
    attempts s.calls ≤ attempts (after (sendRound period r s)).calls := by
  rcases sendRound_cases period r s with ⟨-, -, hcalls⟩ | ⟨-, -, rest, hrest, hcalls⟩
  · rw [hcalls, attempts_spin]
  · rw [hcalls, attempts_attempt _ _ _ hrest]
    exact Nat.le_succ _

theorem attempts_le_forM (period : BitVec 64) (rounds : List SendRound)
    (s : Logged SendState SendEffect) :
    attempts s.calls ≤ attempts (after (rounds.forM (sendRound period) s)).calls := by
  induction rounds generalizing s with
  | nil => exact Nat.le_refl _
  | cons r rounds ih =>
      rw [forM_cons_ok (run_of_empty s (sendRound period r))]
      exact Nat.le_trans (attempts_le_sendRound period r s) (ih _)

/-! ## The invariant of the loop -/

/-- Between two multiples of the period. -/
theorem div_of_between {t0 period cur n : Nat} (hlo : t0 + n * period ≤ cur)
    (hhi : cur < t0 + (n + 1) * period) : (cur - t0) / period = n :=
  Nat.div_eq_of_lt_le (by omega) (by omega)

/-- A deadline that has wrapped lies before the one before it. -/
theorem not_wrapped {t0 period cur n : Nat} (hperiod : period < 2 ^ 64)
    (hlast : t0 + n * period < 2 ^ 64) (hreached : t0 + n * period ≤ cur)
    (hcur : cur < (t0 + (n + 1) * period) % 2 ^ 64) : t0 + (n + 1) * period < 2 ^ 64 := by
  rw [Nat.add_one_mul] at hcur ⊢
  omega

/-- `last` is the last reading. All attempts were due by then, the deadline is
that of the next one, and all calls were made on schedule. -/
structure Paced (t0 period last : Nat) (s : Logged SendState SendEffect) : Prop where
  started : t0 ≤ last
  deadline : s.state.nextTsc.toNat = (t0 + attempts s.calls * period) % 2 ^ 64
  reached : ∀ k < attempts s.calls, t0 + k * period ≤ last
  schedule : OnSchedule t0 period s.calls

section Run

variable {t0 last : Nat} {period : BitVec 64} {s : Logged SendState SendEffect}

theorem Paced.spins (h : Paced t0 period.toNat last s) {cur : BitVec 64}
    (hle : last ≤ cur.toNat) (hspin : cur < s.state.nextTsc)
    (hwrap : ∀ k < attempts s.calls, t0 + k * period.toNat < 2 ^ 64) :
    attempts s.calls = (cur.toNat - t0) / period.toNat + 1 := by
  have hnext : cur.toNat < (t0 + attempts s.calls * period.toNat) % 2 ^ 64 :=
    h.deadline ▸ BitVec.lt_def.mp hspin
  have hstarted := h.started
  cases hn : attempts s.calls with
  | zero =>
      rw [hn] at hnext
      omega
  | succ n =>
      have hreached := h.reached n (by omega)
      rw [hn] at hnext
      have hfits := not_wrapped period.isLt (hwrap n (by omega)) (by omega) hnext
      rw [Nat.mod_eq_of_lt hfits] at hnext
      rw [div_of_between (by omega) hnext]

theorem Paced.due (h : Paced t0 period.toNat last s) {cur : BitVec 64}
    (hdue : s.state.nextTsc ≤ cur)
    (hwrap : t0 + attempts s.calls * period.toNat < 2 ^ 64) :
    t0 + attempts s.calls * period.toNat ≤ cur.toNat := by
  have hle := BitVec.le_def.mp hdue
  rwa [h.deadline, Nat.mod_eq_of_lt hwrap] at hle

variable {s' : Logged SendState SendEffect}

/-- A spinning round: the deadline lies ahead and stays where it is. -/
theorem Paced.spun (h : Paced t0 period.toNat last s) {cur : BitVec 64}
    (hle : last ≤ cur.toNat) (hspin : cur < s.state.nextTsc)
    (hnext : s'.state.nextTsc = s.state.nextTsc)
    (hcalls : s'.calls = s.calls ++ [.timerCycles cur, .pause])
    (hwrap : ∀ k < attempts s'.calls, t0 + k * period.toNat < 2 ^ 64) :
    Paced t0 period.toNat cur.toNat s' := by
  rw [hcalls, attempts_spin] at hwrap
  have hcount := h.spins hle hspin hwrap
  refine ⟨Nat.le_trans h.started hle, ?_, fun k hk => ?_, ?_⟩
  · rw [hnext, hcalls, attempts_spin, h.deadline]
  · rw [hcalls, attempts_spin] at hk
    exact Nat.le_trans (h.reached k hk) hle
  · rw [OnSchedule, hcalls, justified_append_iff]
    refine ⟨h.schedule, ?_⟩
    simp only [justified_cons_iff, justified_nil, and_true]
    exact ⟨trivial, s.calls, cur, rfl, hcount⟩

/-- An attempt, which is due, and puts the deadline off by one period. -/
theorem Paced.attempted (h : Paced t0 period.toNat last s) {cur : BitVec 64} {done : Bool}
    {rest : List SendEffect} (hle : last ≤ cur.toNat) (hdue : s.state.nextTsc ≤ cur)
    (hnext : s'.state.nextTsc = s.state.nextTsc + period)
    (hrest : ∀ c ∈ rest, SendEffect.isLater c = true)
    (hcalls : s'.calls = s.calls ++ .timerCycles cur :: .clone done :: rest)
    (hwrap : ∀ k < attempts s'.calls, t0 + k * period.toNat < 2 ^ 64) :
    Paced t0 period.toNat cur.toNat s' := by
  have hmore : attempts s'.calls = attempts s.calls + 1 :=
    hcalls ▸ attempts_attempt s.calls cur done hrest
  rw [hmore] at hwrap
  have hreached := h.due hdue (hwrap _ (Nat.lt_succ_self _))
  refine ⟨Nat.le_trans h.started hle, ?_, fun k hk => ?_, ?_⟩
  · rw [hnext, hmore, BitVec.toNat_add, h.deadline, Nat.mod_add_mod, Nat.add_assoc,
      Nat.add_one_mul]
  · rw [hmore] at hk
    rcases Nat.lt_or_eq_of_le (Nat.lt_succ_iff.mp hk) with hlt | rfl
    · exact Nat.le_trans (h.reached k hlt) hle
    · exact hreached
  · rw [OnSchedule, hcalls, justified_append_iff]
    refine ⟨h.schedule, ?_⟩
    simp only [justified_cons_iff]
    refine ⟨trivial, ⟨s.calls, cur, rfl, hreached⟩, justified_of_forall fun pre c hc => ?_⟩
    have hlater := hrest c hc
    cases c <;> trivial

/-- One round, spinning or not, keeps the loop on schedule. -/
theorem Paced.round (h : Paced t0 period.toNat last s) {r : SendRound}
    (hle : last ≤ r.cur.toNat)
    (hwrap : ∀ k < attempts (after (sendRound period r s)).calls,
      t0 + k * period.toNat < 2 ^ 64) :
    Paced t0 period.toNat r.cur.toNat (after (sendRound period r s)) := by
  rcases sendRound_cases period r s with
    ⟨hspin, hnext, hcalls⟩ | ⟨hdue, hnext, rest, hrest, hcalls⟩
  · exact h.spun hle hspin hnext hcalls hwrap
  · exact h.attempted hle hdue hnext hrest hcalls hwrap

theorem Paced.run (h : Paced t0 period.toNat last s) {rounds : List SendRound}
    (hreadings : (last :: rounds.map fun r => r.cur.toNat).IsChain (· ≤ ·))
    (hwrap : ∀ k < attempts (after (rounds.forM (sendRound period) s)).calls,
      t0 + k * period.toNat < 2 ^ 64) :
    OnSchedule t0 period.toNat (after (rounds.forM (sendRound period) s)).calls := by
  induction rounds generalizing last s with
  | nil => exact h.schedule
  | cons r rounds ih =>
      rw [forM_cons_ok (run_of_empty s (sendRound period r))] at hwrap ⊢
      rw [List.map_cons, List.isChain_cons_cons] at hreadings
      have hmore := attempts_le_forM period rounds (after (sendRound period r s))
      exact ih (h.round hreadings.1 fun k hk => hwrap k (Nat.lt_of_lt_of_le hk hmore))
        hreadings.2 hwrap

end Run

/-- In every run of the loop, over readings that do not go back and with any
clones missing and any transmissions refused, attempt `k` is not made before
`t0 + k * period`, and a spinning round finds as many attempts as are due. -/
theorem sender_onSchedule (period t0 : BitVec 64) (rounds : List SendRound)
    (hreadings : (t0.toNat :: rounds.map fun r => r.cur.toNat).IsChain (· ≤ ·))
    (hwrap : ∀ k < attempts (sendCalls period t0 rounds),
      t0.toNat + k * period.toNat < 2 ^ 64) :
    OnSchedule t0.toNat period.toNat (sendCalls period t0 rounds) := by
  have hstart : Paced t0.toNat period.toNat t0.toNat
      (⟨⟨t0, 0#64⟩, []⟩ : Logged SendState SendEffect) := by
    refine ⟨Nat.le_refl _, ?_, nofun, justified_nil⟩
    simp [attempts, Nat.mod_eq_of_lt t0.isLt]
  exact hstart.run hreadings hwrap

/-- On time, a spin, then a late wake-up with three attempts in a row, of which
one gets no clone and one is refused, and a spin again. -/
def lateRounds : List SendRound :=
  [⟨100#64, true, 1#16⟩, ⟨105#64, true, 1#16⟩, ⟨131#64, false, 0#16⟩, ⟨131#64, true, 0#16⟩,
    ⟨132#64, true, 1#16⟩, ⟨135#64, true, 1#16⟩]

theorem sender_onSchedule_late : OnSchedule 100 10 (sendCalls 10#64 100#64 lateRounds) :=
  sender_onSchedule 10#64 100#64 lateRounds (by decide) (by decide)

end ClkSyncApp

end P2pInspection
