import Mathlib.Algebra.BigOperators.Group.Finset.Basic
import Mathlib.Data.Fintype.BigOperators
import Mathlib.Data.Nat.ModEq
import Mathlib.Tactic.Ring

/-!
# Counters that are read through a latch

Counters of the kinds `F`, with a latch behind them: a tick moves what they have
counted into the latch and lets them begin again at zero, a read finds what the
latch holds. Readers `T` make their accesses in any interleaving, given as a
schedule; what is counted in between is any traffic. Values are kept modulo `M`.

`exact_iff` reduces the question whether what some readers find adds up to what
was counted, for all traffic, to the schedule: what is counted before an access
must be found by one of their reads where a tick of theirs follows, and by none
otherwise. For readers that take snapshots (a tick, and a read of every kind)
there are two answers. One reader has it all exactly when no other one ticks in
front of an access of its own (`alone_iff`). All together have it exactly when no
two snapshots overlap (`serial_iff`).

A bank of counters is the simplest device with such a latch. Any other one
(`LatchingDevice`) shows its readers what a bank has latched (`observed_eq`).
-/

namespace CounterLatch

inductive Access (F : Type) where
  | tick
  | read (f : F)
deriving Repr, DecidableEq

/-- An access, and what was counted since the one before it. -/
structure Moment (T F : Type) where
  counted : F → Nat
  reader : T
  access : Access F

structure Bank (F : Type) where
  counter : F → Nat
  latch : F → Nat

variable {T F : Type}

def Access.isTick : Access F → Bool
  | tick => true
  | read _ => false

def Bank.count (b : Bank F) (n : F → Nat) : Bank F :=
  { b with counter := fun f => b.counter f + n f }

def Bank.perform (b : Bank F) : Access F → Bank F
  | .tick => ⟨fun _ => 0, b.counter⟩
  | .read _ => b

def Bank.after (b : Bank F) (m : Moment T F) : Bank F := (b.count m.counted).perform m.access

/-- With the counters at zero. -/
def Bank.cleared (latch : F → Nat) : Bank F := ⟨fun _ => 0, latch⟩

def schedule (ms : List (Moment T F)) : List (T × Access F) :=
  ms.map fun m => (m.reader, m.access)

/-- One of the readers still ticks. -/
def shows (p : T → Bool) (l : List (T × Access F)) : Bool := l.any fun x => p x.1 && x.2.isTick

/-- What is counted up to the last tick of the readers. -/
def shown (p : T → Bool) (f : F) : List (Moment T F) → Nat
  | [] => 0
  | m :: ms => if shows p (schedule (m :: ms)) then m.counted f + shown p f ms else 0

/-- How often something that is counted now should be found. -/
def due (p : T → Bool) (l : List (T × Access F)) : Nat := if shows p l then 1 else 0

section Totals

variable [DecidableEq F] (p : T → Bool) (f : F)

/-- The sum of what the readers find. -/
def found : Bank F → List (Moment T F) → Nat
  | _, [] => 0
  | b, m :: ms =>
      (if p m.reader ∧ m.access = .read f then b.latch f else 0) + found (b.after m) ms

/-- The reads up to the next tick. -/
def window : List (T × Access F) → Nat
  | [] => 0
  | (_, .tick) :: _ => 0
  | (t, .read g) :: l => (if p t ∧ g = f then 1 else 0) + window l

/-- The reads that find what is counted now. -/
def hits : List (T × Access F) → Nat
  | [] => 0
  | (_, .tick) :: l => window p f l
  | (_, .read _) :: l => hits l

/-- Whatever the latch holds at first and whatever is counted, the readers find
what is counted up to their last tick. -/
def Exact (M : Nat) (sched : List (T × Access F)) : Prop :=
  ∀ ms latch, schedule ms = sched →
    found p f (.cleared latch) ms % M = shown p f ms % M

end Totals

/-! ## Traffic is linear -/

section Linear

variable {p : T → Bool} {f : F} {M : Nat} {sched : List (T × Access F)}

/-- What is counted, each part weighed by what follows it. -/
def weigh (g : List (T × Access F) → Nat) (f : F) : List (Moment T F) → Nat
  | [] => 0
  | m :: ms => m.counted f * g (schedule (m :: ms)) + weigh g f ms

theorem found_eq [DecidableEq F] (b : Bank F) (ms : List (Moment T F)) :
    found p f b ms = b.latch f * window p f (schedule ms) + b.counter f * hits p f (schedule ms)
      + weigh (hits p f) f ms := by
  induction ms generalizing b with
  | nil => simp [found, schedule, window, hits, weigh]
  | cons m ms ih =>
      obtain ⟨n, t, a⟩ := m
      rw [found, ih]
      cases a with
      | tick =>
          simp only [schedule, List.map_cons, window, hits, weigh, Bank.after, Bank.count,
            Bank.perform, reduceCtorEq, and_false, if_false]
          ring
      | read g =>
          simp only [schedule, List.map_cons, window, hits, weigh, Bank.after, Bank.count,
            Bank.perform, Access.read.injEq]
          split <;> ring

theorem shown_eq (ms : List (Moment T F)) : shown p f ms = weigh (due p) f ms := by
  induction ms with
  | nil => rfl
  | cons m ms ih =>
      rw [shown, weigh, due, ih]
      cases hshows : shows p (schedule (m :: ms)) with
      | true => simp
      | false =>
          -- Behind the last tick nothing is shown any more.
          have hrest : weigh (due p) f ms = 0 := by
            clear ih
            induction ms generalizing m with
            | nil => rfl
            | cons m' ms ih' =>
                have hshows' : shows p (schedule (m' :: ms)) = false :=
                  (Bool.or_eq_false_iff.mp hshows).2
                rw [weigh, due, hshows', ih' m' hshows']
                rfl
          simp [hrest]

/-- Nothing is counted. -/
def quiet (l : List (T × Access F)) : List (Moment T F) := l.map fun x => ⟨fun _ => 0, x.1, x.2⟩

theorem schedule_quiet (l : List (T × Access F)) : schedule (quiet l) = l := by
  rw [schedule, quiet, List.map_map]
  exact List.map_id l

theorem weigh_quiet (g : List (T × Access F) → Nat) (l : List (T × Access F)) :
    weigh g f (quiet l) = 0 := by
  induction l with
  | nil => rfl
  | cons x l ih =>
      change 0 * _ + weigh g f (quiet l) = 0
      rw [ih, Nat.zero_mul]

/-- One event of every kind, in front of the last accesses. -/
theorem exists_once {l : List (T × Access F)} (hl : l <:+ sched) (hne : l ≠ []) :
    ∃ ms, schedule ms = sched ∧ ∀ g, weigh g f ms = g l := by
  obtain ⟨pre, rfl⟩ := hl
  obtain ⟨x, l, rfl⟩ := List.exists_cons_of_ne_nil hne
  refine ⟨quiet pre ++ ⟨fun _ => 1, x.1, x.2⟩ :: quiet l, ?_, fun g => ?_⟩
  · rw [schedule, List.map_append, List.map_cons]
    exact congrArg₂ (· ++ x :: ·) (schedule_quiet pre) (schedule_quiet l)
  · induction pre with
    | nil =>
        change 1 * g (x :: schedule (quiet l)) + weigh g f (quiet l) = _
        rw [schedule_quiet, weigh_quiet, Nat.one_mul]
        rfl
    | cons y pre ih =>
        change 0 * _ + weigh g f (quiet pre ++ _) = _
        rw [ih, Nat.zero_mul, Nat.zero_add]

theorem weigh_modEq {g g' : List (T × Access F) → Nat} {ms : List (Moment T F)}
    (h : ∀ l, l <:+ schedule ms → l ≠ [] → g l ≡ g' l [MOD M]) :
    weigh g f ms ≡ weigh g' f ms [MOD M] := by
  induction ms with
  | nil => rfl
  | cons m ms ih =>
      refine Nat.ModEq.add ((h _ List.suffix_rfl (List.cons_ne_nil _ _)).mul_left _) (ih ?_)
      exact fun l hl => h l (hl.trans (List.suffix_cons _ _))

theorem exact_iff [DecidableEq F] : Exact p f M sched
    ↔ window p f sched % M = 0 ∧ ∀ l, l <:+ sched → hits p f l % M = due p l % M := by
  constructor
  · intro h
    constructor
    · have hquiet := h (quiet sched) (fun _ => 1) (schedule_quiet sched)
      rw [found_eq, shown_eq, schedule_quiet, weigh_quiet, weigh_quiet] at hquiet
      simpa [Bank.cleared] using hquiet
    · intro l hl
      by_cases hne : l = []
      · subst hne
        rfl
      · obtain ⟨ms, hms, hweigh⟩ := exists_once (f := f) hl hne
        have honce := h ms (fun _ => 0) hms
        rw [found_eq, shown_eq, hweigh, hweigh] at honce
        simpa [Bank.cleared] using honce
  · rintro ⟨hwindow, hhits⟩ ms latch rfl
    rw [found_eq, shown_eq]
    have hlatch : latch f * window p f (schedule ms) ≡ 0 [MOD M] :=
      (Nat.ModEq.mul_left (latch f) (hwindow.trans (Nat.zero_mod M).symm)).trans (by rw [mul_zero])
    have hweigh : weigh (hits p f) f ms ≡ weigh (due p) f ms [MOD M] :=
      weigh_modEq fun l hl _ => hhits l hl
    have hsum : latch f * window p f (schedule ms) + weigh (hits p f) f ms
        ≡ weigh (due p) f ms [MOD M] := by
      simpa using hlatch.add hweigh
    simpa [Bank.cleared, Nat.ModEq] using hsum

end Linear

/-! ## The schedule alone -/

/-- What is counted anywhere in the schedule is found as often as it should be. -/
def EachOnce [DecidableEq F] (M : Nat) (p : T → Bool) (f : F) (l : List (T × Access F)) : Prop :=
  ∀ l', l' <:+ l → hits p f l' % M = due p l' % M

theorem shows_read (p : T → Bool) (t : T) (g : F) (l : List (T × Access F)) :
    shows p ((t, .read g) :: l) = shows p l := by
  change (p t && false || shows p l) = _
  rw [Bool.and_false, Bool.false_or]

section Schedules

variable [DecidableEq F] {p : T → Bool} {f : F} {M : Nat} {l : List (T × Access F)} {t : T}

theorem eachOnce_nil : EachOnce M p f [] := by
  intro l hl
  rw [List.suffix_nil.mp hl]
  rfl

theorem eachOnce_cons_iff {x : T × Access F} : EachOnce M p f (x :: l)
    ↔ hits p f (x :: l) % M = due p (x :: l) % M ∧ EachOnce M p f l := by
  constructor
  · intro h
    exact ⟨h _ List.suffix_rfl, fun l' hl' => h l' (hl'.trans (List.suffix_cons x l))⟩
  · rintro ⟨hhead, hrest⟩ l' hl'
    rcases List.suffix_cons_iff.mp hl' with rfl | hl'
    · exact hhead
    · exact hrest l' hl'

theorem eachOnce_read_iff {g : F} :
    EachOnce M p f ((t, .read g) :: l) ↔ EachOnce M p f l := by
  rw [eachOnce_cons_iff, due, shows_read]
  constructor
  · rintro ⟨-, h⟩
    exact h
  · intro h
    exact ⟨h l List.suffix_rfl, h⟩

theorem eachOnce_tick_iff : EachOnce M p f ((t, .tick) :: l)
    ↔ window p f l % M = due p ((t, .tick) :: l) % M ∧ EachOnce M p f l :=
  eachOnce_cons_iff

theorem exact_iff_eachOnce :
    Exact p f M l ↔ window p f l % M = 0 ∧ EachOnce M p f l := exact_iff

end Schedules

/-! ## Readers that take snapshots -/

/-- A tick, and a read of every kind. -/
def snapshot (kinds : List F) : List (Access F) := .tick :: kinds.map .read

def snapshots (kinds : List F) (n : Nat) : List (Access F) :=
  (List.replicate n (snapshot kinds)).flatten

theorem snapshots_succ (kinds : List F) (n : Nat) :
    snapshots kinds (n + 1) = snapshot kinds ++ snapshots kinds n := rfl

/-- Snapshots behind each other, by the readers in this order. -/
def Serial (kinds : List F) (l : List (T × Access F)) : Prop :=
  ∃ order : List T, l = order.flatMap fun t => (snapshot kinds).map fun a => (t, a)

theorem serial_nil (kinds : List F) : Serial kinds ([] : List (T × Access F)) := ⟨[], rfl⟩

theorem serial_snapshot (kinds : List F) (t : T) :
    Serial kinds ((snapshot kinds).map fun a => (t, a)) :=
  ⟨[t], (List.append_nil _).symm⟩

theorem Serial.append {kinds : List F} {l l' : List (T × Access F)} (h : Serial kinds l)
    (h' : Serial kinds l') : Serial kinds (l ++ l') := by
  obtain ⟨order, rfl⟩ := h
  obtain ⟨order', rfl⟩ := h'
  exact ⟨order ++ order', List.flatMap_append.symm⟩

section Readers

variable [DecidableEq T]

/-- The accesses of one reader. -/
def own (t : T) (l : List (T × Access F)) : List (Access F) :=
  (l.filter fun x => x.1 = t).map Prod.snd

def only (t : T) : T → Bool := fun s => decide (s = t)

/-- No other reader ticks in front of an access of the reader. -/
def Alone (t : T) (l : List (T × Access F)) : Prop :=
  ∀ pre s post, l = pre ++ (s, .tick) :: post → s ≠ t → own t post = []

variable {t s : T} {a : Access F} {l : List (T × Access F)}

@[simp] theorem own_cons_self : own t ((t, a) :: l) = a :: own t l := by simp [own]

theorem own_cons_of_ne (h : s ≠ t) : own t ((s, a) :: l) = own t l := by simp [own, h]

theorem alone_cons_iff : Alone t ((s, a) :: l)
    ↔ (a = .tick → s ≠ t → own t l = []) ∧ Alone t l := by
  constructor
  · intro h
    refine ⟨fun ha => h [] s l (by rw [ha]; rfl), fun pre s' post heq => ?_⟩
    exact h ((s, a) :: pre) s' post (by rw [heq]; rfl)
  · rintro ⟨hhead, hrest⟩ pre s' post heq
    cases pre with
    | nil =>
        obtain ⟨hx, rfl⟩ := List.cons.inj heq
        obtain ⟨rfl, rfl⟩ := Prod.mk.inj hx
        exact hhead rfl
    | cons y pre => exact hrest pre s' post (List.cons.inj heq).2

theorem alone_nil : Alone t ([] : List (T × Access F)) := by
  intro pre s post heq
  simp at heq

theorem alone_cons_self : Alone t ((t, a) :: l) ↔ Alone t l := by
  rw [alone_cons_iff]
  exact and_iff_right fun _ hne => absurd rfl hne

theorem alone_cons_read (f : F) : Alone t ((s, .read f) :: l) ↔ Alone t l := by
  rw [alone_cons_iff]
  exact and_iff_right fun htick => by cases htick

theorem alone_cons_tick (hs : s ≠ t) : Alone t ((s, .tick) :: l) ↔ own t l = [] ∧ Alone t l := by
  rw [alone_cons_iff]
  exact and_congr_left fun _ => ⟨fun h => h rfl hs, fun h _ _ => h⟩

theorem own_append (as : List (Access F)) (l : List (T × Access F)) :
    own t (as.map (fun a => (s, a)) ++ l) = (if s = t then as else []) ++ own t l := by
  induction as with
  | nil => simp
  | cons a as ih =>
      rw [List.map_cons, List.cons_append]
      by_cases hs : s = t
      · subst hs
        rw [own_cons_self, ih, if_pos rfl, if_pos rfl, List.cons_append]
      · rw [own_cons_of_ne hs, ih, if_neg hs, if_neg hs]

/-- Its own accesses do not disturb a reader. -/
theorem alone_append_self (as : List (Access F)) (l : List (T × Access F)) :
    Alone t (as.map (fun a => (t, a)) ++ l) ↔ Alone t l := by
  induction as with
  | nil => rfl
  | cons a as ih =>
      rw [List.map_cons, List.cons_append, alone_cons_self, ih]

/-- A snapshot of another reader does, unless the reader has finished. -/
theorem alone_append_other (hs : s ≠ t) (kinds : List F) (l : List (T × Access F)) :
    Alone t ((snapshot kinds).map (fun a => (s, a)) ++ l) ↔ own t l = [] ∧ Alone t l := by
  have hreads : Alone t ((kinds.map Access.read).map (fun a => (s, a)) ++ l) ↔ Alone t l := by
    induction kinds with
    | nil => rfl
    | cons f kinds ih =>
        rw [List.map_cons, List.map_cons, List.cons_append, alone_cons_read, ih]
  rw [snapshot, List.map_cons, List.cons_append, alone_cons_tick hs, hreads, own_append, if_neg hs,
    List.nil_append]

theorem shows_only_iff : shows (only t) l = true ↔ .tick ∈ own t l := by
  induction l with
  | nil => simp [shows, own]
  | cons x l ih =>
      obtain ⟨s, a⟩ := x
      rw [shows, List.any_cons, Bool.or_eq_true, ← shows, ih]
      by_cases hs : s = t
      · subst hs
        cases a <;> simp [only, Access.isTick]
      · rw [own_cons_of_ne hs]
        simp [only, hs]

variable {M : Nat}

theorem due_only (h : .tick ∈ own t l) (hM : 1 < M) : due (only t) l % M = 1 := by
  rw [due, if_pos (shows_only_iff.mpr h), Nat.mod_eq_of_lt hM]

theorem due_only_of_notMem (h : .tick ∉ own t l) : due (only t) l = 0 := by
  rw [due, if_neg fun hshows => h (shows_only_iff.mp hshows)]

variable [DecidableEq F] {kinds r : List F} {f : F} {n : Nat}

/-- A reader that has read a kind reads it again behind its next tick only. -/
theorem window_eq_zero (hown : own t l = r.map .read ++ snapshots kinds n) (hf : f ∉ r) :
    window (only t) f l = 0 := by
  induction l generalizing r with
  | nil => rfl
  | cons x l ih =>
      obtain ⟨s, a⟩ := x
      cases a with
      | tick => rfl
      | read g =>
          rw [window]
          by_cases hs : s = t
          · subst hs
            rw [own_cons_self] at hown
            cases r with
            | nil =>
                cases n with
                | zero => cases hown
                | succ n => cases hown
            | cons g' r =>
                obtain ⟨hg, hrest⟩ := List.cons.inj hown
                cases hg
                rw [ih hrest (List.not_mem_of_not_mem_cons hf), if_neg]
                rintro ⟨-, rfl⟩
                exact hf List.mem_cons_self
          · rw [own_cons_of_ne hs] at hown
            rw [ih hown hf, if_neg fun h => hs (of_decide_eq_true h.1)]

/-- In the middle of a snapshot, with the kinds of `r` still to be read: what the
latch holds of them is found once, and so is what is counted from now on. -/
structure Pending (M : Nat) (kinds r : List F) (t : T) (l : List (T × Access F)) : Prop where
  later : ∀ f ∈ kinds, EachOnce M (only t) f l
  held : ∀ f ∈ r, window (only t) f l % M = 1

/-- The next snapshot begins: all kinds are to be read again. -/
theorem pending_own_tick (hM : 1 < M) :
    Pending M kinds [] t ((t, .tick) :: l) ↔ Pending M kinds kinds t l := by
  have hdue : due (only t) ((t, .tick) :: l) % M = 1 := due_only (by simp) hM
  constructor
  · rintro ⟨hlater, -⟩
    simp only [eachOnce_tick_iff, hdue] at hlater
    exact ⟨fun f hf => (hlater f hf).2, fun f hf => (hlater f hf).1⟩
  · rintro ⟨hlater, hheld⟩
    refine ⟨fun f hf => eachOnce_tick_iff.mpr ⟨?_, hlater f hf⟩, List.forall_mem_nil _⟩
    rw [hheld f hf, hdue]

theorem pending_own_read (hM : 1 < M) {g : F} (hg : g ∉ r) (hwindow : window (only t) g l = 0) :
    Pending M kinds (g :: r) t ((t, .read g) :: l) ↔ Pending M kinds r t l := by
  have hfirst : window (only t) g ((t, .read g) :: l) % M = 1 := by
    rw [window, hwindow, if_pos ⟨decide_eq_true rfl, rfl⟩, Nat.mod_eq_of_lt hM]
  have hother : ∀ f ∈ r, window (only t) f ((t, .read g) :: l) = window (only t) f l := by
    intro f hf
    rw [window, if_neg, Nat.zero_add]
    rintro ⟨-, rfl⟩
    exact hg hf
  constructor
  · rintro ⟨hlater, hheld⟩
    refine ⟨fun f hf => eachOnce_read_iff.mp (hlater f hf), fun f hf => ?_⟩
    rw [← hother f hf]
    exact hheld f (List.mem_cons_of_mem g hf)
  · rintro ⟨hlater, hheld⟩
    refine ⟨fun f hf => eachOnce_read_iff.mpr (hlater f hf), ?_⟩
    rw [List.forall_mem_cons]
    refine ⟨hfirst, fun f hf => ?_⟩
    rw [hother f hf]
    exact hheld f hf

theorem pending_other_read (hs : s ≠ t) (g : F) :
    Pending M kinds r t ((s, .read g) :: l) ↔ Pending M kinds r t l := by
  have hwindow : ∀ f, window (only t) f ((s, .read g) :: l) = window (only t) f l := by
    intro f
    rw [window, if_neg fun h => hs (of_decide_eq_true h.1), Nat.zero_add]
  constructor
  · rintro ⟨hlater, hheld⟩
    exact ⟨fun f hf => eachOnce_read_iff.mp (hlater f hf), fun f hf => hwindow f ▸ hheld f hf⟩
  · rintro ⟨hlater, hheld⟩
    refine ⟨fun f hf => eachOnce_read_iff.mpr (hlater f hf), fun f hf => ?_⟩
    rw [hwindow]
    exact hheld f hf

/-- What the latch held is gone, so nothing of it can have been left to be read. -/
theorem pending_other_tick (hM : 1 < M) (hkinds : kinds ≠ []) (hs : s ≠ t)
    (hown : own t l = r.map .read ++ snapshots kinds n) :
    Pending M kinds r t ((s, .tick) :: l) ↔ own t l = [] ∧ Pending M kinds r t l := by
  have htail : own t ((s, .tick) :: l) = own t l := own_cons_of_ne hs
  constructor
  · rintro ⟨hlater, hheld⟩
    have hr : r = [] := by
      rw [List.eq_nil_iff_forall_not_mem]
      intro f hf
      have hlost := hheld f hf
      rw [window, Nat.zero_mod] at hlost
      cases hlost
    subst hr
    cases n with
    | zero =>
        exact ⟨hown, fun f hf => (eachOnce_tick_iff.mp (hlater f hf)).2, List.forall_mem_nil _⟩
    | succ n =>
        obtain ⟨f, hf⟩ := List.exists_mem_of_ne_nil kinds hkinds
        have htick : .tick ∈ own t ((s, .tick) :: l) := by
          rw [htail, hown]
          exact List.mem_cons_self
        have hlost := (eachOnce_tick_iff.mp (hlater f hf)).1
        rw [window_eq_zero hown List.not_mem_nil, due_only htick hM, Nat.zero_mod] at hlost
        cases hlost
  · rintro ⟨hend, hlater, -⟩
    obtain ⟨hr, -⟩ := List.append_eq_nil_iff.mp (hown.symm.trans hend)
    rw [List.map_eq_nil_iff] at hr
    subst hr
    refine ⟨fun f hf => eachOnce_tick_iff.mpr ⟨?_, hlater f hf⟩, List.forall_mem_nil _⟩
    have hnot : .tick ∉ own t ((s, .tick) :: l) := by
      rw [htail, hend]
      exact List.not_mem_nil
    rw [window_eq_zero hown List.not_mem_nil, due_only_of_notMem hnot]

theorem pending_iff (hM : 1 < M) (hkinds : kinds ≠ []) (hnodup : kinds.Nodup) (hr : r.Nodup)
    (hown : own t l = r.map .read ++ snapshots kinds n) : Pending M kinds r t l ↔ Alone t l := by
  induction l generalizing r n with
  | nil =>
      obtain ⟨hr, -⟩ := List.append_eq_nil_iff.mp hown.symm
      rw [List.map_eq_nil_iff] at hr
      subst hr
      exact iff_of_true ⟨fun _ _ => eachOnce_nil, List.forall_mem_nil _⟩ alone_nil
  | cons x l ih =>
      obtain ⟨s, a⟩ := x
      by_cases hs : s = t
      · subst hs
        rw [own_cons_self] at hown
        rw [alone_cons_self]
        cases r with
        | nil =>
            cases n with
            | zero => cases hown
            | succ n =>
                obtain ⟨rfl, hrest⟩ := List.cons.inj hown
                rw [pending_own_tick hM, ih hnodup hrest]
        | cons g r =>
            obtain ⟨rfl, hrest⟩ := List.cons.inj hown
            obtain ⟨hg, hr⟩ := List.nodup_cons.mp hr
            rw [pending_own_read hM hg (window_eq_zero hrest hg), ih hr hrest]
      · rw [own_cons_of_ne hs] at hown
        cases a with
        | read g => rw [pending_other_read hs, alone_cons_read, ih hr hown]
        | tick => rw [pending_other_tick hM hkinds hs hown, alone_cons_tick hs, ih hr hown]

/-- A reader has what is counted up to its last tick, whatever the traffic,
exactly when no other reader ticks in front of an access of its own. -/
theorem alone_iff (hM : 1 < M) (hkinds : kinds ≠ []) (hnodup : kinds.Nodup)
    (hown : own t l = snapshots kinds n) :
    (∀ f ∈ kinds, Exact (only t) f M l) ↔ Alone t l := by
  have hstart : own t l = ([] : List F).map .read ++ snapshots kinds n := hown
  rw [← pending_iff hM hkinds hnodup List.nodup_nil hstart]
  simp only [exact_iff_eachOnce, window_eq_zero hstart List.not_mem_nil, Nat.zero_mod, true_and]
  exact ⟨fun h => ⟨h, List.forall_mem_nil _⟩, fun h => h.later⟩

end Readers

/-! ## All readers together -/

def everyone : T → Bool := fun _ => true

section Together

variable {kinds : List F} {M : Nat} {l : List (T × Access F)}

theorem due_tick (hM : 1 < M) (t : T) (l : List (T × Access F)) :
    due everyone ((t, .tick) :: l) % M = 1 := by
  rw [due, if_pos (by simp [shows, everyone, Access.isTick]), Nat.mod_eq_of_lt hM]

variable [DecidableEq F]

/-- The reads of a snapshot, with nothing in between, find each kind once. -/
theorem window_snapshot {t : T} {f : F} {r : List F} (hr : r.Nodup) (order : List T) :
    window everyone f (r.map (fun g => (t, .read g))
        ++ order.flatMap fun t => (snapshot kinds).map fun a => (t, a))
      = if f ∈ r then 1 else 0 := by
  induction r with
  | nil => cases order <;> rfl
  | cons g r ih =>
      obtain ⟨hg, hr⟩ := List.nodup_cons.mp hr
      rw [List.map_cons, List.cons_append, window, ih hr]
      by_cases hfg : g = f
      · subst hfg
        simp [everyone, hg]
      · simp [hfg, Ne.symm hfg]

theorem eachOnce_of_serial (hM : 1 < M) (hnodup : kinds.Nodup) (h : Serial kinds l) {f : F}
    (hf : f ∈ kinds) : EachOnce M everyone f l := by
  have hreads : ∀ (t : T) (r : List F) (rest : List (T × Access F)),
      EachOnce M everyone f (r.map (fun g => (t, .read g)) ++ rest)
        ↔ EachOnce M everyone f rest := by
    intro t r rest
    induction r with
    | nil => rfl
    | cons g r ih => exact eachOnce_read_iff.trans ih
  obtain ⟨order, rfl⟩ := h
  induction order with
  | nil => exact eachOnce_nil
  | cons t order ih =>
      have hblock : (t :: order).flatMap (fun t => (snapshot kinds).map fun a => (t, a))
          = (t, .tick) :: (kinds.map (fun g => (t, .read g))
            ++ order.flatMap fun t => (snapshot kinds).map fun a => (t, a)) := by
        simp [snapshot, Function.comp_def]
      rw [hblock, eachOnce_tick_iff, hreads, window_snapshot hnodup, if_pos hf, due_tick hM,
        Nat.mod_eq_of_lt hM]
      exact ⟨rfl, ih⟩

variable [DecidableEq T]

/-- If all that a tick has latched is read, the snapshot goes on undisturbed. -/
theorem exists_rest {t : T} {r : List F} {n : T → Nat} (hr : r.Nodup)
    (hself : own t l = r.map .read ++ snapshots kinds (n t))
    (hothers : ∀ s, s ≠ t → own s l = snapshots kinds (n s))
    (hread : ∀ f ∈ r, window everyone f l ≠ 0) :
    ∃ rest, l = r.map (fun f => (t, .read f)) ++ rest
      ∧ ∀ s, own s rest = snapshots kinds (n s) := by
  induction r generalizing l with
  | nil =>
      refine ⟨l, rfl, fun s => ?_⟩
      by_cases hs : s = t
      · exact hs ▸ hself
      · exact hothers s hs
  | cons g r ih =>
      obtain ⟨hg, hr⟩ := List.nodup_cons.mp hr
      cases l with
      | nil => cases hself
      | cons x l =>
          obtain ⟨s, a⟩ := x
          by_cases hs : s = t
          · subst hs
            rw [own_cons_self] at hself
            obtain ⟨rfl, hnext⟩ := List.cons.inj hself
            have hread' : ∀ f ∈ r, window everyone f l ≠ 0 := by
              intro f hf hzero
              refine hread f (List.mem_cons_of_mem g hf) ?_
              rw [window, hzero, if_neg]
              rintro ⟨-, rfl⟩
              exact hg hf
            have hothers' : ∀ s', s' ≠ s → own s' l = snapshots kinds (n s') := by
              intro s' hs'
              rw [← hothers s' hs', own_cons_of_ne (Ne.symm hs')]
            obtain ⟨rest, rfl, hrest⟩ := ih hr hnext hothers' hread'
            exact ⟨rest, rfl, hrest⟩
          · -- Another reader could only tick here.
            have hother := hothers s hs
            rw [own_cons_self] at hother
            cases hn : n s with
            | zero =>
                rw [hn] at hother
                cases hother
            | succ k =>
                rw [hn] at hother
                obtain ⟨rfl, -⟩ := List.cons.inj hother
                exact absurd rfl (hread g List.mem_cons_self)

theorem serial_of_eachOnce (hM : 1 < M) (hnodup : kinds.Nodup) {n : T → Nat}
    (hown : ∀ t, own t l = snapshots kinds (n t))
    (heach : ∀ f ∈ kinds, EachOnce M everyone f l) : Serial kinds l := by
  induction hlen : l.length using Nat.strong_induction_on generalizing l n with
  | _ len ih =>
      cases l with
      | nil => exact ⟨[], rfl⟩
      | cons x l =>
          obtain ⟨t, a⟩ := x
          have hself := hown t
          rw [own_cons_self] at hself
          cases hn : n t with
          | zero =>
              rw [hn] at hself
              cases hself
          | succ k =>
              rw [hn] at hself
              obtain ⟨rfl, hnext⟩ := List.cons.inj hself
              have hread : ∀ f ∈ kinds, window everyone f l ≠ 0 := by
                intro f hf hzero
                have honce := (eachOnce_tick_iff.mp (heach f hf)).1
                rw [hzero, due_tick hM, Nat.zero_mod] at honce
                cases honce
              have hself' : own t l = kinds.map .read
                  ++ snapshots kinds (Function.update n t k t) := by
                rw [Function.update_self]
                exact hnext
              have hothers : ∀ s, s ≠ t → own s l = snapshots kinds (Function.update n t k s) := by
                intro s hs
                rw [Function.update_of_ne hs, ← hown s, own_cons_of_ne (Ne.symm hs)]
              obtain ⟨rest, rfl, hrest⟩ := exists_rest hnodup hself' hothers hread
              have hsuffix : rest <:+ (t, .tick) :: (kinds.map (fun f => (t, .read f)) ++ rest) :=
                (List.suffix_append _ rest).trans (List.suffix_cons _ _)
              have hshorter : rest.length < len := by
                simp only [List.length_cons, List.length_append] at hlen
                omega
              obtain ⟨order, rfl⟩ := ih _ hshorter hrest
                (fun f hf l' hl' => heach f hf l' (hl'.trans hsuffix)) rfl
              exact ⟨t :: order, by simp [snapshot, Function.comp_def]⟩

/-- All readers together have what is counted up to the last tick, whatever the
traffic, exactly when no two of their snapshots overlap. -/
theorem serial_iff (hM : 1 < M) (hnodup : kinds.Nodup) {n : T → Nat}
    (hown : ∀ t, own t l = snapshots kinds (n t)) :
    (∀ f ∈ kinds, Exact everyone f M l) ↔ Serial kinds l := by
  constructor
  · intro h
    exact serial_of_eachOnce hM hnodup hown fun f hf => (exact_iff_eachOnce.mp (h f hf)).2
  · intro h f hf
    refine exact_iff_eachOnce.mpr ⟨?_, eachOnce_of_serial hM hnodup h hf⟩
    obtain ⟨order, rfl⟩ := h
    cases order with
    | nil => rfl
    | cons t order => exact Nat.zero_mod M

end Together

/-! ## Reader by reader -/

/-- What the latch holds at each access of these readers. -/
def observed (p : T → Bool) : Bank F → List (Moment T F) → List (F → Nat)
  | _, [] => []
  | b, m :: ms =>
      if p m.reader then b.latch :: observed p (b.after m) ms else observed p (b.after m) ms

/-- The sum of what reads of a kind find, with these answers to the accesses. -/
def tally [DecidableEq F] (f : F) : List (Access F) → List (F → Nat) → Nat
  | [], _ => 0
  | a :: as, values =>
      (if a = .read f then values.headD (fun _ => 0) f else 0) + tally f as values.tail

/-- The part of it that these readers find. -/
def gathered [DecidableEq F] (p : T → Bool) (f : F) :
    List (T × Access F) → List (F → Nat) → Nat
  | [], _ => 0
  | x :: l, values =>
      (if p x.1 ∧ x.2 = .read f then values.headD (fun _ => 0) f else 0)
        + gathered p f l values.tail

section Answers

variable [DecidableEq F] {f : F}

theorem tally_append (as as' : List (Access F)) (values : List (F → Nat)) :
    tally f (as ++ as') values = tally f as values + tally f as' (values.drop as.length) := by
  induction as generalizing values with
  | nil => exact (Nat.zero_add _).symm
  | cons a as ih =>
      rw [List.cons_append, tally, tally, ih, List.length_cons, ← List.drop_one, List.drop_drop,
        Nat.add_comm 1, Nat.add_assoc]

theorem found_eq_tally [DecidableEq T] (t : T) (b : Bank F) (ms : List (Moment T F)) :
    found (only t) f b ms = tally f (own t (schedule ms)) (observed (only t) b ms) := by
  induction ms generalizing b with
  | nil => rfl
  | cons m ms ih =>
      have hcons : schedule (m :: ms) = (m.reader, m.access) :: schedule ms := rfl
      rw [found, ih, observed, hcons]
      by_cases ht : m.reader = t
      · have hreader : only t m.reader = true := decide_eq_true ht
        rw [if_pos hreader, ht, own_cons_self, tally]
        simp [only]
      · have hreader : ¬only t m.reader = true := fun h => ht (of_decide_eq_true h)
        rw [if_neg hreader, own_cons_of_ne ht, if_neg fun h => hreader h.1, Nat.zero_add]

theorem found_eq_gathered (p : T → Bool) (b : Bank F) (ms : List (Moment T F)) :
    found p f b ms = gathered p f (schedule ms) (observed everyone b ms) := by
  induction ms generalizing b with
  | nil => rfl
  | cons m ms ih =>
      rw [found, ih]
      rfl

/-- Accesses of one reader first. -/
theorem gathered_append (p : T → Bool) (t : T) (as : List (Access F)) (l : List (T × Access F))
    (values : List (F → Nat)) : gathered p f (as.map (fun a => (t, a)) ++ l) values
      = (if p t then tally f as values else 0) + gathered p f l (values.drop as.length) := by
  induction as generalizing values with
  | nil => simp [tally]
  | cons a as ih =>
      rw [List.map_cons, List.cons_append, gathered, ih, tally, List.length_cons, ← List.drop_one,
        List.drop_drop, Nat.add_comm 1]
      by_cases ht : p t = true
      · simp [ht, Nat.add_assoc]
      · simp [ht]

/-- Every value is found by one of the readers. -/
theorem sum_found [Fintype T] [DecidableEq T] (b : Bank F) (ms : List (Moment T F)) :
    ∑ t, found (only t) f b ms = found everyone f b ms := by
  induction ms generalizing b with
  | nil => simp [found]
  | cons m ms ih =>
      simp only [found, Finset.sum_add_distrib, ih, only, everyone, decide_eq_true_eq, true_and]
      congr 1
      by_cases hread : m.access = .read f
      · simp [hread]
      · simp [hread]

end Answers

/-! ## Devices with such counters -/

/-- A device that counts behind a latch, and shows what it has latched as a `V`.
`held` is what it has counted since the last tick. -/
structure LatchingDevice (F V : Type) (encode : Nat → V) where
  State : Type
  init : State
  count : (F → Nat) → State → State
  tick : State → State
  value : State → F → V
  held : State → F → Nat
  held_count : ∀ n s f, held (count n s) f = held s f + n f
  held_tick : ∀ s f, held (tick s) f = 0
  value_count : ∀ n s f, value (count n s) f = value s f
  value_tick : ∀ s f, value (tick s) f = encode (held s f)

namespace LatchingDevice

variable {V : Type} {encode : Nat → V} (D : LatchingDevice F V encode)

def after (s : D.State) (m : Moment T F) : D.State :=
  match m.access with
  | .tick => D.tick (D.count m.counted s)
  | .read _ => D.count m.counted s

/-- What the device shows at each access of these readers. -/
def observed (p : T → Bool) : D.State → List (Moment T F) → List (F → V)
  | _, [] => []
  | s, m :: ms =>
      if p m.reader then D.value s :: observed p (D.after s m) ms
      else observed p (D.after s m) ms

/-- The state of the device stands for a bank. -/
structure Represents (s : D.State) (b : Bank F) : Prop where
  counter : ∀ f, b.counter f = D.held s f
  latch : ∀ f, D.value s f = encode (b.latch f)

variable {D}

theorem represents_tick (s : D.State) : D.Represents (D.tick s) (.cleared (D.held s)) :=
  ⟨fun f => (D.held_tick s f).symm, D.value_tick s⟩

/-- A device can have latched anything. -/
theorem exists_held (latch : F → Nat) : ∃ s, D.held s = latch := by
  refine ⟨D.count latch (D.tick D.init), funext fun f => ?_⟩
  rw [D.held_count, D.held_tick, Nat.zero_add]

theorem Represents.after {s : D.State} {b : Bank F} (h : D.Represents s b) (m : Moment T F) :
    D.Represents (D.after s m) (b.after m) := by
  have hcounted : D.Represents (D.count m.counted s) (b.count m.counted) := by
    refine ⟨fun f => ?_, fun f => ?_⟩
    · rw [D.held_count, ← h.counter f]
      rfl
    · rw [D.value_count, h.latch f]
      rfl
  obtain ⟨n, t, a⟩ := m
  cases a with
  | read f => exact hcounted
  | tick =>
      refine ⟨fun f => (D.held_tick _ f).symm, fun f => (D.value_tick _ f).trans ?_⟩
      rw [← hcounted.counter f]
      rfl

theorem observed_eq {s : D.State} {b : Bank F} (h : D.Represents s b) (p : T → Bool)
    (ms : List (Moment T F)) :
    D.observed p s ms = (CounterLatch.observed p b ms).map fun latch f => encode (latch f) := by
  induction ms generalizing s b with
  | nil => rfl
  | cons m ms ih =>
      rw [observed, CounterLatch.observed, ih (h.after m)]
      have hvalue : D.value s = fun f => encode (b.latch f) := funext h.latch
      split
      · rw [hvalue, List.map_cons]
      · rfl

end LatchingDevice

/-- The bank itself. -/
def bankDevice (F : Type) {V : Type} (encode : Nat → V) : LatchingDevice F V encode where
  State := Bank F
  init := .cleared fun _ => 0
  count n b := b.count n
  tick b := b.perform .tick
  value b f := encode (b.latch f)
  held b := b.counter
  held_count _ _ _ := rfl
  held_tick _ _ := rfl
  value_count _ _ _ := rfl
  value_tick _ _ := rfl

end CounterLatch
