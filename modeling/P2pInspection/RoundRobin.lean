import Mathlib.Data.BitVec
import Mathlib.Data.Int.CardIntervalMod
import Mathlib.Data.List.Rotate

/-!
# Round robin by a wrapping counter

Requests are served one after the other. The server keeps a counter of `w`
bits, serves a request with what it chooses at the counter, and moves the
counter on at some requests only. `Follows` says this of a list of turns, and
is kept by one more turn.

`InTurn` is what round robin promises: request `k` is served by slot `k % n`,
so any `n` requests in a row get every slot once. `Balanced` promises less:
after any number of requests no slot is two ahead of another. A counter that
moves at every request gives it until it wraps, and for ever only if `n`
divides `2 ^ w` (`Wrapping.balanced_iff`).
-/

namespace RoundRobin

variable {α : Type} {w : Nat}

/-! ## Turns -/

/-- How many of the turns moved the counter. -/
def moved (l : List (α × Bool)) : Nat := l.countP Prod.snd

theorem moved_snoc (l : List (α × Bool)) (x : α) (b : Bool) :
    moved (l ++ [(x, b)]) = moved l + if b then 1 else 0 := by
  simp [moved, List.countP_append, List.countP_singleton]

theorem moved_eq_length {l : List (α × Bool)} (hall : ∀ x ∈ l, x.2 = true) :
    moved l = l.length :=
  List.countP_eq_length.mpr hall

/-- Every turn was served by the choice at the counter then, and `c` is the counter now. -/
structure Follows (choose : BitVec w → α) (l : List (α × Bool)) (c : BitVec w) : Prop where
  counter : c = BitVec.ofNat w (moved l)
  served : ∀ k (hk : k < l.length), l[k].1 = choose (BitVec.ofNat w (moved (l.take k)))

theorem Follows.nil (choose : BitVec w → α) : Follows choose [] 0 :=
  ⟨rfl, fun k hk => absurd hk (Nat.not_lt_zero k)⟩

theorem Follows.snoc {choose : BitVec w → α} {l : List (α × Bool)} {c : BitVec w}
    (h : Follows choose l c) (b : Bool) :
    Follows choose (l ++ [(choose c, b)]) (if b then c + 1 else c) := by
  constructor
  · rw [moved_snoc, h.counter]
    cases b with
    | false => rfl
    | true => rw [if_pos rfl, if_pos rfl, BitVec.ofNat_add]; rfl
  · intro k hk
    rw [List.length_append, List.length_singleton] at hk
    rcases Nat.lt_or_eq_of_le (Nat.le_of_lt_succ hk) with hlt | rfl
    · rw [List.getElem_append_left hlt, List.take_append_of_le_length (Nat.le_of_lt hlt)]
      exact h.served k hlt
    · rw [List.getElem_concat_length rfl, List.take_left]
      exact congrArg choose h.counter

/-! ## In turn -/

/-- Request `k` is served by slot `k % n`. -/
def InTurn (slot : Nat → α) (n : Nat) (l : List α) : Prop :=
  ∀ k (hk : k < l.length), l[k] = slot (k % n)

theorem Follows.inTurn_iff {choose : BitVec w → α} {l : List (α × Bool)} {c : BitVec w}
    (h : Follows choose l c) {slot : Nat → α} {n : Nat} :
    InTurn slot n (l.map Prod.fst)
      ↔ ∀ k < l.length, choose (BitVec.ofNat w (moved (l.take k))) = slot (k % n) := by
  constructor
  · intro hturn k hk
    have hk' := hturn k (by rwa [List.length_map])
    rwa [List.getElem_map, h.served k hk] at hk'
  · intro hall k hk
    rw [List.length_map] at hk
    rw [List.getElem_map, h.served k hk]
    exact hall k hk

/-- Any `n` numbers in a row have all the remainders modulo `n`. -/
theorem remainders_perm (n i : Nat) :
    ((List.range n).map fun j => (i + j) % n).Perm (List.range n) := by
  have hrotate : ((List.range n).map fun j => (i + j) % n) = (List.range n).rotate i := by
    refine List.ext_getElem (by simp) fun j hj hj' => ?_
    rw [List.getElem_map, List.getElem_rotate, List.getElem_range, List.getElem_range,
      List.length_range, Nat.add_comm]
  rw [hrotate]
  exact List.rotate_perm _ _

/-- Any `n` requests in a row are served by every slot once. -/
theorem InTurn.window {slot : Nat → α} {n : Nat} {l : List α} (h : InTurn slot n l) {i : Nat}
    (hi : i + n ≤ l.length) : ((l.drop i).take n).Perm ((List.range n).map slot) := by
  have hwindow : (l.drop i).take n
      = ((List.range n).map fun j => (i + j) % n).map slot := by
    refine List.ext_getElem (by simp; omega) fun j hj hj' => ?_
    rw [List.getElem_take, List.getElem_drop, h, List.getElem_map, List.getElem_map,
      List.getElem_range]
  rw [hwindow]
  exact (remainders_perm n i).map slot

/-! ## Turns that move the counter -/

section Different

variable {slot : Nat → α} {n : Nat}

theorem moved_take {l : List (α × Bool)} {m : Nat} (hm : m ≤ l.length)
    (hall : ∀ k (hk : k < l.length), k < m → l[k].2 = true) : moved (l.take m) = m := by
  rw [moved_eq_length, List.length_take, Nat.min_eq_left hm]
  intro x hx
  obtain ⟨k, hk, rfl⟩ := List.mem_take_iff_getElem.mp hx
  exact hall k (by omega) (by omega)

theorem moved_take_succ {l : List (α × Bool)} {k : Nat} (hk : k < l.length) :
    moved (l.take (k + 1)) = moved (l.take k) + if l[k].2 then 1 else 0 := by
  rw [List.take_succ_eq_append_getElem hk]
  exact moved_snoc _ _ _

/-- When every request moves the counter, request `k` gets what is chosen at `k`. -/
theorem Follows.served_moving {choose : BitVec w → α} {l : List (α × Bool)} {c : BitVec w}
    (h : Follows choose l c) (hall : ∀ x ∈ l, x.2 = true) (k : Nat)
    (hk : k < (l.map Prod.fst).length) : (l.map Prod.fst)[k] = choose (BitVec.ofNat w k) := by
  rw [List.length_map] at hk
  rw [List.getElem_map, h.served k hk,
    moved_take (Nat.le_of_lt hk) fun j hj _ => hall _ (List.getElem_mem hj)]

/-- A counter that chooses among different slots serves them in turn exactly as
long as every request but the last moves it, and it wraps to a multiple of `n`
or not at all. -/
theorem Follows.inTurn_iff_moving {l : List (α × Bool)} {c : BitVec w} (hn : 2 ≤ n)
    (hinj : Set.InjOn slot (Set.Iio n)) (h : Follows (fun c => slot (c.toNat % n)) l c) :
    InTurn slot n (l.map Prod.fst)
      ↔ (∀ k (hk : k < l.length), k + 1 < l.length → l[k].2 = true)
        ∧ (n ∣ 2 ^ w ∨ l.length ≤ 2 ^ w) := by
  have hslot : ∀ a b, slot (a % n) = slot (b % n) ↔ a % n = b % n := fun a b =>
    ⟨fun heq => hinj (Nat.mod_lt a (by omega)) (Nat.mod_lt b (by omega)) heq, congrArg slot⟩
  simp only [h.inTurn_iff, BitVec.toNat_ofNat, hslot]
  constructor
  · intro hturn
    have hmoves : ∀ k (hk : k < l.length), k + 1 < l.length → l[k].2 = true := by
      intro k hk hk'
      by_contra hstays
      have hnext := hturn (k + 1) hk'
      rw [moved_take_succ hk, if_neg hstays, Nat.add_zero, hturn k hk] at hnext
      have hone : n ∣ 1 := (Nat.modEq_zero_iff_dvd).mp
        (Nat.ModEq.add_left_cancel' k (show k + 1 ≡ k + 0 [MOD n] from hnext.symm))
      have := Nat.le_of_dvd Nat.one_pos hone
      omega
    refine ⟨hmoves, ?_⟩
    rcases Nat.lt_or_ge (2 ^ w) l.length with hlt | hle
    · have hwrap := hturn (2 ^ w) hlt
      rw [moved_take (Nat.le_of_lt hlt) fun k hk hk' => hmoves k hk (by omega), Nat.mod_self,
        Nat.zero_mod] at hwrap
      exact Or.inl (Nat.dvd_of_mod_eq_zero hwrap.symm)
    · exact Or.inr hle
  · rintro ⟨hmoves, hwraps⟩ k hk
    rw [moved_take (Nat.le_of_lt hk) fun j hj hjk => hmoves j hj (by omega)]
    rcases hwraps with hdvd | hle
    · exact Nat.mod_mod_of_dvd k hdvd
    · rw [Nat.mod_eq_of_lt (Nat.lt_of_lt_of_le hk hle)]

end Different

/-! ## Balance -/

section Balance

variable [DecidableEq α] {slot : Nat → α} {n : Nat}

/-- After any number of requests, no slot has served two more than another. -/
def Balanced (slot : Nat → α) (n : Nat) (l : List α) : Prop :=
  ∀ m ≤ l.length, ∀ i < n, ∀ j < n, (l.take m).count (slot i) ≤ (l.take m).count (slot j) + 1

theorem count_take {l : List α} {f : Nat → α} (hl : ∀ k (hk : k < l.length), l[k] = f k) (x : α)
    {m : Nat} (hm : m ≤ l.length) : (l.take m).count x = Nat.count (fun k => f k = x) m := by
  induction m with
  | zero => rfl
  | succ m ih =>
      rw [List.take_succ_eq_append_getElem hm, List.count_append, ih (Nat.le_of_succ_le hm),
        Nat.count_succ, hl m hm, List.count_singleton]
      simp only [beq_iff_eq]

/-- How often a slot was chosen, as long as the wrapping does not show. -/
theorem count_slot {m i : Nat} (hi : i < n) (hinj : Set.InjOn slot (Set.Iio n))
    (hm : n ∣ 2 ^ w ∨ m ≤ 2 ^ w) :
    Nat.count (fun k => slot (k % 2 ^ w % n) = slot i) m
      = m / n + if i < m % n then 1 else 0 := by
  have hn : 0 < n := Nat.zero_lt_of_lt hi
  have hsame : ∀ k < m, slot (k % 2 ^ w % n) = slot i ↔ k ≡ i [MOD n] := by
    intro k hk
    have hmod : k % 2 ^ w % n = k % n := by
      rcases hm with hdvd | hle
      · exact Nat.mod_mod_of_dvd k hdvd
      · rw [Nat.mod_eq_of_lt (Nat.lt_of_lt_of_le hk hle)]
    rw [hmod, hinj.eq_iff (Nat.mod_lt k hn) hi, Nat.ModEq, Nat.mod_eq_of_lt hi]
  have hcount : Nat.count (fun k => slot (k % 2 ^ w % n) = slot i) m
      = Nat.count (fun k => k ≡ i [MOD n]) m :=
    Nat.le_antisymm (Nat.count_mono_left fun k hk => (hsame k hk).mp)
      (Nat.count_mono_left fun k hk => (hsame k hk).mpr)
  rw [hcount, Nat.count_modEq_card m hn i, Nat.mod_eq_of_lt hi]

/-- Different slots chosen by a counter that moves at every request are balanced
until it wraps, and stay so only if it wraps to a multiple of `n`. -/
theorem Follows.balanced_iff {l : List (α × Bool)} {c : BitVec w} (hn : 0 < n)
    (hinj : Set.InjOn slot (Set.Iio n)) (h : Follows (fun c => slot (c.toNat % n)) l c)
    (hall : ∀ x ∈ l, x.2 = true) :
    Balanced slot n (l.map Prod.fst) ↔ n ∣ 2 ^ w ∨ l.length ≤ 2 ^ w := by
  have hserved : ∀ k (hk : k < (l.map Prod.fst).length),
      (l.map Prod.fst)[k] = slot (k % 2 ^ w % n) := by
    intro k hk
    rw [h.served_moving hall k hk, BitVec.toNat_ofNat]
  rw [Balanced, List.length_map]
  constructor
  · intro hbal
    by_contra hwraps
    rw [not_or, Nat.not_le] at hwraps
    obtain ⟨hdvd, hlt⟩ := hwraps
    have hr : 0 < 2 ^ w % n := Nat.pos_of_ne_zero fun hzero => hdvd (Nat.dvd_of_mod_eq_zero hzero)
    have hrn : 2 ^ w % n < n := Nat.mod_lt _ hn
    -- slot 0 is served right before the counter wraps round, and right after
    have hlast := hbal (2 ^ w + 1) hlt 0 hn (n - 1) (by omega)
    have hm : 2 ^ w + 1 ≤ (l.map Prod.fst).length := by rwa [List.length_map]
    rw [count_take hserved _ hm, count_take hserved _ hm, Nat.count_succ, Nat.count_succ,
      count_slot hn hinj (Or.inr (Nat.le_refl _)),
      count_slot (by omega) hinj (Or.inr (Nat.le_refl _)), Nat.mod_self, Nat.zero_mod,
      if_pos hr, if_pos rfl, if_neg (by omega), if_neg] at hlast
    · omega
    · intro heq
      have := hinj (Set.mem_Iio.mpr hn) (Set.mem_Iio.mpr (by omega)) heq
      omega
  · intro hwraps m hm i hi j hj
    have hm' : n ∣ 2 ^ w ∨ m ≤ 2 ^ w := hwraps.imp_right (Nat.le_trans hm)
    rw [← List.length_map Prod.fst] at hm
    rw [count_take hserved _ hm, count_take hserved _ hm, count_slot hi hinj hm',
      count_slot hj hinj hm']
    split <;> split <;> omega

end Balance

end RoundRobin
