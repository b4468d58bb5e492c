/-!
# Bytes, words and lanes

Two views of the same octets: a memory `Nat → BitVec 8` read as words in
either byte order, and a bit vector whose lane `k` is the byte at bits
`8k .. 8k+7`. The bridge is `Carries`: the first `len` lanes of a vector hold
the first `len` bytes of the memory. A window of the vector is then a
little-endian word of the memory (`Carries.le16`, `Carries.le64`).
-/

namespace Bytes

inductive Endian where
  | little
  | big
deriving Repr, DecidableEq

def le16 (b : Nat → BitVec 8) (off : Nat) : BitVec 16 :=
  b (off + 1) ++ b off

def be16 (b : Nat → BitVec 8) (off : Nat) : BitVec 16 :=
  b off ++ b (off + 1)

def le64 (b : Nat → BitVec 8) (off : Nat) : BitVec 64 :=
  b (off + 7) ++ b (off + 6) ++ b (off + 5) ++ b (off + 4)
    ++ b (off + 3) ++ b (off + 2) ++ b (off + 1) ++ b off

def be64 (b : Nat → BitVec 8) (off : Nat) : BitVec 64 :=
  b off ++ b (off + 1) ++ b (off + 2) ++ b (off + 3)
    ++ b (off + 4) ++ b (off + 5) ++ b (off + 6) ++ b (off + 7)

def load16 : Endian → (Nat → BitVec 8) → Nat → BitVec 16
  | .little => le16
  | .big => be16

def load64 : Endian → (Nat → BitVec 8) → Nat → BitVec 64
  | .little => le64
  | .big => be64

/-- The two bytes of a word, exchanged. -/
def swap16 (x : BitVec 16) : BitVec 16 :=
  x.extractLsb' 0 8 ++ x.extractLsb' 8 8

/-- Conversion between host order and big-endian: the same map both ways. -/
def toBe16 : Endian → BitVec 16 → BitVec 16
  | .little, x => swap16 x
  | .big, x => x

theorem swap16_append (a b : BitVec 8) : swap16 (a ++ b) = b ++ a := by
  have hlo : (a ++ b).extractLsb' 0 8 = b := BitVec.extractLsb'_append_eq_right
  have hhi : (a ++ b).extractLsb' 8 8 = a := BitVec.extractLsb'_append_eq_left
  rw [swap16, hlo, hhi]

/-- Loading a network-order field and converting it gives the same number on
either host. -/
theorem toBe16_load16 (e : Endian) (b : Nat → BitVec 8) (off : Nat) :
    toBe16 e (load16 e b off) = be16 b off := by
  cases e with
  | little => exact swap16_append (b (off + 1)) (b off)
  | big => rfl

/-! ## Stores -/

def put (b : Nat → BitVec 8) (off : Nat) (x : BitVec 8) : Nat → BitVec 8 :=
  fun k => if k = off then x else b k

/-- What a host's 16-bit store leaves in memory. -/
def store16 : Endian → (Nat → BitVec 8) → Nat → BitVec 16 → Nat → BitVec 8
  | .little, b, off, x => put (put b off (x.extractLsb' 0 8)) (off + 1) (x.extractLsb' 8 8)
  | .big, b, off, x => put (put b off (x.extractLsb' 8 8)) (off + 1) (x.extractLsb' 0 8)

/-- A stored number converted to big-endian reads back in network order, on
either host. -/
theorem be16_store16 (e : Endian) (b : Nat → BitVec 8) (off : Nat) (x : BitVec 16) :
    be16 (store16 e b off (toBe16 e x)) off = x := by
  have hsplit : x.extractLsb' 8 8 ++ x.extractLsb' 0 8 = x :=
    BitVec.extractLsb'_append_extractLsb'
  have hlo : (swap16 x).extractLsb' 0 8 = x.extractLsb' 8 8 :=
    BitVec.extractLsb'_append_eq_right
  have hhi : (swap16 x).extractLsb' 8 8 = x.extractLsb' 0 8 :=
    BitVec.extractLsb'_append_eq_left
  cases e <;> simp [store16, toBe16, be16, put, hlo, hhi, hsplit]

theorem be16_store16_disjoint (e : Endian) (b : Nat → BitVec 8) {off off' : Nat}
    (x : BitVec 16) (h : off + 2 ≤ off' ∨ off' + 2 ≤ off) :
    be16 (store16 e b off' x) off = be16 b off := by
  have h1 : off ≠ off' := by omega
  have h2 : off ≠ off' + 1 := by omega
  have h3 : off + 1 ≠ off' := by omega
  cases e <;> simp [store16, be16, put, h1, h2, h3]

theorem append_eq_append_iff {n m : Nat} {a c : BitVec n} {b d : BitVec m} :
    a ++ b = c ++ d ↔ a = c ∧ b = d := by
  constructor
  · intro h
    constructor
    · have := congrArg (BitVec.extractLsb' m n) h
      rwa [BitVec.extractLsb'_append_eq_left, BitVec.extractLsb'_append_eq_left] at this
    · have := congrArg (BitVec.extractLsb' 0 m) h
      rwa [BitVec.extractLsb'_append_eq_right, BitVec.extractLsb'_append_eq_right] at this
  · rintro ⟨rfl, rfl⟩
    rfl

/-! ## Lanes -/

/-- Lane `k` of a vector: bits `8k .. 8k+7`. -/
def lane {w : Nat} (v : BitVec w) (k : Nat) : BitVec 8 :=
  v.extractLsb' (8 * k) 8

/-- The first `len` lanes of `v` are the first `len` bytes of `b`. -/
def Carries {w : Nat} (v : BitVec w) (b : Nat → BitVec 8) (len : Nat) : Prop :=
  ∀ k < len, lane v k = b k

theorem extract_two_lanes {w : Nat} (v : BitVec w) (k : Nat) :
    v.extractLsb' (8 * k) 16 = lane v (k + 1) ++ lane v k :=
  (BitVec.extractLsb'_append_extractLsb'_eq_extractLsb' (Nat.mul_succ 8 k)).symm

theorem Carries.le16 {w : Nat} {v : BitVec w} {b : Nat → BitVec 8} {len k : Nat}
    (h : Carries v b len) (hk : k + 2 ≤ len) :
    v.extractLsb' (8 * k) 16 = Bytes.le16 b k := by
  rw [extract_two_lanes, h k (by omega), h (k + 1) (by omega)]
  rfl

theorem extract_push {w n i : Nat} {v : BitVec w} {x : BitVec n} {y : BitVec 8}
    (hx : v.extractLsb' (i + 8) n = x) (hy : v.extractLsb' i 8 = y) :
    v.extractLsb' i (n + 8) = x ++ y := by
  rw [← hx, ← hy]
  exact (BitVec.extractLsb'_append_extractLsb'_eq_extractLsb' rfl).symm

theorem Carries.le64 {w : Nat} {v : BitVec w} {b : Nat → BitVec 8} {len k : Nat}
    (h : Carries v b len) (hk : k + 8 ≤ len) :
    v.extractLsb' (8 * k) 64 = Bytes.le64 b k := by
  have hlane : ∀ j, j < 8 → v.extractLsb' (8 * k + 8 * j) 8 = b (k + j) := fun j hj => by
    have := h (k + j) (by omega)
    rwa [lane, Nat.mul_add] at this
  have h1 := extract_push (hlane 7 (by omega)) (hlane 6 (by omega))
  have h2 := extract_push h1 (hlane 5 (by omega))
  have h3 := extract_push h2 (hlane 4 (by omega))
  have h4 := extract_push h3 (hlane 3 (by omega))
  have h5 := extract_push h4 (hlane 2 (by omega))
  have h6 := extract_push h5 (hlane 1 (by omega))
  exact extract_push h6 (hlane 0 (by omega))

end Bytes
