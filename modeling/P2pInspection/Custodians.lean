import P2pInspection.Custody
import P2pInspection.Pipeline

/-!
# Who holds a buffer

The holders of buffers around one context, and what each holds in a state of
the process. A thread holds what its array still owes a release: not the burst
it has stored in a ring, although the array still points to it. Every step of a
thread is a posting in this ledger.
-/

namespace P2pInspection

open Custody Pipeline

inductive Holder where
  | rx
  | tx
  | final
  | consumer
  | mbufRing
  | statsRing
  | nicTx
  | mempool
deriving Repr, DecidableEq

section Owned

variable {Mbuf : Type}

/-- Behind the enqueue the thread owns nothing: the burst was stored. -/
@[simp] def RxPc.owned : RxPc Mbuf → List Mbuf
  | .head => []
  | .poll => []
  | .enqueue first rest => first :: rest
  | .overflow _ => []
  | .stopped => []

@[simp] def TxPc.owned : TxPc Mbuf → List Mbuf
  | .head => []
  | .poll => []
  | .send mbufs => mbufs
  | .free rest => rest
  | .stopped => []

theorem TxPc.owned_afterTake (mbufs : List Mbuf) :
    TxPc.owned (if mbufs.isEmpty then .head else .send mbufs) = mbufs := by
  cases mbufs <;> rfl

/-- After an enqueue that returned 0 the buffer is the ring's. -/
@[simp] def FinalPc.owned : FinalPc Mbuf → List Mbuf
  | .head => []
  | .poll => []
  | .scan rest => rest
  | .release ret m rest => if ret = 0 then rest else m :: rest
  | .stopped => []

@[simp] def StatsPc.owned : StatsPc Mbuf → List Mbuf
  | .head => []
  | .poll => []
  | .reading read rest => read ++ rest
  | .stopped => []

end Owned

namespace Pipeline

variable {Ctx Onic Mbuf : Type} [DecidableEq Mbuf]

@[simp] def holds (K : Setup Ctx Onic Mbuf) (c : Ctx) (s : Sys Ctx Onic Mbuf) : Ledger Holder Mbuf
  | .rx => (s.rx c).pc.owned
  | .tx => (s.tx c).pc.owned
  | .final => (s.final c).pc.owned
  | .consumer => (s.stats c).owned
  | .mbufRing => (s.rings (K.mbufRing c)).entries
  | .statsRing => (s.rings (K.statsRing c)).entries
  | .nicTx => s.nicTx
  | .mempool => s.mempool

/-- Every buffer is held by exactly one of these holders, once. -/
def Owned (K : Setup Ctx Onic Mbuf) (c : Ctx) (hs : Finset Holder) (s : Sys Ctx Onic Mbuf) :
    Prop := ∀ m, HeldOnce hs (holds K c s) m

section Frees

variable {Ctx Onic Mbuf : Type}

/-- The buffer a step frees, and the thread it frees it for. -/
def freeing (K : Setup Ctx Onic Mbuf) (s : Sys Ctx Onic Mbuf) :
    Action Ctx Mbuf → Option (Holder × Mbuf)
  | .rx c _ =>
      match (s.rx c).pc with
      | .overflow (m :: _) => some (.rx, m)
      | _ => none
  | .tx c _ =>
      match (s.tx c).pc with
      | .free (m :: _) => some (.tx, m)
      | _ => none
  | .final c _ =>
      match (s.final c).pc with
      | .scan (m :: _) =>
          if isVlanPacket K.endian (s.buf m).bytes then none else some (.final, m)
      | .release _ m _ => some (.final, m)
      | _ => none
  | _ => none

/-- A thread frees only what it holds: not what is in a ring, was handed to the
NIC or is in its pool already. -/
def FreesOwn (K : Setup Ctx Onic Mbuf) (c : Ctx) (s : Sys Ctx Onic Mbuf) (a : Action Ctx Mbuf) :
    Prop := ∀ h m, freeing K s a = some (h, m) → m ∈ holds K c s h

theorem freesOwn_tx {K : Setup Ctx Onic Mbuf} {c : Ctx} {s : Sys Ctx Onic Mbuf} (nbTx : Nat) :
    FreesOwn K c s (.tx c nbTx) := by
  rintro h m hfree
  simp only [freeing] at hfree
  split at hfree
  · rename_i hpc
    obtain ⟨rfl, rfl⟩ := Prod.mk.inj (Option.some.inj hfree)
    simp [hpc]
  · cases hfree

end Frees

section Ledger

variable {K : Setup Ctx Onic Mbuf} {c : Ctx} {hs : Finset Holder} {s s' : Sys Ctx Onic Mbuf}
  {a b : Holder} {m : Mbuf}

theorem Owned.same (h : Owned K c hs s) (heq : ∀ x, holds K c s' x = holds K c s x) :
    Owned K c hs s' := by
  rw [Owned, show holds K c s' = holds K c s from funext heq]
  exact h

theorem Owned.handOver (h : Owned K c hs s) (xs : Multiset Mbuf) (ha : a ∈ hs) (hb : b ∈ hs)
    (hp : ∀ x, holds K c s' x + entry a xs x = holds K c s x + entry b xs x) :
    Owned K c hs s' :=
  fun m => (h m).handOver (fun x _ => hp x) ha hb

theorem Owned.not_minted (h : Owned K c hs s) (xs : Multiset Mbuf) (hb : b ∈ hs) (hm : m ∈ xs)
    (hp : ∀ x, holds K c s' x = holds K c s x + entry b xs x) : ¬Owned K c hs s' :=
  fun h' => (h m).not_minted (fun x _ => by simpa using hp x) hb hm (h' m)

theorem Owned.not_lost (h : Owned K c hs s) (xs : Multiset Mbuf) (ha : a ∈ hs) (hm : m ∈ xs)
    (hp : ∀ x, holds K c s' x + entry a xs x = holds K c s x) : ¬Owned K c hs s' :=
  fun h' => (h m).not_lost (fun x _ => by simpa using hp x) ha hm (h' m)

omit [DecidableEq Mbuf] in
theorem coe_drop_add_take (l : List Mbuf) (n : Nat) :
    (l.drop n : Multiset Mbuf) + (l.take n : Multiset Mbuf) = l := by
  rw [add_comm, Multiset.coe_add, List.take_append_drop]

omit [DecidableEq Mbuf] in
theorem cons_eq_add (m : Mbuf) (xs : Multiset Mbuf) : m ::ₘ xs = xs + {m} := by
  rw [add_comm, Multiset.singleton_add]

omit [DecidableEq Mbuf] in
theorem coe_snoc (l : List Mbuf) (m : Mbuf) : ((l ++ [m] : List Mbuf) : Multiset Mbuf) = l + {m} :=
  (Multiset.coe_add l [m]).symm

theorem Owned.transmitted (h : Owned K c hs s) (hm : m ∈ s.nicTx) (hnic : .nicTx ∈ hs)
    (hpool : .mempool ∈ hs) :
    Owned K c hs { s with nicTx := s.nicTx.erase m, mempool := m ::ₘ s.mempool } := by
  refine h.handOver {m} hnic hpool fun x => ?_
  cases x with
  | nicTx => simpa [entry, ← cons_eq_add] using Multiset.cons_erase hm
  | _ => simp [entry, cons_eq_add]

end Ledger

end Pipeline

end P2pInspection
