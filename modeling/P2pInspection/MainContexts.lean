import P2pInspection.Pipeline

/-!
# The contexts `main` configures

Two cards with two ports each, four contexts, one `stats_ring` for all of them.
Both contexts of a card receive from it, so they share its `mbuf_ring`.
-/

namespace P2pInspection

namespace MainContexts

inductive Card where
  | onic0
  | onic1
deriving Repr, DecidableEq

def portIds : Card → List Nat
  | .onic0 => [0, 1]
  | .onic1 => [2, 3]

/-- A context that forwards from one port of a card to the other, with one queue each way. -/
def forwarding (card : Card) (rxPort txPort : Nat) : ForwardingContext Card where
  rxOnic := card
  txOnic := card
  rxPort := rxPort
  txPort := txPort
  rxQs := [0, -1, -1]
  txQs := [0, -1, -1]
  nbRxQs := 1
  nbTxQs := 1
  statsRing := 0

def ctx : Fin 4 → ForwardingContext Card
  | 0 => forwarding .onic0 0 1
  | 1 => forwarding .onic0 1 0
  | 2 => forwarding .onic1 0 1
  | 3 => forwarding .onic1 1 0

/-- The context whose threads `main` launches. -/
def launchedCtx : Fin 4 := 3

def ringSize : Nat := 8192
def statsRingSize : Nat := 8192

variable {Mbuf : Type}

/-- The process, on a little-endian host with assertions on. -/
def setup (home : Mbuf → Nat) : Setup (Fin 4) Card Mbuf where
  ctx := ctx
  portId card i := (portIds card).getD i 0
  home := home
  endian := .little
  ndebug := false

/-- Before any thread was launched: the rings are empty. -/
def start (mempool : Multiset Mbuf) (buf : Mbuf → RteMbuf) : Sys (Fin 4) Card Mbuf where
  rings
    | .mbufRing _ => RteRing.rteRingCreate ringSize
    | .statsRing _ => RteRing.rteRingCreate statsRingSize
  mempool := mempool
  nicTx := 0
  buf := buf
  stopFlag _ := false
  rx _ := ⟨.head, 0#16⟩
  tx _ := ⟨.head, 0#16⟩
  final _ := ⟨.head, 0#16⟩
  stats _ := .head
  aborted := false
  tag _ := none
  nbReceived := 0
  log := []

def blankFrame : RteMbuf := ⟨fun _ => 0#8, 64, 1984⟩

def fourBuffers : Sys (Fin 4) Card (Fin 4) := start {0, 1, 2, 3} (fun _ => blankFrame)

/-- Buffer 3 is waiting in the ring of the second card. -/
def queuedBuffer : Sys (Fin 4) Card (Fin 4) :=
  { start {0, 1, 2} (fun _ => blankFrame) with
    rings := Function.update (fun _ => RteRing.rteRingCreate ringSize) (.mbufRing .onic1)
      ⟨ringSize - 1, [3], by decide⟩ }

end MainContexts

end P2pInspection
