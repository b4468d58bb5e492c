import P2pInspection.Numerals
import P2pInspection.StatsMessages

/-!
# The names of the ports

A port is told apart in the statistics by its bus, device and function, in
unpadded hexadecimal with a dot between the numbers. The dots are found again,
since no digit is one, and so the name gives the numbers back
(`arrayToString_inj`).
-/

namespace P2pInspection

open InfluxLine Numerals

theorem hex_inj {w : Nat} {x y : BitVec w} : hex x = hex y ↔ x = y := by
  constructor
  · intro heq
    rw [hex, hex, String.ofList_inj] at heq
    exact BitVec.eq_of_toNat_eq (toDigits_injective (by decide) (by decide) heq)
  · rintro rfl
    rfl

theorem dot_notMem_hex {w : Nat} (x : BitVec w) : '.' ∉ (hex x).toList := by
  rw [hex, String.toList_ofList]
  intro hdot
  exact forall_mem_toDigits (b := 16) (P := (· ≠ '.')) (by decide) (by decide) x.toNat '.' hdot rfl

/-- The pieces of a name are its numbers. -/
theorem arrayToString_splitOn {N : Nat} (hN : N ≠ 0) (arr : Fin N → BitVec 32) :
    (arrayToString arr).toList.splitOn '.'
      = (List.finRange N).map fun i => (hex (arr i)).toList := by
  rw [splitOn_eq_iff]
  refine ⟨arrayToString_toList arr, ?_, List.forall_mem_map.mpr fun i _ => dot_notMem_hex (arr i)⟩
  simpa using hN

theorem arrayToString_inj {N : Nat} {a b : Fin N → BitVec 32} :
    arrayToString a = arrayToString b ↔ a = b := by
  constructor
  · intro heq
    funext i
    have hN : N ≠ 0 := Nat.ne_zero_of_lt i.isLt
    have hpieces := arrayToString_splitOn hN a
    rw [heq, arrayToString_splitOn hN b, List.map_inj_left] at hpieces
    exact hex_inj.mp (String.toList_inj.mp (hpieces i (List.mem_finRange i)).symm)
  · rintro rfl
    rfl

/-! ## Tags -/

theorem getBdf_inj {p p' : OnicPort} :
    p.getBdf = p'.getBdf ↔ p.b = p'.b ∧ p.d = p'.d ∧ p.f = p'.f := by
  simp [OnicPort.getBdf, funext_iff, Fin.forall_fin_succ]

/-- The value of a tag that stands for a port. -/
def portTag (p : OnicPort) : Text := (arrayToString p.getBdf).toList

namespace StatsLog.Message

/-- The ports a message is tagged with. -/
def taggedPorts : Message → List OnicPort
  | stats _ rxPort txPort _ _ _ => [rxPort, txPort]
  | cmac _ rxPort txPort _ _ _ => [rxPort, txPort]
  | latency _ => []

theorem tags_eq (msg : Message) : msg.line.tags.map Prod.snd = msg.taggedPorts.map portTag := by
  cases msg <;> simp [line, taggedPorts, portTag, Shown.toTexts]

end StatsLog.Message

/-- Names of arrays are the same only for the same array. The tag values of
every message are such names, and those of two ports are the same only if their
bus, device and function are. -/
theorem portNames_unique :
    (∀ (N : Nat) (a b : Fin N → BitVec 32), arrayToString a = arrayToString b ↔ a = b)
      ∧ (∀ msg : StatsLog.Message,
        msg.line.tags.map Prod.snd = msg.taggedPorts.map portTag)
      ∧ ∀ p p' : OnicPort, portTag p = portTag p' ↔ p.b = p'.b ∧ p.d = p'.d ∧ p.f = p'.f := by
  refine ⟨fun N a b => arrayToString_inj, StatsLog.Message.tags_eq, fun p p' => ?_⟩
  rw [portTag, portTag, String.toList_inj, arrayToString_inj, getBdf_inj]

end P2pInspection
