import Mathlib.Algebra.Group.Nat.Defs
import Mathlib.Data.Fin.VecNotation
import P2pInspection.InfluxLine
import P2pInspection.OnicPort
import P2pInspection.Timestamps

/-!
# The texts that go into a statistics message

`to_string` of an array, `CmacStats::to_string`, `StatsLog::rte_stats_to_string`
and `Timestamps::get_latency_str`, each with the list of pairs it writes: the
last three are those pairs joined by commas.
-/

namespace P2pInspection

open InfluxLine Numerals

/-- `oss << x` and `std::to_string(x)` of an unsigned integer. -/
def dec {w : Nat} (x : BitVec w) : String := toString x.toNat

/-- `%d`, which reads the bits as a signed integer. -/
def formatD {w : Nat} (x : BitVec w) : String := toString x.toInt

/-- `oss << std::hex << x`. -/
def hex {w : Nat} (x : BitVec w) : String := String.ofList (Nat.toDigits 16 x.toNat)

def popBack (s : String) : String := String.ofList s.toList.dropLast

/-- `snprintf` into a buffer of `size` bytes, the terminator being one of them. -/
def snprintf (size : Nat) (s : String) : String := String.ofList (s.toList.take (size - 1))

/-- `to_string(const std::array<T, N>&)`. -/
def arrayToString {N : Nat} (arr : Fin N → BitVec 32) : String :=
  (List.finRange N).foldl (fun oss i =>
    let oss := oss ++ hex (arr i)
    if i.val ≠ N - 1 then oss ++ "." else oss) ""

namespace OnicPort

/-- `uint16_t x = port.get_port_id()`. -/
def getPortId (p : OnicPort) : BitVec 16 := BitVec.ofInt 16 p.portId

def getBdf (p : OnicPort) : Fin 3 → BitVec 32 := ![p.b, p.d, p.f]

end OnicPort

structure CmacStats where
  txTotalPkts : BitVec 32 := 0#32
  txTotalGoodPkts : BitVec 32 := 0#32
  txTotalBytes : BitVec 32 := 0#32
  txTotalGoodBytes : BitVec 32 := 0#32
  rxTotalPkts : BitVec 32 := 0#32
  rxTotalGoodPkts : BitVec 32 := 0#32
  rxTotalBytes : BitVec 32 := 0#32
  rxTotalGoodBytes : BitVec 32 := 0#32
  rxPkt65To127 : BitVec 32 := 0#32
  rxPktLarge : BitVec 32 := 0#32
  rxPktSmall : BitVec 32 := 0#32
  rxUndersize : BitVec 32 := 0#32
  rxFrag : BitVec 32 := 0#32
  rxOversize : BitVec 32 := 0#32
  rxToolong : BitVec 32 := 0#32
  rxJabber : BitVec 32 := 0#32
  rxBadFcs : BitVec 32 := 0#32
  rxPktBadFcs : BitVec 32 := 0#32
  rxStompedFcs : BitVec 32 := 0#32
  rxUnicast : BitVec 32 := 0#32
  rxMulticast : BitVec 32 := 0#32
  rxBroadcast : BitVec 32 := 0#32
  rxVlan : BitVec 32 := 0#32
  rxPause : BitVec 32 := 0#32
  rxUserPause : BitVec 32 := 0#32
  rxInRangeErr : BitVec 32 := 0#32
  rxTruncated : BitVec 32 := 0#32
deriving Repr, DecidableEq

namespace CmacStats

/-- The fields that `to_string` appends, in its order. -/
def appended (s : CmacStats) : List (String × BitVec 32) :=
  [("tx_total_pkts", s.txTotalPkts),
    ("tx_total_good_pkts", s.txTotalGoodPkts),
    ("tx_total_bytes", s.txTotalBytes),
    ("tx_total_good_bytes", s.txTotalGoodBytes),
    ("rx_total_pkts", s.rxTotalPkts),
    ("rx_total_good_pkts", s.rxTotalGoodPkts),
    ("rx_total_bytes", s.rxTotalBytes),
    ("rx_total_good_bytes", s.rxTotalGoodBytes)]

/-- `append_field`. -/
def appendField (tag stringOut : String) (field : String × BitVec 32) : String :=
  stringOut
    ++ snprintf 64 ("(" ++ tag ++ ")" ++ field.1 ++ "=" ++ formatD field.2) ++ ","

def toString (s : CmacStats) (tag : String) : String :=
  popBack (s.appended.foldl (appendField tag) "")

end CmacStats

structure RteEthStats where
  ipackets : BitVec 64
  opackets : BitVec 64
  ibytes : BitVec 64
  obytes : BitVec 64
  ierrors : BitVec 64
  oerrors : BitVec 64
deriving Repr, DecidableEq

def rteStatsToString (stats : RteEthStats) (direction : String) : String :=
  direction ++ "rx_packets=" ++ dec stats.ipackets
    ++ "," ++ direction ++ "rx_Bytes=" ++ dec stats.ibytes
    ++ "," ++ direction ++ "rx_fail_packets=" ++ dec stats.ierrors
    ++ "," ++ direction ++ "tx_packets=" ++ dec stats.opackets
    ++ "," ++ direction ++ "tx_Bytes=" ++ dec stats.obytes
    ++ "," ++ direction ++ "tx_fail_packets=" ++ dec stats.oerrors

namespace Timestamps

/-- The differences are those of the source, earlier hop minus later hop. -/
def calcHopLatencies (ts : Timestamps) (i : Fin (nbHops - 1)) : BitVec 64 :=
  (ts.timestampNbSync i.castSucc - ts.timestampNbSync i.succ) * BitVec.ofNat 64 lenNbSyncNs
    + (ts.timestampCurrTick i.castSucc - ts.timestampCurrTick i.succ)
      * BitVec.ofNat 64 lenTimeTickNs

def latencyStr (latencies : Fin (nbHops - 1) → BitVec 64) : String :=
  popBack ((List.finRange (nbHops - 1)).foldl (fun oss i =>
    oss ++ "hop(" ++ toString i.val ++ ")=" ++ dec (latencies i) ++ ",") "")

def getLatencyStr (ts : Timestamps) : String := latencyStr ts.calcHopLatencies

end Timestamps

/-! ## Numbers in the texts -/

theorem isNumber_dec {w : Nat} (x : BitVec w) : isNumber (dec x).toList = true :=
  isNumber_nat x.toNat

theorem plain_dec {w : Nat} (x : BitVec w) : Plain (dec x).toList :=
  plain_of_isNumber (isNumber_dec x)

theorem length_toString_int_le {i : Int} {k : Nat} (hk : 0 < k) (hi : i.natAbs < 10 ^ k) :
    (toString i).toList.length ≤ k + 1 := by
  have hlen : (Nat.toDigits 10 i.natAbs).length ≤ k :=
    (Nat.length_toDigits_le_iff (by decide) hk).mpr hi
  cases i with
  | ofNat n =>
      have hnat : (toString (Int.ofNat n)).toList = Nat.toDigits 10 n := Nat.toList_repr
      rw [hnat]
      exact Nat.le_succ_of_le hlen
  | negSucc n =>
      rw [toString_negSucc]
      exact Nat.succ_le_succ hlen

/-! ## The bus, device and function of a port -/

theorem arrayToString_toList {N : Nat} (arr : Fin N → BitVec 32) :
    (arrayToString arr).toList
      = ['.'].intercalate ((List.finRange N).map fun i => (hex (arr i)).toList) := by
  cases N with
  | zero => rfl
  | succ n =>
      -- before the last index every number is followed by a dot
      have hinit : ∀ (l : List (Fin n)) (out : String),
          ((l.map Fin.castSucc).foldl (fun oss i =>
            let oss := oss ++ hex (arr i)
            if i.val ≠ n then oss ++ "." else oss) out).toList
            = out.toList
              ++ (l.map fun i => (hex (arr i.castSucc)).toList).flatMap (· ++ ['.']) := by
        intro l
        induction l with
        | nil => simp
        | cons i l ih =>
            intro out
            have hi : i.val ≠ n := Nat.ne_of_lt i.isLt
            rw [List.map_cons, List.foldl_cons, ih]
            simp [hi]
      have hfirst := hinit (List.finRange n) ""
      simp only [String.toList_empty, List.nil_append] at hfirst
      rw [arrayToString, Nat.add_sub_cancel, List.finRange_succ_last, List.foldl_append,
        List.foldl_cons, List.foldl_nil, if_neg (by simp), String.toList_append, hfirst,
        List.map_append, List.map_singleton, intercalate_concat, List.map_map]
      rfl

theorem plain_getBdf (p : OnicPort) : Plain (arrayToString p.getBdf).toList := by
  rw [arrayToString_toList]
  refine plain_intercalate (by decide) (by simp) (List.forall_mem_map.mpr fun i _ => ?_)
  rw [hex, String.toList_ofList]
  exact plain_hex _

/-! ## Lists of pairs -/

/-- What a text says: its keys and the values as they are printed. -/
abbrev Shown := List (String × String)

def Shown.toTexts (shown : Shown) : List (Text × Text) :=
  shown.map fun kv => (kv.1.toList, kv.2.toList)

theorem Shown.toTexts_keys (shown : Shown) :
    shown.toTexts.map Prod.fst = (shown.map Prod.fst).map String.toList := by
  rw [Shown.toTexts, List.map_map, List.map_map]
  rfl

def joined (shown : Shown) : Text := [','].intercalate (shown.toTexts.map joinPair)

@[simp] theorem joined_singleton (kv : String × String) :
    joined [kv] = kv.1.toList ++ '=' :: kv.2.toList := by
  simp [joined, Shown.toTexts, joinPair]

@[simp] theorem joined_cons_cons (kv kv' : String × String) (rest : Shown) :
    joined (kv :: kv' :: rest)
      = kv.1.toList ++ '=' :: kv.2.toList ++ ',' :: joined (kv' :: rest) := by
  simp [joined, Shown.toTexts, joinPair]

theorem joined_append {shown shown' : Shown} (h : shown ≠ []) (h' : shown' ≠ []) :
    joined (shown ++ shown') = joined shown ++ ',' :: joined shown' := by
  induction shown with
  | nil => exact absurd rfl h
  | cons kv rest ih =>
      cases rest with
      | nil =>
          obtain ⟨kv', rest', rfl⟩ := List.exists_cons_of_ne_nil h'
          simp
      | cons kv₂ rest =>
          rw [List.cons_append, List.cons_append, joined_cons_cons, ← List.cons_append,
            ih (by simp), joined_cons_cons]
          simp

/-- A loop that appends pairs, each with a comma behind it, after `popBack`. -/
theorem popBack_foldl {α : Type} {f : String → α → String} {kv : α → String × String}
    {xs : List α} (hf : ∀ out, ∀ x ∈ xs, f out x = out ++ (kv x).1 ++ "=" ++ (kv x).2 ++ ",") :
    (popBack (xs.foldl f "")).toList = joined (xs.map kv) := by
  have hfold : ∀ (ys : List α) (out : String), (∀ y ∈ ys, y ∈ xs) → (ys.foldl f out).toList
      = out.toList ++ ((Shown.toTexts (ys.map kv)).map joinPair).flatMap (· ++ [',']) := by
    intro ys
    induction ys with
    | nil => simp [Shown.toTexts]
    | cons y ys ih =>
        intro out hys
        obtain ⟨hy, hys⟩ := List.forall_mem_cons.mp hys
        rw [List.foldl_cons, ih _ hys, hf out y hy]
        simp [Shown.toTexts, joinPair]
  rw [popBack, String.toList_ofList, hfold xs "" fun _ h => h, String.toList_empty,
    List.nil_append, dropLast_flatMap, joined]

def CmacStats.shown (s : CmacStats) (tag : String) : Shown :=
  s.appended.map fun field => ("(" ++ tag ++ ")" ++ field.1, formatD field.2)

def CmacStats.appendedNames : List String :=
  ["tx_total_pkts", "tx_total_good_pkts", "tx_total_bytes", "tx_total_good_bytes",
    "rx_total_pkts", "rx_total_good_pkts", "rx_total_bytes", "rx_total_good_bytes"]

theorem CmacStats.appended_names (s : CmacStats) : s.appended.map Prod.fst = appendedNames :=
  rfl

/-- The buffer is long enough for every field and either tag. -/
theorem CmacStats.appendField_eq {s : CmacStats} {tag : String} (htag : tag.length = 1)
    (out : String) : ∀ field ∈ s.appended, appendField tag out field
      = out ++ ("(" ++ tag ++ ")" ++ field.1) ++ "=" ++ formatD field.2 ++ "," := by
  intro field hfield
  have hname : field.1.length ≤ 19 := by
    have hmem := List.mem_map_of_mem (f := Prod.fst) hfield
    have hshort : ∀ name ∈ appendedNames, name.length ≤ 19 := by decide
    exact hshort field.1 (s.appended_names ▸ hmem)
  have hvalue : (formatD field.2).toList.length ≤ 10 + 1 := by
    refine length_toString_int_le (by decide) ?_
    have hlo := field.2.le_toInt
    have hhi := field.2.toInt_lt
    omega
  have hfits : snprintf 64 ("(" ++ tag ++ ")" ++ field.1 ++ "=" ++ formatD field.2)
      = "(" ++ tag ++ ")" ++ field.1 ++ "=" ++ formatD field.2 := by
    rw [snprintf, List.take_of_length_le, String.ofList_toList]
    rw [String.length_toList] at hvalue ⊢
    simp only [String.length_append, htag]
    have hlits : "(".length = 1 ∧ ")".length = 1 ∧ "=".length = 1 := by decide
    omega
  rw [appendField, hfits]
  simp only [String.append_assoc]

theorem CmacStats.toString_toList (s : CmacStats) {tag : String} (htag : tag.length = 1) :
    (s.toString tag).toList = joined (s.shown tag) :=
  popBack_foldl fun out => appendField_eq htag out

def RteEthStats.shown (stats : RteEthStats) (direction : String) : Shown :=
  [("rx_packets", dec stats.ipackets), ("rx_Bytes", dec stats.ibytes),
    ("rx_fail_packets", dec stats.ierrors), ("tx_packets", dec stats.opackets),
    ("tx_Bytes", dec stats.obytes), ("tx_fail_packets", dec stats.oerrors)].map
    fun field => (direction ++ field.1, field.2)

def RteEthStats.shownNames : List String :=
  ["rx_packets", "rx_Bytes", "rx_fail_packets", "tx_packets", "tx_Bytes", "tx_fail_packets"]

theorem rteStatsToString_toList (stats : RteEthStats) (direction : String) :
    (rteStatsToString stats direction).toList = joined (stats.shown direction) := by
  unfold rteStatsToString
  simp [RteEthStats.shown]

namespace Timestamps

def shownLatencies (latencies : Fin (nbHops - 1) → BitVec 64) : Shown :=
  (List.finRange (nbHops - 1)).map fun i =>
    ("hop(" ++ toString i.val ++ ")", dec (latencies i))

theorem latencyStr_toList (latencies : Fin (nbHops - 1) → BitVec 64) :
    (latencyStr latencies).toList = joined (shownLatencies latencies) :=
  popBack_foldl fun out i _ => by
    have hclose : ")=" = ")" ++ "=" := by decide
    rw [hclose]
    simp only [String.append_assoc]

end Timestamps

end P2pInspection
