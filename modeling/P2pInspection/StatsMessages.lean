import P2pInspection.StatsText

/-!
# The messages of the statistics producers

`payload` is what `run_stats_producer`, `run_cmac_producer` and
`produce_latency_message` hand to `produce_kafka_message`, and `line` the
measurement, the tags and the fields it is put together from. Telegraf reads
the payload as a line of the Influx line protocol; `valid_iff` says for which
producers that gives back what was written.
-/

namespace P2pInspection.StatsLog

open InfluxLine

def statsTableName : String := "Forwarder_stats"
def latencyTableName : String := "Latency_stats"

/-- `kafka_header` of `run_stats_producer`. -/
def statsHeader (lcore : BitVec 32) (rxPort txPort : OnicPort) : String :=
  statsTableName
    ++ "(ports-" ++ dec lcore ++ ")"
    ++ ",rx_port(" ++ dec rxPort.getPortId ++ ")=" ++ arrayToString rxPort.getBdf
    ++ ",tx_port(" ++ dec txPort.getPortId ++ ")=" ++ arrayToString txPort.getBdf
    ++ " "

/-- `kafka_message` of `run_stats_producer`. -/
def runStatsProducer (lcore : BitVec 32) (rxPort txPort : OnicPort)
    (rxStats txStats : RteEthStats) (deltaNs : BitVec 64) : String :=
  statsHeader lcore rxPort txPort
    ++ rteStatsToString rxStats "(R)" ++ ","
    ++ rteStatsToString txStats "(T)" ++ ","
    ++ "DELTA_NS=" ++ dec deltaNs ++ "\n"

/-- `kafka_header` of `run_cmac_producer`, where `core_id` is an `int`. -/
def cmacHeader (coreId : BitVec 32) (rxPort txPort : OnicPort) : String :=
  statsTableName
    ++ "(CMAC-" ++ formatD coreId ++ ")"
    ++ ",rx_port=" ++ arrayToString rxPort.getBdf
    ++ ",tx_port=" ++ arrayToString txPort.getBdf
    ++ " "

/-- `kafka_message` of `run_cmac_producer`. -/
def runCmacProducer (coreId : BitVec 32) (rxPort txPort : OnicPort)
    (rxStats txStats : CmacStats) (deltaNs : BitVec 64) : String :=
  cmacHeader coreId rxPort txPort
    ++ rxStats.toString "R" ++ ","
    ++ txStats.toString "T" ++ ","
    ++ "DELTA_NS=" ++ dec deltaNs ++ "\n"

/-- `kafka_payload` of `produce_latency_message`. -/
def produceLatencyMessage (latency : String) : String :=
  let kafkaHeader := latencyTableName ++ ", "
  kafkaHeader ++ latency ++ "\n"

inductive Message where
  | stats (lcore : BitVec 32) (rxPort txPort : OnicPort) (rxStats txStats : RteEthStats)
      (deltaNs : BitVec 64)
  | cmac (coreId : BitVec 32) (rxPort txPort : OnicPort) (rxStats txStats : CmacStats)
      (deltaNs : BitVec 64)
  | latency (latencies : Fin (nbHops - 1) → BitVec 64)

namespace Message

def payload : Message → String
  | stats lcore rxPort txPort rxStats txStats deltaNs =>
      runStatsProducer lcore rxPort txPort rxStats txStats deltaNs
  | cmac coreId rxPort txPort rxStats txStats deltaNs =>
      runCmacProducer coreId rxPort txPort rxStats txStats deltaNs
  | latency latencies => produceLatencyMessage (Timestamps.latencyStr latencies)

/-- The parts the producer writes, in its order. -/
def line : Message → Line
  | stats lcore rxPort txPort rxStats txStats deltaNs =>
      { measurement := (statsTableName ++ "(ports-" ++ dec lcore ++ ")").toList
        tags := Shown.toTexts
          [("rx_port(" ++ dec rxPort.getPortId ++ ")", arrayToString rxPort.getBdf),
            ("tx_port(" ++ dec txPort.getPortId ++ ")", arrayToString txPort.getBdf)]
        fields := Shown.toTexts
          (rxStats.shown "(R)" ++ txStats.shown "(T)" ++ [("DELTA_NS", dec deltaNs)]) }
  | cmac coreId rxPort txPort rxStats txStats deltaNs =>
      { measurement := (statsTableName ++ "(CMAC-" ++ formatD coreId ++ ")").toList
        tags := Shown.toTexts
          [("rx_port", arrayToString rxPort.getBdf), ("tx_port", arrayToString txPort.getBdf)]
        fields := Shown.toTexts
          (rxStats.shown "R" ++ txStats.shown "T" ++ [("DELTA_NS", dec deltaNs)]) }
  | latency latencies =>
      { measurement := latencyTableName.toList
        tags := []
        fields := Shown.toTexts (Timestamps.shownLatencies latencies) }

def isLatency : Message → Bool
  | latency _ => true
  | _ => false

/-- The payload is one line, and reading it gives the measurement, the tag keys
and the field keys that were written. -/
def Valid (msg : Message) : Prop :=
  ∃ l : Line, (l.WellFormed ∧ msg.payload.toList = render l)
    ∧ parse msg.payload.toList = some l
    ∧ l.measurement = msg.line.measurement
    ∧ l.tags.map Prod.fst = msg.line.tags.map Prod.fst
    ∧ l.fields.map Prod.fst = msg.line.fields.map Prod.fst

end Message

/-! ## What the producers put together -/

/-- The fields of both producers: the received, the sent and the time between. -/
theorem joined_fields {rx tx : Shown} (hrx : rx ≠ []) (htx : tx ≠ []) (deltaNs : BitVec 64) :
    joined (rx ++ tx ++ [("DELTA_NS", dec deltaNs)])
      = joined rx ++ ',' :: joined tx ++ ',' :: "DELTA_NS=".toList ++ (dec deltaNs).toList := by
  rw [joined_append (by simp [hrx]) (by simp), joined_append hrx htx, joined_singleton]
  simp

theorem runStatsProducer_toList (lcore : BitVec 32) (rxPort txPort : OnicPort)
    (rxStats txStats : RteEthStats) (deltaNs : BitVec 64) :
    (runStatsProducer lcore rxPort txPort rxStats txStats deltaNs).toList
      = render (Message.stats lcore rxPort txPort rxStats txStats deltaNs).line := by
  have hne : ∀ (s : RteEthStats) (direction : String), s.shown direction ≠ [] := by
    intro s direction
    simp [RteEthStats.shown]
  rw [render_eq]
  change _ = _ ++ _ ++ ' ' :: joined _ ++ _
  rw [joined_fields (hne rxStats "(R)") (hne txStats "(T)")]
  unfold runStatsProducer statsHeader
  simp [Message.line, Shown.toTexts, joinPair, rteStatsToString_toList]

theorem runCmacProducer_toList (coreId : BitVec 32) (rxPort txPort : OnicPort)
    (rxStats txStats : CmacStats) (deltaNs : BitVec 64) :
    (runCmacProducer coreId rxPort txPort rxStats txStats deltaNs).toList
      = render (Message.cmac coreId rxPort txPort rxStats txStats deltaNs).line := by
  have hne : ∀ (s : CmacStats) (tag : String), s.shown tag ≠ [] := by
    intro s tag
    simp [CmacStats.shown, CmacStats.appended]
  rw [render_eq]
  change _ = _ ++ _ ++ ' ' :: joined _ ++ _
  rw [joined_fields (hne rxStats "R") (hne txStats "T")]
  have hrx := rxStats.toString_toList (by decide : "R".length = 1)
  have htx := txStats.toString_toList (by decide : "T".length = 1)
  unfold runCmacProducer cmacHeader
  simp [Message.line, Shown.toTexts, joinPair, hrx, htx]

/-- The comma stands there without a tag behind it. -/
theorem produceLatencyMessage_toList (latencies : Fin (nbHops - 1) → BitVec 64) :
    (produceLatencyMessage (Timestamps.latencyStr latencies)).toList
      = assemble latencyTableName.toList [[]]
          ((Timestamps.shownLatencies latencies).toTexts.map joinPair) := by
  have hlit : latencyTableName ++ ", " = latencyTableName ++ "," ++ " " := by decide
  rw [produceLatencyMessage, hlit]
  simp [Timestamps.latencyStr_toList, assemble, joined]

/-! ## Well-formed lines -/

theorem nodup_keys {names : List String} (h : names.Nodup) :
    (names.map ("(R)" ++ ·) ++ names.map ("(T)" ++ ·) ++ ["DELTA_NS"]).Nodup := by
  have hinj : ∀ direction : String, Function.Injective (direction ++ ·) :=
    fun direction a b hab => String.append_right_inj direction |>.mp hab
  refine List.nodup_append.mpr ⟨List.nodup_append.mpr
    ⟨h.map (hinj "(R)"), h.map (hinj "(T)"), ?_⟩, List.nodup_singleton _, ?_⟩
  · intro key hkey key' hkey' heq
    obtain ⟨name, -, rfl⟩ := List.mem_map.mp hkey
    obtain ⟨name', -, rfl⟩ := List.mem_map.mp hkey'
    have htexts := congrArg String.toList heq
    simp at htexts
  · intro key hkey key' hkey' heq
    obtain rfl := List.mem_singleton.mp hkey'
    rw [List.mem_append, List.mem_map, List.mem_map] at hkey
    rcases hkey with ⟨name, -, rfl⟩ | ⟨name, -, rfl⟩
    · have htexts := congrArg String.toList heq
      simp at htexts
    · have htexts := congrArg String.toList heq
      simp at htexts

/-- What makes the line of either producer well formed. -/
theorem wellFormed_line {measurement : String} {tags fields : Shown} (names : List String)
    (hm : Plain measurement.toList)
    (htags : ∀ kv ∈ tags, Plain kv.1.toList ∧ Plain kv.2.toList)
    (hkeys : fields.map Prod.fst
      = names.map ("(R)" ++ ·) ++ names.map ("(T)" ++ ·) ++ ["DELTA_NS"])
    (hnames : names.Nodup) (hplain : ∀ name ∈ names, Plain name.toList)
    (hvalues : ∀ kv ∈ fields, isNumber kv.2.toList = true) :
    (Line.mk measurement.toList (Shown.toTexts tags) (Shown.toTexts fields)).WellFormed := by
  have hkey : ∀ kv ∈ fields, Plain kv.1.toList := by
    intro kv hkv
    have hmem : kv.1 ∈ names.map ("(R)" ++ ·) ++ names.map ("(T)" ++ ·) ++ ["DELTA_NS"] :=
      hkeys ▸ List.mem_map_of_mem hkv
    rw [List.mem_append, List.mem_append, List.mem_map, List.mem_map, List.mem_singleton] at hmem
    rcases hmem with (⟨name, hname, heq⟩ | ⟨name, hname, heq⟩) | heq
    · rw [← heq, String.toList_append]
      exact Plain.append (by simp; decide) (hplain name hname)
    · rw [← heq, String.toList_append]
      exact Plain.append (by simp; decide) (hplain name hname)
    · rw [heq]
      simp
      decide
  refine ⟨⟨hm.1, hm.2.1⟩, List.forall_mem_map.mpr htags, ?_,
    List.forall_mem_map.mpr fun kv hkv => ⟨hkey kv hkv, hvalues kv hkv⟩, ?_⟩
  · rintro hnil
    rw [List.map_eq_nil_iff.mp hnil] at hkeys
    simp at hkeys
  · change ((Shown.toTexts fields).map Prod.fst).Nodup
    rw [Shown.toTexts_keys, hkeys]
    exact (nodup_keys hnames).map fun a b hab => String.toList_inj.mp hab

theorem plain_formatD {w : Nat} (x : BitVec w) : Plain (formatD x).toList :=
  plain_of_isNumber (isNumber_int x.toInt)

theorem plain_around {pre text post : String} (hpre : Plain pre.toList)
    (htext : Plain text.toList) (hpost : Plain post.toList) :
    Plain (pre ++ text ++ post).toList := by
  rw [String.toList_append, String.toList_append]
  exact (hpre.append htext).append hpost

theorem wellFormed_stats (lcore : BitVec 32) (rxPort txPort : OnicPort)
    (rxStats txStats : RteEthStats) (deltaNs : BitVec 64) :
    (Message.stats lcore rxPort txPort rxStats txStats deltaNs).line.WellFormed := by
  refine wellFormed_line RteEthStats.shownNames ?_ ?_ rfl (by decide) (by decide) ?_
  · exact plain_around (by decide) (plain_dec lcore) (by decide)
  · have hrx := plain_around (by decide : Plain "rx_port(".toList) (plain_dec rxPort.getPortId)
      (by decide : Plain ")".toList)
    have htx := plain_around (by decide : Plain "tx_port(".toList) (plain_dec txPort.getPortId)
      (by decide : Plain ")".toList)
    simp only [List.forall_mem_cons, List.not_mem_nil, false_implies, implies_true, and_true]
    exact ⟨⟨hrx, plain_getBdf rxPort⟩, htx, plain_getBdf txPort⟩
  · simp only [RteEthStats.shown, List.map_cons, List.map_nil, List.cons_append, List.nil_append,
      List.forall_mem_cons, isNumber_dec, List.not_mem_nil, false_implies, implies_true, and_true]

theorem wellFormed_cmac (coreId : BitVec 32) (rxPort txPort : OnicPort)
    (rxStats txStats : CmacStats) (deltaNs : BitVec 64) :
    (Message.cmac coreId rxPort txPort rxStats txStats deltaNs).line.WellFormed := by
  refine wellFormed_line CmacStats.appendedNames ?_ ?_ rfl (by decide) (by decide) ?_
  · exact plain_around (by decide) (plain_formatD coreId) (by decide)
  · simp only [List.forall_mem_cons, List.not_mem_nil, false_implies, implies_true, and_true]
    exact ⟨⟨by decide, plain_getBdf rxPort⟩, by decide, plain_getBdf txPort⟩
  · have hshown : ∀ (s : CmacStats) (tag : String), ∀ kv ∈ s.shown tag,
        isNumber kv.2.toList = true :=
      fun s tag => List.forall_mem_map.mpr fun field _ => isNumber_int field.2.toInt
    refine List.forall_mem_append.mpr ⟨List.forall_mem_append.mpr
      ⟨hshown rxStats "R", hshown txStats "T"⟩, ?_⟩
    exact List.forall_mem_singleton.mpr (isNumber_dec deltaNs)

/-! ## Valid messages -/

theorem Message.valid_of_parse {msg : Message}
    (h : parse msg.payload.toList = some msg.line) : msg.Valid :=
  ⟨msg.line, parse_eq_some_iff.mp h, h, rfl, rfl, rfl⟩

theorem parse_stats (lcore : BitVec 32) (rxPort txPort : OnicPort)
    (rxStats txStats : RteEthStats) (deltaNs : BitVec 64) :
    parse (Message.stats lcore rxPort txPort rxStats txStats deltaNs).payload.toList
      = some (Message.stats lcore rxPort txPort rxStats txStats deltaNs).line :=
  parse_eq_some_iff.mpr ⟨wellFormed_stats lcore rxPort txPort rxStats txStats deltaNs,
    runStatsProducer_toList lcore rxPort txPort rxStats txStats deltaNs⟩

theorem parse_cmac (coreId : BitVec 32) (rxPort txPort : OnicPort)
    (rxStats txStats : CmacStats) (deltaNs : BitVec 64) :
    parse (Message.cmac coreId rxPort txPort rxStats txStats deltaNs).payload.toList
      = some (Message.cmac coreId rxPort txPort rxStats txStats deltaNs).line :=
  parse_eq_some_iff.mpr ⟨wellFormed_cmac coreId rxPort txPort rxStats txStats deltaNs,
    runCmacProducer_toList coreId rxPort txPort rxStats txStats deltaNs⟩

/-- A latency message is not a line: its only tag is empty. -/
theorem parse_latency (latencies : Fin (nbHops - 1) → BitVec 64) :
    parse (Message.latency latencies).payload.toList = none := by
  have hfree : ∀ kv ∈ (Timestamps.shownLatencies latencies).toTexts, Free (joinPair kv) := by
    intro kv hkv
    obtain ⟨shown, hshown, rfl⟩ := List.mem_map.mp hkv
    obtain ⟨i, -, rfl⟩ := List.mem_map.mp hshown
    have hkey := plain_around (by decide : Plain "hop(".toList)
      (plain_of_isNumber (isNumber_nat i.val)) (by decide : Plain ")".toList)
    exact free_joinPair hkey.2.1 (plain_dec (latencies i)).2.1
  have hsome : (Timestamps.shownLatencies latencies).toTexts.map joinPair ≠ [] := by
    simp [Shown.toTexts, Timestamps.shownLatencies]
  rw [Message.payload, produceLatencyMessage_toList,
    parse_assemble (by decide) (by decide) (List.forall_mem_map.mpr hfree) hsome]
  rfl

theorem valid_iff (msg : Message) : msg.Valid ↔ msg.isLatency = false := by
  constructor
  · rintro ⟨l, -, hparse, -⟩
    cases msg with
    | stats => rfl
    | cmac => rfl
    | latency latencies =>
        rw [parse_latency] at hparse
        cases hparse
  · intro h
    cases msg with
    | stats lcore rxPort txPort rxStats txStats deltaNs =>
        exact Message.valid_of_parse (parse_stats lcore rxPort txPort rxStats txStats deltaNs)
    | cmac coreId rxPort txPort rxStats txStats deltaNs =>
        exact Message.valid_of_parse (parse_cmac coreId rxPort txPort rxStats txStats deltaNs)
    | latency latencies => cases h

theorem latency_rejected :
    (Message.latency fun _ => 0#64).payload = "Latency_stats, hop(0)=0,hop(1)=0\n"
      ∧ ¬ (Message.latency fun _ => 0#64).Valid := by
  refine ⟨by decide, ?_⟩
  rintro ⟨l, -, hparse, -⟩
  rw [parse_latency] at hparse
  cases hparse

end P2pInspection.StatsLog
