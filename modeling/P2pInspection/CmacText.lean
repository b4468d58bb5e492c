import P2pInspection.PortNames

/-!
# Reading the CMAC statistics back

The text of `CmacStats::to_string` is cut at its commas and each piece at its
`=`. The keys always come back; the values are written with `%d` and are
unsigned numerals only while the sign bit is clear (`readsBack_iff`).
-/

namespace P2pInspection

open InfluxLine Numerals

namespace CmacStats

/-- The tags of `run_cmac_producer`. -/
def tags : List String := ["R", "T"]

def key (tag name : String) : Text := ("(" ++ tag ++ ")" ++ name).toList

/-- The pairs of a text, if every piece between its commas is one. -/
def readPairs (t : Text) : Option (List (Text × Text)) := (t.splitOn ',').mapM parsePair

/-- The text says the eight totals, each under a key of its own and as an
unsigned decimal, and statistics with other totals have another text. -/
structure ReadsBack (s : CmacStats) (tag : String) : Prop where
  pairs : ∃ kvs, readPairs (s.toString tag).toList = some kvs
    ∧ (kvs.map fun kv => (kv.1, readNumeral 10 kv.2)).Perm
        (s.appended.map fun field => (key tag field.1, some field.2.toNat))
  keys : (appendedNames.map (key tag)).Nodup
  differ : ∀ s' : CmacStats, s'.appended ≠ s.appended → s'.toString tag ≠ s.toString tag

theorem length_of_mem_tags {tag : String} (htag : tag ∈ tags) : tag.length = 1 := by
  revert tag
  decide

theorem plain_key {tag : String} (htag : tag ∈ tags) {name : String}
    (hname : name ∈ appendedNames) : Plain (key tag name) := by
  have hpre : ∀ tag ∈ tags, Plain ("(" ++ tag ++ ")").toList := by decide
  have hnames : ∀ name ∈ appendedNames, Plain name.toList := by decide
  rw [key, String.toList_append]
  exact (hpre tag htag).append (hnames name hname)

theorem keys_nodup (tag : String) : (appendedNames.map (key tag)).Nodup := by
  have hinj : Function.Injective (key tag) := fun name name' heq =>
    (String.append_right_inj _).mp (String.toList_inj.mp heq)
  exact List.Nodup.map hinj (by decide)

theorem shown_toTexts (s : CmacStats) (tag : String) : (s.shown tag).toTexts
    = s.appended.map fun field => (key tag field.1, (formatD field.2).toList) := by
  rw [Shown.toTexts, shown, List.map_map]
  rfl

/-- The pairs come back as they were printed. -/
theorem readPairs_toString (s : CmacStats) {tag : String} (htag : tag ∈ tags) :
    readPairs (s.toString tag).toList
      = some (s.appended.map fun field => (key tag field.1, (formatD field.2).toList)) := by
  have hplain : ∀ kv ∈ (s.shown tag).toTexts, Plain kv.1 ∧ Plain kv.2 := by
    rw [shown_toTexts]
    refine List.forall_mem_map.mpr fun field hfield => ⟨plain_key htag ?_, ?_⟩
    · exact s.appended_names ▸ List.mem_map_of_mem hfield
    · exact plain_of_isNumber (isNumber_int field.2.toInt)
  have hpieces : (s.toString tag).toList.splitOn ',' = (s.shown tag).toTexts.map joinPair := by
    rw [toString_toList s (length_of_mem_tags htag), joined, splitOn_eq_iff]
    refine ⟨rfl, by simp [shown_toTexts, appended], List.forall_mem_map.mpr fun kv hkv hcomma => ?_⟩
    obtain ⟨hk, hv⟩ := hplain kv hkv
    exact (free_joinPair hk.2.1 hv.2.1 ',' hcomma).2.2 rfl
  rw [readPairs, hpieces, mapM_parsePair_iff, ← shown_toTexts]
  refine ⟨rfl, fun kv hkv => ?_⟩
  obtain ⟨hk, hv⟩ := hplain kv hkv
  exact ⟨hk.1, hv.1, hk.2.2, hv.2.2⟩

theorem formatD_injective {w : Nat} : Function.Injective (formatD (w := w)) :=
  fun _ _ heq => BitVec.toInt_inj.mp (toString_int_injective heq)

/-- With any sign bits, different totals have different texts. -/
theorem appended_eq_of_toString {s s' : CmacStats} {tag : String} (htag : tag ∈ tags)
    (h : s'.toString tag = s.toString tag) : s'.appended = s.appended := by
  have hread := readPairs_toString s' htag
  rw [h, readPairs_toString s htag, Option.some_inj] at hread
  refine List.map_injective_iff.mpr (fun field field' heq => ?_) hread.symm
  obtain ⟨hkey, hvalue⟩ := Prod.mk.inj heq
  exact Prod.ext ((String.append_right_inj _).mp (String.toList_inj.mp hkey))
    (formatD_injective (String.toList_inj.mp hvalue))

/-- `%d` prints an unsigned numeral exactly while the sign bit is clear. -/
theorem readNumeral_formatD_iff (x : BitVec 32) (n : Nat) :
    readNumeral 10 (formatD x).toList = some n ↔ x.toNat = n ∧ x.toNat < 2 ^ 31 := by
  have hx := x.isLt
  rw [formatD, readNumeral_int_iff, BitVec.toInt_eq_toNat_cond]
  split <;> omega

theorem readsBack_iff (s : CmacStats) {tag : String} (htag : tag ∈ tags) :
    ReadsBack s tag ↔ ∀ field ∈ s.appended, field.2.toNat < 2 ^ 31 := by
  constructor
  · rintro ⟨⟨kvs, hkvs, hperm⟩, -, -⟩ field hfield
    obtain rfl := Option.some.inj (hkvs.symm.trans (readPairs_toString s htag))
    rw [List.map_map] at hperm
    -- what is read for this field is one of the values that should be read
    have hmem := hperm.subset (List.mem_map_of_mem hfield)
    obtain ⟨field', -, heq⟩ := List.mem_map.mp hmem
    exact ((readNumeral_formatD_iff field.2 _).mp (Prod.mk.inj heq).2.symm).2
  · intro hsmall
    refine ⟨⟨_, readPairs_toString s htag, ?_⟩, keys_nodup tag, fun s' hne heq =>
      hne (appended_eq_of_toString htag heq)⟩
    have hvalues : ∀ field ∈ s.appended,
        readNumeral 10 (formatD field.2).toList = some field.2.toNat :=
      fun field hfield => (readNumeral_formatD_iff _ _).mpr ⟨rfl, hsmall field hfield⟩
    rw [List.map_map]
    refine List.Perm.of_eq (List.map_congr_left fun field hfield => ?_)
    rw [Function.comp_apply, hvalues field hfield]

/-- A byte counter with its highest bit set is printed with a minus sign. -/
theorem largeCounter_not_readsBack :
    (key "R" "tx_total_bytes", "-2147483648".toList)
        ∈ (({ txTotalBytes := 0x80000000#32 } : CmacStats).shown "R").toTexts
      ∧ ¬ReadsBack { txTotalBytes := 0x80000000#32 } "R" := by
  refine ⟨by decide, ?_⟩
  rintro ⟨⟨kvs, hkvs, hperm⟩, -, -⟩
  obtain rfl := Option.some.inj (hkvs.symm.trans (readPairs_toString _ (by decide)))
  have hmem : (key "R" "tx_total_bytes", none)
      ∈ ({ txTotalBytes := 0x80000000#32 } : CmacStats).appended.map fun field =>
        (key "R" field.1, some field.2.toNat) := hperm.subset (by decide +kernel)
  obtain ⟨field, -, heq⟩ := List.mem_map.mp hmem
  exact Option.some_ne_none _ (Prod.mk.inj heq).2

theorem readsBack_iff_firstCounters :
    ReadsBack { txTotalPkts := 7#32, rxTotalBytes := 448#32 } "T" :=
  (readsBack_iff _ (by decide)).mpr (by decide)

end CmacStats

end P2pInspection
