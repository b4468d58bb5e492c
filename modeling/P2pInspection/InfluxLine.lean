import Mathlib.Data.List.Nodup
import P2pInspection.Numerals

/-!
# Lines of the Influx line protocol

A line is a measurement, tags and fields: `m,k=v,... k=v,...` and a newline.
`parse` cuts a text at its separators; `parse_eq_some_iff` says that the texts
it accepts are the lines `render` writes of well-formed contents, each read back
as what was written. Only lines without a timestamp and without escapes are
considered, with decimal integers as field values.
-/

open Numerals

namespace InfluxLine

abbrev Text := List Char

structure Line where
  measurement : Text
  tags : List (Text × Text)
  fields : List (Text × Text)
deriving Repr, DecidableEq

def isNumber : Text → Bool
  | '-' :: ds => !ds.isEmpty && ds.all Char.isDigit
  | ds => !ds.isEmpty && ds.all Char.isDigit

/-- None of the separators between the parts of a line is in the text. -/
def Free (t : Text) : Prop := ∀ c ∈ t, c ≠ '\n' ∧ c ≠ ' ' ∧ c ≠ ','

/-- A text that can stand as a key or a value. -/
def Plain (t : Text) : Prop := t ≠ [] ∧ Free t ∧ '=' ∉ t

theorem plain_iff {t : Text} :
    Plain t ↔ t ≠ [] ∧ ∀ c ∈ t, c ∉ ['\n', ' ', ',', '='] := by
  simp only [Plain, Free, List.mem_cons, List.not_mem_nil, or_false, not_or]
  constructor
  · rintro ⟨hne, hfree, heq⟩
    refine ⟨hne, fun c hc => ⟨(hfree c hc).1, (hfree c hc).2.1, (hfree c hc).2.2, ?_⟩⟩
    rintro rfl
    exact heq hc
  · rintro ⟨hne, hall⟩
    exact ⟨hne, fun c hc => ⟨(hall c hc).1, (hall c hc).2.1, (hall c hc).2.2.1⟩,
      fun hc => (hall _ hc).2.2.2 rfl⟩

instance (t : Text) : Decidable (Free t) :=
  decidable_of_iff (t.all fun c => c != '\n' && c != ' ' && c != ',') (by simp [Free, and_assoc])

instance (t : Text) : Decidable (Plain t) :=
  decidable_of_iff (!t.isEmpty && t.all fun c => c != '\n' && c != ' ' && c != ',' && c != '=')
    (by simp [plain_iff, and_assoc])

structure Line.WellFormed (l : Line) : Prop where
  measurement : l.measurement ≠ [] ∧ Free l.measurement
  tags : ∀ kv ∈ l.tags, Plain kv.1 ∧ Plain kv.2
  someField : l.fields ≠ []
  fields : ∀ kv ∈ l.fields, Plain kv.1 ∧ isNumber kv.2 = true
  keys : (l.fields.map Prod.fst).Nodup

/-! ## Writing -/

def joinPair (kv : Text × Text) : Text := ['='].intercalate [kv.1, kv.2]

/-- A line with these texts between its commas. -/
def assemble (measurement : Text) (tagTexts fieldTexts : List Text) : Text :=
  ['\n'].intercalate [[' '].intercalate
    [[','].intercalate (measurement :: tagTexts), [','].intercalate fieldTexts], []]

def render (l : Line) : Text :=
  assemble l.measurement (l.tags.map joinPair) (l.fields.map joinPair)

theorem render_eq (l : Line) : render l
    = l.measurement ++ l.tags.flatMap (fun kv => ',' :: joinPair kv)
      ++ ' ' :: [','].intercalate (l.fields.map joinPair) ++ ['\n'] := by
  have hhead : ∀ (m : Text) (texts : List Text),
      [','].intercalate (m :: texts) = m ++ texts.flatMap (',' :: ·) := by
    intro m texts
    induction texts generalizing m with
    | nil => simp
    | cons t texts ih => rw [List.intercalate_cons_cons, ih]; simp
  simp [render, assemble, hhead, List.flatMap_map]

/-! ## Reading -/

def parsePair (t : Text) : Option (Text × Text) :=
  match t.splitOn '=' with
  | [k, v] => if k ≠ [] ∧ v ≠ [] then some (k, v) else none
  | _ => none

/-- A line with these texts between its commas, if they are what they should be. -/
def readParts (measurement : Text) (tagTexts fieldTexts : List Text) : Option Line :=
  (tagTexts.mapM parsePair).bind fun tags =>
    (fieldTexts.mapM parsePair).bind fun fields =>
      if measurement ≠ [] ∧ (∀ kv ∈ fields, isNumber kv.2 = true)
          ∧ (fields.map Prod.fst).Nodup then
        some ⟨measurement, tags, fields⟩
      else none

/-- The part before the space and the part behind it. -/
def parseSections (head fields : Text) : Option Line :=
  match head.splitOn ',' with
  | [] => none
  | measurement :: tagTexts => readParts measurement tagTexts (fields.splitOn ',')

def parse (t : Text) : Option Line :=
  match t.splitOn '\n' with
  | [body, []] =>
      match body.splitOn ' ' with
      | [head, fields] => parseSections head fields
      | _ => none
  | _ => none

/-! ## Cutting and joining -/

section Cutting

variable {α : Type} [DecidableEq α] {x c : α} {t w : List α}

theorem notMem_of_mem_splitOn (hw : w ∈ t.splitOn x) : x ∉ w := by
  induction t generalizing w with
  | nil =>
      obtain rfl := List.mem_singleton.mp hw
      exact List.not_mem_nil
  | cons c t ih =>
      rw [List.splitOn_cons_eq_if_modifyHead] at hw
      split at hw
      · rcases List.mem_cons.mp hw with rfl | hw
        · exact List.not_mem_nil
        · exact ih hw
      · rename_i hne
        obtain ⟨first, rest, hcut⟩ := List.exists_cons_of_ne_nil (List.splitOn_ne_nil x t)
        rw [hcut, List.modifyHead_cons] at hw
        rcases List.mem_cons.mp hw with rfl | hw
        · have hfirst : x ∉ first := ih (hcut ▸ List.mem_cons_self)
          intro hmem
          rcases List.mem_cons.mp hmem with rfl | hmem
          · exact hne BEq.rfl
          · exact hfirst hmem
        · exact ih (hcut ▸ List.mem_cons_of_mem first hw)

omit [DecidableEq α] in
theorem mem_intercalate {ls : List (List α)} (hc : c ∈ [x].intercalate ls) :
    c = x ∨ ∃ l ∈ ls, c ∈ l := by
  induction ls with
  | nil => cases hc
  | cons l ls ih =>
      cases ls with
      | nil => exact Or.inr ⟨l, List.mem_cons_self, by simpa [List.intercalate] using hc⟩
      | cons l' ls =>
          rw [List.intercalate_cons_cons, List.mem_append, List.mem_append,
            List.mem_singleton] at hc
          rcases hc with (hc | rfl) | hc
          · exact Or.inr ⟨l, List.mem_cons_self, hc⟩
          · exact Or.inl rfl
          · rcases ih hc with rfl | ⟨m, hm, hcm⟩
            · exact Or.inl rfl
            · exact Or.inr ⟨m, List.mem_cons_of_mem l hm, hcm⟩

omit [DecidableEq α] in
theorem mem_intercalate_of_mem {ls : List (List α)} (hw : w ∈ ls) (hc : c ∈ w) :
    c ∈ [x].intercalate ls := by
  induction ls with
  | nil => cases hw
  | cons l ls ih =>
      cases ls with
      | nil =>
          obtain rfl := List.mem_singleton.mp hw
          rwa [List.intercalate_singleton]
      | cons l' ls =>
          rw [List.intercalate_cons_cons, List.mem_append, List.mem_append]
          rcases List.mem_cons.mp hw with rfl | hw
          · exact Or.inl (Or.inl hc)
          · exact Or.inr (ih hw)

theorem mem_of_mem_splitOn (hw : w ∈ t.splitOn x) (hc : c ∈ w) : c ∈ t := by
  have hjoin : [x].intercalate (t.splitOn x) = t := List.intercalate_splitOn x
  rw [← hjoin]
  exact mem_intercalate_of_mem hw hc

/-- A text with these pieces is these pieces joined, and none has the separator. -/
theorem splitOn_eq_iff {ls : List (List α)} :
    t.splitOn x = ls ↔ t = [x].intercalate ls ∧ ls ≠ [] ∧ ∀ l ∈ ls, x ∉ l := by
  constructor
  · rintro rfl
    exact ⟨(List.intercalate_splitOn x).symm, List.splitOn_ne_nil x t,
      fun l hl => notMem_of_mem_splitOn hl⟩
  · rintro ⟨rfl, hne, hfree⟩
    exact List.splitOn_intercalate x hfree hne

omit [DecidableEq α] in
theorem notMem_intercalate {ls : List (List α)} (hne : c ≠ x) (hls : ∀ l ∈ ls, c ∉ l) :
    c ∉ [x].intercalate ls := by
  intro hc
  rcases mem_intercalate hc with rfl | ⟨l, hl, hcl⟩
  · exact hne rfl
  · exact hls l hl hcl

omit [DecidableEq α] in
theorem intercalate_concat (ls : List (List α)) (l : List α) :
    [x].intercalate (ls ++ [l]) = ls.flatMap (· ++ [x]) ++ l := by
  induction ls with
  | nil => simp
  | cons l' ls ih =>
      rw [List.cons_append, List.intercalate_cons_of_ne_nil (by simp), ih, List.flatMap_cons,
        List.append_assoc, List.append_assoc, List.append_assoc]

omit [DecidableEq α] in
/-- A separator behind each piece, and the last one taken away. -/
theorem dropLast_flatMap (ls : List (List α)) :
    (ls.flatMap (· ++ [x])).dropLast = [x].intercalate ls := by
  rcases List.eq_nil_or_concat ls with rfl | ⟨ls, l, rfl⟩
  · rfl
  · rw [List.concat_eq_append, intercalate_concat, List.flatMap_append, List.flatMap_singleton,
      ← List.append_assoc, List.dropLast_concat]

end Cutting

/-! ## Plain texts -/

theorem Plain.append {s t : Text} (hs : Plain s) (ht : Plain t) : Plain (s ++ t) := by
  rw [plain_iff] at hs ht ⊢
  exact ⟨List.append_ne_nil_of_left_ne_nil hs.1 t,
    List.forall_mem_append.mpr ⟨hs.2, ht.2⟩⟩

theorem plain_intercalate {x : Char} {ls : List Text} (hx : Plain [x]) (hne : ls ≠ [])
    (hls : ∀ l ∈ ls, Plain l) : Plain ([x].intercalate ls) := by
  rw [plain_iff]
  constructor
  · obtain ⟨l, rest, rfl⟩ := List.exists_cons_of_ne_nil hne
    have hl : l ≠ [] := (hls l List.mem_cons_self).1
    cases rest with
    | nil => rwa [List.intercalate_singleton]
    | cons l' rest => simp [hl]
  · intro c hc
    rcases mem_intercalate hc with rfl | ⟨l, hl, hcl⟩
    · exact (plain_iff.mp hx).2 c (List.mem_singleton_self c)
    · exact (plain_iff.mp (hls l hl)).2 c hcl

/-! ## Numerals -/

theorem plain_hex (n : Nat) : Plain (Nat.toDigits 16 n) :=
  plain_iff.mpr ⟨Nat.toDigits_ne_nil, forall_mem_toDigits (by decide) (by decide) n⟩

theorem mem_of_isNumber {t : Text} (h : isNumber t = true) :
    t ≠ [] ∧ ∀ c ∈ t, c = '-' ∨ c.isDigit = true := by
  unfold isNumber at h
  split at h
  · rename_i ds
    simp only [Bool.and_eq_true, List.all_eq_true] at h
    exact ⟨List.cons_ne_nil _ _,
      fun c hc => (List.mem_cons.mp hc).imp id fun hc => h.2 c hc⟩
  · simp only [Bool.and_eq_true, List.all_eq_true, Bool.not_eq_true',
      List.isEmpty_eq_false_iff] at h
    exact ⟨h.1, fun c hc => Or.inr (h.2 c hc)⟩

theorem plain_of_isNumber {t : Text} (h : isNumber t = true) : Plain t := by
  obtain ⟨hne, hmem⟩ := mem_of_isNumber h
  refine plain_iff.mpr ⟨hne, fun c hc hsep => ?_⟩
  rcases hmem c hc with rfl | hdigit
  · revert hsep
    decide
  · simp only [List.mem_cons, List.not_mem_nil, or_false] at hsep
    rcases hsep with rfl | rfl | rfl | rfl <;> exact absurd hdigit (by decide)

theorem isNumber_nat (n : Nat) : isNumber (toString n).toList = true := by
  have hdigits : ∀ c ∈ (toString n).toList, c.isDigit = true := by
    intro c hc
    rw [Nat.toString_eq_repr, Nat.toList_repr] at hc
    exact Nat.isDigit_of_mem_toDigits (by decide) (by decide) hc
  have hne : (toString n).toList ≠ [] := by
    rw [Nat.toString_eq_repr, Nat.toList_repr]
    exact Nat.toDigits_ne_nil
  unfold isNumber
  split
  · rename_i ds heq
    exact absurd (hdigits '-' (heq ▸ List.mem_cons_self)) (by decide)
  · simp only [Bool.and_eq_true, List.all_eq_true, Bool.not_eq_true', List.isEmpty_eq_false_iff]
    exact ⟨hne, hdigits⟩

theorem isNumber_int (i : Int) : isNumber (toString i).toList = true := by
  cases i with
  | ofNat n => exact isNumber_nat n
  | negSucc n =>
      rw [toString_negSucc, isNumber, Bool.and_eq_true, Bool.not_eq_true',
        List.isEmpty_eq_false_iff, List.all_eq_true]
      exact ⟨Nat.toDigits_ne_nil,
        fun c hc => Nat.isDigit_of_mem_toDigits (by decide) (by decide) hc⟩

/-! ## Pairs -/

def PairOk (kv : Text × Text) : Prop := kv.1 ≠ [] ∧ kv.2 ≠ [] ∧ '=' ∉ kv.1 ∧ '=' ∉ kv.2

theorem parsePair_eq_some_iff {t : Text} {kv : Text × Text} :
    parsePair t = some kv ↔ t = joinPair kv ∧ PairOk kv := by
  constructor
  · intro h
    unfold parsePair at h
    split at h
    · rename_i k v hcut
      split at h
      · rename_i hne
        obtain rfl := Option.some.inj h
        obtain ⟨htext, -, hfree⟩ := splitOn_eq_iff.mp hcut
        exact ⟨htext, hne.1, hne.2, hfree k (by simp), hfree v (by simp)⟩
      · cases h
    · cases h
  · rintro ⟨rfl, hk, hv, hkfree, hvfree⟩
    have hcut : (joinPair kv).splitOn '=' = [kv.1, kv.2] :=
      splitOn_eq_iff.mpr ⟨rfl, by simp, by simp [hkfree, hvfree]⟩
    simp [parsePair, hcut, hk, hv]

theorem mapM_parsePair_iff {texts : List Text} {kvs : List (Text × Text)} :
    texts.mapM parsePair = some kvs ↔ texts = kvs.map joinPair ∧ ∀ kv ∈ kvs, PairOk kv := by
  induction texts generalizing kvs with
  | nil => cases kvs <;> simp
  | cons t texts ih =>
      simp only [List.mapM_cons, Option.bind_eq_bind, Option.bind_eq_some_iff, ih,
        parsePair_eq_some_iff]
      constructor
      · rintro ⟨kv, ⟨rfl, hkv⟩, kvs', ⟨rfl, hkvs⟩, hall⟩
        obtain rfl := Option.some.inj hall
        exact ⟨rfl, List.forall_mem_cons.mpr ⟨hkv, hkvs⟩⟩
      · rintro ⟨htexts, hall⟩
        cases kvs with
        | nil => cases htexts
        | cons kv kvs =>
            obtain ⟨rfl, rfl⟩ := List.cons.inj htexts
            obtain ⟨hkv, hkvs⟩ := List.forall_mem_cons.mp hall
            exact ⟨kv, ⟨rfl, hkv⟩, kvs, ⟨rfl, hkvs⟩, rfl⟩

/-! ## Whole lines -/

theorem readParts_eq_some_iff {m : Text} {tagTexts fieldTexts : List Text} {l : Line} :
    readParts m tagTexts fieldTexts = some l
      ↔ (m = l.measurement ∧ tagTexts = l.tags.map joinPair ∧ fieldTexts = l.fields.map joinPair)
        ∧ l.measurement ≠ [] ∧ (∀ kv ∈ l.tags, PairOk kv) ∧ (∀ kv ∈ l.fields, PairOk kv)
        ∧ (∀ kv ∈ l.fields, isNumber kv.2 = true) ∧ (l.fields.map Prod.fst).Nodup := by
  simp only [readParts, Option.bind_eq_some_iff, mapM_parsePair_iff]
  constructor
  · rintro ⟨tags, ⟨rfl, htags⟩, fields, ⟨rfl, hfields⟩, hread⟩
    split at hread
    · rename_i hok
      obtain rfl := Option.some.inj hread
      exact ⟨⟨rfl, rfl, rfl⟩, hok.1, htags, hfields, hok.2⟩
    · cases hread
  · rintro ⟨⟨rfl, rfl, rfl⟩, hne, htags, hfields, hnumbers, hkeys⟩
    exact ⟨l.tags, ⟨rfl, htags⟩, l.fields, ⟨rfl, hfields⟩, if_pos ⟨hne, hnumbers, hkeys⟩⟩

/-- The separators of an assembled line are found where they were put. -/
theorem parse_assemble {m : Text} {tagTexts fieldTexts : List Text} (hm : Free m)
    (htags : ∀ t ∈ tagTexts, Free t) (hfields : ∀ t ∈ fieldTexts, Free t)
    (hne : fieldTexts ≠ []) :
    parse (assemble m tagTexts fieldTexts) = readParts m tagTexts fieldTexts := by
  have hparts : ∀ t ∈ m :: tagTexts, Free t := List.forall_mem_cons.mpr ⟨hm, htags⟩
  have hhead : ([','].intercalate (m :: tagTexts)).splitOn ',' = m :: tagTexts :=
    splitOn_eq_iff.mpr ⟨rfl, by simp, fun t ht hc => (hparts t ht _ hc).2.2 rfl⟩
  have hfs : ([','].intercalate fieldTexts).splitOn ',' = fieldTexts :=
    splitOn_eq_iff.mpr ⟨rfl, hne, fun t ht hc => (hfields t ht _ hc).2.2 rfl⟩
  -- what is joined by commas has no space and no newline
  have hjoined : ∀ ls : List Text, (∀ t ∈ ls, Free t) →
      ' ' ∉ [','].intercalate ls ∧ '\n' ∉ [','].intercalate ls := by
    intro ls hls
    exact ⟨notMem_intercalate (by decide) fun t ht hc => (hls t ht _ hc).2.1 rfl,
      notMem_intercalate (by decide) fun t ht hc => (hls t ht _ hc).1 rfl⟩
  obtain ⟨hspace, hnewline⟩ := hjoined _ hparts
  obtain ⟨hspace', hnewline'⟩ := hjoined _ hfields
  have hsections : ([' '].intercalate [[','].intercalate (m :: tagTexts),
      [','].intercalate fieldTexts]).splitOn ' '
        = [[','].intercalate (m :: tagTexts), [','].intercalate fieldTexts] :=
    splitOn_eq_iff.mpr ⟨rfl, by simp, by simp [hspace, hspace']⟩
  have hline : (assemble m tagTexts fieldTexts).splitOn '\n'
      = [[' '].intercalate [[','].intercalate (m :: tagTexts), [','].intercalate fieldTexts],
        []] := by
    refine splitOn_eq_iff.mpr ⟨rfl, by simp, List.forall_mem_cons.mpr
      ⟨notMem_intercalate (by decide) ?_, by simp⟩⟩
    simp [hnewline, hnewline']
  simp only [parse, hline, hsections, parseSections, hhead, hfs]

theorem free_joinPair {kv : Text × Text} (hk : Free kv.1) (hv : Free kv.2) :
    Free (joinPair kv) := by
  intro c hc
  rcases mem_intercalate hc with rfl | ⟨t, ht, hct⟩
  · decide
  · simp only [List.mem_cons, List.not_mem_nil, or_false] at ht
    rcases ht with rfl | rfl
    · exact hk c hct
    · exact hv c hct

theorem Line.WellFormed.parse_render {l : Line} (h : l.WellFormed) : parse (render l) = some l := by
  have hpair : ∀ kv : Text × Text, Plain kv.1 → Plain kv.2 → PairOk kv ∧ Free (joinPair kv) :=
    fun kv hk hv => ⟨⟨hk.1, hv.1, hk.2.2, hv.2.2⟩, free_joinPair hk.2.1 hv.2.1⟩
  have htags := fun kv hkv => hpair kv (h.tags kv hkv).1 (h.tags kv hkv).2
  have hfields := fun kv hkv =>
    hpair kv (h.fields kv hkv).1 (plain_of_isNumber (h.fields kv hkv).2)
  rw [render, parse_assemble h.measurement.2 ?_ ?_ (by simp [h.someField]),
    readParts_eq_some_iff]
  · exact ⟨⟨rfl, rfl, rfl⟩, h.measurement.1, fun kv hkv => (htags kv hkv).1,
      fun kv hkv => (hfields kv hkv).1, fun kv hkv => (h.fields kv hkv).2, h.keys⟩
  · exact List.forall_mem_map.mpr fun kv hkv => (htags kv hkv).2
  · exact List.forall_mem_map.mpr fun kv hkv => (hfields kv hkv).2

theorem free_of_joinPair {kv : Text × Text} (h : Free (joinPair kv)) : Free kv.1 ∧ Free kv.2 := by
  have hsplit : joinPair kv = kv.1 ++ '=' :: kv.2 := by simp [joinPair, List.intercalate]
  rw [hsplit] at h
  refine ⟨fun c hc => h c (List.mem_append_left _ hc), fun c hc => h c ?_⟩
  exact List.mem_append_right _ (List.mem_cons_of_mem _ hc)

theorem PairOk.plain {kv : Text × Text} (h : PairOk kv) (hfree : Free (joinPair kv)) :
    Plain kv.1 ∧ Plain kv.2 := by
  obtain ⟨hk, hv⟩ := free_of_joinPair hfree
  exact ⟨⟨h.1, hk, h.2.2.1⟩, h.2.1, hv, h.2.2.2⟩

/-- The cuts that `parse` makes in a text it accepts. -/
theorem parse_cases {t : Text} {l : Line} (h : parse t = some l) :
    ∃ body head fields m tagTexts, t.splitOn '\n' = [body, []] ∧ body.splitOn ' ' = [head, fields]
      ∧ head.splitOn ',' = m :: tagTexts ∧ readParts m tagTexts (fields.splitOn ',') = some l := by
  unfold parse at h
  split at h
  · rename_i body hlines
    split at h
    · rename_i head fields hsections
      unfold parseSections at h
      split at h
      · cases h
      · rename_i m tagTexts hhead
        exact ⟨body, head, fields, m, tagTexts, hlines, hsections, hhead, h⟩
    · cases h
  · cases h

/-- A piece of either section has no newline, no space and no comma. -/
theorem free_of_cut {t body sec p : Text} {sections : List Text}
    (hlines : t.splitOn '\n' = [body, []]) (hsections : body.splitOn ' ' = sections)
    (hsec : sec ∈ sections) (hp : p ∈ sec.splitOn ',') : Free p := by
  intro c hc
  have hsec : sec ∈ body.splitOn ' ' := hsections ▸ hsec
  have hinSec : c ∈ sec := mem_of_mem_splitOn hp hc
  have hbody : '\n' ∉ body := notMem_of_mem_splitOn (hlines ▸ List.mem_cons_self)
  refine ⟨?_, ?_, ?_⟩
  · rintro rfl
    exact hbody (mem_of_mem_splitOn hsec hinSec)
  · rintro rfl
    exact notMem_of_mem_splitOn hsec hinSec
  · rintro rfl
    exact notMem_of_mem_splitOn hp hc

/-- What is accepted is well formed, and is written as it was read. -/
theorem wellFormed_of_parse {t : Text} {l : Line} (h : parse t = some l) :
    l.WellFormed ∧ t = render l := by
  obtain ⟨body, head, fields, m, tagTexts, hlines, hsections, hhead, hread⟩ := parse_cases h
  obtain ⟨⟨rfl, htags, hfields⟩, hm, htagsOk, hfieldsOk, hnumbers, hkeys⟩ :=
    readParts_eq_some_iff.mp hread
  have hhd : ∀ p ∈ l.measurement :: l.tags.map joinPair, Free p :=
    fun p hp => free_of_cut hlines hsections (by simp) (hhead ▸ htags ▸ hp)
  have hfs : ∀ p ∈ l.fields.map joinPair, Free p :=
    fun p hp => free_of_cut hlines hsections (by simp) (hfields ▸ hp)
  refine ⟨⟨⟨hm, hhd _ List.mem_cons_self⟩, fun kv hkv => ?_, ?_, fun kv hkv => ?_, hkeys⟩, ?_⟩
  · exact (htagsOk kv hkv).plain (hhd _ (List.mem_cons_of_mem _ (List.mem_map_of_mem hkv)))
  · intro hnil
    rw [hnil] at hfields
    exact List.splitOn_ne_nil ',' fields hfields
  · exact ⟨((hfieldsOk kv hkv).plain (hfs _ (List.mem_map_of_mem hkv))).1, hnumbers kv hkv⟩
  · rw [render, assemble, ← htags, ← hfields, ← hhead, List.intercalate_splitOn,
      List.intercalate_splitOn, ← hsections, List.intercalate_splitOn, ← hlines,
      List.intercalate_splitOn]

/-- The texts that are lines, and what they say. -/
theorem parse_eq_some_iff {t : Text} {l : Line} :
    parse t = some l ↔ l.WellFormed ∧ t = render l := by
  constructor
  · exact wellFormed_of_parse
  · rintro ⟨h, rfl⟩
    exact h.parse_render

end InfluxLine
