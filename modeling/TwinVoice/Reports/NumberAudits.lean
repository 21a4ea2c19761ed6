import TwinVoice.Reports.Summary
import TwinVoice.Xai.Numerals

/-! # What the audits make of a numeral

Both audits look for numbers with the same expression. It joins two runs of
digits at most, so a numeral with two commas, or with a comma and a point, is
read in parts, and two numerals with a comma between them are read as one. -/

namespace TwinVoice.Reports

open TwinVoice.Lib TwinVoice.Xai

/-- The value is a counting word, or within the tolerance of a figure. -/
def Supported (supported : List Double) (value : Double) : Prop :=
  (∃ word ∈ allowedAlways, value.eq word = true) ∨ ∃ ok ∈ supported, closeTo value ok = true

/-- The value is within the tolerance of a figure that the narration may repeat. -/
def Repeated (expected : List Double) (value : Double) : Prop :=
  ∃ candidate ∈ expected, closeToAny value [candidate] = true

theorem isSupported_iff {value : Double} {supported : List Double} :
    isSupported value supported = true ↔ Supported supported value := by
  unfold isSupported Supported
  rw [← List.any_eq_true, ← List.any_eq_true]
  split
  · exact iff_of_true rfl (Or.inl ‹_›)
  · exact (or_iff_right ‹_›).symm

theorem closeToAny_iff {value : Double} {expected : List Double} :
    closeToAny value expected = true ↔ Repeated expected value := by
  simp only [Repeated, closeToAny, List.any_eq_true, List.any_cons, List.any_nil, Bool.or_false]

section
variable {x : Texts} {digit : Char → Nat}

/-- Every numeral of the text, as it is written, has a value as asked. -/
def EachWritten (x : Texts) (digit : Char → Nat) (text : String) (ok : Double → Prop) : Prop :=
  ∀ b ∈ blocks x.isDigit 0 text.toList, ∀ n ∈ b.written, ok (n.value digit)

/-- A numeral of a plain block is not as asked anyway, or in the other blocks the numerals are
exactly if the runs are that a block is made of, two at a time. -/
def ReadAlike (x : Texts) (digit : Char → Nat) (text : String) (ok : Double → Prop) : Prop :=
  (∃ b ∈ blocks x.isDigit 0 text.toList, b.Plain ∧ ∃ n ∈ b.written, ¬ ok (n.value digit)) ∨
    ((∀ b ∈ blocks x.isDigit 0 text.toList, ¬ b.Plain → ∀ n ∈ b.written, ok (n.value digit)) ↔
      ∀ b ∈ blocks x.isDigit 0 text.toList, ¬ b.Plain → ∀ n ∈ b.read, ok (n.value digit))

/-- Where all blocks are plain nothing is left to ask. -/
theorem readAlike_of_plain {text : String} (h : ∀ b ∈ blocks x.isDigit 0 text.toList, b.Plain) (ok : Double → Prop) :
    ReadAlike x digit text ok :=
  Or.inr (iff_of_true (fun b hb hnot => absurd (h b hb) hnot) fun b hb hnot => absurd (h b hb) hnot)

theorem numbersIn_iff_written (hx : x.Reads digit) (text : String) (ok : Double → Prop) :
    ((∀ value ∈ x.numbersIn text, ok value) ↔ EachWritten x digit text ok) ↔ ReadAlike x digit text ok := by
  have hread : (∀ value ∈ x.numbersIn text, ok value) ↔
      ∀ b ∈ blocks x.isDigit 0 text.toList, ∀ n ∈ b.read, ok (n.value digit) := by
    rw [hx.numbersIn, List.forall_mem_map]
    exact ⟨fun h b hb n hn => h n (List.mem_flatMap.mpr ⟨b, hb, hn⟩), fun h n hn => by
      obtain ⟨b, hb, hn⟩ := List.mem_flatMap.mp hn
      exact h b hb n hn⟩
  have hplain : ∀ b ∈ blocks x.isDigit 0 text.toList, b.Plain → b.read = b.written := fun b hb =>
    (sound_of_mem_blocks hb).read_eq_written.mpr
  unfold EachWritten ReadAlike
  rw [hread]
  by_cases hbad : ∃ b ∈ blocks x.isDigit 0 text.toList, b.Plain ∧ ∃ n ∈ b.written, ¬ ok (n.value digit)
  · obtain ⟨b, hb, hp, n, hn, hnot⟩ := hbad
    refine iff_of_true (iff_of_false (fun h => hnot (h b hb n ?_)) fun h => hnot (h b hb n hn))
      (Or.inl ⟨b, hb, hp, n, hn, hnot⟩)
    rw [hplain b hb hp]
    exact hn
  · have hgood : ∀ b ∈ blocks x.isDigit 0 text.toList, b.Plain → ∀ n ∈ b.written, ok (n.value digit) :=
      fun b hb hp n hn => by_contra fun hnot => hbad ⟨b, hb, hp, n, hn, hnot⟩
    have hothers : ∀ numerals : Block → List Numeral, (∀ b, b.Plain → b ∈ blocks x.isDigit 0 text.toList →
        numerals b = b.written) → ((∀ b ∈ blocks x.isDigit 0 text.toList, ∀ n ∈ numerals b, ok (n.value digit)) ↔
          ∀ b ∈ blocks x.isDigit 0 text.toList, ¬ b.Plain → ∀ n ∈ numerals b, ok (n.value digit)) := by
      intro numerals heq
      refine ⟨fun h b hb _ => h b hb, fun h b hb => ?_⟩
      by_cases hp : b.Plain
      · rw [heq b hp hb]
        exact hgood b hb hp
      · exact h b hb hp
    rw [or_iff_right hbad, hothers Block.read fun b hp hb => hplain b hb hp, hothers Block.written fun _ _ _ => rfl]
    exact ⟨Iff.symm, Iff.symm⟩

theorem audit_accepts_iff {text : String} {data : Data} {supported : List Double}
    (hdata : supportedNumbers x data = .ok supported) {usedLlm : Bool} {result : SummaryAudit}
    (h : audit x text data usedLlm = .ok result) :
    result.unsupportedNumbers = [] ↔ ∀ value ∈ x.numbersIn text, Supported supported value := by
  unfold audit at h
  rw [hdata] at h
  obtain rfl := Except.ok.inj h
  simp only [← isSupported_iff]
  rw [← List.length_eq_zero_iff, List.length_insertionSort, List.length_eq_zero_iff, List.dedup_eq_nil,
    List.filter_eq_nil_iff]
  simp [numbersIn]

theorem auditNarration_accepts_iff (text : String) (attributions : List Attribution) (allowed : List Double)
    (actions : List String) (l : FeatureLabels) (topK : Nat) :
    (auditNarration x text attributions allowed actions l topK).numericWithinTolerance = true ↔
      ∀ value ∈ x.numbersIn text, Repeated (allowed ++ attributions.map fun a => a.value.roundTo 4) value := by
  simp only [← closeToAny_iff]
  unfold auditNarration
  dsimp only
  rw [List.isEmpty_iff, List.filter_eq_nil_iff]
  simp

/-- Each audit accepts the numbers of a text exactly if every numeral in it, as it is written, is
supported, if and only if its blocks are alike as they are written and two runs at a time. -/
theorem audits_read_as_written_iff (hx : x.Reads digit) (text : String) :
    (∀ data supported usedLlm result, supportedNumbers x data = .ok supported →
      audit x text data usedLlm = .ok result →
      ((result.unsupportedNumbers = [] ↔ EachWritten x digit text (Supported supported)) ↔
        ReadAlike x digit text (Supported supported))) ∧
    ∀ attributions allowed actions l topK,
      (((auditNarration x text attributions allowed actions l topK).numericWithinTolerance = true ↔
          EachWritten x digit text (Repeated (allowed ++ attributions.map fun a => a.value.roundTo 4))) ↔
        ReadAlike x digit text (Repeated (allowed ++ attributions.map fun a => a.value.roundTo 4))) := by
  refine ⟨fun data supported usedLlm result hdata haudit => ?_, fun attributions allowed actions l topK => ?_⟩
  · rw [audit_accepts_iff hdata haudit]
    exact numbersIn_iff_written hx text _
  · rw [auditNarration_accepts_iff]
    exact numbersIn_iff_written hx text _

end

/-! ## The numerals of a text in ASCII -/

def digitOf (c : Char) : Nat := c.toNat - 48

/-- The value of digits with a point, once their sign is known. -/
def unsignedFloat? (negative : Bool) (body : List Char) : Option Double :=
  let whole := body.takeWhile Char.isDigit
  if whole = [] then none
  else
    match body.dropWhile Char.isDigit with
    | [] => some (decimal digitOf negative whole [])
    | point :: fraction =>
      if point = '.' ∧ fraction.all Char.isDigit then some (decimal digitOf negative whole fraction) else none

/-- `float()` of digits with a point, and a minus before them. -/
def float? (text : String) : Option Double :=
  if text.toList.head? = some '-' then unsignedFloat? true text.toList.tail else unsignedFloat? false text.toList

def decimalTexts : Texts where
  tables := Nlu.asciiTables
  isDigit := Char.isDigit
  capitalize s := s
  float? := float?

theorem unsignedFloat?_decimal (negative : Bool) {whole fraction : List Char} (hne : whole ≠ [])
    (hdigits : ∀ c ∈ whole ++ fraction, c.isDigit = true) :
    unsignedFloat? negative (whole ++ pointed fraction) = some (decimal digitOf negative whole fraction) := by
  have hwhole : ∀ c ∈ whole, c.isDigit = true := fun c hc => hdigits c (List.mem_append_left _ hc)
  unfold unsignedFloat? pointed
  by_cases hfraction : fraction = []
  · rw [if_pos hfraction, List.append_nil, List.takeWhile_eq_self_iff.mpr hwhole, List.dropWhile_eq_nil_iff.mpr hwhole,
      hfraction]
    exact if_neg hne
  · have hall : fraction.all Char.isDigit = true :=
      List.all_eq_true.mpr fun c hc => hdigits c (List.mem_append_right _ hc)
    rw [if_neg hfraction, takeWhile_run hwhole (by decide), dropWhile_run hwhole (by decide)]
    dsimp only
    rw [if_neg hne, if_pos ⟨rfl, hall⟩]

theorem decimalTexts_reads : decimalTexts.Reads digitOf where
  minus := by decide
  mark c hc := by rcases hc with rfl | rfl <;> decide
  float negative whole fraction hne hdigits := by
    have hvalue := unsignedFloat?_decimal negative hne hdigits
    show float? _ = _
    unfold float?
    rw [String.toList_ofList, List.append_assoc]
    cases negative with
    | true => exact hvalue
    | false =>
      obtain ⟨c, rest, hwhole⟩ := List.exists_cons_of_ne_nil hne
      have hc : c.isDigit = true := hdigits c (by rw [hwhole]; exact List.mem_cons_self)
      have hminus : ¬ (signOf false ++ (whole ++ pointed fraction)).head? = some '-' := by
        intro hhead
        rw [hwhole] at hhead
        rw [Option.some_inj.mp hhead] at hc
        cases hc
      rw [if_neg hminus]
      exact hvalue

def figures (ns : List Nat) : List Double := ns.map fun n : Nat => Floating.ofRat _ n

/-- A figure of two commas stands in the data as it is written, and both audits read two numbers in it. -/
theorem millions_read_in_parts :
    supportedNumbers decimalTexts (.dict [("parts", .int 1234567)]) = .ok (figures [1234567]) ∧
      audit decimalTexts "1,234,567 parts" (.dict [("parts", .int 1234567)]) false =
        .ok ⟨false, false, 2, figures [567, 1234], some "numbers not present in the report data"⟩ ∧
      EachWritten decimalTexts digitOf "1,234,567 parts" (Supported (figures [1234567])) ∧
      (auditNarration decimalTexts "1,234,567 parts" [] (figures [1234567]) [] FeatureLabels.shipped
        3).numericWithinTolerance = false ∧
      EachWritten decimalTexts digitOf "1,234,567 parts" (Repeated (figures [1234567])) := by
  unfold EachWritten Supported Repeated
  decide +kernel

/-- 1,350 parts are read as they are written. -/
theorem thousands_read_as_written :
    EachWritten decimalTexts digitOf "1,350 parts" (Supported (figures [1350])) ∧
      ((auditNarration decimalTexts "1,350 parts" [] (figures [1350]) [] FeatureLabels.shipped
          3).numericWithinTolerance = true ↔
        EachWritten decimalTexts digitOf "1,350 parts" (Repeated (figures [1350]))) := by
  have hplain : ∀ b ∈ blocks Char.isDigit 0 "1,350 parts".toList, b.Plain := by decide
  have haudit : audit decimalTexts "1,350 parts" (.dict [("parts", .int 1350)]) false =
      .ok ⟨true, false, 2, [], none⟩ := by
    decide +kernel
  have hread := audits_read_as_written_iff decimalTexts_reads "1,350 parts"
  have hsummary := (hread.1 _ (figures [1350]) _ _ (by decide +kernel) haudit).mpr (readAlike_of_plain hplain _)
  exact ⟨hsummary.mp rfl, (hread.2 [] (figures [1350]) [] _ 3).mpr (readAlike_of_plain hplain _)⟩

end TwinVoice.Reports
