import TwinVoice.Reports.Pieces

/-! # What is supported by the data

A text that stands in the data has its numbers among those that the audit finds
there, and so has a whole number. A finite figure is close to itself. -/

namespace TwinVoice.Reports

open TwinVoice.Lib TwinVoice.Xai

/-! ## What the audit finds in the data -/

section
variable {x : Texts}

theorem supported_of_entry {entries : List (String × Data)} {found : List Double}
    (h : supportedEntries x entries = .ok found) {key : String} {value : Data} (hmem : (key, value) ∈ entries) :
    ∃ inner, supportedNumbers x value = .ok inner ∧ ∀ v ∈ inner, v ∈ found := by
  induction entries generalizing found with
  | nil => cases hmem
  | cons e entries ih =>
    obtain ⟨key', value'⟩ := e
    rw [supportedEntries] at h
    cases hvalue : supportedNumbers x value' with
    | error failure =>
      rw [hvalue] at h
      cases h
    | ok inner =>
      cases hmore : supportedEntries x entries with
      | error failure =>
        rw [hvalue, hmore] at h
        cases h
      | ok more =>
        rw [hvalue, hmore] at h
        obtain rfl := Except.ok.inj h
        rcases List.mem_cons.mp hmem with heq | hmem
        · obtain ⟨rfl, rfl⟩ := Prod.mk.inj heq
          exact ⟨inner, hvalue, fun v hv => List.mem_append_left _ (List.mem_append_right _ hv)⟩
        · obtain ⟨inner', hinner', hsub⟩ := ih hmore hmem
          exact ⟨inner', hinner', fun v hv => List.mem_append_right _ (hsub v hv)⟩

theorem supported_of_item {items : List Data} {found : List Double} (h : supportedItems x items = .ok found)
    {value : Data} (hmem : value ∈ items) : ∃ inner, supportedNumbers x value = .ok inner ∧ ∀ v ∈ inner, v ∈ found := by
  induction items generalizing found with
  | nil => cases hmem
  | cons item items ih =>
    rw [supportedItems] at h
    cases hvalue : supportedNumbers x item with
    | error failure =>
      rw [hvalue] at h
      cases h
    | ok inner =>
      cases hmore : supportedItems x items with
      | error failure =>
        rw [hvalue, hmore] at h
        cases h
      | ok more =>
        rw [hvalue, hmore] at h
        obtain rfl := Except.ok.inj h
        rcases List.mem_cons.mp hmem with rfl | hmem
        · exact ⟨inner, hvalue, fun v hv => List.mem_append_left _ hv⟩
        · obtain ⟨inner', hinner', hsub⟩ := ih hmore hmem
          exact ⟨inner', hinner', fun v hv => List.mem_append_right _ (hsub v hv)⟩

/-- The value stands in the data, however deep. -/
inductive Holds : Data → Data → Prop
  | self (v : Data) : Holds v v
  | entry {entries : List (String × Data)} {key : String} {inner v : Data} (hmem : (key, inner) ∈ entries)
      (h : Holds inner v) : Holds (.dict entries) v
  | item {items : List Data} {inner v : Data} (hmem : inner ∈ items) (h : Holds inner v) : Holds (.list items) v

theorem Holds.lookup {entries : List (String × Data)} (key : String) {inner v : Data}
    (hkey : entries.lookup key = some inner) (h : Holds inner v) : Holds (.dict entries) v := by
  obtain ⟨before, after, rfl, -⟩ := List.lookup_eq_some_iff.mp hkey
  exact .entry (List.mem_append_right _ List.mem_cons_self) h

theorem Holds.supported {data v : Data} (h : Holds data v) {found : List Double}
    (hdata : supportedNumbers x data = .ok found) :
    ∃ inner, supportedNumbers x v = .ok inner ∧ ∀ y ∈ inner, y ∈ found := by
  induction h generalizing found with
  | self v => exact ⟨found, hdata, fun y hy => hy⟩
  | entry hmem h ih =>
    rw [supportedNumbers] at hdata
    obtain ⟨inner, hinner, hsub⟩ := supported_of_entry hdata hmem
    obtain ⟨deeper, hdeeper, hsub'⟩ := ih hinner
    exact ⟨deeper, hdeeper, fun y hy => hsub y (hsub' y hy)⟩
  | item hmem h ih =>
    rw [supportedNumbers] at hdata
    obtain ⟨inner, hinner, hsub⟩ := supported_of_item hdata hmem
    obtain ⟨deeper, hdeeper, hsub'⟩ := ih hinner
    exact ⟨deeper, hdeeper, fun y hy => hsub y (hsub' y hy)⟩

theorem Holds.text {data : Data} {s : String} (h : Holds data (.text s)) {found : List Double}
    (hdata : supportedNumbers x data = .ok found) : ∀ y ∈ x.numbersIn s, y ∈ found := by
  obtain ⟨inner, hinner, hsub⟩ := h.supported hdata
  obtain rfl := Except.ok.inj hinner
  exact hsub

theorem Holds.int {data : Data} {n : Int} (h : Holds data (.int n)) {found : List Double}
    (hdata : supportedNumbers x data = .ok found) :
    (Floating.ofInt binary64 n).isInfinite = false ∧ Floating.ofInt binary64 n ∈ found := by
  obtain ⟨inner, hinner, hsub⟩ := h.supported hdata
  have hfloat : (floatOf n).map (fun y => [y]) = .ok inner := hinner
  unfold floatOf at hfloat
  dsimp only at hfloat
  split at hfloat
  · cases hfloat
  · obtain rfl := Except.ok.inj hfloat
    exact ⟨eq_false_of_ne_true ‹_›, hsub _ List.mem_cons_self⟩

end

/-! ## Figures that are in the data -/

theorem finite_ofInt {n : Int} (h : (Floating.ofInt binary64 n).isInfinite = false) :
    finite (Floating.ofInt binary64 n) = true := by
  have hnan : (Floating.ofInt binary64 n).number ≠ .nan := by
    show binary64.round (.finite _ _) ≠ .nan
    unfold FloatFormat.round
    dsimp only
    split <;> simp
  unfold Floating.isInfinite at h
  unfold finite
  cases hnumber : (Floating.ofInt binary64 n).number with
  | nan => exact absurd hnumber hnan
  | infinite s =>
    rw [hnumber] at h
    cases h
  | finite s m => rfl

/-- Not negative, and a number. -/
def Positive (n : Number) : Prop := n = .infinite false ∨ ∃ m, n = .finite false m

theorem Positive.round {n : Number} (h : Positive n) : Positive (binary64.round n) := by
  rcases h with rfl | ⟨m, rfl⟩
  · exact Or.inl rfl
  · unfold FloatFormat.round
    dsimp only
    split
    · exact Or.inl rfl
    · exact Or.inr ⟨_, rfl⟩

theorem zero_le_of_positive {zero y : Double} (hzero : zero.number = .finite false 0) (hy : Positive y.number) :
    zero.le y = true := by
  unfold Floating.le Floating.lt Floating.eq
  rw [hzero]
  rcases hy with hy | ⟨m, hy⟩
  · rw [hy]
    rfl
  · rw [hy, Bool.or_eq_true]
    simp only [Number.lt, Number.eq, Number.value, decide_eq_true_eq, Bool.false_eq_true, if_false]
    exact (lt_or_eq_of_le (by exact_mod_cast zero_le (a := m)))

theorem tolerance_number : tolerance.number = .finite false (5764607523034235 / 1152921504606846976) := by
  decide +kernel

/-- A finite figure is close to itself. -/
theorem closeTo_self {y : Double} (hy : finite y = true) : closeTo y y = true := by
  obtain ⟨s, m, hnumber⟩ : ∃ s m, y.number = .finite s m := by
    unfold finite at hy
    split at hy
    · exact ⟨_, _, ‹_›⟩
    · cases hy
  have hzero : (y.sub y).abs.number = .finite false 0 := by
    have hround : binary64.round (.finite false 0) = .finite false 0 := by decide +kernel
    have hsum : y.number.add y.number.neg = .finite false 0 := by
      rw [hnumber]
      have hnone : Rat.nnabs 0 = 0 := rfl
      cases s <;> simp [Number.add, Number.neg, Number.value, Number.ofRat, hnone]
    show binary64.round (binary64.round (y.number.add y.number.neg)).abs = _
    rw [hsum, hround]
    exact hround
  have hone : Positive (atLeastOne y.abs).number := by
    unfold atLeastOne
    split
    · exact Positive.round (Or.inr ⟨_, rfl⟩)
    · show Positive (binary64.round y.number.abs)
      rw [hnumber]
      exact Positive.round (Or.inr ⟨_, rfl⟩)
  refine zero_le_of_positive hzero ?_
  show Positive (binary64.round (tolerance.number.mul _))
  refine Positive.round ?_
  rw [tolerance_number]
  rcases hone with hone | ⟨t, hone⟩
  · rw [hone]
    exact Or.inl (if_neg (by norm_num))
  · rw [hone]
    exact Or.inr ⟨_, rfl⟩

theorem isSupported_of_mem {y : Double} (hy : finite y = true) {supported : List Double} (hmem : y ∈ supported) :
    isSupported y supported = true := by
  unfold isSupported
  split
  · rfl
  · exact List.any_eq_true.mpr ⟨y, hmem, closeTo_self hy⟩

/-! ## Piece by piece -/

def Piece.rounded : Piece → List Double
  | .figure y => y.toList
  | _ => []

def Piece.freeTexts : Piece → List String
  | .free _ text _ => [text]
  | .joined _ items _ => items
  | _ => []

section
variable {x : Texts} {digit : Char → Nat}

/-- What a piece takes from the data it takes as it is, and its own words have counting words at most. -/
def Piece.Backed (x : Texts) (data : Data) : Piece → Prop
  | .fixed words => ∀ y ∈ x.numbersIn words, allowedAlways.any y.eq = true
  | .free _ text _ => Holds data (.text text)
  | .joined _ items _ => ∀ item ∈ items, Holds data (.text item)
  | .count n _ => Holds data (.int n)
  | .figure _ => True

/-- A figure within the tolerance once it is rounded, and free texts without numbers that no double has. -/
structure Piece.Accepted (x : Texts) (supported : List Double) (p : Piece) : Prop where
  rounded : ∀ y ∈ p.rounded, finite y = true → isSupported (y.roundTo 1) supported = true
  freeTexts : ∀ s ∈ p.freeTexts, ∀ y ∈ x.numbersIn s, finite y = false → isSupported y supported = true

theorem text_supported_iff {data : Data} {supported : List Double} (hdata : supportedNumbers x data = .ok supported)
    {s : String} (hs : Holds data (.text s)) :
    (∀ y ∈ x.numbersIn s, isSupported y supported = true) ↔
      ∀ y ∈ x.numbersIn s, finite y = false → isSupported y supported = true := by
  refine ⟨fun h y hy _ => h y hy, fun h y hy => ?_⟩
  cases hfinite : finite y with
  | false => exact h y hy hfinite
  | true => exact isSupported_of_mem hfinite (hs.text hdata y hy)

theorem Piece.Backed.supported_iff {data : Data} {supported : List Double}
    (hdata : supportedNumbers x data = .ok supported) {p : Piece} (hp : p.Backed x data) :
    (∀ y ∈ p.numbers x, isSupported y supported = true) ↔ p.Accepted x supported := by
  cases p with
  | fixed words =>
    refine iff_of_true (fun y hy => if_pos (hp y hy)) ⟨fun y hy => ?_, fun s hs => ?_⟩
    · cases hy
    · cases hs
  | free before text after =>
    refine (text_supported_iff hdata hp).trans ⟨fun h => ⟨fun y hy => ?_, fun s hs => ?_⟩, fun h => ?_⟩
    · cases hy
    · rw [List.mem_singleton.mp hs]
      exact h
    · exact h.freeTexts text List.mem_cons_self
  | joined mark items after =>
    refine ⟨fun h => ⟨fun y hy => ?_, fun s hs y hy _ => h y (List.mem_flatMap.mpr ⟨s, hs, hy⟩)⟩, fun h y hy => ?_⟩
    · cases hy
    · obtain ⟨s, hs, hy⟩ := List.mem_flatMap.mp hy
      exact (text_supported_iff hdata (hp s hs)).mpr (h.freeTexts s hs) y hy
  | count n after =>
    obtain ⟨hinfinite, hmem⟩ := Holds.int hp hdata
    refine iff_of_true (fun y hy => ?_) ⟨fun y hy => ?_, fun s hs => ?_⟩
    · rw [List.mem_singleton.mp hy]
      exact isSupported_of_mem (finite_ofInt hinfinite) hmem
    · cases hy
    · cases hs
  | figure y =>
    refine ⟨fun h => ⟨fun z hz hfinite => ?_, fun s hs => ?_⟩, fun h z hz => ?_⟩
    · refine h _ (List.mem_map_of_mem ?_)
      obtain rfl := Option.mem_toList.mp hz
      simp [Option.filter, hfinite]
    · cases hs
    · obtain ⟨w, hw, rfl⟩ := List.mem_map.mp hz
      obtain ⟨hw, hfinite⟩ := Option.filter_eq_some_iff.mp (Option.mem_toList.mp hw)
      exact h.rounded w (Option.mem_toList.mpr hw) hfinite

theorem passed_iff {data : Data} {supported : List Double} (hdata : supportedNumbers x data = .ok supported)
    (text : String) {usedLlm : Bool} {result : SummaryAudit} (h : audit x text data usedLlm = .ok result) :
    result.passed = true ↔
      (∀ y ∈ x.numbersIn text, isSupported y supported = true) ∧ wordCount text ≤ wordLimit := by
  unfold audit at h
  rw [hdata] at h
  obtain rfl := Except.ok.inj h
  have hnone : ((numbersIn x text).filter fun value => !isSupported value supported) = [] ↔
      ∀ y ∈ x.numbersIn text, isSupported y supported = true := by
    simp [List.filter_eq_nil_iff, numbersIn]
  rw [← hnone]
  dsimp only
  split
  · exact iff_of_false (by simp) fun h => absurd h.1 ‹_›
  · split
    · exact iff_of_false (by simp) fun h => absurd h.2 (not_le.mpr ‹_›)
    · exact iff_of_true rfl ⟨not_not.mp ‹_›, not_lt.mp ‹_›⟩

theorem audit_ok {data : Data} {supported : List Double} (hdata : supportedNumbers x data = .ok supported)
    (text : String) (usedLlm : Bool) : ∃ result, audit x text data usedLlm = .ok result := by
  unfold audit
  rw [hdata]
  exact ⟨_, rfl⟩

theorem supported_of_audit {data : Data} {text : String} {usedLlm : Bool} {result : SummaryAudit}
    (h : audit x text data usedLlm = .ok result) : ∃ supported, supportedNumbers x data = .ok supported := by
  unfold audit at h
  cases hdata : supportedNumbers x data with
  | error failure =>
    rw [hdata] at h
    cases h
  | ok supported => exact ⟨supported, rfl⟩

end

end TwinVoice.Reports
