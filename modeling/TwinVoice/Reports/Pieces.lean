import TwinVoice.Lib.Tokens
import TwinVoice.Reports.Data
import TwinVoice.Xai.Numerals

/-! # The pieces of a template

A template is words of its own, free texts with punctuation at them, whole
numbers and figures of one decimal, with spaces between. The numbers of such a
text are those of its pieces, and so are its words. -/

namespace TwinVoice.Reports

open TwinVoice.Lib TwinVoice.Xai TwinVoice.Nlu

/-- `\d` has the ASCII digits among the printable characters, and they are worth what they say. -/
structure Decimals (x : Texts) (digit : Char → Nat) : Prop extends x.Reads digit where
  ascii : ∀ c, printable c = true → x.isDigit c = c.isDigit
  digit : ∀ c, c.isDigit = true → digit c = c.toNat - '0'.toNat

inductive Piece
  /-- Words of the template. -/
  | fixed (words : String)
  /-- A free text, with what stands right before it and right after it. -/
  | free (before text after : String)
  /-- Free texts with a mark and a space between them. -/
  | joined (mark : String) (items : List String) (after : String)
  | count (n : Int) (after : String)
  | figure (y : Option Double)

def Piece.text : Piece → String
  | .fixed words => words
  | .free before text after => before ++ text ++ after
  | .joined mark items after => String.intercalate (mark ++ " ") items ++ after
  | .count n after => toString n ++ after
  | .figure y => (y.map tenths).getD "an unknown"

/-- Neither an infinity nor not a number. -/
def finite (y : Double) : Bool :=
  match y.number with
  | .finite _ _ => true
  | _ => false

/-- A sentence of pieces. -/
def sentence (pieces : List Piece) : String := String.intercalate " " (pieces.map Piece.text)

/-! ## Numbers -/

section
variable {x : Texts} {digit : Char → Nat}

theorem printable_of_isDigit {c : Char} (h : c.isDigit = true) : printable c = true := by
  obtain ⟨hmin, hmax⟩ := digit_bounds h
  simp only [printable, Bool.and_eq_true, decide_eq_true_eq]
  omega

theorem Decimals.isDigit (hx : Decimals x digit) {c : Char} (h : c.isDigit = true) : x.isDigit c = true :=
  (hx.ascii c (printable_of_isDigit h)).trans h

/-- Words of the template have no digit and no minus. -/
theorem Decimals.silent (hx : Decimals x digit) {fixed : String} (hfixed : fixed.toList.all Texts.templateChar = true) :
    Texts.Silent x fixed := by
  intro c hc
  have hchar := List.all_eq_true.mp hfixed c hc
  simp only [Texts.templateChar, Bool.and_eq_true, Bool.not_eq_true', decide_eq_true_eq] at hchar
  exact ⟨(hx.ascii c hchar.1.1).trans hchar.1.2, hchar.2⟩

/-- A text beside which the numbers are those of the texts at its sides. -/
def Parts (x : Texts) (between : String) : Prop :=
  ∀ a b, x.numbersIn (a ++ (between ++ b)) = x.numbersIn a ++ x.numbersIn b

theorem parts_of_closed {between : String} (hsilent : Texts.Silent x between)
    (hclosed : ∀ b : String, Closed x.isDigit (between ++ b).toList) : Parts x between := by
  intro a b
  rw [Texts.numbersIn_append (hclosed b), hsilent.numbersIn_append]

/-- A space closes what stands before it, and so does a mark with a space behind it. -/
theorem Decimals.parts (hx : Decimals x digit) {between : String}
    (hfixed : between.toList.all Texts.templateChar = true) (htwo : between = " " ∨ 2 ≤ between.toList.length) :
    Parts x between := by
  refine parts_of_closed (hx.silent hfixed) fun b => ?_
  rcases htwo with rfl | htwo
  · intro c hc
    rw [String.toList_append] at hc
    obtain rfl : ' ' = c := Option.some_inj.mp hc
    exact ⟨(hx.ascii ' ' (by decide)).trans (by decide), fun h => by rcases h with h | h <;> cases h⟩
  · exact (hx.silent hfixed).closed htwo b

theorem numbersIn_intercalate {between : String} (h : Parts x between) (texts : List String) :
    x.numbersIn (String.intercalate between texts) = texts.flatMap x.numbersIn := by
  induction texts with
  | nil => rfl
  | cons t texts ih =>
    cases texts with
    | nil => simp
    | cons t' texts =>
      rw [String.intercalate_cons_cons, String.append_assoc, h, ih]
      rfl

/-- A decimal is one number. -/
theorem Decimals.numbersIn_decimal (hx : Decimals x digit) (negative : Bool) (whole fraction : List Char)
    (hne : whole ≠ []) (hdigits : ∀ c ∈ whole ++ fraction, c.isDigit = true) :
    x.numbersIn (String.ofList (signOf negative ++ whole ++ pointed fraction)) =
      [decimal digit negative whole fraction] := by
  have hall : ∀ c ∈ whole ++ fraction, x.isDigit c = true := fun c hc => hx.isDigit (hdigits c hc)
  have hwhole : ∀ c ∈ whole, x.isDigit c = true := fun c hc => hall c (List.mem_append_left _ hc)
  have hfloat := hx.float negative whole fraction hne hall
  have hfound : ∃ n : Numeral, n.Sound x.isDigit ∧ n.negative = negative ∧ n.groups = [whole] ∧ n.fraction = fraction ∧
      findNumbers x.isDigit 0 (signOf negative ++ whole ++ pointed fraction) = [n.text] := by
    by_cases hfraction : fraction = []
    · have hruns := findNumbers_runs hx.minus hx.mark closed_nil [] negative whole
        ⟨hne, hwhole, fun joined hj => absurd hj List.not_mem_nil⟩
      refine ⟨Numeral.ofRun negative whole, sound_ofRun negative hne hwhole, rfl, rfl, hfraction.symm, ?_⟩
      rw [pointed, if_pos hfraction, List.append_nil]
      simpa [Block.read, cut, findNumbers] using hruns
    · have hpoint : ∀ c ∈ fraction, x.isDigit c = true := fun c hc => hall c (List.mem_append_right _ hc)
      have hruns := findNumbers_runs hx.minus hx.mark closed_nil [('.', fraction)] negative whole
        ⟨hne, hwhole, fun joined hj => by
          rw [List.mem_singleton.mp hj]
          exact ⟨Or.inr rfl, hfraction, hpoint⟩⟩
      refine ⟨⟨negative, [whole], fraction⟩, (sound_ofRun negative hne hwhole).join '.' hpoint, rfl, rfl, rfl, ?_⟩
      have hread : Block.read ⟨negative, whole, [('.', fraction)]⟩ = [⟨negative, [whole], fraction⟩] := rfl
      rw [pointed, if_neg hfraction]
      simpa [findNumbers, hread] using hruns
  obtain ⟨n, hsound, rfl, hgroups, rfl, hfound⟩ := hfound
  rw [Texts.numbersIn, String.toList_ofList, hfound, List.filterMap_cons, List.filterMap_nil,
    hsound.filter_text (hx.mark ',' (Or.inl rfl)), hgroups, List.flatten_singleton, hfloat]

theorem Decimals.natOf_eq (hx : Decimals x digit) {run : List Char} (h : ∀ c ∈ run, c.isDigit = true) :
    natOf digit run = Nat.ofDigitChars 10 run 0 := by
  rw [Nat.ofDigitChars_eq_foldl]
  exact List.foldl_ext _ _ _ fun n c hc => by rw [hx.digit c (h c hc)]

theorem toList_toString (n : Int) :
    (toString n).toList = signOf (decide (n < 0)) ++ Nat.toDigits 10 n.natAbs := by
  cases n with
  | ofNat n =>
    have hsign : decide (Int.ofNat n < 0) = false := decide_eq_false (Int.not_lt.mpr (Int.natCast_nonneg n))
    rw [hsign]
    exact Nat.toList_repr
  | negSucc n =>
    rw [decide_eq_true (Int.negSucc_lt_zero n)]
    show ("-" ++ Nat.repr (n + 1)).toList = _
    rw [String.toList_append, Nat.toList_repr]
    rfl

/-- A whole number is read as the double nearest to it. -/
theorem Decimals.numbersIn_toString (hx : Decimals x digit) (n : Int) :
    x.numbersIn (toString n) = [Floating.ofInt binary64 n] := by
  have hdigits : ∀ c ∈ Nat.toDigits 10 n.natAbs, c.isDigit = true := fun c hc =>
    Nat.isDigit_of_mem_toDigits (by decide) (by decide) hc
  have hread := hx.numbersIn_decimal (decide (n < 0)) (Nat.toDigits 10 n.natAbs) [] Nat.toDigits_ne_nil
    (by rwa [List.append_nil])
  have htext : String.ofList (signOf (decide (n < 0)) ++ Nat.toDigits 10 n.natAbs ++ pointed []) = toString n := by
    rw [pointed, if_pos rfl, List.append_nil, ← toList_toString, String.ofList_toList]
  rw [← htext, hread, decimal, hx.natOf_eq hdigits, Nat.ofDigitChars_ten_toDigits]
  simp [Xai.natOf, Floating.ofInt]

/-- A decimal point and a zero behind it are left out, and nothing else is. -/
theorem tenths_finite {y : Double} {s : Bool} {m : ℚ≥0} (hy : y.number = .finite s m) :
    (tenths y).toList = signOf s ++ Nat.toDigits 10 (roundToEven (m * (10 : Nat)) / 10) ++
      pointed (if roundToEven (m * (10 : Nat)) % 10 = 0 then []
        else Nat.toDigits 10 (roundToEven (m * (10 : Nat)) % 10)) := by
  have hlast : ∀ (front : List Char) (c : Char), c.isDigit = true →
      (front ++ [c]).rdropWhile (· = '.') = front ++ [c] := fun front c hc =>
    List.rdropWhile_concat_neg _ _ c (by
      intro heq
      rw [of_decide_eq_true heq] at hc
      cases hc)
  have hdigit : ∀ k, ∀ c ∈ Nat.toDigits 10 k, c.isDigit = true := fun k c hc =>
    Nat.isDigit_of_mem_toDigits (by decide) (by decide) hc
  generalize hn : roundToEven (m * (10 : Nat)) = n
  have hone : Nat.toDigits 10 (n % 10) = [Nat.digitChar (n % 10)] := Nat.toDigits_of_lt_base (Nat.mod_lt n (by decide))
  have htext : y.number.tenthsText.toList =
      (signOf s ++ Nat.toDigits 10 (n / 10) ++ ['.']) ++ [Nat.digitChar (n % 10)] := by
    rw [hy]
    show (Number.signText s ++ toString (roundToEven (m * (10 : Nat)) / 10) ++ "." ++
      toString (roundToEven (m * (10 : Nat)) % 10)).toList = _
    rw [hn, Nat.toString_eq_ofList_toDigits, Nat.toString_eq_ofList_toDigits, hone]
    cases s <;> simp [Number.signText, signOf]
  have hwhole : ∃ front c, Nat.toDigits 10 (n / 10) = front ++ [c] ∧ c.isDigit = true := by
    obtain ⟨front, c, hfront⟩ := (List.eq_nil_or_concat' (Nat.toDigits 10 (n / 10))).resolve_left Nat.toDigits_ne_nil
    exact ⟨front, c, hfront, hdigit (n / 10) c (by rw [hfront]; exact List.mem_append_right _ List.mem_cons_self)⟩
  obtain ⟨front, c, hfront, hc⟩ := hwhole
  rw [tenths, String.toList_ofList, htext]
  by_cases hzero : n % 10 = 0
  · rw [if_pos hzero, hzero, pointed, if_pos rfl, List.append_nil,
      List.rdropWhile_concat_pos _ _ _ (by decide), List.rdropWhile_concat_neg _ _ _ (by decide),
      List.rdropWhile_concat_pos _ _ _ (by decide), hfront, ← List.append_assoc, hlast _ _ hc]
  · have htenth : (Nat.digitChar (n % 10)).isDigit = true := hdigit (n % 10) _ (by rw [hone]; exact List.mem_cons_self)
    have hne : Nat.digitChar (n % 10) ≠ '0' := fun heq => by
      have hvalue := Nat.toNat_digitChar_sub_48_of_lt_ten (Nat.mod_lt n (by decide : 0 < 10))
      rw [heq] at hvalue
      exact hzero hvalue.symm
    rw [if_neg hzero, hone, pointed, if_neg (List.cons_ne_nil _ _),
      List.rdropWhile_concat_neg (fun c => decide (c = '0')) _ _ (by simpa using hne), hlast _ _ htenth,
      List.append_assoc, List.singleton_append]

/-- A figure of one decimal is read as the figure rounded to one decimal, and what is not finite has no digits. -/
theorem Decimals.numbersIn_tenths (hx : Decimals x digit) (y : Double) :
    x.numbersIn (tenths y) = if finite y then [y.roundTo 1] else [] := by
  cases hy : y.number with
  | nan =>
    have htext : tenths y = "nan" := by rw [tenths, hy]; decide
    rw [finite, hy, htext]
    exact (hx.silent (by decide)).numbersIn
  | infinite s =>
    have htext : tenths y = if s then "-inf" else "inf" := by
      rw [tenths, hy]
      cases s <;> decide
    have hsilent : Texts.Silent x "inf" := hx.silent (by decide)
    have hminus : numberAt? x.isDigit "-inf".toList = none := by
      show unsignedAt? x.isDigit ['-'] ('i' :: "nf".toList) = none
      rw [unsignedAt?, if_pos (List.takeWhile_cons_of_neg (by simp [hx.ascii 'i' (by decide)]))]
    rw [finite, hy, htext]
    cases s with
    | false => exact hsilent.numbersIn
    | true =>
      have hfound : findNumbers x.isDigit 0 "-inf".toList = findNumbers x.isDigit 0 "inf".toList := by
        show findNumbers x.isDigit 0 ('-' :: "inf".toList) = _
        rw [findNumbers]
        exact hminus ▸ rfl
      show (findNumbers x.isDigit 0 "-inf".toList).filterMap _ = []
      rw [hfound]
      exact hsilent.numbersIn
  | finite s m =>
    have hdigit : ∀ k, ∀ c ∈ Nat.toDigits 10 k, c.isDigit = true := fun k c hc =>
      Nat.isDigit_of_mem_toDigits (by decide) (by decide) hc
    have htext := tenths_finite hy
    generalize hn : roundToEven (m * (10 : Nat)) = n at htext
    have hround : y.roundTo 1 = Floating.ofNumber binary64 (.finite s (n / (10 : Nat))) := by
      rw [Floating.roundTo, hy]
      dsimp only
      rw [pow_one, hn]
    have hvalue : ∀ fraction,
        natOf digit fraction / ((10 ^ fraction.length : Nat) : ℚ≥0) = (n % 10 : Nat) / (10 : Nat) →
          decimal digit s (Nat.toDigits 10 (n / 10)) fraction = y.roundTo 1 := by
      intro fraction hfraction
      have hsum : (n : ℚ≥0) = (10 : Nat) * (n / 10 : Nat) + (n % 10 : Nat) := by
        exact_mod_cast (Nat.div_add_mod n 10).symm
      rw [decimal, hround, hx.natOf_eq (hdigit _), Nat.ofDigitChars_ten_toDigits]
      rw [hfraction, hsum, add_div, mul_div_cancel_left₀ _ (by norm_num)]
    rw [finite, hy, ← String.ofList_toList (s := tenths y), htext]
    dsimp only
    rw [if_pos rfl]
    by_cases hzero : n % 10 = 0
    · rw [if_pos hzero, hx.numbersIn_decimal s _ [] Nat.toDigits_ne_nil (by simpa using hdigit (n / 10)),
        hvalue [] (by simp [natOf, hzero])]
    · have hall : ∀ c ∈ Nat.toDigits 10 (n / 10) ++ Nat.toDigits 10 (n % 10), c.isDigit = true := fun c hc =>
        (List.mem_append.mp hc).elim (hdigit _ c) (hdigit _ c)
      have hone : (Nat.toDigits 10 (n % 10)).length = 1 := by
        rw [Nat.toDigits_of_lt_base (Nat.mod_lt n (by decide)), List.length_singleton]
      rw [if_neg hzero, hx.numbersIn_decimal s _ _ Nat.toDigits_ne_nil hall, hvalue]
      rw [hx.natOf_eq (hdigit _), Nat.ofDigitChars_ten_toDigits, hone, pow_one]

/-- The numbers of a piece. -/
def Piece.numbers (x : Texts) : Piece → List Double
  | .fixed words => x.numbersIn words
  | .free _ text _ => x.numbersIn text
  | .joined _ items _ => items.flatMap x.numbersIn
  | .count n _ => [Floating.ofInt binary64 n]
  | .figure y => (y.filter finite).toList.map (Floating.roundTo 1)

/-- The punctuation of the templates. -/
def Piece.Framed : Piece → Prop
  | .fixed _ => True
  | .free before _ after => before ∈ ["", "("] ∧ after ∈ ["", ")", "."]
  | .joined mark _ after => mark ∈ [",", ";"] ∧ after ∈ ["", "."]
  | .count _ after => after ∈ ["", "."]
  | .figure _ => True

theorem Decimals.numbersIn_after (hx : Decimals x digit) {after : String} (h : after ∈ ["", ")", "."]) (s : String) :
    x.numbersIn (s ++ after) = x.numbersIn s := by
  have hpoint : ∀ c, printable c = true → c.isDigit = false → Closed x.isDigit [c] := by
    intro c hprint hc d hd
    obtain rfl := Option.some_inj.mp hd
    exact ⟨(hx.ascii c hprint).trans hc, fun _ => rfl⟩
  have hclosed : Closed x.isDigit after.toList ∧ Texts.Silent x after := by
    simp only [List.mem_cons, List.not_mem_nil, or_false] at h
    rcases h with rfl | rfl | rfl
    · exact ⟨closed_nil, hx.silent (by decide)⟩
    · exact ⟨hpoint ')' (by decide) (by decide), hx.silent (by decide)⟩
    · exact ⟨hpoint '.' (by decide) (by decide), hx.silent (by decide)⟩
  rw [Texts.numbersIn_append hclosed.1, hclosed.2.numbersIn, List.append_nil]

theorem Decimals.numbersIn_piece (hx : Decimals x digit) {p : Piece} (hp : p.Framed) :
    x.numbersIn p.text = p.numbers x := by
  have hshort : ∀ after ∈ ["", "."], after ∈ ["", ")", "."] := by decide
  cases p with
  | fixed words => rfl
  | free before text after =>
    have hsilent : Texts.Silent x before := by
      have hbefore := hp.1
      simp only [List.mem_cons, List.not_mem_nil, or_false] at hbefore
      rcases hbefore with rfl | rfl
      · exact hx.silent (by decide)
      · exact hx.silent (by decide)
    rw [Piece.text, hx.numbersIn_after hp.2, hsilent.numbersIn_append]
    rfl
  | joined mark items after =>
    have hparts : Parts x (mark ++ " ") := by
      have hmark := hp.1
      simp only [List.mem_cons, List.not_mem_nil, or_false] at hmark
      rcases hmark with rfl | rfl
      · exact hx.parts (by decide) (Or.inr (by decide))
      · exact hx.parts (by decide) (Or.inr (by decide))
    rw [Piece.text, hx.numbersIn_after (hshort after hp.2), numbersIn_intercalate hparts]
    rfl
  | count n after =>
    rw [Piece.text, hx.numbersIn_after (hshort after hp), hx.numbersIn_toString]
    rfl
  | figure y =>
    cases y with
    | none => exact (hx.silent (by decide)).numbersIn
    | some y =>
      show x.numbersIn (tenths y) = _
      rw [hx.numbersIn_tenths]
      by_cases hy : finite y = true <;> simp [Piece.numbers, Option.filter, hy]

/-- The numbers of a sentence are those of its pieces. -/
theorem Decimals.numbersIn_sentence (hx : Decimals x digit) {pieces : List Piece} (h : ∀ p ∈ pieces, p.Framed) :
    x.numbersIn (sentence pieces) = pieces.flatMap (Piece.numbers x) := by
  rw [sentence, numbersIn_intercalate (hx.parts (by decide) (Or.inl rfl)), List.flatMap_map]
  exact List.flatMap_congr fun p hp => hx.numbersIn_piece (h p hp)

end

/-! ## Words -/

/-- `len(text.split())`. -/
def wordCount (text : String) : Nat := (fields text).length

/-- The words of a piece: one for a number, and those of the free texts with the punctuation at them. -/
def Piece.words : Piece → Nat
  | .fixed words => wordCount words
  | .free before text after => wordCount (before ++ text ++ after)
  | .joined mark items after =>
    (items.dropLast.map fun item => wordCount (item ++ mark)).sum + wordCount (items.getLastD "" ++ after)
  | .count _ _ => 1
  | .figure y => if y.isSome then 1 else 2

theorem wordCount_append (a b : String) : wordCount (a ++ (" " ++ b)) = wordCount a + wordCount b := by
  have htokens : ∀ s, wordCount s = (tokens isSpace s.toList).length := fun s => List.length_map _
  rw [htokens, htokens, htokens, String.toList_append, String.toList_append]
  show (tokens isSpace (a.toList ++ ' ' :: b.toList)).length = _
  rw [tokens_append_sep (by decide), List.length_append]

theorem wordCount_one {s : String} (hne : s.toList ≠ []) (h : ∀ c ∈ s.toList, isSpace c = false) : wordCount s = 1 := by
  show ((tokens isSpace s.toList).map String.ofList).length = 1
  rw [tokens_of_none hne h]
  rfl

theorem wordCount_intercalate (texts : List String) :
    wordCount (String.intercalate " " texts) = (texts.map wordCount).sum := by
  induction texts with
  | nil => decide
  | cons t texts ih =>
    cases texts with
    | nil => simp
    | cons t' texts =>
      rw [String.intercalate_cons_cons, String.append_assoc, wordCount_append, ih]
      rfl

/-- Each of the joined texts but the last has its mark, and the last what stands after it. -/
theorem wordCount_joined (mark after : String) (items : List String) :
    wordCount (String.intercalate (mark ++ " ") items ++ after) = (Piece.joined mark items after).words := by
  induction items with
  | nil => simp [Piece.words]
  | cons item items ih =>
    cases items with
    | nil => simp [Piece.words]
    | cons item' items =>
      rw [String.intercalate_cons_cons]
      have hsplit : item ++ (mark ++ " ") ++ String.intercalate (mark ++ " ") (item' :: items) ++ after =
          (item ++ mark) ++ (" " ++ (String.intercalate (mark ++ " ") (item' :: items) ++ after)) := by
        simp only [String.append_assoc]
      rw [hsplit, wordCount_append, ih]
      simp [Piece.words, add_assoc]

theorem isSpace_of_textual {c : Char} (h : Number.textual c = true) : isSpace c = false := by
  have hothers : ∀ d ∈ ['.', '+', '-', 'e', 'n', 'a', 'i', 'f'], isSpace d = false :=
    List.all_iff_forall_prop.mp (by decide)
  simp only [Number.textual, Bool.or_eq_true, decide_eq_true_eq] at h
  rcases h with hdigit | hother
  · obtain ⟨hmin, hmax⟩ := digit_bounds hdigit
    simp only [isSpace, Bool.or_eq_false_iff, Bool.and_eq_false_iff, decide_eq_false_iff_not]
    omega
  · exact hothers c hother

theorem wordCount_textual {s : String} (hne : s.toList ≠ []) (h : ∀ c ∈ s.toList, Number.textual c = true) :
    wordCount s = 1 :=
  wordCount_one hne fun c hc => isSpace_of_textual (h c hc)

theorem mem_pointed {c : Char} {fraction : List Char} (h : c ∈ pointed fraction) : c = '.' ∨ c ∈ fraction := by
  unfold pointed at h
  split at h
  · cases h
  · exact List.mem_cons.mp h

theorem wordCount_tenths (y : Double) : wordCount (tenths y) = 1 := by
  cases hy : y.number with
  | nan =>
    rw [tenths, hy]
    decide
  | infinite s =>
    rw [tenths, hy]
    cases s <;> decide
  | finite s m =>
    have htext := tenths_finite hy
    refine wordCount_textual (by simp [htext]) fun c hc => ?_
    have hdigit : ∀ k, c ∈ Nat.toDigits 10 k → Number.textual c = true := fun k => Number.textual_toDigits
    rw [htext, List.mem_append, List.mem_append] at hc
    rcases hc with (hc | hc) | hc
    · cases s with
      | false => cases hc
      | true =>
        rw [List.mem_singleton.mp hc]
        decide
    · exact hdigit _ hc
    · rcases mem_pointed hc with rfl | hc
      · decide
      · split at hc
        · cases hc
        · exact hdigit _ hc

theorem wordCount_count (n : Int) {after : String} (h : after ∈ ["", "."]) : wordCount (toString n ++ after) = 1 := by
  have hne : (toString n ++ after).toList ≠ [] := by
    rw [String.toList_append, toList_toString]
    exact List.append_ne_nil_of_left_ne_nil (List.append_ne_nil_of_right_ne_nil _ Nat.toDigits_ne_nil) _
  refine wordCount_textual hne fun c hc => ?_
  rw [String.toList_append, toList_toString, List.mem_append, List.mem_append] at hc
  rcases hc with (hc | hc) | hc
  · unfold signOf at hc
    split at hc
    · rw [List.mem_singleton.mp hc]
      decide
    · cases hc
  · exact Number.textual_toDigits hc
  · simp only [List.mem_cons, List.not_mem_nil, or_false] at h
    rcases h with rfl | rfl
    · cases hc
    · rw [List.mem_singleton.mp hc]
      decide

theorem wordCount_piece {p : Piece} (hp : p.Framed) : wordCount p.text = p.words := by
  cases p with
  | fixed words => rfl
  | free before text after => rfl
  | joined mark items after => exact wordCount_joined mark after items
  | count n after => exact wordCount_count n hp
  | figure y =>
    cases y with
    | none => decide
    | some y => exact wordCount_tenths y

/-- The words of a sentence are those of its pieces. -/
theorem wordCount_sentence {pieces : List Piece} (h : ∀ p ∈ pieces, p.Framed) :
    wordCount (sentence pieces) = (pieces.map Piece.words).sum := by
  rw [sentence, wordCount_intercalate, List.map_map]
  exact congrArg List.sum (List.map_congr_left fun p hp => wordCount_piece (h p hp))

end TwinVoice.Reports
