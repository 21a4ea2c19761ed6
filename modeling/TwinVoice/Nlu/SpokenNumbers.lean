import TwinVoice.Nlu.SpokenTimes
import TwinVoice.Nlu.Words

/-! # Spoken numbers

A numeral with or without a fraction, a number word, or a ten and a unit, each
with or without a percent sign. What is read is the first word of it: the
fraction and the unit are words of their own once the punctuation is gone. -/

namespace TwinVoice.Nlu

open TwinVoice.Lib

/-- A run of decimal digits. -/
structure Digits where
  chars : List Char
  ne : chars ≠ []
  digits : ∀ c ∈ chars, c.isDigit = true

namespace Digits

def text (d : Digits) : String := String.ofList d.chars

def value (d : Digits) : Nat := Nat.ofDigitChars 10 d.chars 0

end Digits

/-- The English ones of the number words. -/
def englishNumbers : List (String × Nat) := numberWords.take 21

def tens : List (String × Nat) := englishNumbers.drop 13

def units : List (String × Nat) := (englishNumbers.drop 1).take 9

inductive SpokenNumber
  | numeral (whole : Digits) (fraction : Option Digits)
  | word (e : String × Nat) (h : e ∈ englishNumbers)
  | compound (ten unit : String × Nat) (hten : ten ∈ tens) (hunit : unit ∈ units) (hyphen : Bool)

inductive PercentSign
  | absent | sign | word

def PercentSign.chars : PercentSign → List Char
  | absent => []
  | sign => ['%']
  | word => ' ' :: "percent".toList

namespace SpokenNumber

def first : SpokenNumber → List Char
  | numeral whole _ => whole.chars
  | word e _ => e.1.toList
  | compound ten _ _ _ _ => ten.1.toList

/-- What follows the first word, with what separates it. -/
def rest : SpokenNumber → List Char
  | numeral _ none => []
  | numeral _ (some fraction) => '.' :: fraction.chars
  | word _ _ => []
  | compound _ unit _ _ hyphen => (if hyphen then '-' else ' ') :: unit.1.toList

def text (n : SpokenNumber) (percent : PercentSign) : String := String.ofList (n.first ++ n.rest ++ percent.chars)

def value : SpokenNumber → Rat
  | numeral whole none => whole.value
  | numeral whole (some fraction) => whole.value + fraction.value / 10 ^ fraction.chars.length
  | word e _ => e.2
  | compound ten unit _ _ _ => ten.2 + unit.2

/-- The value of the first word. -/
def firstValue : SpokenNumber → Nat
  | numeral whole _ => whole.value
  | word e _ => e.2
  | compound ten _ _ _ _ => ten.2

/-- The number is a single word, or a numeral with a fraction that is lost in rounding. -/
def ReadWhole (nearest : Rat → Rat) : SpokenNumber → Prop
  | numeral _ none => True
  | numeral whole (some fraction) =>
    nearest whole.value = nearest (whole.value + fraction.value / 10 ^ fraction.chars.length)
  | word _ _ => True
  | compound _ _ _ _ _ => False

end SpokenNumber

/-- What `float()` makes of digits is the nearest double, and of a number word nothing; doubles hold the
small numbers exactly. -/
structure Lexicon.ReadsNumbers (x : Lexicon) (nearest : Rat → Rat) : Prop where
  ascii : x.tables.Ascii
  numeral : ∀ d : Digits, x.float? d.text = some (nearest d.value)
  word : ∀ e ∈ numberWords, x.float? e.1 = none
  small : ∀ n : Nat, n ≤ 2 ^ 53 → nearest n = n

/-! ## The characters -/

/-- A character of a number's first word. -/
def wordy (c : Char) : Bool := (c.isDigit || c.isLower) && c ≠ 'p'

/-- A character of a number. -/
def plain (c : Char) : Bool := c.isDigit || c.isLower || c ∈ [' ', '%', '.', '-']

theorem plain_facts {c : Char} (h : plain c = true) : printable c = true ∧ c.toLower = c ∧ c ∉ apostrophes := by
  have hothers : ∀ d ∈ [' ', '%', '.', '-'], printable d = true ∧ d.toLower = d ∧ d ∉ apostrophes :=
    List.all_iff_forall_prop.mp (by decide)
  have happ : ∀ d ∈ apostrophes, d.isDigit = false ∧ d.isLower = false :=
    List.all_iff_forall_prop.mp (by decide)
  simp only [plain, Bool.or_eq_true, decide_eq_true_eq] at h
  rcases h with (hdigit | hlower) | hother
  · obtain ⟨hmin, hmax⟩ := digit_bounds hdigit
    refine ⟨?_, toLower_of_bounds (by omega), fun hmem => by simp [(happ c hmem).1] at hdigit⟩
    simp only [printable, Bool.and_eq_true, decide_eq_true_eq]
    omega
  · obtain ⟨hmin, hmax⟩ := lower_bounds hlower
    refine ⟨?_, toLower_of_bounds (by omega), fun hmem => by simp [(happ c hmem).2] at hlower⟩
    simp only [printable, Bool.and_eq_true, decide_eq_true_eq]
    omega
  · exact hothers c hother

theorem folded_of_plain {u : UnicodeTables} (h : u.Ascii) {cs : List Char} (hcs : ∀ c ∈ cs, plain c = true) :
    Lexicon.folded u (String.ofList cs) = cs := by
  have hprintable : ∀ c ∈ (String.ofList cs).toList, printable c = true := fun c hc =>
    (plain_facts (hcs c (by simpa using hc))).1
  have hlower : cs.map Char.toLower = cs := by
    conv_rhs => rw [← List.map_id cs]
    exact List.map_congr_left fun c hc => (plain_facts (hcs c hc)).2.1
  unfold Lexicon.folded
  rw [h.nfkc _ hprintable, h.lower _ hprintable, String.toList_ofList, String.toList_ofList, hlower]
  exact List.filter_eq_self.mpr fun c hc => decide_eq_true (plain_facts (hcs c hc)).2.2

theorem plain_of_wordy {c : Char} (h : wordy c = true) : plain c = true := by
  simp only [wordy, Bool.and_eq_true] at h
  simp [plain, h.1]

theorem separates_of_wordy {u : UnicodeTables} (hu : u.Ascii) {c : Char} (h : wordy c = true) :
    Lexicon.separates u c = false := by
  have hword : u.isWord c = true := by
    rw [hu.isWord c (plain_facts (plain_of_wordy h)).1]
    simp only [wordy, Bool.and_eq_true, Bool.or_eq_true] at h
    rcases h.1 with hdigit | hlower
    · simp [Char.isAlphanum, hdigit]
    · simp [Char.isAlphanum, isAlpha_def, hlower]
  simp [Lexicon.separates, hword]

theorem separates_of_sep {u : UnicodeTables} (hu : u.Ascii) {c : Char} (h : c ∈ [' ', '.', '-']) :
    Lexicon.separates u c = true := by
  have hall : ∀ d ∈ [' ', '.', '-'], printable d = true ∧ (d.isAlphanum || d = '_') = false ∧
      decide (d = '%') = false :=
    List.all_iff_forall_prop.mp (by decide)
  obtain ⟨hprintable, hword, hpercent⟩ := hall c h
  rw [Lexicon.separates, hu.isWord c hprintable, hword, hpercent]
  rfl

/-- A word with no "p" and no percent sign keeps everything but a percent sign behind it. -/
theorem erasePercent_of_wordy {cs : List Char} (h : ∀ c ∈ cs, wordy c = true) :
    Lexicon.erasePercent cs = cs ∧ Lexicon.erasePercent (cs ++ ['%']) = cs := by
  have hnop : ∀ c ∈ cs, c ≠ 'p' ∧ c ≠ '%' := by
    intro c hc
    have hw := h c hc
    refine ⟨fun heq => ?_, fun heq => ?_⟩
    · rw [heq] at hw
      exact absurd hw (by decide)
    · rw [heq] at hw
      exact absurd hw (by decide)
  have hpercent (tail : List Char) (htail : 'p' ∉ tail) : replaceAll "percent".toList [] (cs ++ tail) = cs ++ tail := by
    refine replaceAll_of_not_infix fun hoccurs => ?_
    have hp : 'p' ∈ cs ++ tail := hoccurs.subset (by decide)
    rcases List.mem_append.mp hp with hin | hin
    · exact (hnop _ hin).1 rfl
    · exact htail hin
  have hsign : replaceAll ['%'] [] cs = cs :=
    replaceAll_of_not_infix fun hoccurs => (hnop _ (hoccurs.subset List.mem_cons_self)).2 rfl
  unfold Lexicon.erasePercent
  refine ⟨?_, ?_⟩
  · have hkept := hpercent [] List.not_mem_nil
    rw [List.append_nil] at hkept
    rw [hkept, hsign]
  · have hbehind : replaceAll ['%'] [] (cs ++ ['%']) = cs ++ replaceAll ['%'] [] ['%'] := by
      refine replaceAll_skip fun a b hsplit hb hprefix => ?_
      obtain ⟨c, b, rfl⟩ := List.exists_cons_of_ne_nil hb
      have hc : c ∈ cs := by simp [hsplit]
      exact (hnop c hc).2 (List.cons_prefix_cons.mp hprefix).1.symm
    have hmatch := replaceAll_match (List.cons_ne_nil '%' []) [] []
    rw [List.append_nil, replaceAll_nil] at hmatch
    rw [hpercent ['%'] (by decide), hbehind, hmatch, List.append_nil, List.append_nil]

/-! ## The first word -/

namespace SpokenNumber

theorem wordy_of_number {e : String × Nat} (h : e ∈ englishNumbers) :
    e.1.toList ≠ [] ∧ ∀ c ∈ e.1.toList, wordy c = true := by
  have hall : ∀ e ∈ englishNumbers, e.1.toList ≠ [] ∧ e.1.toList.all wordy = true := by decide
  exact ⟨(hall e h).1, List.all_eq_true.mp (hall e h).2⟩

theorem ten_number {e : String × Nat} (h : e ∈ tens) : e ∈ englishNumbers := List.mem_of_mem_drop h

theorem unit_number {e : String × Nat} (h : e ∈ units) : e ∈ englishNumbers :=
  List.mem_of_mem_drop (List.mem_of_mem_take h)

theorem wordy_of_digits (d : Digits) : ∀ c ∈ d.chars, wordy c = true := by
  intro c hc
  have hdigit := d.digits c hc
  have hne : c ≠ 'p' := fun heq => by
    rw [heq] at hdigit
    exact absurd hdigit (by decide)
  simp [wordy, hdigit, hne]

theorem first_wordy (n : SpokenNumber) : n.first ≠ [] ∧ ∀ c ∈ n.first, wordy c = true := by
  cases n with
  | numeral whole fraction => exact ⟨whole.ne, wordy_of_digits whole⟩
  | word e h => exact wordy_of_number h
  | compound ten unit hten hunit hyphen => exact wordy_of_number (ten_number hten)

/-- Behind the first word nothing stands, or a separator and another word. -/
theorem rest_cases (n : SpokenNumber) : n.rest = [] ∨ ∃ s b, n.rest = s :: b ∧ s ∈ [' ', '.', '-'] ∧
    ∀ c ∈ b, wordy c = true := by
  cases n with
  | numeral whole fraction =>
    cases fraction with
    | none => exact .inl rfl
    | some fraction => exact .inr ⟨_, _, rfl, by decide, wordy_of_digits fraction⟩
  | word e h => exact .inl rfl
  | compound ten unit hten hunit hyphen =>
    refine .inr ⟨_, _, rfl, ?_, (wordy_of_number (unit_number hunit)).2⟩
    cases hyphen
    · decide
    · decide

theorem text_plain (n : SpokenNumber) (percent : PercentSign) :
    ∀ c ∈ n.first ++ n.rest ++ percent.chars, plain c = true := by
  intro c hc
  rcases (List.mem_append.mp hc).imp_left List.mem_append.mp with (hfirst | hrest) | hpercent
  · exact plain_of_wordy (n.first_wordy.2 c hfirst)
  · rcases n.rest_cases with hnil | ⟨s, b, hcons, hs, hb⟩
    · rw [hnil] at hrest
      cases hrest
    · rw [hcons] at hrest
      rcases List.mem_cons.mp hrest with rfl | hin
      · have hall : ∀ s ∈ [' ', '.', '-'], plain s = true := List.all_eq_true.mp (by decide)
        exact hall _ hs
      · exact plain_of_wordy (hb c hin)
  · have hall : percent.chars.all plain = true := by cases percent <;> decide
    exact List.all_eq_true.mp hall c hpercent

/-- The first token is the first word, maybe with the percent sign behind it. -/
theorem tokens_text {u : UnicodeTables} (hu : u.Ascii) (n : SpokenNumber) (percent : PercentSign) :
    ∃ front others, tokens (Lexicon.separates u) (n.first ++ n.rest ++ percent.chars) = front :: others ∧
      Lexicon.erasePercent front = n.first := by
  obtain ⟨hne, hwordy⟩ := n.first_wordy
  obtain ⟨hplain, hsigned⟩ := erasePercent_of_wordy hwordy
  have hrun : ∀ c ∈ n.first, Lexicon.separates u c = false := fun c hc => separates_of_wordy hu (hwordy c hc)
  rcases n.rest_cases with hnil | ⟨s, b, hcons, hs, -⟩
  · rw [hnil, List.append_nil]
    cases percent with
    | absent =>
      refine ⟨n.first, [], ?_, hplain⟩
      show tokens (Lexicon.separates u) (n.first ++ []) = _
      rw [List.append_nil, tokens_of_none hne hrun]
    | sign =>
      have hsign : Lexicon.separates u '%' = false := by simp [Lexicon.separates]
      refine ⟨n.first ++ ['%'], [], tokens_of_none (List.append_ne_nil_of_left_ne_nil hne _) fun c hc => ?_, hsigned⟩
      rcases List.mem_append.mp hc with hfirst | hlast
      · exact hrun c hfirst
      · rw [List.mem_singleton.mp hlast, hsign]
    | word =>
      refine ⟨n.first, tokens (Lexicon.separates u) PercentSign.word.chars, ?_, hplain⟩
      refine tokens_run hne hrun fun c hc => ?_
      obtain rfl : ' ' = c := Option.some.inj hc
      exact separates_of_sep hu (by decide)
  · refine ⟨n.first, tokens (Lexicon.separates u) (n.rest ++ percent.chars), ?_, hplain⟩
    rw [List.append_assoc]
    refine tokens_run hne hrun fun c hc => ?_
    rw [hcons] at hc
    obtain rfl : s = c := by simpa using hc
    exact separates_of_sep hu hs

theorem numberOf_word {x : Lexicon} {nearest : Rat → Rat} (h : x.ReadsNumbers nearest) {e : String × Nat}
    (he : e ∈ englishNumbers) : x.numberOf? e.1 = some (nearest e.2) := by
  have hmem : e ∈ numberWords := List.mem_of_mem_take he
  have hlookup : ∀ e ∈ numberWords, numberWords.lookup e.1 = some e.2 ∧ e.2 ≤ 2 ^ 53 := by decide
  obtain ⟨hword, hsmall⟩ := hlookup e hmem
  rw [Lexicon.numberOf?, h.word e hmem, hword, h.small e.2 hsmall]
  rfl

/-- `parse_number` reads the first word. -/
theorem parseNumber_text {x : Lexicon} {nearest : Rat → Rat} (h : x.ReadsNumbers nearest) (n : SpokenNumber)
    (percent : PercentSign) : x.parseNumber (n.text percent) = some (nearest n.firstValue) := by
  have hne := n.first_wordy.1
  have htext : n.text percent ≠ "" := by
    intro hempty
    have hnil : n.first ++ n.rest ++ percent.chars = [] := by
      rw [← String.toList_ofList (l := n.first ++ n.rest ++ percent.chars)]
      exact congrArg String.toList hempty
    exact hne (List.append_eq_nil_iff.mp (List.append_eq_nil_iff.mp hnil).1).1
  obtain ⟨front, others, htokens, herased⟩ := n.tokens_text h.ascii percent
  have hread : x.numberOf? (String.ofList n.first) = some (nearest n.firstValue) := by
    cases n with
    | numeral whole fraction =>
      show (x.float? whole.text).or _ = _
      rw [h.numeral]
      rfl
    | word e he =>
      rw [first, String.ofList_toList]
      exact numberOf_word h he
    | compound ten unit hten hunit hyphen =>
      rw [first, String.ofList_toList]
      exact numberOf_word h (ten_number hten)
  rw [Lexicon.parseNumber_eq h.ascii htext, text, folded_of_plain h.ascii (n.text_plain percent), htokens,
    List.map_cons, herased, List.filter_cons_of_pos (by simpa using hne), List.map_cons, List.findSome?_cons, hread]

end SpokenNumber

/-- The ASCII tables, and a `float()` that is exact on digits. -/
def decimalLexicon : Lexicon where
  tables := asciiTables
  isDigit := Char.isDigit
  float? token :=
    if token.toList ≠ [] ∧ token.toList.all Char.isDigit then some (Nat.ofDigitChars 10 token.toList 0) else none

theorem decimalLexicon_readsNumbers : decimalLexicon.ReadsNumbers id where
  ascii := asciiTables_ascii
  numeral d := by
    have hdigits : d.text.toList ≠ [] ∧ d.text.toList.all Char.isDigit = true := by
      rw [Digits.text, String.toList_ofList]
      exact ⟨d.ne, List.all_eq_true.mpr d.digits⟩
    refine (if_pos hdigits).trans ?_
    rw [Digits.text, String.toList_ofList]
    rfl
  word := by decide
  small _ _ := rfl

def eighty : SpokenNumber := .word ("eighty", 80) (by decide)

/-- "2.5" is read as two. -/
def twoAndAHalf : SpokenNumber :=
  .numeral ⟨['2'], List.cons_ne_nil _ _, List.forall_mem_singleton.mpr rfl⟩
    (some ⟨['5'], List.cons_ne_nil _ _, List.forall_mem_singleton.mpr rfl⟩)

end TwinVoice.Nlu
