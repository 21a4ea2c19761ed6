import Mathlib.Data.Bool.AllAny
import TwinVoice.Lib.Tokens
import TwinVoice.Nlu.Slots

/-! # The words of a text

Normalisation puts spaces where the punctuation was, squeezes and trims. What
is left for `split()` are the runs of word characters and percent signs of the
folded text, and erasing a word is erasing it in each of them. -/

namespace TwinVoice.Nlu

open TwinVoice.Lib

/-! ## Squeezing -/

theorem subRuns_run {p : Char → Bool} {a : List Char} (h : ∀ c ∈ a, p c = false) (hne : a ≠ []) (inRun : Bool)
    (rest : List Char) : subRuns p inRun (a ++ rest) = a ++ subRuns p false rest := by
  induction a generalizing inRun with
  | nil => exact absurd rfl hne
  | cons c a ih =>
    obtain ⟨hc, ha⟩ := List.forall_mem_cons.mp h
    rw [List.cons_append, subRuns, if_neg (by simp [hc]), List.cons_append]
    cases a with
    | nil => rfl
    | cons d a => rw [ih ha (List.cons_ne_nil d a) false]

theorem head?_subRuns (p : Char → Bool) (cs : List Char) :
    ∀ s ∈ (subRuns p false cs).head?, s = ' ' ∨ s ∈ cs.head? ∧ p s = false := by
  cases cs with
  | nil => simp [subRuns]
  | cons c cs =>
    intro s hs
    rw [subRuns] at hs
    split at hs
    · exact .inl (by simpa using hs.symm)
    · rename_i hc
      obtain rfl : c = s := by simpa using hs
      exact .inr ⟨rfl, by simpa using hc⟩

theorem mem_subRuns {p : Char → Bool} {inRun : Bool} {cs : List Char} {c : Char} (h : c ∈ subRuns p inRun cs) :
    c = ' ' ∨ c ∈ cs ∧ p c = false := by
  fun_induction subRuns p inRun cs with
  | case1 => cases h
  | case2 d cs hd ih => exact (ih h).imp_right (And.imp_left (List.mem_cons_of_mem d))
  | case3 inRun d cs hd hrun ih =>
    rcases List.mem_cons.mp h with rfl | h
    · exact .inl rfl
    · exact (ih h).imp_right (And.imp_left (List.mem_cons_of_mem d))
  | case4 inRun d cs hd ih =>
    rcases List.mem_cons.mp h with rfl | h
    · exact .inr ⟨List.mem_cons_self, by simpa using hd⟩
    · exact (ih h).imp_right (And.imp_left (List.mem_cons_of_mem d))

/-- Spaces in the place of separators separate the same tokens. -/
theorem tokens_subRuns {p q r : Char → Bool} (hr : ∀ c, r c = (p c || q c)) (hspace : q ' ' = true) (inRun : Bool)
    (cs : List Char) : tokens q (subRuns p inRun cs) = tokens r cs := by
  induction cs using run_induction r generalizing inRun with
  | nil => rfl
  | sep c cs hc ih =>
    rw [tokens_sep hc]
    cases hp : p c with
    | true =>
      rw [subRuns, if_pos hp]
      cases inRun with
      | true => exact ih true
      | false => exact (tokens_sep hspace _).trans (ih true)
    | false =>
      rw [hr, hp, Bool.false_or] at hc
      rw [subRuns, if_neg (by simp [hp]), tokens_sep hc]
      exact ih false
  | run a rest hne hrun hrest ih =>
    have hneither : ∀ d ∈ a, p d = false ∧ q d = false := fun d hd =>
      Bool.or_eq_false_iff.mp ((hr d).symm.trans (hrun d hd))
    have hends : ∀ s ∈ (subRuns p false rest).head?, q s = true := by
      intro s hs
      rcases head?_subRuns p rest s hs with rfl | ⟨hhead, hp⟩
      · exact hspace
      · rw [← hrest s hhead, hr, hp, Bool.false_or]
    rw [tokens_run hne hrun hrest, subRuns_run (fun d hd => (hneither d hd).1) hne,
      tokens_run hne (fun d hd => (hneither d hd).2) hends, ih false]

/-! ## What the tables say of ASCII -/

/-- The word characters among the ASCII ones. -/
def asciiWord (c : Char) : Bool := c.isAlphanum || c = '_'

/-- From the space to the tilde. -/
def printable (c : Char) : Bool := 32 ≤ c.toNat && c.toNat ≤ 126

/-- The tables on printable ASCII characters, and that no space is a word character. -/
structure UnicodeTables.Ascii (u : UnicodeTables) : Prop where
  nfkc : ∀ s : String, (∀ c ∈ s.toList, printable c = true) → u.nfkc s = s
  lower : ∀ s : String, (∀ c ∈ s.toList, printable c = true) → u.lower s = String.ofList (s.toList.map Char.toLower)
  isWord : ∀ c, printable c = true → u.isWord c = (c.isAlphanum || c = '_')
  isSpace : ∀ c, printable c = true → u.isSpace c = decide (c = ' ')
  disjoint : ∀ c, u.isSpace c = true → u.isWord c = false

/-- The three classes of letters by their codes. -/
theorem isUpper_def (c : Char) : c.isUpper = decide (c.val ≥ 'A'.val ∧ c.val ≤ 'Z'.val) := rfl

theorem isLower_def (c : Char) : c.isLower = (decide (c.val ≥ 'a'.val) && decide (c.val ≤ 'z'.val)) := rfl

theorem isAlpha_def (c : Char) : c.isAlpha = (c.isUpper || c.isLower) := rfl

theorem digit_bounds {c : Char} (h : c.isDigit = true) : 48 ≤ c.toNat ∧ c.toNat ≤ 57 := by
  simpa [Char.isDigit, UInt32.le_iff_toNat_le] using h

theorem lower_bounds {c : Char} (h : c.isLower = true) : 97 ≤ c.toNat ∧ c.toNat ≤ 122 := by
  simpa [isLower_def, UInt32.le_iff_toNat_le] using h

theorem upper_bounds {c : Char} (h : c.isUpper = true) : 65 ≤ c.toNat ∧ c.toNat ≤ 90 := by
  simpa [isUpper_def, UInt32.le_iff_toNat_le] using h

theorem toNat_toLower {c : Char} (h : c.isUpper = true) : c.toLower.toNat = c.toNat + 32 := by
  have hbounds := upper_bounds h
  have hupper : c.val ≥ 'A'.val ∧ c.val ≤ 'Z'.val := by simpa [isUpper_def] using h
  unfold Char.toLower
  rw [dif_pos hupper]
  show (c.val + ('a'.val - 'A'.val)).toNat = c.val.toNat + 32
  rw [UInt32.toNat_add]
  exact Nat.mod_eq_of_lt (by show c.toNat + 32 < 2 ^ 32; omega)

theorem toLower_of_not_upper {c : Char} (h : c.isUpper = false) : c.toLower = c :=
  dif_neg (by simpa [isUpper_def] using h)

theorem toLower_of_bounds {c : Char} (h : c.toNat < 65 ∨ 90 < c.toNat) : c.toLower = c := by
  refine toLower_of_not_upper (Bool.eq_false_iff.mpr fun hupper => ?_)
  have := upper_bounds hupper
  omega

theorem alpha_facts {c : Char} (h : c.isAlpha = true) :
    asciiWord c = true ∧ c.isDigit = false ∧ printable c = true := by
  have hbounds : (65 ≤ c.toNat ∧ c.toNat ≤ 90) ∨ (97 ≤ c.toNat ∧ c.toNat ≤ 122) := by
    simpa [isAlpha_def, isUpper_def, isLower_def, UInt32.le_iff_toNat_le] using h
  refine ⟨by simp [asciiWord, Char.isAlphanum, h], ?_, ?_⟩
  · by_contra hdigit
    have := digit_bounds (Bool.not_eq_false _ ▸ hdigit)
    omega
  · simp only [printable, Bool.and_eq_true, decide_eq_true_eq]
    omega

theorem isLower_toLower {c : Char} (h : c.isUpper = true) : c.toLower.isLower = true := by
  have hupper := upper_bounds h
  have hlower : 97 ≤ c.toLower.toNat ∧ c.toLower.toNat ≤ 122 := by
    rw [toNat_toLower h]
    omega
  simpa [isLower_def, UInt32.le_iff_toNat_le] using hlower

/-- Lowering a letter leaves a letter, and nothing else changes. -/
theorem toLower_facts (c : Char) : asciiWord c.toLower = asciiWord c ∧ c.toLower.isDigit = c.isDigit ∧
    (printable c = true → printable c.toLower = true) ∧ ∀ d, d.isAlpha = false → (c.toLower = d ↔ c = d) := by
  cases hupper : c.isUpper with
  | false =>
    rw [toLower_of_not_upper hupper]
    exact ⟨rfl, rfl, id, fun _ _ => Iff.rfl⟩
  | true =>
    have hc : c.isAlpha = true := by simp [isAlpha_def, hupper]
    have hlower : c.toLower.isAlpha = true := by simp [isAlpha_def, isLower_toLower hupper]
    obtain ⟨hword, hdigit, -⟩ := alpha_facts hc
    obtain ⟨hword', hdigit', hprintable⟩ := alpha_facts hlower
    refine ⟨hword'.trans hword.symm, hdigit'.trans hdigit.symm, fun _ => hprintable, fun d hd => ?_⟩
    refine iff_of_false ?_ ?_ <;> (rintro rfl; simp_all)

theorem whitespace_cases {c : Char} (h : c.isWhitespace = true) : c ∈ [' ', '\t', '\r', '\n'] := by
  simpa [Char.isWhitespace, or_assoc] using h

theorem asciiTables_ascii : asciiTables.Ascii where
  nfkc _ _ := rfl
  lower _ _ := rfl
  isWord _ _ := rfl
  isSpace c hc := by
    have honly : ∀ d ∈ [' ', '\t', '\r', '\n'], printable d = true → d = ' ' :=
      List.all_iff_forall_prop.mp (by decide)
    by_cases hspace : c = ' '
    · rw [hspace]
      rfl
    · rw [decide_eq_false hspace]
      by_contra hwhite
      exact hspace (honly c (whitespace_cases (Bool.not_eq_false _ ▸ hwhite)) hc)
  disjoint c hc := by
    have hall : ∀ d ∈ [' ', '\t', '\r', '\n'], asciiTables.isWord d = false :=
      List.all_iff_forall_prop.mp (by decide)
    exact hall c (whitespace_cases hc)

namespace Lexicon

variable {x : Lexicon}

/-- What lies between two words. -/
def separates (u : UnicodeTables) (c : Char) : Bool := !(u.isWord c || c = '%')

/-- The text before the punctuation goes. -/
def folded (u : UnicodeTables) (text : String) : List Char := (u.lower (u.nfkc text)).toList.filter (· ∉ apostrophes)

theorem tokens_normalise (h : x.tables.Ascii) (text : String) :
    tokens x.tables.isSpace (normalise x.tables text).toList = tokens (separates x.tables) (folded x.tables text) := by
  have hspace : x.tables.isSpace ' ' = true := h.isSpace ' ' (by decide)
  have hpercent : x.tables.isSpace '%' = false := h.isSpace '%' (by decide)
  have hseparates (c : Char) : separates x.tables c =
      (!(x.tables.isWord c || c = '%' || x.tables.isSpace c) || x.tables.isSpace c) := by
    unfold separates
    cases hc : x.tables.isSpace c with
    | false => simp
    | true =>
      have hne : c ≠ '%' := fun heq => by simp [heq, hpercent] at hc
      simp [h.disjoint c hc, hne]
  unfold normalise
  dsimp only
  rw [String.toList_ofList, strip, tokens_dropWhile_reverse, tokens_dropWhile,
    tokens_subRuns (fun c => (Bool.or_self _).symm) hspace, tokens_subRuns hseparates hspace]
  rfl

/-- The words of a text are the runs of word characters and percent signs. -/
theorem words_eq (h : x.tables.Ascii) (text : String) :
    x.words text = (tokens (separates x.tables) (folded x.tables text)).map String.ofList := by
  rw [← tokens_normalise h]
  rfl

/-- What a word leaves when "percent" and the percent sign are erased in it. -/
def erasePercent (word : List Char) : List Char := replaceAll ['%'] [] (replaceAll "percent".toList [] word)

/-- Dropping the empty words once is enough. -/
theorem filter_map_filter_map {f g : List Char → List Char} (hg : g [] = []) (words : List (List Char)) :
    (((words.map f).filter (· ≠ [])).map g).filter (· ≠ []) = (words.map fun w => g (f w)).filter (· ≠ []) := by
  induction words with
  | nil => rfl
  | cons w words ih =>
    rw [List.map_cons, List.map_cons, List.filter_cons, List.filter_cons]
    by_cases hw : f w = []
    · simp only [hw, hg, ne_eq, not_true_eq_false, decide_false, Bool.false_eq_true, if_false, ih]
    · simp only [hw, ne_eq, not_false_eq_true, decide_true, if_true, List.map_cons, List.filter_cons, ih]

/-- `float()` and the number words, on one token. -/
def numberOf? (x : Lexicon) (token : String) : Option Rat :=
  (x.float? token).or ((numberWords.lookup token).map Nat.cast)

/-- The number of a text is that of the first word to be one. -/
theorem parseNumber_eq (h : x.tables.Ascii) {text : String} (hne : text ≠ "") :
    x.parseNumber text = ((((tokens (separates x.tables) (folded x.tables text)).map erasePercent).filter (· ≠ [])).map
      String.ofList).findSome? x.numberOf? := by
  have hletters : ∀ c ∈ "percent".toList, x.tables.isSpace c = false := by
    have hall : ∀ c ∈ "percent".toList, printable c = true ∧ decide (c = ' ') = false :=
      List.all_iff_forall_prop.mp (by decide)
    exact fun c hc => (h.isSpace c (hall c hc).1).trans (hall c hc).2
  have hsign : ∀ c ∈ ['%'], x.tables.isSpace c = false := by
    have hall : ∀ c ∈ ['%'], printable c = true ∧ decide (c = ' ') = false :=
      List.all_iff_forall_prop.mp (by decide)
    exact fun c hc => (h.isSpace c (hall c hc).1).trans (hall c hc).2
  have hcleaned : tokens x.tables.isSpace (((normalise x.tables text).replace "percent" "").replace "%" "").toList =
      ((tokens (separates x.tables) (folded x.tables text)).map erasePercent).filter (· ≠ []) := by
    rw [toList_replace _ "" (by decide), toList_replace _ "" (by decide)]
    show tokens x.tables.isSpace
      (replaceAll ['%'] [] (replaceAll "percent".toList [] (normalise x.tables text).toList)) = _
    rw [tokens_erase (by decide) hsign, tokens_erase (by decide) hletters, tokens_normalise h]
    exact filter_map_filter_map (replaceAll_nil _ _) _
  unfold parseNumber
  rw [if_neg hne]
  dsimp only
  rw [← hcleaned]
  rfl

end Lexicon

end TwinVoice.Nlu
