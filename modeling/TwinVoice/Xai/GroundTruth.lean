import TwinVoice.Lib.Replace
import TwinVoice.Lib.Traversal
import TwinVoice.Xai.ComposedText

/-! # The template text in its own audit

The numbers, the feature labels and the imperatives that the audit finds in
the `why` text are those of the parts printed into it: no occurrence goes over
the edge of a part or lies in the fixed text. -/

namespace TwinVoice.Xai

open TwinVoice.Lib TwinVoice.Nlu

variable {x : Texts}

/-! ## The sentence -/

def shownValue (a : Attribution) : String := (a.value.roundTo 3).number.generalText

def shownShare (a : Attribution) : String := (a.share.mul (Floating.ofRat _ 100)).number.wholeText

def shownUnit (unit : String) : String := if unit ≠ "" then " " ++ unit else ""

/-- From the comma after the value to the share. -/
def estimate (direction : Direction) : String := ", " ++ direction.word ++ " the estimate and accounting for "

def nextAre (others : List String) : String :=
  if String.intercalate ", " others ≠ "" then " Next are " ++ (String.intercalate ", " others ++ ".") else ""

/-- The `why` text, by its parts. -/
def sentence (top : Attribution) (others : List String) : String :=
  "The main driver is" ++ (" " ++ (top.label ++ (" at " ++ (shownValue top ++
    ((shownUnit top.unit ++ estimate top.direction) ++ (shownShare top ++ ("% of it." ++ nextAre others)))))))

theorem strip_of_ends {p : Char → Bool} {a b : Char} (ha : p a = false) (hb : p b = false) (cs : List Char) :
    strip p (a :: (cs ++ [b])) = a :: (cs ++ [b]) := by
  have hreverse : (a :: (cs ++ [b])).reverse = b :: (cs.reverse ++ [a]) := by simp
  unfold strip
  rw [List.dropWhile_cons_of_neg (by simp [ha]), hreverse, List.dropWhile_cons_of_neg (by simp [hb]), ← hreverse,
    List.reverse_reverse]

theorem sentence_ends (top : Attribution) (others : List String) :
    ∃ middle, sentence top others = "T" ++ (middle ++ ".") := by
  have hfront : "The main driver is" = "T" ++ "he main driver is" := by decide
  have hback : "% of it." = "% of it" ++ "." := by decide
  have hend : ∃ t, "% of it." ++ nextAre others = t ++ "." := by
    unfold nextAre
    split
    · exact ⟨"% of it." ++ (" Next are " ++ String.intercalate ", " others), by simp only [String.append_assoc]⟩
    · exact ⟨"% of it", by rw [String.append_empty, hback]⟩
  obtain ⟨t, ht⟩ := hend
  refine ⟨"he main driver is" ++ (" " ++ (top.label ++ (" at " ++ (shownValue top ++
    ((shownUnit top.unit ++ estimate top.direction) ++ (shownShare top ++ t)))))), ?_⟩
  unfold sentence
  rw [ht, hfront]
  simp only [String.append_assoc]

/-- What `why_context` makes of the first attribution and the labels of the others. -/
def contextOf (top : Attribution) (others : List String) : WhyContext where
  topLabel := top.label
  topValue := top.value.roundTo 3
  topUnit := shownUnit top.unit
  topDirection := top.direction.word
  topShare := top.share.mul (Floating.ofRat _ 100)
  others := String.intercalate ", " others

theorem whyContext_cons (top : Attribution) (rest : List Attribution) :
    whyContext (top :: rest) 3 = .ok (contextOf top ((rest.take 2).map Attribution.label)) := rfl

theorem template_contextOf (top : Attribution) (others : List String) :
    (if (contextOf top others).others ≠ "" then whyOthers (contextOf top others)
      else whySingle (contextOf top others)) = sentence top others := by
  have hfront : "The main driver is " = "The main driver is" ++ " " := by decide
  have hsingle : whySingle (contextOf top others) ++ nextAre others = sentence top others := by
    unfold sentence whySingle estimate
    rw [hfront]
    simp only [String.append_assoc]
    rfl
  rw [← hsingle]
  unfold nextAre whyOthers
  have hothers : (contextOf top others).others = String.intercalate ", " others := rfl
  rw [hothers]
  split
  · simp only [String.append_assoc]
  · rw [String.append_empty]

theorem why_cons (h : x.Plain) (top : Attribution) (rest : List Attribution) :
    why x (top :: rest) = .ok (sentence top ((rest.take 2).map Attribution.label)) := by
  have hspace : ∀ c : Char, printable c = true → c ≠ ' ' → x.tables.isSpace c = false := fun c hc hne => by
    rw [h.ascii.isSpace c hc, decide_eq_false hne]
  obtain ⟨middle, hmiddle⟩ := sentence_ends top ((rest.take 2).map Attribution.label)
  have hlist : (sentence top ((rest.take 2).map Attribution.label)).toList = 'T' :: (middle.toList ++ ['.']) := by
    rw [hmiddle, String.toList_append, String.toList_append]
    rfl
  have hstrip := strip_of_ends (hspace 'T' (by decide) (by decide)) (hspace '.' (by decide) (by decide)) middle.toList
  have hwhy : why x (top :: rest) = .ok (String.ofList (strip x.tables.isSpace
      (if (contextOf top ((rest.take 2).map Attribution.label)).others ≠ "" then
        whyOthers (contextOf top ((rest.take 2).map Attribution.label))
      else whySingle (contextOf top ((rest.take 2).map Attribution.label))).toList)) := by
    rw [why, whyContext_cons]
    rfl
  rw [hwhy, template_contextOf, hlist, hstrip, ← hlist, String.ofList_toList]

/-! ## Its numbers -/

/-- The units of the table, and that of a feature that is not in it. -/
def units : List String := "" :: FeatureLabels.shipped.features.map fun e => e.2.unit

theorem Texts.Plain.silent_shownUnit (h : x.Plain) {unit : String} (hunit : unit ∈ units) :
    x.Silent (shownUnit unit) := by
  have hascii : ∀ u ∈ units, u ≠ "°C" → (shownUnit u).toList.all Texts.templateChar = true := by decide
  by_cases hdegree : unit = "°C"
  · intro c hc
    have hchars : ∀ d ∈ (shownUnit "°C").toList, d = '°' ∨ Texts.templateChar d = true :=
      List.all_iff_forall_prop.mp (by decide)
    rw [hdegree] at hc
    rcases hchars c hc with rfl | hchar
    · exact ⟨h.degree.2, by decide⟩
    · have hone : x.Silent (String.singleton c) := h.silent (by simpa using hchar)
      exact hone c (by simp)
  · exact h.silent (hascii unit hunit hdegree)

theorem Texts.Plain.silent_estimate (h : x.Plain) (direction : Direction) : x.Silent (estimate direction) := by
  cases direction with
  | raising => exact h.silent (by decide)
  | lowering => exact h.silent (by decide)
  | neutral => exact h.silent (by decide)

theorem numbersIn_intercalate (h : x.Plain) (parts : List String) :
    x.numbersIn (String.intercalate ", " parts) = parts.flatMap x.numbersIn := by
  have hcomma : x.Silent ", " := h.silent (by decide)
  induction parts with
  | nil => rfl
  | cons p parts ih =>
    cases parts with
    | nil => simp
    | cons q parts =>
      rw [String.intercalate_cons_cons, String.append_assoc, Texts.numbersIn_append (hcomma.closed (by decide) _),
        hcomma.numbersIn_append, ih, ← List.flatMap_cons]

theorem numbersIn_nextAre (h : x.Plain) (others : List String) :
    x.numbersIn (nextAre others) = others.flatMap x.numbersIn := by
  have hstop : Closed x.isDigit ".".toList := by
    intro c hc
    obtain rfl : '.' = c := Option.some_inj.mp hc
    exact ⟨(h.digits '.' (by decide)).trans (by decide), fun _ => rfl⟩
  have hend : x.numbersIn "." = [] := (h.silent (by decide)).numbersIn
  rw [← numbersIn_intercalate h]
  unfold nextAre
  split
  · rw [(h.silent (by decide)).numbersIn_append, Texts.numbersIn_append hstop, hend, List.append_nil]
  · rename_i hempty
    rw [not_not.mp hempty]

/-- The numbers of the text are those printed into it. -/
theorem numbersIn_sentence (h : x.Plain) {top : Attribution} (hunit : top.unit ∈ units) (others : List String) :
    x.numbersIn (sentence top others) = x.numbersIn top.label ++ (x.numbersIn (shownValue top) ++
      (x.numbersIn (shownShare top) ++ others.flatMap x.numbersIn)) := by
  have hat : x.Silent " at " := h.silent (by decide)
  have hestimate : x.Silent (shownUnit top.unit ++ estimate top.direction) :=
    (h.silent_shownUnit hunit).append (h.silent_estimate _)
  have hlong : 2 ≤ (shownUnit top.unit ++ estimate top.direction).toList.length := by
    have : 2 ≤ (estimate top.direction).toList.length := by
      cases top.direction <;> decide
    rw [String.toList_append, List.length_append]
    omega
  have hof : x.Silent "% of it." := h.silent (by decide)
  unfold sentence
  rw [(h.silent (by decide)).numbersIn_append, (h.silent (by decide)).numbersIn_append,
    Texts.numbersIn_append (hat.closed (by decide) _), hat.numbersIn_append,
    Texts.numbersIn_append (hestimate.closed hlong _), hestimate.numbersIn_append,
    Texts.numbersIn_append (hof.closed (by decide) _), hof.numbersIn_append, numbersIn_nextAre h]

/-! ## Its lowercase -/

def loweredUnit (x : Texts) (unit : String) : String := if unit ≠ "" then " " ++ x.lower unit else ""

def loweredNext (x : Texts) (others : List String) : String :=
  if String.intercalate ", " others ≠ "" then
    " next are " ++ (String.intercalate ", " (others.map x.lower) ++ ".")
  else ""

def loweredSentence (x : Texts) (top : Attribution) (others : List String) : String :=
  "the main driver is " ++ (x.lower top.label ++ (" at " ++ ((shownValue top ++ loweredUnit x top.unit) ++
    (estimate top.direction ++ (shownShare top ++ ("% of it." ++ loweredNext x others))))))

theorem lower_shownValue (h : x.Plain) (a : Attribution) : x.lower (shownValue a) = shownValue a :=
  h.lower_self fun c hc => lowerChar_of_textual (Number.textual_generalText _ c hc)

theorem breaks_estimate (h : x.Plain) (direction : Direction) :
    Texts.Breaks x (estimate direction) (estimate direction) := by
  have hwords : x.lower (direction.word ++ " the estimate and accounting for") =
      direction.word ++ " the estimate and accounting for" := by
    refine h.lower_self (List.all_eq_true.mp ?_)
    cases direction <;> decide
  have hbetween := h.breaks_comma.between h.breaks_space (direction.word ++ " the estimate and accounting for")
  have hspace : " the estimate and accounting for " = " the estimate and accounting for" ++ " " := by decide
  have hestimate : estimate direction = ", " ++ (direction.word ++ " the estimate and accounting for") ++ " " := by
    unfold estimate
    rw [hspace]
    simp only [String.append_assoc]
  rw [hwords, ← hestimate] at hbetween
  exact hbetween

theorem breaks_unit (h : x.Plain) (unit : String) (direction : Direction) :
    Texts.Breaks x (shownUnit unit ++ estimate direction) (loweredUnit x unit ++ estimate direction) := by
  unfold shownUnit loweredUnit
  split
  · exact h.breaks_space.between (breaks_estimate h direction) unit
  · rw [String.empty_append]
    exact breaks_estimate h direction

theorem lower_end (h : x.Plain) (a : Attribution) (others : List String) :
    x.lower (shownShare a ++ ("% of it." ++ nextAre others)) =
      shownShare a ++ ("% of it." ++ loweredNext x others) := by
  have hshare : x.lower (shownShare a ++ "% of it.") = shownShare a ++ "% of it." := by
    refine h.lower_self fun c hc => ?_
    rw [String.toList_append] at hc
    rcases List.mem_append.mp hc with hc | hc
    · exact lowerChar_of_textual (Number.textual_wholeText _ c hc)
    · exact List.all_eq_true.mp (by decide) c hc
  have hnext : Texts.Breaks x " Next are " " next are " := by
    have hlower : x.lower "Next are" = "next are" := (h.lower_ascii (by decide)).trans (by decide)
    have hbetween := h.breaks_space.between h.breaks_space "Next are"
    rw [hlower] at hbetween
    exact hbetween
  unfold nextAre loweredNext
  split
  · rw [← String.append_assoc, hnext, hshare, h.stop, h.lower_intercalate, String.append_assoc]
  · rw [String.append_empty, hshare]

theorem lower_sentence (h : x.Plain) (top : Attribution) (others : List String) :
    x.lower (sentence top others) = loweredSentence x top others := by
  have hfront : x.lower "The main driver is" = "the main driver is" := (h.lower_ascii (by decide)).trans (by decide)
  have hat : Texts.Breaks x " at " " at " := by
    have hlower : x.lower "at" = "at" := (h.lower_ascii (by decide)).trans (by decide)
    have hbetween := h.breaks_space.between h.breaks_space "at"
    rw [hlower] at hbetween
    exact hbetween
  have hspace : "the main driver is " = "the main driver is" ++ " " := by decide
  unfold sentence loweredSentence
  rw [h.breaks_space, hfront, hat, breaks_unit h, lower_shownValue h, lower_end h, hspace]
  simp only [String.append_assoc]

/-! ## Its words -/

/-- The labels of the table in lower case. -/
def spokenLabels : List String :=
  FeatureLabels.shipped.features.map fun e => String.ofList ((e.2.label.getD "").toList.map Char.toLower)

theorem vocabulary_eq (h : x.Plain) : FeatureLabels.shipped.vocabulary x = spokenLabels := by
  have hentries : ∀ e ∈ FeatureLabels.shipped.features, FeatureLabels.shipped.features.get? e.1 = some e.2 ∧
      e.2.label ≠ none ∧ (e.2.label.getD "").toList.all printable = true := by decide
  refine List.map_congr_left fun e he => ?_
  obtain ⟨hget, hlabel, hprintable⟩ := hentries e he
  obtain ⟨label, hlabel⟩ := Option.ne_none_iff_exists'.mp hlabel
  have hshown : (FeatureLabels.shipped.get x e.1).label = e.2.label.getD "" := by
    simp [FeatureLabels.get, FeatureLabels.splitSuffix, hget, hlabel]
  show x.lower (FeatureLabels.shipped.get x e.1).label = _
  rw [hshown]
  exact h.lower_ascii hprintable

/-- The fixed texts after the parts; the first label keeps the space after it. -/
def fixedTexts : List String := ["at ", ", raising", ", lowering", ", not moving", "% of it.", ", ", "."]

/-- Those that come after others. -/
def openingTexts : List String := ["the main driver is ", " the estimate and accounting for ", " next are "]

theorem apart_templateTexts : ∀ w ∈ (spokenLabels ++ imperatives).map String.toList,
    (∀ f ∈ fixedTexts.map String.toList, Apart w f) ∧ ∀ f ∈ openingTexts.map String.toList, NoneBegins w f := by
  -- The letters are written out, for the strings are slow to take apart.
  simp only [spokenLabels, FeatureLabels.shipped, imperatives, fixedTexts, openingTexts, List.map_cons, List.map_nil,
    List.cons_append, List.nil_append, Option.getD_some, String.toList_ofList, String.reduceToList,
    Char.reduceToLower]
  decide +kernel

/-- The characters of a number and of a unit after it. -/
def measured (unit : List Char) (c : Char) : Bool :=
  Number.textual c || c = ' ' || (unit.map Char.toLower).contains c

theorem not_measured {word unit : String} (hword : word ∈ spokenLabels ++ imperatives) (hunit : unit ∈ units) :
    ∃ c ∈ word.toList, measured unit.toList c = false := by
  have hall : ∀ w ∈ (spokenLabels ++ imperatives).map String.toList, ∀ u ∈ units.map String.toList,
      w.any (fun c => !measured u c) = true := by
    simp only [spokenLabels, FeatureLabels.shipped, imperatives, units, List.map_cons, List.map_nil,
      List.cons_append, List.nil_append, Option.getD_some, String.toList_ofList, String.reduceToList,
      Char.reduceToLower]
    decide +kernel
  obtain ⟨c, hc, hmeasured⟩ :=
    List.any_eq_true.mp (hall _ (List.mem_map_of_mem hword) _ (List.mem_map_of_mem hunit))
  exact ⟨c, hc, Bool.not_eq_true' _ |>.mp hmeasured⟩

theorem measured_value (h : x.Plain) (a : Attribution) (hunit : a.unit ∈ units) :
    ∀ c ∈ (shownValue a ++ loweredUnit x a.unit).toList, measured a.unit.toList c = true := by
  have hlower : x.lower a.unit = String.ofList (a.unit.toList.map Char.toLower) := by
    have hascii : ∀ u ∈ units, u ≠ "°C" → u.toList.all printable = true := by decide
    by_cases hdegree : a.unit = "°C"
    · rw [hdegree, h.degree.1]
      decide
    · exact h.lower_ascii (hascii _ hunit hdegree)
  intro c hc
  unfold measured
  rw [String.toList_append] at hc
  rcases List.mem_append.mp hc with hc | hc
  · simp [Number.textual_generalText _ c hc]
  · unfold loweredUnit at hc
    split at hc
    · rw [hlower, String.toList_append, String.toList_ofList] at hc
      rcases List.mem_append.mp hc with hc | hc
      · simp [List.mem_singleton.mp hc]
      · rw [String.toList_ofList] at hc
        rw [List.contains_iff_mem.mpr hc, Bool.or_true]
    · exact absurd hc List.not_mem_nil

/-- A word lies in the text exactly if it lies in a label, the first one with the space after it. -/
theorem within_sentence_iff (h : x.Plain) {word : String} (hword : word ∈ spokenLabels ++ imperatives)
    {top : Attribution} (hunit : top.unit ∈ units) (others : List String) :
    Within word (x.lower (sentence top others)) ↔
      Within word (x.lower top.label ++ " ") ∨ ∃ l ∈ others, Within word (x.lower l) := by
  have hfixed : ∀ fixed ∈ fixedTexts, Apart word.toList fixed.toList := fun fixed hin =>
    (apart_templateTexts _ (List.mem_map_of_mem hword)).1 _ (List.mem_map_of_mem hin)
  have hopening : ∀ fixed ∈ openingTexts, NoneBegins word.toList fixed.toList := fun fixed hin =>
    (apart_templateTexts _ (List.mem_map_of_mem hword)).2 _ (List.mem_map_of_mem hin)
  have hcomma := hfixed ", " (by simp [fixedTexts])
  have hdirection : Apart word.toList (", " ++ top.direction.word).toList := by
    cases top.direction with
    | raising => exact hfixed ", raising" (by simp [fixedTexts])
    | lowering => exact hfixed ", lowering" (by simp [fixedTexts])
    | neutral => exact hfixed ", not moving" (by simp [fixedTexts])
  have hestimate (a b : List Char) : word.toList <:+: a ++ ((estimate top.direction).toList ++ b) ↔
      word.toList <:+: a ∨ word.toList <:+: b := by
    unfold estimate
    rw [String.toList_append, List.append_assoc, hdirection.infix_iff,
      (hopening " the estimate and accounting for " (by simp [openingTexts])).infix_append_iff]
  have hvalue : ¬ word.toList <:+: (shownValue top ++ loweredUnit x top.unit).toList :=
    not_infix_of_forall (not_measured hword hunit) (measured_value h top hunit)
  have hshare : ¬ word.toList <:+: (shownShare top).toList := by
    refine not_infix_of_forall (not_measured hword hunit) fun c hc => ?_
    unfold measured
    simp [Number.textual_wholeText _ c hc]
  have hnext : word.toList <:+: (shownShare top ++ ("% of it." ++ loweredNext x others)).toList ↔
      ∃ l ∈ others, Within word (x.lower l) := by
    have hjoined : word.toList <:+: (x.lower (String.intercalate ", " others)).toList ↔
        ∃ l ∈ others, Within word (x.lower l) := by
      rw [h.lower_intercalate, String.toList_intercalate, hcomma.infix_intercalate_iff]
      simp [Within]
    rw [← hjoined]
    unfold loweredNext
    split
    · rw [← h.lower_intercalate]
      simp only [String.toList_append]
      rw [(hfixed "% of it." (by simp [fixedTexts])).infix_iff,
        (hopening " next are " (by simp [openingTexts])).infix_append_iff,
        (hfixed "." (by simp [fixedTexts])).append_infix_iff, or_iff_right hshare]
    · rename_i hempty
      have hlower : x.lower (String.intercalate ", " others) = "" := by
        rw [not_not.mp hempty, h.lower_empty]
      rw [hlower, String.append_empty, String.toList_append,
        (hfixed "% of it." (by simp [fixedTexts])).append_infix_iff]
      exact iff_of_false hshare fun hin => hcomma.1.ne_nil (List.infix_nil.mp hin)
  have hat : " at " = " " ++ "at " := by decide
  rw [lower_sentence h, ← hnext]
  unfold Within loweredSentence
  rw [hat]
  simp only [String.toList_append, List.append_assoc] at hvalue ⊢
  rw [(hopening "the main driver is " (by simp [openingTexts])).infix_append_iff, ← List.append_assoc _ " ".toList,
    (hfixed "at " (by simp [fixedTexts])).infix_iff, ← List.append_assoc _ (loweredUnit x top.unit).toList,
    hestimate, or_iff_right hvalue]

theorem within_append_left {word : String} (a b : String) (h : Within word a) : Within word (a ++ b) := by
  unfold Within
  rw [String.toList_append]
  exact h.trans (List.prefix_append _ _).isInfix

theorem within_append_right {word : String} (a b : String) (h : Within word b) : Within word (a ++ b) := by
  unfold Within
  rw [String.toList_append]
  exact h.trans (List.suffix_append _ _).isInfix

theorem within_intercalate {p : String} {parts : List String} (h : p ∈ parts) :
    Within p (String.intercalate ", " parts) := by
  induction parts with
  | nil => cases h
  | cons q parts ih =>
    cases parts with
    | nil =>
      rw [List.mem_singleton.mp h]
      exact List.infix_rfl
    | cons r parts =>
      rw [String.intercalate_cons_cons]
      rcases List.mem_cons.mp h with rfl | h
      · exact within_append_left _ _ (within_append_left _ _ List.infix_rfl)
      · exact within_append_right _ _ (ih h)

/-- Every label that is printed is mentioned. -/
theorem label_within_sentence (h : x.Plain) (top : Attribution) (others : List String) {label : String}
    (hlabel : label ∈ top.label :: others) : Within (x.lower label) (x.lower (sentence top others)) := by
  rw [lower_sentence h]
  rcases List.mem_cons.mp hlabel with rfl | hlabel
  · exact within_append_right _ _ (within_append_left _ _ List.infix_rfl)
  · have hjoined : Within (x.lower label) (x.lower (String.intercalate ", " others)) := by
      rw [h.lower_intercalate]
      exact within_intercalate (List.mem_map_of_mem hlabel)
    have hnext : Within (x.lower label) (loweredNext x others) := by
      unfold loweredNext
      split
      · rw [← h.lower_intercalate]
        exact within_append_right _ _ (within_append_left _ _ hjoined)
      · rename_i hempty
        rw [not_not.mp hempty, h.lower_empty] at hjoined
        exact hjoined
    exact within_append_right _ _ (within_append_right _ _ (within_append_right _ _ (within_append_right _ _
      (within_append_right _ _ (within_append_right _ _ (within_append_right _ _ hnext))))))

/-! ## The audit -/

/-- The text from 80 characters before a label's first place to 160 after it. -/
def nearby (x : Texts) (text : String) (a : Attribution) : String :=
  let position := find (x.lower text).toList (x.lower a.label).toList
  String.ofList (((x.lower text).toList.take (position + 160).toNat).drop (position - 80).toNat)

/-- The words that say a direction, and those that say the other. -/
def ownWords (direction : Direction) : List String := if direction = .raising then raiseWords else lowerWords

def otherWords (direction : Direction) : List String := if direction = .raising then lowerWords else raiseWords

theorem signMatches_iff (x : Texts) (text : String) (a : Attribution) :
    signMatches x (x.lower text) a = true ↔ ((∃ word ∈ otherWords a.direction, Within word (nearby x text a)) →
      ∃ word ∈ ownWords a.direction, Within word (nearby x text a)) := by
  have hup : (∃ word ∈ raiseWords, Within word (nearby x text a)) ↔
      (raiseWords.any fun word => Within word (nearby x text a)) = true := by simp
  have hdown : (∃ word ∈ lowerWords, Within word (nearby x text a)) ↔
      (lowerWords.any fun word => Within word (nearby x text a)) = true := by simp
  unfold signMatches ownWords otherWords
  show (if (raiseWords.any fun word => Within word (nearby x text a)) =
    (lowerWords.any fun word => Within word (nearby x text a)) then true
    else if a.direction = .raising then raiseWords.any fun word => Within word (nearby x text a)
    else lowerWords.any fun word => Within word (nearby x text a)) = true ↔ _
  by_cases hdirection : a.direction = .raising
  · simp only [if_pos hdirection]
    rw [hup, hdown]
    cases (raiseWords.any fun word => Within word (nearby x text a)) <;>
      cases (lowerWords.any fun word => Within word (nearby x text a)) <;> simp
  · simp only [if_neg hdirection]
    rw [hup, hdown]
    cases (raiseWords.any fun word => Within word (nearby x text a)) <;>
      cases (lowerWords.any fun word => Within word (nearby x text a)) <;> simp

theorem rank_agrees (n : Nat) : rankAgreementMin.le (agreement n n) = true := by
  have hone : agreement n n = Floating.ofRat _ 1 := by
    unfold agreement
    split
    · rfl
    · rename_i hn
      have hdiv : (n : Rat) / n = 1 := div_self (Nat.cast_ne_zero.mpr hn)
      rw [hdiv]
  rw [hone]
  decide +kernel

theorem sign_agrees_iff {k n : Nat} (hk : k ≤ n) (hn : n ≤ 3) :
    signAgreementMin.le (agreement k n) = true ↔ k = n := by
  have hall : ∀ m ≤ 3, ∀ j ≤ m, (signAgreementMin.le (agreement j m) = true ↔ j = m) := by decide +kernel
  exact hall n hn k hk

/-- A number within the tolerance of an attribution's value. -/
def Expected (attributions : List Attribution) (n : Double) : Prop :=
  closeToAny n (attributions.map fun a => a.value.roundTo 4) = true

/-- A label or an imperative in the printed labels, after the first of which comes a space. -/
def Heard (x : Texts) (attributions : List Attribution) (word : String) : Prop :=
  (∃ a ∈ attributions.head?, Within word (x.lower a.label ++ " ")) ∨
    ∃ a ∈ (attributions.take 3).tail, Within word (x.lower a.label)

/-- When the template text of these attributions says nothing that the audit holds against it. -/
structure Repeatable (x : Texts) (attributions : List Attribution) (text : String) (card : Option ReasonCard) :
    Prop where
  value : ∀ a ∈ attributions.head?, ∀ n ∈ x.numbersIn (shownValue a), Expected attributions n
  share : ∀ a ∈ attributions.head?, ∀ n ∈ x.numbersIn (shownShare a), Expected attributions n
  label : ∀ a ∈ attributions.take 3, ∀ n ∈ x.numbersIn a.label, Expected attributions n
  direction : ∀ a ∈ attributions.take 3, (∃ word ∈ otherWords a.direction, Within word (nearby x text a)) →
    ∃ word ∈ ownWords a.direction, Within word (nearby x text a)
  feature : ∀ word ∈ spokenLabels, Heard x attributions word → ∃ a ∈ attributions, x.lower a.label = word
  recommendation : (∃ word ∈ imperatives, Heard x attributions word) →
    ∃ word ∈ imperatives, Heard x attributions word ∧ Within word (x.lower (recommendedAction card))

theorem hallucinatedFeatures_isEmpty_iff (lowered : String) (attributions : List Attribution)
    (l : FeatureLabels) : (hallucinatedFeatures x lowered attributions l).isEmpty = true ↔
      ∀ word ∈ l.vocabulary x, Within word lowered → ∃ a ∈ attributions, x.lower a.label = word := by
  rw [List.isEmpty_iff, List.eq_nil_iff_forall_not_mem]
  unfold hallucinatedFeatures
  simp only [List.mem_insertionSort, List.mem_dedup, List.mem_filter, decide_eq_true_eq, List.mem_map, not_and, not_not]

theorem unsupportedRecommendation_eq_false_iff (lowered : String) (action : String) :
    unsupportedRecommendation x lowered [action] = false ↔ ((∃ word ∈ imperatives, Within word lowered) →
      ∃ word ∈ imperatives, Within word lowered ∧ Within word (x.lower action)) := by
  unfold unsupportedRecommendation
  rw [String.intercalate_singleton]
  split
  · rename_i hnone
    exact iff_of_true rfl fun hsome => absurd hsome hnone
  · rename_i hsome
    rw [decide_eq_false_iff_not, not_not]
    exact ⟨fun hsupported _ => hsupported, fun hsupported => hsupported (not_not.mp hsome)⟩

theorem signs_agree_iff (x : Texts) (text : String) {top : List Attribution} (htop : top.length ≤ 3) :
    signAgreementMin.le (agreement ((top.map (signMatches x (x.lower text))).count true)
      (top.map (signMatches x (x.lower text))).length) = true ↔
      ∀ a ∈ top, (∃ word ∈ otherWords a.direction, Within word (nearby x text a)) →
        ∃ word ∈ ownWords a.direction, Within word (nearby x text a) := by
  have hlength : (top.map (signMatches x (x.lower text))).length ≤ 3 := by rwa [List.length_map]
  rw [sign_agrees_iff List.count_le_length hlength, List.count_eq_length]
  simp only [List.forall_mem_map, eq_comm (a := true), signMatches_iff]

theorem heard_iff (h : x.Plain) {top : Attribution} {rest : List Attribution} (hunit : top.unit ∈ units)
    {word : String} (hword : word ∈ spokenLabels ++ imperatives) :
    Within word (x.lower (sentence top ((rest.take 2).map Attribution.label))) ↔ Heard x (top :: rest) word := by
  rw [within_sentence_iff h hword hunit]
  constructor
  · rintro (htop | ⟨l, hl, hwithin⟩)
    · exact .inl ⟨top, rfl, htop⟩
    · obtain ⟨a, ha, rfl⟩ := List.mem_map.mp hl
      exact .inr ⟨a, ha, hwithin⟩
  · rintro (⟨a, ha, hwithin⟩ | ⟨a, ha, hwithin⟩)
    · obtain rfl := Option.some_inj.mp ha
      exact .inl hwithin
    · exact .inr ⟨a.label, List.mem_map_of_mem ha, hwithin⟩

theorem numbers_expected_iff (h : x.Plain) {top : Attribution} {rest : List Attribution} (hunit : top.unit ∈ units)
    (expected : Double → Prop) :
    (∀ n ∈ x.numbersIn (sentence top ((rest.take 2).map Attribution.label)), expected n) ↔
      (∀ n ∈ x.numbersIn (shownValue top), expected n) ∧ (∀ n ∈ x.numbersIn (shownShare top), expected n) ∧
        ∀ a ∈ (top :: rest).take 3, ∀ n ∈ x.numbersIn a.label, expected n := by
  rw [numbersIn_sentence h hunit]
  simp only [List.mem_append, List.mem_flatMap, List.mem_map, List.take_succ_cons, List.mem_cons]
  grind

theorem serviceAudit_passed_iff (h : x.Plain) {top : Attribution} {rest : List Attribution} (hunit : top.unit ∈ units)
    (card : Option ReasonCard) {text : String} (htext : text = sentence top ((rest.take 2).map Attribution.label)) :
    (serviceAudit x text (top :: rest) card).passed = true ↔ Repeatable x (top :: rest) text card := by
  have hmentioned : (((top :: rest).take 3).filter fun a => Within (x.lower a.label) (x.lower text)) =
      (top :: rest).take 3 := by
    rw [List.filter_eq_self]
    intro a ha
    rw [htext]
    refine decide_eq_true (label_within_sentence h top _ ?_)
    rw [← List.map_cons]
    exact List.mem_map_of_mem ha
  have hnumbers : ((x.numbersIn text).filter fun n =>
      !closeToAny n ([] ++ (top :: rest).map fun a => a.value.roundTo 4)).isEmpty = true ↔
        ∀ n ∈ x.numbersIn text, Expected (top :: rest) n := by
    rw [List.isEmpty_iff, List.filter_eq_nil_iff]
    simp [Expected]
  have hpassed : (serviceAudit x text (top :: rest) card).passed = true ↔
      (((rankAgreementMin.le (agreement ((top :: rest).take 3).length ((top :: rest).take 3).length) = true ∧
        ∀ a ∈ (top :: rest).take 3, (∃ word ∈ otherWords a.direction, Within word (nearby x text a)) →
          ∃ word ∈ ownWords a.direction, Within word (nearby x text a)) ∧
        ∀ n ∈ x.numbersIn text, Expected (top :: rest) n) ∧
        (∀ word ∈ FeatureLabels.shipped.vocabulary x, Within word (x.lower text) →
          ∃ a ∈ top :: rest, x.lower a.label = word)) ∧
        ((∃ word ∈ imperatives, Within word (x.lower text)) → ∃ word ∈ imperatives, Within word (x.lower text) ∧
          Within word (x.lower (recommendedAction card))) := by
    rw [← signs_agree_iff x text (List.length_take_le 3 (top :: rest)), ← hnumbers,
      ← hallucinatedFeatures_isEmpty_iff, ← unsupportedRecommendation_eq_false_iff, ← Bool.not_eq_true',
      ← Bool.and_eq_true_iff, ← Bool.and_eq_true_iff, ← Bool.and_eq_true_iff, ← Bool.and_eq_true_iff]
    unfold serviceAudit auditNarration
    dsimp only
    rw [hmentioned]
  have hlabel : ∀ word ∈ spokenLabels, (Within word (x.lower text) ↔ Heard x (top :: rest) word) := fun word hword => by
    rw [htext]
    exact heard_iff h hunit (List.mem_append_left _ hword)
  have himperative : ∀ word ∈ imperatives, (Within word (x.lower text) ↔ Heard x (top :: rest) word) :=
    fun word hword => by
      rw [htext]
      exact heard_iff h hunit (List.mem_append_right _ hword)
  have hparts := @numbers_expected_iff _ h top rest hunit (Expected (top :: rest))
  rw [← htext] at hparts
  rw [hpassed, and_iff_right (rank_agrees _), vocabulary_eq h, hparts]
  constructor
  · rintro ⟨⟨⟨hdirection, hvalue, hshare, hnumbers⟩, hfeature⟩, haction⟩
    exact {
      value := fun a ha => Option.some_inj.mp ha ▸ hvalue
      share := fun a ha => Option.some_inj.mp ha ▸ hshare
      label := hnumbers
      direction := hdirection
      feature := fun word hword hheard => hfeature word hword ((hlabel word hword).mpr hheard)
      recommendation := fun ⟨word, hword, hheard⟩ => by
        obtain ⟨word, hword, hwithin, hsupported⟩ := haction ⟨word, hword, (himperative word hword).mpr hheard⟩
        exact ⟨word, hword, (himperative word hword).mp hwithin, hsupported⟩ }
  · intro hrepeatable
    refine ⟨⟨⟨hrepeatable.direction, hrepeatable.value top rfl, hrepeatable.share top rfl, hrepeatable.label⟩, ?_⟩, ?_⟩
    · exact fun word hword hwithin => hrepeatable.feature word hword ((hlabel word hword).mp hwithin)
    · rintro ⟨word, hword, hwithin⟩
      obtain ⟨word, hword, hheard, hsupported⟩ :=
        hrepeatable.recommendation ⟨word, hword, (himperative word hword).mp hwithin⟩
      exact ⟨word, hword, (himperative word hword).mpr hheard, hsupported⟩

theorem unit_get_mem (x : Texts) (name : String) : (FeatureLabels.shipped.get x name).unit ∈ units := by
  show ((FeatureLabels.shipped.features.get? (FeatureLabels.shipped.splitSuffix name).1).getD {}).unit ∈ units
  cases hspec : FeatureLabels.shipped.features.get? (FeatureLabels.shipped.splitSuffix name).1 with
  | none => exact List.mem_cons_self
  | some spec => exact List.mem_cons_of_mem _ (List.mem_map_of_mem (Dict.mem_of_get? hspec))

theorem unit_mem_of_build {np : Numpy} {names : List String} {values contributions : List Double}
    {attributions : List Attribution}
    (hbuild : buildAttributions x np FeatureLabels.shipped names values contributions = .ok attributions) :
    ∀ a ∈ attributions, a.unit ∈ units := by
  unfold buildAttributions at hbuild
  split at hbuild
  · cases hbuild
  · refine (forall_mem_of_mapM (P := fun _ => True) ?_ hbuild).mpr fun _ _ => trivial
    rintro ⟨idx, i⟩ a ha
    dsimp only at ha
    split at ha
    · obtain rfl := Except.ok.inj ha
      exact iff_of_true (unit_get_mem x _) trivial
    · cases ha

theorem template_passes_iff (h : x.Plain) (np : Numpy) (names : List String) (values contributions : List Double)
    (card : Option ReasonCard) {attributions : List Attribution}
    (hbuild : buildAttributions x np FeatureLabels.shipped names values contributions = .ok attributions)
    (hne : attributions ≠ []) :
    ∃ text told result, why x attributions = .ok text ∧
      narration x attributions card (some text) = .ok (told, some result) ∧
      (result.passed = true ↔ Repeatable x attributions text card) := by
  obtain ⟨top, rest, rfl⟩ := List.exists_cons_of_ne_nil hne
  obtain ⟨text, htext⟩ : ∃ text, text = sentence top ((rest.take 2).map Attribution.label) := ⟨_, rfl⟩
  have hwhy := why_cons h top rest
  rw [← htext] at hwhy
  exact ⟨text, _, _, hwhy, narration_some hne hwhy card text,
    serviceAudit_passed_iff h (unit_mem_of_build hbuild top List.mem_cons_self) card htext⟩

/-! ## Two explanations -/

/-- The ASCII tables, and a `float()` that is exact on digits. -/
def asciiTexts : Texts where
  tables := asciiTables
  isDigit := Char.isDigit
  capitalize s :=
    match s.toList with
    | [] => ""
    | c :: cs => String.ofList (c.toUpper :: cs.map Char.toLower)
  float? text :=
    if text.toList ≠ [] ∧ text.toList.all Char.isDigit then
      some (Floating.ofRat _ (Nat.ofDigitChars 10 text.toList 0))
    else none

theorem lower_asciiTexts (a b : String) :
    asciiTexts.lower (a ++ b) = asciiTexts.lower a ++ asciiTexts.lower b := by
  show String.ofList ((a ++ b).toList.map Char.toLower) = _
  rw [String.toList_append, List.map_append, String.ofList_append]
  rfl

theorem asciiTexts_plain : asciiTexts.Plain where
  ascii := asciiTables_ascii
  digits _ _ := rfl
  degree := by decide
  space a b := by
    have hspace : asciiTexts.lower " " = " " := by decide
    rw [lower_asciiTexts, lower_asciiTexts, hspace]
  comma a b := by
    have hcomma : asciiTexts.lower "," = "," := by decide
    rw [lower_asciiTexts, lower_asciiTexts, hcomma]
  stop a := by
    have hstop : asciiTexts.lower "." = "." := by decide
    rw [lower_asciiTexts, hstop]

/-- Addition from the left, and a stable sort. -/
def plainNumpy : Numpy where
  sum xs := xs.foldl (fun a b => Floating.ofNumber _ (a.number.add b.number)) (Floating.ofRat _ 0)
  argsort xs := (List.range xs.length).insertionSort fun i j =>
    (xs.getD i (Floating.ofRat _ 0)).le (xs.getD j (Floating.ofRat _ 0)) = true

/-- An explanation by one feature, which has all the weight. -/
def soleDriver (feature label unit : String) (value : Nat) : Attribution where
  feature := feature
  label := label
  value := Floating.ofRat _ value
  unit := unit
  contribution := Floating.ofRat _ 1
  direction := .raising
  share := Floating.ofRat _ 1
  rank := 1

theorem build_load : buildAttributions asciiTexts plainNumpy FeatureLabels.shipped ["load_pct"]
    [Floating.ofRat _ 100] [Floating.ofRat _ 1] = .ok [soleDriver "load_pct" "Load" "%" 100] := by
  decide +kernel

theorem build_vibration : buildAttributions asciiTexts plainNumpy FeatureLabels.shipped ["spindle.vib_rms"]
    [Floating.ofRat _ 4] [Floating.ofRat _ 1] =
      .ok [soleDriver "spindle.vib_rms" "Spindle vibration" "mm/s" 4] := by
  decide +kernel

theorem heard_load {word : String} (h : Heard asciiTexts [soleDriver "load_pct" "Load" "%" 100] word) :
    Within word "load " := by
  rcases h with ⟨a, ha, hwithin⟩ | ⟨a, ha, -⟩
  · obtain rfl := Option.some_inj.mp ha
    have hlower : asciiTexts.lower "Load" ++ " " = "load " := by decide
    rw [← hlower]
    exact hwithin
  · cases ha

theorem load_repeatable : Repeatable asciiTexts [soleDriver "load_pct" "Load" "%" 100]
    "The main driver is Load at 100 %, raising the estimate and accounting for 100% of it." none where
  value a ha := by
    obtain rfl := Option.some_inj.mp ha
    unfold Expected
    decide +kernel
  share a ha := by
    obtain rfl := Option.some_inj.mp ha
    unfold Expected
    decide +kernel
  label := by
    unfold Expected
    decide +kernel
  direction a ha _ := by
    obtain rfl := List.mem_singleton.mp ha
    exact ⟨"raising", List.mem_cons_self, by decide +kernel⟩
  feature word hword hheard := by
    have honly : ∀ label ∈ spokenLabels, Within label "load " → asciiTexts.lower "Load" = label := by decide +kernel
    exact ⟨_, List.mem_singleton_self _, honly word hword (heard_load hheard)⟩
  recommendation := fun ⟨word, hword, hheard⟩ => by
    have hnone : ∀ word ∈ imperatives, ¬ Within word "load " := by decide
    exact absurd (heard_load hheard) (hnone word hword)

theorem load_text_passes : ∃ text told result,
    why asciiTexts [soleDriver "load_pct" "Load" "%" 100] = .ok text ∧
      narration asciiTexts [soleDriver "load_pct" "Load" "%" 100] none (some text) = .ok (told, some result) ∧
      result.passed = true := by
  obtain ⟨text, told, result, hwhy, hnarration, hpassed⟩ := template_passes_iff asciiTexts_plain plainNumpy
    ["load_pct"] [Floating.ofRat _ 100] [Floating.ofRat _ 1] none build_load (List.cons_ne_nil _ _)
  have htext : why asciiTexts [soleDriver "load_pct" "Load" "%" 100] =
      .ok "The main driver is Load at 100 %, raising the estimate and accounting for 100% of it." := by
    decide +kernel
  obtain rfl := Except.ok.inj (htext.symm.trans hwhy)
  exact ⟨_, told, result, hwhy, hnarration, hpassed.mpr load_repeatable⟩

/-- The text says 100%, and no value of the explanation is near 100. -/
theorem share_not_expected :
    ¬∀ (x : Texts) (np : Numpy) (names : List String) (values contributions : List Double) (card : Option ReasonCard)
      (attributions : List Attribution), x.Plain →
      buildAttributions x np FeatureLabels.shipped names values contributions = .ok attributions →
      attributions ≠ [] → ∃ text told result, why x attributions = .ok text ∧
        narration x attributions card (some text) = .ok (told, some result) ∧ result.passed = true := by
  intro h
  obtain ⟨text, told, result, hwhy, hnarration, hpassed⟩ := h asciiTexts plainNumpy ["spindle.vib_rms"]
    [Floating.ofRat _ 4] [Floating.ofRat _ 1] none _ asciiTexts_plain build_vibration (List.cons_ne_nil _ _)
  rw [narration_some (List.cons_ne_nil _ _) hwhy] at hnarration
  obtain rfl : _ = result := Option.some_inj.mp (congrArg Prod.snd (Except.ok.inj hnarration))
  have htext := Except.ok.inj (hwhy.symm.trans (why_cons asciiTexts_plain _ _))
  have hunit : "mm/s" ∈ units := List.mem_cons_of_mem _ List.mem_cons_self
  have hrepeatable := (serviceAudit_passed_iff asciiTexts_plain hunit none htext).mp hpassed
  have hshare : Floating.ofRat _ 100 ∈
      asciiTexts.numbersIn (shownShare (soleDriver "spindle.vib_rms" "Spindle vibration" "mm/s" 4)) := by
    decide +kernel
  have hfar : closeToAny (Floating.ofRat _ 100) [(Floating.ofRat binary64 4).roundTo 4] = false := by
    decide +kernel
  have hnear := hrepeatable.share _ rfl _ hshare
  exact Bool.false_ne_true (hfar.symm.trans hnear)

end TwinVoice.Xai
