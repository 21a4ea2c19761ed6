import TwinVoice.Xai.ComposedText

/-! # Numerals as they are written and as they are read

A block is a run of digits with the runs that single points and commas join to
it. As written it is cut into numerals with commas between their thousands and
a decimal point; the expression of the audits cuts it into pairs of runs. -/

namespace TwinVoice.Xai

open TwinVoice.Lib

/-- An optional sign, the whole part by its commas, and the decimals, of which there may be none. -/
structure Numeral where
  negative : Bool
  groups : List (List Char)
  fraction : List Char
  deriving DecidableEq

def signOf (negative : Bool) : List Char := if negative then ['-'] else []

def pointed (fraction : List Char) : List Char := if fraction = [] then [] else '.' :: fraction

namespace Numeral

def text (n : Numeral) : List Char := signOf n.negative ++ [','].intercalate n.groups ++ pointed n.fraction

/-- The commas and the point. -/
def marks (n : Numeral) : Nat := n.groups.length - 1 + if n.fraction = [] then 0 else 1

/-- One more run, after a comma or a point. -/
def join (n : Numeral) (mark : Char) (run : List Char) : Numeral :=
  if mark = ',' then { n with groups := n.groups ++ [run] } else { n with fraction := run }

/-- A numeral without commas. -/
def ofRun (negative : Bool) (run : List Char) : Numeral := ⟨negative, [run], []⟩

/-- A run belongs to a numeral as its decimals, or as three more digits after a first group of at most three. -/
def takes (n : Numeral) (mark : Char) (run : List Char) : Bool :=
  n.fraction = [] && (mark = '.' || (n.groups.headD []).length ≤ 3 && run.length = 3)

/-- The expression joins any two runs, and never a third. -/
def unmarked (n : Numeral) (_ : Char) (_ : List Char) : Bool := n.marks = 0

end Numeral

theorem Numeral.marks_join {n : Numeral} (hgroups : n.groups ≠ []) (hfraction : n.fraction = []) {mark : Char}
    (hmark : mark = ',' ∨ mark = '.') {run : List Char} (hrun : run ≠ []) :
    (n.join mark run).marks = n.marks + 1 := by
  have hlen : 0 < n.groups.length := List.length_pos_iff.mpr hgroups
  rcases hmark with rfl | rfl
  · simp only [marks, join, hfraction, if_true, List.length_append, List.length_singleton]
    omega
  · simp [marks, join, hfraction, hrun]

theorem Numeral.groups_join {n : Numeral} (hgroups : n.groups ≠ []) (mark : Char) (run : List Char) :
    (n.join mark run).groups ≠ [] := by
  unfold join
  split
  · exact List.append_ne_nil_of_left_ne_nil hgroups _
  · exact hgroups

theorem Numeral.text_ofRun (negative : Bool) (run : List Char) :
    (Numeral.ofRun negative run).text = signOf negative ++ run := by
  simp [Numeral.text, Numeral.ofRun, pointed]

theorem Numeral.text_join (negative : Bool) (first : List Char) {mark : Char} (hmark : mark = ',' ∨ mark = '.')
    {run : List Char} (hrun : run ≠ []) :
    ((Numeral.ofRun negative first).join mark run).text = signOf negative ++ first ++ mark :: run := by
  rcases hmark with rfl | rfl
  · simp [Numeral.text, Numeral.join, Numeral.ofRun, pointed, List.intercalate]
  · simp [Numeral.text, Numeral.join, Numeral.ofRun, pointed, hrun]

/-- Runs of digits, each after the first joined to the one before it by a comma or a point. -/
structure Block where
  negative : Bool
  first : List Char
  rest : List (Char × List Char)
  deriving DecidableEq

def joinedText (rest : List (Char × List Char)) : List Char := rest.flatMap fun (mark, run) => mark :: run

@[simp] theorem joinedText_nil : joinedText [] = [] := rfl

@[simp] theorem joinedText_cons (mark : Char) (run : List Char) (rest : List (Char × List Char)) :
    joinedText ((mark, run) :: rest) = mark :: (run ++ joinedText rest) := rfl

/-- The numerals that a block is cut into, by what a numeral takes to itself. -/
def cut (takes : Numeral → Char → List Char → Bool) (n : Numeral) : List (Char × List Char) → List Numeral
  | [] => [n]
  | (mark, run) :: rest =>
    if takes n mark run then cut takes (n.join mark run) rest else n :: cut takes (Numeral.ofRun false run) rest

namespace Block

def text (b : Block) : List Char := signOf b.negative ++ (b.first ++ joinedText b.rest)

def written (b : Block) : List Numeral := cut Numeral.takes (Numeral.ofRun b.negative b.first) b.rest

def read (b : Block) : List Numeral := cut Numeral.unmarked (Numeral.ofRun b.negative b.first) b.rest

/-- No numeral of the block has two marks, and none without any stands before a lone comma. -/
def Plain (b : Block) : Prop := (∀ n ∈ b.written, n.marks ≤ 1) ∧ ∀ n ∈ b.written.dropLast, n.marks = 1

instance decidablePlain (b : Block) : Decidable b.Plain := instDecidableAnd

end Block

/-! ## The blocks of a text -/

section
variable (isDigit : Char → Bool)

/-- The run of digits at the start of a text, and what is joined to it. -/
def runs : List Char → List Char × List (Char × List Char)
  | [] => ([], [])
  | c :: text =>
    let after := runs text
    if isDigit c then (c :: after.1, after.2)
    else if (c = ',' ∨ c = '.') ∧ after.1 ≠ [] then ([], (c, after.1) :: after.2)
    else ([], [])

def blockAt? (text : List Char) : Option Block :=
  let (negative, body) := if text.head? = some '-' then (true, text.tail) else (false, text)
  let (first, rest) := runs isDigit body
  if first = [] then none else some ⟨negative, first, rest⟩

/-- The blocks, the first `skip` characters of the text belonging to a block already found. -/
def blocks : Nat → List Char → List Block
  | _, [] => []
  | skip + 1, _ :: text => blocks skip text
  | 0, c :: text =>
    match blockAt? isDigit (c :: text) with
    | some b => b :: blocks (b.text.length - 1) text
    | none => blocks 0 text

end

example : (blocks Char.isDigit 0 "x -1,234,567.5 1,2".toList).flatMap Block.written =
    [⟨true, ["1".toList, "234".toList, "567".toList], "5".toList⟩, .ofRun false ['1'], .ofRun false ['2']] := by
  decide

/-! ## What the expression finds -/

/-- What `runs` gives: digits, and behind each mark more of them. -/
structure Block.Sound (isDigit : Char → Bool) (b : Block) : Prop where
  first : b.first ≠ []
  digits : ∀ c ∈ b.first, isDigit c = true
  rest : ∀ joined ∈ b.rest,
    (joined.1 = ',' ∨ joined.1 = '.') ∧ joined.2 ≠ [] ∧ ∀ c ∈ joined.2, isDigit c = true

section
variable {isDigit : Char → Bool}

/-- A block starts with a digit. -/
theorem Block.Sound.head {b : Block} (h : b.Sound isDigit) (hminus : isDigit '-' = false) (after : List Char) :
    (b.first ++ after).head? ≠ some '-' := by
  obtain ⟨c, first, hfirst⟩ := List.exists_cons_of_ne_nil h.first
  intro hhead
  rw [hfirst, List.cons_append, List.head?_cons, Option.some_inj] at hhead
  have hdigit := h.digits c (by rw [hfirst]; exact List.mem_cons_self)
  rw [hhead, hminus] at hdigit
  cases hdigit

theorem closed_nil : Closed isDigit [] := by
  intro c hc
  cases hc

theorem runs_fst (text : List Char) :
    (runs isDigit text).1 = text.takeWhile isDigit := by
  induction text with
  | nil => rfl
  | cons c text ih =>
    rw [runs]
    by_cases hc : isDigit c = true
    · rw [if_pos hc, List.takeWhile_cons_of_pos hc, ih]
    · rw [if_neg hc, List.takeWhile_cons_of_neg hc]
      split
      · rfl
      · rfl

/-- A text is its runs and a text in which no match goes on. -/
theorem runs_spec (text : List Char) :
    ∃ after, text = (runs isDigit text).1 ++ (joinedText (runs isDigit text).2 ++ after) ∧ Closed isDigit after ∧
      (∀ c ∈ (runs isDigit text).1, isDigit c = true) ∧ ∀ joined ∈ (runs isDigit text).2,
        (joined.1 = ',' ∨ joined.1 = '.') ∧ joined.2 ≠ [] ∧ ∀ c ∈ joined.2, isDigit c = true := by
  induction text with
  | nil =>
    exact ⟨[], rfl, closed_nil, fun _ h => absurd h List.not_mem_nil,
      fun _ h => absurd h List.not_mem_nil⟩
  | cons c text ih =>
    obtain ⟨after, htext, hclosed, hdigits, hrest⟩ := ih
    have hfirst := @runs_fst isDigit text
    rw [runs]
    by_cases hc : isDigit c = true
    · rw [if_pos hc]
      refine ⟨after, by rw [List.cons_append, ← htext], hclosed, ?_, hrest⟩
      intro d hd
      rcases List.mem_cons.mp hd with rfl | hd
      · exact hc
      · exact hdigits d hd
    · rw [if_neg hc]
      by_cases hjoin : (c = ',' ∨ c = '.') ∧ (runs isDigit text).1 ≠ []
      · rw [if_pos hjoin]
        refine ⟨after, ?_, hclosed, fun _ h => absurd h List.not_mem_nil, ?_⟩
        · nth_rewrite 1 [htext]
          simp [joinedText]
        · intro joined hjoined
          rcases List.mem_cons.mp hjoined with rfl | hjoined
          · exact ⟨hjoin.1, hjoin.2, hdigits⟩
          · exact hrest joined hjoined
      · rw [if_neg hjoin]
        refine ⟨c :: text, rfl, ?_, fun _ h => absurd h List.not_mem_nil, fun _ h => absurd h List.not_mem_nil⟩
        intro d hd
        obtain rfl := Option.some_inj.mp hd
        refine ⟨by simpa using hc, fun hpoint => ?_⟩
        rw [List.tail_cons, ← hfirst]
        by_contra hne
        exact hjoin ⟨hpoint.symm, hne⟩

theorem blockAt?_minus (text : List Char) : blockAt? isDigit ('-' :: text) =
    if (runs isDigit text).1 = [] then none else some ⟨true, (runs isDigit text).1, (runs isDigit text).2⟩ := rfl

theorem blockAt?_of_ne {text : List Char} (h : text.head? ≠ some '-') : blockAt? isDigit text =
    if (runs isDigit text).1 = [] then none else some ⟨false, (runs isDigit text).1, (runs isDigit text).2⟩ := by
  unfold blockAt?
  rw [if_neg h]

/-- A block is the start of its text, and no match in it goes on behind it. -/
theorem blockAt?_some {text : List Char} {b : Block} (h : blockAt? isDigit text = some b) :
    b.Sound isDigit ∧ ∃ after, text = b.text ++ after ∧ Closed isDigit after := by
  by_cases hsign : text.head? = some '-'
  · obtain ⟨body, rfl⟩ : ∃ body, text = '-' :: body := by
      cases text with
      | nil => cases hsign
      | cons c body => exact ⟨body, by rw [Option.some_inj.mp hsign]⟩
    rw [blockAt?_minus] at h
    obtain ⟨after, htext, hclosed, hdigits, hrest⟩ := runs_spec body
    split at h
    · cases h
    · obtain rfl := Option.some_inj.mp h
      refine ⟨⟨‹_›, hdigits, hrest⟩, after, ?_, hclosed⟩
      nth_rewrite 1 [htext]
      simp [Block.text, signOf]
  · rw [blockAt?_of_ne hsign] at h
    obtain ⟨after, htext, hclosed, hdigits, hrest⟩ := runs_spec text
    split at h
    · cases h
    · obtain rfl := Option.some_inj.mp h
      refine ⟨⟨‹_›, hdigits, hrest⟩, after, ?_, hclosed⟩
      nth_rewrite 1 [htext]
      simp [Block.text, signOf]

theorem numberAt?_none {text : List Char} (h : blockAt? isDigit text = none) : numberAt? isDigit text = none := by
  by_cases hsign : text.head? = some '-'
  · obtain ⟨body, rfl⟩ : ∃ body, text = '-' :: body := by
      cases text with
      | nil => cases hsign
      | cons c body => exact ⟨body, by rw [Option.some_inj.mp hsign]⟩
    rw [blockAt?_minus, ite_eq_left_iff] at h
    rw [numberAt?_minus, unsignedAt?, ← runs_fst body]
    exact if_pos (by_contra fun hne => Option.some_ne_none _ (h hne))
  · rw [blockAt?_of_ne hsign, ite_eq_left_iff] at h
    rw [numberAt?_of_ne hsign, unsignedAt?, ← runs_fst text]
    exact if_pos (by_contra fun hne => Option.some_ne_none _ (h hne))

theorem takeWhile_run {run : List Char} (hrun : ∀ c ∈ run, isDigit c = true) {c : Char} (hc : isDigit c = false)
    (after : List Char) : (run ++ c :: after).takeWhile isDigit = run := by
  rw [List.takeWhile_append_of_pos hrun, List.takeWhile_cons_of_neg (by simp [hc]), List.append_nil]

theorem dropWhile_run {run : List Char} (hrun : ∀ c ∈ run, isDigit c = true) {c : Char} (hc : isDigit c = false)
    (after : List Char) : (run ++ c :: after).dropWhile isDigit = c :: after := by
  rw [List.dropWhile_append_of_pos hrun, List.dropWhile_cons_of_neg (by simp [hc])]

theorem unsignedAt?_run {run : List Char} (hne : run ≠ []) (hrun : ∀ c ∈ run, isDigit c = true) (sign : List Char)
    {after : List Char} (hafter : Closed isDigit after) :
    unsignedAt? isDigit sign (run ++ after) = some (sign ++ run) := by
  rw [unsignedAt?_append hafter, unsignedAt?, List.takeWhile_eq_self_iff.mpr hrun,
    List.dropWhile_eq_nil_iff.mpr hrun, if_neg hne]

theorem unsignedAt?_pair {first run : List Char} (hne : first ≠ []) (hfirst : ∀ c ∈ first, isDigit c = true)
    {mark : Char} (hmark : mark = '.' ∨ mark = ',') (hdigit : isDigit mark = false) (hrun : run ≠ [])
    (hdigits : ∀ c ∈ run, isDigit c = true) (sign : List Char) {after : List Char}
    (hafter : ∀ c ∈ after.head?, isDigit c = false) :
    unsignedAt? isDigit sign (first ++ mark :: (run ++ after)) = some (sign ++ first ++ mark :: run) := by
  have htaken : (run ++ after).takeWhile isDigit = run := by
    rw [List.takeWhile_append_of_pos hdigits]
    cases after with
    | nil => rw [List.takeWhile_nil, List.append_nil]
    | cons c after => rw [List.takeWhile_cons_of_neg (by simp [hafter c rfl]), List.append_nil]
  rw [unsignedAt?, takeWhile_run hfirst hdigit, dropWhile_run hfirst hdigit, if_neg hne]
  dsimp only
  rw [htaken, if_pos ⟨hmark, hrun⟩]

theorem numberAt?_signed (negative : Bool) {body : List Char} (hbody : body.head? ≠ some '-') :
    numberAt? isDigit (signOf negative ++ body) = unsignedAt? isDigit (signOf negative) body := by
  cases negative with
  | true => exact numberAt?_minus body
  | false => exact numberAt?_of_ne hbody

theorem findNumbers_found {found after : List Char} (hne : found ≠ [])
    (h : numberAt? isDigit (found ++ after) = some found) :
    findNumbers isDigit 0 (found ++ after) = found :: findNumbers isDigit 0 after := by
  cases found with
  | nil => exact absurd rfl hne
  | cons c found =>
    rw [List.cons_append] at h ⊢
    rw [findNumbers, h]
    dsimp only
    rw [findNumbers_skip, List.length_cons, Nat.add_sub_cancel, List.drop_left]

/-- A pair of runs is read as one numeral, and what comes behind is read anew. -/
theorem Block.Sound.read_pair {negative : Bool} {first run run' : List Char} {mark mark' : Char}
    {rest : List (Char × List Char)}
    (h : Block.Sound isDigit ⟨negative, first, (mark, run) :: (mark', run') :: rest⟩) :
    Block.read ⟨negative, first, (mark, run) :: (mark', run') :: rest⟩ =
      (Numeral.ofRun negative first).join mark run :: Block.read ⟨false, run', rest⟩ := by
  obtain ⟨hpoint, hrun, -⟩ := h.rest (mark, run) List.mem_cons_self
  have hone : ((Numeral.ofRun negative first).join mark run).marks = 1 :=
    Numeral.marks_join (List.cons_ne_nil first []) rfl hpoint hrun
  show cut Numeral.unmarked ((Numeral.ofRun negative first).join mark run) ((mark', run') :: rest) = _
  rw [cut, Numeral.unmarked, hone]
  rfl

/-- Two joined runs are one match, whatever stands behind them. -/
theorem findNumbers_pair (hminus : isDigit '-' = false) (hmark : ∀ c, c = ',' ∨ c = '.' → isDigit c = false)
    {negative : Bool} {first run : List Char} {mark : Char} {rest : List (Char × List Char)}
    (h : Block.Sound isDigit ⟨negative, first, (mark, run) :: rest⟩) (after : List Char)
    (hafter : ∀ c ∈ after.head?, isDigit c = false) :
    findNumbers isDigit 0 (signOf negative ++ (first ++ mark :: (run ++ after))) =
      ((Numeral.ofRun negative first).join mark run).text :: findNumbers isDigit 0 after := by
  obtain ⟨hpoint, hrun, hdigits⟩ := h.rest (mark, run) List.mem_cons_self
  have hsplit : signOf negative ++ (first ++ mark :: (run ++ after)) =
      (signOf negative ++ first ++ mark :: run) ++ after := by simp
  have hmatch : numberAt? isDigit ((signOf negative ++ first ++ mark :: run) ++ after) =
      some (signOf negative ++ first ++ mark :: run) := by
    rw [← hsplit, numberAt?_signed negative (h.head hminus _),
      unsignedAt?_pair h.first h.digits hpoint.symm (hmark mark hpoint) hrun hdigits _ hafter]
  rw [hsplit, findNumbers_found (by simp) hmatch, Numeral.text_join negative first hpoint hrun]

/-- What the expression finds in runs that are joined, one numeral after the other. -/
theorem findNumbers_runs (hminus : isDigit '-' = false) (hmark : ∀ c, c = ',' ∨ c = '.' → isDigit c = false)
    {after : List Char} (hafter : Closed isDigit after) :
    ∀ (rest : List (Char × List Char)) (negative : Bool) (first : List Char),
      Block.Sound isDigit ⟨negative, first, rest⟩ →
      findNumbers isDigit 0 (signOf negative ++ (first ++ (joinedText rest ++ after))) =
        (Block.read ⟨negative, first, rest⟩).map Numeral.text ++ findNumbers isDigit 0 after
  | [], negative, first, h => by
    have hmatch : numberAt? isDigit (signOf negative ++ first ++ after) = some (signOf negative ++ first) := by
      rw [List.append_assoc, numberAt?_signed negative (h.head hminus after), unsignedAt?_run h.first h.digits _ hafter]
    show findNumbers isDigit 0 (signOf negative ++ (first ++ after)) =
      [(Numeral.ofRun negative first).text] ++ findNumbers isDigit 0 after
    rw [← List.append_assoc, findNumbers_found (List.append_ne_nil_of_right_ne_nil _ h.first) hmatch,
      Numeral.text_ofRun, List.singleton_append]
  | [(mark, run)], negative, first, h => by
    obtain ⟨hpoint, hrun, hdigits⟩ := h.rest (mark, run) List.mem_cons_self
    have hmatch := findNumbers_pair hminus hmark h after fun c hc => (hafter c hc).1
    rw [joinedText_cons, joinedText_nil, List.append_nil, List.cons_append, hmatch]
    rfl
  | (mark, run) :: (mark', run') :: rest, negative, first, h => by
    obtain ⟨hpoint, hrun, hdigits⟩ := h.rest (mark', run') (List.mem_cons_of_mem _ List.mem_cons_self)
    have hmark' : isDigit mark' = false := hmark mark' hpoint
    have hmatch := findNumbers_pair hminus hmark h (mark' :: (run' ++ (joinedText rest ++ after))) fun c hc => by
      rw [← Option.some_inj.mp hc]
      exact hmark'
    have hskip : ∀ text, findNumbers isDigit 0 (mark' :: text) = findNumbers isDigit 0 text := fun text =>
      findNumbers_silent_append (a := [mark']) (fun c hc => by
        rw [List.mem_singleton.mp hc]
        exact ⟨hmark', by rcases hpoint with rfl | rfl <;> decide⟩) text
    have hnext := findNumbers_runs hminus hmark hafter rest false run'
      ⟨hrun, hdigits, fun joined hj => h.rest joined (List.mem_cons_of_mem _ (List.mem_cons_of_mem _ hj))⟩
    have hread := h.read_pair
    rw [joinedText_cons, joinedText_cons, List.cons_append, List.append_assoc, List.cons_append, List.append_assoc,
      hmatch, hskip, hread, List.map_cons, List.cons_append, ← hnext]
    rfl

theorem blocks_skip (skip : Nat) (text : List Char) : blocks isDigit skip text = blocks isDigit 0 (text.drop skip) := by
  induction text generalizing skip with
  | nil => simp [blocks]
  | cons c text ih =>
    cases skip with
    | zero => rfl
    | succ skip => exact ih skip

/-- The expression finds in a text what it reads of its blocks. -/
theorem findNumbers_eq (hminus : isDigit '-' = false) (hmark : ∀ c, c = ',' ∨ c = '.' → isDigit c = false)
    (text : List Char) :
    findNumbers isDigit 0 text = ((blocks isDigit 0 text).flatMap Block.read).map Numeral.text := by
  induction hlen : text.length using Nat.strong_induction_on generalizing text with
  | _ n ih =>
    cases text with
    | nil => rfl
    | cons c text =>
      rw [blocks]
      cases hb : blockAt? isDigit (c :: text) with
      | none =>
        rw [findNumbers, numberAt?_none hb]
        exact ih text.length (by simp [← hlen]) text rfl
      | some b =>
        obtain ⟨hsound, after, htext, hafter⟩ := blockAt?_some hb
        have hpos : 0 < b.text.length := by
          have := List.length_pos_iff.mpr hsound.first
          simp only [Block.text, List.length_append]
          omega
        have hdrop : text.drop (b.text.length - 1) = after := by
          have hcons : (c :: text).drop b.text.length = after := by rw [htext, List.drop_left]
          obtain ⟨k, hk⟩ := Nat.exists_eq_succ_of_ne_zero hpos.ne'
          rw [hk, List.drop_succ_cons] at hcons
          rw [hk, Nat.succ_sub_one, hcons]
        have hshorter : after.length < n := by
          rw [← hlen, htext, List.length_append]
          omega
        dsimp only
        rw [blocks_skip, hdrop, htext, Block.text, List.append_assoc, List.append_assoc,
          findNumbers_runs hminus hmark hafter b.rest b.negative b.first hsound, ih _ hshorter after rfl,
          List.flatMap_cons, List.map_append]

/-- Every block of a text is sound. -/
theorem sound_of_mem_blocks {skip : Nat} {text : List Char} {b : Block} (h : b ∈ blocks isDigit skip text) :
    b.Sound isDigit := by
  induction text generalizing skip with
  | nil => cases skip <;> cases h
  | cons c text ih =>
    cases skip with
    | succ skip => exact ih h
    | zero =>
      rw [blocks] at h
      cases hb : blockAt? isDigit (c :: text) with
      | none =>
        rw [hb] at h
        exact ih h
      | some found =>
        rw [hb] at h
        rcases List.mem_cons.mp h with rfl | h
        · exact (blockAt?_some hb).1
        · exact ih h

end

/-! ## Where the two agree -/

/-- Runs of digits behind commas and points. -/
def Joined (rest : List (Char × List Char)) : Prop := ∀ joined ∈ rest, (joined.1 = ',' ∨ joined.1 = '.') ∧ joined.2 ≠ []

section
variable {takes : Numeral → Char → List Char → Bool}
  (htakes : ∀ n mark run, takes n mark run = true → n.fraction = [])
include htakes

/-- The first numeral of a cut has the marks that it starts with. -/
theorem cut_head {rest : List (Char × List Char)} (hrest : Joined rest) {n : Numeral} (hgroups : n.groups ≠ []) :
    ∃ m more, cut takes n rest = m :: more ∧ n.marks ≤ m.marks := by
  induction rest generalizing n with
  | nil => exact ⟨n, [], rfl, le_rfl⟩
  | cons joined rest ih =>
    obtain ⟨mark, run⟩ := joined
    obtain ⟨⟨hmark, hrun⟩, hrest⟩ := List.forall_mem_cons.mp hrest
    rw [cut]
    split
    · have hjoin : (n.join mark run).marks = n.marks + 1 :=
        Numeral.marks_join hgroups (htakes n mark run ‹_›) hmark hrun
      obtain ⟨m, more, hcut, hle⟩ := ih hrest (Numeral.groups_join hgroups mark run)
      exact ⟨m, more, hcut, by omega⟩
    · exact ⟨n, _, rfl, le_rfl⟩

end

theorem fraction_of_unmarked (n : Numeral) (mark : Char) (run : List Char) (h : n.unmarked mark run = true) :
    n.fraction = [] := by
  simp only [Numeral.unmarked, Numeral.marks, decide_eq_true_eq, Nat.add_eq_zero_iff, ite_eq_left_iff] at h
  by_contra hne
  exact absurd (h.2 hne) one_ne_zero

theorem fraction_of_takes (n : Numeral) (mark : Char) (run : List Char) (h : n.takes mark run = true) :
    n.fraction = [] := by
  simp only [Numeral.takes, Bool.and_eq_true, decide_eq_true_eq] at h
  exact h.1

/-- Runs are read as written exactly if no numeral has two marks and none without any is followed by another. -/
theorem cut_eq_iff {rest : List (Char × List Char)} (hrest : Joined rest) {n : Numeral} (hgroups : n.groups ≠ [])
    (hmarks : n.marks ≤ 1) :
    cut Numeral.unmarked n rest = cut Numeral.takes n rest ↔
      (∀ m ∈ cut Numeral.takes n rest, m.marks ≤ 1) ∧ ∀ m ∈ (cut Numeral.takes n rest).dropLast, m.marks = 1 := by
  induction rest generalizing n with
  | nil => simpa [cut] using hmarks
  | cons joined rest ih =>
    obtain ⟨mark, run⟩ := joined
    obtain ⟨⟨hmark, hrun⟩, hrest⟩ := List.forall_mem_cons.mp hrest
    have hgroup : (Numeral.ofRun false run).groups ≠ [] := List.cons_ne_nil run []
    have hanew := ih hrest hgroup (Nat.zero_le 1)
    obtain ⟨first, more, hwritten, -⟩ := cut_head fraction_of_takes hrest hgroup
    have hgroups' := Numeral.groups_join hgroups mark run
    rw [cut, cut]
    by_cases hzero : n.marks = 0
    · have hunmarked : n.unmarked mark run = true := decide_eq_true hzero
      have hjoin : (n.join mark run).marks = n.marks + 1 :=
        Numeral.marks_join hgroups (fraction_of_unmarked n mark run hunmarked) hmark hrun
      rw [if_pos hunmarked]
      by_cases htaken : n.takes mark run = true
      · rw [if_pos htaken]
        exact ih hrest hgroups' (by omega)
      · -- the expression takes the run to the numeral, where another one begins
        rw [if_neg htaken]
        obtain ⟨m, _, hread, hle⟩ := cut_head fraction_of_unmarked hrest hgroups'
        refine iff_of_false (fun heq => ?_) fun h => ?_
        · rw [hread] at heq
          rw [(List.cons.inj heq).1] at hle
          omega
        · have hone := h.2 n (by rw [hwritten]; exact List.mem_cons_self)
          omega
    · have hunmarked : ¬ n.unmarked mark run = true := fun h => hzero (of_decide_eq_true h)
      rw [if_neg hunmarked]
      by_cases htaken : n.takes mark run = true
      · -- the numeral goes on, where the expression has had its pair
        rw [if_pos htaken]
        have hjoin : (n.join mark run).marks = n.marks + 1 :=
          Numeral.marks_join hgroups (fraction_of_takes n mark run htaken) hmark hrun
        obtain ⟨m, _, hread, hle⟩ := cut_head fraction_of_takes hrest hgroups'
        refine iff_of_false (fun heq => ?_) fun h => ?_
        · rw [hread] at heq
          rw [← (List.cons.inj heq).1] at hle
          omega
        · have hone := h.1 m (by rw [hread]; exact List.mem_cons_self)
          omega
      · rw [if_neg htaken, List.cons_inj_right, hanew]
        have hone : n.marks = 1 := by omega
        rw [hwritten, List.dropLast_cons_cons]
        simp only [List.forall_mem_cons]
        exact ⟨fun h => ⟨⟨hmarks, h.1⟩, hone, h.2⟩, fun h => ⟨h.1.2, h.2.2⟩⟩

/-- A plain block, and no other, is read as it is written. -/
theorem Block.Sound.read_eq_written {isDigit : Char → Bool} {b : Block} (h : b.Sound isDigit) :
    b.read = b.written ↔ b.Plain :=
  cut_eq_iff (fun joined hj => ⟨(h.rest joined hj).1, (h.rest joined hj).2.1⟩) (List.cons_ne_nil b.first [])
    (Nat.zero_le 1)

/-! ## Values -/

def natOf (digit : Char → Nat) (run : List Char) : Nat := run.foldl (fun n c => 10 * n + digit c) 0

/-- The double nearest to a decimal. -/
def decimal (digit : Char → Nat) (negative : Bool) (whole fraction : List Char) : Double :=
  let places : Nat := 10 ^ fraction.length
  Floating.ofNumber _ (.finite negative (natOf digit whole + natOf digit fraction / places))

def Numeral.value (digit : Char → Nat) (n : Numeral) : Double := decimal digit n.negative n.groups.flatten n.fraction

/-- `\d` matches no comma, point or minus, and `float()` of a decimal is the double nearest to it. -/
structure Texts.Reads (x : Texts) (digit : Char → Nat) : Prop where
  minus : x.isDigit '-' = false
  mark : ∀ c, c = ',' ∨ c = '.' → x.isDigit c = false
  float : ∀ negative whole fraction, whole ≠ [] → (∀ c ∈ whole ++ fraction, x.isDigit c = true) →
    x.float? (String.ofList (signOf negative ++ whole ++ pointed fraction)) =
      some (decimal digit negative whole fraction)

/-- Digits, of which there are some before the point. -/
structure Numeral.Sound (isDigit : Char → Bool) (n : Numeral) : Prop where
  whole : n.groups.flatten ≠ []
  digits : ∀ c ∈ n.groups.flatten ++ n.fraction, isDigit c = true

section
variable {isDigit : Char → Bool}

theorem Numeral.Sound.join {n : Numeral} (h : n.Sound isDigit) (mark : Char) {run : List Char}
    (hrun : ∀ c ∈ run, isDigit c = true) : (n.join mark run).Sound isDigit := by
  obtain ⟨hwhole, hdigits⟩ := h
  unfold Numeral.join
  split
  · refine ⟨by simp [hwhole], fun c hc => ?_⟩
    simp only [List.flatten_append, List.flatten_singleton, List.mem_append] at hc
    rcases hc with (hc | hc) | hc
    · exact hdigits c (List.mem_append_left _ hc)
    · exact hrun c hc
    · exact hdigits c (List.mem_append_right _ hc)
  · refine ⟨hwhole, fun c hc => ?_⟩
    rcases List.mem_append.mp hc with hc | hc
    · exact hdigits c (List.mem_append_left _ hc)
    · exact hrun c hc

theorem sound_ofRun (negative : Bool) {run : List Char} (hne : run ≠ []) (hrun : ∀ c ∈ run, isDigit c = true) :
    (Numeral.ofRun negative run).Sound isDigit :=
  ⟨by simpa [Numeral.ofRun] using hne, fun c hc => hrun c (by simpa [Numeral.ofRun] using hc)⟩

theorem sound_of_mem_cut {takes : Numeral → Char → List Char → Bool} {rest : List (Char × List Char)}
    (hrest : ∀ joined ∈ rest, joined.2 ≠ [] ∧ ∀ c ∈ joined.2, isDigit c = true) {n : Numeral} (hn : n.Sound isDigit) :
    ∀ m ∈ cut takes n rest, m.Sound isDigit := by
  induction rest generalizing n with
  | nil =>
    intro m hm
    rw [List.mem_singleton.mp hm]
    exact hn
  | cons joined rest ih =>
    obtain ⟨mark, run⟩ := joined
    obtain ⟨⟨hne, hrun⟩, hrest⟩ := List.forall_mem_cons.mp hrest
    rw [cut]
    split
    · exact ih hrest (hn.join mark hrun)
    · intro m hm
      rcases List.mem_cons.mp hm with rfl | hm
      · exact hn
      · exact ih hrest (sound_ofRun false hne hrun) m hm

theorem Block.Sound.read {b : Block} (h : b.Sound isDigit) : ∀ n ∈ b.read, n.Sound isDigit :=
  sound_of_mem_cut (fun joined hj => (h.rest joined hj).2) (sound_ofRun b.negative h.first h.digits)

/-- Without the commas. -/
theorem Numeral.Sound.filter_text {n : Numeral} (h : n.Sound isDigit) (hcomma : isDigit ',' = false) :
    n.text.filter (· ≠ ',') = signOf n.negative ++ n.groups.flatten ++ pointed n.fraction := by
  have hdigit : ∀ c, isDigit c = true → decide (c ≠ ',') = true := fun c hc =>
    decide_eq_true fun heq => by
      rw [heq, hcomma] at hc
      cases hc
  have hsign : (signOf n.negative).filter (· ≠ ',') = signOf n.negative := by cases n.negative <;> rfl
  have hpoint : (pointed n.fraction).filter (· ≠ ',') = pointed n.fraction := by
    unfold pointed
    split
    · rfl
    · rw [List.filter_eq_self]
      intro c hc
      rcases List.mem_cons.mp hc with rfl | hc
      · rfl
      · exact hdigit c (h.digits c (List.mem_append_right _ hc))
  have hgroups : ∀ groups : List (List Char), (∀ c ∈ groups.flatten, isDigit c = true) →
      ([','].intercalate groups).filter (· ≠ ',') = groups.flatten := by
    intro groups
    induction groups with
    | nil => exact fun _ => rfl
    | cons group groups ih =>
      intro hall
      have hgroup : group.filter (· ≠ ',') = group :=
        List.filter_eq_self.mpr fun c hc => hdigit c (hall c (List.mem_append_left _ hc))
      have hmore := ih fun c hc => hall c (List.mem_append_right _ hc)
      cases groups with
      | nil => simpa using hgroup
      | cons next groups =>
        rw [List.intercalate_cons_cons, List.filter_append, List.filter_append, hgroup, hmore]
        simp
  rw [Numeral.text, List.filter_append, List.filter_append, hsign, hpoint,
    hgroups n.groups fun c hc => h.digits c (List.mem_append_left _ hc)]

end

/-- The numbers of a text are the values of the numerals that its blocks are read as. -/
theorem Texts.Reads.numbersIn {x : Texts} {digit : Char → Nat} (hx : x.Reads digit) (text : String) :
    x.numbersIn text = ((blocks x.isDigit 0 text.toList).flatMap Block.read).map (Numeral.value digit) := by
  have hvalue : ∀ n ∈ (blocks x.isDigit 0 text.toList).flatMap Block.read,
      x.float? (String.ofList (n.text.filter (· ≠ ','))) = some (n.value digit) := by
    intro n hn
    obtain ⟨b, hb, hn⟩ := List.mem_flatMap.mp hn
    have hsound := (sound_of_mem_blocks hb).read n hn
    rw [hsound.filter_text (hx.mark ',' (Or.inl rfl)), hx.float _ _ _ hsound.whole hsound.digits]
    rfl
  rw [Texts.numbersIn, findNumbers_eq hx.minus hx.mark, List.filterMap_map, ← List.filterMap_eq_map]
  exact List.filterMap_congr hvalue

end TwinVoice.Xai
