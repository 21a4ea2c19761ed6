import TwinVoice.Nlu.Templates
import TwinVoice.Nlu.Words

/-! # The syntax of a template

A template is words, slots, groups of alternatives and optional parts. What is
written of it, with its brackets and spaces, `_parse` cuts into the same parts. -/

namespace TwinVoice.Nlu

open TwinVoice.Lib

/-! ## The syntax -/

inductive TemplatePart where
  | word (text : String)
  | slot (name : String)
  | group (alternatives : List (List TemplatePart))
  | optional (body : List TemplatePart)

namespace TemplatePart

/-- The part as it is written. -/
def text : TemplatePart → List Char
  | word w => w.toList
  | slot name => '{' :: name.toList ++ ['}']
  | group alternatives =>
    '(' :: List.intercalate ['|'] (alternatives.map fun alt => List.intercalate [' '] (alt.map fun p => p.text)) ++
      [')']
  | optional body => '[' :: List.intercalate [' '] (body.map fun p => p.text) ++ [']']
decreasing_by
  · have := List.sizeOf_lt_of_mem ‹alt ∈ alternatives›
    have := List.sizeOf_lt_of_mem ‹p ∈ alt›
    simp only [group.sizeOf_spec]
    omega
  · have := List.sizeOf_lt_of_mem ‹p ∈ body›
    simp only [optional.sizeOf_spec]
    omega

def slotNames : TemplatePart → List String
  | word _ => []
  | slot name => [name]
  | group alternatives => alternatives.flatMap fun alt => alt.flatMap fun p => p.slotNames
  | optional body => body.flatMap fun p => p.slotNames
decreasing_by
  · have := List.sizeOf_lt_of_mem ‹alt ∈ alternatives›
    have := List.sizeOf_lt_of_mem ‹p ∈ alt›
    simp only [group.sizeOf_spec]
    omega
  · have := List.sizeOf_lt_of_mem ‹p ∈ body›
    simp only [optional.sizeOf_spec]
    omega

/-- A part that is not left out and is no function word. -/
def Required : TemplatePart → Prop
  | word w => w ∉ filler
  | slot _ | group _ => True
  | optional _ => False

end TemplatePart

/-- The parts as they are written, with single spaces. -/
def render (parts : List TemplatePart) : List Char := List.intercalate [' '] (parts.map TemplatePart.text)

def Anchored (parts : List TemplatePart) : Prop := ∃ p ∈ parts, p.Required

/-- A text without characters that mean something in a template. -/
def Lexicon.Ordinary (x : Lexicon) (w : String) : Prop :=
  w ≠ "" ∧ ∀ c ∈ w.toList, c ∉ [' ', '|', '(', ')', '[', ']', '{', '}'] ∧ x.tables.isSpace c = false

/-- The documented syntax: no group stands in a group and no optional part in an optional part, and each
alternative and optional part has a required one. -/
inductive Documented (x : Lexicon) : Bool → Bool → TemplatePart → Prop
  | word {groups optionals : Bool} {w : String} (h : x.Ordinary w) : Documented x groups optionals (.word w)
  | slot {groups optionals : Bool} {name : String} (h : x.Ordinary name) : Documented x groups optionals (.slot name)
  | group {optionals : Bool} {alternatives : List (List TemplatePart)} (hne : alternatives ≠ [])
      (hanchored : ∀ alt ∈ alternatives, Anchored alt)
      (h : ∀ alt ∈ alternatives, ∀ p ∈ alt, Documented x false optionals p) :
      Documented x true optionals (.group alternatives)
  | optional {groups : Bool} {body : List TemplatePart} (hanchored : Anchored body)
      (h : ∀ p ∈ body, Documented x groups false p) : Documented x groups true (.optional body)

/-! ## The text is read back -/

/-- What the loop of `_parse` finds where the part stands. -/
def TemplatePart.item : TemplatePart → Item
  | word w => .literal w.toList
  | slot name => .slot name.toList
  | group alternatives => .group (List.intercalate ['|'] (alternatives.map render))
  | optional body => .optional (render body)

theorem text_group (alternatives : List (List TemplatePart)) :
    (TemplatePart.group alternatives).text = '(' :: List.intercalate ['|'] (alternatives.map render) ++ [')'] := by
  rw [TemplatePart.text]
  rfl

theorem text_optional (body : List TemplatePart) : (TemplatePart.optional body).text = '[' :: render body ++ [']'] := by
  rw [TemplatePart.text]
  rfl

theorem mem_intercalate {c : Char} {sep : List Char} {ls : List (List Char)} (h : c ∈ List.intercalate sep ls) :
    c ∈ sep ∨ ∃ l ∈ ls, c ∈ l := by
  induction ls with
  | nil => cases h
  | cons l ls ih =>
    cases ls with
    | nil =>
      rw [List.intercalate_singleton] at h
      exact .inr ⟨l, List.mem_cons_self, h⟩
    | cons m ms =>
      rw [List.intercalate_cons_cons, List.mem_append, List.mem_append] at h
      rcases h with (hl | hsep) | hrest
      · exact .inr ⟨l, List.mem_cons_self, hl⟩
      · exact .inl hsep
      · exact (ih hrest).imp_right fun ⟨k, hk, hc⟩ => ⟨k, List.mem_cons_of_mem l hk, hc⟩

theorem mem_render {parts : List TemplatePart} {c : Char} (h : c ∈ render parts) :
    c = ' ' ∨ ∃ p ∈ parts, c ∈ p.text := by
  rcases mem_intercalate h with hspace | ⟨l, hl, hc⟩
  · exact .inl (List.mem_singleton.mp hspace)
  · obtain ⟨p, hp, rfl⟩ := List.mem_map.mp hl
    exact .inr ⟨p, hp, hc⟩

theorem mem_alternatives {alternatives : List (List TemplatePart)} {c : Char}
    (h : c ∈ List.intercalate ['|'] (alternatives.map render)) :
    c ∈ ['|', ' '] ∨ ∃ alt ∈ alternatives, ∃ p ∈ alt, c ∈ p.text := by
  rcases mem_intercalate h with hbar | ⟨l, hl, hc⟩
  · obtain rfl := List.mem_singleton.mp hbar
    exact .inl List.mem_cons_self
  · obtain ⟨alt, halt, rfl⟩ := List.mem_map.mp hl
    rcases mem_render hc with rfl | hpart
    · exact .inl (List.mem_cons_of_mem _ List.mem_cons_self)
    · exact .inr ⟨alt, halt, hpart⟩

theorem mem_bracketed {opener closer c : Char} {body : List Char} (h : c ∈ opener :: body ++ [closer]) :
    c ∈ [opener, closer] ∨ c ∈ body := by
  simp only [List.cons_append, List.mem_cons, List.mem_append, List.not_mem_nil, or_false] at h ⊢
  tauto

/-- Where no group may stand there is no closing round bracket and no bar. -/
theorem Documented.noGroup {x : Lexicon} {groups optionals : Bool} {p : TemplatePart}
    (h : Documented x groups optionals p) (hgroups : groups = false) : ∀ c ∈ p.text, c ≠ ')' ∧ c ≠ '|' := by
  intro c hc
  induction h with
  | word hw =>
    rw [TemplatePart.text] at hc
    have hplain := (hw.2 c hc).1
    constructor <;> (rintro rfl; exact absurd hplain (by decide))
  | slot hname =>
    rw [TemplatePart.text] at hc
    rcases mem_bracketed hc with hbrace | hin
    · constructor <;> (rintro rfl; exact absurd hbrace (by decide))
    · have hplain := (hname.2 c hin).1
      constructor <;> (rintro rfl; exact absurd hplain (by decide))
  | group => cases hgroups
  | optional _ _ ih =>
    rw [text_optional] at hc
    rcases mem_bracketed hc with hbracket | hin
    · constructor <;> (rintro rfl; exact absurd hbracket (by decide))
    · rcases mem_render hin with rfl | ⟨p, hp, hcp⟩
      · exact ⟨by decide, by decide⟩
      · exact ih p hp hgroups hcp

/-- Where no optional part may stand there is no closing square bracket. -/
theorem Documented.noOptional {x : Lexicon} {groups optionals : Bool} {p : TemplatePart}
    (h : Documented x groups optionals p) (hoptionals : optionals = false) : ']' ∉ p.text := by
  intro hc
  induction h with
  | word hw =>
    rw [TemplatePart.text] at hc
    exact absurd (hw.2 _ hc).1 (by decide)
  | slot hname =>
    rw [TemplatePart.text] at hc
    rcases mem_bracketed hc with hbrace | hin
    · exact absurd hbrace (by decide)
    · exact absurd (hname.2 _ hin).1 (by decide)
  | group _ _ _ ih =>
    rw [text_group] at hc
    rcases mem_bracketed hc with hbracket | hin
    · exact absurd hbracket (by decide)
    · rcases mem_alternatives hin with hsign | ⟨alt, halt, p, hp, hcp⟩
      · exact absurd hsign (by decide)
      · exact ih alt halt p hp hoptionals hcp
  | optional => cases hoptionals

/-- A text that does not begin or end with white space. -/
def Trim (x : Lexicon) (cs : List Char) : Prop :=
  cs ≠ [] ∧ (∀ c ∈ cs.head?, x.tables.isSpace c = false) ∧ ∀ c ∈ cs.getLast?, x.tables.isSpace c = false

theorem dropWhile_of_head {p : Char → Bool} {cs : List Char} (h : ∀ c ∈ cs.head?, p c = false) :
    cs.dropWhile p = cs := by
  cases cs with
  | nil => rfl
  | cons c cs => exact List.dropWhile_cons_of_neg (by simp [h c rfl])

theorem Trim.strip {x : Lexicon} {cs : List Char} (h : Trim x cs) : strip x.tables.isSpace cs = cs := by
  unfold Nlu.strip
  rw [dropWhile_of_head h.2.1, dropWhile_of_head (by rw [List.head?_reverse]; exact h.2.2), List.reverse_reverse]

theorem trim_bracketed {x : Lexicon} {opener closer : Char} (hopener : x.tables.isSpace opener = false)
    (hcloser : x.tables.isSpace closer = false) (body : List Char) : Trim x (opener :: body ++ [closer]) := by
  refine ⟨List.cons_ne_nil _ _, ?_, ?_⟩
  · intro c hc
    obtain rfl : opener = c := Option.some_inj.mp hc
    exact hopener
  · intro c hc
    rw [List.getLast?_concat] at hc
    obtain rfl := Option.some_inj.mp hc
    exact hcloser

theorem Documented.trim {x : Lexicon} (hu : x.tables.Ascii) {groups optionals : Bool} {p : TemplatePart}
    (h : Documented x groups optionals p) : Trim x p.text := by
  have hsigns : ∀ c ∈ ['(', ')', '[', ']', '{', '}'], x.tables.isSpace c = false := by
    have hprintable : ∀ c ∈ ['(', ')', '[', ']', '{', '}'], printable c = true ∧ c ≠ ' ' :=
      List.all_iff_forall_prop.mp (by decide)
    exact fun c hc => (hu.isSpace c (hprintable c hc).1).trans (decide_eq_false (hprintable c hc).2)
  cases h with
  | word hw =>
    rw [TemplatePart.text]
    refine ⟨by simpa using hw.1, fun c hc => (hw.2 c (List.mem_of_mem_head? hc)).2, fun c hc => ?_⟩
    exact (hw.2 c (List.mem_of_mem_getLast? hc)).2
  | slot =>
    rw [TemplatePart.text]
    exact trim_bracketed (hsigns _ (by decide)) (hsigns _ (by decide)) _
  | group =>
    rw [text_group]
    exact trim_bracketed (hsigns _ (by decide)) (hsigns _ (by decide)) _
  | optional =>
    rw [text_optional]
    exact trim_bracketed (hsigns _ (by decide)) (hsigns _ (by decide)) _

theorem trim_render {x : Lexicon} {parts : List TemplatePart} (hne : parts ≠ [])
    (h : ∀ p ∈ parts, Trim x p.text) : Trim x (render parts) := by
  induction parts with
  | nil => exact absurd rfl hne
  | cons p parts ih =>
    obtain ⟨hp, hparts⟩ := List.forall_mem_cons.mp h
    cases parts with
    | nil =>
      have hone : render [p] = p.text := List.intercalate_singleton
      rw [hone]
      exact hp
    | cons q parts =>
      obtain ⟨hrest, -, hlast⟩ := ih (List.cons_ne_nil q parts) hparts
      have hsplit : render (p :: q :: parts) = p.text ++ [' '] ++ render (q :: parts) := List.intercalate_cons_cons
      rw [hsplit]
      refine ⟨by simp, ?_, ?_⟩
      · rw [List.append_assoc, List.head?_append_of_ne_nil _ hp.1]
        exact hp.2.1
      · rw [List.getLast?_append_of_ne_nil _ hrest]
        exact hlast

/-- Splitting what was joined splits each text that was joined. -/
theorem splitOn_intercalate_flatMap {ls : List (List Char)} (hne : ls ≠ []) :
    (List.intercalate [' '] ls).splitOn ' ' = ls.flatMap fun l => l.splitOn ' ' := by
  induction ls with
  | nil => exact absurd rfl hne
  | cons l ls ih =>
    cases ls with
    | nil => simp
    | cons m ms =>
      rw [List.intercalate_cons_cons, List.append_assoc, List.singleton_append, List.splitOn_eq_splitOnP,
        List.splitOnP_append_cons _ _ (by decide), ← List.splitOn_eq_splitOnP, ← List.splitOn_eq_splitOnP,
        ih (List.cons_ne_nil m ms)]
      rfl

theorem upToCloser_text {closer : Char} {cs : List Char} (hclosed : closer ∉ cs) (hspace : closer ≠ ' ')
    (rest : List (List Char)) : upToCloser closer ((cs ++ [closer]).splitOn ' ' ++ rest) =
      some ((cs ++ [closer]).splitOn ' ', rest) := by
  induction hlen : cs.length using Nat.strong_induction_on generalizing cs with
  | _ n ih =>
    by_cases hin : ' ' ∈ cs
    · obtain ⟨a, b, rfl, ha⟩ := List.eq_append_cons_of_mem hin
      have hsplit : ((a ++ ' ' :: b) ++ [closer]).splitOn ' ' = a :: (b ++ [closer]).splitOn ' ' := by
        rw [List.append_assoc, List.cons_append, List.splitOn_eq_splitOnP,
          List.splitOnP_append_cons_of_forall_mem (fun c hc => ?_) _ (by decide), List.splitOn_eq_splitOnP]
        simpa using fun h : c = ' ' => ha (h ▸ hc)
      have hopen : a.getLast? ≠ some closer := fun h =>
        hclosed (List.mem_append_left _ (List.mem_of_mem_getLast? h))
      have hb : closer ∉ b := fun h => hclosed (List.mem_append_right _ (List.mem_cons_of_mem _ h))
      have hshorter : b.length < n := by
        simp only [← hlen, List.length_append, List.length_cons]
        omega
      rw [hsplit, List.cons_append, upToCloser, if_neg hopen, ih b.length hshorter hb rfl]
      rfl
    · have hsplit : (cs ++ [closer]).splitOn ' ' = [cs ++ [closer]] := by
        rw [List.splitOn_eq_splitOnP]
        refine List.splitOnP_eq_singleton fun c hc => ?_
        rcases List.mem_append.mp hc with hc | hc
        · simpa using fun h : c = ' ' => hin (h ▸ hc)
        · simpa [List.mem_singleton.mp hc] using hspace
      rw [hsplit, List.cons_append, upToCloser, if_pos List.getLast?_concat]
      rfl

theorem bracketed_text {opener closer : Char} {body : List Char} (hclosed : closer ∉ opener :: body)
    (hspace : closer ≠ ' ') (rest : List (List Char)) :
    bracketed closer ((opener :: body ++ [closer]).splitOn ' ' ++ rest) = some (body, rest) := by
  unfold bracketed
  rw [upToCloser_text hclosed hspace, Option.map_some, List.intercalate_splitOn]
  simp

/-- The first token begins as the text does. -/
theorem splitOn_cons {c : Char} (hc : c ≠ ' ') (cs : List Char) :
    ∃ token more, (c :: cs).splitOn ' ' = (c :: token) :: more := by
  cases hsplit : cs.splitOn ' ' with
  | nil => exact absurd hsplit (List.splitOn_ne_nil ' ' cs)
  | cons token more =>
    refine ⟨token, more, ?_⟩
    rw [List.splitOn_cons_eq_if_modifyHead, if_neg (by simpa using hc), hsplit]
    rfl

theorem items_group {token body : List Char} {more rest : List (List Char)}
    (h : bracketed ')' (('(' :: token) :: more) = some (body, rest)) :
    items (('(' :: token) :: more) = (items rest).map (.group body :: ·) := by
  rw [items, if_neg (by simp), if_pos List.head?_cons]
  split
  · rename_i hnone
    rw [h] at hnone
    cases hnone
  · rename_i hsome
    rw [h] at hsome
    obtain ⟨rfl, rfl⟩ := Prod.mk.inj (Option.some_inj.mp hsome)
    rfl

theorem items_optional {token body : List Char} {more rest : List (List Char)}
    (h : bracketed ']' (('[' :: token) :: more) = some (body, rest)) :
    items (('[' :: token) :: more) = (items rest).map (.optional body :: ·) := by
  rw [items, if_neg (by simp), if_neg (by simp), if_pos List.head?_cons]
  split
  · rename_i hnone
    rw [h] at hnone
    cases hnone
  · rename_i hsome
    rw [h] at hsome
    obtain ⟨rfl, rfl⟩ := Prod.mk.inj (Option.some_inj.mp hsome)
    rfl

theorem Lexicon.Ordinary.splitOn {x : Lexicon} {w : String} (h : x.Ordinary w) {front back : List Char}
    (hsigns : ' ' ∉ front ++ back) : (front ++ w.toList ++ back).splitOn ' ' = [front ++ w.toList ++ back] := by
  rw [List.splitOn_eq_splitOnP]
  refine List.splitOnP_eq_singleton fun c hc => ?_
  have hne : c ≠ ' ' := by
    rintro rfl
    rw [List.append_assoc, List.mem_append, List.mem_append] at hc
    rcases hc with hfront | hw | hback
    · exact hsigns (List.mem_append_left _ hfront)
    · exact absurd (h.2 _ hw).1 (by decide)
    · exact hsigns (List.mem_append_right _ hback)
  simpa using hne

theorem items_text {x : Lexicon} {groups optionals : Bool} {p : TemplatePart} (h : Documented x groups optionals p)
    (rest : List (List Char)) : items (p.text.splitOn ' ' ++ rest) = (items rest).map (p.item :: ·) := by
  cases h with
  | @word _ _ w hw =>
    have hsplit := @Lexicon.Ordinary.splitOn x w hw [] [] List.not_mem_nil
    rw [List.nil_append, List.append_nil] at hsplit
    have hhead (c : Char) (hc : c ∈ ['{', '(', '[']) : w.toList.head? ≠ some c := by
      intro hfirst
      have hplain := (hw.2 c (List.mem_of_mem_head? hfirst)).1
      have hall : ∀ d ∈ ['{', '(', '['], d ∈ [' ', '|', '(', ')', '[', ']', '{', '}'] :=
        List.all_iff_forall_prop.mp (by decide)
      exact hplain (hall c hc)
    rw [TemplatePart.text, hsplit, List.singleton_append, items, if_neg fun h => hhead '{' (by decide) h.1,
      if_neg (hhead '(' (by decide)), if_neg (hhead '[' (by decide))]
    rfl
  | @slot _ _ name hname =>
    have hsplit := @Lexicon.Ordinary.splitOn x name hname ['{'] ['}'] (by decide)
    rw [TemplatePart.text, List.cons_append, ← List.singleton_append, ← List.append_assoc, hsplit,
      List.singleton_append, items, if_pos ⟨rfl, List.getLast?_concat⟩]
    simp [TemplatePart.item]
  | @group _ alternatives _ _ hparts =>
    have hclosed : ')' ∉ '(' :: List.intercalate ['|'] (alternatives.map render) := by
      intro hc
      rcases List.mem_cons.mp hc with hc | hc
      · cases hc
      · rcases mem_alternatives hc with hsign | ⟨alt, halt, p, hp, hcp⟩
        · exact absurd hsign (by decide)
        · exact ((hparts alt halt p hp).noGroup rfl _ hcp).1 rfl
    obtain ⟨token, more, hsplit⟩ :=
      @splitOn_cons '(' (by decide) (List.intercalate ['|'] (alternatives.map render) ++ [')'])
    have hbody := bracketed_text hclosed (by decide) rest
    rw [List.cons_append, hsplit] at hbody
    rw [text_group, List.cons_append, hsplit]
    exact items_group hbody
  | @optional _ body _ hparts =>
    have hclosed : ']' ∉ '[' :: render body := by
      intro hc
      rcases List.mem_cons.mp hc with hc | hc
      · cases hc
      · rcases mem_render hc with hspace | ⟨p, hp, hcp⟩
        · cases hspace
        · exact (hparts p hp).noOptional rfl hcp
    obtain ⟨token, more, hsplit⟩ := @splitOn_cons '[' (by decide) (render body ++ [']'])
    have hbody := bracketed_text hclosed (by decide) rest
    rw [List.cons_append, hsplit] at hbody
    rw [text_optional, List.cons_append, hsplit]
    exact items_optional hbody

theorem items_render {x : Lexicon} {groups optionals : Bool} {parts : List TemplatePart} (hne : parts ≠ [])
    (h : ∀ p ∈ parts, Documented x groups optionals p) :
    items ((render parts).splitOn ' ') = some (parts.map TemplatePart.item) := by
  have htexts (parts : List TemplatePart) (h : ∀ p ∈ parts, Documented x groups optionals p) :
      items ((parts.map TemplatePart.text).flatMap fun l => l.splitOn ' ') = some (parts.map TemplatePart.item) := by
    induction parts with
    | nil => rw [List.map_nil, List.flatMap_nil, items, List.map_nil]
    | cons p parts ih =>
      obtain ⟨hp, hparts⟩ := List.forall_mem_cons.mp h
      rw [List.map_cons, List.flatMap_cons, items_text hp, ih hparts]
      rfl
  unfold render
  rw [splitOn_intercalate_flatMap (by simpa using hne), htexts parts h]

end TwinVoice.Nlu
