import Mathlib.Data.List.MinMax
import Mathlib.Data.Prod.Lex
import Mathlib.Tactic.NormNum
import TwinVoice.Nlu.TemplateLanguage

/-! # The best reading

`rules.py`: an utterance is matched in full by the templates of the catalogue,
first as they are and then with filler around them, and what their groups
captured are the slots. The backtracking search of `re` finds a match where
there is one, and the reading with the least key is taken. -/

namespace TwinVoice.Nlu

open TwinVoice.Lib

/-! ## The search of a slot -/

namespace Lexicon

variable (x : Lexicon)

/-- The search of `_REFERENCE`, the one pattern with a lazy repetition: the index is taken where there is one. -/
def referenceSearch : Search Char :=
  (x.wordRun.search fun _ => none).andThen
    ((((Regex.seq x.spaces x.wordRun).search fun _ => none).lazyUpTo 2).andThen
      ((Regex.seq x.spaces x.index).search fun _ => none).opt)

/-- The search of a slot whose pattern is not greedy throughout. -/
def slotSearch (type : String) : Option (Search Char) :=
  if type = "asset" ∨ type = "alarm" then some x.referenceSearch else none

end Lexicon

section
variable {x : Lexicon} {intent : Intent} {fills : String → List Char → Prop}

/-- Without groups there is nothing to fill. -/
theorem explores_plain {r : Regex Char} (h : r.names = []) : (r.search fun _ => none).Explores r.lang fills := by
  have hnone : r.groups = [] := Regex.groups_of_names h
  refine Regex.explores_search r (fun _ _ _ m hm => absurd hm (Option.not_mem_none m)) fun name s hgroup => ?_
  rw [hnone] at hgroup
  exact absurd hgroup List.not_mem_nil

theorem explores_reference : x.referenceSearch.Explores x.reference.lang fills := by
  have hname : (x.wordRun.search fun _ => none).Explores x.wordRun.lang fills := explores_plain rfl
  have hmore : ((Regex.seq x.spaces x.wordRun).search fun _ => none).Explores
      (Regex.seq x.spaces x.wordRun).lang fills := explores_plain rfl
  have hindex : ((Regex.seq x.spaces x.index).search fun _ => none).Explores
      (Regex.seq x.spaces x.index).lang fills := by
    refine explores_plain ?_
    unfold Lexicon.index
    rw [Regex.names, Regex.names, names_alternation]
    rfl
  have hlang : x.reference.lang = x.wordRun.lang * (((Regex.seq x.spaces x.wordRun).upTo 2).lang *
      ((Regex.seq x.spaces x.index).lang + 1)) := mul_assoc _ _ _
  exact hlang ▸ hname.andThen ((hmore.lazyUpTo 2).andThen hindex.opt)

theorem explores_slot (type : String) :
    ∀ m ∈ x.slotSearch type, m.Explores (x.slotPattern type).lang fills := by
  intro m hm
  unfold Lexicon.slotSearch at hm
  split at hm
  · obtain rfl : x.referenceSearch = m := Option.some_inj.mp hm
    rename_i htype
    rcases htype with rfl | rfl
    · exact explores_reference
    · exact explores_reference
  · cases hm

/-! ## The groups of a template -/

/-- Every group is a slot of the intent, with the pattern of its type. -/
def SlotGroups (x : Lexicon) (intent : Intent) (r : Regex Char) : Prop :=
  ∀ e ∈ r.groups, e.2 = x.slotPattern (slotTypeOf intent e.1)

theorem slotGroups_of_names {r : Regex Char} (h : r.names = []) : SlotGroups x intent r := by
  intro e he
  rw [Regex.groups_of_names h] at he
  exact absurd he List.not_mem_nil

theorem slotGroups_seq {r s : Regex Char} (hr : SlotGroups x intent r) (hs : SlotGroups x intent s) :
    SlotGroups x intent (.seq r s) := fun e he => (List.mem_append.mp he).elim (hr e) (hs e)

theorem slotGroups_anyOf {rs : List (Regex Char)} (h : ∀ r ∈ rs, SlotGroups x intent r) :
    SlotGroups x intent (.anyOf rs) := by
  intro e he
  rw [Regex.groups_anyOf] at he
  obtain ⟨r, hr, he⟩ := List.mem_flatMap.mp he
  exact h r hr e he

theorem slotGroups_opt {r : Regex Char} (h : SlotGroups x intent r) : SlotGroups x intent r.opt :=
  fun e he => (List.mem_append.mp he).elim (h e) fun hempty => absurd hempty List.not_mem_nil

theorem slotGroups_join {fragments : List Fragment} (h : ∀ f ∈ fragments, SlotGroups x intent f.regex) :
    SlotGroups x intent (x.join fragments) := by
  have hspaces : SlotGroups x intent x.spaces := slotGroups_of_names rfl
  have hfold (out : Regex Char × Bool) (hout : SlotGroups x intent out.1) :
      SlotGroups x intent (fragments.foldl x.joinStep out).1 := by
    induction fragments generalizing out with
    | nil => exact hout
    | cons f fragments ih =>
      obtain ⟨hf, hrest⟩ := List.forall_mem_cons.mp h
      refine ih hrest _ ?_
      unfold Lexicon.joinStep
      split
      · refine slotGroups_seq hout (slotGroups_opt ?_)
        split
        · exact slotGroups_seq hspaces hf
        · exact slotGroups_seq hf hspaces
      · refine slotGroups_seq hout ?_
        split
        · exact slotGroups_seq hspaces hf
        · exact hf
  exact hfold (.empty, false) (slotGroups_of_names rfl)

theorem slotGroups_literal (token : String) : SlotGroups x intent (literal token).regex := by
  unfold literal
  split
  · exact slotGroups_of_names (names_alternation filler)
  · exact slotGroups_of_names (names_anyOf_texts _)

theorem slotGroups_fragment {parseInner : List Char → Option (List Fragment)}
    (hinner : ∀ body parts, parseInner body = some parts → ∀ f ∈ parts, SlotGroups x intent f.regex) {item : Item}
    {f : Fragment} (h : x.fragment intent parseInner item = some f) : SlotGroups x intent f.regex := by
  cases item with
  | literal token =>
    obtain rfl := Option.some_inj.mp h
    exact slotGroups_literal _
  | slot name =>
    obtain rfl := Option.some_inj.mp h
    refine List.forall_mem_cons.mpr ⟨rfl, ?_⟩
    exact slotGroups_of_names (names_slotPattern x (slotTypeOf intent (String.ofList name)))
  | group body =>
    obtain ⟨options, hoptions, rfl⟩ := Option.map_eq_some_iff.mp h
    refine slotGroups_anyOf fun r hr => ?_
    obtain ⟨option, -, hoption⟩ := exists_of_forall₂ (mapM_eq_some_iff.mp hoptions).flip hr
    obtain ⟨parts, hparts, rfl⟩ := Option.map_eq_some_iff.mp hoption
    exact slotGroups_join (hinner _ parts hparts)
  | optional body =>
    obtain ⟨parts, hparts, rfl⟩ := Option.map_eq_some_iff.mp h
    exact slotGroups_join (hinner _ parts hparts)

theorem slotGroups_keepAnAnchor {parts : List Fragment} (h : ∀ f ∈ parts, SlotGroups x intent f.regex) :
    ∀ f ∈ keepAnAnchor parts, SlotGroups x intent f.regex := by
  unfold keepAnAnchor
  split
  · exact h
  · cases parts with
    | nil => exact h
    | cons f parts => exact List.forall_mem_cons.mpr (List.forall_mem_cons.mp h)

theorem slotGroups_parse {depth : Nat} {template : List Char} {parts : List Fragment}
    (h : x.parse intent depth template = some parts) : ∀ f ∈ parts, SlotGroups x intent f.regex := by
  induction depth generalizing template parts with
  | zero => cases h
  | succ depth ih =>
    obtain ⟨found, -, hfound⟩ := Option.bind_eq_some_iff.mp h
    obtain ⟨fragments, hfragments, rfl⟩ := Option.map_eq_some_iff.mp hfound
    refine slotGroups_keepAnAnchor fun f hf => ?_
    obtain ⟨item, -, hitem⟩ := exists_of_forall₂ (mapM_eq_some_iff.mp hfragments).flip hf
    exact slotGroups_fragment (fun body parts hparts => ih hparts) hitem

end

/-! ## Readings -/

/-- The passes of `match`. -/
inductive Pass
  | exact | relaxed

/-- `EXACT_CONFIDENCE` and `RELAXED_CONFIDENCE`, the doubles nearest to 0.95 and 0.8. -/
def Pass.confidence : Pass → Rat
  | .exact => 4278419646001971 / 4503599627370496
  | .relaxed => 3602879701896397 / 4503599627370496

/-- A rule match with what it is ranked by. -/
structure Reading extends RuleMatch where
  template : String
  openSlots : Nat
  splitReference : Bool

/-- `_captured_chars` -/
def capturedChars (slots : List (String × String)) : Nat := (slots.map fun s => s.2.length).sum

/-- What `_best` compares: a reference torn in half first, then the characters left to slots. -/
def Reading.key (r : Reading) : Bool ×ₗ Nat ×ₗ Nat ×ₗ Nat :=
  toLex (r.splitReference, toLex (capturedChars r.slots, toLex (r.openSlots, r.slots.length)))

/-- `_best`: the first with the least key. -/
def best (candidates : List Reading) : Option Reading := candidates.argmin Reading.key

def referenceSlots : List String := ["asset", "alarm", "scope"]

/-- A group by its name; were it filled twice, the last time counts. -/
def group (found : List (Capture Char)) (name : String) : Option (Capture Char) :=
  (found.filter fun c => c.name = name).getLast?

namespace Lexicon

variable (x : Lexicon)

/-- `groupdict()`, without the groups that hold nothing but white space. -/
def capturedSlots (found : List (Capture Char)) (names : List String) : List (String × String) :=
  names.filterMap fun name =>
    (group found name).bind fun c =>
      let value := strip x.tables.isSpace c.value
      if value = [] then none else some (name, String.ofList value)

/-- `_splits_a_reference`: a number word comes next after a machine, an alarm or a scope. -/
def splitsAReference (found : List (Capture Char)) : Bool :=
  referenceSlots.any fun name =>
    (group found name).any fun c =>
      (tokens x.tables.isSpace c.after).head?.any fun word => String.ofList word ∈ numberWords.map Prod.fst

/-- A template that compiles, with the intent it is one of. -/
structure Template (isIdentifier : String → Bool) where
  intent : Intent
  lang : String
  source : String
  compiled : CompiledTemplate
  compiles : x.compileTemplate isIdentifier intent lang source = some compiled

variable {x} {isIdentifier : String → Bool}

namespace Template

variable (t : x.Template isIdentifier)

def pattern : Pass → Regex Char
  | .exact => t.compiled.pattern
  | .relaxed => t.compiled.relaxed

/-- What `fullmatch` tries, one way after another. -/
def search : Pass → Search Char
  | .exact => t.compiled.pattern.search fun name => x.slotSearch (slotTypeOf t.intent name)
  | .relaxed =>
    let anything : Search Char := (Search.letter (· ≠ '\n')).lazyStar
    let space : Search Char := .letter x.tables.isSpace
    let body := t.compiled.pattern.search fun name => x.slotSearch (slotTypeOf t.intent name)
    (anything.andThen space).opt.andThen (body.andThen (space.andThen anything).opt)

/-- The candidate of the template in a pass. -/
def read? (pass : Pass) (utterance : String) : Option Reading :=
  ((t.search pass).full utterance.toList).map fun found => {
    intent := t.compiled.intent
    lang := t.compiled.lang
    slots := x.capturedSlots found t.compiled.slots
    confidence := pass.confidence
    template := t.compiled.source
    openSlots := t.compiled.openSlots
    splitReference := x.splitsAReference found }

end Template

/-- The candidates of a pass. -/
def candidates (templates : List (x.Template isIdentifier)) (pass : Pass) (utterance : String) : List Reading :=
  templates.filterMap fun t => t.read? pass utterance

def match? (templates : List (x.Template isIdentifier)) (text : String) : Option Reading :=
  let utterance := normalise x.tables text
  if utterance = "" then none
  else (best (candidates templates .exact utterance)).or (best (candidates templates .relaxed utterance))

end Lexicon

/-! ## What is read -/

theorem strip_within (p : Char → Bool) (cs : List Char) : strip p cs <:+: cs := by
  have hends : (strip p cs).reverse <:+: (cs.dropWhile p).reverse := by
    unfold strip
    rw [List.reverse_reverse]
    exact (List.dropWhile_suffix p).isInfix
  exact (List.reverse_infix.mp hends).trans (List.dropWhile_suffix p).isInfix

theorem mem_best {candidates : List Reading} {r : Reading} (h : best candidates = some r) :
    r ∈ candidates ∧ ∀ other ∈ candidates, r.key ≤ other.key :=
  ⟨List.argmin_mem h, fun _ hother => List.le_of_mem_argmin hother h⟩

namespace Lexicon

variable {x : Lexicon} {isIdentifier : String → Bool}

theorem captured_eq_some {found : List (Capture Char)} {name : String} {e : String × String}
    (h : ((group found name).bind fun c =>
      let value := strip x.tables.isSpace c.value
      if value = [] then none else some (name, String.ofList value)) = some e) :
    ∃ c ∈ found, c.name = name ∧ strip x.tables.isSpace c.value ≠ [] ∧
      e = (name, String.ofList (strip x.tables.isSpace c.value)) := by
  obtain ⟨c, hc, hvalue⟩ := Option.bind_eq_some_iff.mp h
  obtain ⟨hmem, hname⟩ := List.mem_filter.mp (List.mem_of_getLast? hc)
  dsimp only at hvalue
  split at hvalue
  · cases hvalue
  · rename_i hne
    exact ⟨c, hmem, of_decide_eq_true hname, hne, (Option.some_inj.mp hvalue).symm⟩

theorem mem_capturedSlots {found : List (Capture Char)} {names : List String} {name value : String}
    (h : (name, value) ∈ x.capturedSlots found names) : name ∈ names ∧ value ≠ "" ∧
      ∃ c ∈ found, c.name = name ∧ value.toList = strip x.tables.isSpace c.value := by
  obtain ⟨name', hname, hcaptured⟩ := List.mem_filterMap.mp h
  obtain ⟨c, hc, hcname, hne, heq⟩ := captured_eq_some hcaptured
  obtain ⟨rfl, rfl⟩ := Prod.mk.inj heq
  refine ⟨hname, fun hempty => hne ?_, c, hc, hcname, String.toList_ofList⟩
  exact String.toList_ofList.symm.trans (congrArg String.toList hempty)

/-- The slots stand in the order of the names. -/
theorem capturedSlots_sublist (found : List (Capture Char)) (names : List String) :
    ((x.capturedSlots found names).map Prod.fst).Sublist names := by
  induction names with
  | nil => exact .slnil
  | cons name names ih =>
    unfold capturedSlots
    rw [List.filterMap_cons]
    split
    · exact ih.cons name
    · rename_i e he
      obtain ⟨-, -, -, -, rfl⟩ := captured_eq_some he
      exact ih.cons_cons name

/-- What `compile_template` puts together. -/
theorem compileTemplate_eq_some {intent : Intent} {lang template : String} {compiled : CompiledTemplate}
    (h : x.compileTemplate isIdentifier intent lang template = some compiled) :
    (compiled.intent = intent.name ∧ compiled.lang = lang ∧ compiled.source = template) ∧
      SlotGroups x intent compiled.pattern ∧
      (compiled.slots = compiled.pattern.names ∧ compiled.pattern.names.Nodup) ∧
      compiled.relaxed = .seq (.opt (.seq (.star (.letter (· ≠ '\n'))) (.letter x.tables.isSpace)))
        (.seq compiled.pattern (.opt (.seq (.letter x.tables.isSpace) (.star (.letter (· ≠ '\n')))))) := by
  obtain ⟨parts, hparts, hif⟩ := Option.bind_eq_some_iff.mp h
  dsimp only at hif
  split at hif
  · rename_i hnames
    obtain rfl := Option.some_inj.mp hif
    exact ⟨⟨rfl, rfl, rfl⟩, slotGroups_join (slotGroups_parse hparts), ⟨rfl, hnames.1⟩, rfl⟩
  · cases hif

namespace Template

variable (t : x.Template isIdentifier)

/-- What the slots of the template may hold. -/
def Fills (name : String) (value : List Char) : Prop := value ∈ (x.slotPattern (slotTypeOf t.intent name)).lang

/-- The search finds what the pattern matches, and fills its groups with what their slots may hold. -/
theorem explores (pass : Pass) : (t.search pass).Explores (t.pattern pass).lang t.Fills := by
  obtain ⟨-, hgroups, -, hrelaxed⟩ := compileTemplate_eq_some t.compiles
  have hbody : (t.compiled.pattern.search fun name => x.slotSearch (slotTypeOf t.intent name)).Explores
      t.compiled.pattern.lang t.Fills := by
    have hslot (name : String) (s : Regex Char) (hmem : (name, s) ∈ t.compiled.pattern.groups) :
        s.lang = (x.slotPattern (slotTypeOf t.intent name)).lang := congrArg Regex.lang (hgroups (name, s) hmem)
    refine Regex.explores_search _ (fun name s hmem m hm => ?_) fun name s hmem value hvalue => ?_
    · rw [hslot name s hmem]
      exact explores_slot (slotTypeOf t.intent name) m hm
    · rw [hslot name s hmem] at hvalue
      exact hvalue
  cases pass with
  | exact => exact hbody
  | relaxed =>
    have hspace : (Search.letter x.tables.isSpace).Explores (Regex.letter x.tables.isSpace).lang t.Fills :=
      Search.explores_letter x.tables.isSpace
    have hchar : (Search.letter (· ≠ '\n')).Explores (Regex.letter (· ≠ '\n')).lang t.Fills :=
      Search.explores_letter (· ≠ '\n')
    have hanything := hchar.lazyStar
    unfold pattern search
    rw [hrelaxed]
    exact (hanything.andThen hspace).opt.andThen (hbody.andThen (hspace.andThen hanything).opt)

theorem isSome_read? (pass : Pass) (utterance : String) :
    (t.read? pass utterance).isSome = true ↔ (t.pattern pass).fullMatch utterance.toList = true := by
  rw [read?, Option.isSome_map, (t.explores pass).full_isSome, Regex.fullMatch_iff]

/-- The filler may be empty. -/
theorem relaxed_of_exact {w : List Char} (h : (t.pattern .exact).fullMatch w = true) :
    (t.pattern .relaxed).fullMatch w = true := by
  obtain ⟨-, -, -, hrelaxed⟩ := compileTemplate_eq_some t.compiles
  rw [Regex.fullMatch_iff] at h ⊢
  unfold pattern
  rw [hrelaxed]
  refine Language.mem_mul.mpr ⟨[], .inr rfl, w, ?_, rfl⟩
  exact Language.mem_mul.mpr ⟨w, h, [], .inr rfl, List.append_nil w⟩

/-- The reading is one of the template: its slots are stretches of the utterance that the patterns of their types
match, without the white space around them. -/
structure Explains (pass : Pass) (utterance : String) (r : Reading) : Prop where
  named : r.intent = t.intent.name ∧ r.lang = t.lang ∧ r.template = t.source
  confidence : r.confidence = pass.confidence
  matched : (t.pattern pass).fullMatch utterance.toList = true
  distinct : (r.slots.map Prod.fst).Nodup
  slots : ∀ name value, (name, value) ∈ r.slots → name ∈ t.compiled.slots ∧ value ≠ "" ∧
    value.toList <:+: utterance.toList ∧
      ∃ filling ∈ (x.slotPattern (slotTypeOf t.intent name)).lang, value.toList = strip x.tables.isSpace filling

theorem explains_of_read? {pass : Pass} {utterance : String} {r : Reading} (h : t.read? pass utterance = some r) :
    t.Explains pass utterance r := by
  obtain ⟨⟨hintent, hlang, hsource⟩, -, ⟨hslots, hnodup⟩, -⟩ := compileTemplate_eq_some t.compiles
  have hmatched : (t.pattern pass).fullMatch utterance.toList = true :=
    (t.isSome_read? pass utterance).mp (Option.isSome_of_eq_some h)
  obtain ⟨found, hfound, rfl⟩ := Option.map_eq_some_iff.mp h
  have hfilled := (t.explores pass).of_full hfound
  refine ⟨⟨hintent, hlang, hsource⟩, rfl, hmatched, ?_, fun name value hmem => ?_⟩
  · exact (capturedSlots_sublist found t.compiled.slots).nodup (hslots ▸ hnodup)
  · obtain ⟨hname, hne, c, hc, rfl, hvalue⟩ := mem_capturedSlots hmem
    obtain ⟨hlangc, hsuffix⟩ := hfilled c hc
    refine ⟨hname, hne, ?_, c.value, hlangc, hvalue⟩
    rw [hvalue]
    exact (strip_within _ _).trans ((List.prefix_append _ _).isInfix.trans hsuffix.isInfix)

end Template

section
variable {templates : List (x.Template isIdentifier)} {pass : Pass} {utterance : String} {r : Reading}

theorem best_candidates_none : best (candidates templates pass utterance) = none ↔
    ∀ t ∈ templates, (t.pattern pass).fullMatch utterance.toList = false := by
  rw [best, List.argmin_eq_none, candidates, List.filterMap_eq_nil_iff]
  refine forall₂_congr fun t _ => ?_
  rw [← Bool.not_eq_true, ← t.isSome_read?, Option.not_isSome_iff_eq_none]

/-- The best candidate explains the utterance, and no template that matches has one with a smaller key. -/
theorem best_candidates_some (h : best (candidates templates pass utterance) = some r) :
    (∃ t ∈ templates, t.Explains pass utterance r) ∧
      ∀ t ∈ templates, (t.pattern pass).fullMatch utterance.toList = true →
        ∃ other, t.read? pass utterance = some other ∧ r.key ≤ other.key := by
  obtain ⟨hmem, hleast⟩ := mem_best h
  obtain ⟨t, ht, hread⟩ := List.mem_filterMap.mp hmem
  refine ⟨⟨t, ht, t.explains_of_read? hread⟩, fun t' ht' hmatched => ?_⟩
  obtain ⟨other, hother⟩ := Option.isSome_iff_exists.mp ((t'.isSome_read? pass utterance).mpr hmatched)
  exact ⟨other, hother, hleast other (List.mem_filterMap.mpr ⟨t', ht', hother⟩)⟩

end

theorem match?_eq_none_iff {templates : List (x.Template isIdentifier)} {text : String} :
    match? templates text = none ↔ normalise x.tables text = "" ∨
      ∀ t ∈ templates, t.compiled.relaxed.fullMatch (normalise x.tables text).toList = false := by
  unfold match?
  dsimp only
  by_cases hempty : normalise x.tables text = ""
  · rw [if_pos hempty]
    exact iff_of_true rfl (.inl hempty)
  rw [if_neg hempty, Option.or_eq_none_iff, best_candidates_none, best_candidates_none, or_iff_right hempty]
  refine and_iff_right_of_imp fun hrelaxed t ht => Bool.eq_false_iff.mpr fun hexact => ?_
  exact Bool.false_ne_true ((hrelaxed t ht).symm.trans (t.relaxed_of_exact hexact))

theorem match?_eq_some {templates : List (x.Template isIdentifier)} {text : String} {hit : Reading}
    (h : match? templates text = some hit) : ∃ pass : Pass,
      (pass = .exact ↔ ∃ t ∈ templates, t.compiled.pattern.fullMatch (normalise x.tables text).toList = true) ∧
      (∃ t ∈ templates, t.Explains pass (normalise x.tables text) hit) ∧
      ∀ t ∈ templates, (t.pattern pass).fullMatch (normalise x.tables text).toList = true →
        ∃ other, t.read? pass (normalise x.tables text) = some other ∧ hit.key ≤ other.key := by
  unfold match? at h
  dsimp only at h
  split at h
  · cases h
  cases hexact : best (candidates templates .exact (normalise x.tables text)) with
  | some r =>
    rw [hexact, Option.some_or] at h
    obtain rfl := Option.some_inj.mp h
    obtain ⟨⟨t, ht, hexplains⟩, hleast⟩ := best_candidates_some hexact
    exact ⟨.exact, iff_of_true rfl ⟨t, ht, hexplains.matched⟩, ⟨t, ht, hexplains⟩, hleast⟩
  | none =>
    rw [hexact, Option.none_or] at h
    obtain ⟨hexplained, hleast⟩ := best_candidates_some h
    refine ⟨.relaxed, iff_of_false (fun hsame => by cases hsame) ?_, hexplained, hleast⟩
    intro ⟨t, ht, hmatched⟩
    exact Bool.false_ne_true ((best_candidates_none.mp hexact t ht).symm.trans hmatched)

/-- Nothing is read of an utterance that no template matches inside filler. What is read is of a template that
matches, without filler if there is one, and has the least key among the templates that match so. -/
theorem match_best (x : Lexicon) (isIdentifier : String → Bool) (templates : List (x.Template isIdentifier))
    (text : String) : (match? templates text = none ↔ normalise x.tables text = "" ∨
      ∀ t ∈ templates, t.compiled.relaxed.fullMatch (normalise x.tables text).toList = false) ∧
    ∀ hit, match? templates text = some hit → ∃ pass : Pass,
      (pass = .exact ↔ ∃ t ∈ templates, t.compiled.pattern.fullMatch (normalise x.tables text).toList = true) ∧
      (∃ t ∈ templates, t.Explains pass (normalise x.tables text) hit) ∧
      ∀ t ∈ templates, (t.pattern pass).fullMatch (normalise x.tables text).toList = true →
        ∃ other, t.read? pass (normalise x.tables text) = some other ∧ hit.key ≤ other.key :=
  ⟨match?_eq_none_iff, fun _ => match?_eq_some⟩

/-- A template with the proof that it compiles. -/
def template? (x : Lexicon) (isIdentifier : String → Bool) (intent : Intent) (lang source : String) :
    Option (x.Template isIdentifier) :=
  (x.compileTemplate isIdentifier intent lang source).attach.map fun compiled =>
    ⟨intent, lang, source, compiled.1, compiled.2⟩

/-- `compile_all`, given `templates_of`. -/
def compileAll (x : Lexicon) (isIdentifier : String → Bool) (templatesOf : Intent → List (String × List String))
    (cat : Catalogue) : Option (List (x.Template isIdentifier)) :=
  (cat.intents.flatMap fun intent => (templatesOf intent).flatMap fun e => e.2.map fun source =>
    (intent, e.1, source)).mapM fun e => x.template? isIdentifier e.1 e.2.1 e.2.2

theorem mem_compileAll {templatesOf : Intent → List (String × List String)} {cat : Catalogue}
    {templates : List (x.Template isIdentifier)} (h : x.compileAll isIdentifier templatesOf cat = some templates) :
    ∀ t ∈ templates, t.intent ∈ cat.intents := by
  intro t ht
  obtain ⟨e, he, heq⟩ := exists_of_forall₂ (mapM_eq_some_iff.mp h).flip ht
  obtain ⟨intent, hintent, hin⟩ := List.mem_flatMap.mp he
  obtain ⟨_, -, hsource⟩ := List.mem_flatMap.mp hin
  obtain ⟨_, -, rfl⟩ := List.mem_map.mp hsource
  obtain ⟨_, -, rfl⟩ := Option.map_eq_some_iff.mp heq
  exact hintent

end Lexicon

/-! ## The terms of a vocabulary -/

theorem subRuns_congr {p q : Char → Bool} {cs : List Char} (h : ∀ c ∈ cs, p c = q c) (inRun : Bool) :
    subRuns p inRun cs = subRuns q inRun cs := by
  induction cs generalizing inRun with
  | nil => rfl
  | cons c cs ih =>
    obtain ⟨hc, hcs⟩ := List.forall_mem_cons.mp h
    rw [subRuns, subRuns, hc, ih hcs true, ih hcs false]

theorem strip_congr {p q : Char → Bool} {cs : List Char} (h : ∀ c ∈ cs, p c = q c) : strip p cs = strip q cs := by
  have hdrop (ds : List Char) (hds : ∀ c ∈ ds, p c = q c) : ds.dropWhile p = ds.dropWhile q := by
    induction ds with
    | nil => rfl
    | cons d ds ih =>
      obtain ⟨hd, hds⟩ := List.forall_mem_cons.mp hds
      rw [List.dropWhile_cons, List.dropWhile_cons, hd, ih hds]
  unfold strip
  rw [hdrop cs h, hdrop _ fun c hc => h c ((List.dropWhile_sublist q).subset (List.mem_reverse.mp hc))]

/-- A character of a vocabulary. -/
def termChar (c : Char) : Bool := c.isDigit || c.isLower || c = ' '

/-- Lowercase words with one space between them. -/
def Settled (cs : List Char) : Prop :=
  cs ≠ [] ∧ cs.all termChar = true ∧ subRuns (· = ' ') false cs = cs ∧ strip (· = ' ') cs = cs

instance (cs : List Char) : Decidable (Settled cs) := inferInstanceAs (Decidable (_ ∧ _))

theorem settled_terms : ∀ e ∈ closedVocabs, ∀ term ∈ e.2, Settled term.toList := by
  have hall : (closedVocabs.all fun e => e.2.all fun term => Settled term.toList) = true := by decide
  intro e he term hterm
  exact of_decide_eq_true (List.all_eq_true.mp (List.all_eq_true.mp hall e he) term hterm)

section
variable {x : Lexicon} {cs : List Char}

theorem isSpace_termChar (hu : x.tables.Ascii) {c : Char} (h : termChar c = true) :
    x.tables.isSpace c = decide (c = ' ') ∧ plain c = true ∧
      (!(x.tables.isWord c || c = '%' || x.tables.isSpace c)) = false := by
  have hplain : plain c = true := by
    simp only [termChar, Bool.or_eq_true, decide_eq_true_eq] at h
    simp only [plain, Bool.or_eq_true, decide_eq_true_eq, List.mem_cons]
    tauto
  obtain ⟨hprintable, -⟩ := plain_facts hplain
  refine ⟨hu.isSpace c hprintable, hplain, ?_⟩
  rw [hu.isWord c hprintable, hu.isSpace c hprintable]
  simp only [termChar, Bool.or_eq_true, decide_eq_true_eq] at h
  rcases h with (hdigit | hlower) | hspace
  · simp [Char.isAlphanum, hdigit]
  · simp [Char.isAlphanum, isAlpha_def, hlower]
  · simp [hspace]

/-- Such a text is normalised, and has no white space around it. -/
theorem Settled.normalise (hu : x.tables.Ascii) (h : Settled cs) :
    normalise x.tables (String.ofList cs) = String.ofList cs ∧ Nlu.strip x.tables.isSpace cs = cs := by
  obtain ⟨hne, hall, hsingle, htrim⟩ := h
  have hchars : ∀ c ∈ cs, termChar c = true := List.all_eq_true.mp hall
  have hspaces : ∀ c ∈ cs, x.tables.isSpace c = decide (c = ' ') := fun c hc => (isSpace_termChar hu (hchars c hc)).1
  have hstrip : Nlu.strip x.tables.isSpace cs = cs := (strip_congr hspaces).trans htrim
  have hfolded := folded_of_plain hu fun c hc => (isSpace_termChar hu (hchars c hc)).2.1
  have hwords := subRuns_run (fun c hc => (isSpace_termChar hu (hchars c hc)).2.2) hne false []
  rw [List.append_nil, subRuns, List.append_nil] at hwords
  refine ⟨?_, hstrip⟩
  unfold Nlu.normalise
  dsimp only
  unfold Lexicon.folded at hfolded
  rw [hfolded, hwords, (subRuns_congr hspaces false).trans hsingle, hstrip]

end

/-- What the vocabulary of a closed type has for a term. -/
def termValue (now : Instant) (type term : String) : Option Value :=
  match type with
  | "kpi" => (kpiTerms.lookup term).map .text
  | "period" => (periodTerms.lookup term).map fun e => .text (bucketBounds e.1 e.2 now).code
  | "severity" => (severityTerms.lookup term).map .text
  | "view" => (viewTerms.lookup term).map .text
  | "report_type" => (reportTypeTerms.lookup term).map .text
  | "verdict" => (verdictTerms.lookup term).map .text
  | _ => none

theorem exists_lookup {ν : Type} {vocab : List (String × ν)} {term : String} (h : term ∈ vocab.map Prod.fst) :
    ∃ v, vocab.lookup term = some v := Option.ne_none_iff_exists'.mp (Dict.mem_keys_iff.mp h)

namespace Lexicon

variable {x : Lexicon} {isIdentifier : String → Bool}

/-- A term of a closed type is read as its vocabulary has it. -/
theorem parseSlot_term (hu : x.tables.Ascii) (now : Instant) {type term : String} {terms : List String}
    (htype : closedVocabs.lookup type = some terms) (hterm : term ∈ terms) :
    ∃ v, termValue now type term = some v ∧ x.parseSlot type term now = some v := by
  have hsettled := settled_terms _ (Dict.mem_of_get? htype) term hterm
  have hnormal : normalise x.tables term = term := by
    have hsame := (hsettled.normalise hu).1
    rwa [String.ofList_toList] at hsame
  have hlookup {vocab : List (String × String)} {v : String} (hv : vocab.lookup term = some v) :
      x.lookup vocab term = some v := by
    unfold lookup
    rw [if_neg fun hempty : term = "" => hsettled.1 (by rw [hempty]; rfl), hnormal, hv]
  have hmem : (type, terms) ∈ closedVocabs := Dict.mem_of_get? htype
  simp only [closedVocabs, List.mem_cons, Prod.mk.injEq, List.not_mem_nil, or_false] at hmem
  rcases hmem with ⟨rfl, rfl⟩ | ⟨rfl, rfl⟩ | ⟨rfl, rfl⟩ | ⟨rfl, rfl⟩ | ⟨rfl, rfl⟩ | ⟨rfl, rfl⟩
  all_goals obtain ⟨v, hv⟩ := exists_lookup hterm
  · exact ⟨.text v, by rw [termValue, hv]; rfl, by rw [parseSlot, hlookup hv]; rfl⟩
  · refine ⟨.text (bucketBounds v.1 v.2 now).code, by rw [termValue, hv]; rfl, ?_⟩
    rw [parseSlot, parsePeriod, periodTerm, hnormal, hv]
    rfl
  · exact ⟨.text v, by rw [termValue, hv]; rfl, by rw [parseSlot, hlookup hv]; rfl⟩
  · exact ⟨.text v, by rw [termValue, hv]; rfl, by rw [parseSlot, hnormal, hv]; rfl⟩
  · exact ⟨.text v, by rw [termValue, hv]; rfl, by rw [parseSlot, hlookup hv]; rfl⟩
  · exact ⟨.text v, by rw [termValue, hv]; rfl, by rw [parseSlot, hlookup hv]; rfl⟩

/-! ## Through the router -/

theorem result_of_get {g : Grammar} {cat : Catalogue} {intentName : String} {intent : Intent}
    (h : cat.get intentName = some intent) (rawSlots : List (String × String)) (confidence : Rat) (router : RouterKind)
    (lang : String) (now : Instant) (control : Option Control) (utterance : String) :
    ∃ r, result g cat intentName rawSlots confidence router lang now control utterance = .ok r ∧
      r.intent = intent.name ∧ r.router = router ∧ r.confidence = confidence ∧
      r.slots = g.parseSlots intent
        (if utterance = "" then rawSlots else g.inferMissing intentName utterance rawSlots) now := by
  unfold result
  rw [h]
  exact ⟨_, rfl, rfl, rfl, rfl, rfl⟩

theorem route_of_match {g : Grammar} {cat : Catalogue} {text : String} {hit : RuleMatch}
    (hcontrol : controlWord g.tables cat text = none) (hmatch : g.match? text = some hit) (now : Instant)
    (lang : String) (llm : Option LlmCall) : route g cat text now lang llm =
      result g cat hit.intent hit.slots hit.confidence .rules hit.lang now none text := by
  unfold route
  rw [hcontrol, hmatch]

/-- The grammar that ships, with the templates as they were compiled. -/
def grammar (templates : List (x.Template isIdentifier)) : Grammar where
  tables := x.tables
  match? text := (match? templates text).map Reading.toRuleMatch
  inferMissing := x.inferMissing
  parseSlots := x.parseSlots

/-- What a template captured is not inferred. -/
theorem lookup_inferMissing {intentName utterance name value : String} {slots : List (String × String)}
    (h : slots.lookup name = some value) :
    (x.inferMissing intentName utterance slots).lookup name = some value := by
  have happend (more : List (String × String)) : (slots ++ more).lookup name = some value := by
    rw [List.lookup_append, h, Option.some_or]
  unfold inferMissing
  dsimp only
  split
  · exact happend _
  · split
    · exact happend _
    · split
      · exact happend _
      · exact h

/-- A captured slot of a closed type holds a term of its vocabulary. -/
theorem Template.Explains.term {t : x.Template isIdentifier} {pass : Pass} {utterance : String} {r : Reading}
    (h : t.Explains pass utterance r) (hu : x.tables.Ascii) {name value : String} (hmem : (name, value) ∈ r.slots)
    {terms : List String} (hterms : closedVocabs.lookup (slotTypeOf t.intent name) = some terms) : value ∈ terms := by
  obtain ⟨-, -, -, filling, hfilling, hvalue⟩ := h.slots name value hmem
  unfold slotPattern at hfilling
  rw [hterms] at hfilling
  obtain ⟨term, hterm, rfl⟩ := mem_alternation.mp hfilling
  have hsettled := settled_terms _ (Dict.mem_of_get? hterms) term hterm
  rw [(hsettled.normalise hu).2] at hvalue
  rwa [String.toList_inj.mp hvalue]

theorem Template.Explains.lookup_slots {t : x.Template isIdentifier} {pass : Pass} {utterance : String} {r : Reading}
    (h : t.Explains pass utterance r) {name value : String} (hmem : (name, value) ∈ r.slots) :
    r.slots.lookup name = some value := by
  refine Dict.get?_eq_some hmem fun other hother => ?_
  exact congrArg Prod.snd (List.inj_on_of_nodup_map h.distinct hother hmem rfl)

/-- No rule match is so uncertain that the assistant asks. -/
theorem lowConfidence_le (pass : Pass) : lowConfidence ≤ pass.confidence := by
  cases pass with
  | exact => norm_num [lowConfidence, Pass.confidence]
  | relaxed => norm_num [lowConfidence, Pass.confidence]

/-- Who compiled a template finds its intent in the catalogue. -/
theorem get_compiled {templatesOf : Intent → List (String × List String)} {cat : Catalogue}
    (hnames : (cat.intents.map Intent.name).Nodup) {templates : List (x.Template isIdentifier)}
    (h : x.compileAll isIdentifier templatesOf cat = some templates) {t : x.Template isIdentifier}
    (ht : t ∈ templates) : cat.get t.intent.name = some t.intent := by
  have hmem := mem_compileAll h t ht
  cases hget : cat.get t.intent.name with
  | none => exact absurd rfl (of_decide_eq_false (Bool.eq_false_iff.mpr (List.find?_eq_none.mp hget t.intent hmem)))
  | some intent =>
    have hsame := List.inj_on_of_nodup_map hnames (List.mem_of_find?_eq_some hget) hmem (Catalogue.get_name hget)
    rw [hsame]

/-- A rule match is routed to its intent and understood, and what it captured of a closed type stands in the slots
as its vocabulary has it. -/
theorem route_understands (x : Lexicon) (hu : x.tables.Ascii) (isIdentifier : String → Bool)
    (templatesOf : Intent → List (String × List String)) (cat : Catalogue)
    (hnames : (cat.intents.map Intent.name).Nodup)
    (hslots : ∀ i ∈ cat.intents, (i.slots.map Slot.name).Nodup ∧ ∀ s ∈ i.slots, s.name ∉ boundKeys)
    (templates : List (x.Template isIdentifier))
    (hcompiled : x.compileAll isIdentifier templatesOf cat = some templates) (text : String)
    (hcontrol : controlWord x.tables cat text = none) (hit : Reading)
    (hhit : match? templates text = some hit) (now : Instant) (lang : String) (llm : Option LlmCall) :
    ∃ intent r, cat.get hit.intent = some intent ∧ route (grammar templates) cat text now lang llm = .ok r ∧
      r.intent = hit.intent ∧ r.router = .rules ∧ r.understood = true ∧
      ∀ name value, (name, value) ∈ hit.slots → ∀ terms, closedVocabs.lookup (slotTypeOf intent name) = some terms →
        value ∈ terms ∧ ∃ v, termValue now (slotTypeOf intent name) value = some v ∧
          Dict.get? r.slots name = some v := by
  obtain ⟨pass, -, ⟨t, ht, hexplains⟩, -⟩ := match?_eq_some hhit
  have hget : cat.get hit.intent = some t.intent := hexplains.named.1 ▸ get_compiled hnames hcompiled ht
  obtain ⟨hdistinct, hfree⟩ := hslots t.intent (mem_compileAll hcompiled t ht)
  have hlookup {name value : String} (hmem : (name, value) ∈ hit.slots) :
      (if text = "" then hit.slots else x.inferMissing hit.intent text hit.slots).lookup name = some value := by
    have hcaptured := hexplains.lookup_slots hmem
    split
    · exact hcaptured
    · exact lookup_inferMissing hcaptured
  have hmatch : (grammar templates).match? text = some hit.toRuleMatch := by
    unfold grammar
    dsimp only
    rw [hhit, Option.map_some]
  obtain ⟨r, hok, hintent, hrouter, hconfidence, hparsed⟩ := result_of_get (g := grammar templates) hget hit.slots
    hit.confidence .rules hit.lang now none text
  have hrouted := (route_of_match (g := grammar templates) hcontrol hmatch now lang llm).trans hok
  refine ⟨t.intent, r, hget, hrouted, hintent.trans hexplains.named.1.symm, hrouter, ?_, ?_⟩
  · have hconfident : lowConfidence ≤ hit.confidence := hexplains.confidence ▸ lowConfidence_le pass
    unfold RouterResult.understood
    rw [hrouter, hconfidence]
    exact decide_eq_true ⟨by decide, hconfident⟩
  intro name value hmem terms hterms
  have hterm := hexplains.term hu hmem hterms
  obtain ⟨v, hv, hparse⟩ := parseSlot_term hu now hterms hterm
  refine ⟨hterm, v, hv, ?_⟩
  unfold slotTypeOf at hterms hparse
  cases hslot : t.intent.slots.find? fun s => s.name = name with
  | none =>
    have hopen : closedVocabs.lookup "text" = none := by decide
    rw [hslot, Option.map_none, Option.getD_none, hopen] at hterms
    cases hterms
  | some slot =>
    have hname : slot.name = name := by simpa using List.find?_some hslot
    have hkey : name ∉ boundKeys := hname ▸ hfree slot (List.mem_of_find?_eq_some hslot)
    unfold grammar at hparsed
    dsimp only at hparsed
    rw [hslot] at hparse
    rw [hparsed, get?_parseSlots hdistinct hkey, hslot, hlookup hmem]
    exact hparse

/-! "critical", where alarms are asked for by their severity. -/

def severityIntent : Intent := ⟨"list_alarms", .t0, [⟨"severity", "severity", false, none⟩]⟩

def severityCatalogue : Catalogue := ⟨[severityIntent], []⟩

def severityWords : List String := ["critical", "warning", "minor", "high", "warn", "info"]

def severityParts : List Fragment :=
  [⟨.named "severity" (.anyOf (severityWords.map fun t => .text t.toList)), false⟩]

theorem severity_pattern :
    decimalLexicon.slotPattern "severity" = .anyOf (severityWords.map fun t => .text t.toList) := by
  have hsorted : ((severityTerms.map Prod.fst).mergeSort fun a b => b.length ≤ a.length) = severityWords := by
    simp +decide [severityTerms, severityWords, List.mergeSort, List.MergeSort.Internal.splitInTwo, List.splitAt,
      List.splitAt.go]
  show alternation (severityTerms.map Prod.fst) = _
  unfold alternation
  rw [hsorted]

theorem severity_parses (depth : Nat) :
    decimalLexicon.parse severityIntent (depth + 1) "{severity}".toList = some severityParts := by
  have hsplit : "{severity}".toList.splitOn ' ' = ["{severity}".toList] := by decide
  have hitems : items ("{severity}".toList.splitOn ' ') = some [.slot "severity".toList] := by
    rw [hsplit, items, if_pos (by decide), items]
    rfl
  rw [parse, hitems, severityParts, ← severity_pattern]
  rfl

theorem severity_compiled : ∃ t : decimalLexicon.Template fun _ => true, t.intent = severityIntent ∧
    t.compiled.pattern = decimalLexicon.join severityParts ∧ t.compiled.slots = ["severity"] ∧
    decimalLexicon.compileAll (fun _ => true) (fun _ => [("en", ["{severity}"])]) severityCatalogue = some [t] := by
  obtain ⟨compiled, hcompiled, hpattern, hslots⟩ : ∃ compiled,
      decimalLexicon.compileTemplate (fun _ => true) severityIntent "en" "{severity}" = some compiled ∧
        compiled.pattern = decimalLexicon.join severityParts ∧ compiled.slots = ["severity"] := by
    unfold compileTemplate
    rw [severity_parses, Option.bind_some]
    dsimp only
    rw [if_pos (by decide)]
    exact ⟨_, rfl, rfl, rfl⟩
  have htemplate : decimalLexicon.template? (fun _ => true) severityIntent "en" "{severity}" =
      some ⟨severityIntent, "en", "{severity}", compiled, hcompiled⟩ :=
    Option.map_eq_some_iff.mpr ⟨⟨compiled, hcompiled⟩, Option.attach_eq_some_iff.mpr hcompiled, rfl⟩
  refine ⟨⟨severityIntent, "en", "{severity}", compiled, hcompiled⟩, rfl, hpattern, hslots, ?_⟩
  exact mapM_eq_some_iff.mpr (.cons htemplate .nil)

theorem critical_read {t : decimalLexicon.Template fun _ => true} (hintent : t.intent = severityIntent)
    (hpattern : t.compiled.pattern = decimalLexicon.join severityParts) (hslots : t.compiled.slots = ["severity"]) :
    ∃ hit, match? [t] "critical" = some hit ∧ hit.slots = [("severity", "critical")] := by
  have hfull : (t.search .exact).full "critical".toList = some [⟨"severity", "critical".toList, []⟩] := by
    unfold Template.search
    rw [hintent, hpattern]
    decide +kernel
  have hread : ∃ hit, t.read? .exact "critical" = some hit ∧ hit.slots = [("severity", "critical")] := by
    unfold Template.read?
    rw [hfull, Option.map_some, hslots]
    have hcaptured : decimalLexicon.capturedSlots [⟨"severity", "critical".toList, []⟩] ["severity"] =
        [("severity", "critical")] := by decide
    exact ⟨_, rfl, hcaptured⟩
  obtain ⟨hit, hhit, hcaptured⟩ := hread
  have hnormal : normalise decimalLexicon.tables "critical" = "critical" := by decide
  have honly : candidates [t] .exact "critical" = [hit] := by
    unfold candidates
    simp only [List.filterMap_cons, hhit, List.filterMap_nil]
  refine ⟨hit, ?_, hcaptured⟩
  unfold match?
  dsimp only
  rw [hnormal, if_neg (by decide), honly, best, List.argmin_singleton, Option.some_or]

theorem critical_understood : ∃ templates hit,
    decimalLexicon.compileAll (fun _ => true) (fun _ => [("en", ["{severity}"])]) severityCatalogue = some templates ∧
    match? templates "critical" = some hit ∧ hit.slots = [("severity", "critical")] ∧
    ∃ intent r, severityCatalogue.get hit.intent = some intent ∧
      route (grammar templates) severityCatalogue "critical" 0 "en" none = .ok r ∧
      r.intent = hit.intent ∧ r.router = .rules ∧ r.understood = true ∧
      ∀ name value, (name, value) ∈ hit.slots → ∀ terms, closedVocabs.lookup (slotTypeOf intent name) = some terms →
        value ∈ terms ∧ ∃ v, termValue 0 (slotTypeOf intent name) value = some v ∧
          Dict.get? r.slots name = some v := by
  obtain ⟨t, hintent, hpattern, hslots, hcompiled⟩ := severity_compiled
  obtain ⟨hit, hhit, hcaptured⟩ := critical_read hintent hpattern hslots
  exact ⟨[t], hit, hcompiled, hhit, hcaptured, route_understands decimalLexicon asciiTables_ascii (fun _ => true)
    (fun _ => [("en", ["{severity}"])]) severityCatalogue (by decide) (by decide) [t] hcompiled "critical" (by decide)
    hit hhit 0 "en" none⟩

end Lexicon

end TwinVoice.Nlu
