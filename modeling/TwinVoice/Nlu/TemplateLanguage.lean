import TwinVoice.Lib.Spacing
import TwinVoice.Lib.Traversal
import TwinVoice.Nlu.SpokenNumbers
import TwinVoice.Nlu.TemplateSyntax

/-! # The language of a template

An utterance arises from a template by a choice in each of its parts, with
white space between what was chosen. The compiled pattern matches exactly the
utterances that arise: the space that `_join` folds into an optional part is
on the side where something is left. -/

namespace TwinVoice.Nlu

open TwinVoice.Lib

/-! ## What arises from it -/

mutual

/-- The pieces of an utterance that a part gives rise to. -/
inductive Reads (x : Lexicon) (intent : Intent) : TemplatePart → List (List Char) → Prop
  | word {w t : String} (hw : w ∉ filler) (ht : t ∈ tokenAlternatives w) : Reads x intent (.word w) [t.toList]
  | swapped {w t : String} (hw : w ∈ filler) (ht : t ∈ filler) : Reads x intent (.word w) [t.toList]
  | dropped {w : String} (hw : w ∈ filler) : Reads x intent (.word w) []
  | slot {name : String} {filling : List Char} (h : filling ∈ (x.slotPattern (slotTypeOf intent name)).lang) :
      Reads x intent (.slot name) [filling]
  | group {alternatives : List (List TemplatePart)} {alt : List TemplatePart} {pieces : List (List Char)}
      (halt : alt ∈ alternatives) (h : ReadsAll x intent alt pieces) : Reads x intent (.group alternatives) pieces
  | kept {body : List TemplatePart} {pieces : List (List Char)} (h : ReadsAll x intent body pieces) :
      Reads x intent (.optional body) pieces
  | left {body : List TemplatePart} : Reads x intent (.optional body) []

inductive ReadsAll (x : Lexicon) (intent : Intent) : List TemplatePart → List (List Char) → Prop
  | nil : ReadsAll x intent [] []
  | cons {p : TemplatePart} {parts : List TemplatePart} {pieces others : List (List Char)} (h : Reads x intent p pieces)
      (hothers : ReadsAll x intent parts others) : ReadsAll x intent (p :: parts) (pieces ++ others)

end

/-- The utterance arises from the parts: a choice of pieces, with white space between them. -/
def Arises (x : Lexicon) (intent : Intent) (parts : List TemplatePart) (utterance : String) : Prop :=
  ∃ pieces, ReadsAll x intent parts pieces ∧
    utterance.toList ∈ spaced {gap | gap ≠ [] ∧ ∀ c ∈ gap, x.tables.isSpace c = true} pieces

/-- The readings of a part. -/
def readings (x : Lexicon) (intent : Intent) (p : TemplatePart) : Language (List Char) :=
  {pieces | Reads x intent p pieces}

/-- The readings of parts that follow one another. -/
def readingsAll (x : Lexicon) (intent : Intent) (parts : List TemplatePart) : Language (List Char) :=
  {pieces | ReadsAll x intent parts pieces}

theorem readingsAll_eq (x : Lexicon) (intent : Intent) (parts : List TemplatePart) :
    readingsAll x intent parts = (parts.map (readings x intent)).prod := by
  induction parts with
  | nil =>
    ext pieces
    rw [List.map_nil, List.prod_nil, Language.mem_one]
    constructor
    · rintro ⟨⟩
      rfl
    · rintro rfl
      exact .nil
  | cons p parts ih =>
    ext pieces
    rw [List.map_cons, List.prod_cons, ← ih, Language.mem_mul]
    constructor
    · rintro ⟨⟩
      exact ⟨_, ‹_›, _, ‹_›, rfl⟩
    · rintro ⟨a, ha, b, hb, rfl⟩
      exact .cons ha hb

/-! ## Joining -/

/-- The fragment stands for the choices: texts of pieces, or nothing where it is optional. -/
def Denotes (x : Lexicon) (f : Fragment) (choices : Language (List Char)) : Prop :=
  ∃ filled, Filled filled ∧ f.regex.lang = choosing (spaced x.spaces.lang) filled ∧
    choices = if f.isOptional then filled + 1 else filled

theorem joinStep_optional {x : Lexicon} {f : Fragment} (h : f.isOptional = true) (out : Regex Char) (anchored : Bool) :
    x.joinStep (out, anchored) f =
      (.seq out (.opt (if anchored then .seq x.spaces f.regex else .seq f.regex x.spaces)), anchored) := if_pos h

theorem joinStep_required {x : Lexicon} {f : Fragment} (h : f.isOptional = false) (out : Regex Char) (anchored : Bool) :
    x.joinStep (out, anchored) f = (.seq out (if anchored then .seq x.spaces f.regex else f.regex), true) :=
  if_neg (by simp [h])

section
variable {x : Lexicon} {fragments : List Fragment} {choices : List (Language (List Char))}

/-- Once something precedes, every part carries the space before it. -/
theorem join_led (h : List.Forall₂ (Denotes x) fragments choices) (out : Regex Char) :
    (fragments.foldl x.joinStep (out, true)).1.lang = out.lang * choosing (led x.spaces.lang) choices.prod := by
  induction h generalizing out with
  | nil => rw [List.foldl_nil, List.prod_nil, choosing_one rfl, mul_one]
  | @cons f choice fragments choices hf _ ih =>
    obtain ⟨filled, hfilled, hlang, rfl⟩ := hf
    rw [List.foldl_cons, List.prod_cons, choosing_led_mul, ← mul_assoc]
    cases hoptional : f.isOptional with
    | true =>
      rw [joinStep_optional hoptional, if_pos rfl, if_pos rfl, ih, choosing_add, choosing_one rfl,
        ← gap_mul_choosing _ hfilled, ← hlang]
      rfl
    | false =>
      rw [joinStep_required hoptional, if_pos rfl, if_neg Bool.false_ne_true, ih, ← gap_mul_choosing _ hfilled, ← hlang]
      rfl

/-- Until something required comes, an optional part carries the space after it. -/
theorem join_spaced (h : List.Forall₂ (Denotes x) fragments choices) (hrequired : ∃ f ∈ fragments, f.isOptional = false)
    (out : Regex Char) : Filled choices.prod ∧
      (fragments.foldl x.joinStep (out, false)).1.lang = out.lang * choosing (spaced x.spaces.lang) choices.prod := by
  induction h generalizing out with
  | nil => exact absurd hrequired fun ⟨_, hf, _⟩ => List.not_mem_nil hf
  | @cons f choice fragments choices hf hrest ih =>
    obtain ⟨filled, hfilled, hlang, rfl⟩ := hf
    rw [List.foldl_cons, List.prod_cons]
    cases hoptional : f.isOptional with
    | true =>
      have hlater : ∃ f ∈ fragments, f.isOptional = false := by
        obtain ⟨g, hg, hneeded⟩ := hrequired
        rcases List.mem_cons.mp hg with rfl | hg
        · rw [hoptional] at hneeded
          cases hneeded
        · exact ⟨g, hg, hneeded⟩
      obtain ⟨hprod, hjoined⟩ := ih hlater (.seq out (.opt (.seq f.regex x.spaces)))
      refine ⟨hprod.mul_right, ?_⟩
      rw [joinStep_optional hoptional, if_neg Bool.false_ne_true, hjoined, if_pos rfl,
        choosing_spaced_mul_trailed _ _ hprod, choosing_add, choosing_one rfl, ← choosing_mul_gap _ hfilled, ← hlang,
        ← mul_assoc]
      rfl
    | false =>
      refine ⟨hfilled.mul_left, ?_⟩
      rw [joinStep_required hoptional, if_neg Bool.false_ne_true, join_led hrest, if_neg Bool.false_ne_true,
        choosing_spaced_mul_led _ hfilled, ← hlang, ← mul_assoc]
      rfl

theorem names_join (fragments : List Fragment) :
    (x.join fragments).names = fragments.flatMap fun f => f.regex.names := by
  have hfold (out : Regex Char × Bool) : (fragments.foldl x.joinStep out).1.names =
      out.1.names ++ fragments.flatMap fun f => f.regex.names := by
    induction fragments generalizing out with
    | nil => simp
    | cons f fragments ih =>
      rw [List.foldl_cons, ih, List.flatMap_cons, ← List.append_assoc]
      congr 1
      unfold Lexicon.joinStep
      split <;> split <;> simp [Regex.names, Regex.opt, Lexicon.spaces, Regex.plus]
  exact hfold (.empty, false)

end

/-! ## Words and slots -/

theorem mem_anyOf_texts {terms : List String} {w : List Char} :
    w ∈ (Regex.anyOf (terms.map fun t => .text t.toList)).lang ↔ ∃ t ∈ terms, t.toList = w := by
  rw [Regex.mem_anyOf]
  constructor
  · rintro ⟨_, hr, hw⟩
    obtain ⟨t, ht, rfl⟩ := List.mem_map.mp hr
    rw [Regex.lang_text] at hw
    exact ⟨t, ht, (Set.mem_singleton_iff.mp hw).symm⟩
  · rintro ⟨t, ht, rfl⟩
    exact ⟨_, List.mem_map_of_mem ht, (Regex.lang_text t.toList).symm ▸ Set.mem_singleton _⟩

theorem names_anyOf_texts (terms : List String) : (Regex.anyOf (terms.map fun t => .text t.toList)).names = [] := by
  rw [Regex.names_anyOf, List.flatMap_eq_nil_iff]
  intro r hr
  obtain ⟨t, -, rfl⟩ := List.mem_map.mp hr
  exact Regex.names_text t.toList

theorem mem_alternation {terms : List String} {w : List Char} :
    w ∈ (alternation terms).lang ↔ ∃ t ∈ terms, t.toList = w :=
  mem_anyOf_texts.trans (by simp only [List.mem_mergeSort])

theorem names_alternation (terms : List String) : (alternation terms).names = [] := names_anyOf_texts _

/-- No slot pattern has a group with a name. -/
theorem names_slotPattern (x : Lexicon) (type : String) : (x.slotPattern type).names = [] := by
  have hrun (n : Nat) : (x.wordRuns n).names = [] :=
    Regex.names_upTo (by simp [Regex.names, Lexicon.spaces, Lexicon.wordRun, Regex.plus]) n
  have hreference : x.reference.names = [] := by
    have hindex : x.index.names = [] := by
      unfold Lexicon.index
      rw [Regex.names, names_alternation]
      rfl
    unfold Lexicon.reference
    rw [Regex.names, hrun, Regex.opt, Regex.names, Regex.names, hindex]
    rfl
  have hopen : ∀ e ∈ x.openPatterns, e.2.names = [] := by
    simp [Lexicon.openPatterns, hrun, hreference, Regex.names, Regex.plus, Lexicon.wordRun]
  unfold Lexicon.slotPattern
  split
  · exact names_alternation _
  · cases hfound : x.openPatterns.lookup type with
    | none => exact hrun 6
    | some r => exact hopen _ (Dict.mem_of_get? hfound)

/-- What a fragment has to do with the part of the template that it was made from. -/
structure Compiles (x : Lexicon) (intent : Intent) (f : Fragment) (p : TemplatePart) : Prop where
  denotes : Denotes x f (readings x intent p)
  required : p.Required → f.isOptional = false
  names : f.regex.names = p.slotNames

/-- A fragment that is matched by one piece. -/
theorem denotes_singles (x : Lexicon) (f : Fragment) :
    Denotes x f (if f.isOptional then singles f.regex.lang + 1 else singles f.regex.lang) :=
  ⟨_, filled_singles _, (choosing_spaced_singles _ _).symm, rfl⟩

theorem compiles_word (x : Lexicon) (intent : Intent) (w : String) : Compiles x intent (literal w) (.word w) := by
  unfold literal
  split
  · rename_i hw
    refine ⟨?_, fun hrequired => absurd hw hrequired, (names_alternation filler).trans (by rw [TemplatePart.slotNames])⟩
    have hreads : readings x intent (.word w) = singles fillerPattern.lang + 1 := by
      ext pieces
      rw [Language.mem_add, Language.mem_one]
      constructor
      · intro hreads
        cases hreads with
        | word hnot => exact absurd hw hnot
        | swapped _ ht => exact .inl ⟨_, mem_alternation.mpr ⟨_, ht, rfl⟩, rfl⟩
        | dropped => exact .inr rfl
      · rintro (⟨v, hv, rfl⟩ | rfl)
        · obtain ⟨t, ht, rfl⟩ := mem_alternation.mp hv
          exact .swapped hw ht
        · exact .dropped hw
    rw [hreads]
    exact denotes_singles x ⟨fillerPattern, true⟩
  · rename_i hw
    refine ⟨?_, fun _ => rfl, (names_anyOf_texts _).trans (by rw [TemplatePart.slotNames])⟩
    have hreads : readings x intent (.word w) =
        singles (Regex.anyOf ((tokenAlternatives w).map fun t => .text t.toList)).lang := by
      ext pieces
      constructor
      · intro hreads
        cases hreads with
        | word _ ht => exact ⟨_, mem_anyOf_texts.mpr ⟨_, ht, rfl⟩, rfl⟩
        | swapped hfiller | dropped hfiller => exact absurd hfiller hw
      · rintro ⟨v, hv, rfl⟩
        obtain ⟨t, ht, rfl⟩ := mem_anyOf_texts.mp hv
        exact .word hw ht
    rw [hreads]
    exact denotes_singles x ⟨_, false⟩

theorem compiles_slot (x : Lexicon) (intent : Intent) (name : String) :
    Compiles x intent ⟨.named name (x.slotPattern (slotTypeOf intent name)), false⟩ (.slot name) where
  denotes := by
    have hreads : readings x intent (.slot name) =
        singles (x.slotPattern (slotTypeOf intent name)).lang := by
      ext pieces
      constructor
      · rintro ⟨⟩
        exact ⟨_, ‹_›, rfl⟩
      · rintro ⟨w, hw, rfl⟩
        exact .slot hw
    rw [hreads]
    exact denotes_singles x ⟨.named name (x.slotPattern (slotTypeOf intent name)), false⟩
  required _ := rfl
  names := by rw [Regex.names, names_slotPattern, TemplatePart.slotNames]

/-! ## Templates -/

section
variable {x : Lexicon} {intent : Intent}

theorem exists_mem_iff {α β : Type} {R : α → β → Prop} {P : α → Prop} {Q : β → Prop} {l : List α} {l' : List β}
    (h : List.Forall₂ R l l') (hsame : ∀ a b, R a b → (P a ↔ Q b)) : (∃ a ∈ l, P a) ↔ ∃ b ∈ l', Q b := by
  induction h with
  | nil => simp
  | cons hab _ ih => rw [List.exists_mem_cons_iff, List.exists_mem_cons_iff, hsame _ _ hab, ih]

theorem flatMap_eq {α β γ : Type} {R : α → β → Prop} {f : α → List γ} {g : β → List γ} {l : List α} {l' : List β}
    (h : List.Forall₂ R l l') (hsame : ∀ a b, R a b → f a = g b) : l.flatMap f = l'.flatMap g := by
  induction h with
  | nil => rfl
  | cons hab _ ih => rw [List.flatMap_cons, List.flatMap_cons, hsame _ _ hab, ih]

/-- Parts that compile one by one, one of them required, are joined to a pattern of what they read. -/
theorem parse_render {depth : Nat} {groups optionals : Bool} {parts : List TemplatePart} (hanchored : Anchored parts)
    (hdoc : ∀ p ∈ parts, Documented x groups optionals p)
    (h : ∀ p ∈ parts, ∃ f, x.fragment intent (x.parse intent depth) p.item = some f ∧ Compiles x intent f p) :
    ∃ fragments, x.parse intent (depth + 1) (render parts) = some fragments ∧
      Filled (readingsAll x intent parts) ∧
      (x.join fragments).lang = choosing (spaced x.spaces.lang) (readingsAll x intent parts) ∧
      (x.join fragments).names = parts.flatMap TemplatePart.slotNames := by
  obtain ⟨p, hp, hrequired⟩ := hanchored
  obtain ⟨fragments, hmap, hall⟩ := exists_mapM_map h
  have hneeded : ∃ f ∈ fragments, f.isOptional = false := by
    obtain ⟨f, hf, hcompiled⟩ := exists_of_forall₂ hall.flip hp
    exact ⟨f, hf, hcompiled.required hrequired⟩
  have hkept : keepAnAnchor fragments = fragments := by
    refine if_pos (List.any_eq_true.mpr ?_)
    obtain ⟨f, hf, hfalse⟩ := hneeded
    exact ⟨f, hf, by rw [hfalse]; rfl⟩
  have hparse : x.parse intent (depth + 1) (render parts) = some fragments := by
    rw [Lexicon.parse, items_render (List.ne_nil_of_mem hp) hdoc, Option.bind_some, hmap, Option.map_some, hkept]
  have hchoices : List.Forall₂ (Denotes x) fragments (parts.map (readings x intent)) :=
    List.forall₂_map_right_iff.mpr (hall.imp fun f p hf => hf.denotes)
  obtain ⟨hfilled, hlang⟩ := join_spaced hchoices hneeded .empty
  rw [← readingsAll_eq] at hfilled hlang
  refine ⟨fragments, hparse, hfilled, hlang.trans (one_mul _), ?_⟩
  rw [names_join]
  exact flatMap_eq hall fun f p hf => hf.names

theorem readings_optional (body : List TemplatePart) :
    readings x intent (.optional body) = readingsAll x intent body + 1 := by
  ext pieces
  rw [Language.mem_add, Language.mem_one]
  constructor
  · intro hreads
    cases hreads with
    | kept h => exact .inl h
    | left => exact .inr rfl
  · rintro (h | rfl)
    · exact .kept h
    · exact .left

theorem mem_readings_group {alternatives : List (List TemplatePart)} {pieces : List (List Char)} :
    pieces ∈ readings x intent (.group alternatives) ↔ ∃ alt ∈ alternatives, pieces ∈ readingsAll x intent alt := by
  constructor
  · rintro ⟨⟩
    exact ⟨_, ‹_›, ‹_›⟩
  · rintro ⟨alt, halt, h⟩
    exact .group halt h

/-- What is compiled of a group stands for what one of its alternatives reads. -/
theorem compiles_group {options : List (Regex Char)} {alternatives : List (List TemplatePart)}
    (h : List.Forall₂ (fun r alt => Filled (readingsAll x intent alt) ∧
      r.lang = choosing (spaced x.spaces.lang) (readingsAll x intent alt) ∧
      r.names = alt.flatMap TemplatePart.slotNames) options alternatives) :
    Compiles x intent ⟨.anyOf options, false⟩ (.group alternatives) where
  denotes := by
    refine ⟨readings x intent (.group alternatives), ?_, ?_, rfl⟩
    · intro pieces hpieces
      obtain ⟨alt, halt, hreads⟩ := mem_readings_group.mp hpieces
      obtain ⟨r, -, hfilled, -⟩ := exists_of_forall₂ h.flip halt
      exact hfilled pieces hreads
    · ext w
      rw [Regex.mem_anyOf, exists_mem_iff h fun r alt hr => by rw [hr.2.1], mem_choosing]
      constructor
      · rintro ⟨alt, halt, pieces, hreads, hw⟩
        exact ⟨pieces, mem_readings_group.mpr ⟨alt, halt, hreads⟩, hw⟩
      · rintro ⟨pieces, hpieces, hw⟩
        obtain ⟨alt, halt, hreads⟩ := mem_readings_group.mp hpieces
        exact ⟨alt, halt, pieces, hreads, hw⟩
  required _ := rfl
  names := by
    rw [Regex.names_anyOf, TemplatePart.slotNames]
    exact flatMap_eq h fun r alt hr => hr.2.2

theorem compiles_documented (hu : x.tables.Ascii) {groups optionals : Bool} {p : TemplatePart}
    (h : Documented x groups optionals p) (depth : Nat) (hdepth : groups.toNat + optionals.toNat ≤ depth) :
    ∃ f, x.fragment intent (x.parse intent depth) p.item = some f ∧ Compiles x intent f p := by
  induction h generalizing depth with
  | @word _ _ w _ =>
    refine ⟨literal w, ?_, compiles_word x intent w⟩
    rw [TemplatePart.item, Lexicon.fragment, String.ofList_toList]
  | @slot _ _ name _ =>
    refine ⟨_, ?_, compiles_slot x intent name⟩
    rw [TemplatePart.item, Lexicon.fragment, String.ofList_toList]
  | @group optionals alternatives hne hanchored hparts ih =>
    obtain ⟨depth, rfl⟩ : ∃ d, depth = d + 1 := ⟨depth - 1, by simp at hdepth; omega⟩
    have hoption : ∀ alt ∈ alternatives, ∃ r,
        (x.parse intent (depth + 1) (strip x.tables.isSpace (render alt))).map x.join = some r ∧
          Filled (readingsAll x intent alt) ∧ r.lang = choosing (spaced x.spaces.lang) (readingsAll x intent alt) ∧
          r.names = alt.flatMap TemplatePart.slotNames := by
      intro alt halt
      obtain ⟨p, hp, -⟩ := hanchored alt halt
      obtain ⟨fragments, hparse, hrest⟩ := parse_render (hanchored alt halt) (hparts alt halt) fun p hp =>
        ih alt halt p hp depth (by simp at hdepth ⊢; omega)
      have htrim := trim_render (List.ne_nil_of_mem hp) fun p hp => (hparts alt halt p hp).trim hu
      exact ⟨x.join fragments, by rw [htrim.strip, hparse, Option.map_some], hrest⟩
    have hbars : ∀ l ∈ alternatives.map render, '|' ∉ l := by
      intro l hl hbar
      obtain ⟨alt, halt, rfl⟩ := List.mem_map.mp hl
      rcases mem_render hbar with hspace | ⟨p, hp, hc⟩
      · cases hspace
      · exact ((hparts alt halt p hp).noGroup rfl _ hc).2 rfl
    obtain ⟨options, hmap, hall⟩ := exists_mapM_map (g := render)
      (f := fun option => (x.parse intent (depth + 1) (strip x.tables.isSpace option)).map x.join) hoption
    refine ⟨⟨.anyOf options, false⟩, ?_, compiles_group hall⟩
    rw [TemplatePart.item, Lexicon.fragment, List.splitOn_intercalate '|' hbars (by simpa using hne), hmap]
    rfl
  | @optional groups body hanchored hparts ih =>
    obtain ⟨depth, rfl⟩ : ∃ d, depth = d + 1 := ⟨depth - 1, by simp at hdepth; omega⟩
    obtain ⟨fragments, hparse, hfilled, hlang, hnames⟩ :=
      parse_render hanchored hparts fun p hp => ih p hp depth (by simp at hdepth ⊢; omega)
    refine ⟨⟨x.join fragments, true⟩, ?_, ⟨_, hfilled, hlang, readings_optional body⟩, fun hrequired => hrequired.elim,
      hnames.trans (by rw [TemplatePart.slotNames])⟩
    rw [TemplatePart.item, Lexicon.fragment, hparse]
    rfl

/-- The compiled pattern of a template of the documented syntax matches exactly what arises from it. -/
theorem pattern_matches_iff (x : Lexicon) (hu : x.tables.Ascii) (isIdentifier : String → Bool) (intent : Intent)
    (lang : String) (template : List TemplatePart) (hdoc : ∀ p ∈ template, Documented x true true p)
    (hanchored : Anchored template) (hdistinct : (template.flatMap TemplatePart.slotNames).Nodup)
    (hnames : ∀ name ∈ template.flatMap TemplatePart.slotNames, isIdentifier name = true) :
    ∃ compiled, x.compileTemplate isIdentifier intent lang (String.ofList (render template)) = some compiled ∧
      ∀ utterance : String,
        compiled.pattern.fullMatch utterance.toList = true ↔ Arises x intent template utterance := by
  obtain ⟨p, hp, -⟩ := id hanchored
  have hwritten : render template ≠ [] :=
    (trim_render (List.ne_nil_of_mem hp) fun p hp => (hdoc p hp).trim hu).1
  have hdepth : true.toNat + true.toNat ≤ (render template).length + 1 :=
    Nat.succ_le_succ (List.length_pos_of_ne_nil hwritten)
  obtain ⟨fragments, hparse, -, hlang, hslots⟩ := parse_render hanchored hdoc fun p hp =>
    compiles_documented hu (hdoc p hp) ((render template).length + 1) hdepth
  unfold Lexicon.compileTemplate
  rw [String.length_ofList, String.toList_ofList, hparse, Option.bind_some]
  dsimp only
  rw [hslots, if_pos ⟨hdistinct, List.all_eq_true.mpr hnames⟩]
  refine ⟨_, rfl, fun utterance => ?_⟩
  dsimp only
  rw [Regex.fullMatch_iff, hlang, mem_choosing]
  unfold Lexicon.spaces
  rw [Regex.lang_plus_letter]
  rfl

end

/-! "[what is the] health of (it|{asset})", for a machine. -/

def statusIntent : Intent := ⟨"get_machine_status", .t0, [⟨"asset", "asset", true, some "current_asset"⟩]⟩

def healthTemplate : List TemplatePart :=
  [.optional [.word "what", .word "is", .word "the"], .word "health", .word "of",
    .group [[.word "it"], [.slot "asset"]]]

theorem decimalLexicon_ordinary {w : String} (hne : w ≠ "") (hw : w.toList.all Char.isLower = true) :
    decimalLexicon.Ordinary w := by
  have hsigns : ∀ d ∈ [' ', '|', '(', ')', '[', ']', '{', '}', '\t', '\r', '\n'], d.isLower = false :=
    List.all_iff_forall_prop.mp (by decide)
  refine ⟨hne, fun c hc => ?_⟩
  have hout (signs : List Char) (hsub : signs ⊆ [' ', '|', '(', ')', '[', ']', '{', '}', '\t', '\r', '\n']) :
      c ∉ signs := fun hsign => by
    have hlower := List.all_eq_true.mp hw c hc
    rw [hsigns c (hsub hsign)] at hlower
    cases hlower
  exact ⟨hout _ (by decide), Bool.eq_false_iff.mpr fun hspace => hout _ (by decide) (whitespace_cases hspace)⟩

theorem healthTemplate_documented : ∀ p ∈ healthTemplate, Documented decimalLexicon true true p := by
  have hwords : ∀ w ∈ ["what", "is", "the", "health", "of", "it", "asset"], decimalLexicon.Ordinary w := by
    have hletters : ∀ w ∈ ["what", "is", "the", "health", "of", "it", "asset"],
        w ≠ "" ∧ w.toList.all Char.isLower = true := by decide
    exact fun w hw => decimalLexicon_ordinary (hletters w hw).1 (hletters w hw).2
  have hwhat : Anchored [.word "what", .word "is", .word "the"] :=
    ⟨.word "what", List.mem_cons_self, show "what" ∉ filler by decide⟩
  have hit : Anchored [.word "it"] := ⟨.word "it", List.mem_cons_self, show "it" ∉ filler by decide⟩
  have hasset : Anchored [.slot "asset"] := ⟨.slot "asset", List.mem_cons_self, trivial⟩
  simp only [healthTemplate, List.forall_mem_cons]
  refine ⟨.optional hwhat ?_, .word (hwords _ (by decide)), .word (hwords _ (by decide)),
    .group (List.cons_ne_nil _ _) ?_ ?_, List.forall_mem_nil _⟩
  · simp only [List.forall_mem_cons]
    exact ⟨.word (hwords _ (by decide)), .word (hwords _ (by decide)), .word (hwords _ (by decide)),
      List.forall_mem_nil _⟩
  · simp only [List.forall_mem_cons]
    exact ⟨hit, hasset, List.forall_mem_nil _⟩
  · simp only [List.forall_mem_cons]
    exact ⟨⟨.word (hwords _ (by decide)), List.forall_mem_nil _⟩, ⟨.slot (hwords _ (by decide)), List.forall_mem_nil _⟩,
      List.forall_mem_nil _⟩

theorem healthTemplate_matches : ∃ compiled,
    decimalLexicon.compileTemplate (fun name => name.toList.all Char.isLower) statusIntent "en"
      (String.ofList (render healthTemplate)) = some compiled ∧
    ∀ utterance : String, compiled.pattern.fullMatch utterance.toList = true ↔
      Arises decimalLexicon statusIntent healthTemplate utterance :=
  pattern_matches_iff decimalLexicon asciiTables_ascii (fun name => name.toList.all Char.isLower) statusIntent "en"
    healthTemplate healthTemplate_documented
    ⟨.word "health", by simp [healthTemplate], show "health" ∉ filler by decide⟩
    (by simp [healthTemplate, TemplatePart.slotNames]) (by simp [healthTemplate, TemplatePart.slotNames])

end TwinVoice.Nlu
