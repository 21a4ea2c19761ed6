import TwinVoice.Nlu.Catalogue

/-! # From an utterance to an intent

`rules.py` and `router.py`: an utterance is normalised, compared with the
control phrases, then given to the rule matcher and to the language model.
The Unicode tables, the compiled rule templates and the slot parsers are a
`Grammar`, which nothing here looks into. -/

namespace TwinVoice.Nlu

/-- What Python's `unicodedata`, `str` and `re` know about characters. -/
structure UnicodeTables where
  nfkc : String → String
  lower : String → String
  isWord : Char → Bool
  isSpace : Char → Bool

/-- The straight, the curly and the backtick apostrophe. -/
def apostrophes : List Char := [Char.ofNat 0x27, Char.ofNat 0x2019, Char.ofNat 0x60]

/-- `re.sub` of every run of characters in `p` by one space. -/
def subRuns (p : Char → Bool) : Bool → List Char → List Char
  | _, [] => []
  | inRun, c :: cs =>
    if p c then if inRun then subRuns p true cs else ' ' :: subRuns p true cs
    else c :: subRuns p false cs

def strip (p : Char → Bool) (cs : List Char) : List Char :=
  ((cs.dropWhile p).reverse.dropWhile p).reverse

/-- Lowercase, drop apostrophes, punctuation to space, collapse whitespace. -/
def normalise (u : UnicodeTables) (text : String) : String :=
  let folded := (u.lower (u.nfkc text)).toList.filter (· ∉ apostrophes)
  let spaced := subRuns (fun c => !(u.isWord c || c = '%' || u.isSpace c)) false folded
  String.ofList (strip u.isSpace (subRuns u.isSpace false spaced))

/-- The control phrase an utterance is exactly, after normalisation of both. -/
def controlWord (u : UnicodeTables) (cat : Catalogue) (text : String) : Option Control :=
  Control.all.find? fun kind =>
    normalise u text ∈ (cat.controlPhrases kind.key).map (normalise u)

/-- `is_confirm`, the reading that the confirmation protocol is written for. -/
def isConfirm (u : UnicodeTables) (cat : Catalogue) (text : String) : Prop :=
  normalise u text ∈ (cat.controlPhrases "confirm").map (normalise u)

instance (u : UnicodeTables) (cat : Catalogue) (text : String) : Decidable (isConfirm u cat text) :=
  inferInstanceAs (Decidable (_ ∈ _))

/-- The confirm phrases come first, so a phrase of two kinds is a confirm phrase. -/
theorem controlWord_confirm {u : UnicodeTables} {cat : Catalogue} {text : String} :
    controlWord u cat text = some .confirm ↔ isConfirm u cat text := by
  unfold controlWord isConfirm Control.all
  rw [List.find?_cons]
  by_cases h : normalise u text ∈ (cat.controlPhrases Control.confirm.key).map (normalise u)
  · simp only [h, decide_true]
    exact ⟨fun _ => h, fun _ => trivial⟩
  · simp only [h, decide_false]
    refine ⟨fun hfound => ?_, fun hconfirm => absurd hconfirm h⟩
    exact absurd (List.mem_of_find?_eq_some hfound) (by decide)

/-- The tables on the ASCII characters. -/
def asciiTables : UnicodeTables where
  nfkc := id
  lower s := String.ofList (s.toList.map Char.toLower)
  isWord c := c.isAlphanum || c = '_'
  isSpace c := c.isWhitespace

example : controlWord asciiTables shipped "Yes, confirm!" = some .confirm := by decide

inductive RouterKind
  | rules | llm | none
  deriving DecidableEq

/-- `LOW_CONFIDENCE`, the double nearest to 0.6. -/
def lowConfidence : Rat := 5404319552844595 / 9007199254740992

/-- `LLM_CONFIDENCE`. -/
def llmConfidence : Rat := 3 / 4

structure RuleMatch where
  intent : String
  lang : String
  slots : List (String × String)
  confidence : Rat

/-- The call the language model asked for: an intent name and its arguments. -/
structure LlmCall where
  name : String
  arguments : List (String × String)

structure RouterResult where
  intent : String
  tier : Tier
  slots : Params
  rawSlots : List (String × String)
  confidence : Rat
  router : RouterKind
  lang : String
  control : Option Control
  missing : List String

def RouterResult.understood (r : RouterResult) : Bool :=
  r.router ≠ .none ∧ lowConfidence ≤ r.confidence

/-- The rule matcher and the slot parsers, as functions. -/
structure Grammar where
  tables : UnicodeTables
  match? : String → Option RuleMatch
  inferMissing : String → String → List (String × String) → List (String × String)
  parseSlots : Intent → List (String × String) → Instant → Params

/-- `_result`. An intent that the catalogue lacks is an assertion failure. -/
def result (g : Grammar) (cat : Catalogue) (intentName : String) (rawSlots : List (String × String))
    (confidence : Rat) (router : RouterKind) (lang : String) (now : Instant)
    (control : Option Control) (utterance : String) : Except String RouterResult :=
  match cat.get intentName with
  | none => .error s!"unknown intent {intentName}"
  | some intent =>
    let filled := if utterance = "" then rawSlots else g.inferMissing intentName utterance rawSlots
    let slots := g.parseSlots intent filled now
    .ok {
      intent := intent.name
      tier := intent.tier
      slots := slots
      rawSlots := filled
      confidence := confidence
      router := router
      lang := lang
      control := control
      missing := (intent.slots.filter fun s =>
        s.required ∧ s.name ∉ slots.keys ∧ s.context = none).map Slot.name }

/-- `llm_router.route`, given what the model called: an unknown intent is no guess. -/
def llmGuess (cat : Catalogue) (call : Option LlmCall) : Option LlmCall :=
  call.filter fun c => (cat.get c.name).isSome

/-- Control phrases first, rules second, the language model third, help last. -/
def route (g : Grammar) (cat : Catalogue) (text : String) (now : Instant) (lang : String)
    (llm : Option LlmCall) : Except String RouterResult :=
  match controlWord g.tables cat text with
  | some control => result g cat "help" [] 1 .rules lang now (some control) ""
  | none =>
    match g.match? text with
    | some hit => result g cat hit.intent hit.slots hit.confidence .rules hit.lang now none text
    | none =>
      match llmGuess cat llm with
      | some guess => result g cat guess.name guess.arguments llmConfidence .llm lang now none text
      | none => result g cat "help" [] 0 .none lang now none ""

theorem result_ok {g : Grammar} {cat : Catalogue} {intentName : String}
    {rawSlots : List (String × String)} {confidence : Rat} {router : RouterKind} {lang : String}
    {now : Instant} {control : Option Control} {utterance : String} {r : RouterResult}
    (h : result g cat intentName rawSlots confidence router lang now control utterance = .ok r) :
    cat.tier r.intent = some r.tier ∧ r.control = control := by
  unfold result at h
  cases hi : cat.get intentName with
  | none => simp only [hi] at h; cases h
  | some intent =>
    simp only [hi] at h
    cases h
    have hname := Catalogue.get_name hi
    subst hname
    exact ⟨by simp only [Catalogue.tier, hi, Option.map_some], rfl⟩

/-- The route names the control phrase, if any, and an intent with the tier of the catalogue. -/
theorem route_ok {g : Grammar} {cat : Catalogue} {text : String} {now : Instant} {lang : String}
    {llm : Option LlmCall} {r : RouterResult} (h : route g cat text now lang llm = .ok r) :
    cat.tier r.intent = some r.tier ∧ r.control = controlWord g.tables cat text := by
  unfold route at h
  cases hc : controlWord g.tables cat text with
  | some control =>
    simp only [hc] at h
    exact result_ok h
  | none =>
    simp only [hc] at h
    cases hm : g.match? text with
    | some hit =>
      simp only [hm] at h
      exact result_ok h
    | none =>
      simp only [hm] at h
      cases hl : llmGuess cat llm with
      | some guess => simp only [hl] at h; exact result_ok h
      | none => simp only [hl] at h; exact result_ok h

theorem result_slots {g : Grammar} {cat : Catalogue} {intentName : String}
    {rawSlots : List (String × String)} {confidence : Rat} {router : RouterKind} {lang : String}
    {now : Instant} {control : Option Control} {utterance : String} {r : RouterResult}
    (h : result g cat intentName rawSlots confidence router lang now control utterance = .ok r) :
    ∃ intent, cat.get r.intent = some intent ∧ r.slots = g.parseSlots intent r.rawSlots now := by
  unfold result at h
  cases hi : cat.get intentName with
  | none => simp only [hi] at h; cases h
  | some intent =>
    simp only [hi] at h
    cases h
    have hname := Catalogue.get_name hi
    subst hname
    exact ⟨intent, hi, rfl⟩

/-- The slots are parsed from the raw ones for the intent that was found. -/
theorem route_slots {g : Grammar} {cat : Catalogue} {text : String} {now : Instant} {lang : String}
    {llm : Option LlmCall} {r : RouterResult} (h : route g cat text now lang llm = .ok r) :
    ∃ intent, cat.get r.intent = some intent ∧ r.slots = g.parseSlots intent r.rawSlots now := by
  unfold route at h
  cases hc : controlWord g.tables cat text with
  | some control =>
    simp only [hc] at h
    exact result_slots h
  | none =>
    simp only [hc] at h
    cases hm : g.match? text with
    | some hit =>
      simp only [hm] at h
      exact result_slots h
    | none =>
      simp only [hm] at h
      cases hl : llmGuess cat llm with
      | some guess => simp only [hl] at h; exact result_slots h
      | none => simp only [hl] at h; exact result_slots h

end TwinVoice.Nlu
