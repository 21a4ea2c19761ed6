import TwinVoice.Lib.Regex
import TwinVoice.Nlu.Slots

/-! # Templates as patterns

`rules.py` and the noise tables of `vocab.py`: the text of a template is cut
into words, slots and brackets, each becomes a fragment that is required or
not, and the fragments are joined with the space on the side that is present. -/

namespace TwinVoice.Nlu

open TwinVoice.Lib

/-! ## Noise -/

/-- `FILLER`: function words that a channel drops or swaps. -/
def filler : List String :=
  ["the", "a", "an", "is", "its", "are", "me", "do", "please", "of", "we", "i", "to"]

def asrConfusions : List (String × List String) := [
  ("two", ["to", "too"]), ("to", ["two", "too"]), ("four", ["for"]), ("for", ["four"]), ("one", ["on", "won"]),
  ("on", ["one"]), ("what", ["watt"]), ("how", ["now"]), ("show", ["so"]), ("line", ["lane"]), ("is", ["its"]),
  ("kya", ["kia"]), ("hai", ["he"]), ("batao", ["bata"]), ("ka", ["ke"])]

def tokenAlternatives (token : String) : List String := token :: (asrConfusions.lookup token).getD []

/-- The texts as alternatives, the longest first. -/
def alternation (terms : List String) : Regex Char :=
  .anyOf ((terms.mergeSort fun a b => b.length ≤ a.length).map fun t => .text t.toList)

def fillerPattern : Regex Char := alternation filler

/-! ## Slots -/

def closedVocabs : List (String × List String) := [
  ("kpi", kpiTerms.map Prod.fst), ("period", periodTerms.map Prod.fst), ("severity", severityTerms.map Prod.fst),
  ("view", viewTerms.map Prod.fst), ("report_type", reportTypeTerms.map Prod.fst),
  ("verdict", verdictTerms.map Prod.fst)]

namespace Lexicon

variable (x : Lexicon)

/-- `[\w%]+` -/
def wordRun : Regex Char := .plus (.letter fun c => x.tables.isWord c || c = '%')

/-- `\s+` -/
def spaces : Regex Char := .plus (.letter x.tables.isSpace)

/-- `[\w%]+(?:\s+[\w%]+){0,n}` -/
def wordRuns (n : Nat) : Regex Char := .seq x.wordRun (.upTo (.seq x.spaces x.wordRun) n)

/-- `_INDEX` -/
def index : Regex Char := .alt (.plus (.letter x.isDigit)) (alternation (numberWords.map Prod.fst))

/-- `_REFERENCE` -/
def reference : Regex Char := .seq (x.wordRuns 2) (.opt (.seq x.spaces x.index))

/-- `_OPEN_PATTERNS` -/
def openPatterns : List (String × Regex Char) := [
  ("asset", x.reference), ("alarm", x.reference), ("datetime", x.wordRuns 3),
  ("number", .alt (.plus (.letter x.isDigit)) (.plus (.letter Char.isLower))),
  ("text", x.wordRuns 6), ("enum", x.wordRun)]

def slotPattern (type : String) : Regex Char :=
  match closedVocabs.lookup type with
  | some terms => alternation terms
  | none => (x.openPatterns.lookup type).getD (x.wordRuns 6)

end Lexicon

/-! ## Templates -/

/-- A token of a template, or all that stands in a pair of brackets. -/
inductive Item where
  | literal (token : List Char)
  | slot (name : List Char)
  | group (body : List Char)
  | optional (body : List Char)

/-- The loop of `_group`: the tokens up to the one that ends with the closer, and the rest. -/
def upToCloser (closer : Char) : List (List Char) → Option (List (List Char) × List (List Char))
  | [] => none
  | token :: rest =>
    if token.getLast? = some closer then some ([token], rest)
    else (upToCloser closer rest).map fun found => (token :: found.1, found.2)

theorem upToCloser_length {closer : Char} {tokens rest : List (List Char)} {collected : List (List Char)}
    (h : upToCloser closer tokens = some (collected, rest)) : rest.length < tokens.length := by
  induction tokens generalizing collected with
  | nil => cases h
  | cons token tokens ih =>
    rw [upToCloser] at h
    split at h
    · obtain ⟨-, rfl⟩ := Prod.mk.inj (Option.some_inj.mp h)
      exact Nat.lt_succ_self _
    · obtain ⟨⟨collected', rest'⟩, hfound, heq⟩ := Option.map_eq_some_iff.mp h
      obtain ⟨-, rfl⟩ := Prod.mk.inj heq
      exact (ih hfound).trans (Nat.lt_succ_self _)

/-- `_group`: what stands between an opening bracket and its closer, and the tokens after it. -/
def bracketed (closer : Char) (tokens : List (List Char)) : Option (List Char × List (List Char)) :=
  (upToCloser closer tokens).map fun found => (((List.intercalate [' '] found.1).drop 1).dropLast, found.2)

theorem bracketed_length {closer : Char} {tokens rest : List (List Char)} {body : List Char}
    (h : bracketed closer tokens = some (body, rest)) : rest.length < tokens.length := by
  obtain ⟨⟨collected, rest'⟩, hfound, heq⟩ := Option.map_eq_some_iff.mp h
  obtain ⟨-, rfl⟩ := Prod.mk.inj heq
  exact upToCloser_length hfound

/-- The loop of `_parse`, which finds where the brackets end. -/
def items : List (List Char) → Option (List Item)
  | [] => some []
  | token :: rest =>
    if token.head? = some '{' ∧ token.getLast? = some '}' then
      (items rest).map (.slot ((token.drop 1).dropLast) :: ·)
    else if token.head? = some '(' then
      match _h : bracketed ')' (token :: rest) with
      | none => none
      | some (body, after) => (items after).map (.group body :: ·)
    else if token.head? = some '[' then
      match _h : bracketed ']' (token :: rest) with
      | none => none
      | some (body, after) => (items after).map (.optional body :: ·)
    else (items rest).map (.literal token :: ·)
termination_by tokens => tokens.length
decreasing_by
  · simp
  · exact bracketed_length _h
  · exact bracketed_length _h
  · simp

/-- A part of a pattern, and whether it may be left out. -/
structure Fragment where
  regex : Regex Char
  isOptional : Bool

/-- `_literal`: any function word, or the word and what it is mistaken for. -/
def literal (token : String) : Fragment :=
  if token ∈ filler then ⟨fillerPattern, true⟩
  else ⟨.anyOf ((tokenAlternatives token).map fun t => .text t.toList), false⟩

/-- `_keep_an_anchor`: without a required part the first one becomes required. -/
def keepAnAnchor (parts : List Fragment) : List Fragment :=
  if parts.any fun p => !p.isOptional then parts
  else
    match parts with
    | [] => []
    | p :: ps => ⟨p.regex, false⟩ :: ps

/-- The type of a slot is text where the intent does not declare it. -/
def slotTypeOf (intent : Intent) (name : String) : String :=
  ((intent.slots.find? fun s => s.name = name).map Slot.type).getD "text"

namespace Lexicon

variable (x : Lexicon)

/-- A step of `_join`: the space belongs to the side that is present. -/
def joinStep (out : Regex Char × Bool) (p : Fragment) : Regex Char × Bool :=
  if p.isOptional then
    (.seq out.1 (.opt (if out.2 then .seq x.spaces p.regex else .seq p.regex x.spaces)), out.2)
  else (.seq out.1 (if out.2 then .seq x.spaces p.regex else p.regex), true)

/-- `_join` -/
def join (parts : List Fragment) : Regex Char := (parts.foldl x.joinStep (.empty, false)).1

/-- The fragment of an item, given what becomes of the text in brackets. -/
def fragment (intent : Intent) (parseInner : List Char → Option (List Fragment)) : Item → Option Fragment
  | .literal token => some (literal (String.ofList token))
  | .slot name =>
    let name := String.ofList name
    some ⟨.named name (x.slotPattern (slotTypeOf intent name)), false⟩
  | .group body =>
    ((body.splitOn '|').mapM fun option => (parseInner (strip x.tables.isSpace option)).map x.join).map fun options =>
      ⟨.anyOf options, false⟩
  | .optional body => (parseInner body).map fun parts => ⟨x.join parts, true⟩

/-- `_parse`, brackets being opened at most `depth` times in one another. -/
def parse (intent : Intent) : Nat → List Char → Option (List Fragment)
  | 0, _ => none
  | depth + 1, template =>
    (items (template.splitOn ' ')).bind fun found =>
      (found.mapM (x.fragment intent (parse intent depth))).map keepAnAnchor

structure CompiledTemplate where
  intent : String
  lang : String
  source : String
  pattern : Regex Char
  relaxed : Regex Char
  slots : List String
  openSlots : Nat

/-- `compile_template`; it fails where a bracket is not closed, and where `re` refuses a group's name. -/
def compileTemplate (isIdentifier : String → Bool) (intent : Intent) (lang template : String) :
    Option CompiledTemplate :=
  -- a bracket takes two characters, so the depth is never used up
  (x.parse intent (template.length + 2) template.toList).bind fun parts =>
    let body := x.join parts
    let anything : Regex Char := .star (.letter (· ≠ '\n'))
    let space : Regex Char := .letter x.tables.isSpace
    if body.names.Nodup ∧ body.names.all isIdentifier then
      some {
        intent := intent.name
        lang := lang
        source := template
        pattern := body
        relaxed := .seq (.opt (.seq anything space)) (.seq body (.opt (.seq space anything)))
        slots := body.names
        openSlots := body.names.countP fun name => ((closedVocabs.lookup (slotTypeOf intent name)).isNone) }
    else none

end Lexicon

end TwinVoice.Nlu
