import Mathlib.Data.List.Infix
import TwinVoice.Xai.Narration

/-! # Narration audit

Whether a text still says what the attributions say: its drivers, their
directions, its numbers, its features and its recommendation. -/

namespace TwinVoice.Xai

open TwinVoice.Lib TwinVoice.Nlu

/-- `RANK_AGREEMENT_MIN`. -/
def rankAgreementMin : Double := Floating.ofRat _ (2 / 3)

/-- `SIGN_AGREEMENT_MIN`. -/
def signAgreementMin : Double := Floating.ofRat _ 1

/-- `NUMERIC_TOLERANCE`. -/
def numericTolerance : Double := Floating.ofRat _ (1 / 20)

/-- `_RAISE_WORDS`. -/
def raiseWords : List String :=
  ["raising", "increasing", "rising", "pushing up", "driving up", "higher", "elevated"]

/-- `_LOWER_WORDS`. -/
def lowerWords : List String :=
  ["lowering", "decreasing", "falling", "pushing down", "driving down", "reducing", "lower"]

def imperatives : List String :=
  ["replace", "shut down", "stop the", "order ", "dismantle", "rebuild", "overhaul"]

/-- `word in text`. -/
def Within (word text : String) : Prop := word.toList <:+: text.toList

instance decidableWithin (word text : String) : Decidable (Within word text) :=
  List.decidableInfix word.toList text.toList

/-! ## Numbers -/

/-- What `-?\d+(?:[.,]\d+)?` matches at the start of a text, if it matches. -/
def numberAt? (isDigit : Char → Bool) (text : List Char) : Option (List Char) :=
  let (sign, body) := if text.head? = some '-' then (['-'], text.tail) else ([], text)
  let whole := body.takeWhile isDigit
  if whole = [] then none
  else
    match body.dropWhile isDigit with
    | [] => some (sign ++ whole)
    | point :: rest =>
      let fraction := rest.takeWhile isDigit
      if (point = '.' ∨ point = ',') ∧ fraction ≠ [] then some (sign ++ whole ++ point :: fraction)
      else some (sign ++ whole)

/-- `findall`, the first `skip` characters of the text belonging to a match already found. -/
def findNumbers (isDigit : Char → Bool) : Nat → List Char → List (List Char)
  | _, [] => []
  | skip + 1, _ :: text => findNumbers isDigit skip text
  | 0, c :: text =>
    match numberAt? isDigit (c :: text) with
    | some found => found :: findNumbers isDigit (found.length - 1) text
    | none => findNumbers isDigit 0 text

/-- `_numbers_in`. -/
def Texts.numbersIn (x : Texts) (text : String) : List Double :=
  (findNumbers x.isDigit 0 text.toList).filterMap fun found => x.float? (String.ofList (found.filter (· ≠ ',')))

def closeToAny (value : Double) (expected : List Double) : Bool :=
  expected.any fun candidate =>
    if candidate.eq (Floating.ofRat _ 0) then value.abs.lt (Floating.ofRat _ (1 / 10 ^ 9))
    else ((value.sub candidate).abs.div candidate.abs).le numericTolerance

/-! ## Directions -/

/-- `text.find(word)`. -/
def find (text word : List Char) : Int :=
  (((List.range (text.length + 1)).find? fun i => decide (word <+: text.drop i)).map Nat.cast).getD (-1)

/-- The claim near a feature's label must not contradict the sign of its contribution. -/
def signMatches (x : Texts) (lowered : String) (a : Attribution) : Bool :=
  let position := find lowered.toList (x.lower a.label).toList
  let window := String.ofList ((lowered.toList.take (position + 160).toNat).drop (position - 80).toNat)
  let saysUp := raiseWords.any fun word => Within word window
  let saysDown := lowerWords.any fun word => Within word window
  -- Both or neither: nothing to contradict.
  if saysUp = saysDown then true
  else if a.direction = .raising then saysUp
  else saysDown

/-! ## Features and recommendations -/

/-- Feature labels the narration invokes that this explanation never attributed anything to. -/
def hallucinatedFeatures (x : Texts) (lowered : String) (attributions : List Attribution) (l : FeatureLabels) :
    List String :=
  let present := attributions.map fun a => x.lower a.label
  (((l.vocabulary x).filter fun word => Within word lowered ∧ word ∉ present).dedup).insertionSort (· ≤ ·)

/-- A narration may only recommend what the reason card recommends. -/
def unsupportedRecommendation (x : Texts) (lowered : String) (recommendedActions : List String) : Bool :=
  if ¬ ∃ word ∈ imperatives, Within word lowered then false
  else
    let supported := x.lower (String.intercalate " " recommendedActions)
    ¬ ∃ word ∈ imperatives, Within word lowered ∧ Within word supported

/-! ## Audit -/

structure AuditDetails where
  mentionedTopFeatures : List String
  expectedTopFeatures : List String
  unmatchedNumbers : List Double

structure AuditResult where
  rankAgreement : Double
  signAgreement : Double
  numericWithinTolerance : Bool
  hallucinatedFeatures : List String
  unsupportedRecommendation : Bool
  passed : Bool
  details : AuditDetails

/-- A quotient of counts, or 1 when there is nothing to count. -/
def agreement (agreeing all : Nat) : Double := if all = 0 then Floating.ofRat _ 1 else Floating.ofRat _ (agreeing / all)

def auditNarration (x : Texts) (text : String) (attributions : List Attribution) (allowedNumbers : List Double)
    (recommendedActions : List String) (l : FeatureLabels) (topK : Nat) : AuditResult :=
  let lowered := x.lower text
  let top := attributions.take topK
  let mentioned := top.filter fun a => Within (x.lower a.label) lowered
  let rankAgreement := agreement mentioned.length top.length
  let signOk := mentioned.map (signMatches x lowered)
  let signAgreement := agreement (signOk.count true) signOk.length
  let expected := allowedNumbers ++ attributions.map fun a => a.value.roundTo 4
  let unmatched := (x.numbersIn text).filter fun n => !closeToAny n expected
  let hallucinated := hallucinatedFeatures x lowered attributions l
  let unsupported := unsupportedRecommendation x lowered recommendedActions
  { rankAgreement := rankAgreement.roundTo 4
    signAgreement := signAgreement.roundTo 4
    numericWithinTolerance := unmatched.isEmpty
    hallucinatedFeatures := hallucinated
    unsupportedRecommendation := unsupported
    passed := rankAgreementMin.le rankAgreement && signAgreementMin.le signAgreement && unmatched.isEmpty &&
      hallucinated.isEmpty && !unsupported
    details := {
      mentionedTopFeatures := mentioned.map Attribution.feature
      expectedTopFeatures := top.map Attribution.feature
      unmatchedNumbers := unmatched } }

/-! ## Service -/

/-- A stored reason card, by the action that it recommends. -/
structure ReasonCard where
  action : Option String

/-- `(explanation.reason_card or {}).get("action", "")`. -/
def recommendedAction (card : Option ReasonCard) : String := (card.bind ReasonCard.action).getD ""

structure Narration where
  templateText : String
  finalText : String
  llmText : Option String

/-- The audit as the narration service asks for it. -/
def serviceAudit (x : Texts) (candidate : String) (attributions : List Attribution) (card : Option ReasonCard) :
    AuditResult :=
  auditNarration x candidate attributions [] [recommendedAction card] FeatureLabels.shipped 3

/-- `ExplanationService.narration` of the kind `why` in English; `candidate` is the paraphrase, if there is one. -/
def narration (x : Texts) (attributions : List Attribution) (card : Option ReasonCard)
    (candidate : Option String) : Except XaiError (Narration × Option AuditResult) := do
  if attributions = [] then throw (.unprocessable "Explanation has no attributions to narrate")
  let templateText ← why x attributions
  match candidate with
  | none => return (⟨templateText, templateText, none⟩, none)
  | some text =>
    let result := serviceAudit x text attributions card
    return (⟨templateText, if result.passed then text else templateText, some text⟩, some result)

/-- The paraphrase is shown if it passes, and the template if it does not. -/
theorem narration_some {x : Texts} {attributions : List Attribution} (hne : attributions ≠ []) {text : String}
    (hwhy : why x attributions = .ok text) (card : Option ReasonCard) (candidate : String) :
    narration x attributions card (some candidate) = .ok
      (⟨text, if (serviceAudit x candidate attributions card).passed then candidate else text, some candidate⟩,
        some (serviceAudit x candidate attributions card)) := by
  unfold narration
  rw [if_neg hne, hwhy]
  rfl

end TwinVoice.Xai
