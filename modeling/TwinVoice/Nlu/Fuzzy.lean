import TwinVoice.Nlu.Slots
import TwinVoice.Voice.Model

/-! # A spoken machine against the registry

`fuzzy.py`: both sides are reduced to the way they are said and then scored.
The score of two phrases is a parameter; what is made of the scores is not. -/

namespace TwinVoice.Nlu

open TwinVoice.Lib TwinVoice.Voice

structure Candidate where
  ref : AssetRef
  score : Rat

/-- `THRESHOLD`. -/
def matchThreshold : Rat := 85

/-- Two candidates this close are a question, not a match. -/
def ambiguousMargin : Rat := 5

namespace Lexicon

/-- `\b0+(\d)` by its digit; `skipping` when zeros have been passed over, `inWord` after a word character. -/
def dropZeros (x : Lexicon) : Bool → Bool → List Char → List Char
  | skipping, _, [] => if skipping then ['0'] else []
  | true, _, c :: cs =>
    if c = '0' then x.dropZeros true true cs
    else if x.isDigit c then c :: x.dropZeros false true cs
    else '0' :: c :: x.dropZeros false (x.tables.isWord c) cs
  | false, inWord, c :: cs =>
    if c = '0' ∧ !inWord then x.dropZeros true true cs
    else c :: x.dropZeros false (x.tables.isWord c) cs

/-- `spoken`: a code or name the way it is said. -/
def spoken (x : Lexicon) (text : String) : String :=
  let separated := subRuns (· ∈ ['-', '_', '/', '.']) false text.toList
  (x.parseAsset (String.ofList (x.dropZeros false false separated))).getD ""

def spokenForms (x : Lexicon) (ref : AssetRef) : List String :=
  ([x.spoken ref.code, x.spoken ref.name].filter (· ≠ "")).eraseDups

/-- A better score of the same machine replaces the one before. -/
def keepBest (best : Dict String Candidate) (c : Candidate) : Dict String Candidate :=
  match best.get? c.ref.id with
  | none => best.set c.ref.id c
  | some held => if held.score < c.score then best.set c.ref.id c else best

/-- Best matches for a spoken reference, highest score first. -/
def rank (x : Lexicon) (scorer : String → String → Rat) (query : String) (refs : List AssetRef) :
    List Candidate :=
  match x.parseAsset query with
  | none => []
  | some spokenQuery =>
    let candidates := refs.flatMap fun ref =>
      (x.spokenForms ref).map fun form => ⟨ref, scorer spokenQuery form⟩
    let best := (candidates.mergeSort fun a b => b.score ≤ a.score).foldl keepBest []
    ((best.map Prod.snd).mergeSort fun a b => b.score ≤ a.score).take 2

/-- The match, when it clears the threshold and is clearly ahead, and the alternatives. -/
def resolve (x : Lexicon) (scorer : String → String → Rat) (query : String) (refs : List AssetRef) :
    Option AssetRef × List AssetRef :=
  match x.rank scorer query refs with
  | [] => (none, [])
  | first :: others =>
    if first.score < matchThreshold then (none, (first :: others).map Candidate.ref)
    else if others.any fun c => first.score - c.score < ambiguousMargin then
      (none, (first :: others).map Candidate.ref)
    else (some first.ref, others.map Candidate.ref)

theorem keepBest_mem {best : Dict String Candidate} {c : Candidate} {e : String × Candidate}
    (h : e ∈ keepBest best c) : e ∈ best ∨ e.2 = c := by
  have hset : e ∈ best.set c.ref.id c → e ∈ best ∨ e.2 = c := fun hmem =>
    (Dict.mem_set.mp hmem).imp And.left (congrArg Prod.snd)
  unfold keepBest at h
  split at h
  · exact hset h
  · split at h
    · exact hset h
    · exact .inl h

theorem foldl_keepBest_mem {candidates : List Candidate} {best : Dict String Candidate}
    {e : String × Candidate} (h : e ∈ candidates.foldl keepBest best) : e ∈ best ∨ e.2 ∈ candidates := by
  induction candidates generalizing best with
  | nil => exact .inl h
  | cons c cs ih =>
    rcases ih h with hkept | hmem
    · rcases keepBest_mem hkept with hold | hnew
      · exact .inl hold
      · exact .inr (hnew ▸ List.mem_cons_self)
    · exact .inr (List.mem_cons_of_mem _ hmem)

/-- A candidate is one of the references. -/
theorem rank_mem {x : Lexicon} {scorer : String → String → Rat} {query : String} {refs : List AssetRef}
    {c : Candidate} (h : c ∈ x.rank scorer query refs) : c.ref ∈ refs := by
  unfold rank at h
  cases hquery : x.parseAsset query with
  | none =>
    rw [hquery] at h
    cases h
  | some spokenQuery =>
    simp only [hquery] at h
    obtain ⟨e, he, rfl⟩ := List.mem_map.mp (List.mem_mergeSort.mp (List.mem_of_mem_take h))
    rcases foldl_keepBest_mem he with hnil | hmem
    · cases hnil
    · obtain ⟨ref, href, hform⟩ := List.mem_flatMap.mp (List.mem_mergeSort.mp hmem)
      obtain ⟨form, -, heq⟩ := List.mem_map.mp hform
      rw [← heq]
      exact href

/-- A match is one of the references. -/
theorem resolve_mem {x : Lexicon} {scorer : String → String → Rat} {query : String}
    {refs : List AssetRef} {ref : AssetRef} (h : (x.resolve scorer query refs).1 = some ref) :
    ref ∈ refs := by
  have hrank := @rank_mem x scorer query refs
  unfold resolve at h
  cases hcandidates : x.rank scorer query refs with
  | nil =>
    rw [hcandidates] at h
    cases h
  | cons first others =>
    simp only [hcandidates] at h hrank
    split at h
    · cases h
    · split at h
      · cases h
      · rw [← Option.some.inj h]
        exact hrank List.mem_cons_self

end Lexicon

end TwinVoice.Nlu
