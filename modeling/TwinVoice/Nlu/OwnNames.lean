import TwinVoice.Nlu.Fuzzy
import TwinVoice.Nlu.SpokenNumbers

/-! # A machine by its own name

The registry's codes and names are reduced by `spoken`, a query by
`parse_asset` alone, which leaves the underscores and the zeros of a padded
number. A machine that is called by its own code is found in full only when
the code has neither. -/

namespace TwinVoice.Nlu

open TwinVoice.Lib TwinVoice.Voice

/-! ## The best score of a machine -/

namespace Lexicon

variable {x : Lexicon} {scorer : String → String → Rat}

/-- `rank` with its `limit`, which is 2 unless it is given. -/
def rankUpTo (x : Lexicon) (limit : Nat) (scorer : String → String → Rat) (query : String) (refs : List AssetRef) :
    List Candidate :=
  match x.parseAsset query with
  | none => []
  | some spokenQuery =>
    let candidates := refs.flatMap fun ref =>
      (x.spokenForms ref).map fun form => ⟨ref, scorer spokenQuery form⟩
    let best := (candidates.mergeSort fun a b => b.score ≤ a.score).foldl keepBest []
    ((best.map Prod.snd).mergeSort fun a b => b.score ≤ a.score).take limit

theorem rank_eq (query : String) (refs : List AssetRef) : x.rank scorer query refs = x.rankUpTo 2 scorer query refs :=
  rfl

/-- Only the machine of the candidate is touched, and it keeps the better of two. -/
theorem get?_keepBest (best : Dict String Candidate) (c : Candidate) (id : String) :
    (keepBest best c).get? id = if c.ref.id = id then
      some (match best.get? id with
        | none => c
        | some held => if held.score < c.score then c else held) else best.get? id := by
  unfold keepBest
  by_cases hid : c.ref.id = id
  · subst hid
    rw [if_pos rfl]
    cases hheld : best.get? c.ref.id with
    | none => exact (Dict.get?_set ..).trans (if_pos rfl)
    | some held =>
      by_cases hbetter : held.score < c.score
      · simp only [if_pos hbetter]
        exact (Dict.get?_set ..).trans (if_pos rfl)
      · simp only [if_neg hbetter]
        exact hheld
  · rw [if_neg hid]
    have hset : (best.set c.ref.id c).get? id = best.get? id := (Dict.get?_set ..).trans (if_neg hid)
    cases best.get? c.ref.id with
    | none => exact hset
    | some held =>
      dsimp only
      split
      · exact hset
      · rfl

/-- What is kept for a machine is no worse than what was held or offered. -/
theorem keepBest_ge {best : Dict String Candidate} {c : Candidate} {id : String} {s : Rat}
    (h : (c.ref.id = id ∧ s ≤ c.score) ∨ ∃ held, best.get? id = some held ∧ s ≤ held.score) :
    ∃ kept, (keepBest best c).get? id = some kept ∧ s ≤ kept.score := by
  rw [get?_keepBest]
  by_cases hid : c.ref.id = id
  · refine ⟨_, if_pos hid, ?_⟩
    rcases h with ⟨-, hle⟩ | ⟨held, hheld, hle⟩
    · cases best.get? id with
      | none => exact hle
      | some held =>
        dsimp only
        split
        · exact hle
        · exact hle.trans (not_lt.mp ‹_›)
    · rw [hheld]
      dsimp only
      split
      · exact hle.trans (le_of_lt ‹_›)
      · exact hle
  · rw [if_neg hid]
    exact h.resolve_left fun hoffered => hid hoffered.1

theorem foldl_keepBest_ge {candidates : List Candidate} {best : Dict String Candidate} {id : String} {s : Rat}
    (h : (∃ c ∈ candidates, c.ref.id = id ∧ s ≤ c.score) ∨ ∃ held, best.get? id = some held ∧ s ≤ held.score) :
    ∃ kept, (candidates.foldl keepBest best).get? id = some kept ∧ s ≤ kept.score := by
  induction candidates generalizing best with
  | nil => exact h.resolve_left fun ⟨c, hc, _⟩ => nomatch hc
  | cons c cs ih =>
    refine ih ?_
    rcases h with ⟨d, hd, hoffer⟩ | hheld
    · rcases List.mem_cons.mp hd with rfl | hd
      · exact .inr (keepBest_ge (.inl hoffer))
      · exact .inl ⟨d, hd, hoffer⟩
    · exact .inr (keepBest_ge (.inr hheld))

theorem foldl_keepBest_id {candidates : List Candidate} {best : Dict String Candidate}
    (h : ∀ id c, best.get? id = some c → c.ref.id = id) {id : String} {c : Candidate}
    (hc : (candidates.foldl keepBest best).get? id = some c) : c.ref.id = id := by
  induction candidates generalizing best with
  | nil => exact h id c hc
  | cons d ds ih =>
    refine ih (fun id' c' hkept => ?_) hc
    rw [get?_keepBest] at hkept
    split at hkept
    · rename_i hid
      obtain rfl := Option.some_inj.mp hkept
      cases hheld : best.get? id' with
      | none => exact hid
      | some held =>
        dsimp only
        split
        · exact hid
        · exact h id' held hheld
    · exact h id' c' hkept

theorem exists_mem_take {α : Type} {c : α} {l : List α} : (∃ n, c ∈ l.take n) ↔ c ∈ l :=
  ⟨fun ⟨_, h⟩ => List.mem_of_mem_take h, fun h => ⟨l.length, by rwa [List.take_length]⟩⟩

/-- A machine is reported with a hundred, if enough are reported, just when one of its forms scores a hundred. -/
theorem mem_rankUpTo_iff {query spokenQuery : String} {refs : List AssetRef} {ref : AssetRef}
    (hquery : x.parseAsset query = some spokenQuery) (hids : (refs.map AssetRef.id).Nodup) (href : ref ∈ refs)
    (hle : ∀ a b, scorer a b ≤ 100) :
    (∃ limit, ⟨ref, 100⟩ ∈ x.rankUpTo limit scorer query refs) ↔
      ∃ form ∈ x.spokenForms ref, scorer spokenQuery form = 100 := by
  unfold rankUpTo
  simp only [hquery]
  generalize hcandidates : (refs.flatMap fun r =>
    (x.spokenForms r).map fun form => (⟨r, scorer spokenQuery form⟩ : Candidate)) = candidates
  have hmem (c : Candidate) : c ∈ candidates ↔
      c.ref ∈ refs ∧ ∃ form ∈ x.spokenForms c.ref, scorer spokenQuery form = c.score := by
    rw [← hcandidates]
    simp only [List.mem_flatMap, List.mem_map]
    constructor
    · rintro ⟨r, hr, form, hform, rfl⟩
      exact ⟨hr, form, hform, rfl⟩
    · rintro ⟨hr, form, hform, hscore⟩
      exact ⟨c.ref, hr, form, hform, by rw [hscore]⟩
  have hkept {id : String} {c : Candidate}
      (h : (id, c) ∈ (candidates.mergeSort fun a b => b.score ≤ a.score).foldl keepBest []) : c ∈ candidates :=
    List.mem_mergeSort.mp ((foldl_keepBest_mem h).resolve_left List.not_mem_nil)
  rw [exists_mem_take]
  constructor
  · intro hc
    obtain ⟨⟨id, c⟩, hc, rfl⟩ := List.mem_map.mp (List.mem_mergeSort.mp hc)
    exact ((hmem _).mp (hkept hc)).2
  · intro ⟨form, hform, hscore⟩
    have hoffered : (⟨ref, 100⟩ : Candidate) ∈ candidates := (hmem _).mpr ⟨href, form, hform, hscore⟩
    obtain ⟨c, hc, hbest⟩ := @foldl_keepBest_ge _ [] _ _ (.inl ⟨_, List.mem_mergeSort.mpr hoffered, rfl, le_rfl⟩)
    obtain ⟨hin, form', -, hscore'⟩ := (hmem c).mp (hkept (Dict.mem_of_get? hc))
    have hid : c.ref.id = ref.id := foldl_keepBest_id (fun _ _ h => by cases h) hc
    have hsame : c = ⟨ref, 100⟩ := by
      obtain ⟨r, score⟩ := c
      obtain rfl : r = ref := List.inj_on_of_nodup_map hids hin href hid
      have hscored : score ≤ 100 := le_of_eq_of_le hscore'.symm (hle _ _)
      rw [le_antisymm hscored hbest]
    rw [← hsame]
    exact List.mem_mergeSort.mpr (List.mem_map.mpr ⟨_, Dict.mem_of_get? hc, rfl⟩)

end Lexicon

/-! ## Zero padding -/

/-- `_ZERO_PADDED` is found: a zero before a digit, where a word begins. -/
def zeroPadded : Bool → List Char → Bool
  | _, [] => false
  | inWord, c :: cs => (!inWord && c = '0' && cs.head?.any Char.isDigit) || zeroPadded (asciiWord c) cs

theorem zeroPadded_map_toLower (inWord : Bool) (cs : List Char) :
    zeroPadded inWord (cs.map Char.toLower) = zeroPadded inWord cs := by
  induction cs generalizing inWord with
  | nil => rfl
  | cons c cs ih =>
    obtain ⟨hword, -, -, hsame⟩ := toLower_facts c
    have hhead : (cs.map Char.toLower).head?.any Char.isDigit = cs.head?.any Char.isDigit := by
      cases cs with
      | nil => rfl
      | cons d ds => exact (toLower_facts d).2.1
    rw [List.map_cons, zeroPadded, zeroPadded, hword, hhead, ih]
    simp only [hsame '0' (by decide)]

/-- Where a word ends, what follows is read by itself. -/
theorem zeroPadded_append {a rest : List Char} (hne : a ≠ []) (hrest : ∀ s ∈ rest.head?, asciiWord s = false)
    (inWord : Bool) : zeroPadded inWord (a ++ rest) = (zeroPadded inWord a || zeroPadded false rest) := by
  have hfresh (b : Bool) : zeroPadded b rest = zeroPadded false rest := by
    cases rest with
    | nil => rfl
    | cons s rest =>
      have hs : s ≠ '0' := by
        rintro rfl
        exact absurd (hrest '0' rfl) (by decide)
      simp [zeroPadded, hs]
  have hhead : rest.head?.any Char.isDigit = false := by
    cases rest with
    | nil => rfl
    | cons s rest =>
      have hs := hrest s rfl
      simp only [asciiWord, Char.isAlphanum, Bool.or_eq_false_iff] at hs
      exact hs.1.2
  induction a generalizing inWord with
  | nil => exact absurd rfl hne
  | cons c a ih =>
    cases a with
    | nil => simp [zeroPadded, hhead, hfresh]
    | cons d a =>
      have hlater := ih (List.cons_ne_nil d a) (asciiWord c)
      show (_ || zeroPadded (asciiWord c) (d :: a ++ rest)) = (_ || zeroPadded (asciiWord c) (d :: a) || _)
      rw [hlater, Bool.or_assoc]
      rfl

theorem zeroPadded_tokens {p : Char → Bool} {cs : List Char} (hp : ∀ c ∈ cs, p c = true → asciiWord c = false) :
    zeroPadded false cs = true ↔ ∃ w ∈ tokens p cs, zeroPadded false w = true := by
  induction cs using run_induction p with
  | nil => simp [zeroPadded]
  | sep s cs hs ih =>
    obtain ⟨hword, hcs⟩ := List.forall_mem_cons.mp hp
    have hfirst : zeroPadded false (s :: cs) = zeroPadded false cs := by
      have hzero : s ≠ '0' := by
        rintro rfl
        exact absurd (hword hs) (by decide)
      simp [zeroPadded, hzero, hword hs]
    rw [hfirst, tokens_sep hs, ih hcs]
  | run a rest hne hrun hrest ih =>
    have hrest' := (List.forall_mem_append.mp hp).2
    rw [zeroPadded_append hne (fun s hs => hrest' s (List.mem_of_mem_head? hs) (hrest s hs)), Bool.or_eq_true,
      tokens_run hne hrun hrest, ih hrest']
    simp


theorem zeroPadded_subRuns {p : Char → Bool} {cs : List Char} (hp : ∀ c ∈ cs, p c = true → asciiWord c = false) :
    zeroPadded false (subRuns p false cs) = zeroPadded false cs := by
  have hwords : tokens (fun c => !asciiWord c) (subRuns p false cs) = tokens (fun c => p c || !asciiWord c) cs :=
    tokens_subRuns (fun _ => rfl) (by decide) false cs
  rw [Bool.eq_iff_iff, zeroPadded_tokens (p := fun c => !asciiWord c) fun _ _ h => by simpa using h, hwords]
  refine (zeroPadded_tokens fun c hc hsep => ?_).symm
  rw [Bool.or_eq_true] at hsep
  exact hsep.elim (hp c hc) fun h => by simpa using h

/-! ## What `spoken` takes away -/

theorem map_subRuns {p : Char → Bool} {f : Char → Char} (hspace : f ' ' = ' ') (hp : ∀ c, p (f c) = p c) (inRun : Bool)
    (cs : List Char) : (subRuns p inRun cs).map f = subRuns p inRun (cs.map f) := by
  induction cs generalizing inRun with
  | nil => rfl
  | cons c cs ih =>
    rw [List.map_cons, subRuns, subRuns, hp]
    cases p c with
    | true => cases inRun <;> simp [ih, hspace]
    | false => simp [ih]

namespace Lexicon

variable {x : Lexicon}

/-- The digits are the ASCII ones, among the printable characters. -/
def DecimalDigits (x : Lexicon) : Prop := ∀ c, printable c = true → x.isDigit c = c.isDigit

theorem mem_dropZeros {skipping inWord : Bool} {cs : List Char} {c : Char}
    (h : c ∈ x.dropZeros skipping inWord cs) : c ∈ cs ∨ c = '0' := by
  fun_induction Lexicon.dropZeros x skipping inWord cs <;> grind

theorem dropZeros_of_unpadded (hu : x.tables.Ascii) (hdigits : x.DecimalDigits) {cs : List Char}
    (hcs : ∀ c ∈ cs, printable c = true) {inWord : Bool} (h : zeroPadded inWord cs = false) :
    x.dropZeros false inWord cs = cs := by
  induction hlen : cs.length using Nat.strong_induction_on generalizing cs inWord with
  | _ n ih =>
    cases cs with
    | nil => rfl
    | cons c cs =>
      obtain ⟨hc, htail⟩ := List.forall_mem_cons.mp hcs
      obtain ⟨hhere, hlater⟩ := Bool.or_eq_false_iff.mp h
      rw [Lexicon.dropZeros]
      split
      · obtain ⟨rfl, hstart⟩ := ‹_ ∧ _›
        cases cs with
        | nil => rfl
        | cons d ds =>
          obtain ⟨hprintable, hds⟩ := List.forall_mem_cons.mp htail
          have hd : d.isDigit = false := by simpa [hstart] using hhere
          have hzero : d ≠ '0' := by
            rintro rfl
            cases hd
          have hnext : zeroPadded (asciiWord d) ds = false := (Bool.or_eq_false_iff.mp hlater).2
          rw [Lexicon.dropZeros, if_neg hzero, if_neg (by simp [hdigits d hprintable, hd]), hu.isWord d hprintable]
          refine congrArg (fun rest => '0' :: d :: rest) (ih ds.length ?_ hds hnext rfl)
          simp only [← hlen, List.length_cons]
          omega
      · rw [hu.isWord c hc]
        exact congrArg _ (ih _ (by simp [← hlen]) htail hlater rfl)

theorem zeroPadded_dropZeros (hu : x.tables.Ascii) (hdigits : x.DecimalDigits) {cs : List Char}
    (hcs : ∀ c ∈ cs, printable c = true) (inWord : Bool) :
    zeroPadded inWord (x.dropZeros false inWord cs) = false ∧ zeroPadded false (x.dropZeros true true cs) = false := by
  induction cs generalizing inWord with
  | nil => exact ⟨rfl, rfl⟩
  | cons c cs ih =>
    obtain ⟨hc, hcs⟩ := List.forall_mem_cons.mp hcs
    have hword : x.tables.isWord c = asciiWord c := hu.isWord c hc
    rw [Lexicon.dropZeros, Lexicon.dropZeros, hword]
    constructor
    · split
      · obtain ⟨-, hstart⟩ := ‹_ ∧ _›
        rw [Bool.not_eq_true'] at hstart
        exact hstart ▸ (ih hcs false).2
      · rename_i hno
        have hhere : (!inWord && decide (c = '0')) = false := by
          rw [Bool.and_comm]
          simpa using hno
        rw [zeroPadded, hhere, Bool.false_and, Bool.false_or]
        exact (ih hcs _).1
    · split
      · exact (ih hcs false).2
      · rename_i hzero
        split
        · rename_i hdigit
          have hword : asciiWord c = true := by
            rw [hdigits c hc] at hdigit
            simp [asciiWord, Char.isAlphanum, hdigit]
          rw [zeroPadded, hword]
          simpa [hzero] using (ih hcs true).1
        · rename_i hdigit
          rw [hdigits c hc] at hdigit
          have hrest : zeroPadded (asciiWord c) (x.dropZeros false (asciiWord c) cs) = false := (ih hcs _).1
          simpa [zeroPadded, hzero, hdigit] using hrest

/-! ## What is heard of a text -/

/-- The words of a text that are not noise, with the number words as numbers. -/
def heard (x : Lexicon) (text : String) : List String :=
  ((x.words text).filter (· ∉ assetNoise)).map fun t => ((numberWords.lookup t).map toString).getD t

/-- A code or a name with spaces for its separators and its numbers unpadded. -/
def undressed (x : Lexicon) (text : String) : String :=
  String.ofList (x.dropZeros false false (subRuns (· ∈ ['-', '_', '/', '.']) false text.toList))

/-- The query is the label, in any case. -/
def SameLetters (x : Lexicon) (query label : String) : Prop :=
  x.tables.lower (x.tables.nfkc query) = x.tables.lower (x.tables.nfkc label)

theorem heard_of_sameLetters {query label : String} (h : x.SameLetters query label) :
    x.heard query = x.heard label := by
  have hnormal : normalise x.tables query = normalise x.tables label := by
    unfold normalise
    rw [h]
  unfold heard words
  rw [hnormal]

theorem words_empty (hu : x.tables.Ascii) : x.words "" = [] := by
  have hempty : ∀ c ∈ "".toList, printable c = true := fun c hc => by simp at hc
  rw [words_eq hu, folded, hu.nfkc "" hempty, hu.lower "" hempty]
  rfl

theorem parseAsset_eq (hu : x.tables.Ascii) (text : String) :
    x.parseAsset text = if x.heard text = [] then none else some (String.intercalate " " (x.heard text)) := by
  unfold parseAsset heard
  simp only [List.map_eq_nil_iff]
  by_cases htext : text = ""
  · simp [htext, words_empty hu]
  · simp [htext]

/-- A number is written without spaces. -/
theorem numerals_free : ∀ e ∈ numberWords, (toString e.2).toList ≠ [] ∧ ' ' ∉ (toString e.2).toList := by
  decide

theorem mem_words {text w : String} (h : w ∈ x.words text) :
    w.toList ∈ tokens x.tables.isSpace (normalise x.tables text).toList := by
  obtain ⟨cs, hcs, rfl⟩ := List.mem_map.mp h
  rw [String.toList_ofList]
  exact hcs

theorem mem_heard {text w : String} (h : w ∈ x.heard text) :
    w ∈ x.words text ∨ ∃ e ∈ numberWords, w = toString e.2 := by
  obtain ⟨t, ht, rfl⟩ := List.mem_map.mp h
  cases hnumber : numberWords.lookup t with
  | none => exact .inl (List.mem_of_mem_filter ht)
  | some n => exact .inr ⟨(t, n), Dict.mem_of_get? hnumber, rfl⟩

theorem free_of_mem_heard (hu : x.tables.Ascii) {text w : String} (h : w ∈ x.heard text) :
    w.toList ≠ [] ∧ ∀ c ∈ w.toList, decide (c = ' ') = false := by
  rcases mem_heard h with hword | ⟨e, he, rfl⟩
  · have htoken := mem_words hword
    refine ⟨ne_nil_of_mem_tokens htoken, fun c hc => decide_eq_false ?_⟩
    rintro rfl
    have hspace := (mem_of_mem_tokens htoken hc).2
    rw [hu.isSpace ' ' (by decide)] at hspace
    cases hspace
  · obtain ⟨hne, hfree⟩ := numerals_free e he
    refine ⟨hne, fun c hc => decide_eq_false ?_⟩
    rintro rfl
    exact hfree hc

theorem heard_inj (hu : x.tables.Ascii) {a b : String}
    (h : String.intercalate " " (x.heard a) = String.intercalate " " (x.heard b)) : x.heard a = x.heard b := by
  have hwords (text : String) :
      tokens (fun c => decide (c = ' ')) (String.intercalate " " (x.heard text)).toList =
        (x.heard text).map String.toList := by
    rw [String.toList_intercalate]
    refine tokens_intercalate (by decide) fun w hw => ?_
    obtain ⟨v, hv, rfl⟩ := List.mem_map.mp hw
    exact free_of_mem_heard hu hv
  have hlists := (hwords a).symm.trans ((congrArg (fun s : String => tokens _ s.toList) h).trans (hwords b))
  exact List.map_injective_iff.mpr (fun _ _ => String.toList_inj.mp) hlists

/-! ## A machine that is found in full -/

/-- The words of a scored text. -/
def scoredWords (text : String) : List (List Char) := tokens (fun c => decide (c = ' ')) text.toList

/-- What is taken from `token_set_ratio`. -/
structure TokenSetScorer (scorer : String → String → Rat) : Prop where
  same : ∀ s, s ≠ "" → scorer s s = 100
  apart : ∀ a b, ¬ scoredWords a ⊆ scoredWords b → ¬ scoredWords b ⊆ scoredWords a → scorer a b < 100
  most : ∀ a b, scorer a b ≤ 100

/-- Whatever the scorer, the machine scores a hundred. -/
def FoundInFull (x : Lexicon) (refs : List AssetRef) (ref : AssetRef) (query : String) : Prop :=
  ∀ scorer, TokenSetScorer scorer → ∃ limit, ⟨ref, 100⟩ ∈ x.rankUpTo limit scorer query refs

theorem equality_scores : TokenSetScorer fun a b => if a = b then 100 else 0 where
  same _ _ := if_pos rfl
  apart a b hab _ := by
    have hne : a ≠ b := fun h => hab (h ▸ List.Subset.refl _)
    rw [if_neg hne]
    decide +kernel
  most a b := by split <;> norm_num

theorem spoken_iff {o form : String} :
    form = x.spoken o ∧ form ≠ "" ↔ x.parseAsset (x.undressed o) = some form := by
  have hspoken : x.spoken o = (x.parseAsset (x.undressed o)).getD "" := by
    unfold spoken undressed
    rfl
  rw [hspoken]
  cases hparsed : x.parseAsset (x.undressed o) with
  | none => simp
  | some said =>
    rw [Option.getD_some, Option.some_inj, eq_comm]
    exact and_iff_left_of_imp fun hsame => hsame ▸ parseAsset_ne_empty hparsed

theorem mem_spokenForms {ref : AssetRef} {form : String} :
    form ∈ x.spokenForms ref ↔ ∃ o ∈ [ref.code, ref.name], x.parseAsset (x.undressed o) = some form := by
  unfold spokenForms
  rw [List.mem_eraseDups, List.mem_filter, decide_eq_true_iff, List.mem_pair, or_and_right, spoken_iff, spoken_iff]
  simp

/-- A query of which something is heard is found in full just when one of the two labels is heard alike. -/
theorem foundInFull_iff (hu : x.tables.Ascii) {refs : List AssetRef} {ref : AssetRef} {query : String}
    (hids : (refs.map AssetRef.id).Nodup) (href : ref ∈ refs) :
    x.FoundInFull refs ref query ↔
      x.heard query ≠ [] ∧ ∃ o ∈ [ref.code, ref.name], x.heard query = x.heard (x.undressed o) := by
  have hquery := parseAsset_eq hu query
  by_cases hheard : x.heard query = []
  · rw [if_pos hheard] at hquery
    refine iff_of_false (fun h => ?_) fun h => h.1 hheard
    obtain ⟨limit, hmem⟩ := h _ equality_scores
    unfold rankUpTo at hmem
    rw [hquery] at hmem
    cases hmem
  · rw [if_neg hheard] at hquery
    have hsame (o : String) : x.parseAsset (x.undressed o) = some (String.intercalate " " (x.heard query)) ↔
        x.heard query = x.heard (x.undressed o) := by
      rw [parseAsset_eq hu]
      constructor
      · intro h
        split at h
        · cases h
        · exact heard_inj hu (Option.some_inj.mp h).symm
      · intro h
        rw [← h, if_neg hheard]
    rw [and_iff_right hheard]
    constructor
    · intro h
      obtain ⟨form, hform, hscore⟩ :=
        (mem_rankUpTo_iff hquery hids href equality_scores.most).mp (h _ equality_scores)
      have hequal : String.intercalate " " (x.heard query) = form := by
        by_contra hne
        rw [if_neg hne] at hscore
        norm_num at hscore
      obtain ⟨o, ho, hparsed⟩ := mem_spokenForms.mp hform
      exact ⟨o, ho, (hsame o).mp (hequal ▸ hparsed)⟩
    · intro ⟨o, ho, halike⟩ scorer hscorer
      have hparsed := (hsame o).mpr halike
      exact (mem_rankUpTo_iff hquery hids href hscorer.most).mpr
        ⟨_, mem_spokenForms.mpr ⟨o, ho, hparsed⟩, hscorer.same _ (parseAsset_ne_empty hparsed)⟩

end Lexicon

/-! ## Typed labels -/

/-- A printable ASCII character that is no apostrophe. -/
def typed (c : Char) : Bool := printable c && c ∉ apostrophes

/-- What undressing takes away: an underscore or a padded number. -/
def Dressed (cs : List Char) : Prop := zeroPadded false cs = true ∨ '_' ∈ cs

instance Dressed.decidable (cs : List Char) : Decidable (Dressed cs) := inferInstanceAs (Decidable (_ ∨ _))

theorem dressed_map_toLower (cs : List Char) : Dressed (cs.map Char.toLower) ↔ Dressed cs := by
  have hunderscore : '_' ∈ cs.map Char.toLower ↔ '_' ∈ cs := by
    simp [(toLower_facts _).2.2.2 '_' (by decide)]
  unfold Dressed
  rw [zeroPadded_map_toLower, hunderscore]

theorem dressed_tokens {p : Char → Bool} {cs : List Char} (hp : ∀ c ∈ cs, p c = true → asciiWord c = false) :
    Dressed cs ↔ ∃ w ∈ tokens p cs, Dressed w := by
  have hunderscore : '_' ∈ cs ↔ ∃ w ∈ tokens p cs, '_' ∈ w := by
    refine ⟨fun h => exists_token_of_mem h ?_, fun ⟨w, hw, h⟩ => (mem_of_mem_tokens hw h).1⟩
    exact Bool.eq_false_iff.mpr fun hsep => absurd (hp '_' h hsep) (by decide)
  unfold Dressed
  rw [zeroPadded_tokens hp, hunderscore]
  simp only [and_or_left, exists_or]

theorem typed_toLower {c : Char} (h : typed c = true) : typed c.toLower = true := by
  obtain ⟨-, -, hprintable, hsame⟩ := toLower_facts c
  have happ : ∀ d ∈ apostrophes, d.isAlpha = false := List.all_iff_forall_prop.mp (by decide)
  simp only [typed, Bool.and_eq_true, decide_eq_true_iff] at h ⊢
  exact ⟨hprintable h.1, fun hmem => h.2 ((hsame _ (happ _ hmem)).mp rfl ▸ hmem)⟩

theorem folded_of_typed {u : UnicodeTables} (hu : u.Ascii) {cs : List Char} (hcs : ∀ c ∈ cs, typed c = true) :
    Lexicon.folded u (String.ofList cs) = cs.map Char.toLower := by
  have hprintable : ∀ c ∈ (String.ofList cs).toList, printable c = true := fun c hc =>
    (Bool.and_eq_true_iff.mp (hcs c (by simpa using hc))).1
  unfold Lexicon.folded
  rw [hu.nfkc _ hprintable, hu.lower _ hprintable, String.toList_ofList, String.toList_ofList]
  refine List.filter_eq_self.mpr fun c hc => ?_
  obtain ⟨d, hd, rfl⟩ := List.mem_map.mp hc
  exact (Bool.and_eq_true_iff.mp (typed_toLower (hcs d hd))).2

theorem separates_word {u : UnicodeTables} (hu : u.Ascii) {cs : List Char} (hcs : ∀ c ∈ cs, typed c = true) :
    ∀ c ∈ cs.map Char.toLower, Lexicon.separates u c = true → asciiWord c = false := by
  intro c hc hsep
  obtain ⟨d, hd, rfl⟩ := List.mem_map.mp hc
  have hprintable := (Bool.and_eq_true_iff.mp (typed_toLower (hcs d hd))).1
  have hword : u.isWord d.toLower = asciiWord d.toLower := hu.isWord _ hprintable
  simp only [Lexicon.separates, hword, Bool.not_eq_true', Bool.or_eq_false_iff] at hsep
  exact hsep.1

namespace Lexicon

variable {x : Lexicon}

/-- The words of a typed text. -/
theorem words_of_typed (hu : x.tables.Ascii) {cs : List Char} (hcs : ∀ c ∈ cs, typed c = true) :
    x.words (String.ofList cs) = (tokens (separates x.tables) (cs.map Char.toLower)).map String.ofList := by
  rw [words_eq hu, folded_of_typed hu hcs]

/-- A dressed word is neither noise nor a number word nor a numeral. -/
theorem mem_heard_of_dressed {text : String} {w : List Char} (h : Dressed w) :
    String.ofList w ∈ x.heard text ↔ String.ofList w ∈ x.words text := by
  have hbare : (∀ n ∈ assetNoise, ¬ Dressed n.toList) ∧
      ∀ e ∈ numberWords, ¬ Dressed e.1.toList ∧ ¬ Dressed (toString e.2).toList := by
    decide
  have hlist : (String.ofList w).toList = w := String.toList_ofList
  constructor
  · intro hw
    rcases mem_heard hw with hword | ⟨e, he, hnumeral⟩
    · exact hword
    · exact absurd (by rw [← hnumeral, hlist]; exact h) (hbare.2 e he).2
  · intro hw
    refine List.mem_map.mpr ⟨_, List.mem_filter.mpr ⟨hw, decide_eq_true fun hnoise => ?_⟩, ?_⟩
    · exact hbare.1 _ hnoise (by rw [hlist]; exact h)
    · cases hnumber : numberWords.lookup (String.ofList w) with
      | none => rfl
      | some n => exact absurd (by rw [hlist]; exact h) (hbare.2 _ (Dict.mem_of_get? hnumber)).1

theorem typed_subRuns {p : Char → Bool} {cs : List Char} (hcs : ∀ c ∈ cs, typed c = true) :
    ∀ c ∈ subRuns p false cs, typed c = true := by
  intro c hc
  rcases mem_subRuns hc with rfl | ⟨hin, -⟩
  · decide
  · exact hcs c hin

theorem undressed_chars (hu : x.tables.Ascii) (hdigits : x.DecimalDigits) {label : String}
    (hlabel : ∀ c ∈ label.toList, typed c = true) :
    (∀ c ∈ (x.undressed label).toList, typed c = true) ∧ ¬ Dressed (x.undressed label).toList := by
  have hseparated : ∀ c ∈ subRuns (· ∈ ['-', '_', '/', '.']) false label.toList, typed c = true :=
    typed_subRuns hlabel
  unfold undressed
  rw [String.toList_ofList]
  refine ⟨fun c hc => ?_, ?_⟩
  · rcases mem_dropZeros hc with hin | rfl
    · exact hseparated c hin
    · decide
  · rintro (hpadded | hunderscore)
    · have hprintable : ∀ c ∈ subRuns (· ∈ ['-', '_', '/', '.']) false label.toList, printable c = true := fun c hc =>
        (Bool.and_eq_true_iff.mp (hseparated c hc)).1
      rw [(zeroPadded_dropZeros hu hdigits hprintable false).1] at hpadded
      cases hpadded
    · rcases mem_dropZeros hunderscore with hin | hzero
      · rcases mem_subRuns hin with hspace | ⟨-, hkept⟩
        · cases hspace
        · cases hkept
      · cases hzero

theorem words_undressed (hu : x.tables.Ascii) (hdigits : x.DecimalDigits) {label : String}
    (hlabel : ∀ c ∈ label.toList, typed c = true) (hbare : ¬ Dressed label.toList) :
    x.words (x.undressed label) = x.words label := by
  obtain ⟨hpadded, hunderscore⟩ := not_or.mp hbare
  have hsigns : ∀ c ∈ ['-', '_', '/', '.'], c.isAlpha = false ∧
      (c = '_' ∨ asciiWord c = false ∧ c ≠ '%' ∧ printable c = true) := List.all_iff_forall_prop.mp (by decide)
  have hseparated : ∀ c ∈ subRuns (· ∈ ['-', '_', '/', '.']) false label.toList, typed c = true :=
    typed_subRuns hlabel
  have hundressed : x.undressed label = String.ofList (subRuns (· ∈ ['-', '_', '/', '.']) false label.toList) := by
    refine congrArg String.ofList (dropZeros_of_unpadded hu hdigits ?_ ?_)
    · exact fun c hc => (Bool.and_eq_true_iff.mp (hseparated c hc)).1
    · rw [zeroPadded_subRuns fun c hc hsep => ?_]
      · exact Bool.eq_false_iff.mpr hpadded
      · rcases (hsigns c (of_decide_eq_true hsep)).2 with rfl | h
        · exact absurd hc hunderscore
        · exact h.1
  have hlower (c : Char) : decide (c.toLower ∈ ['-', '_', '/', '.']) = decide (c ∈ ['-', '_', '/', '.']) := by
    refine decide_eq_decide.mpr ⟨fun h => ?_, fun h => ?_⟩
    · exact ((toLower_facts c).2.2.2 _ (hsigns _ h).1).mp rfl ▸ h
    · rw [((toLower_facts c).2.2.2 c (hsigns c h).1).mpr rfl]
      exact h
  have hspaced : ∀ c ∈ label.toList.map Char.toLower,
      (decide (c ∈ ['-', '_', '/', '.']) || separates x.tables c) = separates x.tables c := by
    intro c hc
    cases hsep : decide (c ∈ ['-', '_', '/', '.']) with
    | false => rfl
    | true =>
      rcases (hsigns c (of_decide_eq_true hsep)).2 with rfl | ⟨hword, hpercent, hprintable⟩
      · obtain ⟨d, hd, hsame⟩ := List.mem_map.mp hc
        exact absurd (((toLower_facts d).2.2.2 '_' (by decide)).mp hsame ▸ hd) hunderscore
      · have hout : x.tables.isWord c = false := (hu.isWord c hprintable).trans hword
        simp [separates, hout, hpercent]
  calc x.words (x.undressed label)
      = (tokens (separates x.tables) (subRuns (· ∈ ['-', '_', '/', '.']) false
          (label.toList.map Char.toLower))).map String.ofList := by
        rw [hundressed, words_of_typed hu hseparated, map_subRuns rfl hlower]
    _ = (tokens (separates x.tables) (label.toList.map Char.toLower)).map String.ofList := by
        rw [tokens_subRuns (fun _ => rfl) ?_, tokens_congr hspaced]
        simp [separates, hu.isWord ' ' (by decide)]
    _ = x.words label := by rw [← words_of_typed hu hlabel, String.ofList_toList]

/-- Of typed labels, one is heard as one of them undressed just when there is nothing to take away. -/
theorem heard_undressed_iff (hu : x.tables.Ascii) (hdigits : x.DecimalDigits) {labels : List String} {label : String}
    (hlabels : ∀ o ∈ labels, ∀ c ∈ o.toList, typed c = true) (hlabel : label ∈ labels) :
    (∃ o ∈ labels, x.heard label = x.heard (x.undressed o)) ↔ ¬ Dressed label.toList := by
  have hwords (o : String) (ho : ∀ c ∈ o.toList, typed c = true) :
      x.words o = (tokens (separates x.tables) (o.toList.map Char.toLower)).map String.ofList := by
    rw [← words_of_typed hu ho, String.ofList_toList]
  have hdressed (o : String) (ho : ∀ c ∈ o.toList, typed c = true) :
      Dressed o.toList ↔ ∃ w ∈ tokens (separates x.tables) (o.toList.map Char.toLower), Dressed w := by
    rw [← dressed_map_toLower, dressed_tokens (separates_word hu ho)]
  constructor
  · intro ⟨o, ho, halike⟩ hpadded
    obtain ⟨htyped, hbare⟩ := undressed_chars hu hdigits (hlabels o ho)
    obtain ⟨w, hw, hdress⟩ := (hdressed label (hlabels label hlabel)).mp hpadded
    have hheard : String.ofList w ∈ x.heard (x.undressed o) := by
      rw [← halike, mem_heard_of_dressed hdress, hwords label (hlabels label hlabel)]
      exact List.mem_map_of_mem hw
    rw [mem_heard_of_dressed hdress, hwords _ htyped] at hheard
    obtain ⟨v, hv, hsame⟩ := List.mem_map.mp hheard
    exact hbare ((hdressed _ htyped).mpr ⟨w, String.ofList_injective hsame ▸ hv, hdress⟩)
  · intro hbare
    refine ⟨label, hlabel, ?_⟩
    unfold heard
    rw [words_undressed hu hdigits (hlabels label hlabel) hbare]

/-- A machine that is asked for by its own code or name, in any case, is found in full just when something is
heard of it that one of its labels leaves when it is undressed; of typed labels, just when something is heard of
it and there is nothing to take away. -/
theorem own_label_iff (x : Lexicon) (hu : x.tables.Ascii) (hdigits : x.DecimalDigits) (refs : List AssetRef)
    (ref : AssetRef) (label query : String) (hids : (refs.map AssetRef.id).Nodup) (href : ref ∈ refs)
    (hlabel : label ∈ [ref.code, ref.name]) (hquery : x.SameLetters query label) :
    (x.FoundInFull refs ref query ↔
      x.heard label ≠ [] ∧ ∃ o ∈ [ref.code, ref.name], x.heard label = x.heard (x.undressed o)) ∧
    ((∀ o ∈ [ref.code, ref.name], ∀ c ∈ o.toList, typed c = true) →
      (x.FoundInFull refs ref query ↔ x.heard label ≠ [] ∧ ¬ Dressed label.toList)) := by
  have hfound := @foundInFull_iff x hu refs ref query hids href
  rw [heard_of_sameLetters hquery] at hfound
  exact ⟨hfound, fun htyped => by rw [hfound, heard_undressed_iff hu hdigits htyped hlabel]⟩

/-! The mill is listed as "cnc-03", and asked for as that. -/

def mill : AssetRef := ⟨"2", "cnc-03", "CNC Mill 03"⟩

def plainMill : AssetRef := ⟨"1", "cnc-mill", "CNC Mill"⟩

/-- A scorer that gives a hundred where one text has all the words of the other. -/
def subsetScore (a b : String) : Rat :=
  if scoredWords a ⊆ scoredWords b ∨ scoredWords b ⊆ scoredWords a then 100 else 0

theorem subset_scores : TokenSetScorer subsetScore where
  same _ _ := if_pos (.inl (List.Subset.refl _))
  apart a b hab hba := by
    unfold subsetScore
    rw [if_neg (not_or.mpr ⟨hab, hba⟩)]
    decide +kernel
  most a b := by
    unfold subsetScore
    split <;> norm_num

theorem decimalLexicon_decimalDigits : decimalLexicon.DecimalDigits := fun _ _ => rfl

theorem plain_mill_found : decimalLexicon.FoundInFull [plainMill, mill] plainMill "CNC-MILL" := by
  have htyped : ∀ o ∈ [plainMill.code, plainMill.name], ∀ c ∈ o.toList, typed c = true := by
    have hall : ∀ o ∈ [plainMill.code, plainMill.name], o.toList.all typed = true := by decide
    exact fun o ho => List.all_eq_true.mp (hall o ho)
  have hbare : decimalLexicon.heard "cnc-mill" ≠ [] ∧ ¬ Dressed "cnc-mill".toList := by decide +kernel
  have hquery : decimalLexicon.SameLetters "CNC-MILL" "cnc-mill" := by
    unfold SameLetters
    decide +kernel
  exact ((own_label_iff decimalLexicon asciiTables_ascii decimalLexicon_decimalDigits [plainMill, mill] plainMill
    "cnc-mill" "CNC-MILL" (by decide) List.mem_cons_self (by decide) hquery).2 htyped).mpr hbare

/-- The query is "cnc 03", the entries are "cnc 3" and "cnc mill 3". -/
theorem padded_code_missed :
    ¬∀ (x : Lexicon) (refs : List AssetRef) (ref : AssetRef) (label query : String), x.tables.Ascii →
      x.DecimalDigits → (refs.map AssetRef.id).Nodup → ref ∈ refs → label ∈ [ref.code, ref.name] →
      x.SameLetters query label → x.FoundInFull refs ref query := by
  intro h
  have hfound := h decimalLexicon [plainMill, mill] mill "cnc-03" "cnc-03" asciiTables_ascii
    decimalLexicon_decimalDigits (by decide) (List.mem_cons_of_mem _ List.mem_cons_self) (by decide) rfl subsetScore
    subset_scores
  have hquery : decimalLexicon.parseAsset "cnc-03" = some "cnc 03" := by decide +kernel
  have hforms : ∀ form ∈ decimalLexicon.spokenForms mill, subsetScore "cnc 03" form ≠ 100 := by decide +kernel
  obtain ⟨form, hform, hscore⟩ :=
    (mem_rankUpTo_iff hquery (by decide) (List.mem_cons_of_mem _ List.mem_cons_self) subset_scores.most).mp hfound
  exact hforms form hform hscore

end Lexicon

end TwinVoice.Nlu
