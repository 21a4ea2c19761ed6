import Mathlib.Computability.Language

/-! # Regular expressions

The part of a regular expression engine that patterns without look-around and
back-references use: what a pattern matches in full is its language, and taking
the derivative by one letter after another decides it. Groups may have names,
which play no part in the match. A backtracking search finds the same matches,
in an order of its own, and fills the groups on the way. -/

namespace TwinVoice.Lib

inductive Regex (α : Type) where
  | nothing
  | empty
  | letter (p : α → Bool)
  | seq (r s : Regex α)
  | alt (r s : Regex α)
  | star (r : Regex α)
  | named (name : String) (r : Regex α)

namespace Regex

variable {α : Type}

def lang : Regex α → Language α
  | nothing => 0
  | empty => 1
  | letter p => {w | ∃ c, p c = true ∧ w = [c]}
  | seq r s => r.lang * s.lang
  | alt r s => r.lang + s.lang
  | star r => KStar.kstar r.lang
  | named _ r => r.lang

/-- The names of the groups, from left to right. -/
def names : Regex α → List String
  | seq r s | alt r s => r.names ++ s.names
  | star r => r.names
  | named name r => name :: r.names
  | _ => []

/-! ## Matching -/

def nullable : Regex α → Bool
  | nothing | letter _ => false
  | empty | star _ => true
  | seq r s => r.nullable && s.nullable
  | alt r s => r.nullable || s.nullable
  | named _ r => r.nullable

/-- What is left to match after a letter. -/
def deriv (c : α) : Regex α → Regex α
  | nothing | empty => nothing
  | letter p => if p c then empty else nothing
  | seq r s => if r.nullable then alt (seq (r.deriv c) s) (s.deriv c) else seq (r.deriv c) s
  | alt r s => alt (r.deriv c) (s.deriv c)
  | star r => seq (r.deriv c) (star r)
  | named _ r => r.deriv c

/-- `fullmatch`. -/
def fullMatch (r : Regex α) (w : List α) : Bool := (w.foldl (fun r c => r.deriv c) r).nullable

theorem nullable_iff (r : Regex α) : r.nullable = true ↔ [] ∈ r.lang := by
  induction r with
  | nothing => exact iff_of_false Bool.false_ne_true (Language.notMem_zero [])
  | empty => exact iff_of_true rfl Language.nil_mem_one
  | letter p => exact iff_of_false Bool.false_ne_true fun ⟨_, _, h⟩ => nomatch h
  | seq r s ihr ihs =>
    rw [nullable, Bool.and_eq_true, ihr, ihs, lang, Language.mem_mul]
    constructor
    · intro ⟨hr, hs⟩
      exact ⟨[], hr, [], hs, rfl⟩
    · intro ⟨a, ha, b, hb, hab⟩
      obtain ⟨rfl, rfl⟩ := List.append_eq_nil_iff.mp hab
      exact ⟨ha, hb⟩
  | alt r s ihr ihs => rw [nullable, Bool.or_eq_true, ihr, ihs, lang, Language.mem_add]
  | star r _ => exact iff_of_true rfl (Language.nil_mem_kstar _)
  | named _ r ih => exact ih

/-- A word of a product begins in the first factor, or the first factor has the empty word. -/
theorem cons_mem_mul {l m : Language α} {c : α} {w : List α} :
    c :: w ∈ l * m ↔ (∃ a b, a ++ b = w ∧ c :: a ∈ l ∧ b ∈ m) ∨ [] ∈ l ∧ c :: w ∈ m := by
  rw [Language.mem_mul]
  constructor
  · intro ⟨a, ha, b, hb, hab⟩
    cases a with
    | nil =>
      obtain rfl : b = c :: w := hab
      exact .inr ⟨ha, hb⟩
    | cons d a =>
      obtain ⟨rfl, rfl⟩ := List.cons.inj hab
      exact .inl ⟨a, b, rfl, ha, hb⟩
  · rintro (⟨a, b, rfl, ha, hb⟩ | ⟨hnil, hw⟩)
    · exact ⟨c :: a, ha, b, hb, rfl⟩
    · exact ⟨[], hnil, c :: w, hw, rfl⟩

/-- An iteration begins with a factor that is not empty. -/
theorem cons_mem_kstar {l : Language α} {c : α} {w : List α} :
    c :: w ∈ KStar.kstar l ↔ ∃ a b, a ++ b = w ∧ c :: a ∈ l ∧ b ∈ KStar.kstar l := by
  constructor
  · intro h
    obtain ⟨L, hL, hmem⟩ := Language.mem_kstar.mp h
    induction L with
    | nil => cases hL
    | cons a L ih =>
      obtain ⟨ha, hrest⟩ := List.forall_mem_cons.mp hmem
      cases a with
      | nil => exact ih hL hrest
      | cons d a =>
        obtain ⟨rfl, rfl⟩ := List.cons.inj hL
        exact ⟨a, L.flatten, rfl, ha, Language.mem_kstar.mpr ⟨L, rfl, hrest⟩⟩
  · rintro ⟨a, b, rfl, ha, hb⟩
    obtain ⟨L, rfl, hmem⟩ := Language.mem_kstar.mp hb
    exact Language.mem_kstar.mpr ⟨(c :: a) :: L, rfl, List.forall_mem_cons.mpr ⟨ha, hmem⟩⟩

theorem mem_deriv (c : α) (r : Regex α) (w : List α) : w ∈ (r.deriv c).lang ↔ c :: w ∈ r.lang := by
  induction r generalizing w with
  | nothing => exact iff_of_false (Language.notMem_zero w) (Language.notMem_zero (c :: w))
  | empty => exact iff_of_false (Language.notMem_zero w) (fun h => List.cons_ne_nil c w ((Language.mem_one _).mp h))
  | letter p =>
    rw [deriv]
    split
    · rename_i hc
      refine (Language.mem_one w).trans ⟨?_, ?_⟩
      · rintro rfl
        exact ⟨c, hc, rfl⟩
      · rintro ⟨d, -, h⟩
        exact (List.cons.inj h).2
    · rename_i hc
      refine iff_of_false (Language.notMem_zero w) ?_
      rintro ⟨d, hd, h⟩
      obtain ⟨rfl, -⟩ := List.cons.inj h
      exact hc hd
  | seq r s ihr ihs =>
    have hfirst : w ∈ (r.deriv c).lang * s.lang ↔ ∃ a b, a ++ b = w ∧ c :: a ∈ r.lang ∧ b ∈ s.lang := by
      rw [Language.mem_mul]
      constructor
      · intro ⟨a, ha, b, hb, hab⟩
        exact ⟨a, b, hab, (ihr a).mp ha, hb⟩
      · intro ⟨a, b, hab, ha, hb⟩
        exact ⟨a, (ihr a).mpr ha, b, hb, hab⟩
    rw [deriv, lang, cons_mem_mul, ← hfirst, ← nullable_iff]
    cases r.nullable with
    | true => rw [if_pos rfl, lang, lang, Language.mem_add, ihs, and_iff_right rfl]
    | false => rw [if_neg Bool.false_ne_true, lang, or_iff_left fun h => Bool.false_ne_true h.1]
  | alt r s ihr ihs => rw [deriv, lang, lang, Language.mem_add, Language.mem_add, ihr, ihs]
  | star r ih =>
    rw [deriv, lang, lang, cons_mem_kstar, Language.mem_mul]
    constructor
    · intro ⟨a, ha, b, hb, hab⟩
      exact ⟨a, b, hab, (ih a).mp ha, hb⟩
    · intro ⟨a, b, hab, ha, hb⟩
      exact ⟨a, (ih a).mpr ha, b, hb, hab⟩
  | named _ r ih => exact ih w

theorem fullMatch_iff (r : Regex α) (w : List α) : r.fullMatch w = true ↔ w ∈ r.lang := by
  induction w generalizing r with
  | nil => exact nullable_iff r
  | cons c w ih => exact (ih (r.deriv c)).trans (mem_deriv c r w)

/-! ## Patterns -/

/-- The text itself. -/
def text [DecidableEq α] : List α → Regex α
  | [] => empty
  | c :: cs => seq (letter fun d => d = c) (text cs)

/-- `r?` -/
def opt (r : Regex α) : Regex α := alt r empty

/-- `r+` -/
def plus (r : Regex α) : Regex α := seq r (star r)

/-- `r{0,n}` -/
def upTo (r : Regex α) : Nat → Regex α
  | 0 => empty
  | n + 1 => opt (seq r (upTo r n))

/-- `r|s|…` -/
def anyOf : List (Regex α) → Regex α
  | [] => nothing
  | [r] => r
  | r :: rs => alt r (anyOf rs)

@[simp] theorem lang_text [DecidableEq α] (cs : List α) : (text cs).lang = {cs} := by
  induction cs with
  | nil => rfl
  | cons c cs ih =>
    ext w
    rw [text, lang, ih, Language.mem_mul]
    constructor
    · rintro ⟨a, ⟨d, hd, rfl⟩, b, rfl, rfl⟩
      exact congrArg (· :: b) (of_decide_eq_true hd)
    · rintro rfl
      exact ⟨[c], ⟨c, decide_eq_true rfl, rfl⟩, cs, rfl, rfl⟩

@[simp] theorem lang_opt (r : Regex α) : r.opt.lang = r.lang + 1 := rfl

@[simp] theorem lang_named (name : String) (r : Regex α) : (named name r).lang = r.lang := rfl

theorem mem_anyOf {rs : List (Regex α)} {w : List α} : w ∈ (anyOf rs).lang ↔ ∃ r ∈ rs, w ∈ r.lang := by
  induction rs with
  | nil => exact iff_of_false (Language.notMem_zero w) fun ⟨_, h, _⟩ => List.not_mem_nil h
  | cons r rs ih =>
    rw [List.exists_mem_cons_iff, ← ih]
    cases rs with
    | nil => exact (or_iff_left (Language.notMem_zero w)).symm
    | cons s rs => exact Language.mem_add _ _ _

/-- One letter after another, at least one. -/
theorem lang_plus_letter (p : α → Bool) : (plus (letter p)).lang = {w | w ≠ [] ∧ ∀ c ∈ w, p c = true} := by
  ext w
  show w ∈ (letter p).lang * KStar.kstar (letter p).lang ↔ w ≠ [] ∧ ∀ c ∈ w, p c = true
  rw [Language.mem_mul]
  constructor
  · rintro ⟨_, ⟨c, hc, rfl⟩, b, hb, rfl⟩
    obtain ⟨L, rfl, hL⟩ := Language.mem_kstar.mp hb
    refine ⟨List.cons_ne_nil c _, List.forall_mem_cons.mpr ⟨hc, fun d hd => ?_⟩⟩
    obtain ⟨l, hl, hdl⟩ := List.mem_flatten.mp hd
    obtain ⟨e, he, rfl⟩ := hL l hl
    exact List.mem_singleton.mp hdl ▸ he
  · rintro ⟨hne, hall⟩
    cases w with
    | nil => exact absurd rfl hne
    | cons c cs =>
      obtain ⟨hc, hcs⟩ := List.forall_mem_cons.mp hall
      refine ⟨[c], ⟨c, hc, rfl⟩, cs, Language.mem_kstar.mpr ⟨cs.map fun d => [d], ?_, ?_⟩, rfl⟩
      · rw [← List.flatMap_def, List.flatMap_singleton']
      · intro l hl
        obtain ⟨d, hd, rfl⟩ := List.mem_map.mp hl
        exact ⟨d, hcs d hd, rfl⟩

@[simp] theorem names_text [DecidableEq α] (cs : List α) : (text cs).names = [] := by
  induction cs with
  | nil => rfl
  | cons c cs ih => exact ih

theorem names_anyOf (rs : List (Regex α)) : (anyOf rs).names = rs.flatMap names := by
  induction rs with
  | nil => rfl
  | cons r rs ih =>
    cases rs with
    | nil => simp [anyOf]
    | cons s rs => exact congrArg (r.names ++ ·) ih

theorem names_upTo {r : Regex α} (h : r.names = []) (n : Nat) : (upTo r n).names = [] := by
  induction n with
  | zero => rfl
  | succ n ih => simp [upTo, opt, names, h, ih]

end Regex

/-! ## Searching

The alternatives are tried from left to right, and a repetition goes as far as
it can or stops as soon as it can. The first way that reaches the end is the one
whose groups count. -/

/-- What a group holds, and the text after it. -/
structure Capture (α : Type) where
  name : String
  value : List α
  after : List α
  deriving DecidableEq

/-- The ways to match a beginning of a text, in the order they are tried: what is left of it, and the groups filled. -/
abbrev Search (α : Type) := List α → List (List α × List (Capture α))

namespace Search

variable {α : Type}

def fail : Search α := fun _ => []

def done : Search α := fun w => [(w, [])]

def letter (p : α → Bool) : Search α
  | [] => []
  | c :: w => if p c then [(w, [])] else []

def andThen (m n : Search α) : Search α := fun w =>
  (m w).flatMap fun r => (n r.1).map fun s => (s.1, r.2 ++ s.2)

def orElse (m n : Search α) : Search α := fun w => m w ++ n w

/-- `m?` -/
def opt (m : Search α) : Search α := m.orElse done

/-- The ways that consume something. -/
def advancing (m : Search α) : Search α := fun w => (m w).filter fun r => r.1.length < w.length

/-- At most `n` repetitions, as many as possible. -/
def many (m : Search α) : Nat → Search α
  | 0 => done
  | n + 1 => (m.advancing.andThen (many m n)).orElse done

/-- At most `n` repetitions, as few as possible. -/
def few (m : Search α) : Nat → Search α
  | 0 => done
  | n + 1 => done.orElse (m.advancing.andThen (few m n))

/-- `m*`; a repetition that consumes nothing is the last. -/
def star (m : Search α) : Search α := fun w => m.many w.length w

/-- `m*?` -/
def lazyStar (m : Search α) : Search α := fun w => m.few w.length w

/-- `m{0,n}?` -/
def lazyUpTo (m : Search α) : Nat → Search α
  | 0 => done
  | n + 1 => done.orElse (m.andThen (lazyUpTo m n))

def capture (name : String) (m : Search α) : Search α := fun w =>
  (m w).map fun r => (r.1, ⟨name, w.take (w.length - r.1.length), r.1⟩ :: r.2)

/-- `fullmatch`, by the groups that it fills. -/
def full (m : Search α) (w : List α) : Option (List (Capture α)) :=
  ((m w).find? fun r => r.1.isEmpty).map Prod.snd

/-- The search finds the words of the language, and fills groups of the text with what they may hold. -/
structure Explores (m : Search α) (l : Language α) (fills : String → List α → Prop) : Prop where
  finds : ∀ w rest, (∃ caps, (rest, caps) ∈ m w) ↔ ∃ u ∈ l, u ++ rest = w
  filled : ∀ w rest caps, (rest, caps) ∈ m w → ∀ c ∈ caps, fills c.name c.value ∧ c.value ++ c.after <:+ w

variable {m n : Search α} {l k : Language α} {fills : String → List α → Prop}

theorem explores_fail : (fail : Search α).Explores 0 fills where
  finds _ _ := iff_of_false (fun ⟨_, h⟩ => List.not_mem_nil h) fun ⟨_, h, _⟩ => Language.notMem_zero _ h
  filled _ _ _ h := absurd h List.not_mem_nil

theorem mem_done {w rest : List α} {caps : List (Capture α)} : (rest, caps) ∈ done w ↔ rest = w ∧ caps = [] := by
  rw [done, List.mem_singleton, Prod.mk.injEq]

theorem explores_done : (done : Search α).Explores 1 fills where
  finds w rest := by
    constructor
    · intro ⟨caps, h⟩
      obtain ⟨rfl, -⟩ := mem_done.mp h
      exact ⟨[], Language.nil_mem_one, rfl⟩
    · rintro ⟨u, hu, rfl⟩
      obtain rfl := (Language.mem_one u).mp hu
      exact ⟨[], mem_done.mpr ⟨rfl, rfl⟩⟩
  filled w rest caps h := by
    obtain ⟨-, rfl⟩ := mem_done.mp h
    exact fun c hc => absurd hc List.not_mem_nil

theorem explores_letter (p : α → Bool) : (letter p).Explores (Regex.letter p).lang fills where
  finds w rest := by
    constructor
    · intro ⟨caps, h⟩
      cases w with
      | nil => cases h
      | cons c w =>
        rw [letter] at h
        split at h
        · rename_i hc
          obtain ⟨rfl, -⟩ := mem_done.mp h
          exact ⟨[c], ⟨c, hc, rfl⟩, rfl⟩
        · cases h
    · rintro ⟨u, ⟨c, hc, rfl⟩, rfl⟩
      refine ⟨[], ?_⟩
      rw [List.singleton_append, letter, if_pos hc]
      exact List.mem_singleton_self _
  filled w rest caps h := by
    cases w with
    | nil => cases h
    | cons c w =>
      rw [letter] at h
      split at h
      · obtain ⟨-, rfl⟩ := mem_done.mp h
        exact fun c hc => absurd hc List.not_mem_nil
      · cases h

theorem mem_andThen {w rest : List α} {caps : List (Capture α)} :
    (rest, caps) ∈ m.andThen n w ↔
      ∃ mid caps₁ caps₂, (mid, caps₁) ∈ m w ∧ (rest, caps₂) ∈ n mid ∧ caps = caps₁ ++ caps₂ := by
  rw [andThen, List.mem_flatMap]
  constructor
  · intro ⟨⟨mid, caps₁⟩, hm, h⟩
    obtain ⟨⟨_, caps₂⟩, hn, heq⟩ := List.mem_map.mp h
    obtain ⟨rfl, rfl⟩ := Prod.mk.inj heq
    exact ⟨mid, caps₁, caps₂, hm, hn, rfl⟩
  · rintro ⟨mid, caps₁, caps₂, hm, hn, rfl⟩
    exact ⟨(mid, caps₁), hm, List.mem_map.mpr ⟨(rest, caps₂), hn, rfl⟩⟩

theorem mem_orElse {w rest : List α} {caps : List (Capture α)} :
    (rest, caps) ∈ m.orElse n w ↔ (rest, caps) ∈ m w ∨ (rest, caps) ∈ n w := List.mem_append

theorem mem_advancing {w rest : List α} {caps : List (Capture α)} :
    (rest, caps) ∈ m.advancing w ↔ (rest, caps) ∈ m w ∧ rest.length < w.length := by
  rw [advancing, List.mem_filter, decide_eq_true_iff]

theorem Explores.suffix (h : m.Explores l fills) {w rest : List α} {caps : List (Capture α)}
    (hmem : (rest, caps) ∈ m w) : rest <:+ w := by
  obtain ⟨u, -, hu⟩ := (h.finds w rest).mp ⟨caps, hmem⟩
  exact ⟨u, hu⟩

theorem Explores.andThen (hm : m.Explores l fills) (hn : n.Explores k fills) :
    (m.andThen n).Explores (l * k) fills where
  finds w rest := by
    constructor
    · intro ⟨caps, h⟩
      obtain ⟨mid, caps₁, caps₂, h₁, h₂, -⟩ := mem_andThen.mp h
      obtain ⟨u, hu, rfl⟩ := (hm.finds w mid).mp ⟨caps₁, h₁⟩
      obtain ⟨v, hv, rfl⟩ := (hn.finds mid rest).mp ⟨caps₂, h₂⟩
      exact ⟨u ++ v, Language.append_mem_mul hu hv, List.append_assoc u v rest⟩
    · rintro ⟨_, huv, rfl⟩
      obtain ⟨u, hu, v, hv, rfl⟩ := Language.mem_mul.mp huv
      obtain ⟨caps₁, h₁⟩ := (hm.finds (u ++ v ++ rest) (v ++ rest)).mpr ⟨u, hu, (List.append_assoc u v rest).symm⟩
      obtain ⟨caps₂, h₂⟩ := (hn.finds (v ++ rest) rest).mpr ⟨v, hv, rfl⟩
      exact ⟨caps₁ ++ caps₂, mem_andThen.mpr ⟨_, _, _, h₁, h₂, rfl⟩⟩
  filled w rest caps h := by
    obtain ⟨mid, caps₁, caps₂, h₁, h₂, rfl⟩ := mem_andThen.mp h
    intro c hc
    rcases List.mem_append.mp hc with hc | hc
    · exact hm.filled w mid caps₁ h₁ c hc
    · obtain ⟨hfills, hsuffix⟩ := hn.filled mid rest caps₂ h₂ c hc
      exact ⟨hfills, hsuffix.trans (hm.suffix h₁)⟩

theorem Explores.orElse (hm : m.Explores l fills) (hn : n.Explores k fills) :
    (m.orElse n).Explores (l + k) fills where
  finds _ _ := by
    simp only [mem_orElse, exists_or, hm.finds, hn.finds, Language.mem_add, or_and_right]
  filled w rest caps h := by
    rcases mem_orElse.mp h with h | h
    · exact hm.filled w rest caps h
    · exact hn.filled w rest caps h

theorem Explores.opt (h : m.Explores l fills) : m.opt.Explores (l + 1) fills := h.orElse explores_done

/-- Whether repetitions are tried first or last makes no difference to what is found. -/
theorem mem_few (m : Search α) (n : Nat) {w rest : List α} {caps : List (Capture α)} :
    (rest, caps) ∈ m.few n w ↔ (rest, caps) ∈ m.many n w := by
  induction n generalizing w rest caps with
  | zero => exact Iff.rfl
  | succ n ih =>
    rw [few, many, mem_orElse, mem_orElse, or_comm, mem_andThen, mem_andThen]
    simp only [ih]

/-- A text has no more repetitions that consume something than letters. -/
theorem Explores.many (h : m.Explores l fills) {n : Nat} {w : List α} (hn : w.length ≤ n) (rest : List α) :
    (∃ caps, (rest, caps) ∈ m.many n w) ↔ ∃ u ∈ KStar.kstar l, u ++ rest = w := by
  induction n generalizing w with
  | zero =>
    obtain rfl := List.length_eq_zero_iff.mp (Nat.le_zero.mp hn)
    constructor
    · intro ⟨caps, hmem⟩
      obtain ⟨rfl, -⟩ := mem_done.mp hmem
      exact ⟨[], Language.nil_mem_kstar l, rfl⟩
    · intro ⟨u, _, hu⟩
      exact ⟨[], mem_done.mpr ⟨(List.append_eq_nil_iff.mp hu).2, rfl⟩⟩
  | succ n ih =>
    constructor
    · intro ⟨caps, hmem⟩
      rcases mem_orElse.mp hmem with hmem | hmem
      · obtain ⟨mid, caps₁, caps₂, hadvancing, hrest, -⟩ := mem_andThen.mp hmem
        obtain ⟨hfirst, hlength⟩ := mem_advancing.mp hadvancing
        obtain ⟨u, hu, rfl⟩ := (h.finds w mid).mp ⟨caps₁, hfirst⟩
        obtain ⟨v, hv, rfl⟩ := (ih (by omega)).mp ⟨caps₂, hrest⟩
        have hmore : l * KStar.kstar l ≤ KStar.kstar l := mul_kstar_le_kstar
        exact ⟨u ++ v, hmore (Language.append_mem_mul hu hv), List.append_assoc u v rest⟩
      · obtain ⟨rfl, -⟩ := mem_done.mp hmem
        exact ⟨[], Language.nil_mem_kstar l, rfl⟩
    · rintro ⟨u, hu, rfl⟩
      cases u with
      | nil => exact ⟨[], mem_orElse.mpr (.inr (mem_done.mpr ⟨rfl, rfl⟩))⟩
      | cons c u =>
        obtain ⟨a, b, rfl, ha, hb⟩ := Regex.cons_mem_kstar.mp hu
        have hsplit : c :: (a ++ b) ++ rest = c :: a ++ (b ++ rest) := List.append_assoc (c :: a) b rest
        rw [hsplit] at hn ⊢
        have hlength : (b ++ rest).length < (c :: a ++ (b ++ rest)).length := by
          simp only [List.length_append, List.length_cons]
          omega
        obtain ⟨caps₁, h₁⟩ := (h.finds _ (b ++ rest)).mpr ⟨c :: a, ha, rfl⟩
        obtain ⟨caps₂, h₂⟩ := (ih (by omega)).mpr ⟨b, hb, rfl⟩
        have hadvancing := mem_advancing.mpr ⟨h₁, hlength⟩
        exact ⟨caps₁ ++ caps₂, mem_orElse.mpr (.inl (mem_andThen.mpr ⟨_, _, _, hadvancing, h₂, rfl⟩))⟩

theorem Explores.filled_many (h : m.Explores l fills) (n : Nat) {w rest : List α} {caps : List (Capture α)}
    (hmem : (rest, caps) ∈ m.many n w) : ∀ c ∈ caps, fills c.name c.value ∧ c.value ++ c.after <:+ w := by
  induction n generalizing w rest caps with
  | zero => exact explores_done.filled w rest caps hmem
  | succ n ih =>
    rcases mem_orElse.mp hmem with hmem | hmem
    · obtain ⟨mid, caps₁, caps₂, hadvancing, hrest, rfl⟩ := mem_andThen.mp hmem
      obtain ⟨hfirst, -⟩ := mem_advancing.mp hadvancing
      intro c hc
      rcases List.mem_append.mp hc with hc | hc
      · exact h.filled w mid caps₁ hfirst c hc
      · obtain ⟨hfills, hsuffix⟩ := ih hrest c hc
        exact ⟨hfills, hsuffix.trans (h.suffix hfirst)⟩
    · exact explores_done.filled w rest caps hmem

theorem Explores.star (h : m.Explores l fills) : m.star.Explores (KStar.kstar l) fills where
  finds _ rest := h.many le_rfl rest
  filled w _ _ hmem := h.filled_many w.length hmem

theorem Explores.lazyStar (h : m.Explores l fills) : m.lazyStar.Explores (KStar.kstar l) fills where
  finds w rest := (exists_congr fun _ => mem_few m w.length).trans (h.many le_rfl rest)
  filled w _ _ hmem := h.filled_many w.length ((mem_few m w.length).mp hmem)

theorem Explores.lazyUpTo {r : Regex α} (h : m.Explores r.lang fills) (n : Nat) :
    (m.lazyUpTo n).Explores (r.upTo n).lang fills := by
  induction n with
  | zero => exact explores_done
  | succ n ih =>
    have hlang : (r.upTo (n + 1)).lang = 1 + r.lang * (r.upTo n).lang := add_comm _ _
    exact hlang ▸ explores_done.orElse (h.andThen ih)

/-- A group is filled with what the search inside it finds. -/
theorem Explores.capture (h : m.Explores l fills) (name : String)
    (hfills : ∀ value ∈ l, fills name value) : (m.capture name).Explores l fills where
  finds w rest := by
    rw [← h.finds]
    constructor
    · intro ⟨caps, hmem⟩
      obtain ⟨⟨_, caps'⟩, hm, heq⟩ := List.mem_map.mp hmem
      obtain ⟨rfl, -⟩ := Prod.mk.inj heq
      exact ⟨caps', hm⟩
    · intro ⟨caps, hm⟩
      exact ⟨_, List.mem_map_of_mem hm⟩
  filled w rest caps hmem := by
    obtain ⟨⟨mid, caps'⟩, hm, heq⟩ := List.mem_map.mp hmem
    obtain ⟨rfl, rfl⟩ := Prod.mk.inj heq
    obtain ⟨u, hu, rfl⟩ := (h.finds w mid).mp ⟨caps', hm⟩
    have hvalue : (u ++ mid).take ((u ++ mid).length - mid.length) = u := by
      rw [List.length_append, Nat.add_sub_cancel, List.take_left]
    refine List.forall_mem_cons.mpr ⟨?_, fun c hc => h.filled _ mid caps' hm c hc⟩
    rw [hvalue]
    exact ⟨hfills u hu, List.suffix_rfl⟩

theorem Explores.full_isSome (h : m.Explores l fills) (w : List α) : (m.full w).isSome = true ↔ w ∈ l := by
  rw [full, Option.isSome_map, List.find?_isSome]
  constructor
  · intro ⟨⟨rest, caps⟩, hmem, hend⟩
    obtain rfl : rest = [] := List.isEmpty_iff.mp hend
    obtain ⟨u, hu, rfl⟩ := (h.finds w []).mp ⟨caps, hmem⟩
    exact (List.append_nil u).symm ▸ hu
  · intro hw
    obtain ⟨caps, hmem⟩ := (h.finds w []).mpr ⟨w, hw, List.append_nil w⟩
    exact ⟨([], caps), hmem, rfl⟩

theorem Explores.of_full (h : m.Explores l fills) {w : List α} {caps : List (Capture α)}
    (hfull : m.full w = some caps) : ∀ c ∈ caps, fills c.name c.value ∧ c.value ++ c.after <:+ w := by
  obtain ⟨⟨rest, _⟩, hfound, rfl⟩ := Option.map_eq_some_iff.mp hfull
  exact h.filled w rest _ (List.mem_of_find?_eq_some hfound)

end Search

namespace Regex

variable {α : Type}

/-- The groups with a name, from left to right. -/
def groups : Regex α → List (String × Regex α)
  | seq r s | alt r s => r.groups ++ s.groups
  | star r => r.groups
  | named name r => (name, r) :: r.groups
  | _ => []

theorem names_groups (r : Regex α) : r.groups.map Prod.fst = r.names := by
  induction r with
  | seq r s ihr ihs | alt r s ihr ihs => rw [groups, names, List.map_append, ihr, ihs]
  | star r ih => exact ih
  | named name r ih => rw [groups, names, List.map_cons, ih]
  | nothing | empty | letter p => rfl

theorem groups_of_names {r : Regex α} (h : r.names = []) : r.groups = [] :=
  List.map_eq_nil_iff.mp ((names_groups r).trans h)

theorem groups_anyOf (rs : List (Regex α)) : (anyOf rs).groups = rs.flatMap groups := by
  induction rs with
  | nil => rfl
  | cons r rs ih =>
    cases rs with
    | nil => simp [anyOf]
    | cons s rs => exact congrArg (r.groups ++ ·) ih

/-- The search of a pattern; `inside` says how a group is searched that has an order of its own. -/
def search (inside : String → Option (Search α)) : Regex α → Search α
  | nothing => .fail
  | empty => .done
  | letter p => .letter p
  | seq r s => (r.search inside).andThen (s.search inside)
  | alt r s => (r.search inside).orElse (s.search inside)
  | star r => (r.search inside).star
  | named name r => ((inside name).getD (r.search inside)).capture name

theorem explores_search {inside : String → Option (Search α)} {fills : String → List α → Prop} (r : Regex α)
    (hinside : ∀ name s, (name, s) ∈ r.groups → ∀ m ∈ inside name, m.Explores s.lang fills)
    (hfills : ∀ name s, (name, s) ∈ r.groups → ∀ value ∈ s.lang, fills name value) :
    (r.search inside).Explores r.lang fills := by
  induction r with
  | nothing => exact Search.explores_fail
  | empty => exact Search.explores_done
  | letter p => exact Search.explores_letter p
  | seq r s ihr ihs =>
    have hr := ihr (fun _ _ h => hinside _ _ (List.mem_append_left _ h)) fun _ _ h =>
      hfills _ _ (List.mem_append_left _ h)
    have hs := ihs (fun _ _ h => hinside _ _ (List.mem_append_right _ h)) fun _ _ h =>
      hfills _ _ (List.mem_append_right _ h)
    exact hr.andThen hs
  | alt r s ihr ihs =>
    have hr := ihr (fun _ _ h => hinside _ _ (List.mem_append_left _ h)) fun _ _ h =>
      hfills _ _ (List.mem_append_left _ h)
    have hs := ihs (fun _ _ h => hinside _ _ (List.mem_append_right _ h)) fun _ _ h =>
      hfills _ _ (List.mem_append_right _ h)
    exact hr.orElse hs
  | star r ih => exact (ih hinside hfills).star
  | named name r ih =>
    have hbody : ((inside name).getD (r.search inside)).Explores r.lang fills := by
      cases hname : inside name with
      | none =>
        exact ih (fun _ _ h => hinside _ _ (List.mem_cons_of_mem _ h)) fun _ _ h =>
          hfills _ _ (List.mem_cons_of_mem _ h)
      | some m => exact hinside name r List.mem_cons_self m hname
    exact hbody.capture name (hfills name r List.mem_cons_self)

end Regex

end TwinVoice.Lib
