import TwinVoice.Nlu.Words
import TwinVoice.Xai.Audit

/-! # Texts composed of parts

The numbers found in a composed text are those of its parts where no match can
go over the edge of one, and lowercase is that of the parts where the pieces
between them begin and end with spaces and commas. -/

namespace TwinVoice.Xai

open TwinVoice.Lib TwinVoice.Nlu

/-! ## Numbers of a composed text -/

/-- A match that ends where this text begins cannot go on in it. -/
def Closed (isDigit : Char → Bool) (text : List Char) : Prop :=
  ∀ c ∈ text.head?, isDigit c = false ∧ (c = '.' ∨ c = ',' → text.tail.takeWhile isDigit = [])

section Numbers
variable {isDigit : Char → Bool}

theorem takeWhile_append_closed {t : List Char} (ht : Closed isDigit t) (u : List Char) :
    (u ++ t).takeWhile isDigit = u.takeWhile isDigit := by
  induction u with
  | nil =>
    cases t with
    | nil => rfl
    | cons c t =>
      rw [List.nil_append, List.takeWhile_cons_of_neg (by simp [(ht c rfl).1])]
      rfl
  | cons c u ih =>
    rw [List.cons_append, List.takeWhile_cons, List.takeWhile_cons, ih]

theorem dropWhile_append_closed {t : List Char} (ht : Closed isDigit t) (u : List Char) :
    (u ++ t).dropWhile isDigit = u.dropWhile isDigit ++ t := by
  induction u with
  | nil =>
    cases t with
    | nil => rfl
    | cons c t => exact List.dropWhile_cons_of_neg (by simp [(ht c rfl).1])
  | cons c u ih =>
    rw [List.cons_append, List.dropWhile_cons, List.dropWhile_cons, ih]
    split
    · rfl
    · rfl

/-- The match at the start of a text, the sign being off it. -/
def unsignedAt? (isDigit : Char → Bool) (sign body : List Char) : Option (List Char) :=
  if body.takeWhile isDigit = [] then none
  else
    match body.dropWhile isDigit with
    | [] => some (sign ++ body.takeWhile isDigit)
    | point :: rest =>
      if (point = '.' ∨ point = ',') ∧ rest.takeWhile isDigit ≠ [] then
        some (sign ++ body.takeWhile isDigit ++ point :: rest.takeWhile isDigit)
      else some (sign ++ body.takeWhile isDigit)

theorem numberAt?_minus (text : List Char) : numberAt? isDigit ('-' :: text) = unsignedAt? isDigit ['-'] text := rfl

theorem numberAt?_of_ne {text : List Char} (h : text.head? ≠ some '-') :
    numberAt? isDigit text = unsignedAt? isDigit [] text := by
  unfold numberAt?
  rw [if_neg h]
  rfl

theorem unsignedAt?_append {t : List Char} (ht : Closed isDigit t) (sign u : List Char) :
    unsignedAt? isDigit sign (u ++ t) = unsignedAt? isDigit sign u := by
  unfold unsignedAt?
  rw [takeWhile_append_closed ht, dropWhile_append_closed ht]
  split
  · rfl
  · cases hrest : u.dropWhile isDigit with
    | cons point rest =>
      rw [List.cons_append]
      dsimp only
      rw [takeWhile_append_closed ht]
    | nil =>
      cases t with
      | nil => rfl
      | cons point rest =>
        rw [List.nil_append]
        dsimp only
        rw [if_neg fun hpoint => hpoint.2 ((ht point rfl).2 hpoint.1)]

theorem numberAt?_append {t : List Char} (ht : Closed isDigit t) {u : List Char} (hu : u ≠ []) :
    numberAt? isDigit (u ++ t) = numberAt? isDigit u := by
  cases u with
  | nil => exact absurd rfl hu
  | cons c u =>
    by_cases hc : c = '-'
    · rw [hc, List.cons_append, numberAt?_minus, numberAt?_minus, unsignedAt?_append ht]
    · have hhead : ∀ v : List Char, (c :: v).head? ≠ some '-' := fun v h => hc (Option.some_inj.mp h)
      rw [numberAt?_of_ne (hhead u), List.cons_append, numberAt?_of_ne (hhead _), ← List.cons_append,
        unsignedAt?_append ht]

/-- A match is a part of the text. -/
theorem unsignedAt?_isPart {sign body found : List Char} (h : unsignedAt? isDigit sign body = some found) :
    found <+: sign ++ body := by
  have hwhole := @List.takeWhile_append_dropWhile _ isDigit body
  unfold unsignedAt? at h
  split at h
  · cases h
  · split at h
    · obtain rfl := Option.some_inj.mp h
      exact (List.prefix_append_right_inj sign).mpr (List.takeWhile_prefix isDigit)
    · rename_i point rest hrest
      split at h
      · obtain rfl := Option.some_inj.mp h
        rw [List.append_assoc, List.prefix_append_right_inj]
        nth_rewrite 2 [← hwhole]
        rw [hrest, List.prefix_append_right_inj, List.cons_prefix_cons]
        exact ⟨rfl, List.takeWhile_prefix isDigit⟩
      · obtain rfl := Option.some_inj.mp h
        exact (List.prefix_append_right_inj sign).mpr (List.takeWhile_prefix isDigit)

theorem numberAt?_isPart {text found : List Char} (h : numberAt? isDigit text = some found) : found <+: text := by
  by_cases hsign : text.head? = some '-'
  · obtain ⟨rest, rfl⟩ : ∃ rest, text = '-' :: rest := by
      cases text with
      | nil => cases hsign
      | cons c rest => exact ⟨rest, by rw [Option.some_inj.mp hsign]⟩
    exact unsignedAt?_isPart h
  · rw [numberAt?_of_ne hsign] at h
    exact unsignedAt?_isPart h

theorem findNumbers_skip (skip : Nat) (text : List Char) :
    findNumbers isDigit skip text = findNumbers isDigit 0 (text.drop skip) := by
  induction text generalizing skip with
  | nil => simp [findNumbers]
  | cons c text ih =>
    cases skip with
    | zero => rfl
    | succ skip => exact ih skip

theorem findNumbers_append {t : List Char} (ht : Closed isDigit t) (u : List Char) :
    findNumbers isDigit 0 (u ++ t) = findNumbers isDigit 0 u ++ findNumbers isDigit 0 t := by
  induction hlen : u.length using Nat.strong_induction_on generalizing u with
  | _ n ih =>
    cases u with
    | nil => rfl
    | cons c u =>
      have hmatch := numberAt?_append ht (List.cons_ne_nil c u)
      rw [List.cons_append] at hmatch
      rw [List.cons_append, findNumbers, findNumbers, hmatch]
      cases hfound : numberAt? isDigit (c :: u) with
      | none => exact ih u.length (by simp [← hlen]) u rfl
      | some found =>
        have hle : found.length - 1 ≤ u.length := by
          have := (numberAt?_isPart hfound).length_le
          rw [List.length_cons] at this
          omega
        have hshorter : (u.drop (found.length - 1)).length < n := by
          rw [List.length_drop, ← hlen, List.length_cons]
          omega
        dsimp only
        rw [findNumbers_skip, findNumbers_skip _ u, List.drop_append_of_le_length hle, List.cons_append,
          ih _ hshorter (u.drop (found.length - 1)) rfl]

theorem findNumbers_silent_append {a : List Char} (ha : ∀ c ∈ a, isDigit c = false ∧ c ≠ '-') (b : List Char) :
    findNumbers isDigit 0 (a ++ b) = findNumbers isDigit 0 b := by
  induction a with
  | nil => rfl
  | cons c a ih =>
    obtain ⟨hdigit, hminus⟩ := ha c List.mem_cons_self
    have hhead : (c :: (a ++ b)).head? ≠ some '-' := fun h => hminus (Option.some_inj.mp h)
    have hnone : numberAt? isDigit (c :: (a ++ b)) = none := by
      rw [numberAt?_of_ne hhead, unsignedAt?, if_pos (List.takeWhile_cons_of_neg (by simp [hdigit]))]
    rw [List.cons_append, findNumbers, hnone]
    exact ih fun d hd => ha d (List.mem_cons_of_mem c hd)

end Numbers

/-! ## Of strings -/

/-- What the tables say of ASCII and of the degree sign, and that a space, a comma or a full stop
at the end does not change how the text beside it is lowercased. -/
structure Texts.Plain (x : Texts) : Prop where
  ascii : x.tables.Ascii
  digits : ∀ c, printable c = true → x.isDigit c = c.isDigit
  degree : x.lower "°C" = "°c" ∧ x.isDigit '°' = false
  space : ∀ a b, x.lower (a ++ " " ++ b) = x.lower a ++ " " ++ x.lower b
  comma : ∀ a b, x.lower (a ++ "," ++ b) = x.lower a ++ "," ++ x.lower b
  stop : ∀ a, x.lower (a ++ ".") = x.lower a ++ "."

namespace Texts
variable {x : Texts}

theorem numbersIn_append {b : String} (hb : Closed x.isDigit b.toList) (a : String) :
    x.numbersIn (a ++ b) = x.numbersIn a ++ x.numbersIn b := by
  unfold numbersIn
  rw [String.toList_append, findNumbers_append hb, List.filterMap_append]

/-- Neither a digit nor a minus sign. -/
def Silent (x : Texts) (text : String) : Prop := ∀ c ∈ text.toList, x.isDigit c = false ∧ c ≠ '-'

theorem Silent.append {a b : String} (ha : Silent x a) (hb : Silent x b) : Silent x (a ++ b) := by
  intro c hc
  rw [String.toList_append] at hc
  rcases List.mem_append.mp hc with hc | hc
  · exact ha c hc
  · exact hb c hc

theorem Silent.numbersIn_append {a : String} (ha : Silent x a) (b : String) : x.numbersIn (a ++ b) = x.numbersIn b := by
  unfold numbersIn
  rw [String.toList_append, findNumbers_silent_append ha]

theorem Silent.numbersIn {a : String} (ha : Silent x a) : x.numbersIn a = [] := by
  rw [← String.append_empty (s := a), ha.numbersIn_append]
  rfl

/-- What comes after two such characters does not lengthen a match before them. -/
theorem Silent.closed {a : String} (ha : Silent x a) (htwo : 2 ≤ a.toList.length) (b : String) :
    Closed x.isDigit (a ++ b).toList := by
  rw [String.toList_append]
  unfold Silent at ha
  cases hlist : a.toList with
  | nil => simp [hlist] at htwo
  | cons c rest =>
    cases rest with
    | nil => simp [hlist] at htwo
    | cons d rest =>
      rw [hlist] at ha
      intro e he
      obtain rfl : c = e := Option.some_inj.mp he
      exact ⟨(ha c List.mem_cons_self).1, fun _ => List.takeWhile_cons_of_neg (by simp [(ha d (by simp)).1])⟩

/-- The characters of the template. -/
def templateChar (c : Char) : Bool := printable c && !c.isDigit && c ≠ '-'

theorem Plain.silent (h : x.Plain) {fixed : String} (hfixed : fixed.toList.all templateChar = true) :
    Silent x fixed := by
  intro c hc
  have hchar := List.all_eq_true.mp hfixed c hc
  simp only [templateChar, Bool.and_eq_true, Bool.not_eq_true', decide_eq_true_eq] at hchar
  exact ⟨(h.digits c hchar.1.1).trans hchar.1.2, hchar.2⟩

/-! ## Lowercase of a composed text -/

/-- A piece beside which the text is lowercased as if it stood alone. -/
def Breaks (x : Texts) (piece lowered : String) : Prop :=
  ∀ a b, x.lower (a ++ (piece ++ b)) = x.lower a ++ (lowered ++ x.lower b)

theorem Plain.lower_ascii (h : x.Plain) {s : String} (hs : s.toList.all printable = true) :
    x.lower s = String.ofList (s.toList.map Char.toLower) :=
  h.ascii.lower s (List.all_eq_true.mp hs)

theorem Plain.lower_empty (h : x.Plain) : x.lower "" = "" := h.lower_ascii rfl

theorem Plain.breaks_space (h : x.Plain) : Breaks x " " " " := by
  intro a b
  rw [← String.append_assoc, h.space, String.append_assoc]

theorem Breaks.between {p p' q q' : String} (hp : Breaks x p p') (hq : Breaks x q q') (word : String) :
    Breaks x (p ++ word ++ q) (p' ++ x.lower word ++ q') := by
  intro a b
  rw [String.append_assoc, String.append_assoc, hp, hq]
  simp only [String.append_assoc]

theorem Plain.breaks_comma (h : x.Plain) : Breaks x ", " ", " := by
  have hcomma : Breaks x "," "," := by
    intro a b
    rw [← String.append_assoc, h.comma, String.append_assoc]
  have hboth := hcomma.between h.breaks_space ""
  rw [h.lower_empty] at hboth
  exact hboth

theorem Plain.lower_intercalate (h : x.Plain) (parts : List String) :
    x.lower (String.intercalate ", " parts) = String.intercalate ", " (parts.map x.lower) := by
  induction parts with
  | nil => exact h.lower_empty
  | cons p parts ih =>
    cases parts with
    | nil => rfl
    | cons q parts =>
      rw [String.intercalate_cons_cons, List.map_cons, List.map_cons, String.intercalate_cons_cons,
        String.append_assoc, h.breaks_comma, ih, List.map_cons, String.append_assoc]

/-- The text of a number, or of the template after it. -/
def lowerChar (c : Char) : Bool := printable c && c.toLower = c

theorem Plain.lower_self (h : x.Plain) {s : String} (hs : ∀ c ∈ s.toList, lowerChar c = true) : x.lower s = s := by
  have hchars : ∀ c ∈ s.toList, printable c = true ∧ c.toLower = c := fun c hc => by
    simpa [lowerChar] using hs c hc
  rw [h.lower_ascii (List.all_eq_true.mpr fun c hc => (hchars c hc).1)]
  have hmap : s.toList.map Char.toLower = s.toList := by
    conv_rhs => rw [← List.map_id s.toList]
    exact List.map_congr_left fun c hc => (hchars c hc).2
  rw [hmap, String.ofList_toList]

end Texts

theorem lowerChar_of_textual {c : Char} (h : Number.textual c = true) : Texts.lowerChar c = true := by
  have hothers : ∀ d ∈ ['.', '+', '-', 'e', 'n', 'a', 'i', 'f'], Texts.lowerChar d = true :=
    List.all_iff_forall_prop.mp (by decide)
  simp only [Number.textual, Bool.or_eq_true, decide_eq_true_eq] at h
  rcases h with hdigit | hother
  · obtain ⟨hmin, hmax⟩ := digit_bounds hdigit
    simp only [Texts.lowerChar, printable, Bool.and_eq_true, decide_eq_true_eq]
    exact ⟨by omega, toLower_of_bounds (by omega)⟩
  · exact hothers c hother

end TwinVoice.Xai
