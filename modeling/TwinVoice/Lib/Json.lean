import Mathlib.Data.List.TakeWhile

/-! # JSON documents

What Python's `json.dumps` writes with an indent of two and what `json.loads`
reads, for documents whose numbers are integers. All but printable ASCII is
written in escapes, a character outside of the first plane in two. What was
written is read back. -/

namespace TwinVoice.Lib.Json

inductive Document where
  | null
  | bool (b : Bool)
  | int (n : Int)
  | str (s : String)
  | arr (items : List Document)
  | obj (members : List (String × Document))

/-! ## Strings -/

/-- The UTF-16 units of a character. -/
def units (c : Char) : List Nat :=
  if c.toNat < 0x10000 then [c.toNat]
  else [0xd800 + (c.toNat - 0x10000) / 0x400, 0xdc00 + (c.toNat - 0x10000) % 0x400]

def hex4 (n : Nat) : List Char :=
  [Nat.digitChar (n / 4096 % 16), Nat.digitChar (n / 256 % 16), Nat.digitChar (n / 16 % 16), Nat.digitChar (n % 16)]

def escapeUnit (n : Nat) : List Char := '\\' :: 'u' :: hex4 n

/-- The characters with an escape of two characters. -/
def short : List (Char × Char) :=
  [('"', '"'), ('\\', '\\'), ('\n', 'n'), ('\r', 'r'), ('\t', 't'), ('\x08', 'b'), ('\x0c', 'f')]

def isPlain (c : Char) : Bool := ' ' ≤ c && c ≤ '~'

def escape (c : Char) : List Char :=
  match short.find? (·.1 = c) with
  | some e => ['\\', e.2]
  | none => if isPlain c then [c] else (units c).flatMap escapeUnit

def quote (s : String) : List Char := '"' :: s.toList.flatMap escape ++ ['"']

def hexValue (c : Char) : Option Nat :=
  if c.isDigit then some (c.toNat - '0'.toNat)
  else if 'a' ≤ c ∧ c ≤ 'f' then some (c.toNat - 'a'.toNat + 10)
  else if 'A' ≤ c ∧ c ≤ 'F' then some (c.toNat - 'A'.toNat + 10)
  else none

/-- What a backslash makes of the character after it. -/
def unescape (c : Char) : Option Char :=
  if c = '/' then some '/' else (short.find? (·.2 = c)).map Prod.fst

/-- The units of a string up to its closing quote, and what follows. -/
def readUnits : List Char → Option (List Nat × List Char)
  | [] => none
  | '"' :: cs => some ([], cs)
  | '\\' :: 'u' :: a :: b :: c :: d :: cs => do
    let n := (← hexValue a) * 4096 + (← hexValue b) * 256 + (← hexValue c) * 16 + (← hexValue d)
    let (us, rest) ← readUnits cs
    some (n :: us, rest)
  | '\\' :: e :: cs => do
    let c ← unescape e
    let (us, rest) ← readUnits cs
    some (c.toNat :: us, rest)
  | c :: cs =>
    -- control characters stand in escapes only
    if ' ' ≤ c then (readUnits cs).map fun p => (c.toNat :: p.1, p.2) else none

/-- Characters from units. A half of a pair alone is no character. -/
def ofUnits : List Nat → Option (List Char)
  | [] => some []
  | u :: us =>
    if 0xd800 ≤ u ∧ u < 0xdc00 then
      match us with
      | v :: vs =>
        if 0xdc00 ≤ v ∧ v < 0xe000 then
          (ofUnits vs).map (Char.ofNat (0x10000 + (u - 0xd800) * 0x400 + (v - 0xdc00)) :: ·)
        else none
      | [] => none
    else if 0xdc00 ≤ u ∧ u < 0xe000 then none
    else (ofUnits us).map (Char.ofNat u :: ·)

/-- A string after its opening quote. -/
def readString (cs : List Char) : Option (String × List Char) := do
  let (us, rest) ← readUnits cs
  let s ← ofUnits us
  some (String.ofList s, rest)

theorem hexValue_digitChar {n : Nat} (h : n < 16) : hexValue (Nat.digitChar n) = some n := by
  revert n
  decide

theorem hexValues_hex4 {n : Nat} (h : n < 0x10000) :
    n / 4096 % 16 * 4096 + n / 256 % 16 * 256 + n / 16 % 16 * 16 + n % 16 = n := by
  omega

theorem readUnits_escapeUnit {n : Nat} (h : n < 0x10000) (cs : List Char) :
    readUnits (escapeUnit n ++ cs) = (readUnits cs).map fun p => (n :: p.1, p.2) := by
  have hdigit (k : Nat) : hexValue (Nat.digitChar (k % 16)) = some (k % 16) :=
    hexValue_digitChar (Nat.mod_lt k (by decide))
  simp only [escapeUnit, hex4, List.cons_append, List.nil_append, readUnits, hdigit, Option.bind_eq_bind,
    Option.bind_some, hexValues_hex4 h]
  cases readUnits cs <;> rfl

theorem short_find {c : Char} {e : Char × Char} (h : short.find? (·.1 = c) = some e) :
    unescape e.2 = some c ∧ e.2 ≠ 'u' := by
  have hc : e.1 = c := by simpa using List.find?_some h
  subst hc
  have hall : ∀ e ∈ short, unescape e.2 = some e.1 ∧ e.2 ≠ 'u' := by decide
  exact hall e (List.mem_of_find?_eq_some h)

theorem readUnits_short {e : Char} (he : e ≠ 'u') {c : Char} (hc : unescape e = some c) (cs : List Char) :
    readUnits ('\\' :: e :: cs) = (readUnits cs).map fun p => (c.toNat :: p.1, p.2) := by
  rw [readUnits.eq_4 e cs fun a b c d tail h => absurd h he, hc]
  cases readUnits cs <;> rfl

theorem readUnits_plain {c : Char} (hspace : ' ' ≤ c) (hquote : c ≠ '"') (hslash : c ≠ '\\') (cs : List Char) :
    readUnits (c :: cs) = (readUnits cs).map fun p => (c.toNat :: p.1, p.2) := by
  rw [readUnits]
  · rw [if_pos hspace]
  all_goals simp_all

theorem char_range (c : Char) : c.toNat < 0xd800 ∨ 0xdfff < c.toNat ∧ c.toNat < 0x110000 := c.valid

theorem units_lt (c : Char) : ∀ u ∈ units c, u < 0x10000 := by
  intro u hu
  have hrange := char_range c
  unfold units at hu
  split at hu
  · rw [List.mem_singleton] at hu
    omega
  · rw [List.mem_cons, List.mem_singleton] at hu
    omega

theorem units_plain {c : Char} (h : isPlain c = true) : units c = [c.toNat] := by
  have hle : c.toNat ≤ '~'.toNat := by
    simp only [isPlain, Bool.and_eq_true, decide_eq_true_eq] at h
    exact h.2
  exact if_pos (lt_of_le_of_lt hle (by decide))

theorem units_short {c : Char} {e : Char × Char} (h : short.find? (·.1 = c) = some e) : units c = [c.toNat] := by
  have hc : e.1 = c := by simpa using List.find?_some h
  subst hc
  have hall : ∀ e ∈ short, units e.1 = [e.1.toNat] := by decide
  exact hall e (List.mem_of_find?_eq_some h)

theorem readUnits_escape (c : Char) (cs : List Char) :
    readUnits (escape c ++ cs) = (readUnits cs).map fun p => (units c ++ p.1, p.2) := by
  unfold escape
  split
  · rename_i e hfind
    rw [units_short hfind]
    obtain ⟨hunescape, hne⟩ := short_find hfind
    exact readUnits_short hne hunescape cs
  · rename_i hfind
    split
    · rename_i hplain
      rw [units_plain hplain]
      have hspace : ' ' ≤ c := by
        simp only [isPlain, Bool.and_eq_true, decide_eq_true_eq] at hplain
        exact hplain.1
      have hnot := List.find?_eq_none.mp hfind
      have hquote : c ≠ '"' := fun h => hnot ('"', '"') (by decide) (by simp [h])
      have hslash : c ≠ '\\' := fun h => hnot ('\\', '\\') (by decide) (by simp [h])
      exact readUnits_plain hspace hquote hslash cs
    · have hlt := units_lt c
      generalize units c = us at hlt
      induction us with
      | nil => cases h : readUnits cs <;> simp [h]
      | cons u us ih =>
        rw [List.flatMap_cons, List.append_assoc, readUnits_escapeUnit (hlt u List.mem_cons_self),
          ih fun v hv => hlt v (List.mem_cons_of_mem _ hv), Option.map_map]
        rfl

theorem ofUnits_units (c : Char) (us : List Nat) : ofUnits (units c ++ us) = (ofUnits us).map (c :: ·) := by
  have hrange := char_range c
  unfold units
  split
  · have hhigh : ¬(0xd800 ≤ c.toNat ∧ c.toNat < 0xdc00) := by omega
    have hlow : ¬(0xdc00 ≤ c.toNat ∧ c.toNat < 0xe000) := by omega
    rw [List.singleton_append, ofUnits.eq_def]
    simp only [if_neg hhigh, if_neg hlow, Char.ofNat_toNat]
  · have hhigh : 0xd800 ≤ 0xd800 + (c.toNat - 0x10000) / 0x400 ∧
        0xd800 + (c.toNat - 0x10000) / 0x400 < 0xdc00 := by omega
    have hlow : 0xdc00 ≤ 0xdc00 + (c.toNat - 0x10000) % 0x400 ∧
        0xdc00 + (c.toNat - 0x10000) % 0x400 < 0xe000 := by omega
    have hjoin : 0x10000 + (0xd800 + (c.toNat - 0x10000) / 0x400 - 0xd800) * 0x400 +
        (0xdc00 + (c.toNat - 0x10000) % 0x400 - 0xdc00) = c.toNat := by omega
    rw [List.cons_append, List.singleton_append, ofUnits, if_pos hhigh]
    simp only [if_pos hlow, hjoin, Char.ofNat_toNat]

theorem readString_quote (s : String) (cs : List Char) :
    ∃ body, quote s ++ cs = '"' :: body ∧ readString body = some (s, cs) := by
  refine ⟨s.toList.flatMap escape ++ '"' :: cs, by simp [quote], ?_⟩
  have hunits (text : List Char) :
      readUnits (text.flatMap escape ++ '"' :: cs) = some (text.flatMap units, cs) := by
    induction text with
    | nil => rfl
    | cons c text ih => rw [List.flatMap_cons, List.append_assoc, readUnits_escape, ih, List.flatMap_cons]; rfl
  have hchars (text : List Char) : ofUnits (text.flatMap units) = some text := by
    induction text with
    | nil => rfl
    | cons c text ih => rw [List.flatMap_cons, ofUnits_units, ih]; rfl
  simp only [readString, hunits, hchars, Option.bind_eq_bind, Option.bind_some, String.ofList_toList]

/-! ## Integers -/

/-- An integer has no fraction and no exponent after it, and no leading zero. -/
def continues (c : Char) : Bool := c.isDigit || c = '.' || c = 'e' || c = 'E'

def readNat (cs : List Char) : Option (Nat × List Char) :=
  let digits := cs.takeWhile Char.isDigit
  let rest := cs.dropWhile Char.isDigit
  if digits = [] ∨ (digits.head? = some '0' ∧ digits.length ≠ 1) ∨ rest.head?.any continues then none
  else some (Nat.ofDigitChars 10 digits 0, rest)

def readInt : List Char → Option (Int × List Char)
  | '-' :: cs => (readNat cs).map fun p => (-p.1, p.2)
  | cs => (readNat cs).map fun p => (p.1, p.2)

def intText (n : Int) : List Char := (if n < 0 then ['-'] else []) ++ Nat.toDigits 10 n.natAbs

theorem head_toDigits {n : Nat} (h : n ≠ 0) : (Nat.toDigits 10 n).head? ≠ some '0' := by
  induction n using Nat.strongRecOn with
  | ind n ih =>
    rcases Nat.lt_or_ge n 10 with hlt | hge
    · rw [Nat.toDigits_of_lt_base hlt]
      have hall : ∀ k < 10, k ≠ 0 → Nat.digitChar k ≠ '0' := by decide
      exact fun hzero => hall n hlt h (Option.some.inj hzero)
    · obtain ⟨d, ds, hd⟩ := List.exists_cons_of_ne_nil (Nat.toDigits_ne_nil (n := n / 10) (b := 10))
      have hhead := ih (n / 10) (by omega) (by omega)
      rw [hd] at hhead
      rw [Nat.toDigits_of_base_le (by decide) hge, hd]
      exact hhead

theorem readNat_toDigits (n : Nat) {rest : List Char} (h : rest.head?.any continues = false) :
    readNat (Nat.toDigits 10 n ++ rest) = some (n, rest) := by
  have hdigits : ∀ c ∈ Nat.toDigits 10 n, c.isDigit = true := fun c hc =>
    Nat.isDigit_of_mem_toDigits (by decide) (by decide) hc
  have hstop : rest.takeWhile Char.isDigit = [] ∧ rest.dropWhile Char.isDigit = rest := by
    cases rest with
    | nil => exact ⟨rfl, rfl⟩
    | cons c rest =>
      have hc : c.isDigit = false := by
        simp only [List.head?_cons, Option.any_some, continues, Bool.or_eq_false_iff] at h
        exact h.1.1.1
      exact ⟨List.takeWhile_cons_of_neg (by simp [hc]), List.dropWhile_cons_of_neg (by simp [hc])⟩
  have hzero : ¬((Nat.toDigits 10 n).head? = some '0' ∧ (Nat.toDigits 10 n).length ≠ 1) := by
    intro ⟨hhead, hlen⟩
    refine hlen ?_
    rw [Decidable.not_not.mp fun hn => head_toDigits hn hhead]
    rfl
  have htake : (Nat.toDigits 10 n ++ rest).takeWhile Char.isDigit = Nat.toDigits 10 n := by
    rw [List.takeWhile_append_of_pos hdigits, hstop.1, List.append_nil]
  have hdrop : (Nat.toDigits 10 n ++ rest).dropWhile Char.isDigit = rest := by
    rw [List.dropWhile_append_of_pos hdigits, hstop.2]
  simp only [readNat, htake, hdrop]
  rw [if_neg, Nat.ofDigitChars_ten_toDigits]
  intro hbad
  rcases hbad with hnil | hlead | hmore
  · exact Nat.toDigits_ne_nil hnil
  · exact hzero hlead
  · exact absurd hmore (by simp [h])

theorem readInt_intText (n : Int) {rest : List Char} (h : rest.head?.any continues = false) :
    readInt (intText n ++ rest) = some (n, rest) := by
  unfold intText
  split
  · rename_i hneg
    rw [List.append_assoc, List.singleton_append, readInt, readNat_toDigits _ h, Option.map_some]
    congr 2
    omega
  · rename_i hpos
    rw [List.nil_append, readInt, readNat_toDigits _ h, Option.map_some]
    · congr 2
      omega
    · intro cs hcs
      obtain ⟨d, ds, hd⟩ := List.exists_cons_of_ne_nil (Nat.toDigits_ne_nil (n := n.natAbs) (b := 10))
      have hdigit : d.isDigit = true :=
        Nat.isDigit_of_mem_toDigits (n := n.natAbs) (by decide) (by decide) (hd ▸ List.mem_cons_self)
      rw [hd, List.cons_append, List.cons.injEq] at hcs
      rw [hcs.1] at hdigit
      exact absurd hdigit (by decide)

/-! ## Documents -/

def isSpace (c : Char) : Bool := c = ' ' || c = '\n' || c = '\r' || c = '\t'

def skip (cs : List Char) : List Char := cs.dropWhile isSpace

def newline (depth : Nat) : List Char := '\n' :: List.replicate (2 * depth) ' '

mutual

def dumps : Nat → Document → List Char
  | _, .null => ['n', 'u', 'l', 'l']
  | _, .bool true => ['t', 'r', 'u', 'e']
  | _, .bool false => ['f', 'a', 'l', 's', 'e']
  | _, .int n => intText n
  | _, .str s => quote s
  | depth, .arr items =>
    if items.isEmpty then ['[', ']']
    else '[' :: newline (depth + 1) ++ dumpsItems (depth + 1) items ++ newline depth ++ [']']
  | depth, .obj members =>
    if members.isEmpty then ['{', '}']
    else '{' :: newline (depth + 1) ++ dumpsMembers (depth + 1) members ++ newline depth ++ ['}']

def dumpsItems : Nat → List Document → List Char
  | _, [] => []
  | depth, v :: vs => dumps depth v ++ if vs.isEmpty then [] else ',' :: newline depth ++ dumpsItems depth vs

def dumpsMembers : Nat → List (String × Document) → List Char
  | _, [] => []
  | depth, (k, v) :: ms =>
    quote k ++ ':' :: ' ' :: dumps depth v ++ if ms.isEmpty then [] else ',' :: newline depth ++ dumpsMembers depth ms

end

mutual

/-- A value at the start of the text, and what follows it. -/
def readValue : Nat → List Char → Option (Document × List Char)
  | 0, _ => none
  | n + 1, cs =>
    match cs with
    | '"' :: cs => (readString cs).map fun p => (.str p.1, p.2)
    | '[' :: cs =>
      match skip cs with
      | ']' :: cs => some (.arr [], cs)
      | cs => (readItems n cs).map fun p => (.arr p.1, p.2)
    | '{' :: cs =>
      match skip cs with
      | '}' :: cs => some (.obj [], cs)
      | cs => (readMembers n cs).map fun p => (.obj p.1, p.2)
    | 'n' :: 'u' :: 'l' :: 'l' :: cs => some (.null, cs)
    | 't' :: 'r' :: 'u' :: 'e' :: cs => some (.bool true, cs)
    | 'f' :: 'a' :: 'l' :: 's' :: 'e' :: cs => some (.bool false, cs)
    | cs => (readInt cs).map fun p => (.int p.1, p.2)

/-- The items of an array up to its end. -/
def readItems : Nat → List Char → Option (List Document × List Char)
  | 0, _ => none
  | n + 1, cs => do
    let (v, cs) ← readValue n cs
    match skip cs with
    | ']' :: cs => some ([v], cs)
    | ',' :: cs => (readItems n (skip cs)).map fun p => (v :: p.1, p.2)
    | _ => none

/-- The members of an object up to its end. -/
def readMembers : Nat → List Char → Option (List (String × Document) × List Char)
  | 0, _ => none
  | n + 1, cs =>
    match cs with
    | '"' :: cs => do
      let (k, cs) ← readString cs
      match skip cs with
      | ':' :: cs => do
        let (v, cs) ← readValue n (skip cs)
        match skip cs with
        | '}' :: cs => some ([(k, v)], cs)
        | ',' :: cs => (readMembers n (skip cs)).map fun p => ((k, v) :: p.1, p.2)
        | _ => none
      | _ => none
    | _ => none

end

/-- `json.loads`. A value takes two steps for each of its characters at most. -/
def loads (text : String) : Option Document :=
  match readValue (2 * text.toList.length) (skip text.toList) with
  | some (v, rest) => if skip rest = [] then some v else none
  | none => none

/-- `json.dumps` with an indent of two. -/
def write (v : Document) : String := String.ofList (dumps 0 v)

theorem skip_newline (depth : Nat) (cs : List Char) (h : cs.head?.any isSpace = false) :
    skip (newline depth ++ cs) = cs := by
  have hspace : ∀ c ∈ newline depth, isSpace c = true := by
    intro c hc
    rcases List.mem_cons.mp hc with rfl | hc
    · rfl
    · rw [List.eq_of_mem_replicate hc]
      rfl
  rw [skip, List.dropWhile_append_of_pos hspace]
  cases cs with
  | nil => rfl
  | cons c cs => exact List.dropWhile_cons_of_neg (by simpa using h)

theorem skip_self (cs : List Char) (h : cs.head?.any isSpace = false) : skip cs = cs := by
  cases cs with
  | nil => rfl
  | cons c cs => exact List.dropWhile_cons_of_neg (by simpa using h)

/-! ## What was written is read -/

/-- The characters that a value starts with. -/
def starts (c : Char) : Bool := c ∈ ['"', '[', '{', 'n', 't', 'f', '-'] || c.isDigit

theorem isSpace_of_starts {c : Char} (h : starts c = true) : isSpace c = false ∧ c ≠ ']' := by
  simp only [starts, Bool.or_eq_true, decide_eq_true_eq] at h
  rcases h with h | h
  · simp only [List.mem_cons, List.not_mem_nil, or_false] at h
    rcases h with rfl | rfl | rfl | rfl | rfl | rfl | rfl
    all_goals exact ⟨rfl, by decide⟩
  · have hne (d : Char) (hd : d.isDigit = false) : c ≠ d := fun heq => by rw [heq, hd] at h; cases h
    refine ⟨?_, hne ']' rfl⟩
    simp only [isSpace, hne ' ' rfl, hne '\n' rfl, hne '\r' rfl, hne '\t' rfl, decide_false, Bool.or_self]

theorem head_intText (n : Int) : ∃ c cs, intText n = c :: cs ∧ (c = '-' ∨ c.isDigit = true) := by
  unfold intText
  split
  · exact ⟨'-', _, rfl, .inl rfl⟩
  · obtain ⟨d, ds, hd⟩ := List.exists_cons_of_ne_nil (Nat.toDigits_ne_nil (n := n.natAbs) (b := 10))
    exact ⟨d, ds, hd, .inr (Nat.isDigit_of_mem_toDigits (n := n.natAbs) (by decide) (by decide)
      (hd ▸ List.mem_cons_self))⟩

theorem head_dumps (depth : Nat) (v : Document) : ∃ c cs, dumps depth v = c :: cs ∧ starts c = true := by
  cases v with
  | null => exact ⟨_, _, rfl, rfl⟩
  | bool b => cases b <;> exact ⟨_, _, rfl, rfl⟩
  | int n =>
    obtain ⟨c, cs, hcs, hc⟩ := head_intText n
    rcases hc with rfl | hc
    · exact ⟨_, _, hcs, rfl⟩
    · exact ⟨_, _, hcs, by simp [starts, hc]⟩
  | str s => exact ⟨_, _, rfl, rfl⟩
  | arr items => cases items <;> exact ⟨_, _, rfl, rfl⟩
  | obj members => cases members <;> exact ⟨_, _, rfl, rfl⟩

theorem value_number {c : Char} (h : c = '-' ∨ c.isDigit = true) (n : Nat) (cs : List Char) :
    readValue (n + 1) (c :: cs) = (readInt (c :: cs)).map fun p => (.int p.1, p.2) := by
  have hne (d : Char) (hminus : d ≠ '-') (hd : d.isDigit = false) : c ≠ d := by
    rintro rfl
    rcases h with rfl | h
    · exact hminus rfl
    · rw [hd] at h
      cases h
  rw [readValue]
  · exact fun ds heq => hne '"' (by decide) rfl (List.cons.inj heq).1
  · exact fun ds heq => hne '[' (by decide) rfl (List.cons.inj heq).1
  · exact fun ds heq => hne '{' (by decide) rfl (List.cons.inj heq).1
  · exact fun ds heq => hne 'n' (by decide) rfl (List.cons.inj heq).1
  · exact fun ds heq => hne 't' (by decide) rfl (List.cons.inj heq).1
  · exact fun ds heq => hne 'f' (by decide) rfl (List.cons.inj heq).1

theorem dumpsItems_head (depth : Nat) (v : Document) (vs : List Document) (rest : List Char) :
    ∃ c cs, dumpsItems depth (v :: vs) ++ rest = c :: cs ∧ isSpace c = false ∧ c ≠ ']' := by
  obtain ⟨c, cs, hcs, hc⟩ := head_dumps depth v
  rw [dumpsItems, hcs]
  exact ⟨c, _, rfl, isSpace_of_starts hc⟩

mutual

theorem value_dumps (v : Document) (depth n : Nat) (rest : List Char) (hfuel : 2 * (dumps depth v).length ≤ n)
    (hrest : rest.head?.any continues = false) : readValue n (dumps depth v ++ rest) = some (v, rest) := by
  obtain ⟨c, cs, hcs, -⟩ := head_dumps depth v
  have hpos : 0 < (dumps depth v).length := by simp [hcs]
  obtain ⟨n, rfl⟩ := Nat.exists_eq_add_one_of_ne_zero (show n ≠ 0 by omega)
  cases v with
  | null => rfl
  | bool b => cases b <;> rfl
  | int i =>
    obtain ⟨c, cs, hcs, hc⟩ := head_intText i
    have hread := readInt_intText i hrest
    rw [hcs, List.cons_append] at hread
    rw [dumps, hcs, List.cons_append, value_number hc, hread, Option.map_some]
  | str s =>
    obtain ⟨body, hquote, hread⟩ := readString_quote s rest
    rw [dumps, hquote, readValue, hread, Option.map_some]
  | arr items =>
    cases items with
    | nil => rfl
    | cons v vs =>
      have hlen : (dumps depth (.arr (v :: vs))).length = (dumpsItems (depth + 1) (v :: vs)).length +
          (newline (depth + 1)).length + (newline depth).length + 2 := by
        simp [dumps]
        omega
      have hitems := items_dumps v vs (depth + 1) depth n rest (by omega)
      obtain ⟨c, cs, hcs, hspace, hne⟩ := dumpsItems_head (depth + 1) v vs (newline depth ++ ']' :: rest)
      have hskip : skip (newline (depth + 1) ++ (dumpsItems (depth + 1) (v :: vs) ++ (newline depth ++ ']' :: rest))) =
          c :: cs := by
        rw [hcs, skip_newline _ _ (by simpa using hspace)]
      have htext : dumps depth (.arr (v :: vs)) ++ rest = '[' :: (newline (depth + 1) ++
          (dumpsItems (depth + 1) (v :: vs) ++ (newline depth ++ ']' :: rest))) := by
        simp [dumps]
      rw [htext, readValue, hskip]
      split
      · rename_i heq
        exact absurd (List.cons.inj heq).1 hne
      · rw [← hcs, hitems]
        rfl
  | obj members =>
    cases members with
    | nil => rfl
    | cons m ms =>
      obtain ⟨k, v⟩ := m
      have hlen : (dumps depth (.obj ((k, v) :: ms))).length = (dumpsMembers (depth + 1) ((k, v) :: ms)).length +
          (newline (depth + 1)).length + (newline depth).length + 2 := by
        simp [dumps]
        omega
      have hmembers := members_dumps k v ms (depth + 1) depth n rest (by omega)
      have hskip : skip (newline (depth + 1) ++ (dumpsMembers (depth + 1) ((k, v) :: ms) ++
          (newline depth ++ '}' :: rest))) = dumpsMembers (depth + 1) ((k, v) :: ms) ++ (newline depth ++ '}' :: rest) :=
        skip_newline _ _ rfl
      have htext : dumps depth (.obj ((k, v) :: ms)) ++ rest = '{' :: (newline (depth + 1) ++
          (dumpsMembers (depth + 1) ((k, v) :: ms) ++ (newline depth ++ '}' :: rest))) := by
        simp [dumps]
      rw [htext, readValue, hskip]
      split
      · rename_i heq
        exact absurd (List.cons.inj heq).1 (by decide)
      · rw [hmembers]
        rfl
termination_by n

theorem items_dumps (v : Document) (vs : List Document) (depth outer n : Nat) (rest : List Char)
    (hfuel : 2 * (dumpsItems depth (v :: vs)).length + 1 ≤ n) :
    readItems n (dumpsItems depth (v :: vs) ++ (newline outer ++ ']' :: rest)) = some (v :: vs, rest) := by
  obtain ⟨n, rfl⟩ := Nat.exists_eq_add_one_of_ne_zero (show n ≠ 0 by omega)
  cases vs with
  | nil =>
    have hvalue := value_dumps v depth n (newline outer ++ ']' :: rest)
      (by simp [dumpsItems] at hfuel; omega) rfl
    have htext : dumpsItems depth [v] ++ (newline outer ++ ']' :: rest) =
        dumps depth v ++ (newline outer ++ ']' :: rest) := by
      simp [dumpsItems]
    rw [htext, readItems, hvalue, Option.bind_eq_bind, Option.bind_some]
    simp only [skip_newline outer (']' :: rest) rfl]
  | cons w vs =>
    have hlen : (dumpsItems depth (v :: w :: vs)).length = (dumps depth v).length + (newline depth).length + 1 +
        (dumpsItems depth (w :: vs)).length := by
      rw [dumpsItems]
      simp
      omega
    have hvalue := value_dumps v depth n
      (',' :: (newline depth ++ (dumpsItems depth (w :: vs) ++ (newline outer ++ ']' :: rest))))
      (by omega) rfl
    have hitems := items_dumps w vs depth outer n rest (by omega)
    obtain ⟨c, cs, hcs, hspace, -⟩ := dumpsItems_head depth w vs (newline outer ++ ']' :: rest)
    have htext : dumpsItems depth (v :: w :: vs) ++ (newline outer ++ ']' :: rest) =
        dumps depth v ++ ',' :: (newline depth ++ (dumpsItems depth (w :: vs) ++ (newline outer ++ ']' :: rest))) := by
      rw [dumpsItems]
      simp
    have hskip : skip (newline depth ++ (dumpsItems depth (w :: vs) ++ (newline outer ++ ']' :: rest))) =
        dumpsItems depth (w :: vs) ++ (newline outer ++ ']' :: rest) := by
      rw [hcs, skip_newline _ _ (by simpa using hspace)]
    rw [htext, readItems, hvalue, Option.bind_eq_bind, Option.bind_some]
    simp only [skip_self (',' :: _) rfl, hskip, hitems, Option.map_some]
termination_by n

theorem members_dumps (k : String) (v : Document) (ms : List (String × Document)) (depth outer n : Nat) (rest : List Char)
    (hfuel : 2 * (dumpsMembers depth ((k, v) :: ms)).length + 1 ≤ n) :
    readMembers n (dumpsMembers depth ((k, v) :: ms) ++ (newline outer ++ '}' :: rest)) = some ((k, v) :: ms, rest) := by
  obtain ⟨n, rfl⟩ := Nat.exists_eq_add_one_of_ne_zero (show n ≠ 0 by omega)
  obtain ⟨c, cs, hcs, hstarts⟩ := head_dumps depth v
  have hspace (after : List Char) : (dumps depth v ++ after).head?.any isSpace = false := by
    rw [hcs]
    exact (isSpace_of_starts hstarts).1
  cases ms with
  | nil =>
    have hlen : (dumpsMembers depth [(k, v)]).length = (quote k).length + (dumps depth v).length + 2 := by
      simp [dumpsMembers]
      omega
    have hvalue := value_dumps v depth n (newline outer ++ '}' :: rest) (by omega) rfl
    obtain ⟨body, hquote, hread⟩ :=
      readString_quote k (':' :: ' ' :: (dumps depth v ++ (newline outer ++ '}' :: rest)))
    have htext : dumpsMembers depth [(k, v)] ++ (newline outer ++ '}' :: rest) = '"' :: body := by
      simp [dumpsMembers, ← hquote]
    have hskip : skip (' ' :: (dumps depth v ++ (newline outer ++ '}' :: rest))) =
        dumps depth v ++ (newline outer ++ '}' :: rest) :=
      skip_self _ (hspace _)
    rw [htext, readMembers, hread, Option.bind_eq_bind, Option.bind_some]
    simp only [skip_self (':' :: _) rfl, hskip, hvalue, Option.bind_eq_bind, Option.bind_some,
      skip_newline outer ('}' :: rest) rfl]
  | cons m ms =>
    obtain ⟨k', w⟩ := m
    have hlen : (dumpsMembers depth ((k, v) :: (k', w) :: ms)).length = (quote k).length + (dumps depth v).length +
        (newline depth).length + 3 + (dumpsMembers depth ((k', w) :: ms)).length := by
      rw [dumpsMembers]
      simp
      omega
    have hmembers := members_dumps k' w ms depth outer n rest (by omega)
    generalize hmore : dumpsMembers depth ((k', w) :: ms) ++ (newline outer ++ '}' :: rest) = more at hmembers
    have hmorespace : more.head?.any isSpace = false := by
      rw [← hmore]
      rfl
    have hvalue := value_dumps v depth n (',' :: (newline depth ++ more)) (by omega) rfl
    obtain ⟨body, hquote, hread⟩ :=
      readString_quote k (':' :: ' ' :: (dumps depth v ++ ',' :: (newline depth ++ more)))
    have htext : dumpsMembers depth ((k, v) :: (k', w) :: ms) ++ (newline outer ++ '}' :: rest) = '"' :: body := by
      rw [dumpsMembers, ← hquote, ← hmore]
      simp
    have hskip : skip (' ' :: (dumps depth v ++ ',' :: (newline depth ++ more))) =
        dumps depth v ++ ',' :: (newline depth ++ more) :=
      skip_self _ (hspace _)
    rw [htext, readMembers, hread, Option.bind_eq_bind, Option.bind_some]
    simp only [skip_self (':' :: _) rfl, hskip, hvalue, Option.bind_eq_bind, Option.bind_some,
      skip_self (',' :: _) rfl, skip_newline depth more hmorespace, hmembers, Option.map_some]
termination_by n

end

theorem loads_write (v : Document) : loads (write v) = some v := by
  obtain ⟨c, cs, hcs, hstarts⟩ := head_dumps 0 v
  have hskip : skip (dumps 0 v) = dumps 0 v := by
    refine skip_self _ ?_
    rw [hcs]
    exact (isSpace_of_starts hstarts).1
  have hvalue := value_dumps v 0 (2 * (dumps 0 v).length) [] le_rfl rfl
  rw [List.append_nil] at hvalue
  rw [loads, write, String.toList_ofList, hskip, hvalue]
  rfl

/-! ## On one line -/

mutual

/-- What `json.dumps` writes without an indent; `blank` stands after a comma and a colon. -/
def line (blank : List Char) : Document → List Char
  | .null => ['n', 'u', 'l', 'l']
  | .bool true => ['t', 'r', 'u', 'e']
  | .bool false => ['f', 'a', 'l', 's', 'e']
  | .int n => intText n
  | .str s => quote s
  | .arr items => '[' :: lineItems blank items ++ [']']
  | .obj members => '{' :: lineMembers blank members ++ ['}']

def lineItems (blank : List Char) : List Document → List Char
  | [] => []
  | v :: vs => line blank v ++ if vs.isEmpty then [] else ',' :: blank ++ lineItems blank vs

def lineMembers (blank : List Char) : List (String × Document) → List Char
  | [] => []
  | (k, v) :: ms =>
    quote k ++ ':' :: blank ++ line blank v ++ if ms.isEmpty then [] else ',' :: blank ++ lineMembers blank ms

end

theorem skip_blank {blank : List Char} (hblank : ∀ c ∈ blank, isSpace c = true) {cs : List Char}
    (h : cs.head?.any isSpace = false) : skip (blank ++ cs) = cs := by
  rw [skip, List.dropWhile_append_of_pos hblank]
  exact skip_self cs h

theorem head_line (blank : List Char) (v : Document) : ∃ c cs, line blank v = c :: cs ∧ starts c = true := by
  cases v with
  | null => exact ⟨_, _, rfl, rfl⟩
  | bool b => cases b <;> exact ⟨_, _, rfl, rfl⟩
  | int n =>
    obtain ⟨c, cs, hcs, hc⟩ := head_intText n
    rcases hc with rfl | hc
    · exact ⟨_, _, hcs, rfl⟩
    · exact ⟨_, _, hcs, by simp [starts, hc]⟩
  | str s => exact ⟨_, _, rfl, rfl⟩
  | arr items => exact ⟨_, _, rfl, rfl⟩
  | obj members => exact ⟨_, _, rfl, rfl⟩

theorem lineItems_head (blank : List Char) (v : Document) (vs : List Document) (rest : List Char) :
    ∃ c cs, lineItems blank (v :: vs) ++ rest = c :: cs ∧ isSpace c = false ∧ c ≠ ']' := by
  obtain ⟨c, cs, hcs, hc⟩ := head_line blank v
  rw [lineItems, hcs]
  exact ⟨c, _, rfl, isSpace_of_starts hc⟩

mutual

theorem value_line {blank : List Char} (hblank : ∀ c ∈ blank, isSpace c = true) (v : Document)
    (n : Nat) (rest : List Char) (hfuel : 2 * (line blank v).length ≤ n)
    (hrest : rest.head?.any continues = false) : readValue n (line blank v ++ rest) = some (v, rest) := by
  obtain ⟨c, cs, hcs, -⟩ := head_line blank v
  have hpos : 0 < (line blank v).length := by simp [hcs]
  obtain ⟨n, rfl⟩ := Nat.exists_eq_add_one_of_ne_zero (show n ≠ 0 by omega)
  cases v with
  | null => rfl
  | bool b => cases b <;> rfl
  | int i =>
    obtain ⟨c, cs, hcs, hc⟩ := head_intText i
    have hread := readInt_intText i hrest
    rw [hcs, List.cons_append] at hread
    rw [line, hcs, List.cons_append, value_number hc, hread, Option.map_some]
  | str s =>
    obtain ⟨body, hquote, hread⟩ := readString_quote s rest
    rw [line, hquote, readValue, hread, Option.map_some]
  | arr items =>
    cases items with
    | nil => rfl
    | cons v vs =>
      have hlen : (line blank (.arr (v :: vs))).length = (lineItems blank (v :: vs)).length + 2 := by simp [line]
      have hitems := items_line hblank v vs n rest (by omega)
      obtain ⟨c, cs, hcs, hspace, hne⟩ := lineItems_head blank v vs (']' :: rest)
      have htext : line blank (.arr (v :: vs)) ++ rest = '[' :: (lineItems blank (v :: vs) ++ ']' :: rest) := by
        simp [line]
      have hskip : skip (lineItems blank (v :: vs) ++ ']' :: rest) = c :: cs := by
        rw [hcs]
        exact skip_self _ (by simpa using hspace)
      rw [htext, readValue, hskip]
      split
      · rename_i heq
        exact absurd (List.cons.inj heq).1 hne
      · rw [← hcs, hitems]
        rfl
  | obj members =>
    cases members with
    | nil => rfl
    | cons m ms =>
      obtain ⟨k, v⟩ := m
      have hlen : (line blank (.obj ((k, v) :: ms))).length = (lineMembers blank ((k, v) :: ms)).length + 2 := by
        simp [line]
      have hmembers := members_line hblank k v ms n rest (by omega)
      have htext : line blank (.obj ((k, v) :: ms)) ++ rest =
          '{' :: (lineMembers blank ((k, v) :: ms) ++ '}' :: rest) := by
        simp [line]
      have hskip : skip (lineMembers blank ((k, v) :: ms) ++ '}' :: rest) =
          lineMembers blank ((k, v) :: ms) ++ '}' :: rest := skip_self _ rfl
      rw [htext, readValue, hskip]
      split
      · rename_i heq
        exact absurd (List.cons.inj heq).1 (by decide)
      · rw [hmembers]
        rfl
termination_by n

theorem items_line {blank : List Char} (hblank : ∀ c ∈ blank, isSpace c = true) (v : Document)
    (vs : List Document) (n : Nat) (rest : List Char) (hfuel : 2 * (lineItems blank (v :: vs)).length + 1 ≤ n) :
    readItems n (lineItems blank (v :: vs) ++ ']' :: rest) = some (v :: vs, rest) := by
  obtain ⟨n, rfl⟩ := Nat.exists_eq_add_one_of_ne_zero (show n ≠ 0 by omega)
  cases vs with
  | nil =>
    have hvalue := value_line hblank v n (']' :: rest) (by simp [lineItems] at hfuel; omega) rfl
    have htext : lineItems blank [v] ++ ']' :: rest = line blank v ++ ']' :: rest := by simp [lineItems]
    rw [htext, readItems, hvalue, Option.bind_eq_bind, Option.bind_some]
    simp only [skip_self (']' :: rest) rfl]
  | cons w vs =>
    have hlen : (lineItems blank (v :: w :: vs)).length = (line blank v).length + blank.length + 1 +
        (lineItems blank (w :: vs)).length := by
      rw [lineItems]
      simp
      omega
    have hvalue := value_line hblank v n (',' :: (blank ++ (lineItems blank (w :: vs) ++ ']' :: rest))) (by omega) rfl
    have hitems := items_line hblank w vs n rest (by omega)
    obtain ⟨c, cs, hcs, hspace, -⟩ := lineItems_head blank w vs (']' :: rest)
    have htext : lineItems blank (v :: w :: vs) ++ ']' :: rest =
        line blank v ++ ',' :: (blank ++ (lineItems blank (w :: vs) ++ ']' :: rest)) := by
      rw [lineItems]
      simp
    have hskip : skip (blank ++ (lineItems blank (w :: vs) ++ ']' :: rest)) =
        lineItems blank (w :: vs) ++ ']' :: rest := by
      rw [hcs]
      exact skip_blank hblank (by simpa using hspace)
    rw [htext, readItems, hvalue, Option.bind_eq_bind, Option.bind_some]
    simp only [skip_self (',' :: _) rfl, hskip, hitems, Option.map_some]
termination_by n

theorem members_line {blank : List Char} (hblank : ∀ c ∈ blank, isSpace c = true) (k : String)
    (v : Document) (ms : List (String × Document)) (n : Nat) (rest : List Char)
    (hfuel : 2 * (lineMembers blank ((k, v) :: ms)).length + 1 ≤ n) :
    readMembers n (lineMembers blank ((k, v) :: ms) ++ '}' :: rest) = some ((k, v) :: ms, rest) := by
  obtain ⟨n, rfl⟩ := Nat.exists_eq_add_one_of_ne_zero (show n ≠ 0 by omega)
  obtain ⟨c, cs, hcs, hstarts⟩ := head_line blank v
  have hspace (after : List Char) : (line blank v ++ after).head?.any isSpace = false := by
    rw [hcs]
    exact (isSpace_of_starts hstarts).1
  cases ms with
  | nil =>
    have hlen : (lineMembers blank [(k, v)]).length = (quote k).length + blank.length + (line blank v).length + 1 := by
      simp [lineMembers]
      omega
    have hvalue := value_line hblank v n ('}' :: rest) (by omega) rfl
    obtain ⟨body, hquote, hread⟩ := readString_quote k (':' :: (blank ++ (line blank v ++ '}' :: rest)))
    have htext : lineMembers blank [(k, v)] ++ '}' :: rest = '"' :: body := by
      simp [lineMembers, ← hquote]
    have hskip : skip (blank ++ (line blank v ++ '}' :: rest)) = line blank v ++ '}' :: rest :=
      skip_blank hblank (hspace _)
    rw [htext, readMembers, hread, Option.bind_eq_bind, Option.bind_some]
    simp only [skip_self (':' :: _) rfl, hskip, hvalue, Option.bind_eq_bind, Option.bind_some,
      skip_self ('}' :: rest) rfl]
  | cons m ms =>
    obtain ⟨k', w⟩ := m
    have hlen : (lineMembers blank ((k, v) :: (k', w) :: ms)).length = (quote k).length + (line blank v).length +
        2 * blank.length + 2 + (lineMembers blank ((k', w) :: ms)).length := by
      rw [lineMembers]
      simp
      omega
    have hmembers := members_line hblank k' w ms n rest (by omega)
    generalize hmore : lineMembers blank ((k', w) :: ms) ++ '}' :: rest = more at hmembers
    have hmorespace : more.head?.any isSpace = false := by
      rw [← hmore]
      rfl
    have hvalue := value_line hblank v n (',' :: (blank ++ more)) (by omega) rfl
    obtain ⟨body, hquote, hread⟩ := readString_quote k (':' :: (blank ++ (line blank v ++ ',' :: (blank ++ more))))
    have htext : lineMembers blank ((k, v) :: (k', w) :: ms) ++ '}' :: rest = '"' :: body := by
      rw [lineMembers, ← hquote, ← hmore]
      simp
    have hskip : skip (blank ++ (line blank v ++ ',' :: (blank ++ more))) = line blank v ++ ',' :: (blank ++ more) :=
      skip_blank hblank (hspace _)
    rw [htext, readMembers, hread, Option.bind_eq_bind, Option.bind_some]
    simp only [skip_self (':' :: _) rfl, hskip, hvalue, Option.bind_eq_bind, Option.bind_some,
      skip_self (',' :: _) rfl, skip_blank hblank hmorespace, hmembers, Option.map_some]
termination_by n

end

/-- What was written on one line is read, with or without the blanks. -/
theorem loads_line {blank : List Char} (hblank : ∀ c ∈ blank, isSpace c = true) (v : Document) :
    loads (String.ofList (line blank v)) = some v := by
  obtain ⟨c, cs, hcs, hstarts⟩ := head_line blank v
  have hskip : skip (line blank v) = line blank v := by
    refine skip_self _ ?_
    rw [hcs]
    exact (isSpace_of_starts hstarts).1
  have hvalue := value_line hblank v (2 * (line blank v).length) [] le_rfl rfl
  rw [List.append_nil] at hvalue
  rw [loads, String.toList_ofList, hskip, hvalue]
  rfl

end TwinVoice.Lib.Json
