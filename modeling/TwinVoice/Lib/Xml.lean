import Mathlib.Data.List.TakeWhile
import TwinVoice.Lib.Traversal

/-! # XML documents

What Python's `xml.etree.ElementTree` writes for a tree of elements, and the
events that an XML parser reports for such a document: tags and texts. A text
is escaped against the markup only. So a character that XML does not have
makes the document one that no parser takes, and the line ends in a text are
read as line feeds. -/

namespace TwinVoice.Lib.Xml

def isNameChar (c : Char) : Bool := c.isAlphanum || c = ':' || c = '-' || c = '_' || c = '.'

structure Name where
  chars : List Char
  wellFormed : chars ≠ [] ∧ chars.all isNameChar = true

def Name.text (name : Name) : String := String.ofList name.chars

structure Element where
  tag : Name
  attributes : List (Name × String) := []
  text : String := ""
  children : List Element := []

inductive Event
  | start (tag : String) (attributes : List (String × String))
  | text (s : String)
  | stop (tag : String)
  deriving DecidableEq

/-! ## The writer -/

def reference : Char → Option (List Char)
  | '&' => some ['&', 'a', 'm', 'p', ';']
  | '<' => some ['&', 'l', 't', ';']
  | '>' => some ['&', 'g', 't', ';']
  | '"' => some ['&', 'q', 'u', 'o', 't', ';']
  | '\r' => some ['&', '#', '1', '3', ';']
  | '\n' => some ['&', '#', '1', '0', ';']
  | '\t' => some ['&', '#', '0', '9', ';']
  | _ => none

def escape (special : List Char) (c : Char) : List Char :=
  if c ∈ special then (reference c).getD [c] else [c]

/-- `_escape_cdata`. -/
def escapeText (s : String) : List Char := s.toList.flatMap (escape ['&', '<', '>'])

/-- `_escape_attrib`. -/
def escapeAttribute (s : String) : List Char := s.toList.flatMap (escape ['&', '<', '>', '"', '\r', '\n', '\t'])

def writeAttribute (a : Name × String) : List Char :=
  ' ' :: a.1.chars ++ '=' :: '"' :: escapeAttribute a.2 ++ ['"']

mutual

/-- `_serialize_xml`. An element of nothing is written as one tag. -/
def write : Element → List Char
  | ⟨tag, attributes, text, children⟩ =>
    '<' :: tag.chars ++ attributes.flatMap writeAttribute ++
      if text = "" ∧ children.isEmpty then [' ', '/', '>']
      else '>' :: escapeText text ++ writeAll children ++ '<' :: '/' :: tag.chars ++ ['>']

def writeAll : List Element → List Char
  | [] => []
  | e :: es => write e ++ writeAll es

end

def declaration : List Char := "<?xml version='1.0' encoding='utf-8'?>\n".toList

/-- `tostring` with a declaration. -/
def document (e : Element) : String := String.ofList (declaration ++ write e)

mutual

def events : Element → List Event
  | ⟨tag, attributes, text, children⟩ =>
    .start tag.text (attributes.map fun a => (a.1.text, a.2)) ::
      ((if text = "" then [] else [.text text]) ++ eventsAll children ++ [.stop tag.text])

def eventsAll : List Element → List Event
  | [] => []
  | e :: es => events e ++ eventsAll es

end

/-! ## The reader -/

def isXmlChar (c : Char) : Bool :=
  c = '\t' || c = '\n' || c = '\r' || (' '.toNat ≤ c.toNat && c.toNat ≤ 0xd7ff) ||
    (0xe000 ≤ c.toNat && c.toNat ≤ 0xfffd) || 0x10000 ≤ c.toNat

/-- A line ends in a line feed, however it was written. -/
def lineFeeds : List Char → List Char
  | [] => []
  | '\r' :: '\n' :: cs => '\n' :: lineFeeds cs
  | '\r' :: cs => '\n' :: lineFeeds cs
  | c :: cs => c :: lineFeeds cs

def unescape : List Char → Option (List Char)
  | [] => some []
  | '&' :: 'a' :: 'm' :: 'p' :: ';' :: cs => (unescape cs).map ('&' :: ·)
  | '&' :: 'l' :: 't' :: ';' :: cs => (unescape cs).map ('<' :: ·)
  | '&' :: 'g' :: 't' :: ';' :: cs => (unescape cs).map ('>' :: ·)
  | '&' :: 'q' :: 'u' :: 'o' :: 't' :: ';' :: cs => (unescape cs).map ('"' :: ·)
  | '&' :: '#' :: '1' :: '3' :: ';' :: cs => (unescape cs).map ('\r' :: ·)
  | '&' :: '#' :: '1' :: '0' :: ';' :: cs => (unescape cs).map ('\n' :: ·)
  | '&' :: '#' :: '0' :: '9' :: ';' :: cs => (unescape cs).map ('\t' :: ·)
  | '&' :: _ => none
  | c :: cs => (unescape cs).map (c :: ·)

/-- The attributes at the start of a text, and what follows them. -/
def readAttributes : Nat → List Char → Option (List (String × String) × List Char)
  | 0, cs => some ([], cs)
  | n + 1, cs =>
    match cs with
    | ' ' :: rest =>
      if rest.takeWhile isNameChar = [] then some ([], cs)
      else
        match rest.dropWhile isNameChar with
        | '=' :: '"' :: quoted => do
          let value ← unescape (quoted.takeWhile (· ≠ '"'))
          let (more, after) ← readAttributes n ((quoted.dropWhile (· ≠ '"')).drop 1)
          some ((String.ofList (rest.takeWhile isNameChar), String.ofList value) :: more, after)
        | _ => none
    | _ => some ([], cs)

/-- What stands between `<` and `>`. -/
def readMarkup (cs : List Char) : Option (List Event) :=
  match cs with
  | '/' :: tag => if tag.all isNameChar then some [.stop (String.ofList tag)] else none
  | cs =>
    let tag := String.ofList (cs.takeWhile isNameChar)
    match readAttributes cs.length (cs.dropWhile isNameChar) with
    | some (attributes, []) => some [.start tag attributes]
    | some (attributes, [' ', '/']) => some [.start tag attributes, .stop tag]
    | _ => none

def readText (cs : List Char) : Option (List Event) :=
  if cs = [] then some [] else (unescape (lineFeeds cs)).map fun t => [.text (String.ofList t)]

structure Reader where
  inMarkup : Bool
  pending : List Char
  events : List Event

namespace Reader

def step (r : Reader) (c : Char) : Option Reader :=
  if r.inMarkup then
    if c = '>' then (readMarkup r.pending).map fun found => ⟨false, [], r.events ++ found⟩
    else some ⟨true, r.pending ++ [c], r.events⟩
  else if c = '<' then (readText r.pending).map fun found => ⟨true, [], r.events ++ found⟩
  else some ⟨false, r.pending ++ [c], r.events⟩

def finish (r : Reader) : Option (List Event) :=
  if r.inMarkup = false ∧ r.pending = [] then some r.events else none

end Reader

/-- The declaration and the line end after it are no part of the tree. -/
def withoutDeclaration : List Char → List Char
  | '<' :: '?' :: cs => ((cs.dropWhile (· ≠ '>')).drop 1).dropWhile (· = '\n')
  | cs => cs

def read (text : String) : Option (List Event) :=
  if text.toList.all isXmlChar then
    ((withoutDeclaration text.toList).foldlM Reader.step ⟨false, [], []⟩).bind Reader.finish
  else none

/-! ## Texts -/

theorem unescape_plain {c : Char} (h : c ≠ '&') (cs : List Char) : unescape (c :: cs) = (unescape cs).map (c :: ·) := by
  rw [unescape]
  all_goals simp_all

theorem unescape_escape {special : List Char} (h : '&' ∈ special) (c : Char) (cs : List Char) :
    unescape (escape special c ++ cs) = (unescape cs).map (c :: ·) := by
  unfold escape
  split
  · unfold reference
    split
    all_goals first
      | rfl
      | exact unescape_plain (by assumption) cs
  · rename_i hc
    refine unescape_plain ?_ cs
    rintro rfl
    exact hc h

theorem unescape_flatMap {special : List Char} (h : '&' ∈ special) (cs : List Char) :
    unescape (cs.flatMap (escape special)) = some cs := by
  induction cs with
  | nil => rfl
  | cons c cs ih => rw [List.flatMap_cons, unescape_escape h, ih, Option.map_some]

theorem not_mem_reference {c d : Char} {e : List Char} (h : reference c = some e) (hd : d ∈ ['<', '>', '"', '\r']) :
    d ∉ e := by
  simp only [List.mem_cons, List.not_mem_nil, or_false] at hd
  unfold reference at h
  split at h
  all_goals first
    | (cases h; rcases hd with rfl | rfl | rfl | rfl <;> decide)
    | cases h

/-- What is special does not stand in what is escaped. -/
theorem not_mem_escape {special : List Char} {c d : Char} (hd : d ∈ ['<', '>', '"', '\r'])
    (h : d ∈ special ∨ c ≠ d) : d ∉ escape special c := by
  have hsome : (reference d).isSome := by
    simp only [List.mem_cons, List.not_mem_nil, or_false] at hd
    rcases hd with rfl | rfl | rfl | rfl <;> rfl
  unfold escape
  split
  · cases he : reference c with
    | some e => exact not_mem_reference he hd
    | none =>
      rw [Option.getD_none, List.mem_singleton]
      rintro rfl
      rw [he] at hsome
      cases hsome
  · rename_i hc
    rw [List.mem_singleton]
    rintro rfl
    rcases h with h | h
    · exact hc h
    · exact h rfl

theorem not_mem_flatMap_escape {special : List Char} {d : Char} (hd : d ∈ ['<', '>', '"', '\r']) (h : d ∈ special)
    (cs : List Char) : d ∉ cs.flatMap (escape special) := by
  intro hmem
  obtain ⟨c, -, hc⟩ := List.mem_flatMap.mp hmem
  exact not_mem_escape hd (.inl h) hc

theorem lineFeeds_cons {c : Char} (h : c ≠ '\r') (cs : List Char) : lineFeeds (c :: cs) = c :: lineFeeds cs := by
  rw [lineFeeds]
  all_goals simp_all

theorem lineFeeds_return {cs : List Char} (h : cs.head? ≠ some '\n') : lineFeeds ('\r' :: cs) = '\n' :: lineFeeds cs := by
  rw [lineFeeds]
  rintro more rfl
  exact h rfl

theorem lineFeeds_append {a : List Char} (h : '\r' ∉ a) (cs : List Char) : lineFeeds (a ++ cs) = a ++ lineFeeds cs := by
  induction a with
  | nil => rfl
  | cons c a ih =>
    have hc : c ≠ '\r' := fun heq => h (by rw [heq]; exact List.mem_cons_self)
    rw [List.cons_append, lineFeeds_cons hc, ih fun hmem => h (List.mem_cons_of_mem _ hmem), List.cons_append]

/-- The line ends of a text are the same before and after it is escaped. -/
theorem lineFeeds_escaped (cs : List Char) :
    lineFeeds (cs.flatMap (escape ['&', '<', '>'])) = (lineFeeds cs).flatMap (escape ['&', '<', '>']) := by
  fun_induction lineFeeds cs with
  | case1 => rfl
  | case2 cs ih =>
    rw [List.flatMap_cons, List.flatMap_cons, List.flatMap_cons, ← ih]
    rfl
  | case3 cs hnot ih =>
    rw [List.flatMap_cons, List.flatMap_cons, ← ih]
    refine lineFeeds_return ?_
    cases cs with
    | nil => exact nofun
    | cons c cs =>
      have hc : c ≠ '\n' := fun heq => hnot cs (by rw [heq])
      rw [List.flatMap_cons]
      unfold escape
      split
      · unfold reference
        split <;> simp_all
      · simpa using hc
  | case4 c cs hnot hreturn ih =>
    rw [List.flatMap_cons, List.flatMap_cons, ← ih]
    exact lineFeeds_append (not_mem_escape (by decide) (.inr hreturn)) _

theorem not_mem_lineFeeds (cs : List Char) : '\r' ∉ lineFeeds cs := by
  fun_induction lineFeeds cs with
  | case1 => exact List.not_mem_nil
  | case2 cs ih => simpa using ih
  | case3 cs hnot ih => simpa using ih
  | case4 c cs hnot hreturn ih => simpa [ih] using Ne.symm hreturn

theorem lineFeeds_eq_self {cs : List Char} : lineFeeds cs = cs ↔ '\r' ∉ cs := by
  constructor
  · intro h
    have hnone := not_mem_lineFeeds cs
    rwa [h] at hnone
  · intro h
    rw [← List.append_nil cs, lineFeeds_append h]
    rfl

/-- An event as a parser reports it. -/
def Event.asRead : Event → Event
  | .text s => .text (String.ofList (lineFeeds s.toList))
  | e => e

theorem readText_nil : readText [] = some [] := rfl

theorem readText_escapeText (s : String) :
    readText (escapeText s) = some ((if s = "" then [] else [.text s] : List Event).map Event.asRead) := by
  unfold readText escapeText
  rw [lineFeeds_escaped, unescape_flatMap (by decide)]
  by_cases hs : s = ""
  · subst hs
    rfl
  · rw [if_neg, if_neg hs]
    · rfl
    · intro hnil
      refine hs (String.toList_eq_nil_iff.mp ?_)
      have hread := unescape_flatMap (show '&' ∈ ['&', '<', '>'] by decide) s.toList
      rw [hnil] at hread
      exact (Option.some.inj hread).symm

/-! ## Markup -/

theorem takeWhile_name (name : Name) (rest : List Char) (h : rest.head?.any isNameChar = false) :
    (name.chars ++ rest).takeWhile isNameChar = name.chars ∧ (name.chars ++ rest).dropWhile isNameChar = rest := by
  have hall : ∀ c ∈ name.chars, isNameChar c = true := List.all_eq_true.mp name.wellFormed.2
  rw [List.takeWhile_append_of_pos hall, List.dropWhile_append_of_pos hall]
  cases rest with
  | nil => exact ⟨List.append_nil _, rfl⟩
  | cons c rest =>
    have hc : ¬isNameChar c = true := by simpa using h
    rw [List.takeWhile_cons_of_neg hc, List.dropWhile_cons_of_neg hc]
    exact ⟨List.append_nil _, rfl⟩

theorem takeWhile_value (s : String) (rest : List Char) :
    (escapeAttribute s ++ '"' :: rest).takeWhile (· ≠ '"') = escapeAttribute s ∧
      (escapeAttribute s ++ '"' :: rest).dropWhile (· ≠ '"') = '"' :: rest := by
  have hall : ∀ c ∈ escapeAttribute s, decide (c ≠ '"') = true := by
    intro c hc
    refine decide_eq_true ?_
    rintro rfl
    exact not_mem_flatMap_escape (by decide) (by decide) _ hc
  rw [List.takeWhile_append_of_pos hall, List.dropWhile_append_of_pos hall]
  exact ⟨List.append_nil _, rfl⟩

theorem readAttributes_written (attributes : List (Name × String)) {n : Nat} (hn : attributes.length ≤ n)
    {rest : List Char} (hrest : rest = [] ∨ rest = [' ', '/']) :
    readAttributes n (attributes.flatMap writeAttribute ++ rest) =
      some (attributes.map fun a => (a.1.text, a.2), rest) := by
  induction attributes generalizing n with
  | nil =>
    rcases hrest with rfl | rfl
    · cases n <;> rfl
    · cases n <;> rfl
  | cons a attributes ih =>
    obtain ⟨n, rfl⟩ := Nat.exists_eq_add_one_of_ne_zero (show n ≠ 0 by simp at hn; omega)
    have hmore := ih (n := n) (by simpa using hn)
    generalize hm : attributes.flatMap writeAttribute ++ rest = more at hmore
    have htext : (a :: attributes).flatMap writeAttribute ++ rest =
        ' ' :: (a.1.chars ++ '=' :: '"' :: (escapeAttribute a.2 ++ '"' :: more)) := by
      simp [writeAttribute, ← hm]
    obtain ⟨hname, hafter⟩ := takeWhile_name a.1 ('=' :: '"' :: (escapeAttribute a.2 ++ '"' :: more)) rfl
    obtain ⟨hvalue, hend⟩ := takeWhile_value a.2 more
    have hunescape : unescape (escapeAttribute a.2) = some a.2.toList := unescape_flatMap (by decide) _
    rw [htext, readAttributes, hname, if_neg a.1.wellFormed.1, hafter]
    simp only [hvalue, hend, hunescape, List.drop_one, List.tail_cons, hmore, Option.bind_eq_bind, Option.bind_some,
      String.ofList_toList, List.map_cons, Name.text]

theorem length_le_flatMap (attributes : List (Name × String)) :
    attributes.length ≤ (attributes.flatMap writeAttribute).length := by
  induction attributes with
  | nil => rfl
  | cons a attributes ih =>
    rw [List.flatMap_cons, List.length_append, List.length_cons]
    have hone : 1 ≤ (writeAttribute a).length := Nat.succ_pos _
    omega

theorem readMarkup_stop (tag : Name) : readMarkup ('/' :: tag.chars) = some [.stop tag.text] :=
  if_pos tag.wellFormed.2

theorem readMarkup_start (tag : Name) (attributes : List (Name × String)) {rest : List Char}
    (hrest : rest = [] ∨ rest = [' ', '/']) :
    readMarkup (tag.chars ++ attributes.flatMap writeAttribute ++ rest) =
      some (.start tag.text (attributes.map fun a => (a.1.text, a.2)) ::
        if rest = [] then [] else [.stop tag.text]) := by
  have hhead : (attributes.flatMap writeAttribute ++ rest).head?.any isNameChar = false := by
    cases attributes with
    | nil => rcases hrest with rfl | rfl <;> rfl
    | cons a attributes => rfl
  obtain ⟨htag, hafter⟩ := takeWhile_name tag _ hhead
  have hlen : attributes.length ≤ (tag.chars ++ (attributes.flatMap writeAttribute ++ rest)).length := by
    have hle := length_le_flatMap attributes
    simp only [List.length_append]
    omega
  have hread := readAttributes_written attributes hlen hrest
  rw [List.append_assoc, readMarkup]
  · rw [htag, hafter, hread]
    rcases hrest with rfl | rfl <;> rfl
  · intro cs hcs
    obtain ⟨c, chars, hchars⟩ := List.exists_cons_of_ne_nil tag.wellFormed.1
    have hc : isNameChar c = true := List.all_eq_true.mp tag.wellFormed.2 c (hchars ▸ List.mem_cons_self)
    rw [hchars, List.cons_append, List.cons.injEq] at hcs
    rw [hcs.1] at hc
    exact absurd hc (by decide)

/-! ## What was written is read -/

/-- Up to the character that ends a text, or a markup, the reader gathers. -/
theorem run_pending {inMarkup : Bool} {cs pending : List Char} {found : List Event}
    (h : (if inMarkup then '>' else '<') ∉ cs) :
    cs.foldlM Reader.step ⟨inMarkup, pending, found⟩ = some ⟨inMarkup, pending ++ cs, found⟩ := by
  induction cs generalizing pending with
  | nil => simp
  | cons c cs ih =>
    rw [List.mem_cons, not_or] at h
    have hstep : Reader.step ⟨inMarkup, pending, found⟩ c = some ⟨inMarkup, pending ++ [c], found⟩ := by
      have hc := Ne.symm h.1
      cases inMarkup with
      | false => simpa [Reader.step] using hc
      | true => simpa [Reader.step] using hc
    rw [foldlM_cons_some hstep, ih h.2, List.append_assoc, List.singleton_append]

/-- A tag ends the text before it. -/
theorem run_tag {pending inside : List Char} {found before tags : List Event} (hinside : '>' ∉ inside)
    (hbefore : readText pending = some before) (htags : readMarkup inside = some tags) :
    ('<' :: inside ++ ['>']).foldlM Reader.step ⟨false, pending, found⟩ =
      some ⟨false, [], found ++ before ++ tags⟩ := by
  have hopen : Reader.step ⟨false, pending, found⟩ '<' = some ⟨true, [], found ++ before⟩ := by
    simp [Reader.step, hbefore]
  have hclose : Reader.step ⟨true, inside, found ++ before⟩ '>' = some ⟨false, [], found ++ before ++ tags⟩ := by
    simp [Reader.step, htags]
  rw [List.cons_append, foldlM_cons_some hopen, foldlM_append_some (run_pending hinside), List.nil_append,
    foldlM_cons_some hclose]
  rfl

theorem not_mem_name {c : Char} (h : isNameChar c = false) (name : Name) : c ∉ name.chars := fun hmem => by
  rw [List.all_eq_true.mp name.wellFormed.2 c hmem] at h
  cases h

theorem not_mem_attributes (attributes : List (Name × String)) : '>' ∉ attributes.flatMap writeAttribute := by
  intro hmem
  obtain ⟨a, -, ha⟩ := List.mem_flatMap.mp hmem
  have hvalue : '>' ∉ escapeAttribute a.2 := not_mem_flatMap_escape (by decide) (by decide) _
  simp [writeAttribute, not_mem_name (c := '>') rfl a.1, hvalue] at ha

mutual

theorem run_write (e : Element) {pending : List Char} {found before : List Event}
    (hbefore : readText pending = some before) : (write e).foldlM Reader.step ⟨false, pending, found⟩ =
      some ⟨false, [], found ++ before ++ (events e).map Event.asRead⟩ := by
  obtain ⟨tag, attributes, text, children⟩ := e
  have hinside {rest : List Char} (hrest : rest = [] ∨ rest = [' ', '/']) :
      '>' ∉ tag.chars ++ attributes.flatMap writeAttribute ++ rest := by
    rcases hrest with rfl | rfl <;> simp [not_mem_name (c := '>') rfl tag, not_mem_attributes attributes]
  rw [write]
  split
  · rename_i hshort
    have hchildren : children = [] := List.isEmpty_iff.mp hshort.2
    have hwritten : '<' :: tag.chars ++ attributes.flatMap writeAttribute ++ [' ', '/', '>'] =
        '<' :: (tag.chars ++ attributes.flatMap writeAttribute ++ [' ', '/']) ++ ['>'] := by
      simp
    rw [hwritten, run_tag (hinside (.inr rfl)) hbefore (readMarkup_start tag attributes (.inr rfl)), hchildren,
      hshort.1]
    rfl
  · have hwritten : '<' :: tag.chars ++ attributes.flatMap writeAttribute ++
          ('>' :: escapeText text ++ writeAll children ++ '<' :: '/' :: tag.chars ++ ['>']) =
        ('<' :: (tag.chars ++ attributes.flatMap writeAttribute ++ []) ++ ['>']) ++
          (escapeText text ++ (writeAll children ++ '<' :: '/' :: tag.chars ++ ['>'])) := by
      simp
    have htext : '<' ∉ escapeText text := not_mem_flatMap_escape (by decide) (by decide) _
    have htags := readMarkup_start tag attributes (.inl rfl)
    rw [hwritten, foldlM_append_some (run_tag (hinside (.inl rfl)) hbefore htags),
      foldlM_append_some (run_pending htext), List.nil_append,
      run_writeAll children tag (readText_escapeText text), events]
    simp [Event.asRead]

theorem run_writeAll (es : List Element) (tag : Name) {pending : List Char} {found before : List Event}
    (hbefore : readText pending = some before) :
    (writeAll es ++ '<' :: '/' :: tag.chars ++ ['>']).foldlM Reader.step ⟨false, pending, found⟩ =
      some ⟨false, [], found ++ before ++ (eventsAll es).map Event.asRead ++ [.stop tag.text]⟩ := by
  cases es with
  | nil =>
    have hinside : '>' ∉ '/' :: tag.chars := by simp [not_mem_name (c := '>') rfl tag]
    rw [writeAll, List.nil_append, run_tag hinside hbefore (readMarkup_stop tag), eventsAll, List.map_nil,
      List.append_nil]
  | cons e es =>
    rw [writeAll, List.append_assoc, List.append_assoc, foldlM_append_some (run_write e hbefore), ← List.append_assoc,
      run_writeAll es tag readText_nil, eventsAll]
    simp

end

/-! ## Which documents are read -/

/-- An event of no other characters than those of XML. -/
def Event.legal : Event → Bool
  | .start _ attributes => attributes.all fun a => a.2.toList.all isXmlChar
  | .text s => s.toList.all isXmlChar
  | .stop _ => true

theorem isXmlChar_of_name {c : Char} (h : isNameChar c = true) : isXmlChar c = true := by
  have hbounds {a b : UInt32} (ha : a ≤ c.val) (hb : c.val ≤ b) (hlow : ' '.toNat ≤ a.toNat := by decide)
      (hhigh : b.toNat ≤ 0xd7ff := by decide) : ' '.toNat ≤ c.toNat ∧ c.toNat ≤ 0xd7ff :=
    ⟨hlow.trans (UInt32.le_iff_toNat_le.mp ha), (UInt32.le_iff_toNat_le.mp hb).trans hhigh⟩
  have halnum : c.isAlphanum = (decide (c.val ≥ 'A'.val ∧ c.val ≤ 'Z'.val) ||
      (c.val ≥ 'a'.val && c.val ≤ 'z'.val) || c.isDigit) := rfl
  have hrange : ' '.toNat ≤ c.toNat ∧ c.toNat ≤ 0xd7ff := by
    simp only [isNameChar, halnum, Char.isDigit, Bool.or_eq_true, Bool.and_eq_true, decide_eq_true_eq] at h
    rcases h with ((((((h | h) | h) | rfl) | rfl) | rfl) | rfl)
    · exact hbounds h.1 h.2
    · exact hbounds h.1 h.2
    · exact hbounds h.1 h.2
    all_goals decide
  simp only [isXmlChar, hrange.1, hrange.2, decide_true, Bool.and_self, Bool.or_true, Bool.true_or]

theorem all_name (name : Name) : name.chars.all isXmlChar = true :=
  List.all_eq_true.mpr fun c hc => isXmlChar_of_name (List.all_eq_true.mp name.wellFormed.2 c hc)

theorem all_escape (special : List Char) (c : Char) : (escape special c).all isXmlChar = isXmlChar c := by
  unfold escape reference
  split
  · split
    all_goals first
      | rfl
      | exact Bool.and_true _
  · exact Bool.and_true _

theorem all_escaped (special cs : List Char) : (cs.flatMap (escape special)).all isXmlChar = cs.all isXmlChar := by
  induction cs with
  | nil => rfl
  | cons c cs ih => rw [List.flatMap_cons, List.all_append, all_escape, ih, List.all_cons]

theorem all_writeAttribute (attributes : List (Name × String)) :
    (attributes.flatMap writeAttribute).all isXmlChar = attributes.all fun a => a.2.toList.all isXmlChar := by
  induction attributes with
  | nil => rfl
  | cons a attributes ih =>
    have hone : (writeAttribute a).all isXmlChar = a.2.toList.all isXmlChar := by
      rw [← all_escaped ['&', '<', '>', '"', '\r', '\n', '\t'] a.2.toList, ← escapeAttribute]
      have hspace : isXmlChar ' ' = true := rfl
      have hequals : isXmlChar '=' = true := rfl
      have hquote : isXmlChar '"' = true := rfl
      simp [writeAttribute, all_name, hspace, hequals, hquote]
    rw [List.flatMap_cons, List.all_append, hone, ih, List.all_cons]

mutual

theorem all_write (e : Element) : (write e).all isXmlChar = (events e).all Event.legal := by
  obtain ⟨tag, attributes, text, children⟩ := e
  have hless : isXmlChar '<' = true := rfl
  have hgreater : isXmlChar '>' = true := rfl
  have hslash : isXmlChar '/' = true := rfl
  have hspace : isXmlChar ' ' = true := rfl
  have htext : (escapeText text).all isXmlChar = text.toList.all isXmlChar := all_escaped _ _
  have hattributes : (attributes.map fun a => (a.1.text, a.2)).all (fun a => a.2.toList.all isXmlChar) =
      attributes.all fun a => a.2.toList.all isXmlChar := List.all_map
  rw [write, events]
  split
  · rename_i hshort
    have hchildren : children = [] := List.isEmpty_iff.mp hshort.2
    simp only [hshort.1, hchildren, eventsAll, List.cons_append, List.append_assoc, List.all_cons, List.all_append,
      List.all_nil, if_true, List.nil_append, all_writeAttribute, all_name, Event.legal, hattributes, hless, hgreater,
      hslash, hspace, Bool.true_and, Bool.and_true]
  · have hone : (if text = "" then [] else [.text text] : List Event).all Event.legal = text.toList.all isXmlChar := by
      split
      · rename_i hempty
        subst hempty
        rfl
      · exact Bool.and_true _
    simp only [List.cons_append, List.all_cons, List.all_append, List.all_nil, hone, all_writeAttribute, all_name,
      htext, all_writeAll children, Event.legal, hattributes, hless, hgreater, hslash, Bool.true_and, Bool.and_true]

theorem all_writeAll (es : List Element) : (writeAll es).all isXmlChar = (eventsAll es).all Event.legal := by
  cases es with
  | nil => rfl
  | cons e es => rw [writeAll, eventsAll, List.all_append, List.all_append, all_write e, all_writeAll es]

end

/-- What a parser reports of a document: all of it, with line feeds at the line
ends, or nothing. -/
theorem read_document (e : Element) : read (document e) =
    if (events e).all Event.legal then some ((events e).map Event.asRead) else none := by
  have hdeclaration : declaration.all isXmlChar = true := by decide
  have hwithout : withoutDeclaration (declaration ++ write e) = write e := by
    obtain ⟨tag, attributes, text, children⟩ := e
    rfl
  have hrun : (write e).foldlM Reader.step ⟨false, [], []⟩ = some ⟨false, [], (events e).map Event.asRead⟩ :=
    run_write e readText_nil
  rw [read, document, String.toList_ofList, List.all_append, hdeclaration, Bool.true_and, all_write, hwithout, hrun]
  rfl

/-- A text that a parser reports as it is. -/
def isReadable (s : String) : Bool := s.toList.all isXmlChar && '\r' ∉ s.toList

def Event.readable : Event → Bool
  | .text s => isReadable s
  | e => e.legal

theorem readable_iff (ev : Event) : ev.readable = true ↔ ev.legal = true ∧ ev.asRead = ev := by
  cases ev with
  | start tag attributes => exact (and_iff_left rfl).symm
  | stop tag => exact (and_iff_left rfl).symm
  | text s =>
    have hsame : Event.asRead (.text s) = .text s ↔ '\r' ∉ s.toList := by
      rw [Event.asRead, Event.text.injEq, ← lineFeeds_eq_self]
      constructor
      · intro h
        rw [← String.toList_ofList (l := lineFeeds s.toList), h]
      · intro h
        rw [h, String.ofList_toList]
    rw [hsame, Event.readable, isReadable, Bool.and_eq_true, decide_eq_true_eq, Event.legal]

theorem readable_asRead {ev : Event} (h : ev.legal = true) : ev.asRead.readable = true := by
  cases ev with
  | start tag attributes => exact h
  | stop tag => rfl
  | text s =>
    have hlegal : ∀ cs : List Char, cs.all isXmlChar = true → (lineFeeds cs).all isXmlChar = true := by
      intro cs hcs
      have hfeed : isXmlChar '\n' = true := rfl
      fun_induction lineFeeds cs with
      | case1 => rfl
      | case2 cs ih => simp_all
      | case3 cs hnot ih => simp_all
      | case4 c cs hnot hreturn ih => simp_all
    rw [Event.asRead, Event.readable, isReadable, String.toList_ofList, hlegal _ h, Bool.true_and, decide_eq_true_eq]
    exact not_mem_lineFeeds _

/-- Whatever a parser reports of a document is readable. -/
theorem read_readable {e : Element} {found : List Event} (h : read (document e) = some found) :
    found.all Event.readable = true := by
  rw [read_document] at h
  split at h
  · rename_i hlegal
    rw [← Option.some.inj h, List.all_eq_true]
    intro ev hev
    obtain ⟨ev', hmem, rfl⟩ := List.mem_map.mp hev
    exact readable_asRead (List.all_eq_true.mp hlegal ev' hmem)
  · cases h

/-- A document is read as the tree that was written exactly if the tree is
readable. -/
theorem read_document_iff (e : Element) :
    read (document e) = some (events e) ↔ (events e).all Event.readable = true := by
  constructor
  · exact read_readable
  · intro h
    have heach : ∀ ev ∈ events e, ev.legal = true ∧ ev.asRead = ev := fun ev hev =>
      (readable_iff ev).mp (List.all_eq_true.mp h ev hev)
    rw [read_document, if_pos (List.all_eq_true.mpr fun ev hev => (heach ev hev).1)]
    exact congrArg some ((List.map_congr_left fun ev hev => (heach ev hev).2).trans (List.map_id _))

theorem all_eventsAll (p : Event → Bool) (es : List Element) :
    (eventsAll es).all p = es.all fun e => (events e).all p := by
  induction es with
  | nil => rfl
  | cons e es ih => rw [eventsAll, List.all_append, ih, List.all_cons]

end TwinVoice.Lib.Xml
