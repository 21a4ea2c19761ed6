import TwinVoice.Lib.Dict
import TwinVoice.Lib.Traversal

/-! # Comma-separated values

What Python's `csv` writes in its default dialect, and what it reads. A field
stands in quotes only if it has to, and a quote within is doubled. The reader
takes one character after the other, and a record ends where a line does
outside of quotes. What was written is read back: the rows, and the
dictionaries under the names of the first row. -/

namespace TwinVoice.Lib.Csv

def isNewline (c : Char) : Bool := c = '\r' || c = '\n'

/-- The characters that a field in no quotes can not hold. -/
def isSpecial (c : Char) : Bool := c = ',' || c = '"' || isNewline c

def doubled (cs : List Char) : List Char := cs.flatMap fun c => if c = '"' then ['"', '"'] else [c]

def field (cs : List Char) : List Char :=
  if cs.any isSpecial then '"' :: doubled cs ++ ['"'] else cs

/-- The fields of a record from the second on. -/
def further (fields : List String) : List Char := fields.flatMap fun s => ',' :: field s.toList

/-- `writerow`. A single empty field is written in quotes, so that the line is
not empty. -/
def line : List String → List Char
  | [] => ['\r', '\n']
  | [""] => ['"', '"', '\r', '\n']
  | s :: fields => field s.toList ++ further fields ++ ['\r', '\n']

def write (rows : List (List String)) : String := String.ofList (rows.flatMap line)

/-! ## The reader -/

inductive State
  | startRecord | startField | inField | inQuoted | quoteInQuoted | eatNewline
  deriving DecidableEq

structure Reader where
  state : State
  field : List Char
  fields : List String
  rows : List (List String)

namespace Reader

def start (rows : List (List String)) : Reader := ⟨.startRecord, [], [], rows⟩

def add (r : Reader) (c : Char) (state : State) : Reader := ⟨state, r.field ++ [c], r.fields, r.rows⟩

def save (r : Reader) (state : State) : Reader :=
  ⟨state, [], r.fields ++ [String.ofList r.field], r.rows⟩

def enter (r : Reader) (state : State) : Reader := { r with state }

/-- What a character is at the start of a field. -/
def opening (r : Reader) (c : Char) : Reader :=
  if isNewline c then r.save .eatNewline
  else if c = '"' then r.enter .inQuoted
  else if c = ',' then r.save .startField
  else r.add c .inField

def feed (r : Reader) (c : Char) : Option Reader :=
  match r.state with
  | .startRecord => some (if isNewline c then r.enter .eatNewline else r.opening c)
  | .startField => some (r.opening c)
  | .inField =>
    some (if isNewline c then r.save .eatNewline else if c = ',' then r.save .startField else r.add c .inField)
  | .inQuoted => some (if c = '"' then r.enter .quoteInQuoted else r.add c .inQuoted)
  | .quoteInQuoted =>
    some (if c = '"' then r.add c .inQuoted
      else if c = ',' then r.save .startField
      else if isNewline c then r.save .eatNewline
      else r.add c .inField)
  -- a record goes on after its line has ended
  | .eatNewline => if isNewline c then some r else none

def emit (r : Reader) : Reader := start (r.rows ++ [r.fields])

def endLine (r : Reader) : Reader :=
  match r.state with
  | .inQuoted => r
  | .startRecord | .eatNewline => r.emit
  | .startField | .inField | .quoteInQuoted => (r.save .startRecord).emit

def step (r : Reader) (c : Char) : Option Reader :=
  (r.feed c).map fun next => if c = '\n' then next.endLine else next

/-- The rows at the end of the text. A record that has not ended is one. -/
def finish (r : Reader) : List (List String) :=
  match r.state with
  | .startRecord => r.rows
  | .eatNewline => r.emit.rows
  | .startField | .inField | .inQuoted | .quoteInQuoted => (r.save .startRecord).emit.rows

end Reader

def read (text : String) : Option (List (List String)) :=
  (text.toList.foldlM Reader.step (.start [])).map Reader.finish

/-! ## What was written is read -/

section Steps
variable {c : Char} {cs : List Char} {fs : List String} {rows : List (List String)}

theorem isNewline_of_not_special (h : isSpecial c = false) : isNewline c = false ∧ c ≠ ',' ∧ c ≠ '"' ∧ c ≠ '\n' := by
  simp only [isSpecial, isNewline, Bool.or_eq_false_iff, decide_eq_false_iff_not] at h ⊢
  exact ⟨h.2, h.1.1, h.1.2, h.2.2⟩

theorem step_inField (h : isSpecial c = false) :
    Reader.step ⟨.inField, cs, fs, rows⟩ c = some ⟨.inField, cs ++ [c], fs, rows⟩ := by
  obtain ⟨hline, hcomma, -, hfeed⟩ := isNewline_of_not_special h
  simp [Reader.step, Reader.feed, Reader.add, hline, hcomma, hfeed]

theorem step_startField (h : isSpecial c = false) :
    Reader.step ⟨.startField, [], fs, rows⟩ c = some ⟨.inField, [c], fs, rows⟩ := by
  obtain ⟨hline, hcomma, hquote, hfeed⟩ := isNewline_of_not_special h
  simp [Reader.step, Reader.feed, Reader.opening, Reader.add, hline, hcomma, hquote, hfeed]

theorem run_inField {more : List Char} (h : more.any isSpecial = false) :
    more.foldlM Reader.step ⟨.inField, cs, fs, rows⟩ = some ⟨.inField, cs ++ more, fs, rows⟩ := by
  induction more generalizing cs with
  | nil => simp
  | cons c more ih =>
    rw [List.any_cons, Bool.or_eq_false_iff] at h
    rw [foldlM_cons_some (step_inField h.1), ih h.2, List.append_assoc]
    rfl

/-- Within quotes the reader undoes the doubling. -/
theorem run_doubled (more : List Char) :
    (doubled more).foldlM Reader.step ⟨.inQuoted, cs, fs, rows⟩ = some ⟨.inQuoted, cs ++ more, fs, rows⟩ := by
  induction more generalizing cs with
  | nil => simp [doubled]
  | cons c more ih =>
    have hhead : (if c = '"' then ['"', '"'] else [c]).foldlM Reader.step ⟨.inQuoted, cs, fs, rows⟩ =
        some ⟨.inQuoted, cs ++ [c], fs, rows⟩ := by
      by_cases hc : c = '"'
      · subst hc
        rfl
      · by_cases hline : c = '\n'
        · subst hline
          rfl
        · simp [Reader.step, Reader.feed, Reader.add, hc, hline]
    rw [doubled, List.flatMap_cons, ← doubled, foldlM_append_some hhead, ih, List.append_assoc]
    rfl

/-- A reader that has read a field and waits for what ends it. -/
def Holds (cs : List Char) (fs : List String) (rows : List (List String)) (r : Reader) : Prop :=
  r.field = cs ∧ r.fields = fs ∧ r.rows = rows ∧
    (r.state = .startField ∨ r.state = .inField ∨ r.state = .quoteInQuoted)

theorem run_field (cs : List Char) (fs : List String) (rows : List (List String)) :
    ∃ r, (field cs).foldlM Reader.step ⟨.startField, [], fs, rows⟩ = some r ∧ Holds cs fs rows r := by
  unfold field
  split
  · refine ⟨⟨.quoteInQuoted, cs, fs, rows⟩, ?_, rfl, rfl, rfl, .inr (.inr rfl)⟩
    have hopen : Reader.step ⟨.startField, [], fs, rows⟩ '"' = some ⟨.inQuoted, [], fs, rows⟩ := rfl
    rw [List.cons_append, foldlM_cons_some hopen, foldlM_append_some (run_doubled cs), List.nil_append]
    rfl
  · rename_i hplain
    rw [Bool.not_eq_true] at hplain
    cases cs with
    | nil => exact ⟨_, rfl, rfl, rfl, rfl, .inl rfl⟩
    | cons c cs =>
      rw [List.any_cons, Bool.or_eq_false_iff] at hplain
      refine ⟨⟨.inField, c :: cs, fs, rows⟩, ?_, rfl, rfl, rfl, .inr (.inl rfl)⟩
      rw [foldlM_cons_some (step_startField hplain.1), run_inField hplain.2, List.singleton_append]

theorem step_comma {r : Reader} (h : Holds cs fs rows r) :
    r.step ',' = some ⟨.startField, [], fs ++ [String.ofList cs], rows⟩ := by
  obtain ⟨state, f, fields, done⟩ := r
  obtain ⟨rfl, rfl, rfl, rfl | rfl | rfl⟩ := h <;> rfl

theorem run_newline {r : Reader} (h : Holds cs fs rows r) :
    ['\r', '\n'].foldlM Reader.step r = some (.start (rows ++ [fs ++ [String.ofList cs]])) := by
  obtain ⟨state, f, fields, done⟩ := r
  obtain ⟨rfl, rfl, rfl, rfl | rfl | rfl⟩ := h <;> rfl

theorem run_further {r : Reader} (h : Holds cs fs rows r) (more : List String) :
    (further more ++ ['\r', '\n']).foldlM Reader.step r =
      some (.start (rows ++ [fs ++ String.ofList cs :: more])) := by
  induction more generalizing cs fs r with
  | nil => exact run_newline h
  | cons s more ih =>
    obtain ⟨r', hrun, hholds⟩ := run_field s.toList (fs ++ [String.ofList cs]) rows
    rw [further, List.flatMap_cons, ← further, List.cons_append, List.cons_append, List.append_assoc,
      foldlM_cons_some (step_comma h), foldlM_append_some hrun, ih hholds, String.ofList_toList, List.append_assoc,
      List.singleton_append]

/-- A record starts as its first field does. -/
theorem step_startRecord (h : isNewline c = false) :
    Reader.step ⟨.startRecord, [], fs, rows⟩ c = Reader.step ⟨.startField, [], fs, rows⟩ c := by
  simp only [Reader.step, Reader.feed, h, Bool.false_eq_true, if_false]
  simp [Reader.opening, h, Reader.enter, Reader.save, Reader.add]

end Steps

theorem head_field {cs rest : List Char} (h : cs ≠ [] ∨ rest.head?.any isNewline = false) :
    (field cs ++ rest).head?.any isNewline = false := by
  unfold field
  split
  · rfl
  · rename_i hplain
    rw [Bool.not_eq_true] at hplain
    cases cs with
    | nil => simpa using h
    | cons c cs =>
      rw [List.any_cons, Bool.or_eq_false_iff] at hplain
      exact (isNewline_of_not_special hplain.1).1

theorem run_line (row : List String) (rows : List (List String)) :
    (line row).foldlM Reader.step (.start rows) = some (.start (rows ++ [row])) := by
  unfold line
  split
  · rfl
  · rfl
  · rename_i s fields hsingle
    obtain ⟨r, hrun, hholds⟩ := run_field s.toList [] rows
    have hstart : (field s.toList ++ (further fields ++ ['\r', '\n'])).head?.any isNewline = false := by
      refine head_field ?_
      cases fields with
      | nil =>
        refine .inl fun hs => hsingle ?_ rfl
        rw [← String.ofList_toList (s := s), hs]
      | cons f fields => exact .inr rfl
    have hfrom : (field s.toList ++ (further fields ++ ['\r', '\n'])).foldlM Reader.step (.start rows) =
        (field s.toList ++ (further fields ++ ['\r', '\n'])).foldlM Reader.step ⟨.startField, [], [], rows⟩ := by
      obtain ⟨c, cs, hcs⟩ := List.exists_cons_of_ne_nil
        (show field s.toList ++ (further fields ++ ['\r', '\n']) ≠ [] by simp)
      rw [hcs] at hstart ⊢
      rw [List.foldlM_cons, List.foldlM_cons, ← step_startRecord hstart]
      rfl
    rw [List.append_assoc, hfrom, foldlM_append_some hrun, run_further hholds, String.ofList_toList, List.nil_append]

theorem read_write (rows : List (List String)) : read (write rows) = some rows := by
  have hrun (done : List (List String)) :
      (rows.flatMap line).foldlM Reader.step (.start done) = some (.start (done ++ rows)) := by
    induction rows generalizing done with
    | nil => simp
    | cons row rows ih =>
      rw [List.flatMap_cons, foldlM_append_some (run_line row done), ih, List.append_assoc, List.singleton_append]
  rw [read, write, String.toList_ofList, hrun, Option.map_some, List.nil_append]
  rfl

/-! ## Rows under names -/

/-- `DictWriter.writerow`: no key other than the names, and a name without a key
is an empty field. -/
def namedRow (names : List String) (row : Dict String String) : Option (List String) :=
  if row.all fun e => e.1 ∈ names then some (names.map fun name => (row.get? name).getD "") else none

/-- `writeheader` and `writerows` of a `DictWriter`. -/
def writeNamed (names : List String) (rows : List (Dict String String)) : Option String :=
  (rows.mapM (namedRow names)).map fun fields => write (names :: fields)

/-- `DictReader`: the rows that are not empty, under the names of the first. -/
def readNamed (text : String) : Option (List (Dict String String)) :=
  (read text).map fun
    | [] => []
    | names :: rows => (rows.filter fun row => row ≠ []).map names.zip

theorem namedRow_eq {names : List String} {row : Dict String String} (hnames : row.map Prod.fst = names)
    (hnodup : names.Nodup) : namedRow names row = some (row.map Prod.snd) := by
  subst hnames
  have hkeys : (row.all fun e => e.1 ∈ row.map Prod.fst) = true :=
    List.all_eq_true.mpr fun e he => decide_eq_true (List.mem_map_of_mem he)
  rw [namedRow, if_pos hkeys, List.map_map]
  refine congrArg some (List.map_congr_left fun e he => ?_)
  have hget : row.get? e.1 = some e.2 := by
    refine Dict.get?_eq_some he fun w hw => ?_
    exact congrArg Prod.snd (List.inj_on_of_nodup_map hnodup hw he rfl)
  rw [Function.comp_apply, hget, Option.getD_some]

/-- Dictionaries that all have the names as their keys are read as they were
written. -/
theorem readNamed_writeNamed {names : List String} {rows : List (Dict String String)} (hnodup : names.Nodup)
    (hne : names ≠ []) (hnames : ∀ row ∈ rows, row.map Prod.fst = names) :
    (writeNamed names rows).bind readNamed = some rows := by
  have hwritten : rows.mapM (namedRow names) = some (rows.map fun row => row.map Prod.snd) := by
    induction rows with
    | nil => rfl
    | cons row rows ih =>
      rw [List.mapM_cons, namedRow_eq (hnames row List.mem_cons_self) hnodup,
        ih fun r hr => hnames r (List.mem_cons_of_mem _ hr)]
      rfl
  have hfilled : (rows.map fun row => row.map Prod.snd).filter (fun row => row ≠ []) =
      rows.map fun row => row.map Prod.snd := by
    rw [List.filter_eq_self]
    intro fields hfields
    obtain ⟨row, hrow, rfl⟩ := List.mem_map.mp hfields
    have hlen : (row.map Prod.snd).length = names.length := by
      rw [List.length_map, ← List.length_map (f := Prod.fst), hnames row hrow]
    exact decide_eq_true fun h => hne (List.eq_nil_of_length_eq_zero (by rw [← hlen, h, List.length_nil]))
  rw [writeNamed, hwritten, Option.map_some, Option.bind_some, readNamed, read_write, Option.map_some]
  simp only [hfilled, List.map_map]
  congr 1
  calc rows.map (names.zip ∘ fun row => row.map Prod.snd)
      = rows.map id := List.map_congr_left fun row hrow => by
        rw [Function.comp_apply, ← hnames row hrow, List.zip_map', id]
        exact List.map_id row
    _ = rows := List.map_id rows

end TwinVoice.Lib.Csv
