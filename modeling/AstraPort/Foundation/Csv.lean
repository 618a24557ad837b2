import AstraPort.Foundation.Joining
import Mathlib.Data.List.TakeDrop
import Mathlib.Data.List.TakeWhile

/- A reader of comma-separated values by the grammar of RFC 4180, and what it makes of fields
   that were written without quotes around them: such a field is read back exactly when it is
   plain text. -/
namespace AstraPort.Csv

/-- What readers differ in: which characters may stand outside quotes, and whether a line feed
    ends a record without a carriage return in front of it. -/
structure Dialect where
  isText : Char → Bool
  bareLineFeed : Bool
  plain : ∀ c, isText c = true → c ≠ ',' ∧ c ≠ '"' ∧ c ≠ '\r' ∧ c ≠ '\n'

/-- The grammar by the letter: printable ASCII, and CRLF between records. -/
def rfc4180 : Dialect where
  isText c := decide (' ' ≤ c ∧ c ≤ '~' ∧ c ≠ ',' ∧ c ≠ '"')
  bareLineFeed := false
  plain c text := by
    simp only [decide_eq_true_eq] at text
    refine ⟨text.2.2.1, text.2.2.2, ?_, ?_⟩
    all_goals
      rintro rfl
      exact absurd text.1 (by decide)

/-- Any characters, and a line feed for a line break too. -/
def lenient : Dialect where
  isText c := decide (c ≠ ',' ∧ c ≠ '"' ∧ c ≠ '\r' ∧ c ≠ '\n')
  bareLineFeed := true
  plain c text := by simpa using text

inductive Ending where
  | field
  | record
  | file
  deriving DecidableEq

section Reader
variable (dialect : Dialect)

/-- What ends a field, and what is behind it. -/
def readEnding : List Char → Option (Ending × List Char)
  | [] => some (.file, [])
  | ',' :: rest => some (.field, rest)
  | '\r' :: '\n' :: rest => some (.record, rest)
  | '\n' :: rest => if dialect.bareLineFeed then some (.record, rest) else none
  | _ => none

/-- An escaped field behind its opening quote, up to its closing one. -/
def readEscaped : List Char → Option (List Char × List Char)
  | [] => none
  | '"' :: '"' :: rest => (readEscaped rest).map fun (field, left) => ('"' :: field, left)
  | '"' :: rest => some ([], rest)
  | c :: rest =>
    if dialect.isText c ∨ c = ',' ∨ c = '\r' ∨ c = '\n' then
      (readEscaped rest).map fun (field, left) => (c :: field, left)
    else none

def readField (text : List Char) : Option (List Char × List Char) :=
  match text with
  | '"' :: rest => readEscaped dialect rest
  | text => some (text.span dialect.isText)

def inFront (field : List Char) : List (List (List Char)) → List (List (List Char))
  | [] => [[field]]
  | row :: rows => (field :: row) :: rows

/-- What a field and the text behind it come to. A line break at the end of the file begins no
    record. -/
def readOn (next : List Char → Option (List (List (List Char)))) (field behind : List Char) :
    Option (List (List (List Char))) :=
  match readEnding dialect behind with
  | none => none
  | some (.file, _) => some [[field]]
  | some (.record, rest) =>
    if rest = [] then some [[field]] else (next rest).map ([field] :: ·)
  | some (.field, rest) => (next rest).map (inFront field)

def readRecords : Nat → List Char → Option (List (List (List Char)))
  | 0, _ => none
  | fuel + 1, text =>
    (readField dialect text).bind fun (field, behind) => readOn dialect (readRecords fuel) field behind

/-- The records of a file, as lists of fields. -/
def parse (text : List Char) : Option (List (List (List Char))) :=
  readRecords dialect (text.length + 1) text

end Reader

/-- How many quotes a text begins with. -/
def quotes (text : List Char) : Nat := (text.takeWhile (· = '"')).length

/-- Every quote written twice. -/
def doubled (text : List Char) : List Char :=
  text.flatMap fun c => if c = '"' then ['"', '"'] else [c]

/-- A value and what is written for it without quotes around it: itself where it has no quote,
    and else with at most two quotes for each that it begins with. -/
structure Cell where
  value : List Char
  written : List Char
  same : '"' ∉ value → written = value
  bound : quotes written ≤ 2 * quotes value

theorem quotes_cons (c : Char) (text : List Char) :
    quotes (c :: text) = if c = '"' then quotes text + 1 else 0 := by
  unfold quotes
  rw [List.takeWhile_cons]
  split
  · simp_all
  · simp_all

theorem quotes_doubled (text : List Char) : quotes (doubled text) = 2 * quotes text := by
  induction text with
  | nil => rfl
  | cons c text ih =>
    unfold doubled at ih ⊢
    rw [List.flatMap_cons, quotes_cons]
    by_cases quote : c = '"'
    · simp only [quote, ↓reduceIte, List.cons_append, List.nil_append, quotes_cons, ih]
      omega
    · simp only [quote, ↓reduceIte, List.cons_append, List.nil_append, quotes_cons]

theorem doubled_unquoted {text : List Char} (unquoted : '"' ∉ text) : doubled text = text := by
  induction text with
  | nil => rfl
  | cons c text ih =>
    simp only [List.mem_cons, not_or] at unquoted
    unfold doubled at ih ⊢
    rw [List.flatMap_cons, if_neg (Ne.symm unquoted.1), ih unquoted.2, List.singleton_append]

/- A quote in front of what does not begin with one is counted alone. -/
theorem quotes_append {text tail : List Char} (unquoted : tail.head? ≠ some '"') :
    quotes (text ++ tail) = quotes text := by
  induction text with
  | nil =>
    cases tail with
    | nil => rfl
    | cons c tail =>
      rw [List.nil_append, quotes_cons, if_neg (by simpa using unquoted)]
      rfl
  | cons c text ih => rw [List.cons_append, quotes_cons, quotes_cons, ih]

def Cell.raw (text : List Char) : Cell := ⟨text, text, fun _ => rfl, by omega⟩

def Cell.doubled (text : List Char) : Cell :=
  ⟨text, Csv.doubled text, doubled_unquoted, Nat.le_of_eq (quotes_doubled text)⟩

section Fields
variable {dialect : Dialect}

def Cell.Plain (dialect : Dialect) (cell : Cell) : Prop :=
  ∀ c ∈ cell.value, dialect.isText c = true

/-- A comma or a line feed follows, or nothing. -/
def Stops (tail : List Char) : Prop := ∀ c ∈ tail.head?, c = ',' ∨ c = '\n'

theorem Stops.unquoted {tail : List Char} (stops : Stops tail) : tail.head? ≠ some '"' := by
  intro quoted
  have := stops '"' quoted
  simp at this

theorem Stops.not_text {tail : List Char} (stops : Stops tail) :
    ∀ c ∈ tail.head?, dialect.isText c = false := by
  intro c first
  by_contra text
  have plain := dialect.plain c (by simpa using text)
  have := stops c first
  simp_all

/- The quotes at the head of an escaped field are all written twice. -/
theorem readEscaped_quotes {text field left : List Char}
    (read : readEscaped dialect text = some (field, left)) : 2 * quotes field ≤ quotes text := by
  fun_induction readEscaped dialect text generalizing field left with
  | case1 => cases read
  | case2 rest ih =>
    simp only [Option.map_eq_some_iff, Prod.mk.injEq] at read
    obtain ⟨⟨inner, _⟩, inside, rfl, _⟩ := read
    have := ih inside
    simp only [quotes_cons, ↓reduceIte]
    omega
  | case3 rest _ =>
    simp only [Option.some.injEq, Prod.mk.injEq] at read
    simp [← read.1, quotes]
  | case4 c rest _ single _ ih =>
    simp only [Option.map_eq_some_iff, Prod.mk.injEq] at read
    obtain ⟨⟨inner, _⟩, _, rfl, _⟩ := read
    have other : c ≠ '"' := by grind
    simp only [quotes_cons, other, ↓reduceIte]
    omega
  | case5 => cases read

/- Written without quotes around it, a field is not read as anything but plain text. -/
theorem readField_plain {cell : Cell} {tail behind : List Char} (stops : Stops tail)
    (read : readField dialect (cell.written ++ tail) = some (cell.value, behind)) :
    cell.Plain dialect := by
  unfold readField at read
  split at read
  · next rest opened =>
    -- the quote in front is one too many for an escaped field
    have first := readEscaped_quotes read
    have counted : quotes (cell.written ++ tail) = quotes cell.written :=
      quotes_append stops.unquoted
    rw [opened, quotes_cons, if_pos rfl] at counted
    have := cell.bound
    omega
  · intro c inside
    rw [List.span_eq_takeWhile_dropWhile] at read
    have taken : List.takeWhile dialect.isText (cell.written ++ tail) = cell.value :=
      congrArg Prod.fst (Option.some.inj read)
    rw [← taken] at inside
    exact List.mem_takeWhile_imp inside

theorem Cell.Plain.written {cell : Cell} (plain : cell.Plain dialect) :
    cell.written = cell.value := by
  apply cell.same
  intro quoted
  exact (dialect.plain _ (plain _ quoted)).2.1 rfl

theorem Cell.Plain.unquoted {cell : Cell} {tail : List Char} (plain : cell.Plain dialect)
    (stops : Stops tail) : (cell.written ++ tail).head? ≠ some '"' := by
  rw [plain.written]
  cases kept : cell.value with
  | nil => exact stops.unquoted
  | cons c text =>
    intro opened
    have text : dialect.isText c = true := plain c (by simp [kept])
    exact (dialect.plain c text).2.1 (by simpa using opened)

theorem readField_written {cell : Cell} {tail : List Char} (plain : cell.Plain dialect)
    (stops : Stops tail) :
    readField dialect (cell.written ++ tail) = some (cell.value, tail) := by
  have ends : tail.takeWhile dialect.isText = [] ∧ tail.dropWhile dialect.isText = tail := by
    cases tail with
    | nil => exact ⟨rfl, rfl⟩
    | cons c tail =>
      have : dialect.isText c = false := stops.not_text c rfl
      simp [this]
  have unquoted := plain.unquoted stops
  unfold readField
  split
  · next rest opened =>
    rw [opened] at unquoted
    exact absurd rfl unquoted
  · rw [plain.written, List.span_eq_takeWhile_dropWhile, List.takeWhile_append_of_pos plain,
      List.dropWhile_append_of_pos plain, ends.1, ends.2, List.append_nil]

/- The first value read is that of the first field. -/
theorem readOn_first {next : List Char → Option (List (List (List Char)))}
    {field behind : List Char} {rows : List (List (List Char))}
    (read : readOn dialect next field behind = some rows) :
    ∃ row more, rows = (field :: row) :: more := by
  unfold readOn at read
  split at read
  · cases read
  · cases read
    exact ⟨[], [], rfl⟩
  · split at read
    · cases read
      exact ⟨[], [], rfl⟩
    · obtain ⟨more, _, rfl⟩ := Option.map_eq_some_iff.mp read
      exact ⟨[], more, rfl⟩
  · obtain ⟨rows, _, rfl⟩ := Option.map_eq_some_iff.mp read
    cases rows with
    | nil => exact ⟨[], [], rfl⟩
    | cons row more => exact ⟨row, more, rfl⟩

/- What a field written without quotes leaves to be read. -/
theorem readRecords_written {cell : Cell} {tail : List Char} (stops : Stops tail) {fuel : Nat}
    {row : List (List Char)} {more : List (List (List Char))} :
    readRecords dialect (fuel + 1) (cell.written ++ tail) = some ((cell.value :: row) :: more) ↔
      cell.Plain dialect ∧
      readOn dialect (readRecords dialect fuel) cell.value tail =
        some ((cell.value :: row) :: more) := by
  rw [readRecords]
  constructor
  · intro read
    obtain ⟨⟨field, behind⟩, first, others⟩ := Option.bind_eq_some_iff.mp read
    have same : cell.value = field := by
      obtain ⟨row', more', starts⟩ := readOn_first others
      simp only [List.cons.injEq] at starts
      exact starts.1.1
    subst same
    have plain := readField_plain stops first
    rw [readField_written plain stops] at read
    exact ⟨plain, read⟩
  · rintro ⟨plain, others⟩
    rw [readField_written plain stops]
    exact others

end Fields

/-- A row of at least one field. -/
structure Row where
  first : Cell
  others : List Cell

def Row.cells (row : Row) : List Cell := row.first :: row.others

def Row.written (row : Row) : List Char := joined Cell.written ',' row.cells

def Row.values (row : Row) : List (List Char) := row.cells.map Cell.value

/-- Fields written without quotes, with commas between those of a row and a line feed between
    two rows. -/
inductive Page where
  | last (cell : Cell)
  | field (cell : Cell) (rest : Page)
  | record (cell : Cell) (rest : Page)

namespace Page

def text : Page → List Char
  | last cell => cell.written
  | field cell rest => cell.written ++ ',' :: rest.text
  | record cell rest => cell.written ++ '\n' :: rest.text

def rows : Page → List (List (List Char))
  | last cell => [[cell.value]]
  | field cell rest => inFront cell.value rest.rows
  | record cell rest => [cell.value] :: rest.rows

/-- Whether a page has plain text only, and one row only where a line feed ends none. -/
def Plain (dialect : Dialect) : Page → Prop
  | last cell => cell.Plain dialect
  | field cell rest => cell.Plain dialect ∧ rest.Plain dialect
  | record cell rest => cell.Plain dialect ∧ dialect.bareLineFeed = true ∧ rest.Plain dialect

/-- No row is empty text. -/
def Proper : Page → Prop
  | last _ => True
  | field _ rest => rest.Proper
  | record _ rest => rest.text ≠ [] ∧ rest.Proper

theorem rows_first (page : Page) : ∃ field row more, page.rows = (field :: row) :: more := by
  cases page with
  | last cell => exact ⟨cell.value, [], [], rfl⟩
  | field cell rest =>
    rw [rows]
    cases rest.rows with
    | nil => exact ⟨cell.value, [], [], rfl⟩
    | cons row more => exact ⟨cell.value, row, more, rfl⟩
  | record cell rest => exact ⟨cell.value, [], rest.rows, rfl⟩

variable {dialect : Dialect}

theorem inFront_eq {value field : List Char} {row : List (List Char)}
    {rows more : List (List (List Char))} :
    inFront value rows = (value :: field :: row) :: more ↔ rows = (field :: row) :: more := by
  cases rows with
  | nil => simp [inFront]
  | cons first rows => simp [inFront]

/- A page is read back exactly when its fields are plain text. -/
theorem readRecords_text {page : Page} (proper : page.Proper) {fuel : Nat}
    (enough : page.text.length < fuel) :
    readRecords dialect fuel page.text = some page.rows ↔ page.Plain dialect := by
  induction page generalizing fuel with
  | last cell =>
    obtain ⟨fuel, rfl⟩ : ∃ n, fuel = n + 1 := ⟨fuel - 1, by omega⟩
    rw [text, rows, Plain, ← List.append_nil cell.written,
      readRecords_written (by simp [Stops])]
    simp [readOn, readEnding]
  | field cell rest ih =>
    obtain ⟨fuel, rfl⟩ : ∃ n, fuel = n + 1 := ⟨fuel - 1, by omega⟩
    rw [text, List.length_append, List.length_cons] at enough
    have behind := ih proper (by omega : rest.text.length < fuel)
    obtain ⟨first, row, more, starts⟩ := rest.rows_first
    rw [starts] at behind
    rw [text, rows, Plain, starts, inFront, readRecords_written (by simp [Stops]), ← behind]
    simp [readOn, readEnding, inFront_eq]
  | record cell rest ih =>
    obtain ⟨fuel, rfl⟩ : ∃ n, fuel = n + 1 := ⟨fuel - 1, by omega⟩
    rw [text, List.length_append, List.length_cons] at enough
    have below := ih proper.2 (by omega : rest.text.length < fuel)
    rw [text, rows, Plain, readRecords_written (by simp [Stops]), ← below]
    cases accepted : dialect.bareLineFeed with
    | false => simp [readOn, readEnding, accepted]
    | true => simp [readOn, readEnding, accepted, proper.1]

theorem parse_text {page : Page} (proper : page.Proper) :
    parse dialect page.text = some page.rows ↔ page.Plain dialect :=
  readRecords_text proper (Nat.lt_succ_self _)

/-- The fields of a row, and the page of the rows below it. -/
def ofRow (cell : Cell) : List Cell → Option Page → Page
  | [], none => .last cell
  | [], some below => .record cell below
  | next :: cells, below => .field cell (ofRow next cells below)

def ofRows (row : Row) : List Row → Page
  | [] => ofRow row.first row.others none
  | next :: more => ofRow row.first row.others (some (ofRows next more))

variable {cell : Cell} {cells : List Cell} {below : Option Page}

theorem ofRow_text : (ofRow cell cells below).text =
    joined Cell.written ',' (cell :: cells) ++ below.elim [] ('\n' :: ·.text) := by
  induction cells generalizing cell with
  | nil => cases below <;> simp [ofRow, text, joined_cons, behind]
  | cons next cells ih =>
    rw [ofRow, text, ih, joined_cons cell (next :: cells), behind, List.append_assoc,
      List.cons_append]

theorem ofRow_rows : (ofRow cell cells below).rows =
    (cell :: cells).map Cell.value :: below.elim [] rows := by
  induction cells generalizing cell with
  | nil => cases below <;> simp [ofRow, rows]
  | cons next cells ih => rw [ofRow, rows, ih, inFront, ← List.map_cons]

theorem ofRow_plain : (ofRow cell cells below).Plain dialect ↔
    (∀ c ∈ cell :: cells, c.Plain dialect) ∧
      ∀ page ∈ below, dialect.bareLineFeed = true ∧ page.Plain dialect := by
  induction cells generalizing cell with
  | nil => cases below <;> simp [ofRow, Plain]
  | cons next cells ih => rw [ofRow, Plain, ih, List.forall_mem_cons (a := cell), and_assoc]

theorem ofRow_proper : (ofRow cell cells below).Proper ↔
    ∀ page ∈ below, page.text ≠ [] ∧ page.Proper := by
  induction cells generalizing cell with
  | nil => cases below <;> simp [ofRow, Proper]
  | cons next cells ih => rw [ofRow, Proper, ih]

variable {row : Row} {more : List Row}

theorem ofRows_text : (ofRows row more).text = joined Row.written '\n' (row :: more) := by
  induction more generalizing row with
  | nil =>
    rw [ofRows, ofRow_text, joined_cons row []]
    rfl
  | cons next more ih =>
    rw [ofRows, ofRow_text, joined_cons row (next :: more), behind, ← ih]
    rfl

theorem ofRows_rows : (ofRows row more).rows = (row :: more).map Row.values := by
  induction more generalizing row with
  | nil => simp [ofRows, ofRow_rows, Row.values, Row.cells]
  | cons next more ih =>
    rw [ofRows, ofRow_rows, List.map_cons (f := Row.values), ← ih]
    rfl

theorem ofRows_plain : (ofRows row more).Plain dialect ↔
    (∀ r ∈ row :: more, ∀ c ∈ r.cells, c.Plain dialect) ∧
      (more ≠ [] → dialect.bareLineFeed = true) := by
  induction more generalizing row with
  | nil => simp [ofRows, ofRow_plain, Row.cells]
  | cons next more ih =>
    rw [ofRows, ofRow_plain, List.forall_mem_cons (a := row)]
    simp only [Option.mem_some_iff, forall_eq', ih]
    constructor
    · rintro ⟨plain, accepted, others, _⟩
      exact ⟨⟨plain, others⟩, fun _ => accepted⟩
    · rintro ⟨⟨plain, others⟩, accepted⟩
      exact ⟨plain, accepted (by simp), others, fun _ => accepted (by simp)⟩

theorem ofRows_proper (given : ∀ r ∈ more, r.written ≠ []) : (ofRows row more).Proper := by
  induction more generalizing row with
  | nil => simp [ofRows, ofRow_proper]
  | cons next more ih =>
    rw [ofRows, ofRow_proper]
    rintro page ⟨⟩
    rw [List.forall_mem_cons] at given
    refine ⟨?_, ih given.2⟩
    rw [ofRows_text, joined_cons]
    exact List.append_ne_nil_of_left_ne_nil given.1 _

end Page

/- Rows written with line feeds between them are read back exactly when every field is plain
   text and a line feed ends a record, where there are two. -/
theorem parse_rows {dialect : Dialect} {row : Row} {more : List Row}
    (given : ∀ r ∈ more, r.written ≠ []) :
    parse dialect (joined Row.written '\n' (row :: more)) = some ((row :: more).map Row.values) ↔
      (∀ r ∈ row :: more, ∀ c ∈ r.cells, c.Plain dialect) ∧
        (more ≠ [] → dialect.bareLineFeed = true) := by
  rw [← Page.ofRows_text, ← Page.ofRows_rows, Page.parse_text (Page.ofRows_proper given),
    Page.ofRows_plain]

end AstraPort.Csv
