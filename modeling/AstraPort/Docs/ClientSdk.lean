import AstraPort.Docs.OpenApiDocument

/- renderClientSdk: the TypeScript client it writes for a document, as a reader of the class finds
   it, and which endpoints can be called through it. -/
namespace AstraPort.Docs
open Validation

abbrev underscore : UInt16 := 95
abbrev blank : UInt16 := 32
abbrev quote : UInt16 := 39
abbrev newline : UInt16 := 10
abbrev openParen : UInt16 := 40

/-- replace(/^_+|_+$/g, ''), of the character of which there are to be none. -/
def trimUnits (unit : UInt16) (text : JsString) : JsString :=
  ((text.dropWhile (· = unit)).reverse.dropWhile (· = unit)).reverse

/-- What stands between the words of a text. -/
def isGap (u : UInt16) : Bool := !isAlphanumeric u

structure Endpoint where
  method : JsString
  path : JsString
  deriving DecidableEq

def Endpoint.text (endpoint : Endpoint) : JsString := endpoint.method ++ blank :: endpoint.path

def endpoints (upper : UpperCasing) (document : OpenApiDocument) : List Endpoint :=
  document.paths.entries.flatMap fun e => e.2.keys.map fun method => ⟨upper.toUpperCase method, e.1⟩

def sdkLimit : Nat := 20

def endpointNames (upper : UpperCasing) (document : OpenApiDocument) : List JsString :=
  ((endpoints upper document).map Endpoint.text).take sdkLimit

def methodName (casing : Casing) (endpoint : JsString) (index : Nat) : JsString :=
  let name := casing.toLowerCase
    (trimUnits underscore (replaceRuns isGap underscore endpoint))
  if name = [] then .ofString "endpoint_" ++ .ofString (toString (index + 1)) else name

def methodLine (name method path : JsString) : JsString :=
  JsString.ofString "  async " ++ name ++ JsString.ofString "() \x7b return this.request('" ++
    method ++ JsString.ofString "', '" ++ path ++ JsString.ofString "'); \x7d"

/-- The parts of the endpoint at its blanks: the first is the method. -/
def renderMethod (casing : Casing) (endpoint : JsString) (index : Nat) : JsString :=
  let parts := endpoint.splitOn blank
  methodLine (methodName casing endpoint index) (parts.head?.getD []) ([blank].intercalate parts.tail)

def headerLines : List JsString :=
  ["export class AstraPortClient \x7b",
    "  constructor(private readonly baseUrl = 'http://localhost:3000') \x7b\x7d",
    "",
    "  private async request(method: string, path: string) \x7b",
    "    const response = await fetch(`$\x7bthis.baseUrl\x7d$\x7bpath\x7d`, \x7b method \x7d);",
    "    return response.json();",
    "  \x7d",
    ""].map JsString.ofString

def renderClientSdk (casing : Casing) (upper : UpperCasing) (document : OpenApiDocument) : JsString :=
  let methods := [newline].intercalate
    ((endpointNames upper document).zipIdx.map fun e => renderMethod casing e.1 e.2)
  [newline].intercalate (headerLines ++ [methods, JsString.ofString "\x7d"])

/-- A method of the client and the request it makes. -/
structure ClientMethod where
  name : JsString
  method : JsString
  path : JsString

/-- What is left behind a text. -/
def behindText (text whole : JsString) : Option JsString :=
  if text <+: whole then some (whole.drop text.length) else none

/-- A method on a line of its own, whose two texts are written without escapes. -/
def readMethod (line : JsString) : Option ClientMethod := do
  let rest ← behindText (.ofString "  async ") line
  let name := rest.takeWhile (· ≠ openParen)
  let rest ← behindText (.ofString "() \x7b return this.request('") (rest.dropWhile (· ≠ openParen))
  let method := rest.takeWhile (· ≠ quote)
  let rest ← behindText (.ofString "', '") (rest.dropWhile (· ≠ quote))
  let path := rest.takeWhile (· ≠ quote)
  let rest ← behindText (.ofString "'); \x7d") (rest.dropWhile (· ≠ quote))
  if rest = [] then some ⟨name, method, path⟩ else none

def readClient (text : JsString) : List ClientMethod := (text.splitOn newline).filterMap readMethod

/-- Of the methods of one name the class has the last. -/
def callClient (methods : List ClientMethod) (name : JsString) : Option Endpoint :=
  (methods.reverse.find? fun m => m.name = name).map fun m => ⟨m.method, m.path⟩

/-- The words of a text: its runs of letters and digits, in small letters. -/
def wordsFrom (current : JsString) : JsString → List JsString
  | [] => if current = [] then [] else [current]
  | u :: text =>
    if isAlphanumeric u then wordsFrom (current ++ [u]) text
    else (if current = [] then [] else [current]) ++ wordsFrom [] text

def words (text : JsString) : List JsString := (wordsFrom [] text).map lowerLetters

/-- Texts that mean themselves between quotes: no quote, no backslash and no line break. -/
def Quotable (text : JsString) : Prop := ∀ u ∈ text, u ∉ [quote, 92, 10, 13]

/-- The endpoint of a request: a method without blanks, and words in it. -/
structure Endpoint.Plain (endpoint : Endpoint) : Prop where
  method : Quotable endpoint.method
  path : Quotable endpoint.path
  whole : blank ∉ endpoint.method
  worded : words endpoint.text ≠ []

section Words

theorem gap_underscore : isGap underscore = true := by decide

theorem alphanumeric_apart {u : UInt16} (own : isAlphanumeric u = true) : u ≠ underscore := by
  rintro rfl
  exact absurd own (by decide)

theorem wordsFrom_cons {current : JsString} (begun : current ≠ []) (text : JsString) :
    ∃ more words, wordsFrom current text = (current ++ more) :: words := by
  induction text generalizing current with
  | nil => exact ⟨[], [], by simp [wordsFrom, begun]⟩
  | cons u text ih =>
    rw [wordsFrom]
    split
    · obtain ⟨more, words, parts⟩ := ih (List.append_ne_nil_of_left_ne_nil begun [u])
      exact ⟨u :: more, words, by simpa using parts⟩
    · exact ⟨[], wordsFrom [] text, by simp⟩

/- Cutting underscores off the end leaves a text alone that has something else behind it. -/
theorem rdropWhile_behind {front back : JsString}
    (kept : back.rdropWhile (· = underscore) ≠ []) :
    (front ++ back).rdropWhile (· = underscore) = front ++ back.rdropWhile (· = underscore) := by
  rw [List.rdropWhile, List.rdropWhile, List.reverse_append, List.dropWhile_append]
  have some : (List.dropWhile (· = underscore) back.reverse).isEmpty = false := by
    simpa [List.rdropWhile] using kept
  simp [some]

theorem rdropWhile_word {current : JsString} (own : ∀ u ∈ current, isAlphanumeric u = true) :
    current.rdropWhile (· = underscore) = current := by
  apply List.rdropWhile_eq_self_iff.mpr
  intro some last
  exact alphanumeric_apart (own _ (List.getLast_mem some)) (of_decide_eq_true last)

/- Behind a word that has begun, gaps become one underscore each and the last is cut off. -/
theorem trimmed_words (text : JsString) {current : JsString} (begun : current ≠ [])
    (own : ∀ u ∈ current, isAlphanumeric u = true) :
    (current ++ replaceRuns isGap underscore text).rdropWhile (· = underscore) =
      [underscore].intercalate (wordsFrom current text) := by
  cases text with
  | nil => simp [replaceRuns, wordsFrom, begun, rdropWhile_word own]
  | cons u text =>
    rw [replaceRuns, wordsFrom]
    by_cases letter : isAlphanumeric u = true
    · have gap : isGap u = false := by simp [isGap, letter]
      rw [gap, if_neg (by simp), if_pos letter, List.append_cons]
      exact trimmed_words text (by simp) (by
        intro v member
        obtain old | last := List.mem_append.mp member
        · exact own v old
        · rwa [List.mem_singleton.mp last])
    · have gap : isGap u = true := by simp [isGap, letter]
      rw [if_pos gap, if_neg letter, if_neg begun]
      cases text with
      | nil => simp [replaceRuns, wordsFrom, List.rdropWhile_concat_pos, rdropWhile_word own]
      | cons v text =>
        by_cases letter' : isAlphanumeric v = true
        · have gap' : isGap v = false := by simp [isGap, letter']
          have rest := trimmed_words text (List.cons_ne_nil v [])
            (by simpa using letter')
          obtain ⟨more, words, parts⟩ := wordsFrom_cons (List.cons_ne_nil v []) text
          have kept : (v :: replaceRuns isGap underscore text).rdropWhile (· = underscore) ≠ [] := by
            rw [List.singleton_append] at rest
            rw [rest, parts]
            cases words <;> simp
          have behind : (underscore :: v :: replaceRuns isGap underscore text).rdropWhile
              (· = underscore) = underscore :: [underscore].intercalate (wordsFrom [v] text) := by
            have whole := @rdropWhile_behind [underscore] _ kept
            rw [List.singleton_append] at whole rest
            rw [whole, rest, List.singleton_append]
          have some : (underscore :: v :: replaceRuns isGap underscore text).rdropWhile
              (· = underscore) ≠ [] := by simp [behind]
          rw [List.head?_cons, Option.any_some, gap', if_neg (by simp), replaceRuns, gap',
            if_neg (by simp), rdropWhile_behind some, behind, wordsFrom, if_pos letter',
            List.nil_append, parts]
          simp [List.intercalate_cons_cons]
        · have gap' : isGap v = true := by simp [isGap, letter']
          have rest := trimmed_words (v :: text) begun own
          rw [List.head?_cons, Option.any_some, gap', if_pos rfl, rest, wordsFrom, if_neg letter',
            if_neg begun, wordsFrom, if_neg letter']
          rfl
termination_by text.length

theorem leading_gaps (text : JsString) :
    (replaceRuns isGap underscore text).dropWhile (· = underscore) =
      replaceRuns isGap underscore (text.dropWhile isGap) := by
  induction text with
  | nil => rfl
  | cons u text ih =>
    rw [replaceRuns]
    by_cases gap : isGap u = true
    · rw [if_pos gap, List.dropWhile_cons_of_pos gap, ← ih]
      split
      · rfl
      · simp
    · have letter : isAlphanumeric u = true := by simpa [isGap] using gap
      rw [if_neg gap, List.dropWhile_cons_of_neg gap, List.dropWhile_cons_of_neg
        (by simpa using alphanumeric_apart letter), replaceRuns, if_neg gap]

theorem wordsFrom_leading (text : JsString) :
    wordsFrom [] (text.dropWhile isGap) = wordsFrom [] text := by
  induction text with
  | nil => rfl
  | cons u text ih =>
    by_cases gap : isGap u = true
    · have letter : ¬ isAlphanumeric u = true := by simpa [isGap] using gap
      rw [List.dropWhile_cons_of_pos gap, ih, wordsFrom, if_neg letter]
      rfl
    · rw [List.dropWhile_cons_of_neg gap]

/- The name is made of the words and of nothing else. -/
theorem trimUnits_words (text : JsString) :
    trimUnits underscore (replaceRuns isGap underscore text) =
      [underscore].intercalate (wordsFrom [] text) := by
  rw [trimUnits, leading_gaps, ← wordsFrom_leading]
  have first : (text.dropWhile isGap).head?.all (fun u => isAlphanumeric u) = true := by
    have apart := List.head?_dropWhile_not isGap text
    cases begun : (text.dropWhile isGap).head? with
    | none => rfl
    | some u =>
      rw [begun] at apart
      simpa [isGap] using apart
  cases rest : text.dropWhile isGap with
  | nil => rfl
  | cons u text =>
    rw [rest, List.head?_cons, Option.all_some] at first
    have whole := trimmed_words text (List.cons_ne_nil u []) (by simpa using first)
    have gap : ¬ isGap u = true := by simp [isGap, first]
    rw [replaceRuns, if_neg gap, wordsFrom, if_pos first]
    simpa [List.rdropWhile] using whole

theorem wordsFrom_letters (text : JsString) {current : JsString}
    (own : ∀ u ∈ current, isAlphanumeric u = true) :
    ∀ word ∈ wordsFrom current text, ∀ u ∈ word, isAlphanumeric u = true := by
  have flushed : ∀ word ∈ (if current = [] then [] else [current]), ∀ u ∈ word,
      isAlphanumeric u = true := by
    intro word member
    split at member
    · cases member
    · rwa [List.mem_singleton.mp member]
  induction text generalizing current with
  | nil => exact flushed
  | cons u text ih =>
    rw [wordsFrom]
    split
    · rename_i letter
      have longer : ∀ v ∈ current ++ [u], isAlphanumeric v = true := by
        intro v member
        obtain old | last := List.mem_append.mp member
        · exact own v old
        · rwa [List.mem_singleton.mp last]
      apply ih longer
      intro word member
      split at member
      · cases member
      · rwa [List.mem_singleton.mp member]
    · intro word member
      obtain here | later := List.mem_append.mp member
      · exact flushed word here
      · exact ih (by simp) (by simp) word later

theorem lower_alphanumeric {u : UInt16} (letter : isAlphanumeric u = true) :
    isAlphanumeric (if 65 ≤ u ∧ u ≤ 90 then u + 32 else u) = true := by
  simp only [isAlphanumeric, decide_eq_true_eq] at letter ⊢
  split
  · rename_i capital
    simp only [UInt16.le_iff_toNat_le, UInt16.toNat_add, UInt16.reduceToNat] at capital ⊢
    omega
  · exact letter

theorem words_letters (text : JsString) :
    ∀ word ∈ words text, ∀ u ∈ word, isAlphanumeric u = true := by
  intro word member u inside
  obtain ⟨own, there, rfl⟩ := List.mem_map.mp member
  obtain ⟨v, letter, rfl⟩ := List.mem_map.mp inside
  exact lower_alphanumeric (wordsFrom_letters text (by simp) own there v letter)

theorem alphanumeric_ascii {u : UInt16} (letter : isAlphanumeric u = true) : u < 128 := by
  simp only [isAlphanumeric, decide_eq_true_eq, UInt16.le_iff_toNat_le, UInt16.lt_iff_toNat_lt,
    UInt16.reduceToNat] at letter ⊢
  omega

theorem lowerLetters_join (pieces : List JsString) :
    lowerLetters ([underscore].intercalate pieces) =
      [underscore].intercalate (pieces.map lowerLetters) := by
  induction pieces with
  | nil => rfl
  | cons piece pieces ih =>
    cases pieces with
    | nil => simp [lowerLetters]
    | cons next pieces =>
      have apart (front back : JsString) :
          lowerLetters (front ++ underscore :: back) =
            lowerLetters front ++ underscore :: lowerLetters back := by
        simp [lowerLetters, underscore]
      rw [List.intercalate_cons_cons, List.append_assoc, List.singleton_append, apart, ih]
      simp [List.intercalate_cons_cons]

theorem joined_ascii {pieces : List JsString}
    (letters : ∀ piece ∈ pieces, ∀ u ∈ piece, isAlphanumeric u = true) :
    ∀ u ∈ [underscore].intercalate pieces, u < 128 ∧ (u = underscore ∨ isAlphanumeric u = true) := by
  intro u member
  induction pieces with
  | nil => simp at member
  | cons piece pieces ih =>
    obtain ⟨own, rest⟩ := List.forall_mem_cons.mp letters
    cases pieces with
    | nil =>
      rw [List.intercalate_singleton] at member
      exact ⟨alphanumeric_ascii (own u member), .inr (own u member)⟩
    | cons next pieces =>
      rw [List.intercalate_cons_cons, List.append_assoc] at member
      obtain here | later := List.mem_append.mp member
      · exact ⟨alphanumeric_ascii (own u here), .inr (own u here)⟩
      · obtain between | later := List.mem_append.mp later
        · rw [List.mem_singleton.mp between]
          exact ⟨by decide, .inl rfl⟩
        · exact ih rest later

variable {casing : Casing}

/- The name of an endpoint with words: its words, joined with underscores. -/
theorem methodName_words {text : JsString} (worded : words text ≠ []) (index : Nat) :
    methodName casing text index = [underscore].intercalate (words text) := by
  have joined := trimUnits_words text
  have letters := @wordsFrom_letters text [] (by simp)
  have lowered : casing.toLowerCase (trimUnits underscore (replaceRuns isGap underscore text)) =
      [underscore].intercalate (words text) := by
    rw [joined, casing.ascii _ fun u member => (joined_ascii letters u member).1,
      lowerLetters_join]
    rfl
  have some : [underscore].intercalate (words text) ≠ [] := by
    have begun : wordsFrom [] text ≠ [] := fun none => worded (by rw [words, none]; rfl)
    have pieces : ∀ (text : JsString) (current : JsString), ∀ word ∈ wordsFrom current text,
        word ≠ [] := by
      intro text
      induction text with
      | nil =>
        intro current word member
        rw [wordsFrom] at member
        split at member
        · cases member
        · rwa [List.mem_singleton.mp member]
      | cons u text ih =>
        intro current word member
        rw [wordsFrom] at member
        split at member
        · exact ih _ word member
        · obtain here | later := List.mem_append.mp member
          · split at here
            · cases here
            · rwa [List.mem_singleton.mp here]
          · exact ih _ word later
    cases first : words text with
    | nil => exact absurd first worded
    | cons word rest =>
      have own : word ≠ [] := by
        have there : word ∈ words text := by rw [first]; exact List.mem_cons_self
        obtain ⟨raw, member, rfl⟩ := List.mem_map.mp there
        simpa [lowerLetters] using pieces text [] raw member
      cases rest with
      | nil => simpa using own
      | cons next rest => simp [List.intercalate_cons_cons, own]
  rw [methodName, lowered, if_neg some]

/- Names tell endpoints apart as far as their words do. -/
theorem joined_words_inj {text other : JsString} (worded : words text ≠ [])
    (worded' : words other ≠ []) :
    [underscore].intercalate (words text) = [underscore].intercalate (words other) ↔
      words text = words other := by
  have apart (text : JsString) : ∀ word ∈ words text, underscore ∉ word := by
    intro word member inside
    exact alphanumeric_apart (words_letters text word member _ inside) rfl
  constructor
  · intro same
    rw [← List.splitOn_intercalate underscore (apart text) worded, same,
      List.splitOn_intercalate underscore (apart other) worded']
  · exact congrArg _

end Words

section Lines

theorem behindText_append (text rest : JsString) : behindText text (text ++ rest) = some rest := by
  simp [behindText]

theorem takeWhile_until {stop : UInt16} {front : JsString} (apart : stop ∉ front)
    (back : JsString) (begins : back.head? = some stop) :
    (front ++ back).takeWhile (· ≠ stop) = front ∧ (front ++ back).dropWhile (· ≠ stop) = back := by
  obtain ⟨rest, rfl⟩ := List.head?_eq_some_iff.mp begins
  have others : ∀ u ∈ front, decide (u ≠ stop) = true := by
    intro u member
    exact decide_eq_true (ne_of_mem_of_not_mem member apart)
  rw [List.takeWhile_append_of_pos others, List.dropWhile_append_of_pos others]
  simp

/- A line that is written is read back. -/
theorem readMethod_line {name method path : JsString} (plainName : openParen ∉ name)
    (plainMethod : quote ∉ method) (plainPath : quote ∉ path) :
    readMethod (methodLine name method path) = some ⟨name, method, path⟩ := by
  obtain ⟨name', rest⟩ := takeWhile_until plainName (JsString.ofString
    "() \x7b return this.request('" ++ (method ++ (JsString.ofString "', '" ++ (path ++
      JsString.ofString "'); \x7d")))) rfl
  obtain ⟨method', rest'⟩ := takeWhile_until plainMethod
    (JsString.ofString "', '" ++ (path ++ JsString.ofString "'); \x7d")) rfl
  obtain ⟨path', rest''⟩ := takeWhile_until plainPath (JsString.ofString "'); \x7d") rfl
  simp only [readMethod, methodLine, List.append_assoc, behindText_append, Option.bind_eq_bind,
    Option.bind_some, name', rest, method', rest', path', rest'']
  rfl

theorem intercalate_nested {sep : UInt16} {lines : List JsString} (some : lines ≠ [])
    (front back : List JsString) :
    [sep].intercalate (front ++ [sep].intercalate lines :: back) =
      [sep].intercalate (front ++ (lines ++ back)) := by
  have grown (line rest : JsString) (back : List JsString) :
      [sep].intercalate ((line ++ [sep] ++ rest) :: back) =
        line ++ [sep] ++ [sep].intercalate (rest :: back) := by
    cases back <;> simp [List.intercalate_cons_cons]
  induction front with
  | nil =>
    induction lines with
    | nil => exact absurd rfl some
    | cons line lines ih =>
      cases lines with
      | nil => simp
      | cons next lines =>
        rw [List.intercalate_cons_cons]
        simp only [List.nil_append] at ih ⊢
        rw [grown, ih (List.cons_ne_nil _ _)]
        simp [List.intercalate_cons_cons]
  | cons first front ih =>
    obtain ⟨line, lines', rfl⟩ := List.exists_cons_of_ne_nil some
    cases front with
    | nil =>
      simp only [List.nil_append, List.cons_append] at ih ⊢
      rw [List.intercalate_cons_cons, ih, List.intercalate_cons_cons]
    | cons second front =>
      simp only [List.cons_append] at ih ⊢
      rw [List.intercalate_cons_cons, ih, List.intercalate_cons_cons]

end Lines

def sdkName (endpoint : Endpoint) : JsString := [underscore].intercalate (words endpoint.text)

section Client
variable {casing : Casing} {upper : UpperCasing} {document : OpenApiDocument}

theorem Endpoint.Plain.rendered {endpoint : Endpoint} (plain : endpoint.Plain) (index : Nat) :
    renderMethod casing endpoint.text index =
      methodLine (sdkName endpoint) endpoint.method endpoint.path := by
  have parts : endpoint.text.splitOn blank = endpoint.method :: endpoint.path.splitOn blank :=
    List.splitOn_append_cons_self_of_not_mem plain.whole endpoint.path
  rw [renderMethod, methodName_words plain.worded, parts, List.head?_cons, Option.getD_some,
    List.tail_cons, List.intercalate_splitOn, sdkName]

theorem sdkName_units (endpoint : Endpoint) :
    ∀ u ∈ sdkName endpoint, u = underscore ∨ isAlphanumeric u = true :=
  fun u member => (joined_ascii (words_letters endpoint.text) u member).2

theorem Endpoint.Plain.read {endpoint : Endpoint} (plain : endpoint.Plain) :
    readMethod (methodLine (sdkName endpoint) endpoint.method endpoint.path) =
      some ⟨sdkName endpoint, endpoint.method, endpoint.path⟩ := by
  apply readMethod_line
  · intro inside
    obtain same | letter := sdkName_units endpoint _ inside
    · exact absurd same (by decide)
    · exact absurd letter (by decide)
  · exact fun inside => plain.method _ inside (by decide)
  · exact fun inside => plain.path _ inside (by decide)

theorem Endpoint.Plain.line {endpoint : Endpoint} (plain : endpoint.Plain) :
    newline ∉ methodLine (sdkName endpoint) endpoint.method endpoint.path := by
  have name : newline ∉ sdkName endpoint := by
    intro inside
    obtain same | letter := sdkName_units endpoint _ inside
    · exact absurd same (by decide)
    · exact absurd letter (by decide)
  have method : newline ∉ endpoint.method := fun inside => plain.method _ inside (by decide)
  have path : newline ∉ endpoint.path := fun inside => plain.path _ inside (by decide)
  simp only [methodLine, List.mem_append, name, method, path, or_false]
  decide

/-- The endpoints the client is to have. -/
def offered (upper : UpperCasing) (document : OpenApiDocument) : List Endpoint :=
  (endpoints upper document).take sdkLimit

/- The text of the client is read as one method for each endpoint that is offered. -/
theorem readClient_rendered (plain : ∀ endpoint ∈ offered upper document, endpoint.Plain) :
    readClient (renderClientSdk casing upper document) =
      (offered upper document).map fun e => ⟨sdkName e, e.method, e.path⟩ := by
  have methods : (endpointNames upper document).zipIdx.map (fun e => renderMethod casing e.1 e.2) =
      (offered upper document).map fun e => methodLine (sdkName e) e.method e.path := by
    rw [endpointNames, ← List.map_take, ← offered, List.zipIdx_map, List.map_map]
    have each : ∀ e ∈ (offered upper document).zipIdx,
        renderMethod casing e.1.text e.2 = methodLine (sdkName e.1) e.1.method e.1.path :=
      fun e member => (plain _ (List.fst_mem_of_mem_zipIdx member)).rendered _
    have both := List.map_congr_left each
    have first : (offered upper document).zipIdx.map (fun e =>
        methodLine (sdkName e.1) e.1.method e.1.path) = ((offered upper document).zipIdx.map
          Prod.fst).map fun e => methodLine (sdkName e) e.method e.path := by
      rw [List.map_map]
      rfl
    rw [List.zipIdx_map_fst] at first
    exact both.trans first
  have headers : ∀ line ∈ headerLines, newline ∉ line := by decide +kernel
  have close : newline ∉ JsString.ofString "\x7d" := by decide
  have silent : headerLines.filterMap readMethod = [] := by decide +kernel
  have ended : readMethod (JsString.ofString "\x7d") = none := by decide
  rw [readClient, renderClientSdk, methods]
  cases listed : offered upper document with
  | nil =>
    have lines : ∀ line ∈ headerLines ++ [[], JsString.ofString "\x7d"], newline ∉ line := by
      intro line member
      obtain header | rest := List.mem_append.mp member
      · exact headers line header
      · obtain rfl | last := List.mem_cons.mp rest
        · simp
        · rwa [List.mem_singleton.mp last]
    rw [List.map_nil, List.intercalate_nil, List.splitOn_intercalate newline lines (by simp), List.filterMap_append, silent]
    have empty : readMethod [] = none := by decide
    simp [empty, ended]
  | cons first rest =>
    rw [← listed]
    have some : ((offered upper document).map fun e =>
        methodLine (sdkName e) e.method e.path) ≠ [] := by simp [listed]
    have lines : ∀ line ∈ headerLines ++ (((offered upper document).map fun e =>
        methodLine (sdkName e) e.method e.path) ++ [JsString.ofString "\x7d"]), newline ∉ line := by
      intro line member
      obtain header | rest := List.mem_append.mp member
      · exact headers line header
      · obtain own | last := List.mem_append.mp rest
        · obtain ⟨e, inside, rfl⟩ := List.mem_map.mp own
          exact (plain e inside).line
        · rwa [List.mem_singleton.mp last]
    rw [intercalate_nested some, List.splitOn_intercalate newline lines (by simp),
      List.filterMap_append, silent, List.nil_append, List.filterMap_append]
    have last : [JsString.ofString "\x7d"].filterMap readMethod = [] := by simp [ended]
    rw [last, List.append_nil, List.filterMap_map]
    have each : ∀ e ∈ offered upper document, (readMethod ∘ fun e : Endpoint =>
        methodLine (sdkName e) e.method e.path) e = Option.some
          (⟨sdkName e, e.method, e.path⟩ : ClientMethod) :=
      fun e member => (plain e member).read
    rw [List.filterMap_congr each]
    exact congrFun List.filterMap_eq_map _

/- The last of a list with a property, by where it stands. -/
theorem find_last {Element : Type} (test : Element → Bool) (elements : List Element) (e : Element) :
    elements.reverse.find? test = some e ↔
      ∃ before after, elements = before ++ e :: after ∧ test e = true ∧
        ∀ other ∈ after, ¬ test other = true := by
  rw [List.find?_eq_some_iff_append]
  constructor
  · rintro ⟨own, front, back, parts, apart⟩
    refine ⟨back.reverse, front.reverse, ?_, own, ?_⟩
    · have turned := congrArg List.reverse parts
      simpa using turned
    · intro other member
      simpa using apart other (List.mem_reverse.mp member)
  · rintro ⟨before, after, rfl, own, apart⟩
    refine ⟨own, after.reverse, before.reverse, by simp, ?_⟩
    intro other member
    simpa using apart other (List.mem_reverse.mp member)

/-- Calling a method of the client makes the request of one of the first twenty endpoints: the last
    of those that have its words. An endpoint with whose words another one comes later, whatever
    stands between the words and in which case they are written, is out of reach. -/
theorem client_calls_last (plain : ∀ endpoint ∈ offered upper document, endpoint.Plain)
    (name : JsString) (endpoint : Endpoint) :
    callClient (readClient (renderClientSdk casing upper document)) name = some endpoint ↔
      ∃ before after, offered upper document = before ++ endpoint :: after ∧
        sdkName endpoint = name ∧ ∀ other ∈ after, words other.text ≠ words endpoint.text := by
  have called : callClient (readClient (renderClientSdk casing upper document)) name =
      (offered upper document).reverse.find? fun e => sdkName e = name := by
    rw [callClient, readClient_rendered plain, ← List.map_reverse, List.find?_map, Option.map_map]
    exact Option.map_id'
  rw [called, find_last]
  constructor
  · rintro ⟨before, after, parts, own, later⟩
    have named := of_decide_eq_true own
    refine ⟨before, after, parts, named, ?_⟩
    intro other member same
    exact later other member (decide_eq_true (by rw [sdkName, same, ← sdkName, named]))
  · rintro ⟨before, after, parts, named, later⟩
    refine ⟨before, after, parts, decide_eq_true named, ?_⟩
    intro other member same
    have worded : ∀ e ∈ endpoint :: after, words e.text ≠ [] := fun e inside =>
      (plain e (by rw [parts]; exact List.mem_append_right _ inside)).worded
    have joined : sdkName other = sdkName endpoint := (of_decide_eq_true same).trans named.symm
    exact later other member ((joined_words_inj (worded _ (List.mem_cons_of_mem _ member))
      (worded _ List.mem_cons_self)).mp joined)

end Client

section Application
variable {casing : Casing} {upper : UpperCasing} {registry : ValidationSchemaRegistry}
  {stack : List Layer}

/- What is listed in a document is served. -/
theorem endpoint_served {endpoint : Endpoint}
    (listed : endpoint ∈ endpoints upper (buildOpenApiDocument casing upper registry stack)) :
    ∃ method, Served casing upper stack method endpoint.path ∧
      upper.toUpperCase method = endpoint.method := by
  obtain ⟨⟨path, methods⟩, entry, own⟩ := List.mem_flatMap.mp listed
  obtain ⟨method, key, rfl⟩ := List.mem_map.mp own
  have found : (buildOpenApiDocument casing upper registry stack).paths.get path = some methods :=
    (InsertionMap.get_iff_mem _).mpr entry
  have held : methods.get method ≠ none := fun none => methods.get_none_iff.mp none key
  have there : (buildOpenApiDocument casing upper registry stack).paths.at path method ≠ none := by
    rwa [Paths.at, found, Option.bind_some]
  unfold buildOpenApiDocument at there
  rw [at_addOperations] at there
  split at there
  · rename_i written
    obtain ⟨op, collected, at_⟩ := List.any_eq_true.mp written
    obtain ⟨route, rest, m, within, has, rfl⟩ := mem_collectOperations.mp collected
    obtain ⟨path', method', -⟩ := of_decide_eq_true at_
    exact ⟨method, ⟨route, rest, m, within, has, method', path'⟩, rfl⟩
  · exact absurd rfl there

/-- The client of an application calls nothing but what the application serves. -/
theorem client_calls_served
    (plain : ∀ endpoint ∈ offered upper (buildOpenApiDocument casing upper registry stack),
      endpoint.Plain) {name : JsString} {endpoint : Endpoint}
    (called : callClient (readClient (renderClientSdk casing upper
      (buildOpenApiDocument casing upper registry stack))) name = some endpoint) :
    ∃ method, Served casing upper stack method endpoint.path ∧
      upper.toUpperCase method = endpoint.method := by
  rw [callClient, readClient_rendered plain, Option.map_eq_some_iff] at called
  obtain ⟨m, found, rfl⟩ := called
  obtain ⟨e, offers, rfl⟩ := List.mem_map.mp (List.mem_reverse.mp (List.mem_of_find?_eq_some found))
  exact endpoint_served (List.mem_of_mem_take offers)

/-- Two routes whose endpoints have the same words. -/
def twinRouter : List Layer :=
  [.mk (some ⟨.ofString "/users/:id", [(.ofString "get", true)]⟩) [],
    .mk (some ⟨.ofString "/users-ID", [(.ofString "get", true)]⟩) []]

def twinDocument : OpenApiDocument :=
  buildOpenApiDocument asciiCasing asciiUpperCasing .empty twinRouter

def earlierTwin : Endpoint := ⟨.ofString "GET", .ofString "/users/:id"⟩

def laterTwin : Endpoint := ⟨.ofString "GET", .ofString "/users-ID"⟩

theorem twins_offered : offered asciiUpperCasing twinDocument = [earlierTwin, laterTwin] := by
  decide +kernel

theorem twins_plain : ∀ endpoint ∈ offered asciiUpperCasing twinDocument, endpoint.Plain := by
  have quotable {text : JsString} (units : text.all (fun u => u ∉ [quote, 92, 10, 13]) = true) :
      Quotable text := fun u member => of_decide_eq_true (List.all_eq_true.mp units u member)
  rw [twins_offered]
  intro endpoint member
  obtain rfl | last := List.mem_cons.mp member
  · exact ⟨quotable (by decide), quotable (by decide), by decide, by decide⟩
  · rw [List.mem_singleton.mp last]
    exact ⟨quotable (by decide), quotable (by decide), by decide, by decide⟩

theorem later_twin_called :
    callClient (readClient (renderClientSdk asciiCasing asciiUpperCasing twinDocument))
        (.ofString "get_users_id") = some laterTwin ↔
      ∃ before after, offered asciiUpperCasing twinDocument = before ++ laterTwin :: after ∧
        sdkName laterTwin = .ofString "get_users_id" ∧
          ∀ other ∈ after, words other.text ≠ words laterTwin.text :=
  client_calls_last twins_plain _ _

theorem later_twin_served : ∃ method,
    Served asciiCasing asciiUpperCasing twinRouter method laterTwin.path ∧
      asciiUpperCasing.toUpperCase method = laterTwin.method :=
  client_calls_served twins_plain (show callClient (readClient (renderClientSdk asciiCasing
    asciiUpperCasing twinDocument)) (.ofString "get_users_id") = some laterTwin by decide +kernel)

end Application
end AstraPort.Docs
