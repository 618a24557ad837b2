import AstraPort.Foundation.JsText
import AstraPort.Foundation.Patterns
import AstraPort.Foundation.PlainDecimals

/- sanitizedString: what it takes out of a text, and the limits of length it puts on it. -/
namespace AstraPort.Validation

inductive LengthIssue where
  | tooSmall (minimum : JsNumeric) (message : JsString)
  | tooBig (maximum : JsNumeric) (message : JsString)
  deriving DecidableEq

structure SanitizedStringOptions where
  minLength : Option JsNumeric := none
  maxLength : Option JsNumeric := none

def lengthOf (val : JsString) : Magnitude := .finite val.length

def checkMinLength (options : SanitizedStringOptions) (val : JsString) : List LengthIssue :=
  match options.minLength with
  | none => []
  | some minLength =>
    if (lengthOf val).less minLength.magnitude then
      [.tooSmall minLength
        (.ofString "Must be at least " ++ printed minLength ++ .ofString " characters")]
    else []

def checkMaxLength (options : SanitizedStringOptions) (val : JsString) : List LengthIssue :=
  match options.maxLength with
  | none => []
  | some maxLength =>
    if maxLength.magnitude.less (lengthOf val) then
      [.tooBig maxLength (.ofString "Cannot exceed " ++ printed maxLength ++ .ofString " characters")]
    else []

section Patterns
open Pattern

/-- A unit in either case; none beyond ASCII is taken for one of ASCII. -/
def inEitherCase (u : UInt16) : Pattern UInt16 :=
  unit fun v => v == u || (97 ≤ u && u ≤ 122 && v == u - 32)

def spelled (text : String) : Pattern UInt16 :=
  inOrder ((JsString.ofString text).map inEitherCase)

/-- A unit that counts as part of a word. -/
def isWordUnit (u : UInt16) : Bool :=
  48 ≤ u && u ≤ 57 || 65 ≤ u && u ≤ 90 || 97 ≤ u && u ≤ 122 || u == 95

/-- [^<]* -/
def untilBracket : Pattern UInt16 := many (unit (· ≠ 60))

/-- /<script\b[^<]*(?:(?!<\/script>)<[^<]*)*<\/script>/i -/
def scriptElement : Pattern UInt16 :=
  inOrder [spelled "<script", boundary isWordUnit, untilBracket,
    many (inOrder [aheadNot (spelled "</script>"), unit (· = 60), untilBracket]),
    spelled "</script>"]

/-- /<[^>]+>/ -/
def tag : Pattern UInt16 := inOrder [unit (· = 60), atLeastOnce (unit (· ≠ 62)), unit (· = 62)]

/-- /\0/ -/
def nul : Pattern UInt16 := unit (· = 0)

def stripped (val : JsString) : JsString :=
  nul.removeAll (tag.removeAll (scriptElement.removeAll val))

end Patterns

def sanitizedString (options : SanitizedStringOptions) (input : JsString) :
    Except (List LengthIssue) JsString :=
  let val := input.trim
  match checkMinLength options val ++ checkMaxLength options val with
  | [] => .ok (stripped val)
  | issues => .error issues

/-- A complete tag stands in the text: <, one unit or more that is no >, and >. -/
def HasTag (text : JsString) : Prop :=
  ∃ before body after, text = before ++ 60 :: (body ++ 62 :: after) ∧ body ≠ [] ∧ 62 ∉ body

section Tags
open Pattern
variable {u : UInt16} {us text : JsString}

/-- The text begins with a complete tag. -/
def BeginsTag (text : JsString) : Prop :=
  ∃ body after, text = 60 :: (body ++ 62 :: after) ∧ body ≠ [] ∧ 62 ∉ body

theorem beginsTag_cons : BeginsTag (u :: us) ↔ u = 60 ∧ 62 ∈ us ∧ us.head? ≠ some 62 := by
  constructor
  · rintro ⟨body, after, parts, some, inside⟩
    obtain ⟨v, body, rfl⟩ := List.exists_cons_of_ne_nil some
    cases parts
    refine ⟨rfl, by simp, ?_⟩
    intro first
    cases first
    exact inside List.mem_cons_self
  · rintro ⟨rfl, closed, apart⟩
    obtain ⟨body, after, rfl, inside⟩ := List.eq_append_cons_of_mem closed
    refine ⟨body, after, rfl, ?_, inside⟩
    rintro rfl
    exact apart rfl

theorem hasTag_cons : HasTag (u :: us) ↔ BeginsTag (u :: us) ∨ HasTag us := by
  constructor
  · rintro ⟨before, body, after, parts, some, inside⟩
    cases before with
    | nil => exact Or.inl ⟨body, after, parts, some, inside⟩
    | cons v before =>
      cases parts
      exact Or.inr ⟨before, body, after, rfl, some, inside⟩
  · rintro (⟨body, after, parts, some, inside⟩ | ⟨before, body, after, rfl, some, inside⟩)
    · exact ⟨[], body, after, parts, some, inside⟩
    · exact ⟨u :: before, body, after, rfl, some, inside⟩

theorem not_hasTag_nil : ¬ HasTag [] := by
  rintro ⟨before, body, after, parts, -⟩
  cases (List.append_eq_nil_iff.mp parts.symm).2

/- The tag pattern takes a tag that the text begins with, and nothing else. -/
theorem tag_of_stop {p q : Place UInt16} (stop : q ∈ tag.stops p) :
    ∃ body, p.rest = 60 :: (body ++ 62 :: q.rest) ∧ body ≠ [] ∧ 62 ∉ body := by
  obtain ⟨r, opened, stop⟩ := stops_inOrder.mp stop
  obtain ⟨r', several, stop⟩ := stops_inOrder.mp stop
  obtain ⟨r'', closed, ended⟩ := stops_inOrder.mp stop
  cases stops_inOrder_nil.mp ended
  obtain ⟨u, isOpen, atOpen, -⟩ := stops_unit.mp opened
  obtain ⟨r₁, one, more⟩ := stops_seq.mp several
  obtain ⟨v, apart, atBody, -⟩ := stops_unit.mp one
  obtain ⟨taken, further, others⟩ := stops_many_unit more
  obtain ⟨w, isClose, atClose, -⟩ := stops_unit.mp closed
  simp only [decide_eq_true_eq] at isOpen apart others isClose
  refine ⟨v :: taken, ?_, by simp, ?_⟩
  · rw [atOpen, atBody, further, atClose, isOpen, isClose]
    rfl
  · intro inside
    rcases List.mem_cons.mp inside with same | later
    · exact apart same.symm
    · exact others 62 later rfl

theorem stop_of_tag {p : Place UInt16} (begins : BeginsTag p.rest) : ∃ q, q ∈ tag.stops p := by
  obtain ⟨body, after, parts, some, inside⟩ := begins
  obtain ⟨v, taken, rfl⟩ := List.exists_cons_of_ne_nil some
  rw [List.mem_cons, not_or] at inside
  obtain ⟨apart, others⟩ := inside
  have opened : ⟨Option.some 60, v :: taken ++ 62 :: after⟩ ∈ stops (unit (· = 60)) p :=
    stops_unit.mpr ⟨60, rfl, parts, rfl⟩
  have one : ⟨Option.some v, taken ++ 62 :: after⟩ ∈
      stops (unit (· ≠ 62)) ⟨Option.some 60, v :: taken ++ 62 :: after⟩ :=
    stops_unit.mpr ⟨v, by simpa using Ne.symm apart, rfl, rfl⟩
  have open_body : ∀ u ∈ taken, decide (u ≠ 62) = true := by
    intro u member
    exact decide_eq_true fun same => others (same ▸ member)
  obtain ⟨last, more⟩ := many_unit_stops (p := ⟨Option.some v, taken ++ 62 :: after⟩) rfl open_body
  have closed : ⟨Option.some 62, after⟩ ∈ stops (unit (· = 62)) ⟨last, 62 :: after⟩ :=
    stops_unit.mpr ⟨62, rfl, rfl, rfl⟩
  exact ⟨_, stops_inOrder.mpr ⟨_, opened, stops_inOrder.mpr ⟨_, stops_seq.mpr ⟨_, one, more⟩,
    stops_inOrder.mpr ⟨_, closed, stops_inOrder_nil.mpr rfl⟩⟩⟩⟩

/- Where a tag begins, the search takes something. -/
theorem begins_not_kept {last : Option UInt16} (none : ∀ q,
      (tag.stops ⟨last, u :: us⟩).head? = some q → us.length < q.rest.length) :
    ¬ BeginsTag (u :: us) := by
  intro begins
  obtain ⟨q, stop⟩ := stop_of_tag (p := ⟨last, u :: us⟩) begins
  obtain ⟨q', found⟩ := Option.isSome_iff_exists.mp
    (List.isSome_head?.mpr (List.ne_nil_of_mem stop))
  obtain ⟨body, parts, -, -⟩ := tag_of_stop (List.mem_of_mem_head? found)
  have length := congrArg List.length parts
  have kept := none q' found
  simp only [List.length_cons, List.length_append] at length
  omega

/- No tag is left where tags are removed: a < that stays has no > behind it, or has it at once. -/
theorem tags_removed (text : JsString) : ¬ HasTag (tag.removeAll text) := by
  have each : (text.head? = some 62 → (tag.removeAll text).head? = some 62) ∧
      tag.removeAll text ⊆ text ∧ ¬ HasTag (tag.removeAll text) := by
    apply removal (motive := fun p out => (p.rest.head? = some 62 → out.head? = some 62) ∧
      out ⊆ p.rest ∧ ¬ HasTag out)
    · intro last
      exact ⟨id, List.Subset.refl _, not_hasTag_nil⟩
    · intro last u rest out none ih
      obtain ⟨first, inside, free⟩ := ih
      refine ⟨id, List.cons_subset_cons u inside, ?_⟩
      rw [hasTag_cons, not_or, beginsTag_cons]
      refine ⟨?_, free⟩
      rintro ⟨rfl, closed, apart⟩
      have begins : BeginsTag (60 :: rest) :=
        beginsTag_cons.mpr ⟨rfl, inside closed, fun atOnce => apart (first atOnce)⟩
      exact begins_not_kept none begins
    · intro p q out found ih
      obtain ⟨body, parts, -, -⟩ := tag_of_stop (List.mem_of_mem_head? found)
      obtain ⟨-, inside, free⟩ := ih
      rw [parts]
      refine ⟨by simp, ?_, free⟩
      intro u member
      simp [inside member]
  exact each.2.2

/- Nor does one arise when single units are taken out that are neither < nor >. -/
theorem tag_free_filter {keeps : UInt16 → Bool} (bracket : keeps 62 = true)
    (free : ¬ HasTag text) : ¬ HasTag (text.filter keeps) := by
  induction text with
  | nil => exact free
  | cons u us ih =>
    rw [hasTag_cons, not_or, beginsTag_cons] at free
    obtain ⟨apart, free⟩ := free
    by_cases kept : keeps u = true
    · rw [List.filter_cons_of_pos kept, hasTag_cons, not_or, beginsTag_cons]
      refine ⟨?_, ih free⟩
      rintro ⟨isOpen, closed, further⟩
      apply apart
      refine ⟨isOpen, (List.mem_filter.mp closed).1, ?_⟩
      intro first
      apply further
      cases us with
      | nil => cases first
      | cons v us => cases first; rw [List.filter_cons_of_pos bracket]; rfl
    · rw [List.filter_cons_of_neg kept]
      exact ih free

theorem spelled_bracket {units : JsString} {p q : Place UInt16} (bracket : 62 ∈ units)
    (stop : q ∈ (inOrder (units.map inEitherCase)).stops p) : 62 ∈ p.rest := by
  induction units generalizing p with
  | nil => cases bracket
  | cons u units ih =>
    obtain ⟨r, first, further⟩ := stops_inOrder.mp stop
    obtain ⟨v, fits, parts, -⟩ := stops_unit.mp first
    rw [parts]
    rcases List.mem_cons.mp bracket with rfl | later
    · have same : v = 62 := by simpa using fits
      rw [same]
      exact List.mem_cons_self
    · exact List.mem_cons_of_mem v (ih later further)

/- A script element begins with a tag: an s follows its <, and it ends in a >. -/
theorem begins_of_script {p q : Place UInt16} (stop : q ∈ scriptElement.stops p) :
    BeginsTag p.rest := by
  have opening : JsString.ofString "<script" = [60, 115, 99, 114, 105, 112, 116] := by decide
  have closing : 62 ∈ JsString.ofString "</script>" := by decide
  obtain ⟨r₁, opened, stop⟩ := stops_inOrder.mp stop
  obtain ⟨r₂, bounded, stop⟩ := stops_inOrder.mp stop
  obtain ⟨r₃, begun, stop⟩ := stops_inOrder.mp stop
  obtain ⟨r₄, repeated, stop⟩ := stops_inOrder.mp stop
  obtain ⟨r₅, closed, -⟩ := stops_inOrder.mp stop
  have inside : 62 ∈ r₁.rest := by
    obtain ⟨_, parts₁⟩ := stops_behind bounded
    obtain ⟨_, parts₂⟩ := stops_behind begun
    obtain ⟨_, parts₃⟩ := stops_behind repeated
    rw [parts₁, parts₂, parts₃]
    simp [spelled_bracket closing closed]
  rw [spelled, opening] at opened
  obtain ⟨s₁, first, opened⟩ := stops_inOrder.mp opened
  obtain ⟨s₂, second, opened⟩ := stops_inOrder.mp opened
  obtain ⟨u, isOpen, atOpen, -⟩ := stops_unit.mp first
  obtain ⟨v, letter, atLetter, -⟩ := stops_unit.mp second
  obtain ⟨_, spelling⟩ := stops_behind opened
  have bracket : u = 60 := by simpa using isOpen
  have apart : v ≠ 62 := by
    rintro rfl
    simp at letter
  rw [atOpen, atLetter, spelling, beginsTag_cons]
  exact ⟨bracket, by simp [inside], by simpa using apart⟩

/- Where no tag is, nothing is taken out. -/
theorem stripped_of_free (free : ¬ HasTag text) (nulFree : 0 ∉ text) : stripped text = text := by
  have kept {pattern : Pattern UInt16}
      (begins : ∀ p q, q ∈ pattern.stops p → BeginsTag p.rest) : pattern.removeAll text = text := by
    have each : ¬ HasTag text → pattern.removeAll text = text := by
      apply removal (motive := fun p out => ¬ HasTag p.rest → out = p.rest)
      · exact fun _ _ => rfl
      · intro last u rest out _ ih free
        rw [hasTag_cons, not_or] at free
        rw [ih free.2]
      · intro p q out found _ free
        obtain ⟨body, after, parts, more⟩ := begins p q (List.mem_of_mem_head? found)
        exact absurd ⟨[], body, after, parts, more⟩ free
    exact each free
  have tagless : tag.removeAll text = text := by
    apply kept
    intro p q stop
    obtain ⟨body, parts, more⟩ := tag_of_stop stop
    exact ⟨body, q.rest, parts, more⟩
  rw [stripped, kept fun p q => begins_of_script, tagless, nul, removeAll_unit,
    List.filter_eq_self]
  intro u member
  have nonzero : u ≠ 0 := fun zero => nulFree (zero ▸ member)
  simpa using nonzero

theorem stripped_free (text : JsString) : ¬ HasTag (stripped text) ∧ 0 ∉ stripped text := by
  rw [stripped, nul, removeAll_unit]
  constructor
  · exact tag_free_filter (by decide) (tags_removed _)
  · intro member
    simpa using (List.mem_filter.mp member).2

theorem stripped_sublist (text : JsString) : (stripped text).Sublist text :=
  ((removeAll_sublist _).trans (removeAll_sublist _)).trans (removeAll_sublist _)

end Tags
section Limits
variable {options : SanitizedStringOptions} {input s : JsString}

theorem sanitizedString_ok_iff : sanitizedString options input = .ok s ↔
    s = stripped input.trim ∧
      (∀ minLength ∈ options.minLength, (lengthOf input.trim).less minLength.magnitude = false) ∧
      ∀ maxLength ∈ options.maxLength, maxLength.magnitude.less (lengthOf input.trim) = false := by
  have low : checkMinLength options input.trim = [] ↔ ∀ minLength ∈ options.minLength,
      (lengthOf input.trim).less minLength.magnitude = false := by
    unfold checkMinLength
    cases options.minLength with
    | none => simp
    | some minLength => simp
  have high : checkMaxLength options input.trim = [] ↔ ∀ maxLength ∈ options.maxLength,
      maxLength.magnitude.less (lengthOf input.trim) = false := by
    unfold checkMaxLength
    cases options.maxLength with
    | none => simp
    | some maxLength => simp
  rw [← low, ← high, ← List.append_eq_nil_iff]
  unfold sanitizedString
  dsimp only
  cases checkMinLength options input.trim ++ checkMaxLength options input.trim with
  | nil => simp [eq_comm]
  | cons issue issues => simp

end Limits

/-- What is accepted has neither a complete tag nor a NUL in it. -/
theorem sanitized_has_no_tag {options : SanitizedStringOptions} {input s : JsString}
    (accepted : sanitizedString options input = .ok s) : ¬ HasTag s ∧ 0 ∉ s := by
  rw [(sanitizedString_ok_iff.mp accepted).1]
  exact stripped_free input.trim

/-- The pieces around a tag that is taken out do not make another one. -/
theorem nested_tag_sanitized : ¬ HasTag (.ofString "a b>") ∧ 0 ∉ JsString.ofString "a b>" := by
  have accepted : sanitizedString {} (.ofString "a <<i>b>") = .ok (.ofString "a b>") := by
    decide +kernel
  exact sanitized_has_no_tag accepted

example : sanitizedString {} (.ofString "  <script>alert(\"xss\")</script><b>Hello</b> World!  ") =
    .ok (.ofString "Hello World!") := by decide +kernel

/-- The limits hold of what is returned, which begins and ends without white space, so that the
    same rule returns it as it is. -/
def KeepsLimits (minLength maxLength : JsNumeric) (input : JsString) : Prop :=
  ∀ s, sanitizedString { minLength := some minLength, maxLength := some maxLength } input = .ok s →
    (minLength.magnitude.atMost (lengthOf s) = true ∧
      (lengthOf s).atMost maxLength.magnitude = true) ∧
    s.Trimmed ∧
    sanitizedString { minLength := some minLength, maxLength := some maxLength } s = .ok s

section Kept
variable {minLength maxLength : JsNumeric} {input : JsString}

/- Given limits are kept where enough is left of the text, with no white space at its ends: the
   rule then finds nothing more to take out. -/
theorem keepsLimits_iff (ordered : minLength.magnitude.atMost maxLength.magnitude = true)
    (accepted : sanitizedString { minLength := some minLength, maxLength := some maxLength } input =
      .ok (stripped input.trim)) :
    KeepsLimits minLength maxLength input ↔
      minLength.magnitude.atMost (lengthOf (stripped input.trim)) = true ∧
        (stripped input.trim).Trimmed := by
  obtain ⟨least, most, -⟩ := Magnitude.atMost_iff.mp ordered
  have within := (sanitizedString_ok_iff.mp accepted).2.2 maxLength rfl
  constructor
  · intro kept
    obtain ⟨⟨low, -⟩, trimmed, -⟩ := kept _ accepted
    exact ⟨low, trimmed⟩
  · rintro ⟨low, trimmed⟩ s accepted'
    cases accepted.symm.trans accepted'
    have high : maxLength.magnitude.less (lengthOf (stripped input.trim)) = false := by
      have shorter := (stripped_sublist input.trim).length_le
      exact Magnitude.less_of_le (by exact_mod_cast shorter) within
    refine ⟨⟨low, Magnitude.atMost_iff.mpr ⟨by simp [lengthOf], most, high⟩⟩, trimmed, ?_⟩
    have free := stripped_free input.trim
    rw [sanitizedString_ok_iff, JsString.trim_of_trimmed trimmed, stripped_of_free free.1 free.2]
    refine ⟨rfl, ?_, ?_⟩
    · rintro _ ⟨⟩
      exact (Magnitude.atMost_iff.mp low).2.2
    · rintro _ ⟨⟩
      exact high

end Kept

/-- Limits of any kind are kept if and only if there is nothing in the text to take out. -/
theorem limits_kept_iff (input : JsString) :
    (∀ minLength maxLength : JsNumeric, minLength.magnitude.atMost maxLength.magnitude = true →
      KeepsLimits minLength maxLength input) ↔ ¬ HasTag input.trim ∧ 0 ∉ input.trim := by
  constructor
  · intro kept
    obtain ⟨length, worth⟩ := JsNumber.exists_value input.trim.length
    have full : (JsNumeric.finite length).magnitude = lengthOf input.trim := by
      rw [lengthOf, ← worth]
      rfl
    have itself : (JsNumeric.finite length).magnitude.atMost
        (JsNumeric.finite length).magnitude = true := by
      rw [full, Magnitude.atMost_iff]
      simp [lengthOf, Magnitude.less]
    have accepted : sanitizedString
        { minLength := some (.finite length), maxLength := some (.finite length) } input =
          .ok (stripped input.trim) := by
      rw [sanitizedString_ok_iff]
      simp [full, lengthOf, Magnitude.less]
    -- as much is left as there was, so that nothing was taken out
    have low := ((keepsLimits_iff itself accepted).mp (kept _ _ itself)).1
    rw [full, Magnitude.atMost_iff] at low
    have shorter : input.trim.length ≤ (stripped input.trim).length := by
      simpa [lengthOf, Magnitude.less] using low.2.2
    rw [← (stripped_sublist input.trim).eq_of_length_le shorter]
    exact stripped_free input.trim
  · intro nothing minLength maxLength ordered s accepted
    obtain ⟨same, low, -⟩ := sanitizedString_ok_iff.mp accepted
    rw [same] at accepted
    apply (keepsLimits_iff ordered accepted).mpr _ s (same ▸ accepted)
    rw [stripped_of_free nothing.1 nothing.2]
    obtain ⟨least, -, -⟩ := Magnitude.atMost_iff.mp ordered
    exact ⟨Magnitude.atMost_iff.mpr ⟨least, by simp [lengthOf], low minLength rfl⟩,
      JsString.trim_trimmed input⟩

/-- Five units, as many as are asked for; two are returned, and the last of them is a blank. -/
theorem exposed_blank_returned :
    (JsNumeric.finite (.ofDigits false [5] 1)).magnitude.atMost
        (JsNumeric.finite (.ofDigits false [1] 2)).magnitude = true ∧
      ¬ KeepsLimits (.finite (.ofDigits false [5] 1)) (.finite (.ofDigits false [1] 2))
        (.ofString "a <b>") := by
  have accepted : sanitizedString ⟨some (.finite (.ofDigits false [5] 1)),
      some (.finite (.ofDigits false [1] 2))⟩ (.ofString "a <b>") = .ok (.ofString "a ") := by
    decide +kernel
  refine ⟨by decide +kernel, ?_⟩
  intro kept
  have trimmed := (kept (.ofString "a ") accepted).2.1
  exact absurd (trimmed.2 32 rfl) (by decide)

end AstraPort.Validation
