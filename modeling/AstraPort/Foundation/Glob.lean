import Mathlib.Data.List.Basic
import Mathlib.Data.List.Forall2
import Mathlib.Data.List.Infix

/- Glob patterns as Redis reads them: * stands for any characters, ? for any one, [ ] for one
   of a set or, behind ^, for one outside it, and \ takes the next character as it is. -/
namespace AstraPort.Glob

inductive Token where
  | star
  | any
  | one (c : Char)
  | set (negated : Bool) (ranges : List (Char × Char))
  deriving DecidableEq

/-- What a bracket lists, up to the closing one or the end, and the pattern behind it. -/
def readSet : List Char → List (Char × Char) × List Char
  | [] => ([], [])
  | '\\' :: c :: rest => ((c, c) :: (readSet rest).1, (readSet rest).2)
  | ']' :: rest => ([], rest)
  | low :: '-' :: high :: rest => ((low, high) :: (readSet rest).1, (readSet rest).2)
  | c :: rest => ((c, c) :: (readSet rest).1, (readSet rest).2)

/-- The length of the pattern is fuel enough. -/
def parseFrom : Nat → List Char → List Token
  | 0, _ => []
  | _ + 1, [] => []
  | fuel + 1, '*' :: rest => .star :: parseFrom fuel rest
  | fuel + 1, '?' :: rest => .any :: parseFrom fuel rest
  | fuel + 1, '\\' :: c :: rest => .one c :: parseFrom fuel rest
  | fuel + 1, '[' :: '^' :: rest => .set true (readSet rest).1 :: parseFrom fuel (readSet rest).2
  | fuel + 1, '[' :: rest => .set false (readSet rest).1 :: parseFrom fuel (readSet rest).2
  | fuel + 1, c :: rest => .one c :: parseFrom fuel rest

def parse (pattern : List Char) : List Token := parseFrom pattern.length pattern

/-- Whether a token takes a single character; the ends of a range may be swapped. -/
def Token.accepts : Token → Char → Bool
  | .star, _ => false
  | .any, _ => true
  | .one d, c => decide (c = d)
  | .set negated ranges, c =>
    (ranges.any fun r => decide (min r.1.toNat r.2.toNat ≤ c.toNat ∧
      c.toNat ≤ max r.1.toNat r.2.toNat)) != negated

def matchTokens : List Token → List Char → Bool
  | [], text => text.isEmpty
  | .star :: tokens, text => text.tails.any (matchTokens tokens)
  | _ :: _, [] => false
  | token :: tokens, c :: rest => token.accepts c && matchTokens tokens rest

def globMatches (pattern text : List Char) : Bool := matchTokens (parse pattern) text

example : globMatches "h[^e-l]l*".toList "hallo".toList = true := by decide +kernel
example : globMatches "h[^e]llo".toList "hello".toList = false := by decide +kernel

section Reading

theorem readSet_length (pattern : List Char) : (readSet pattern).2.length ≤ pattern.length := by
  fun_induction readSet pattern with
  | case1 => simp
  | case2 c rest ih => simp only [List.length_cons]; omega
  | case3 rest => simp
  | case4 low high rest ih => simp only [List.length_cons]; omega
  | case5 c rest ih => simp only [List.length_cons]; omega

/- A set takes something away from the pattern. -/
theorem readSet_shorter {pattern : List Char} (some_left : pattern ≠ []) :
    (readSet pattern).2.length < pattern.length := by
  fun_cases readSet pattern with
  | case1 => exact absurd rfl some_left
  | case2 c rest =>
    have := readSet_length rest
    simp only [List.length_cons]
    omega
  | case3 rest => simp
  | case4 low high rest =>
    have := readSet_length rest
    simp only [List.length_cons]
    omega
  | case5 c rest =>
    have := readSet_length rest
    simp only [List.length_cons]
    omega

theorem parseFrom_length (fuel : Nat) (pattern : List Char) :
    (parseFrom fuel pattern).length ≤ pattern.length := by
  fun_induction parseFrom fuel pattern with
  | case1 => simp
  | case2 => simp
  | case3 fuel rest ih => simpa using ih
  | case4 fuel rest ih => simpa using ih
  | case5 fuel c rest ih => simp only [List.length_cons]; omega
  | case6 fuel rest ih =>
    have := readSet_length rest
    simp only [List.length_cons]
    omega
  | case7 fuel rest _ ih =>
    have := readSet_length rest
    simp only [List.length_cons]
    omega
  | case8 fuel c rest _ _ _ _ _ ih => simpa using ih

/-- A character outside brackets and not behind a backslash. -/
def plainToken (c : Char) : Token :=
  if c = '*' then .star else if c = '?' then .any else .one c

theorem parseFrom_plain (fuel : Nat) {c : Char} (rest : List Char) (bracket : c ≠ '[')
    (backslash : c ≠ '\\') :
    parseFrom (fuel + 1) (c :: rest) = plainToken c :: parseFrom fuel rest := by
  by_cases star : c = '*'
  · rw [star, parseFrom, plainToken, if_pos rfl]
  · by_cases any : c = '?'
    · rw [any, parseFrom, plainToken, if_neg (by decide), if_pos rfl]
    · rw [plainToken, if_neg star, if_neg any, parseFrom]
      all_goals simp_all

theorem parse_plain {pattern : List Char} (plain : ∀ c ∈ pattern, c ≠ '[' ∧ c ≠ '\\') :
    parse (pattern ++ ['*']) = pattern.map plainToken ++ [.star] := by
  have parsed : ∀ fuel, pattern.length < fuel →
      parseFrom fuel (pattern ++ ['*']) = pattern.map plainToken ++ [.star] := by
    induction pattern with
    | nil =>
      intro fuel enough
      cases fuel with
      | zero => simp at enough
      | succ fuel => cases fuel <;> rfl
    | cons c rest ih =>
      intro fuel enough
      obtain ⟨first, more⟩ := List.forall_mem_cons.mp plain
      cases fuel with
      | zero => simp at enough
      | succ fuel =>
        rw [List.cons_append, parseFrom_plain fuel _ first.1 first.2,
          ih more fuel (by simpa using enough)]
        rfl
  exact parsed _ (by simp)

/- Brackets and escapes make one token of two characters at least. -/
theorem parseFrom_bracket (fuel : Nat) {rest : List Char} (some_left : rest ≠ []) :
    (parseFrom (fuel + 1) ('[' :: rest)).length ≤ rest.length := by
  cases rest with
  | nil => exact absurd rfl some_left
  | cons c more =>
    by_cases caret : c = '^'
    · rw [caret, parseFrom]
      have := parseFrom_length fuel (readSet more).2
      have := readSet_length more
      simp only [List.length_cons]
      omega
    · rw [parseFrom.eq_7 _ _ (by simpa using caret)]
      have := parseFrom_length fuel (readSet (c :: more)).2
      have := readSet_shorter some_left
      simp only [List.length_cons] at this ⊢
      omega

theorem parseFrom_escape (fuel : Nat) {rest : List Char} (some_left : rest ≠ []) :
    (parseFrom (fuel + 1) ('\\' :: rest)).length ≤ rest.length := by
  cases rest with
  | nil => exact absurd rfl some_left
  | cons c more =>
    rw [parseFrom]
    have := parseFrom_length fuel more
    simp only [List.length_cons]
    omega

/- A pattern with as many tokens as characters has no brackets and no escapes. -/
theorem plain_of_length (pattern : List Char) (fuel : Nat)
    (whole : pattern.length < (parseFrom fuel (pattern ++ ['*'])).length) :
    ∀ c ∈ pattern, c ≠ '[' ∧ c ≠ '\\' := by
  induction pattern generalizing fuel with
  | nil => simp
  | cons c rest ih =>
    cases fuel with
    | zero => simp [parseFrom] at whole
    | succ fuel =>
      have some_left : rest ++ ['*'] ≠ [] := by simp
      by_cases bracket : c = '['
      · rw [bracket, List.cons_append] at whole
        have short := parseFrom_bracket fuel some_left
        simp only [List.length_cons, List.length_append, List.length_nil] at whole short
        omega
      · by_cases backslash : c = '\\'
        · rw [backslash, List.cons_append] at whole
          have short := parseFrom_escape fuel some_left
          simp only [List.length_cons, List.length_append, List.length_nil] at whole short
          omega
        · rw [List.cons_append, parseFrom_plain fuel _ bracket backslash] at whole
          exact List.forall_mem_cons.mpr ⟨⟨bracket, backslash⟩, ih fuel (by simpa using whole)⟩

end Reading

section Matching
variable {tokens : List Token} {text : List Char}

theorem matchTokens_star : matchTokens (.star :: tokens) text = true ↔
    ∃ skipped rest, text = skipped ++ rest ∧ matchTokens tokens rest = true := by
  rw [matchTokens, List.any_eq_true]
  constructor
  · rintro ⟨rest, suffix, found⟩
    obtain ⟨skipped, split⟩ := (List.mem_tails _ _).mp suffix
    exact ⟨skipped, rest, split.symm, found⟩
  · rintro ⟨skipped, rest, rfl, found⟩
    exact ⟨rest, (List.mem_tails _ _).mpr (List.suffix_append skipped rest), found⟩

/- A star takes any more characters. -/
theorem matchTokens_absorbs (more : List Char)
    (found : matchTokens (.star :: tokens) text = true) :
    matchTokens (.star :: tokens) (more ++ text) = true := by
  obtain ⟨skipped, rest, rfl, behind⟩ := matchTokens_star.mp found
  exact matchTokens_star.mpr ⟨more ++ skipped, rest, by simp, behind⟩

theorem matchTokens_trailing : matchTokens [.star] text = true :=
  matchTokens_star.mpr ⟨text, [], by simp, rfl⟩

theorem matchTokens_single {token : Token} (single : token ≠ .star) :
    matchTokens (token :: tokens) text = true ↔ ∃ c rest, text = c :: rest ∧
      token.accepts c = true ∧ matchTokens tokens rest = true := by
  cases text with
  | nil => cases token <;> simp_all [matchTokens]
  | cons c rest =>
    have one : matchTokens (token :: tokens) (c :: rest) =
        (token.accepts c && matchTokens tokens rest) := by
      cases token with
      | star => exact absurd rfl single
      | _ => rfl
    rw [one, Bool.and_eq_true]
    constructor
    · intro both
      exact ⟨c, rest, rfl, both⟩
    · rintro ⟨c', rest', same, both⟩
      cases same
      exact both

def Accepted (front : List Token) (left : List Char) : Prop :=
  List.Forall₂ (fun token c => token.accepts c = true) front left

/- Tokens before the first star take one character each. -/
theorem matchTokens_front {front back : List Token} (single : .star ∉ front) :
    matchTokens (front ++ back) text = true ↔ ∃ left right, text = left ++ right ∧
      Accepted front left ∧ matchTokens back right = true := by
  induction front generalizing text with
  | nil => simp [Accepted, List.forall₂_nil_left_iff]
  | cons token front ih =>
    obtain ⟨first, more⟩ := List.ne_and_not_mem_of_not_mem_cons single
    rw [List.cons_append, matchTokens_single (Ne.symm first)]
    constructor
    · rintro ⟨c, rest, rfl, taken, behind⟩
      obtain ⟨left, right, rfl, accepted, found⟩ := (ih more).mp behind
      exact ⟨c :: left, right, rfl, List.Forall₂.cons taken accepted, found⟩
    · rintro ⟨left, right, rfl, accepted, found⟩
      cases accepted with
      | cons taken accepted =>
        exact ⟨_, _, rfl, taken, (ih more).mpr ⟨_, _, rfl, accepted, found⟩⟩

/- Without a star, the length of what matches is fixed. -/
theorem matchTokens_length (single : .star ∉ tokens) (found : matchTokens tokens text = true) :
    text.length = tokens.length := by
  rw [← List.append_nil tokens] at found
  obtain ⟨left, right, rfl, accepted, rest⟩ := (matchTokens_front single).mp found
  have empty : right = [] := by simpa [matchTokens] using rest
  rw [empty, List.append_nil]
  exact accepted.length_eq.symm

theorem plainToken_accepts {c : Char} (star : c ≠ '*') : (plainToken c).accepts c = true := by
  unfold plainToken
  rw [if_neg star]
  split <;> simp [Token.accepts]

theorem plainToken_star {c : Char} : plainToken c = .star ↔ c = '*' := by
  unfold plainToken
  split
  · simp_all
  · split <;> simp_all

end Matching

section Prefixes
variable {front text : List Char}

/- A pattern that goes on behind a prefix of its own texts: characters with a meaning of
   their own spoil it, save for a question mark in the part that every text has. -/
def FitsPrefix (front text : List Char) : Prop :=
  if text = [] then ∀ rest, globMatches (front ++ ['*']) (front ++ rest) = true
  else (∀ c ∈ text, c ∉ ['*', '?', '[', '\\']) ∧ ∀ c ∈ front, c ∉ ['*', '[', '\\']

theorem matchTokens_own (star : ∀ c ∈ front, c ≠ '*') {tokens : List Token} {rest : List Char} :
    matchTokens (front.map plainToken ++ tokens) (front ++ rest) = true ↔
      matchTokens tokens rest = true := by
  induction front with
  | nil => rfl
  | cons c front ih =>
    obtain ⟨first, more⟩ := List.forall_mem_cons.mp star
    rw [List.map_cons, List.cons_append, List.cons_append,
      matchTokens_single (mt plainToken_star.mp first)]
    constructor
    · rintro ⟨c', rest', same, _, found⟩
      cases same
      exact (ih more).mp found
    · intro found
      exact ⟨c, _, rfl, plainToken_accepts first, (ih more).mpr found⟩

theorem matchTokens_literal (literal : ∀ c ∈ text, c ≠ '*' ∧ c ≠ '?') {rest : List Char} :
    matchTokens (text.map plainToken ++ [.star]) rest = true ↔ text <+: rest := by
  induction text generalizing rest with
  | nil => exact iff_of_true matchTokens_trailing (List.nil_prefix)
  | cons c text ih =>
    obtain ⟨first, more⟩ := List.forall_mem_cons.mp literal
    have token : plainToken c = .one c := by rw [plainToken, if_neg first.1, if_neg first.2]
    rw [List.map_cons, List.cons_append, token, matchTokens_single (by simp)]
    constructor
    · rintro ⟨c', rest', rfl, taken, found⟩
      rw [of_decide_eq_true taken]
      exact List.cons_prefix_cons.mpr ⟨rfl, (ih more).mp found⟩
    · intro starts
      obtain ⟨rest', rfl⟩ := starts
      exact ⟨c, text ++ rest', rfl, by simp [Token.accepts],
        (ih more).mpr (List.prefix_append text rest')⟩

theorem agreement_of_fits (some_text : text ≠ []) (fits : FitsPrefix front text)
    (rest : List Char) :
    globMatches (front ++ text ++ ['*']) (front ++ rest) = true ↔ text <+: rest := by
  rw [FitsPrefix, if_neg some_text] at fits
  obtain ⟨inside, before⟩ := fits
  have plain : ∀ c ∈ front ++ text, c ≠ '[' ∧ c ≠ '\\' := by
    intro c member
    rcases List.mem_append.mp member with first | second
    · have := before c first
      simp_all
    · have := inside c second
      simp_all
  rw [globMatches, parse_plain plain, List.map_append, List.append_assoc, matchTokens_own,
    matchTokens_literal]
  · intro c member
    have := inside c member
    simp_all
  · intro c member
    have := before c member
    simp_all

/- Two different characters. -/
theorem other_char (c : Char) : ∃ x : Char, x ≠ c := by
  by_cases same : c = 'a'
  · exact ⟨'b', by rw [same]; decide⟩
  · exact ⟨'a', Ne.symm same⟩

theorem star_among (tokens : List Token)
    (agree : ∀ rest, matchTokens tokens (front ++ rest) = true ↔ text <+: rest) :
    .star ∈ tokens := by
  by_contra single
  have shorter := matchTokens_length single ((agree text).mpr (List.prefix_refl text))
  have longer := matchTokens_length single ((agree (text ++ ['a'])).mpr (List.prefix_append text _))
  simp only [List.length_append, List.length_cons, List.length_nil] at shorter longer
  omega

/- The first star stands behind as many tokens as the prefix has characters; otherwise a text
   that leaves the prefix at its last character would match too. -/
theorem star_behind {before after : List Token} (single : .star ∉ before) (some_text : text ≠ [])
    (agree : ∀ rest, matchTokens (before ++ .star :: after) (front ++ rest) = true ↔ text <+: rest) :
    (front ++ text).length ≤ before.length := by
  by_contra short
  have found := (agree text).mpr (List.prefix_refl text)
  obtain ⟨left, right, split, accepted, behind⟩ := (matchTokens_front single).mp found
  have length : before.length = left.length := accepted.length_eq
  obtain ⟨text', last, rfl⟩ := (List.eq_nil_or_concat' text).resolve_left some_text
  obtain ⟨x, other⟩ := other_char last
  have within : left <+: front ++ text' := by
    refine List.prefix_of_prefix_length_le (List.prefix_append left right) ?_ ?_
    · rw [← split, ← List.append_assoc]
      exact List.prefix_append _ _
    · simp only [List.length_append, List.length_cons, List.length_nil] at short ⊢
      omega
  obtain ⟨middle, front_split⟩ := within
  have strayed : front ++ (text' ++ x :: right) = left ++ (middle ++ [x] ++ right) := by
    rw [← List.append_assoc, ← front_split]
    simp
  have also := (agree (text' ++ x :: right)).mp (by
    rw [strayed]
    exact (matchTokens_front single).mpr
      ⟨left, _, rfl, accepted, matchTokens_absorbs (middle ++ [x]) behind⟩)
  rw [List.prefix_append_right_inj, List.cons_prefix_cons] at also
  exact other also.1.symm

theorem fits_of_agreement (some_text : text ≠ [])
    (agree : ∀ rest, globMatches (front ++ text ++ ['*']) (front ++ rest) = true ↔ text <+: rest) :
    FitsPrefix front text := by
  rw [FitsPrefix, if_neg some_text]
  unfold globMatches at agree
  obtain ⟨before, after, split, single⟩ := List.eq_append_cons_of_mem (star_among _ agree)
  have enough := star_behind single some_text (by rw [← split]; exact agree)
  have most := parseFrom_length (front ++ text ++ ['*']).length (front ++ text ++ ['*'])
  rw [← parse, split] at most
  -- as many tokens as characters, so every character is its own token
  have whole : (front ++ text).length < (parse (front ++ text ++ ['*'])).length := by
    rw [split]
    simp only [List.length_append, List.length_cons] at enough ⊢
    omega
  have plain := plain_of_length (front ++ text) _ whole
  have tokens := parse_plain plain
  rw [split] at tokens
  have same_length : before.length = ((front ++ text).map plainToken).length := by
    simp only [List.length_append, List.length_cons, List.length_map, List.length_nil] at most enough ⊢
    omega
  obtain ⟨before_eq, after_eq⟩ := List.append_inj tokens same_length
  have star : ∀ c ∈ front ++ text, c ≠ '*' := by
    rintro c member rfl
    rw [before_eq] at single
    exact single (List.mem_map.mpr ⟨'*', member, rfl⟩)
  constructor
  · intro c member
    have bracket := plain c (List.mem_append_right front member)
    have any : c ≠ '?' := by
      rintro rfl
      obtain ⟨left, right, rfl⟩ := List.append_of_mem member
      obtain ⟨x, other⟩ := other_char '?'
      have around : ∀ c ∈ front ++ left, c ≠ '*' := by
        intro c inside
        exact star c (by rw [← List.append_assoc]; exact List.mem_append_left _ inside)
      have behind : ∀ c ∈ right, c ≠ '*' := by
        intro c inside
        exact star c (by simp [inside])
      have taken : matchTokens (before ++ .star :: after) (front ++ (left ++ x :: right)) = true := by
        rw [before_eq, after_eq, ← List.append_assoc, ← List.append_assoc, List.map_append,
          List.append_assoc, matchTokens_own around]
        have rest : matchTokens (right.map plainToken ++ [.star]) (right ++ []) = true :=
          (matchTokens_own behind).mpr matchTokens_trailing
        rw [List.append_nil] at rest
        exact (matchTokens_single (by decide)).mpr ⟨x, right, rfl, rfl, rest⟩
      rw [← split, agree, List.prefix_append_right_inj, List.cons_prefix_cons] at taken
      exact other taken.1.symm
    simp [bracket.1, bracket.2, any, star c (List.mem_append_right front member)]
  · intro c member
    have bracket := plain c (List.mem_append_left text member)
    simp [bracket.1, bracket.2, star c (List.mem_append_left text member)]

end Prefixes
end AstraPort.Glob
