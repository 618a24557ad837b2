import AstraPort.Foundation.JsText
import AstraPort.Foundation.QueryText
import AstraPort.Logging.Redaction

/- redactUrlParams: the loop over search parameters that removes some of them as it goes, and what
   can be read from the text it gives. -/
namespace AstraPort.Logging

/-- What the URL parser makes of a text: the path, the query with its question mark, and the pairs
    of the query. Their texts have no lone surrogates. -/
structure ParsedUrl where
  pathname : List Char
  search : List Char
  searchParams : List QueryPair

def redactedText : List Char := "[REDACTED]".toList

def setFirst (name value : List Char) : List QueryPair → List QueryPair
  | [] => []
  | pair :: pairs =>
    if pair.1 = name then (name, value) :: pairs.filter fun other => other.1 ≠ name
    else pair :: setFirst name value pairs

/-- URLSearchParams.set: the first pair of the name is changed and its others are removed. -/
def setParam (name value : List Char) (pairs : List QueryPair) : List QueryPair :=
  if pairs.any fun pair => pair.1 = name then setFirst name value pairs else pairs ++ [(name, value)]

/-- The callback of forEach. -/
def redactParam (sensitive : List Char → Bool) (pairs : List QueryPair) (key : List Char) :
    List QueryPair :=
  if sensitive key then setParam key redactedText pairs else pairs

theorem setFirst_length (name value : List Char) (pairs : List QueryPair) :
    (setFirst name value pairs).length ≤ pairs.length := by
  induction pairs with
  | nil => exact Nat.le_refl _
  | cons pair pairs ih =>
    rw [setFirst]
    split
    · exact Nat.succ_le_succ (List.length_filter_le _ _)
    · exact Nat.succ_le_succ ih

theorem redactParam_length {sensitive : List Char → Bool} {pairs : List QueryPair}
    {pair : QueryPair} (member : pair ∈ pairs) :
    (redactParam sensitive pairs pair.1).length ≤ pairs.length := by
  have found : (pairs.any fun other => other.1 = pair.1) = true :=
    List.any_eq_true.mpr ⟨pair, member, by simp⟩
  rw [redactParam]
  split
  · rw [setParam, if_pos found]
    exact setFirst_length _ _ _
  · exact Nat.le_refl _

/-- searchParams.forEach, which reads the list anew before each call. -/
def redactFrom (sensitive : List Char → Bool) (pairs : List QueryPair) (index : Nat) :
    List QueryPair :=
  if inside : index < pairs.length then
    redactFrom sensitive (redactParam sensitive pairs pairs[index].1) (index + 1)
  else pairs
termination_by pairs.length - index
decreasing_by
  have shorter : (redactParam sensitive pairs pairs[index].1).length ≤ pairs.length :=
    redactParam_length (List.getElem_mem inside)
  omega

def isSensitiveParam (casing : Casing) (key : List Char) : Bool :=
  isSensitive casing.toLowerCase defaultSensitiveKeys (unitsOf key)

/-- No text is returned but the one given where the URL parser throws. A parameter is set only
    where there is one, so the query is empty after the loop where it was before. -/
def redactUrlParams (casing : Casing) (parse : List Char → Option ParsedUrl) (url : List Char) :
    List Char :=
  match parse url with
  | none => url
  | some parsedUrl =>
    let params := redactFrom (isSensitiveParam casing) parsedUrl.searchParams 0
    let search :=
      if parsedUrl.search = [] then []
      else '?' :: replaceFirst (encodeURIComponent redactedText) redactedText (queryText params)
    parsedUrl.pathname ++ search

section Loop
variable {sensitive : List Char → Bool}

/-- The first pair of every sensitive name, with the mark for its value, and all other pairs. -/
def redactedPairs (sensitive : List Char → Bool) (seen : List (List Char)) :
    List QueryPair → List QueryPair
  | [] => []
  | pair :: pairs =>
    if sensitive pair.1 then
      if pair.1 ∈ seen then redactedPairs sensitive seen pairs
      else (pair.1, redactedText) :: redactedPairs sensitive (pair.1 :: seen) pairs
    else pair :: redactedPairs sensitive seen pairs

theorem setFirst_append {name value : List Char} {front back : List QueryPair}
    (absent : ∀ pair ∈ front, pair.1 ≠ name) :
    setFirst name value (front ++ back) = front ++ setFirst name value back := by
  induction front with
  | nil => rfl
  | cons pair front ih =>
    obtain ⟨first, rest⟩ := List.forall_mem_cons.mp absent
    rw [List.cons_append, setFirst, if_neg first, ih rest, List.cons_append]

/- One call of the callback, where no pair in front has the name. -/
theorem redactParam_here {front back : List QueryPair} {pair : QueryPair}
    (own : sensitive pair.1 = true) (absent : ∀ other ∈ front, other.1 ≠ pair.1) :
    redactParam sensitive (front ++ pair :: back) pair.1 =
      front ++ (pair.1, redactedText) :: back.filter fun other => other.1 ≠ pair.1 := by
  have found : ((front ++ pair :: back).any fun other => other.1 = pair.1) = true := by simp
  rw [redactParam, if_pos own, setParam, if_pos found, setFirst_append absent, setFirst, if_pos rfl]

/- The loop behind the pairs it is done with: the names it has set are gone from what is left, so
   removing pairs makes it skip none. -/
theorem redactFrom_append (seen : List (List Char)) (front back : List QueryPair)
    (own : ∀ name ∈ seen, sensitive name = true)
    (done : ∀ pair ∈ front, sensitive pair.1 = true → pair.1 ∈ seen) :
    redactFrom sensitive (front ++ back.filter fun pair => pair.1 ∉ seen) front.length =
      front ++ redactedPairs sensitive seen back := by
  induction back generalizing seen front with
  | nil =>
    rw [redactFrom, dif_neg (by simp), List.filter_nil, redactedPairs]
  | cons pair back ih =>
    rw [redactedPairs]
    by_cases old : pair.1 ∈ seen
    · rw [List.filter_cons_of_neg (by simpa using old), if_pos (own _ old), if_pos old]
      exact ih seen front own done
    · have inside : front.length <
          (front ++ pair :: back.filter fun other => other.1 ∉ seen).length := by simp
      rw [List.filter_cons_of_pos (by simpa using old), redactFrom, dif_pos inside]
      have here : (front ++ pair :: back.filter fun other => other.1 ∉ seen)[front.length] =
          pair := by simp
      rw [here]
      by_cases secret : sensitive pair.1 = true
      · have absent : ∀ other ∈ front, other.1 ≠ pair.1 := by
          intro other member same
          exact old (same ▸ done other member (same ▸ secret))
        rw [redactParam_here secret absent, if_pos secret, if_neg old, List.filter_filter]
        have merged : (fun other : QueryPair => decide (other.1 ≠ pair.1) && decide (other.1 ∉ seen))
            = fun other => decide (other.1 ∉ pair.1 :: seen) := by
          funext other
          simp [not_or]
        have done' : ∀ other ∈ front ++ [(pair.1, redactedText)], sensitive other.1 = true →
            other.1 ∈ pair.1 :: seen := by
          intro other member sensitive'
          obtain before | last := List.mem_append.mp member
          · exact List.mem_cons_of_mem _ (done other before sensitive')
          · rw [List.mem_singleton.mp last]
            exact List.mem_cons_self
        have rest := ih _ _ (List.forall_mem_cons.mpr ⟨secret, own⟩) done'
        rw [merged]
        simpa only [List.append_assoc, List.singleton_append, List.length_append,
          List.length_singleton] using rest
      · have done' : ∀ other ∈ front ++ [pair], sensitive other.1 = true → other.1 ∈ seen := by
          intro other member sensitive'
          obtain before | last := List.mem_append.mp member
          · exact done other before sensitive'
          · rw [List.mem_singleton.mp last] at sensitive'
            exact absurd sensitive' secret
        have rest := ih _ _ own done'
        rw [redactParam, if_neg secret, if_neg secret]
        simpa only [List.append_assoc, List.singleton_append, List.length_append,
          List.length_singleton] using rest

theorem redactFrom_eq (pairs : List QueryPair) :
    redactFrom sensitive pairs 0 = redactedPairs sensitive [] pairs := by
  have whole := @redactFrom_append sensitive [] [] pairs (by simp) (by simp)
  simpa using whole

/-- What is shown for a query: its names in their order, every sensitive one once and with the mark
    for its value, and the other pairs as they are. -/
structure ShownFor (sensitive : List Char → Bool) (pairs shown : List QueryPair) : Prop where
  names : ∀ name, name ∈ shown.map Prod.fst ↔ name ∈ pairs.map Prod.fst
  order : (shown.map Prod.fst).Sublist (pairs.map Prod.fst)
  once : ((shown.map Prod.fst).filter sensitive).Nodup
  marked : ∀ pair ∈ shown, sensitive pair.1 = true → pair.2 = redactedText
  others : (shown.filter fun pair => !sensitive pair.1) = pairs.filter fun pair => !sensitive pair.1

theorem redacted_names (seen : List (List Char)) (own : ∀ name ∈ seen, sensitive name = true)
    (pairs : List QueryPair) (name : List Char) :
    name ∈ (redactedPairs sensitive seen pairs).map Prod.fst ↔
      name ∈ pairs.map Prod.fst ∧ name ∉ seen := by
  induction pairs generalizing seen with
  | nil => simp [redactedPairs]
  | cons pair pairs ih =>
    rw [redactedPairs]
    split
    · rename_i secret
      split
      · rename_i old
        rw [ih seen own, List.map_cons, List.mem_cons]
        grind
      · rename_i fresh
        rw [List.map_cons, List.mem_cons, ih _ (List.forall_mem_cons.mpr ⟨secret, own⟩),
          List.map_cons, List.mem_cons]
        grind
    · rename_i plain
      rw [List.map_cons, List.mem_cons, ih seen own, List.map_cons, List.mem_cons]
      grind

theorem redacted_order (seen : List (List Char)) (pairs : List QueryPair) :
    ((redactedPairs sensitive seen pairs).map Prod.fst).Sublist (pairs.map Prod.fst) := by
  induction pairs generalizing seen with
  | nil => exact List.Sublist.refl _
  | cons pair pairs ih =>
    rw [redactedPairs]
    split
    · split
      · exact (ih seen).cons _
      · exact (ih _).cons_cons _
    · exact (ih seen).cons_cons _

theorem redacted_once (seen : List (List Char)) (own : ∀ name ∈ seen, sensitive name = true)
    (pairs : List QueryPair) :
    (((redactedPairs sensitive seen pairs).map Prod.fst).filter sensitive).Nodup := by
  induction pairs generalizing seen with
  | nil => exact List.nodup_nil
  | cons pair pairs ih =>
    rw [redactedPairs]
    split
    · rename_i secret
      split
      · exact ih seen own
      · have own' : ∀ name ∈ pair.1 :: seen, sensitive name = true :=
          List.forall_mem_cons.mpr ⟨secret, own⟩
        rw [List.map_cons, List.filter_cons_of_pos secret, List.nodup_cons]
        refine ⟨?_, ih _ own'⟩
        intro again
        have left := (redacted_names _ own' pairs _).mp (List.mem_filter.mp again).1
        exact left.2 List.mem_cons_self
    · rename_i plain
      rw [List.map_cons, List.filter_cons_of_neg plain]
      exact ih seen own

theorem redacted_marked (seen : List (List Char)) (pairs : List QueryPair) :
    ∀ pair ∈ redactedPairs sensitive seen pairs, sensitive pair.1 = true →
      pair.2 = redactedText := by
  induction pairs generalizing seen with
  | nil => simp [redactedPairs]
  | cons pair pairs ih =>
    rw [redactedPairs]
    split
    · split
      · exact ih seen
      · exact List.forall_mem_cons.mpr ⟨fun _ => rfl, ih _⟩
    · rename_i plain
      exact List.forall_mem_cons.mpr ⟨fun secret => absurd secret plain, ih seen⟩

theorem redacted_others (seen : List (List Char)) (pairs : List QueryPair) :
    ((redactedPairs sensitive seen pairs).filter fun pair => !sensitive pair.1) =
      pairs.filter fun pair => !sensitive pair.1 := by
  induction pairs generalizing seen with
  | nil => rfl
  | cons pair pairs ih =>
    rw [redactedPairs]
    split
    · rename_i secret
      split <;> simp [secret, ih]
    · rename_i plain
      simp [plain, ih]

theorem redacted_shownFor (pairs : List QueryPair) :
    ShownFor sensitive pairs (redactedPairs sensitive [] pairs) where
  names name := by simpa using @redacted_names sensitive [] (by simp) pairs name
  order := redacted_order [] pairs
  once := redacted_once [] (by simp) pairs
  marked := redacted_marked [] pairs
  others := redacted_others [] pairs

/-- A pair as someone sees it who is not to know the values of sensitive names. -/
def blanked (sensitive : List Char → Bool) (pair : QueryPair) : QueryPair :=
  if sensitive pair.1 then (pair.1, []) else pair

/- The marks do not depend on the values they stand for. -/
theorem redacted_blanked (seen : List (List Char)) (pairs : List QueryPair) :
    redactedPairs sensitive seen (pairs.map (blanked sensitive)) =
      redactedPairs sensitive seen pairs := by
  induction pairs generalizing seen with
  | nil => rfl
  | cons pair pairs ih =>
    by_cases secret : sensitive pair.1 = true
    · have own : blanked sensitive pair = (pair.1, []) := if_pos secret
      rw [List.map_cons, own, redactedPairs, redactedPairs, if_pos secret, if_pos secret]
      simp only [ih]
    · have own : blanked sensitive pair = pair := if_neg secret
      rw [List.map_cons, own, redactedPairs, redactedPairs, if_neg secret, if_neg secret, ih]

end Loop

theorem mark_encoded : encodeURIComponent redactedText = "%5BREDACTED%5D".toList := by decide

/- The first mark is written without escapes, and reads the same. -/
theorem shown_query (pairs : List QueryPair) :
    readQuery (replaceFirst (encodeURIComponent redactedText) redactedText (queryText pairs)) =
      pairs := by
  have plainMark : Encoded redactedText := by
    apply Encoded.plain (by decide)
    repeat apply Encoded.plain (by decide)
    exact .nil
  have escaped : (encodeURIComponent redactedText).head? = some '%' := by decide
  have same : querySymbols redactedText = querySymbols (encodeURIComponent redactedText) := by
    decide
  have symbols := symbols_replaceFirst (Encoded.query pairs) escaped (Encoded.component _)
    plainMark same
  rw [readQuery, symbols]
  exact readQuery_queryText pairs

section Urls
variable {casing : Casing} {parse : List Char → Option ParsedUrl}

theorem redactUrl_parsed {url : List Char} {parsedUrl : ParsedUrl}
    (parsed : parse url = some parsedUrl) :
    redactUrlParams casing parse url = parsedUrl.pathname ++
      if parsedUrl.search = [] then [] else '?' :: replaceFirst (encodeURIComponent redactedText)
        redactedText (queryText (redactedPairs (isSensitiveParam casing) []
          parsedUrl.searchParams)) := by
  rw [redactUrlParams, parsed]
  simp only [redactFrom_eq]

/-- The text that is logged for a URL with a query is its path and a query, in which a reader finds
    what is to be shown of the query. -/
theorem logged_url_read {url : List Char} {parsedUrl : ParsedUrl}
    (parsed : parse url = some parsedUrl) (queried : parsedUrl.search ≠ []) :
    ∃ query, redactUrlParams casing parse url = parsedUrl.pathname ++ '?' :: query ∧
      ShownFor (isSensitiveParam casing) parsedUrl.searchParams (readQuery query) := by
  rw [redactUrl_parsed parsed, if_neg queried]
  refine ⟨_, rfl, ?_⟩
  rw [shown_query]
  exact redacted_shownFor _

/-- What the URL parser makes of a path without dots and escapes and of a query. -/
def parsePlain (url : List Char) : Option ParsedUrl :=
  some {
    pathname := url.takeWhile (· ≠ '?')
    search := url.dropWhile (· ≠ '?')
    searchParams := readQuery ((url.dropWhile (· ≠ '?')).drop 1) }

theorem login_url_read : ∃ query,
    redactUrlParams asciiCasing parsePlain "/login?user=ann&Token=a&page=1&Token=b".toList =
      "/login".toList ++ '?' :: query ∧ ShownFor (isSensitiveParam asciiCasing)
        (readQuery "user=ann&Token=a&page=1&Token=b".toList) (readQuery query) :=
  @logged_url_read asciiCasing parsePlain _ _ rfl (by decide)

/-- Two URLs that differ in the values of sensitive parameters only are logged alike. -/
theorem url_secrets_hidden {url other : List Char} {parsedUrl parsedOther : ParsedUrl}
    (parsed : parse url = some parsedUrl) (parsed' : parse other = some parsedOther)
    (path : parsedUrl.pathname = parsedOther.pathname)
    (queried : parsedUrl.search = [] ↔ parsedOther.search = [])
    (pairs : parsedUrl.searchParams.map (blanked (isSensitiveParam casing)) =
      parsedOther.searchParams.map (blanked (isSensitiveParam casing))) :
    redactUrlParams casing parse url = redactUrlParams casing parse other := by
  have shown := @redacted_blanked (isSensitiveParam casing) [] parsedUrl.searchParams
  rw [pairs, redacted_blanked] at shown
  rw [redactUrl_parsed parsed, redactUrl_parsed parsed', path, shown]
  simp only [queried]

theorem login_tokens_hidden :
    redactUrlParams asciiCasing parsePlain "/login?user=ann&Token=a".toList =
      redactUrlParams asciiCasing parsePlain "/login?user=ann&Token=b".toList :=
  @url_secrets_hidden asciiCasing parsePlain _ _ _ _ rfl rfl (by decide) (by decide) (by decide)

end Urls
end AstraPort.Logging
