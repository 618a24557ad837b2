import AstraPort.Foundation.JsText
import AstraPort.Monitoring.Interceptor

/- TracingService and the tracing part of MetricsInterceptor: W3C traceparent headers, read from a
   request and written to its response. Texts of headers are sequences of UTF-16 units. -/
namespace AstraPort.Monitoring

/-- What crypto.randomBytes returns. -/
abbrev RandomBytes (size : Nat) := { bytes : List UInt8 // bytes.length = size }

def hexDigit (n : Nat) : UInt16 := UInt16.ofNat (if n < 10 then 48 + n else 87 + n)

/-- Buffer.toString("hex"). -/
def hexText (bytes : List UInt8) : JsString :=
  bytes.flatMap fun b => [hexDigit (b.toNat / 16), hexDigit (b.toNat % 16)]

def generateTraceId (bytes : RandomBytes 16) : JsString := hexText bytes.val

def generateSpanId (bytes : RandomBytes 8) : JsString := hexText bytes.val

/-- The ids a header carries; both or none. -/
structure TraceContext where
  traceId : Option JsString
  parentSpanId : Option JsString
  deriving DecidableEq

def dash : UInt16 := 45

/-- The parts of a header between its dashes; those behind the fourth are ignored, and so is what
    the fourth says. -/
def readParts : List JsString → TraceContext
  | version :: traceId :: parentSpanId :: _ :: _ =>
    if version = JsString.ofString "00" ∧ traceId.length = 32 ∧ parentSpanId.length = 16 then
      ⟨some traceId, some parentSpanId⟩
    else ⟨none, none⟩
  | _ => ⟨none, none⟩

def parseTraceparent : Option JsString → TraceContext
  | none => ⟨none, none⟩
  | some traceparent =>
    if traceparent = [] then ⟨none, none⟩
    else readParts ((JsString.trim traceparent).splitOn dash)

def formatTraceparent (traceId spanId : JsString) : JsString :=
  JsString.ofString "00" ++ dash :: (traceId ++ dash :: (spanId ++ dash :: JsString.ofString "01"))

inductive SpanKind where
  | server
  | client
  | internal
  deriving DecidableEq

structure SpanOptions where
  traceId : Option JsString
  parentSpanId : Option JsString
  kind : Option SpanKind
  attributes : List (String × String)

/-- A span that has been started: no status is set and no events are added yet. -/
structure TraceSpan where
  traceId : JsString
  spanId : JsString
  parentSpanId : Option JsString
  name : String
  kind : SpanKind
  startTimeMs : Int
  attributes : List (String × String)
  deriving DecidableEq

def startSpan (name : String) (options : SpanOptions) (traceBytes : RandomBytes 16)
    (spanBytes : RandomBytes 8) (now : Int) : TraceSpan where
  traceId :=
    match options.traceId with
    | none => generateTraceId traceBytes
    | some traceId => if traceId = [] then generateTraceId traceBytes else traceId
  spanId := generateSpanId spanBytes
  parentSpanId := options.parentSpanId
  name := name
  kind := options.kind.getD .server
  startTimeMs := now
  attributes := options.attributes

structure TracedRequest extends HttpRequest where
  traceparent : Option JsString
  xTraceId : Option JsString
  userAgent : Option String
  deriving DecidableEq

structure TraceHeaders where
  xTraceId : JsString
  xSpanId : JsString
  traceparent : JsString
  deriving DecidableEq

namespace TracedRequest

/-- The traceparent header, or x-trace-id when there is none or it is empty. -/
def traceparentHeader (request : TracedRequest) : Option JsString :=
  match request.traceparent with
  | none => request.xTraceId
  | some header => if header = [] then request.xTraceId else some header

def span (request : TracedRequest) (traceBytes : RandomBytes 16) (spanBytes : RandomBytes 8)
    (now : Int) : TraceSpan :=
  let context := parseTraceparent request.traceparentHeader
  startSpan (request.verb ++ " " ++ request.path)
    { traceId := context.traceId
      parentSpanId := context.parentSpanId
      kind := some .server
      attributes :=
        [("http.method", request.verb), ("http.url", request.url), ("http.target", request.path),
         ("user_agent", orElse (request.userAgent.getD "") "unknown")] }
    traceBytes spanBytes now

end TracedRequest

/-- The trace headers set on the response. -/
def TraceSpan.headers (span : TraceSpan) : TraceHeaders where
  xTraceId := span.traceId
  xSpanId := span.spanId
  traceparent := formatTraceparent span.traceId span.spanId

def isHexDigit (u : UInt16) : Bool :=
  decide (48 ≤ u.toNat ∧ u.toNat ≤ 57 ∨ 97 ≤ u.toNat ∧ u.toNat ≤ 102 ∨
    65 ≤ u.toNat ∧ u.toNat ≤ 70)

def isLowerHexDigit (u : UInt16) : Bool :=
  decide (48 ≤ u.toNat ∧ u.toNat ≤ 57 ∨ 97 ≤ u.toNat ∧ u.toNat ≤ 102)

/-- Lower-case hex digits that are not all zero. -/
structure HexId (id : JsString) : Prop where
  digits : ∀ u ∈ id, isLowerHexDigit u = true
  nonzero : ∃ u ∈ id, u ≠ 48

structure Flags (flags : JsString) : Prop where
  two : flags.length = 2
  digits : ∀ u ∈ flags, isHexDigit u = true

/-- The grammar of version 00: a text and the ids it carries. -/
inductive W3CTraceparent : JsString → JsString → JsString → Prop where
  | version00 {traceId parentSpanId flags : JsString} (long : traceId.length = 32)
      (traced : HexId traceId) (short : parentSpanId.length = 16) (parent : HexId parentSpanId)
      (flagged : Flags flags) :
      W3CTraceparent (JsString.ofString "00" ++
        dash :: (traceId ++ dash :: (parentSpanId ++ dash :: flags))) traceId parentSpanId

/-- The parser accepts a header exactly when it follows the grammar, and returns its ids. -/
structure ParsesExactly (header : JsString) : Prop where
  accepts : ∀ traceId parentSpanId,
    parseTraceparent (some header) = ⟨some traceId, some parentSpanId⟩ ↔
      W3CTraceparent (JsString.trim header) traceId parentSpanId
  rejects : (∀ traceId parentSpanId, ¬ W3CTraceparent (JsString.trim header) traceId parentSpanId) →
    parseTraceparent (some header) = ⟨none, none⟩

/-- What the parser leaves unchecked is in order: in a header of four or more parts, the first 00
    and the next two of the lengths of ids, these are ids, the fourth is two hex digits, and there
    is no fifth. -/
def UncheckedInOrder (header : JsString) : Prop :=
  ∀ traceId parentSpanId flags rest,
    (JsString.trim header).splitOn dash =
      JsString.ofString "00" :: traceId :: parentSpanId :: flags :: rest →
    traceId.length = 32 → parentSpanId.length = 16 →
    HexId traceId ∧ HexId parentSpanId ∧ Flags flags ∧ rest = []

theorem hexDigit_lower : ∀ n < 16, isLowerHexDigit (hexDigit n) = true := by decide

theorem hexDigit_zero : ∀ n < 16, hexDigit n = 48 → n = 0 := by decide

theorem lower_not_dash {u : UInt16} (lower : isLowerHexDigit u = true) : u ≠ dash := by
  rintro rfl
  exact absurd lower (by decide)

theorem hex_not_dash {u : UInt16} (hex : isHexDigit u = true) : u ≠ dash := by
  rintro rfl
  exact absurd hex (by decide)

theorem hexText_length (bytes : List UInt8) : (hexText bytes).length = 2 * bytes.length := by
  induction bytes with
  | nil => rfl
  | cons b rest ih =>
    have step : hexText (b :: rest) =
        hexDigit (b.toNat / 16) :: hexDigit (b.toNat % 16) :: hexText rest := rfl
    rw [step, List.length_cons, List.length_cons, List.length_cons, ih]
    omega

theorem hexText_digits (bytes : List UInt8) : ∀ u ∈ hexText bytes, isLowerHexDigit u = true := by
  intro u member
  obtain ⟨b, -, digit⟩ := List.mem_flatMap.mp member
  have small := b.toNat_lt
  simp only [List.mem_cons, List.not_mem_nil, or_false] at digit
  rcases digit with rfl | rfl
  · exact hexDigit_lower _ (by omega)
  · exact hexDigit_lower _ (by omega)

/- An id is all zeros only when all its bytes are. -/
theorem hexText_nonzero (bytes : List UInt8) :
    (∃ u ∈ hexText bytes, u ≠ 48) ↔ ∃ b ∈ bytes, b ≠ 0 := by
  constructor
  · intro holds
    obtain ⟨u, member, nonzero⟩ := holds
    obtain ⟨b, inside, digit⟩ := List.mem_flatMap.mp member
    refine ⟨b, inside, ?_⟩
    rintro rfl
    simp only [List.mem_cons, List.not_mem_nil, or_false] at digit
    rcases digit with rfl | rfl
    · exact nonzero rfl
    · exact nonzero rfl
  · intro holds
    obtain ⟨b, inside, nonzero⟩ := holds
    by_contra all_zero
    simp only [not_exists, not_and, not_not] at all_zero
    have small := b.toNat_lt
    have high := hexDigit_zero _ (by omega) (all_zero _ (List.mem_flatMap.mpr ⟨b, inside,
      List.mem_cons_self⟩))
    have low := hexDigit_zero (b.toNat % 16) (by omega) (all_zero _ (List.mem_flatMap.mpr ⟨b, inside,
      List.mem_cons_of_mem _ List.mem_cons_self⟩))
    apply nonzero
    rw [← UInt8.toNat_inj]
    have zero : b.toNat = 0 := by omega
    exact zero

/- Four parts without dashes are read back. -/
theorem split_four {version traceId parentSpanId flags : JsString} (noVersion : dash ∉ version)
    (noTrace : dash ∉ traceId) (noParent : dash ∉ parentSpanId) (noFlags : dash ∉ flags) :
    (version ++ dash :: (traceId ++ dash :: (parentSpanId ++ dash :: flags))).splitOn dash =
      [version, traceId, parentSpanId, flags] := by
  rw [List.splitOn_append_cons_self_of_not_mem noVersion,
    List.splitOn_append_cons_self_of_not_mem noTrace,
    List.splitOn_append_cons_self_of_not_mem noParent, List.splitOn_eq_singleton noFlags]

theorem split_traceparent {text traceId parentSpanId : JsString}
    (follows : W3CTraceparent text traceId parentSpanId) :
    traceId.length = 32 ∧ parentSpanId.length = 16 ∧ HexId traceId ∧ HexId parentSpanId ∧
      ∃ flags, Flags flags ∧
        text.splitOn dash = [JsString.ofString "00", traceId, parentSpanId, flags] := by
  cases follows with
  | @version00 _ _ flags long traced short parent flagged =>
    refine ⟨long, short, traced, parent, flags, flagged, split_four (by decide) ?_ ?_ ?_⟩
    · exact fun inside => lower_not_dash (traced.digits dash inside) rfl
    · exact fun inside => lower_not_dash (parent.digits dash inside) rfl
    · exact fun inside => hex_not_dash (flagged.digits dash inside) rfl

/- Parsing is reading the parts, of an empty header too. -/
theorem parseTraceparent_parts (header : JsString) :
    parseTraceparent (some header) = readParts ((JsString.trim header).splitOn dash) := by
  by_cases empty : header = []
  · subst header
    rfl
  · exact if_neg empty

theorem readParts_some {parts : List JsString} {traceId parentSpanId : JsString} :
    readParts parts = ⟨some traceId, some parentSpanId⟩ ↔
      traceId.length = 32 ∧ parentSpanId.length = 16 ∧
      ∃ flags rest, parts = JsString.ofString "00" :: traceId :: parentSpanId :: flags :: rest := by
  unfold readParts
  split
  · rename_i version t p flags rest
    split
    · rename_i checked
      simp only [TraceContext.mk.injEq, Option.some.injEq, List.cons.injEq, existsAndEq, and_true]
      constructor
      · intro holds
        obtain ⟨rfl, rfl⟩ := holds
        exact ⟨checked.2.1, checked.2.2, checked.1, rfl, rfl⟩
      · intro holds
        obtain ⟨-, -, -, rfl, rfl⟩ := holds
        exact ⟨rfl, rfl⟩
    · rename_i unchecked
      refine iff_of_false (by simp) ?_
      intro holds
      obtain ⟨long, short, flags, rest, same⟩ := holds
      simp only [List.cons.injEq] at same
      obtain ⟨rfl, rfl, rfl, -⟩ := same
      exact unchecked ⟨rfl, long, short⟩
  · rename_i few
    refine iff_of_false (by simp) ?_
    intro holds
    obtain ⟨-, -, flags, rest, same⟩ := holds
    exact few _ _ _ _ _ same

theorem readParts_both (parts : List JsString) : readParts parts = ⟨none, none⟩ ∨
    ∃ traceId parentSpanId, readParts parts = ⟨some traceId, some parentSpanId⟩ := by
  unfold readParts
  split
  · split
    · exact Or.inr ⟨_, _, rfl⟩
    · exact Or.inl rfl
  · exact Or.inl rfl

/- A header put together from its parts is one of the grammar when they are in order. -/
theorem traceparent_of_parts {text traceId parentSpanId flags : JsString}
    (parts : text.splitOn dash = [JsString.ofString "00", traceId, parentSpanId, flags])
    (long : traceId.length = 32) (short : parentSpanId.length = 16) (traced : HexId traceId)
    (parent : HexId parentSpanId) (flagged : Flags flags) :
    W3CTraceparent text traceId parentSpanId := by
  have whole : text = JsString.ofString "00" ++
      dash :: (traceId ++ dash :: (parentSpanId ++ dash :: flags)) := by
    have joined : [dash].intercalate (text.splitOn dash) = text := List.intercalate_splitOn dash
    rw [← joined, parts]
    simp [List.intercalate]
  rw [whole]
  exact .version00 long traced short parent flagged

theorem parses_exactly_iff (header : JsString) : ParsesExactly header ↔ UncheckedInOrder header := by
  constructor
  · intro exact_ids traceId parentSpanId flags rest parts long short
    have read : parseTraceparent (some header) = ⟨some traceId, some parentSpanId⟩ := by
      rw [parseTraceparent_parts, readParts_some]
      exact ⟨long, short, flags, rest, parts⟩
    obtain ⟨-, -, traced, parent, flags', flagged, split⟩ :=
      split_traceparent ((exact_ids.accepts _ _).mp read)
    rw [parts] at split
    simp only [List.cons.injEq, true_and] at split
    exact ⟨traced, parent, split.1 ▸ flagged, split.2⟩
  · intro in_order
    have accepts (traceId parentSpanId : JsString) :
        parseTraceparent (some header) = ⟨some traceId, some parentSpanId⟩ ↔
          W3CTraceparent (JsString.trim header) traceId parentSpanId := by
      rw [parseTraceparent_parts, readParts_some]
      constructor
      · intro holds
        obtain ⟨long, short, flags, rest, parts⟩ := holds
        obtain ⟨traced, parent, flagged, rfl⟩ := in_order _ _ _ _ parts long short
        exact traceparent_of_parts parts long short traced parent flagged
      · intro follows
        obtain ⟨long, short, -, -, flags, -, parts⟩ := split_traceparent follows
        exact ⟨long, short, flags, [], parts⟩
    refine ⟨accepts, fun foreign => ?_⟩
    rcases readParts_both ((JsString.trim header).splitOn dash) with no_ids | ⟨t, p, read⟩
    · rw [parseTraceparent_parts, no_ids]
    · rw [← parseTraceparent_parts] at read
      exact absurd ((accepts t p).mp read) (foreign t p)

theorem generated_id (traceBytes : RandomBytes 16) :
    (generateTraceId traceBytes).length = 32 ∧
      ∀ u ∈ generateTraceId traceBytes, isLowerHexDigit u = true := by
  refine ⟨?_, hexText_digits _⟩
  rw [generateTraceId, hexText_length, traceBytes.property]

/- What is written for generated ids is read back. -/
theorem parse_format (traceBytes : RandomBytes 16) (spanBytes : RandomBytes 8) :
    parseTraceparent (some (formatTraceparent (generateTraceId traceBytes)
      (generateSpanId spanBytes))) =
        ⟨some (generateTraceId traceBytes), some (generateSpanId spanBytes)⟩ := by
  have free (bytes : List UInt8) : dash ∉ hexText bytes :=
    fun inside => lower_not_dash (hexText_digits bytes dash inside) rfl
  have trimmed (a b : JsString) : JsString.Trimmed (formatTraceparent a b) := by
    constructor
    · intro u first
      obtain rfl : 48 = u := Option.some.inj first
      rfl
    · intro u last
      simp only [formatTraceparent, List.getLast?_append, List.getLast?_cons, Option.mem_def,
        Option.some_or, Option.some.injEq, Option.getD_some] at last
      subst last
      rfl
  have short : (generateSpanId spanBytes).length = 16 := by
    rw [generateSpanId, hexText_length, spanBytes.property]
  rw [parseTraceparent_parts, JsString.trim_of_trimmed (trimmed _ _), readParts_some]
  refine ⟨(generated_id traceBytes).1, short, JsString.ofString "01", [], ?_⟩
  exact split_four (by decide) (free _) (free _) (by decide)

namespace TracedRequest

/-- The request brings a traceparent. -/
def Traced (request : TracedRequest) : Prop :=
  ∃ header traceId parentSpanId, request.traceparentHeader = some header ∧
    W3CTraceparent (JsString.trim header) traceId parentSpanId

/-- The trace id of the response is well formed. -/
def EchoesId (request : TracedRequest) (traceBytes : RandomBytes 16) (spanBytes : RandomBytes 8)
    (now : Int) : Prop :=
  (request.span traceBytes spanBytes now).headers.xTraceId.length = 32 ∧
    HexId (request.span traceBytes spanBytes now).headers.xTraceId

section Echo
variable {request : TracedRequest} (traceBytes : RandomBytes 16) (spanBytes : RandomBytes 8)
  (now : Int)

theorem echoes_given {header traceId parentSpanId : JsString}
    (offered : request.traceparentHeader = some header) (exactly : ParsesExactly header)
    (follows : W3CTraceparent (JsString.trim header) traceId parentSpanId) :
    request.EchoesId traceBytes spanBytes now := by
  obtain ⟨long, -, traced, -⟩ := split_traceparent follows
  have some_id : traceId ≠ [] := by
    rintro rfl
    cases long
  have echoed : (request.span traceBytes spanBytes now).headers.xTraceId = traceId := by
    simp only [span, offered, (exactly.accepts _ _).mpr follows, startSpan, TraceSpan.headers,
      if_neg some_id]
  rw [EchoesId, echoed]
  exact ⟨long, traced⟩

theorem echoes_generated_iff
    (exactly : ∀ header, request.traceparentHeader = some header → ParsesExactly header)
    (untraced : ¬ request.Traced) :
    request.EchoesId traceBytes spanBytes now ↔ ∃ b ∈ traceBytes.val, b ≠ 0 := by
  have no_ids : parseTraceparent request.traceparentHeader = ⟨none, none⟩ := by
    cases offered : request.traceparentHeader with
    | none => rfl
    | some header =>
      exact (exactly header offered).rejects fun t p follows =>
        untraced ⟨header, t, p, offered, follows⟩
  have echoed : (request.span traceBytes spanBytes now).headers.xTraceId =
      generateTraceId traceBytes := by
    simp only [span, no_ids, startSpan, TraceSpan.headers]
  obtain ⟨long, digits⟩ := generated_id traceBytes
  rw [EchoesId, echoed, ← hexText_nonzero]
  exact ⟨fun echoes => echoes.2.nonzero, fun nonzero => ⟨long, digits, nonzero⟩⟩

end Echo
end TracedRequest

/-- A header is parsed by the grammar exactly when what the parser leaves unchecked is in order.
    Generated ids are always read back. A response carries a well-formed trace id, and the header
    of the request is parsed by the grammar, exactly when what is unchecked there is in order and,
    for a request without a traceparent, the random bytes are not all zero. -/
theorem trace_headers_exact_iff (header : JsString) (request : TracedRequest)
    (traceBytes : RandomBytes 16) (spanBytes : RandomBytes 8) (now : Int) :
    (ParsesExactly header ↔ UncheckedInOrder header) ∧
    parseTraceparent (some (formatTraceparent (generateTraceId traceBytes)
      (generateSpanId spanBytes))) =
        ⟨some (generateTraceId traceBytes), some (generateSpanId spanBytes)⟩ ∧
    ((∀ given, request.traceparentHeader = some given → ParsesExactly given) ∧
        request.EchoesId traceBytes spanBytes now ↔
      (∀ given, request.traceparentHeader = some given → UncheckedInOrder given) ∧
        (request.Traced ∨ ∃ b ∈ traceBytes.val, b ≠ 0)) := by
  refine ⟨parses_exactly_iff header, parse_format traceBytes spanBytes, ?_⟩
  simp only [← parses_exactly_iff]
  refine and_congr_right fun exactly => ?_
  by_cases traced : request.Traced
  · refine iff_of_true ?_ (Or.inl traced)
    obtain ⟨header, t, p, offered, follows⟩ := traced
    exact TracedRequest.echoes_given traceBytes spanBytes now offered (exactly header offered)
      follows
  · rw [TracedRequest.echoes_generated_iff traceBytes spanBytes now exactly traced]
    exact (or_iff_right traced).symm

/-- 00-zzz...-zzz...-what-ever, with 32 and 16 letters z. -/
def looseHeader : JsString :=
  JsString.ofString "00" ++ dash :: (List.replicate 32 122 ++ dash :: (List.replicate 16 122 ++
    dash :: JsString.ofString "what-ever"))

/-- Neither hex digits nor flags, and a fifth part: accepted. -/
theorem loose_header_accepted : ¬ ∀ header, ParsesExactly header := by
  intro always
  have read : parseTraceparent (some looseHeader) =
      ⟨some (List.replicate 32 122), some (List.replicate 16 122)⟩ := by decide +kernel
  obtain ⟨-, -, traced, -⟩ := split_traceparent (((always looseHeader).accepts _ _).mp read)
  exact absurd (traced.digits 122 (by decide)) (by decide)

end AstraPort.Monitoring
