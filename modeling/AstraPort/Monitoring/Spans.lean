import AstraPort.Foundation.JsValue
import AstraPort.Foundation.Machine
import AstraPort.Foundation.Recent
import AstraPort.Monitoring.Tracing
import Mathlib.Logic.Function.Basic

/- The spans of TracingService as objects that callers share with its buffer: they are changed in
   place, also after they were recorded. What a query shows is read off the calls. -/
namespace AstraPort.Monitoring

/-- The own properties of an object; in which order they stand is left open. -/
abbrev Attributes := JsString → Option JsValue

/-- Object is a reference for the spans the service holds, and Attributes for what is shown. -/
structure SpanEvent (Object : Type) where
  name : JsString
  timestampMs : Int
  attributes : Option Object

inductive SpanStatus where
  | unset
  | ok
  | error

structure SpanData (Object : Type) where
  started : TraceSpan
  endTimeMs : Option Int
  durationMs : Option Int
  statusCode : SpanStatus
  attributes : Object
  events : List (SpanEvent Object)

section Shown
variable {Object Shown : Type}

def SpanEvent.map (show' : Object → Shown) (event : SpanEvent Object) : SpanEvent Shown :=
  ⟨event.name, event.timestampMs, event.attributes.map show'⟩

def SpanData.map (show' : Object → Shown) (span : SpanData Object) : SpanData Shown :=
  { span with attributes := show' span.attributes, events := span.events.map (SpanEvent.map show') }

/-- A span that startSpan returns: its own attributes are an object apart. -/
def SpanData.opened (started : TraceSpan) (attributes : Object) : SpanData Object :=
  ⟨started, none, none, .unset, attributes, []⟩

def SpanData.closed (span : SpanData Object) (statusCode : SpanStatus) (now : Int) :
    SpanData Object :=
  { span with endTimeMs := some now, durationMs := some (now - span.started.startTimeMs), statusCode }

def SpanData.addEvent (span : SpanData Object) (event : SpanEvent Object) : SpanData Object :=
  { span with events := span.events ++ [event] }

end Shown

/-- Assigning to __proto__ makes no own property. -/
def assignAttribute (attributes : Attributes) (key : JsString) (value : JsValue) : Attributes :=
  if key = .ofString "__proto__" then attributes else Function.update attributes key (some value)

/-- { ...attributes, ...additional } -/
def spreadAttributes (attributes additional : Attributes) : Attributes := fun key =>
  (additional key).orElse fun _ => attributes key

/-- The objects there are, the spans among them, and the references the service keeps. -/
structure TracingService where
  objects : Nat → Attributes
  objectCount : Nat
  spans : Nat → Option (SpanData Nat)
  spanCount : Nat
  spansBuffer : List Nat

inductive TracingCall where
  /-- The caller makes an object to hand over. -/
  | makeObject (properties : Attributes)
  | startSpan (started : TraceSpan) (attributes : Option Nat)
  | finishSpan (span : Nat) (statusCode : SpanStatus) (additional : Option Nat) (now : Int)
  | addSpanEvent (span : Nat) (name : JsString) (attributes : Option Nat) (now : Int)
  | setSpanAttribute (span : Nat) (key : JsString) (value : JsValue)
  /-- No limit is NaN. -/
  | getRecentTraces (limit : Option Int) (traceId : Option JsString)

inductive TracingAnswer where
  | object (reference : Nat)
  | span (reference : Nat)
  | done
  | spans (shown : List (SpanData Attributes))

def maxSpans : Nat := 1000

/-- results.slice(0, limit), where a negative limit counts from the end. -/
def sliceTo {Element : Type} (limit : Option Int) (elements : List Element) : List Element :=
  match limit with
  | none => []
  | some n =>
    if 0 ≤ n then elements.take n.toNat else elements.take (elements.length - (-n).toNat)

def ofTrace (traceId : Option JsString) (spans : List (SpanData Attributes)) :
    List (SpanData Attributes) :=
  match traceId with
  | none => spans
  | some traceId =>
    if traceId = [] then spans else spans.filter fun span => span.started.traceId = traceId

namespace TracingService

def initial : TracingService := ⟨fun _ _ => none, 0, fun _ => none, 0, []⟩

def allocate (s : TracingService) (properties : Attributes) : TracingService :=
  { s with
    objects := Function.update s.objects s.objectCount properties
    objectCount := s.objectCount + 1 }

def writeObject (s : TracingService) (object : Nat) (properties : Attributes) : TracingService :=
  { s with objects := Function.update s.objects object properties }

def writeSpan (s : TracingService) (span : Nat) (data : SpanData Nat) : TracingService :=
  { s with spans := Function.update s.spans span (some data) }

def openSpan (s : TracingService) (started : TraceSpan) (attributes : Nat) : TracingService :=
  { s.writeSpan s.spanCount (SpanData.opened started attributes) with
    spanCount := s.spanCount + 1 }

def recordSpan (s : TracingService) (span : Nat) : TracingService :=
  let grown := span :: s.spansBuffer
  { s with spansBuffer := if maxSpans < grown.length then grown.dropLast else grown }

/-- A span as whoever reads it finds it now. -/
def shown (s : TracingService) (span : Nat) : Option (SpanData Attributes) :=
  (s.spans span).map (SpanData.map s.objects)

/-- A reference to what does not exist is not offered. -/
def step (s : TracingService) : TracingCall → Option (TracingService × TracingAnswer)
  | .makeObject properties => some (s.allocate properties, .object s.objectCount)
  | .startSpan started none =>
    some ((s.allocate fun _ => none).openSpan started s.objectCount, .span s.spanCount)
  | .startSpan started (some object) =>
    if object < s.objectCount then some (s.openSpan started object, .span s.spanCount) else none
  | .finishSpan span statusCode additional now => do
    let data ← s.spans span
    let data := data.closed statusCode now
    match additional with
    | none => some ((s.writeSpan span data).recordSpan span, .done)
    | some object =>
      if object < s.objectCount then
        let merged := s.allocate (spreadAttributes (s.objects data.attributes) (s.objects object))
        let data := { data with attributes := s.objectCount }
        some ((merged.writeSpan span data).recordSpan span, .done)
      else none
  | .addSpanEvent span name attributes now => do
    let data ← s.spans span
    if attributes.all (· < s.objectCount) then
      some (s.writeSpan span (data.addEvent ⟨name, now, attributes⟩), .done)
    else none
  | .setSpanAttribute span key value => do
    let data ← s.spans span
    let written := assignAttribute (s.objects data.attributes) key value
    some (s.writeObject data.attributes written, .done)
  | .getRecentTraces limit traceId =>
    some (s, .spans (sliceTo limit (ofTrace traceId (s.spansBuffer.filterMap s.shown))))

def machine : Machine TracingService TracingCall TracingAnswer := ⟨initial, step⟩

end TracingService

abbrev TracingHistory := List (TracingCall × TracingAnswer)

section Meaning

/-- What was in an object when its caller made it. -/
def contentsOf : TracingHistory → Nat → Attributes
  | [], _ => fun _ => none
  | (.makeObject properties, .object made) :: past, object =>
    if made = object then properties else contentsOf past object
  | _ :: past, object => contentsOf past object

/-- A span as its own calls made it. -/
def spanOf : TracingHistory → Nat → Option (SpanData Attributes)
  | [], _ => none
  | (call, answer) :: past, span =>
    match call, answer with
    | .startSpan started attributes, .span opened =>
      if opened = span then
        some (SpanData.opened started (attributes.elim (fun _ => none) (contentsOf past)))
      else spanOf past span
    | .finishSpan finished statusCode additional now, _ =>
      if finished = span then
        (spanOf past span).map fun data =>
          { data.closed statusCode now with
            attributes := additional.elim data.attributes fun object =>
              spreadAttributes data.attributes (contentsOf past object) }
      else spanOf past span
    | .addSpanEvent changed name attributes now, _ =>
      if changed = span then
        (spanOf past span).map fun data =>
          data.addEvent ⟨name, now, attributes.map (contentsOf past)⟩
      else spanOf past span
    | .setSpanAttribute changed key value, _ =>
      if changed = span then
        (spanOf past span).map fun data =>
          { data with attributes := assignAttribute data.attributes key value }
      else spanOf past span
    | _, _ => spanOf past span

/-- The spans that were finished, the newest first; one finished again stands there again. -/
def finished : TracingHistory → List Nat
  | [] => []
  | (.finishSpan span _ _ _, _) :: past => span :: finished past
  | _ :: past => finished past

def madeObjects : TracingHistory → List Nat
  | [] => []
  | (.makeObject _, .object made) :: past => made :: madeObjects past
  | _ :: past => madeObjects past

def TracingCall.hands : TracingCall → Option Nat
  | .startSpan _ attributes => attributes
  | .finishSpan _ _ additional _ => additional
  | .addSpanEvent _ _ attributes _ => attributes
  | _ => none

def handedOver (past : TracingHistory) : List Nat := past.filterMap fun e => e.1.hands

/-- Callers hand over objects they made, and none of them twice. -/
def OwnObjects : Machine.Permit TracingService TracingCall TracingAnswer := fun past _ call =>
  ∀ object ∈ call.hands, object ∈ madeObjects past ∧ object ∉ handedOver past

end Meaning

/-- Who has a reference to an object; all events count as one. -/
inductive Holder where
  | caller
  | span (reference : Nat)
  | event

inductive Holds (past : TracingHistory) (s : TracingService) : Holder → Nat → Prop where
  | caller {object : Nat} (made : object ∈ madeObjects past) (own : object ∉ handedOver past) :
    Holds past s .caller object
  | span {span : Nat} {data : SpanData Nat} (found : s.spans span = some data) :
    Holds past s (.span span) data.attributes
  | event {span object : Nat} {data : SpanData Nat} {event : SpanEvent Nat}
    (found : s.spans span = some data) (member : event ∈ data.events)
    (given : event.attributes = some object) : Holds past s .event object

/-- Every object has one holder, and spans read as their own calls made them. -/
structure Sound (past : TracingHistory) (s : TracingService) : Prop where
  fresh : ∀ span, s.spanCount ≤ span → s.spans span = none
  inside : ∀ {holder object}, Holds past s holder object → object < s.objectCount
  alone : ∀ {holder other object}, Holds past s holder object → Holds past s other object →
    holder = other
  kept : ∀ {object}, Holds past s .caller object → s.objects object = contentsOf past object
  shown : ∀ span, s.shown span = spanOf past span
  buffer : s.spansBuffer = (finished past).take maxSpans

/-- A step leaves every object with its holder, but for one that is new to its holder. -/
def Gains (past : TracingHistory) (s : TracingService) (past' : TracingHistory)
    (s' : TracingService) (gain : Option (Holder × Nat)) : Prop :=
  ∀ {holder object}, Holds past' s' holder object → gain = some (holder, object) ∨
    Holds past s holder object ∧ ∀ g ∈ gain, g.2 ≠ object

section Steps
variable {past past' : TracingHistory} {s s' : TracingService}

theorem Sound.gains_inside (sound : Sound past s) {gain : Option (Holder × Nat)}
    (gains : Gains past s past' s' gain) (grown : s.objectCount ≤ s'.objectCount)
    (bounded : ∀ g ∈ gain, g.2 < s'.objectCount) {holder : Holder} {object : Nat}
    (holds : Holds past' s' holder object) : object < s'.objectCount := by
  obtain rfl | ⟨before, -⟩ := gains holds
  · exact bounded _ rfl
  · exact (sound.inside before).trans_le grown

theorem Sound.gains_alone (sound : Sound past s) {gain : Option (Holder × Nat)}
    (gains : Gains past s past' s' gain) {holder other : Holder} {object : Nat}
    (holds : Holds past' s' holder object) (holds' : Holds past' s' other object) :
    holder = other := by
  obtain rfl | ⟨before, apart⟩ := gains holds
  · obtain same | ⟨-, apart⟩ := gains holds'
    · exact (Prod.mk.inj (Option.some.inj same)).1
    · exact absurd rfl (apart _ rfl)
  · obtain rfl | ⟨before', -⟩ := gains holds'
    · exact absurd rfl (apart _ rfl)
    · exact sound.alone before before'

theorem SpanData.map_congr {Object Shown : Type} {show' show'' : Object → Shown}
    {data : SpanData Object} (own : show' data.attributes = show'' data.attributes)
    (events : ∀ event ∈ data.events, ∀ object ∈ event.attributes, show' object = show'' object) :
    data.map show' = data.map show'' := by
  have same : data.events.map (SpanEvent.map show') = data.events.map (SpanEvent.map show'') := by
    refine List.map_congr_left fun event member => ?_
    rw [SpanEvent.map, SpanEvent.map, Option.map_congr (events event member)]
  rw [SpanData.map, SpanData.map, own, same]

/- Where the objects that a span and events hold stay as they are, the span reads as before. -/
theorem map_kept {span : Nat} {data : SpanData Nat} (found : s.spans span = some data)
    {objects : Nat → Attributes} (own : objects data.attributes = s.objects data.attributes)
    (events : ∀ object, Holds past s .event object → objects object = s.objects object) :
    data.map objects = data.map s.objects :=
  SpanData.map_congr own fun _ member _ given => events _ (.event found member given)

/- An object that is new is held by none. -/
theorem Sound.allocated (sound : Sound past s) (properties : Attributes) {holder : Holder}
    {object : Nat} (holds : Holds past s holder object) :
    (s.allocate properties).objects object = s.objects object :=
  Function.update_of_ne (sound.inside holds).ne _ _

/- A span that is not written reads as before where held objects stay as they are. -/
theorem shown_kept {span : Nat} (same : s'.spans span = s.spans span)
    (objects : ∀ {holder object}, Holds past s holder object → holder = .span span ∨
      holder = .event → s'.objects object = s.objects object) : s'.shown span = s.shown span := by
  rw [TracingService.shown, TracingService.shown, same]
  cases found : s.spans span with
  | none => rfl
  | some data =>
    exact congrArg some (map_kept found (objects (.span found) (.inl rfl))
      fun _ holds => objects holds (.inr rfl))

/- What is handed over is the caller's no more. -/
theorem caller_before {e : TracingCall × TracingAnswer} {object : Nat}
    (made : madeObjects (e :: past) = madeObjects past)
    (holds : Holds (e :: past) s' .caller object) :
    Holds past s .caller object ∧ ∀ handed ∈ e.1.hands, handed ≠ object := by
  cases holds with
  | caller member own =>
    rw [made] at member
    rw [handedOver, List.filterMap_cons] at own
    cases handed : e.1.hands with
    | none => exact ⟨.caller member (by simpa [handed, handedOver] using own), by simp⟩
    | some other =>
      simp only [handed, List.mem_cons, not_or] at own
      refine ⟨.caller member own.2, ?_⟩
      rintro _ ⟨rfl⟩ rfl
      exact own.1 rfl

/- A call that writes one span, which may take an object that is new or the caller's. -/
theorem Sound.write (sound : Sound past s) (gain : Option (Holder × Nat))
    {e : TracingCall × TracingAnswer} {span : Nat} {data : SpanData Nat}
    (made : madeObjects (e :: past) = madeObjects past)
    (contents : contentsOf (e :: past) = contentsOf past)
    (spans : s'.spans = Function.update s.spans span (some data))
    (grown : s.objectCount ≤ s'.objectCount) (room : span < s'.spanCount)
    (grown' : s.spanCount ≤ s'.spanCount)
    (taken : ∀ g ∈ gain, g.2 < s'.objectCount ∧
      (s.objectCount ≤ g.2 ∨ e.1.hands = some g.2 ∧ Holds past s .caller g.2))
    (own : gain = some (.span span, data.attributes) ∨ Holds past s (.span span) data.attributes)
    (events : ∀ event ∈ data.events, ∀ object ∈ event.attributes,
      gain = some (.event, object) ∨ Holds past s .event object)
    (objects : ∀ {holder object}, Holds past s holder object → s'.objects object = s.objects object)
    (written : s'.shown span = spanOf (e :: past) span)
    (others : ∀ other ≠ span, spanOf (e :: past) other = spanOf past other)
    (buffer : s'.spansBuffer = (finished (e :: past)).take maxSpans) : Sound (e :: past) s' := by
  have unheld {holder : Holder} {object : Nat} (holds : Holds past s holder object)
      (shared : holder ≠ .caller) : ∀ g ∈ gain, g.2 ≠ object := by
    rintro g chosen rfl
    obtain new | ⟨-, callers⟩ := (taken g chosen).2
    · exact absurd (sound.inside holds) (by omega)
    · exact shared (sound.alone holds callers)
  have gains : Gains past s (e :: past) s' gain := by
    intro holder object holds
    cases holds with
    | caller member kept =>
      obtain ⟨before, handed⟩ := caller_before made (.caller member kept : Holds (e :: past) s' .caller object)
      refine .inr ⟨before, ?_⟩
      rintro g chosen rfl
      obtain new | ⟨gone, -⟩ := (taken g chosen).2
      · exact absurd (sound.inside before) (by omega)
      · exact handed _ gone rfl
    | @span other data' found =>
      rw [spans, Function.update_apply] at found
      split at found
      · obtain rfl := Option.some.inj found
        rename_i same
        rw [same]
        exact own.imp_right fun holds => ⟨holds, unheld holds (by simp)⟩
      · exact .inr ⟨.span found, unheld (.span found) (by simp)⟩
    | event found member given =>
      rw [spans, Function.update_apply] at found
      split at found
      · obtain rfl := Option.some.inj found
        exact (events _ member _ given).imp_right fun holds => ⟨holds, unheld holds (by simp)⟩
      · have holds : Holds past s .event object := .event found member given
        exact .inr ⟨holds, unheld holds (by simp)⟩
  constructor
  · intro other new
    rw [spans, Function.update_of_ne (by omega)]
    exact sound.fresh other (by omega)
  · exact sound.gains_inside gains grown fun g chosen => (taken g chosen).1
  · exact sound.gains_alone gains
  · intro object holds
    have before := (caller_before (s := s) made holds).1
    rw [objects before, contents, sound.kept before]
  · intro other
    by_cases same : other = span
    · rw [same, written]
    · have kept : s'.spans other = s.spans other := by rw [spans, Function.update_of_ne same]
      rw [others other same, ← sound.shown other]
      exact shown_kept kept fun holds _ => objects holds
  · exact buffer

theorem Sound.found (sound : Sound past s) {span : Nat} {data : SpanData Nat}
    (found : s.spans span = some data) : spanOf past span = some (data.map s.objects) := by
  rw [← sound.shown span, TracingService.shown, found]
  rfl

theorem Sound.exists_span (sound : Sound past s) {span : Nat} {data : SpanData Nat}
    (found : s.spans span = some data) : span < s.spanCount := by
  by_contra beyond
  have absent := sound.fresh span (Nat.le_of_not_lt beyond)
  cases found.symm.trans absent

theorem Sound.makeObject (sound : Sound past s) (properties : Attributes) :
    Sound ((.makeObject properties, .object s.objectCount) :: past) (s.allocate properties) := by
  have gains : Gains past s ((.makeObject properties, .object s.objectCount) :: past)
      (s.allocate properties) (some (.caller, s.objectCount)) := by
    have old {holder : Holder} {object : Nat} (holds : Holds past s holder object) :
        Holds past s holder object ∧
          ∀ g ∈ some (Holder.caller, s.objectCount), g.2 ≠ object := by
      refine ⟨holds, ?_⟩
      rintro _ ⟨rfl⟩
      exact (sound.inside holds).ne'
    intro holder object holds
    cases holds with
    | caller member own =>
      obtain rfl | before := List.mem_cons.mp member
      · exact .inl rfl
      · exact .inr (old (.caller before own))
    | span found => exact .inr (old (.span found))
    | event found member given => exact .inr (old (.event found member given))
  constructor
  · exact sound.fresh
  · exact sound.gains_inside gains (Nat.le_succ _) (by rintro _ ⟨rfl⟩; exact Nat.lt_succ_self _)
  · exact sound.gains_alone gains
  · intro object holds
    obtain new | ⟨before, apart⟩ := gains holds
    · obtain ⟨-, rfl⟩ := Prod.mk.inj (Option.some.inj new)
      exact (Function.update_self _ _ _).trans (if_pos rfl).symm
    · have other : s.objectCount ≠ object := apart _ rfl
      rw [sound.allocated _ before, sound.kept before]
      exact (if_neg other).symm
  · intro span
    have kept : (s.allocate properties).spans span = s.spans span := rfl
    exact (shown_kept kept fun holds _ => sound.allocated _ holds).trans (sound.shown span)
  · exact sound.buffer

theorem Sound.setSpanAttribute (sound : Sound past s) {span : Nat} {data : SpanData Nat}
    (found : s.spans span = some data) (key : JsString) (value : JsValue) :
    Sound ((.setSpanAttribute span key value, .done) :: past)
      (s.writeObject data.attributes (assignAttribute (s.objects data.attributes) key value)) := by
  generalize reached : s.writeObject data.attributes
    (assignAttribute (s.objects data.attributes) key value) = s'
  have spans : s'.spans = s.spans := by rw [← reached]; rfl
  have objects : s'.objects = Function.update s.objects data.attributes
      (assignAttribute (s.objects data.attributes) key value) := by rw [← reached]; rfl
  have same {holder : Holder} {object : Nat}
      (holds : Holds ((.setSpanAttribute span key value, .done) :: past) s' holder object) :
      Holds past s holder object := by
    cases holds with
    | caller member own => exact .caller member own
    | span found => exact .span (spans ▸ found)
    | event found member given => exact .event (spans ▸ found) member given
  have apart {holder : Holder} {object : Nat} (holds : Holds past s holder object)
      (other : holder ≠ .span span) : s'.objects object = s.objects object := by
    rw [objects, Function.update_of_ne]
    rintro rfl
    exact other (sound.alone holds (.span found))
  constructor
  · intro other new
    rw [spans]
    exact sound.fresh other (by rw [← reached] at new; exact new)
  · intro holder object holds
    rw [← reached]
    exact sound.inside (same holds)
  · exact fun holds holds' => sound.alone (same holds) (same holds')
  · intro object holds
    exact (apart (same holds) (by simp)).trans (sound.kept (same holds))
  · intro other
    by_cases own : other = span
    · have events : (data.map s'.objects).events = (data.map s.objects).events := by
        refine List.map_congr_left fun event member => ?_
        rw [SpanEvent.map, SpanEvent.map, Option.map_congr]
        exact fun object given => apart (.event found member given) (by simp)
      have written : data.map s'.objects = { data.map s.objects with
          attributes := assignAttribute (s.objects data.attributes) key value } := by
        rw [SpanData.map, SpanData.map] at *
        simp only [SpanData.mk.injEq, true_and]
        exact ⟨by rw [objects, Function.update_self], events⟩
      rw [own, TracingService.shown, spans, found, Option.map_some, written]
      simp only [spanOf, if_pos, sound.found found, Option.map_some, SpanData.map]
    · have elsewhere : span ≠ other := fun same => own same.symm
      have before : s'.shown other = s.shown other := by
        refine shown_kept (by rw [spans]) fun holds kind => apart holds ?_
        rintro rfl
        obtain same | event := kind
        · exact elsewhere (Holder.span.inj same)
        · cases event
      rw [before, sound.shown other]
      simp only [spanOf, if_neg elsewhere]
  · rw [← reached]
    exact sound.buffer

theorem Sound.startSpan (sound : Sound past s) {started : TraceSpan} {attributes : Option Nat}
    (own : ∀ object ∈ attributes, Holds past s .caller object) {answer : TracingAnswer}
    (moved : s.step (.startSpan started attributes) = some (s', answer)) :
    Sound ((.startSpan started attributes, answer) :: past) s' := by
  have others (other : Nat) (apart : other ≠ s.spanCount) :
      spanOf ((.startSpan started attributes, .span s.spanCount) :: past) other =
        spanOf past other := by
    simp only [spanOf, if_neg apart.symm]
  cases attributes with
  | none =>
    obtain ⟨rfl, rfl⟩ := Prod.mk.inj (Option.some.inj moved)
    apply sound.write (some (.span s.spanCount, s.objectCount)) rfl rfl rfl
    · exact Nat.le_succ _
    · exact Nat.lt_succ_self _
    · exact Nat.le_succ _
    · rintro _ ⟨rfl⟩
      exact ⟨Nat.lt_succ_self _, .inl (Nat.le_refl _)⟩
    · exact .inl rfl
    · simp [SpanData.opened]
    · exact sound.allocated _
    · simp [TracingService.shown, TracingService.openSpan, TracingService.writeSpan,
        TracingService.allocate, spanOf, SpanData.opened, SpanData.map]
    · exact others
    · exact sound.buffer
  | some object =>
    rw [TracingService.step] at moved
    split at moved
    · rename_i inside
      obtain ⟨rfl, rfl⟩ := Prod.mk.inj (Option.some.inj moved)
      apply sound.write (some (.span s.spanCount, object)) rfl rfl rfl
      · exact Nat.le_refl _
      · exact Nat.lt_succ_self _
      · exact Nat.le_succ _
      · rintro _ ⟨rfl⟩
        exact ⟨inside, .inr ⟨rfl, own _ rfl⟩⟩
      · exact .inl rfl
      · simp [SpanData.opened]
      · exact fun _ => rfl
      · simp [TracingService.shown, TracingService.openSpan, TracingService.writeSpan,
          spanOf, SpanData.opened, SpanData.map, sound.kept (own _ rfl)]
      · exact others
      · exact sound.buffer
    · cases moved

theorem recordSpan_buffer (span : Nat) (recent : List Nat)
    (buffer : s.spansBuffer = recent.take maxSpans) :
    (s.recordSpan span).spansBuffer = (span :: recent).take maxSpans := by
  have bounded : s.spansBuffer.length ≤ maxSpans := by
    rw [buffer]
    exact List.length_take_le _ _
  exact (push_recent span bounded).trans (by rw [buffer, push_take])

theorem Sound.finishSpan (sound : Sound past s) {span : Nat} {statusCode : SpanStatus}
    {additional : Option Nat} {now : Int}
    (own : ∀ object ∈ additional, Holds past s .caller object) {answer : TracingAnswer}
    (moved : s.step (.finishSpan span statusCode additional now) = some (s', answer)) :
    Sound ((.finishSpan span statusCode additional now, answer) :: past) s' := by
  have others (other : Nat) (apart : other ≠ span) :
      spanOf ((.finishSpan span statusCode additional now, .done) :: past) other =
        spanOf past other := by
    simp only [spanOf, if_neg apart.symm]
  obtain ⟨data, found, moved⟩ := Option.bind_eq_some_iff.mp moved
  have held : Holds past s (.span span) data.attributes := .span found
  have old : ∀ event ∈ data.events, ∀ object ∈ event.attributes, Holds past s .event object :=
    fun event member object given => .event found member given
  cases additional with
  | none =>
    obtain ⟨rfl, rfl⟩ := Prod.mk.inj (Option.some.inj moved)
    apply sound.write none rfl rfl rfl
    · exact Nat.le_refl _
    · exact sound.exists_span found
    · exact Nat.le_refl _
    · simp
    · exact .inr held
    · exact fun event member object given => .inr (old event member object given)
    · exact fun _ => rfl
    · simp only [TracingService.shown, TracingService.recordSpan, TracingService.writeSpan,
        Function.update_self, Option.map_some, spanOf, if_pos, sound.found found]
      rfl
    · exact others
    · exact recordSpan_buffer span _ sound.buffer
  | some object =>
    dsimp only at moved
    split at moved
    · obtain ⟨rfl, rfl⟩ := Prod.mk.inj (Option.some.inj moved)
      apply sound.write (some (.span span, s.objectCount)) rfl rfl rfl
      · exact Nat.le_succ _
      · exact sound.exists_span found
      · exact Nat.le_refl _
      · rintro _ ⟨rfl⟩
        exact ⟨Nat.lt_succ_self _, .inl (Nat.le_refl _)⟩
      · exact .inl rfl
      · exact fun event member object given => .inr (old event member object given)
      · exact sound.allocated _
      · have events : data.events.map (SpanEvent.map (s.allocate (spreadAttributes
            (s.objects data.attributes) (s.objects object))).objects) =
            data.events.map (SpanEvent.map s.objects) := by
          refine List.map_congr_left fun event member => ?_
          rw [SpanEvent.map, SpanEvent.map, Option.map_congr]
          exact fun object given => sound.allocated _ (old event member object given)
        have fresh : (s.allocate (spreadAttributes (s.objects data.attributes)
            (s.objects object))).objects s.objectCount =
            spreadAttributes (s.objects data.attributes) (contentsOf past object) := by
          rw [← sound.kept (own _ rfl)]
          exact Function.update_self _ _ _
        simp only [TracingService.shown, TracingService.recordSpan, TracingService.writeSpan,
          Function.update_self, Option.map_some, spanOf, if_pos, sound.found found]
        exact congrArg some (by
          simp only [SpanData.map, SpanData.closed, fresh, events, Option.elim])
      · exact others
      · exact recordSpan_buffer span _ sound.buffer
    · cases moved

theorem Sound.addSpanEvent (sound : Sound past s) {span : Nat} {name : JsString}
    {attributes : Option Nat} {now : Int}
    (own : ∀ object ∈ attributes, Holds past s .caller object) {answer : TracingAnswer}
    (moved : s.step (.addSpanEvent span name attributes now) = some (s', answer)) :
    Sound ((.addSpanEvent span name attributes now, answer) :: past) s' := by
  obtain ⟨data, found, moved⟩ := Option.bind_eq_some_iff.mp moved
  have held : Holds past s (.span span) data.attributes := .span found
  split at moved
  · rename_i inside
    obtain ⟨rfl, rfl⟩ := Prod.mk.inj (Option.some.inj moved)
    apply sound.write (attributes.map fun object => (.event, object)) rfl rfl rfl
    · exact Nat.le_refl _
    · exact sound.exists_span found
    · exact Nat.le_refl _
    · intro g chosen
      obtain ⟨object, given, rfl⟩ := Option.map_eq_some_iff.mp chosen
      rw [given] at inside
      have bound : object < s.objectCount := by simpa using inside
      exact ⟨bound, .inr ⟨given, own _ given⟩⟩
    · exact .inr held
    · intro event member object given
      obtain before | last := List.mem_append.mp member
      · exact .inr (.event found before given)
      · obtain rfl := List.mem_singleton.mp last
        have handed : attributes = some object := given
        exact .inl (by rw [handed]; rfl)
    · exact fun _ => rfl
    · have contents : attributes.map s.objects = attributes.map (contentsOf past) :=
        Option.map_congr fun object given => sound.kept (own object given)
      simp only [TracingService.shown, TracingService.writeSpan, Function.update_self,
        Option.map_some, spanOf, if_pos, sound.found found]
      simp [SpanData.addEvent, SpanData.map, SpanEvent.map, contents]
    · intro other apart
      simp only [spanOf, if_neg apart.symm]
    · exact sound.buffer
  · cases moved

theorem Sound.getRecentTraces (sound : Sound past s) (limit : Option Int)
    (traceId : Option JsString) (answer : TracingAnswer) :
    Sound ((.getRecentTraces limit traceId, answer) :: past) s := by
  have same {holder : Holder} {object : Nat}
      (holds : Holds ((.getRecentTraces limit traceId, answer) :: past) s holder object) :
      Holds past s holder object := by
    cases holds with
    | caller member own => exact .caller member own
    | span found => exact .span found
    | event found member given => exact .event found member given
  exact {
    fresh := sound.fresh
    inside := fun holds => sound.inside (same holds)
    alone := fun holds holds' => sound.alone (same holds) (same holds')
    kept := fun holds => sound.kept (same holds)
    shown := sound.shown
    buffer := sound.buffer }

theorem Sound.step (sound : Sound past s) {call : TracingCall} {answer : TracingAnswer}
    (ok : OwnObjects past s call) (moved : s.step call = some (s', answer)) :
    Sound ((call, answer) :: past) s' := by
  have own : ∀ object ∈ call.hands, Holds past s .caller object :=
    fun object handed => .caller (ok object handed).1 (ok object handed).2
  cases call with
  | makeObject properties =>
    obtain ⟨rfl, rfl⟩ := Prod.mk.inj (Option.some.inj moved)
    exact sound.makeObject properties
  | startSpan started attributes => exact sound.startSpan own moved
  | finishSpan span statusCode additional now => exact sound.finishSpan own moved
  | addSpanEvent span name attributes now => exact sound.addSpanEvent own moved
  | setSpanAttribute span key value =>
    obtain ⟨data, found, moved⟩ := Option.bind_eq_some_iff.mp moved
    obtain ⟨rfl, rfl⟩ := Prod.mk.inj (Option.some.inj moved)
    exact sound.setSpanAttribute found key value
  | getRecentTraces limit traceId =>
    obtain ⟨rfl, rfl⟩ := Prod.mk.inj (Option.some.inj moved)
    exact sound.getRecentTraces limit traceId _

end Steps

theorem initial_sound : Sound [] TracingService.initial where
  fresh _ _ := rfl
  inside holds := by
    cases holds with
    | caller made => cases made
    | span found => cases found
    | event found => cases found
  alone holds := by
    cases holds with
    | caller made => cases made
    | span found => cases found
    | event found => cases found
  kept holds := by
    cases holds with
    | caller made => cases made
  shown _ := rfl
  buffer := rfl

theorem run_sound {past : TracingHistory} {s : TracingService}
    (run : TracingService.machine.Run OwnObjects past s) : Sound past s :=
  run.invariant Sound initial_sound fun _ sound ok moved => sound.step ok moved

/-- In every run a query shows the newest thousand spans that were finished before it, of the trace
    it asks for and up to its limit, each as all calls on it have made it by then: also those that
    came after it was finished, and no call on another span. -/
theorem recent_traces_replayed {past later earlier : TracingHistory} {s : TracingService}
    (run : TracingService.machine.Run OwnObjects past s) {limit : Option Int}
    {traceId : Option JsString} {answer : TracingAnswer}
    (exchange : past = later ++ (.getRecentTraces limit traceId, answer) :: earlier) :
    answer = .spans (sliceTo limit (ofTrace traceId
      (((finished earlier).take maxSpans).filterMap (spanOf earlier)))) := by
  obtain ⟨before, after, reached, -, moved⟩ := run.exchange exchange
  have sound := run_sound reached
  have same : before.shown = spanOf earlier := funext sound.shown
  obtain ⟨-, rfl⟩ := Prod.mk.inj (Option.some.inj moved)
  rw [sound.buffer, same]
end AstraPort.Monitoring
