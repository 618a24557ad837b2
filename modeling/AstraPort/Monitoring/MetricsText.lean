import AstraPort.Foundation.Magnitudes
import AstraPort.Foundation.PrometheusText
import AstraPort.Monitoring.Samples

/- getPrometheusMetricsText: what it prints is read by the text format of Prometheus as the samples
   of the service, whatever stands in the values of the labels. -/
namespace AstraPort.Monitoring
open Prometheus

/-- String.prototype.replace of every occurrence of one unit. -/
def replaceEach (u : UInt16) (replacement text : JsString) : JsString :=
  text.flatMap fun v => if v = u then replacement else [v]

def escapeLabelValue (val : JsString) : JsString :=
  replaceEach 10 [92, 110] (replaceEach 34 [92, 34] (replaceEach 92 [92, 92] val))

def MetricType.text : MetricType → String
  | .counter => "counter"
  | .gauge => "gauge"
  | .histogram => "histogram"

/-- One entry of Object.entries; valid label names are no array indices and keep their order. -/
def labelPair (entry : String × JsString) : JsString :=
  .ofString entry.1 ++ (.ofString "=\"" ++ (escapeLabelValue entry.2 ++ .ofString "\""))

def labelPairs (labels : LabelMap JsString) : JsString :=
  List.intercalate [44] (labels.entries.map labelPair)

def labelStr (labels : LabelMap JsString) : JsString :=
  if labelPairs labels = [] then [] else .ofString "\x7b" ++ (labelPairs labels ++ .ofString "\x7d")

def valueLine (name : String) (val : MetricValue JsNumeric JsString) : JsString :=
  .ofString name ++ (labelStr val.labels ++ (.ofString " " ++ printed val.value))

def valueLines (name : String) : List (MetricValue JsNumeric JsString) → List JsString
  | [] => [.ofString name ++ .ofString " 0"]
  | values => values.map (valueLine name)

def metricLines (name : String) (metric : Metric JsNumeric JsString) : List JsString :=
  [.ofString "# HELP " ++ (.ofString name ++ (.ofString " " ++ metric.help)),
   .ofString "# TYPE " ++ (.ofString name ++ (.ofString " " ++ .ofString metric.type.text))] ++
    valueLines name metric.values ++ [[]]

section Printing
variable [Add JsNumeric] [One JsNumeric] (double : Rat → JsNumeric)

/-- The text, and the service after the system metrics have been collected for it. -/
def getPrometheusMetricsText (readings : SystemReadings)
    (service : MetricsService JsNumeric JsString) : JsString × MetricsService JsNumeric JsString :=
  let collected := service.collectSystemMetrics double readings
  (List.intercalate [10] (collected.metrics.entries.flatMap fun entry => metricLines entry.1 entry.2),
   collected)

end Printing

/-- All keys are label names; the service takes any. -/
def hasLabelNames (labels : LabelMap JsString) : Bool :=
  labels.keys.all fun key => isName isLabelStart (.ofString key)

/-- Metrics with valid names and help texts of one line, labels with valid names. -/
def MetricCall.isValid : MetricCall JsNumeric JsString → Bool
  | .registerMetric name help _ => isName isMetricStart (.ofString name) && !help.contains 10
  | .incrementCounter _ labels _ => hasLabelNames labels
  | .setGauge _ _ labels => hasLabelNames labels
  | .recordObserveHistogram _ _ labels => hasLabelNames labels
  | .collectSystemMetrics _ => true

/-- Valid calls, in any order. -/
def validCalls : Machine.Permit (MetricsService JsNumeric JsString) (MetricCall JsNumeric JsString)
    Unit := fun _ _ call => call.isValid = true

/-- The pairs of a label map in its own order. -/
def pairsOf (labels : LabelMap JsString) : List (JsString × JsString) :=
  labels.entries.map fun entry => (.ofString entry.1, entry.2)

def sampleOfValue (name : String) (val : MetricValue JsNumeric JsString) : Sample :=
  ⟨.ofString name, pairsOf val.labels, val.value.unsigned⟩

/-- The samples of a metric, or one without labels that is zero. -/
def metricSamples (name : String) : List (MetricValue JsNumeric JsString) → List Sample
  | [] => [⟨.ofString name, [], .finite .zero⟩]
  | values => values.map (sampleOfValue name)

/-- What there is to be read from the text of a service. -/
def samplesOf (service : MetricsService JsNumeric JsString) : List Sample :=
  service.metrics.entries.flatMap fun entry => metricSamples entry.1 entry.2.values

section Escaping

/- The backslashes that the later replacements write are not replaced again. -/
theorem escapeLabelValue_units (val : JsString) : escapeLabelValue val = val.flatMap escapeUnit := by
  have each (u : UInt16) : escapeLabelValue [u] = escapeUnit u := by
    unfold escapeUnit
    by_cases backslash : u = 92
    · subst u
      rfl
    · by_cases quote : u = 34
      · subst u
        rfl
      · by_cases newline : u = 10
        · subst u
          rfl
        · simp [escapeLabelValue, replaceEach, backslash, quote, newline]
  induction val with
  | nil => rfl
  | cons u rest ih =>
    have split : escapeLabelValue (u :: rest) = escapeLabelValue [u] ++ escapeLabelValue rest := by
      simp only [escapeLabelValue, replaceEach, List.flatMap_cons, List.flatMap_append,
        List.flatMap_nil, List.append_nil]
    rw [split, each, ih, List.flatMap_cons]

end Escaping

section Lines
variable {name : String}

theorem labelPairs_text (labels : LabelMap JsString) :
    labelPairs labels = pairsText (pairsOf labels) := by
  rw [labelPairs, pairsText, pairsOf, List.map_map]
  congr 1
  apply List.map_congr_left
  intro entry _
  rw [labelPair, Function.comp_apply, pairText, escapeLabelValue_units]
  rfl

theorem labelStr_text (labels : LabelMap JsString) :
    labelStr labels = labelsText (pairsOf labels) := by
  rw [labelStr, labelsText, labelPairs_text]
  by_cases bare : pairsOf labels = []
  · rw [if_pos bare, bare]
    rfl
  · have written : pairsText (pairsOf labels) ≠ [] := by
      intro none
      have length := pairs_length (pairsOf labels)
      rw [none] at length
      exact bare (List.eq_nil_of_length_eq_zero (Nat.le_zero.mp length))
    rw [if_neg written, if_neg bare]
    rfl

theorem valueLine_text (name : String) (val : MetricValue JsNumeric JsString) :
    valueLine name val = sampleText (.ofString name) (pairsOf val.labels) val.value := by
  rw [valueLine, labelStr_text]
  rfl

theorem pairs_valid {labels : LabelMap JsString} (valid : hasLabelNames labels = true) :
    ∀ pair ∈ pairsOf labels, isName isLabelStart pair.1 = true := by
  intro pair member
  obtain ⟨entry, inside, rfl⟩ := List.mem_map.mp member
  exact List.all_eq_true.mp valid entry.1 (List.mem_map_of_mem inside)

theorem valueLine_read (named : isName isMetricStart (.ofString name) = true)
    {val : MetricValue JsNumeric JsString} (valid : hasLabelNames val.labels = true) :
    readLine (valueLine name val) = some (some (sampleOfValue name val)) := by
  rw [valueLine_text]
  exact readLine_text named (pairs_valid valid) val.value

theorem valueLines_read (named : isName isMetricStart (.ofString name) = true)
    {values : List (MetricValue JsNumeric JsString)}
    (valid : ∀ val ∈ values, hasLabelNames val.labels = true) :
    readLines (valueLines name values) = some (metricSamples name values) := by
  cases values with
  | nil =>
    have zero : JsString.ofString name ++ JsString.ofString " 0" =
        sampleText (.ofString name) [] (.finite .zero) := rfl
    have bare : ∀ pair ∈ ([] : List (JsString × JsString)), isName isLabelStart pair.1 = true := by
      simp
    have read := readLine_text named bare (.finite .zero)
    rw [valueLines, zero, readLines, read]
    rfl
  | cons val rest =>
    exact readLines_samples fun val member => valueLine_read named (valid val member)

/- Every line of the samples of a metric is one line. -/
theorem valueLines_unbroken (named : isName isMetricStart (.ofString name) = true)
    {values : List (MetricValue JsNumeric JsString)}
    (valid : ∀ val ∈ values, hasLabelNames val.labels = true) :
    ∀ line ∈ valueLines name values, 10 ∉ line := by
  intro line member
  cases values with
  | nil =>
    obtain rfl := List.mem_singleton.mp member
    have front := name_unbroken (by decide) named
    have zero : (10 : UInt16) ∉ JsString.ofString " 0" := by decide
    simp [front, zero]
  | cons val rest =>
    obtain ⟨val, inside, rfl⟩ := List.mem_map.mp member
    rw [valueLine_text]
    exact sampleText_unbroken named (pairs_valid (valid val inside)) val.value

end Lines

/-- What valid calls make of the metrics. -/
structure ValidMetric (name : String) (metric : Metric JsNumeric JsString) : Prop where
  named : isName isMetricStart (.ofString name) = true
  help : 10 ∉ metric.help
  labels : ∀ val ∈ metric.values, hasLabelNames val.labels = true

namespace ValidMetric
variable {name : String} {metric : Metric JsNumeric JsString}

theorem record (valid : ValidMetric name metric) {labels : LabelMap JsString}
    (names : hasLabelNames labels = true) (update : JsNumeric → JsNumeric) (fresh : JsNumeric) :
    ValidMetric name
      { metric with values := Monitoring.record labels update fresh metric.values } where
  named := valid.named
  help := valid.help
  labels := by
    intro val member
    rcases mem_record member with ⟨before, inside, same⟩ | ⟨own, -⟩
    · rw [same]
      exact valid.labels before inside
    · rw [own]
      exact names

/- The lines of a metric: two comments, its samples and a blank line. -/
theorem lines_read (valid : ValidMetric name metric) :
    readLines (metricLines name metric) = some (metricSamples name metric.values) := by
  have head (help type : JsString) : readLines [JsString.ofString "# HELP " ++ help,
      JsString.ofString "# TYPE " ++ type] = some [] := by
    have first : readLine (JsString.ofString "# HELP " ++ help) = some none := readLine_comment _
    have second : readLine (JsString.ofString "# TYPE " ++ type) = some none := readLine_comment _
    simp only [readLines, first, second, Option.bind_eq_bind, Option.bind_some, pure]
    rfl
  have samples := valueLines_read valid.named valid.labels
  have last : readLines [[]] = some [] := rfl
  rw [metricLines, readLines_append (readLines_append (head _ _) samples) last, List.nil_append,
    List.append_nil]

theorem lines_unbroken (valid : ValidMetric name metric) :
    ∀ line ∈ metricLines name metric, 10 ∉ line := by
  have front := name_unbroken (by decide) valid.named
  have samples := valueLines_unbroken valid.named valid.labels
  have first : (10 : UInt16) ∉ JsString.ofString "# HELP " := by decide
  have second : (10 : UInt16) ∉ JsString.ofString "# TYPE " := by decide
  have blank : (10 : UInt16) ∉ JsString.ofString " " := by decide
  have type : (10 : UInt16) ∉ JsString.ofString metric.type.text := by
    cases metric.type with
    | counter => decide
    | gauge => decide
    | histogram => decide
  intro line member
  simp only [metricLines, List.mem_append, List.mem_cons, List.not_mem_nil, or_false] at member
  rcases member with ((rfl | rfl) | sample) | rfl
  · simp [first, front, blank, valid.help]
  · simp [second, front, blank, type]
  · exact samples line sample
  · simp

end ValidMetric

/-- All metrics of a service are valid. -/
def AllValid (service : MetricsService JsNumeric JsString) : Prop :=
  ∀ name metric, service.metrics.get name = some metric → ValidMetric name metric

/- The text of a service with valid metrics is read as its samples. -/
theorem AllValid.parse {service : MetricsService JsNumeric JsString} (valid : AllValid service) :
    parse (List.intercalate [10] (service.metrics.entries.flatMap fun entry =>
      metricLines entry.1 entry.2)) = some (samplesOf service) := by
  have each : ∀ entry ∈ service.metrics.entries, ValidMetric entry.1 entry.2 :=
    fun entry member => valid entry.1 entry.2 (service.metrics.get_iff_mem.mpr member)
  have unbroken : ∀ line ∈ service.metrics.entries.flatMap fun entry => metricLines entry.1 entry.2,
      10 ∉ line := by
    intro line member
    obtain ⟨entry, inside, written⟩ := List.mem_flatMap.mp member
    exact (each entry inside).lines_unbroken line written
  rw [parse_lines unbroken]
  exact readLines_blocks fun entry member => (each entry member).lines_read

theorem defaults_valid : AllValid (MetricsService.loadDefaults JsString.ofString) := by
  have names : ∀ metric ∈ MetricsService.defaultMetrics,
      isName isMetricStart (.ofString metric.1) = true := by decide +kernel
  have helps : ∀ metric ∈ MetricsService.defaultMetrics, 10 ∉ JsString.ofString metric.2.1 := by
    decide +kernel
  apply loadDefaults_all JsString.ofString ValidMetric
  intro metric member
  exact ⟨names metric member, helps metric member, by simp⟩

section Runs
variable [One JsNumeric] {double : Rat → JsNumeric}

theorem updates_valid {call : MetricCall JsNumeric JsString} (valid : call.isValid = true)
    {known : String → Bool} : ∀ u ∈ call.updates double known, hasLabelNames u.labels = true := by
  intro u member
  cases call with
  | registerMetric name help type => cases member
  | incrementCounter name labels amount =>
    obtain rfl := List.mem_singleton.mp member
    exact valid
  | setGauge name value labels =>
    obtain rfl := List.mem_singleton.mp member
    exact valid
  | recordObserveHistogram name valueInSeconds labels =>
    simp only [MetricCall.updates] at member
    split at member
    · simp only [List.mem_cons, List.not_mem_nil, or_false] at member
      rcases member with rfl | rfl
      · exact valid
      · exact valid
    · cases member
  | collectSystemMetrics readings =>
    obtain ⟨gauge, -, rfl⟩ := List.mem_map.mp member
    rfl

variable [Add JsNumeric]

theorem AllValid.perform {calls : List (MetricCall JsNumeric JsString)}
    {service : MetricsService JsNumeric JsString} (all : AllValid service)
    (tracks : Tracks double calls service) {call : MetricCall JsNumeric JsString}
    (valid : call.isValid = true) : AllValid (service.perform double call) := by
  rcases registers_cases call with updating | ⟨name, help, type, rfl⟩
  · rw [perform_updates tracks.knows updating]
    apply performs_all
    · intro u member metric before
      exact before.record (updates_valid valid u member) _ _
    · exact all
  · simp only [MetricCall.isValid, Bool.and_eq_true, Bool.not_eq_true', List.contains_eq_mem,
      decide_eq_false_iff_not] at valid
    have own : ValidMetric name ⟨name, help, type, []⟩ := ⟨valid.1, valid.2, by simp⟩
    exact register_all ValidMetric own all

/- Every sequence of valid calls is the past of a run. -/
theorem valid_calls_run {calls : List (MetricCall JsNumeric JsString)}
    (valid : ∀ call ∈ calls, call.isValid = true) :
    ∃ service, Machine.Run (metricsMachine double JsString.ofString) validCalls
      (calls.map fun call => (call, ())) service := by
  induction calls with
  | nil => exact ⟨_, Machine.Run.start⟩
  | cons call earlier ih =>
    obtain ⟨service, run⟩ := ih fun other member => valid other (List.mem_cons_of_mem _ member)
    exact ⟨service.perform double call, run.next (valid call List.mem_cons_self) rfl⟩

theorem valid_run {past : List (MetricCall JsNumeric JsString × Unit)}
    {service : MetricsService JsNumeric JsString}
    (run : Machine.Run (metricsMachine double JsString.ofString) validCalls past service) :
    AllValid service := by
  refine run.invariant (fun _ service => AllValid service) ?_ ?_
  · dsimp only [metricsMachine]
    exact defaults_valid
  · intro past service call after answer before all valid moved
    cases moved
    exact all.perform (tracks_run before) valid

/-- After any run of valid calls each label map has at most one sample in a metric, made by its
    updates. What is then printed is read as exactly the samples there are, and a zero for each
    metric without any; only the sign of zero is not in the text. -/
theorem metrics_text_reads_back {past : List (MetricCall JsNumeric JsString × Unit)}
    {service : MetricsService JsNumeric JsString}
    (run : Machine.Run (metricsMachine double JsString.ofString) validCalls past service)
    (readings : SystemReadings) :
    let printing := getPrometheusMetricsText double readings service
    Tracks double (past.map Prod.fst) service ∧
      Tracks double (.collectSystemMetrics readings :: past.map Prod.fst) printing.2 ∧
      parse printing.1 = some (samplesOf printing.2) := by
  have tracks := tracks_run run
  have collecting : MetricCall.isValid (.collectSystemMetrics readings) = true := rfl
  exact ⟨tracks, tracks.perform _, ((valid_run run).perform tracks collecting).parse⟩

end Runs

section Requests

/-- Whole numbers, as the host has them. -/
def wholeNumber (q : Rat) : JsNumeric :=
  let digits := (Nat.toDigits 10 q.num.natAbs).map JsNumber.charDigit
  .finite (.ofDigits (decide (q < 0)) digits digits.length)

local instance wholeAddition : Add JsNumeric where
  add x y :=
    match x.magnitude, y.magnitude with
    | .finite a, .finite b => wholeNumber (a + b)
    | _, _ => .nan

local instance wholeOne : One JsNumeric := ⟨wholeNumber 1⟩

/- Requests under a path with a quote, a backslash and a newline. -/
theorem quoted_path_reads_back :
    let path : JsString := .ofString "/a\"b\\c\nd"
    let labels := (InsertionMap.empty.set "method" (JsString.ofString "GET")).set "path" path
    let other := (InsertionMap.empty.set "path" path).set "method" (JsString.ofString "GET")
    let calls := [.incrementCounter "http_requests_total" other (wholeNumber 2),
      .incrementCounter "http_requests_total" labels (wholeNumber 1)]
    let readings : SystemReadings := ⟨300, 100, 200, 7, 900, 400, []⟩
    sampleOf wholeNumber calls "http_requests_total" labels = some (wholeNumber 3) ∧
      ∃ service, Tracks wholeNumber calls service ∧
        Tracks wholeNumber (.collectSystemMetrics readings :: calls)
          (getPrometheusMetricsText wholeNumber readings service).2 ∧
        parse (getPrometheusMetricsText wholeNumber readings service).1 =
          some (samplesOf (getPrometheusMetricsText wholeNumber readings service).2) := by
  intro path labels other calls readings
  have valid : ∀ call ∈ calls, call.isValid = true := by decide +kernel
  have counted : sampleOf wholeNumber calls "http_requests_total" labels = some (wholeNumber 3) := by
    decide +kernel
  obtain ⟨service, run⟩ : ∃ service, Machine.Run (metricsMachine wholeNumber JsString.ofString)
      validCalls (calls.map fun call => (call, ())) service := valid_calls_run valid
  have reads := metrics_text_reads_back run readings
  rw [List.map_map] at reads
  exact ⟨counted, service, reads⟩

end Requests

end AstraPort.Monitoring
