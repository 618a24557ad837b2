import Mathlib.Algebra.BigOperators.Group.List.Basic
import Mathlib.Data.List.Perm.Subperm
import AstraPort.Foundation.InsertionMap

/- MetricsService: named metrics, each a list of samples told apart by their label maps. The
   numbers are any type that can be added, the values of labels any texts. -/
namespace AstraPort.Monitoring

/-- Record<string, string>. -/
abbrev LabelMap (Text : Type) := InsertionMap String Text

abbrev Labels := LabelMap String

structure MetricValue (Number : Type) (Text : Type := String) where
  labels : LabelMap Text
  value : Number

inductive MetricType where
  | counter
  | gauge
  | histogram
  deriving DecidableEq

structure Metric (Number : Type) (Text : Type := String) where
  name : String
  help : Text
  type : MetricType
  values : List (MetricValue Number Text)

structure MetricsService (Number : Type) (Text : Type := String) where
  metrics : InsertionMap String (Metric Number Text)

section Samples
variable {Number Text : Type} [DecidableEq Text]

def areLabelsEqual (l1 l2 : LabelMap Text) : Bool :=
  l1.size == l2.size && l1.keys.all fun key => l1.get key == l2.get key

def findMetricValue (values : List (MetricValue Number Text)) (labels : LabelMap Text) :
    Option (MetricValue Number Text) := values.find? fun v => areLabelsEqual v.labels labels

/-- The first sample with these labels is updated in place, or a fresh one is added. -/
def record (labels : LabelMap Text) (update : Number → Number) (fresh : Number) :
    List (MetricValue Number Text) → List (MetricValue Number Text)
  | [] => [⟨labels, fresh⟩]
  | v :: rest =>
    if areLabelsEqual v.labels labels then { v with value := update v.value } :: rest
    else v :: record labels update fresh rest

end Samples

namespace MetricsService
variable {Number Text : Type}

def registerMetric (service : MetricsService Number Text) (metric : Metric Number Text) :
    MetricsService Number Text :=
  match service.metrics.get metric.name with
  | some _ => service
  | none => ⟨service.metrics.set metric.name metric⟩

/-- Changes the samples of a metric; an unknown name changes nothing. -/
def change (service : MetricsService Number Text) (name : String)
    (f : List (MetricValue Number Text) → List (MetricValue Number Text)) :
    MetricsService Number Text :=
  match service.metrics.get name with
  | none => service
  | some metric => ⟨service.metrics.set name { metric with values := f metric.values }⟩

section Updates
variable [DecidableEq Text]

def incrementCounter [Add Number] (service : MetricsService Number Text) (name : String)
    (labels : LabelMap Text) (amount : Number) : MetricsService Number Text :=
  service.change name (record labels (· + amount) amount)

def setGauge (service : MetricsService Number Text) (name : String) (value : Number)
    (labels : LabelMap Text) : MetricsService Number Text :=
  service.change name (record labels (fun _ => value) value)

def recordObserveHistogram [Add Number] [One Number] (service : MetricsService Number Text)
    (name : String) (valueInSeconds : Number) (labels : LabelMap Text) :
    MetricsService Number Text :=
  match service.metrics.get name with
  | none => service
  | some _ =>
    (service.change name (record labels (· + valueInSeconds) valueInSeconds)).incrementCounter
      (name ++ "_count") labels 1

def getMetricValue [Zero Number] (service : MetricsService Number Text) (name : String)
    (labels : LabelMap Text) : Number :=
  match service.metrics.get name with
  | none => 0
  | some metric => ((findMetricValue metric.values labels).map MetricValue.value).getD 0

end Updates

/-- Name, help text and type of every metric a service starts with. -/
def defaultMetrics : List (String × String × MetricType) :=
  [("http_requests_total", "Total number of HTTP requests processed", .counter),
   ("http_request_duration_seconds", "HTTP request duration in seconds", .histogram),
   ("http_requests_in_flight", "Current number of HTTP requests being processed", .gauge),
   ("http_errors_total", "Total number of HTTP requests resulting in 4xx or 5xx errors", .counter),
   ("process_cpu_usage_ratio", "Current process CPU usage ratio (0.0 to 1.0 per core)", .gauge),
   ("process_memory_rss_bytes", "Process resident set size memory in bytes", .gauge),
   ("process_memory_heap_used_bytes", "Process heap memory used in bytes", .gauge),
   ("process_memory_heap_total_bytes", "Process total heap memory allocated in bytes", .gauge),
   ("process_uptime_seconds", "Node.js process uptime in seconds", .gauge),
   ("system_memory_total_bytes", "Total system memory in bytes", .gauge),
   ("system_memory_free_bytes", "Free system memory in bytes", .gauge),
   ("astraport_portfolio_analyses_total", "Total portfolio analysis requests processed", .counter),
   ("astraport_rebalancing_executions_total",
    "Total portfolio rebalancing execution attempts by status", .counter),
   ("astraport_rebalancing_schedule_count", "Current count of active rebalancing schedules", .gauge),
   ("astraport_risk_evaluations_total", "Total risk evaluations performed", .counter),
   ("astraport_risk_score_last", "Most recently calculated risk score", .gauge),
   ("astraport_contract_invocations_total", "Total Soroban smart contract invocations", .counter),
   ("astraport_active_subscriptions", "Total active user/event subscriptions", .gauge),
   ("astraport_ai_triggers_active", "Total active AI triggers registered", .gauge)]

/-- The default metrics, their help texts as texts of the kind at hand. -/
def loadDefaults (text : String → Text) : MetricsService Number Text :=
  defaultMetrics.foldl (fun service metric =>
    service.registerMetric ⟨metric.1, text metric.2.1, metric.2.2, []⟩) ⟨InsertionMap.empty⟩

def initializeDefaultMetrics : MetricsService Number := loadDefaults id

end MetricsService

section Equality
variable {Number Text : Type} [DecidableEq Text]

/- Two label maps are equal when they give every key the same value. -/
theorem areLabelsEqual_iff {l1 l2 : LabelMap Text} :
    areLabelsEqual l1 l2 = true ↔ ∀ key, l1.get key = l2.get key := by
  have present (l : LabelMap Text) (key : String) : key ∈ l.keys ↔ l.get key ≠ none := by
    rw [ne_eq, l.get_none_iff, not_not]
  have sizes (l : LabelMap Text) : l.size = l.keys.length := (List.length_map Prod.fst).symm
  simp only [areLabelsEqual, Bool.and_eq_true, beq_iff_eq, List.all_eq_true]
  constructor
  · rintro ⟨size, agree⟩ key
    by_cases known : key ∈ l1.keys
    · exact agree key known
    · have within : l1.keys ⊆ l2.keys := by
        intro other member
        rw [present, ← agree other member, ← present]
        exact member
      have lengths : l2.keys.length = l1.keys.length := by rw [← sizes, ← sizes, size]
      have same : List.Perm l1.keys l2.keys :=
        (List.subperm_of_subset l1.distinct within).perm_of_length_le (Nat.le_of_eq lengths)
      have unknown : key ∉ l2.keys := fun member => known (same.mem_iff.mpr member)
      rw [l1.get_none_iff.mpr known, l2.get_none_iff.mpr unknown]
  · intro agree
    refine ⟨?_, fun key _ => agree key⟩
    rw [sizes, sizes]
    refine List.Perm.length_eq ((List.perm_ext_iff_of_nodup l1.distinct l2.distinct).mpr ?_)
    intro key
    rw [← InsertionMap.keys, ← InsertionMap.keys, present, present, agree key]

/- Updating the sample of some labels, and reading that of any. -/
theorem findMetricValue_record (labels other : LabelMap Text) (update : Number → Number)
    (fresh : Number) (values : List (MetricValue Number Text)) :
    (findMetricValue (record labels update fresh values) other).map MetricValue.value =
      if areLabelsEqual labels other then
        some (((findMetricValue values labels).map fun v => update v.value).getD fresh)
      else (findMetricValue values other).map MetricValue.value := by
  induction values with
  | nil => by_cases same : areLabelsEqual labels other <;> simp [record, findMetricValue, same]
  | cons v rest ih =>
    by_cases own : areLabelsEqual v.labels labels = true
    · have alike : areLabelsEqual v.labels other = areLabelsEqual labels other := by
        rw [Bool.eq_iff_iff, areLabelsEqual_iff, areLabelsEqual_iff]
        have equal := areLabelsEqual_iff.mp own
        exact forall_congr' fun key => by rw [equal key]
      by_cases same : areLabelsEqual labels other = true
      · simp [record, findMetricValue, own, alike, same]
      · simp [record, findMetricValue, own, alike, same]
    · by_cases found : areLabelsEqual v.labels other = true
      · have apart : ¬ areLabelsEqual labels other = true := by
          intro same
          refine own (areLabelsEqual_iff.mpr fun key => ?_)
          rw [areLabelsEqual_iff.mp found key, areLabelsEqual_iff.mp same key]
        simp [record, findMetricValue, own, found, apart]
      · simp only [findMetricValue] at ih
        simp only [record, own, findMetricValue, List.find?_cons, found, ↓reduceIte,
          Bool.false_eq_true]
        exact ih

/- Equal labels find the same sample. -/
theorem findMetricValue_alike {labels other : LabelMap Text}
    (same : areLabelsEqual labels other = true) (values : List (MetricValue Number Text)) :
    findMetricValue values labels = findMetricValue values other := by
  have equal := areLabelsEqual_iff.mp same
  unfold findMetricValue
  congr 1
  funext v
  rw [Bool.eq_iff_iff, areLabelsEqual_iff, areLabelsEqual_iff]
  exact forall_congr' fun key => by rw [equal key]

/- One sample takes the amount, whichever it is. -/
theorem sum_record [AddCommMonoid Number] (labels : LabelMap Text) (amount : Number)
    (values : List (MetricValue Number Text)) :
    ((record labels (· + amount) amount values).map MetricValue.value).sum =
      (values.map MetricValue.value).sum + amount := by
  induction values with
  | nil => simp [record]
  | cons v rest ih =>
    rw [record]
    by_cases own : areLabelsEqual v.labels labels = true
    · rw [if_pos own, List.map_cons, List.map_cons, List.sum_cons, List.sum_cons, add_right_comm]
    · rw [if_neg own, List.map_cons, List.map_cons, List.sum_cons, List.sum_cons, ih, add_assoc]

end Equality

namespace MetricsService
variable {Number Text : Type}

/-- A metric of this name is there to be written. -/
def Registered (service : MetricsService Number Text) (name : String) : Prop :=
  service.metrics.get name ≠ none

theorem change_registered {service : MetricsService Number Text} {name other : String}
    {f : List (MetricValue Number Text) → List (MetricValue Number Text)}
    (registered : service.Registered other) : (service.change name f).Registered other := by
  unfold change Registered
  split
  · exact registered
  · rw [InsertionMap.get_set]
    split
    · simp
    · exact registered

theorem change_get_other {service : MetricsService Number Text} {name other : String}
    {f : List (MetricValue Number Text) → List (MetricValue Number Text)} (apart : other ≠ name) :
    (service.change name f).metrics.get other = service.metrics.get other := by
  unfold change
  split
  · rfl
  · exact InsertionMap.get_set_ne _ _ apart

section Reading
variable [DecidableEq Text]

theorem change_other [Zero Number] {service : MetricsService Number Text} {name other : String}
    {f : List (MetricValue Number Text) → List (MetricValue Number Text)} (apart : other ≠ name)
    (labels : LabelMap Text) :
    (service.change name f).getMetricValue other labels = service.getMetricValue other labels := by
  rw [getMetricValue, getMetricValue, change_get_other apart]

theorem setGauge_reads [Zero Number] {service : MetricsService Number Text} {name : String}
    (registered : service.Registered name) (value : Number) (labels other : LabelMap Text) :
    (service.setGauge name value labels).getMetricValue name other =
      if areLabelsEqual labels other then value else service.getMetricValue name other := by
  obtain ⟨metric, found⟩ := Option.ne_none_iff_exists'.mp registered
  simp only [setGauge, change, getMetricValue, found, InsertionMap.get_set_self,
    findMetricValue_record]
  split
  · cases findMetricValue metric.values labels <;> rfl
  · rfl

/- A counter grows by the amount under its labels and stays as it is under all others. -/
theorem incrementCounter_reads [AddZeroClass Number] {service : MetricsService Number Text}
    {name : String} (registered : service.Registered name) (amount : Number)
    (labels other : LabelMap Text) :
    (service.incrementCounter name labels amount).getMetricValue name other =
      service.getMetricValue name other + if areLabelsEqual labels other then amount else 0 := by
  obtain ⟨metric, found⟩ := Option.ne_none_iff_exists'.mp registered
  simp only [incrementCounter, change, getMetricValue, found, InsertionMap.get_set_self,
    findMetricValue_record]
  by_cases same : areLabelsEqual labels other = true
  · rw [if_pos same, if_pos same, findMetricValue_alike same]
    cases findMetricValue metric.values other with
    | none => exact (zero_add amount).symm
    | some v => rfl
  · rw [if_neg same, if_neg same, add_zero]

end Reading

/-- The sum of a metric over all its samples. -/
def sampleTotal [AddCommMonoid Number] (service : MetricsService Number Text) (name : String) :
    Number :=
  match service.metrics.get name with
  | none => 0
  | some metric => (metric.values.map MetricValue.value).sum

theorem incrementCounter_total [DecidableEq Text] [AddCommMonoid Number]
    {service : MetricsService Number Text} {name : String} (registered : service.Registered name)
    (amount : Number) (labels : LabelMap Text) :
    (service.incrementCounter name labels amount).sampleTotal name =
      service.sampleTotal name + amount := by
  obtain ⟨metric, found⟩ := Option.ne_none_iff_exists'.mp registered
  simp only [incrementCounter, change, sampleTotal, found, InsertionMap.get_set_self]
  exact sum_record labels amount metric.values

end MetricsService
end AstraPort.Monitoring
