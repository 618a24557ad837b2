import AstraPort.Foundation.Host
import AstraPort.Foundation.Machine
import AstraPort.Monitoring.Metrics

/- The samples of MetricsService over whole runs. Metrics are registered without samples; then each
   label map has at most one sample in a metric, and its value is made by the updates for it. -/
namespace AstraPort.Monitoring

/-- The times one core has spent in each mode. -/
structure CpuTimes where
  user : Nat
  nice : Nat
  sys : Nat
  idle : Nat
  irq : Nat

/-- What collectSystemMetrics reads of the process and the system. -/
structure SystemReadings where
  rss : Nat
  heapUsed : Nat
  heapTotal : Nat
  uptime : Rat
  totalmem : Nat
  freemem : Nat
  cpus : List CpuTimes

def cpuUsage (cpus : List CpuTimes) : Rat :=
  let totalIdle := (cpus.map CpuTimes.idle).sum
  let totalTick := (cpus.map fun cpu => cpu.user + cpu.nice + cpu.sys + cpu.idle + cpu.irq).sum
  1 - totalIdle / (if totalTick = 0 then 1 else totalTick : Nat)

/-- The gauges that collectSystemMetrics sets; that of the cores when there are some. -/
def systemGauges (readings : SystemReadings) : List (String × Rat) :=
  let always : List (String × Rat) :=
    [("process_memory_rss_bytes", readings.rss),
     ("process_memory_heap_used_bytes", readings.heapUsed),
     ("process_memory_heap_total_bytes", readings.heapTotal),
     ("process_uptime_seconds", ⌊readings.uptime⌋),
     ("system_memory_total_bytes", readings.totalmem),
     ("system_memory_free_bytes", readings.freemem)]
  if readings.cpus = [] then always
  else always ++ [("process_cpu_usage_ratio", toFixed 4 (cpuUsage readings.cpus))]

/-- A call of the metrics service; a metric is registered without samples. -/
inductive MetricCall (Number Text : Type) where
  | registerMetric (name : String) (help : Text) (type : MetricType)
  | incrementCounter (name : String) (labels : LabelMap Text) (amount : Number)
  | setGauge (name : String) (value : Number) (labels : LabelMap Text)
  | recordObserveHistogram (name : String) (valueInSeconds : Number) (labels : LabelMap Text)
  | collectSystemMetrics (readings : SystemReadings)

/-- What becomes of the value of one sample. -/
inductive SampleUpdate (Number : Type) where
  | add (amount : Number)
  | set (value : Number)

def SampleUpdate.apply {Number : Type} [Add Number] : SampleUpdate Number → Option Number → Number
  | .add amount, none => amount
  | .add amount, some value => value + amount
  | .set value, _ => value

section Calls
variable {Number Text : Type} [Add Number] [One Number] [DecidableEq Text]
  (double : Rat → Number)

namespace MetricsService

/-- An exact value is held as the number the host has for it. -/
def collectSystemMetrics (service : MetricsService Number Text) (readings : SystemReadings) :
    MetricsService Number Text :=
  (systemGauges readings).foldl (fun service gauge =>
    service.setGauge gauge.1 (double gauge.2) InsertionMap.empty) service

def perform (service : MetricsService Number Text) :
    MetricCall Number Text → MetricsService Number Text
  | .registerMetric name help type => service.registerMetric ⟨name, help, type, []⟩
  | .incrementCounter name labels amount => service.incrementCounter name labels amount
  | .setGauge name value labels => service.setGauge name value labels
  | .recordObserveHistogram name valueInSeconds labels =>
    service.recordObserveHistogram name valueInSeconds labels
  | .collectSystemMetrics readings => service.collectSystemMetrics double readings

end MetricsService

/-- The service from its construction on. -/
def metricsMachine (text : String → Text) :
    Machine (MetricsService Number Text) (MetricCall Number Text) Unit :=
  ⟨MetricsService.loadDefaults text, fun service call => some (service.perform double call, ())⟩

def MetricCall.registers : MetricCall Number Text → Option String
  | .registerMetric name _ _ => some name
  | _ => none

/-- A metric of this name is there after the calls. -/
def isKnown (calls : List (MetricCall Number Text)) (name : String) : Bool :=
  MetricsService.defaultMetrics.any (fun metric => metric.1 = name) ||
    calls.any fun call => call.registers = some name

/-- An update of the sample of a metric under some labels. -/
structure LabelledUpdate (Number Text : Type) where
  name : String
  labels : LabelMap Text
  update : SampleUpdate Number

/-- The updates a call asks for; a histogram that is known is counted, too. -/
def MetricCall.updates (known : String → Bool) :
    MetricCall Number Text → List (LabelledUpdate Number Text)
  | .registerMetric _ _ _ => []
  | .incrementCounter name labels amount => [⟨name, labels, .add amount⟩]
  | .setGauge name value labels => [⟨name, labels, .set value⟩]
  | .recordObserveHistogram name valueInSeconds labels =>
    if known name then
      [⟨name, labels, .add valueInSeconds⟩, ⟨name ++ "_count", labels, .add 1⟩]
    else []
  | .collectSystemMetrics readings =>
    (systemGauges readings).map fun gauge => ⟨gauge.1, InsertionMap.empty, .set (double gauge.2)⟩

/-- One update, as a sample of a known metric sees it: it is its own when the name and the label map
    are. -/
def written (known : String → Bool) (name : String) (labels : LabelMap Text)
    (before : Option Number) (u : LabelledUpdate Number Text) : Option Number :=
  if u.name = name ∧ known name ∧ areLabelsEqual u.labels labels then some (u.update.apply before)
  else before

/-- The fold of the updates for a metric and a label map; those for unknown metrics are lost. The
    newest call comes first. -/
def sampleOf : List (MetricCall Number Text) → String → LabelMap Text → Option Number
  | [], _, _ => none
  | call :: earlier, name, labels =>
    (call.updates double (isKnown earlier)).foldl (written (isKnown earlier) name labels)
      (sampleOf earlier name labels)

end Calls

section Registering
variable {Number Text : Type}

theorem isKnown_cons (call : MetricCall Number Text) (earlier : List (MetricCall Number Text))
    (name : String) : isKnown (call :: earlier) name = true ↔
      isKnown earlier name = true ∨ call.registers = some name := by
  simp only [isKnown, List.any_cons, Bool.or_eq_true, decide_eq_true_eq]
  rw [or_left_comm, or_comm]

theorem registers_cases (call : MetricCall Number Text) :
    call.registers = none ∨ ∃ name help type, call = .registerMetric name help type := by
  cases call with
  | registerMetric name help type => exact Or.inr ⟨name, help, type, rfl⟩
  | incrementCounter name labels amount => exact Or.inl rfl
  | setGauge name value labels => exact Or.inl rfl
  | recordObserveHistogram name valueInSeconds labels => exact Or.inl rfl
  | collectSystemMetrics readings => exact Or.inl rfl

theorem registered_of_get {service : MetricsService Number Text} {name : String}
    {metric : Metric Number Text} (found : service.metrics.get name = some metric) :
    service.Registered name := by
  simp [MetricsService.Registered, found]

theorem register_known (service : MetricsService Number Text) (name other : String) (help : Text)
    (type : MetricType) : (service.registerMetric ⟨name, help, type, []⟩).Registered other ↔
      service.Registered other ∨ name = other := by
  unfold MetricsService.registerMetric MetricsService.Registered
  cases found : service.metrics.get name with
  | some metric =>
    refine ⟨Or.inl, fun either => either.elim id ?_⟩
    rintro rfl
    simp [found]
  | none =>
    dsimp only
    rw [InsertionMap.get_set]
    split
    · rename_i same
      simp [same]
    · rename_i apart
      simp [Ne.symm apart]

/- What holds of a new metric, and of those there, holds of all behind a registration. -/
theorem register_all (good : String → Metric Number Text → Prop)
    {service : MetricsService Number Text} {metric : Metric Number Text}
    (own : good metric.name metric)
    (all : ∀ name found, service.metrics.get name = some found → good name found) :
    ∀ name found, (service.registerMetric metric).metrics.get name = some found →
      good name found := by
  unfold MetricsService.registerMetric
  cases service.metrics.get metric.name with
  | some known => exact all
  | none => exact InsertionMap.get_set_all own all

/- What holds of the default metrics, without samples, holds of all there are at the start. -/
theorem loadDefaults_all (text : String → Text) (good : String → Metric Number Text → Prop)
    (fresh : ∀ metric ∈ MetricsService.defaultMetrics,
      good metric.1 ⟨metric.1, text metric.2.1, metric.2.2, []⟩) :
    ∀ name metric, (MetricsService.loadDefaults text).metrics.get name = some metric →
      good name metric := by
  have loaded (metrics : List (String × String × MetricType)) :
      ∀ {service : MetricsService Number Text},
      (∀ metric ∈ metrics, good metric.1 ⟨metric.1, text metric.2.1, metric.2.2, []⟩) →
      (∀ name metric, service.metrics.get name = some metric → good name metric) →
      ∀ name metric, (metrics.foldl (fun service metric =>
        service.registerMetric ⟨metric.1, text metric.2.1, metric.2.2, []⟩) service).metrics.get
          name = some metric → good name metric := by
    induction metrics with
    | nil => exact fun _ all => all
    | cons metric rest ih =>
      intro service fresh all
      exact ih (fun other member => fresh other (List.mem_cons_of_mem _ member))
        (register_all good (fresh metric List.mem_cons_self) all)
  apply loaded MetricsService.defaultMetrics fresh
  intro name metric found
  cases found

theorem loadDefaults_known (text : String → Text) (name : String) :
    (MetricsService.loadDefaults text : MetricsService Number Text).Registered name ↔
      isKnown ([] : List (MetricCall Number Text)) name = true := by
  have loaded (metrics : List (String × String × MetricType)) :
      ∀ service : MetricsService Number Text, (metrics.foldl (fun service metric =>
        service.registerMetric ⟨metric.1, text metric.2.1, metric.2.2, []⟩) service).Registered name ↔
          service.Registered name ∨ metrics.any (fun metric => metric.1 = name) = true := by
    induction metrics with
    | nil => simp
    | cons metric rest ih =>
      intro service
      rw [List.foldl_cons, ih, register_known, List.any_cons, Bool.or_eq_true, decide_eq_true_eq,
        or_assoc]
  have empty : ¬ (⟨InsertionMap.empty⟩ : MetricsService Number Text).Registered name :=
    fun registered => registered rfl
  rw [MetricsService.loadDefaults, loaded, or_iff_right empty]
  simp [isKnown]

end Registering

section Labels
variable {Number Text : Type} [DecidableEq Text]

/-- The value of the sample of a metric under some labels. -/
def valueAt (service : MetricsService Number Text) (name : String) (labels : LabelMap Text) :
    Option Number :=
  (service.metrics.get name).bind fun metric =>
    (findMetricValue metric.values labels).map MetricValue.value

/-- No two samples have equal label maps. -/
def LabelsDiffer (values : List (MetricValue Number Text)) : Prop :=
  values.Pairwise fun v w => areLabelsEqual v.labels w.labels = false

/- Every sample of a metric after an update has the labels of one before it, or those updated. -/
theorem mem_record {labels : LabelMap Text} {update : Number → Number} {fresh : Number}
    {values : List (MetricValue Number Text)} {v : MetricValue Number Text}
    (member : v ∈ record labels update fresh values) :
    (∃ w ∈ values, v.labels = w.labels) ∨ v.labels = labels ∧
      ∀ w ∈ values, areLabelsEqual w.labels labels = false := by
  induction values with
  | nil =>
    obtain rfl := List.mem_singleton.mp member
    exact Or.inr ⟨rfl, by simp⟩
  | cons w rest ih =>
    rw [record] at member
    split at member
    · rcases List.mem_cons.mp member with rfl | behind
      · exact Or.inl ⟨w, List.mem_cons_self, rfl⟩
      · exact Or.inl ⟨v, List.mem_cons_of_mem _ behind, rfl⟩
    · rename_i other
      rcases List.mem_cons.mp member with rfl | behind
      · exact Or.inl ⟨v, List.mem_cons_self, rfl⟩
      · rcases ih behind with ⟨w', inside, same⟩ | ⟨own, apart⟩
        · exact Or.inl ⟨w', List.mem_cons_of_mem _ inside, same⟩
        · refine Or.inr ⟨own, fun w' inside => ?_⟩
          rcases List.mem_cons.mp inside with rfl | later
          · exact Bool.eq_false_of_not_eq_true other
          · exact apart w' later

theorem LabelsDiffer.record {values : List (MetricValue Number Text)} (differ : LabelsDiffer values)
    (labels : LabelMap Text) (update : Number → Number) (fresh : Number) :
    LabelsDiffer (Monitoring.record labels update fresh values) := by
  induction values with
  | nil => exact List.pairwise_singleton _ _
  | cons w rest ih =>
    obtain ⟨first, differ⟩ := List.pairwise_cons.mp differ
    rw [Monitoring.record]
    split
    · exact List.pairwise_cons.mpr ⟨first, differ⟩
    · rename_i other
      refine List.pairwise_cons.mpr ⟨fun v member => ?_, ih differ⟩
      rcases mem_record member with ⟨w', inside, same⟩ | ⟨own, -⟩
      · rw [same]
        exact first w' inside
      · rw [own]
        exact Bool.eq_false_of_not_eq_true other

/- A new metric has no samples, and the others stay. -/
theorem register_valueAt (service : MetricsService Number Text) (name other : String) (help : Text)
    (type : MetricType) (labels : LabelMap Text) :
    valueAt (service.registerMetric ⟨name, help, type, []⟩) other labels =
      valueAt service other labels := by
  unfold MetricsService.registerMetric valueAt
  cases found : service.metrics.get name with
  | some metric => rfl
  | none =>
    dsimp only
    rw [InsertionMap.get_set]
    split
    · rename_i same
      rw [same, found]
      rfl
    · rfl

theorem loadDefaults_valueAt (text : String → Text) (name : String) (labels : LabelMap Text) :
    valueAt (MetricsService.loadDefaults text : MetricsService Number Text) name labels = none := by
  have bare := loadDefaults_all text (fun _ (metric : Metric Number Text) => metric.values = [])
    fun _ _ => rfl
  unfold valueAt
  cases found : (MetricsService.loadDefaults text : MetricsService Number Text).metrics.get name with
  | none => rfl
  | some metric =>
    rw [Option.bind_some, bare name metric found]
    rfl

end Labels

section Updates
variable {Number Text : Type} [Add Number] [DecidableEq Text]

def LabelledUpdate.onSamples (u : LabelledUpdate Number Text) :
    List (MetricValue Number Text) → List (MetricValue Number Text) :=
  record u.labels (fun value => u.update.apply (some value)) (u.update.apply none)

def LabelledUpdate.perform (service : MetricsService Number Text)
    (u : LabelledUpdate Number Text) : MetricsService Number Text :=
  service.change u.name u.onSamples

theorem perform_known (service : MetricsService Number Text) (u : LabelledUpdate Number Text)
    (name : String) : (u.perform service).Registered name ↔ service.Registered name := by
  unfold LabelledUpdate.perform MetricsService.change MetricsService.Registered
  split
  · exact Iff.rfl
  · rename_i metric found
    rw [InsertionMap.get_set]
    split
    · rename_i same
      rw [same, found]
      simp
    · exact Iff.rfl

/- What one update does to the value of a sample. -/
theorem perform_valueAt {service : MetricsService Number Text} {known : String → Bool}
    (knows : ∀ name, known name = true ↔ service.Registered name)
    (u : LabelledUpdate Number Text) (name : String) (labels : LabelMap Text) :
    valueAt (u.perform service) name labels =
      written known name labels (valueAt service name labels) u := by
  unfold LabelledUpdate.perform LabelledUpdate.onSamples MetricsService.change written valueAt
  cases found : service.metrics.get u.name with
  | none =>
    have unknown : ¬ (u.name = name ∧ known name = true ∧ areLabelsEqual u.labels labels = true) := by
      intro holds
      obtain ⟨rfl, registered, -⟩ := holds
      exact (knows u.name).mp registered found
    rw [if_neg unknown]
  | some metric =>
    by_cases same : u.name = name
    · subst same
      have registered : known u.name = true := (knows u.name).mpr (registered_of_get found)
      simp only [InsertionMap.get_set_self, Option.bind_some, findMetricValue_record, found,
        registered, true_and]
      split
      · rename_i equal
        rw [findMetricValue_alike equal]
        cases findMetricValue metric.values labels with
        | none => rfl
        | some v => rfl
      · rfl
    · have apart : ¬ (u.name = name ∧ known name = true ∧ areLabelsEqual u.labels labels = true) :=
        fun own => same own.1
      simp only [InsertionMap.get_set_ne _ _ (Ne.symm same), if_neg apart]

/- The updates of one call, one after another. -/
theorem performs_valueAt {known : String → Bool} (updates : List (LabelledUpdate Number Text))
    {service : MetricsService Number Text}
    (knows : ∀ name, known name = true ↔ service.Registered name) (name : String)
    (labels : LabelMap Text) :
    valueAt (updates.foldl LabelledUpdate.perform service) name labels =
      updates.foldl (written known name labels) (valueAt service name labels) := by
  induction updates generalizing service with
  | nil => rfl
  | cons u rest ih =>
    have still : ∀ name, known name = true ↔ (u.perform service).Registered name :=
      fun name => (knows name).trans (perform_known service u name).symm
    rw [List.foldl_cons, List.foldl_cons, ih still, perform_valueAt knows]

theorem performs_known (updates : List (LabelledUpdate Number Text))
    (service : MetricsService Number Text) (name : String) :
    (updates.foldl LabelledUpdate.perform service).Registered name ↔ service.Registered name := by
  induction updates generalizing service with
  | nil => exact Iff.rfl
  | cons u rest ih => exact (ih (u.perform service)).trans (perform_known service u name)

/- What an update of its samples keeps true of a metric is kept by all updates of a call. -/
theorem performs_all {good : String → Metric Number Text → Prop}
    (updates : List (LabelledUpdate Number Text))
    (keep : ∀ u ∈ updates, ∀ metric, good u.name metric →
      good u.name { metric with values := u.onSamples metric.values }) :
    ∀ {service : MetricsService Number Text},
      (∀ name metric, service.metrics.get name = some metric → good name metric) →
      ∀ name metric, (updates.foldl LabelledUpdate.perform service).metrics.get name = some metric →
        good name metric := by
  induction updates with
  | nil => exact fun all => all
  | cons u rest ih =>
    intro service all
    refine ih (fun v member => keep v (List.mem_cons_of_mem _ member)) ?_
    unfold LabelledUpdate.perform MetricsService.change
    cases found : service.metrics.get u.name with
    | none => exact all
    | some metric =>
      exact InsertionMap.get_set_all (keep u List.mem_cons_self metric (all _ _ found)) all

end Updates

section Runs
variable {Number Text : Type} [Add Number] [One Number] [DecidableEq Text] {double : Rat → Number}

/- A call that registers nothing performs its updates. -/
theorem perform_updates {service : MetricsService Number Text} {known : String → Bool}
    (knows : ∀ name, known name = true ↔ service.Registered name) {call : MetricCall Number Text}
    (updating : call.registers = none) :
    service.perform double call =
      (call.updates double known).foldl LabelledUpdate.perform service := by
  cases call with
  | registerMetric name help type => cases updating
  | incrementCounter name labels amount => rfl
  | setGauge name value labels => rfl
  | recordObserveHistogram name valueInSeconds labels =>
    simp only [MetricsService.perform, MetricsService.recordObserveHistogram, MetricCall.updates]
    cases found : service.metrics.get name with
    | none =>
      have unknown : ¬ known name = true := fun known => (knows name).mp known found
      rw [if_neg unknown]
      rfl
    | some metric =>
      have registered : known name = true := (knows name).mpr (registered_of_get found)
      rw [if_pos registered]
      rfl
  | collectSystemMetrics readings =>
    simp only [MetricsService.perform, MetricsService.collectSystemMetrics, MetricCall.updates,
      List.foldl_map]
    rfl

/-- The state of a run told by its calls, the newest first. -/
structure Tracks (double : Rat → Number) (calls : List (MetricCall Number Text))
    (service : MetricsService Number Text) : Prop where
  knows : ∀ name, isKnown calls name = true ↔ service.Registered name
  values : ∀ name labels, valueAt service name labels = sampleOf double calls name labels
  differ : ∀ name metric, service.metrics.get name = some metric → LabelsDiffer metric.values

theorem Tracks.perform {calls : List (MetricCall Number Text)}
    {service : MetricsService Number Text} (tracks : Tracks double calls service)
    (call : MetricCall Number Text) :
    Tracks double (call :: calls) (service.perform double call) := by
  -- a registration adds a metric without samples, any other call only performs its updates
  rcases registers_cases call with updating | ⟨name, help, type, rfl⟩
  · have performed : service.perform double call =
        (call.updates double (isKnown calls)).foldl LabelledUpdate.perform service :=
      perform_updates tracks.knows updating
    constructor
    · intro name
      rw [isKnown_cons, performed, performs_known, ← tracks.knows, updating]
      simp
    · intro name labels
      rw [performed, performs_valueAt _ tracks.knows, tracks.values]
      rfl
    · rw [performed]
      exact performs_all _ (fun u _ metric differ => LabelsDiffer.record differ _ _ _) tracks.differ
  · constructor
    · intro other
      rw [isKnown_cons, tracks.knows]
      simp only [MetricCall.registers, Option.some.injEq]
      exact (register_known service name other help type).symm
    · intro other labels
      exact (register_valueAt service name other help type labels).trans
        (tracks.values other labels)
    · exact register_all (fun _ metric => LabelsDiffer metric.values) List.Pairwise.nil tracks.differ

section Start
variable {text : String → Text}

theorem tracks_start :
    Tracks double [] (MetricsService.loadDefaults text : MetricsService Number Text) where
  knows name := (loadDefaults_known text name).symm
  values := loadDefaults_valueAt text
  differ := loadDefaults_all text (fun _ metric => LabelsDiffer metric.values)
    fun _ _ => List.Pairwise.nil

theorem tracks_run {permit : Machine.Permit (MetricsService Number Text) (MetricCall Number Text) Unit}
    {past : List (MetricCall Number Text × Unit)} {service : MetricsService Number Text}
    (run : Machine.Run (metricsMachine double text) permit past service) :
    Tracks double (past.map Prod.fst) service := by
  refine run.invariant (fun past service => Tracks double (past.map Prod.fst) service) ?_ ?_
  · dsimp only [metricsMachine, List.map_nil]
    exact tracks_start
  · intro past service call after answer _ tracks _ moved
    cases moved
    exact tracks.perform call

end Start
end Runs

end AstraPort.Monitoring
