import Mathlib.Data.Rat.Cast.Order
import AstraPort.Foundation.Machine
import AstraPort.Monitoring.Metrics

/- MetricsInterceptor: what a request does to the metrics when it arrives and when its handler
   answers or fails. Requests overlap in any way; each answers or fails once. -/
namespace AstraPort.Monitoring

structure HttpRequest where
  routePath : Option String
  url : String
  method : String
  deriving DecidableEq

/-- The first of two texts that is not empty. -/
def orElse (text other : String) : String := if text = "" then other else text

def HttpRequest.path (request : HttpRequest) : String :=
  orElse (request.routePath.getD "") (orElse request.url "/")

def HttpRequest.verb (request : HttpRequest) : String := orElse request.method "GET"

/-- What a handler throws or rejects with: an HttpException, another value, or null or undefined,
    which have no fields to read. -/
inductive Failure where
  | httpException (status : Nat)
  | other
  | nullish
  deriving DecidableEq

/-- A request whose handler has not answered yet. -/
structure Flight where
  id : Nat
  method : String
  path : String
  startTime : Int
  deriving DecidableEq

/-- The metrics, the active requests PerformanceService counts, and the requests in flight. -/
structure Monitored where
  metrics : MetricsService Rat
  activeRequests : Nat
  inFlight : List Flight

def inFlightGauge : String := "http_requests_in_flight"

def routeLabels (method path : String) : Labels :=
  ⟨[("method", method), ("path", path)], by simp⟩

def statusLabels (method path : String) (statusCode : Nat) : Labels :=
  ⟨[("method", method), ("path", path), ("status", toString statusCode)], by simp⟩

namespace MetricsService

def countRequest (metrics : MetricsService Rat) (flight : Flight) (statusCode : Nat) :
    MetricsService Rat :=
  metrics.incrementCounter "http_requests_total"
    (statusLabels flight.method flight.path statusCode) 1

def countError (metrics : MetricsService Rat) (flight : Flight) (statusCode : Nat) :
    MetricsService Rat :=
  metrics.incrementCounter "http_errors_total"
    (statusLabels flight.method flight.path statusCode) 1

def recordDuration (metrics : MetricsService Rat) (flight : Flight) (now : Int) :
    MetricsService Rat :=
  metrics.recordObserveHistogram "http_request_duration_seconds" ((now - flight.startTime) / 1000)
    (routeLabels flight.method flight.path)

def land (metrics : MetricsService Rat) (flight : Flight) : MetricsService Rat :=
  metrics.setGauge inFlightGauge 0 (routeLabels flight.method flight.path)

end MetricsService

namespace Monitored

def initial : Monitored := ⟨MetricsService.initializeDefaultMetrics, 0, []⟩

def intercept (server : Monitored) (id : Nat) (request : HttpRequest) (now : Int) : Monitored where
  metrics := server.metrics.setGauge inFlightGauge 1 (routeLabels request.verb request.path)
  activeRequests := server.activeRequests + 1
  inFlight := ⟨id, request.verb, request.path, now⟩ :: server.inFlight

/-- The handler emitted its value; a response without a status counts as 200. -/
def succeed (server : Monitored) (flight : Flight) (responseStatus : Nat) (now : Int) :
    Monitored :=
  let statusCode := if responseStatus = 0 then 200 else responseStatus
  let metrics :=
    ((server.metrics.countRequest flight statusCode).recordDuration flight now).land flight
  { metrics := if 400 ≤ statusCode then metrics.countError flight statusCode else metrics
    activeRequests := server.activeRequests - 1
    inFlight := server.inFlight.erase flight }

def failWith (server : Monitored) (flight : Flight) (statusCode : Nat) (now : Int) : Monitored where
  metrics := (((server.metrics.countRequest flight statusCode).countError flight
    statusCode).recordDuration flight now).land flight
  activeRequests := server.activeRequests - 1
  inFlight := server.inFlight.erase flight

/-- The handler failed. Reading the name of a null or undefined error throws again, before
    anything is counted. -/
def fail (server : Monitored) (flight : Flight) (failure : Failure) (now : Int) : Monitored :=
  match failure with
  | .httpException status => server.failWith flight status now
  | .other => server.failWith flight 500 now
  | .nullish => { server with inFlight := server.inFlight.erase flight }

end Monitored

inductive HttpEvent where
  | arrives (id : Nat) (request : HttpRequest) (now : Int)
  | answers (id : Nat) (responseStatus : Nat) (now : Int)
  | fails (id : Nat) (failure : Failure) (now : Int)
  deriving DecidableEq

def flightOf (server : Monitored) (id : Nat) : Option Flight :=
  server.inFlight.find? fun flight => flight.id = id

def httpStep (server : Monitored) : HttpEvent → Option (Monitored × Unit)
  | .arrives id request now =>
    match flightOf server id with
    | some _ => none
    | none => some (server.intercept id request now, ())
  | .answers id responseStatus now =>
    (flightOf server id).map fun flight => (server.succeed flight responseStatus now, ())
  | .fails id failure now =>
    (flightOf server id).map fun flight => (server.fail flight failure now, ())

def httpMachine : Machine Monitored HttpEvent Unit := ⟨Monitored.initial, httpStep⟩

/-- Requests with these labels that have arrived and not completed. -/
def flying (server : Monitored) (method path : String) : Nat :=
  server.inFlight.countP fun flight => flight.method = method ∧ flight.path = path

def gauge (server : Monitored) (method path : String) : Rat :=
  server.metrics.getMetricValue inFlightGauge (routeLabels method path)

/-- The gauge is the number of requests in flight, for all labels. -/
def GaugeExact (server : Monitored) : Prop :=
  ∀ method path, gauge server method path = flying server method path

/-- A request arrives while none with its labels is in flight; a failure is a value with fields. -/
def OneAtATimePerRoute (server : Monitored) : HttpEvent → Prop
  | .arrives _ request _ =>
    ∀ flight ∈ server.inFlight, flight.method = request.verb → flight.path ≠ request.path
  | .answers _ _ _ => True
  | .fails _ failure _ => failure ≠ .nullish

theorem routeLabels_equal {method path method' path' : String} :
    areLabelsEqual (routeLabels method path) (routeLabels method' path') = true ↔
      method = method' ∧ path = path' := by
  rw [areLabelsEqual_iff]
  have method_of (m p : String) : (routeLabels m p).get "method" = some m := rfl
  have path_of (m p : String) : (routeLabels m p).get "path" = some p := by
    rw [InsertionMap.get_iff_mem]
    simp [routeLabels]
  constructor
  · intro same
    have methods := same "method"
    have paths := same "path"
    rw [method_of, method_of] at methods
    rw [path_of, path_of] at paths
    exact ⟨Option.some.inj methods, Option.some.inj paths⟩
  · rintro ⟨rfl, rfl⟩ key
    rfl

section Counting
variable {server after : Monitored} {event : HttpEvent}

open MetricsService in
/- What writes other metrics leaves the gauge as it is. -/
theorem countRequest_gauge (metrics : MetricsService Rat) (flight : Flight) (statusCode : Nat)
    (labels : Labels) : (metrics.countRequest flight statusCode).getMetricValue inFlightGauge labels =
      metrics.getMetricValue inFlightGauge labels := change_other (by decide) labels

open MetricsService in
theorem countError_gauge (metrics : MetricsService Rat) (flight : Flight) (statusCode : Nat)
    (labels : Labels) : (metrics.countError flight statusCode).getMetricValue inFlightGauge labels =
      metrics.getMetricValue inFlightGauge labels := change_other (by decide) labels

open MetricsService in
theorem recordDuration_gauge (metrics : MetricsService Rat) (flight : Flight) (now : Int)
    (labels : Labels) : (metrics.recordDuration flight now).getMetricValue inFlightGauge labels =
      metrics.getMetricValue inFlightGauge labels := by
  unfold recordDuration recordObserveHistogram
  split
  · rfl
  · exact (change_other (by decide) labels).trans (change_other (by decide) labels)

open MetricsService in
theorem recordDuration_registered {metrics : MetricsService Rat} {name : String}
    (registered : metrics.Registered name) (flight : Flight) (now : Int) :
    (metrics.recordDuration flight now).Registered name := by
  unfold recordDuration recordObserveHistogram
  split
  · exact registered
  · exact change_registered (change_registered registered)

/-- What an event does to the gauge and to the requests in flight. -/
inductive Moved (server after : Monitored) : HttpEvent → Prop where
  | arrived {id : Nat} {request : HttpRequest} {now : Int}
      (gauges : ∀ method path, gauge after method path =
        if method = request.verb ∧ path = request.path then 1 else gauge server method path)
      (flights : after.inFlight = ⟨id, request.verb, request.path, now⟩ :: server.inFlight) :
      Moved server after (.arrives id request now)
  | landed {event : HttpEvent} {flight : Flight} (member : flight ∈ server.inFlight)
      (sound : ∀ id now, event ≠ .fails id .nullish now)
      (completes : ∀ id request now, event ≠ .arrives id request now)
      (gauges : ∀ method path, gauge after method path =
        if method = flight.method ∧ path = flight.path then 0 else gauge server method path)
      (flights : after.inFlight = server.inFlight.erase flight) : Moved server after event
  | lost {id : Nat} {flight : Flight} {now : Int} (member : flight ∈ server.inFlight)
      (gauges : ∀ method path, gauge after method path = gauge server method path)
      (flights : after.inFlight = server.inFlight.erase flight) :
      Moved server after (.fails id .nullish now)

theorem setGauge_gauge {metrics : MetricsService Rat} (registered : metrics.Registered inFlightGauge)
    (value : Rat) (method path method' path' : String) :
    (metrics.setGauge inFlightGauge value (routeLabels method path)).getMetricValue inFlightGauge
      (routeLabels method' path') = if method' = method ∧ path' = path then value
        else metrics.getMetricValue inFlightGauge (routeLabels method' path') := by
  rw [MetricsService.setGauge_reads registered]
  refine if_congr ?_ rfl rfl
  rw [routeLabels_equal, eq_comm (a := method), eq_comm (a := path)]

/- Both completions write the other metrics, bring the gauge down and take the request out. -/
theorem succeed_lands (registered : server.metrics.Registered inFlightGauge) (flight : Flight)
    (responseStatus : Nat) (now : Int) :
    (∀ method path, gauge (server.succeed flight responseStatus now) method path =
      if method = flight.method ∧ path = flight.path then 0 else gauge server method path) ∧
    (server.succeed flight responseStatus now).metrics.Registered inFlightGauge := by
  generalize chosen : (if responseStatus = 0 then 200 else responseStatus) = statusCode
  have counted : (server.metrics.countRequest flight statusCode).Registered inFlightGauge :=
    MetricsService.change_registered registered
  have timed := recordDuration_registered counted flight now
  have gauges (method path : String) :
      (((server.metrics.countRequest flight statusCode).recordDuration flight now).land
        flight).getMetricValue inFlightGauge (routeLabels method path) =
      if method = flight.method ∧ path = flight.path then 0 else gauge server method path := by
    rw [MetricsService.land, setGauge_gauge timed, recordDuration_gauge, countRequest_gauge, gauge]
  simp only [Monitored.succeed, gauge, chosen]
  split
  · refine ⟨fun method path => ?_,
      MetricsService.change_registered (MetricsService.change_registered timed)⟩
    rw [countError_gauge]
    exact gauges method path
  · exact ⟨gauges, MetricsService.change_registered timed⟩

theorem failWith_lands (registered : server.metrics.Registered inFlightGauge) (flight : Flight)
    (statusCode : Nat) (now : Int) :
    (∀ method path, gauge (server.failWith flight statusCode now) method path =
      if method = flight.method ∧ path = flight.path then 0 else gauge server method path) ∧
    (server.failWith flight statusCode now).metrics.Registered inFlightGauge := by
  have counted : ((server.metrics.countRequest flight statusCode).countError flight
      statusCode).Registered inFlightGauge :=
    MetricsService.change_registered (MetricsService.change_registered registered)
  have timed := recordDuration_registered counted flight now
  refine ⟨fun method path => ?_, MetricsService.change_registered timed⟩
  rw [gauge, Monitored.failWith, MetricsService.land, setGauge_gauge timed, recordDuration_gauge,
    countError_gauge, countRequest_gauge, gauge]

theorem httpStep_moved (registered : server.metrics.Registered inFlightGauge) {event : HttpEvent}
    {answer : Unit} (moved : httpStep server event = some (after, answer)) :
    Moved server after event ∧ after.metrics.Registered inFlightGauge := by
  cases event with
  | arrives id request now =>
    simp only [httpStep] at moved
    split at moved
    · cases moved
    · simp only [Option.some.injEq, Prod.mk.injEq] at moved
      obtain ⟨rfl, _⟩ := moved
      exact ⟨.arrived (fun method path => setGauge_gauge registered 1 _ _ method path) rfl,
        MetricsService.change_registered registered⟩
  | answers id responseStatus now =>
    simp only [httpStep, Option.map_eq_some_iff, Prod.mk.injEq] at moved
    obtain ⟨flight, found, rfl, _⟩ := moved
    obtain ⟨gauges, stays⟩ := succeed_lands registered flight responseStatus now
    have member := List.mem_of_find?_eq_some found
    exact ⟨.landed member (by simp) (by simp) gauges rfl, stays⟩
  | fails id failure now =>
    simp only [httpStep, Option.map_eq_some_iff, Prod.mk.injEq] at moved
    obtain ⟨flight, found, rfl, _⟩ := moved
    have member := List.mem_of_find?_eq_some found
    cases failure with
    | httpException status =>
      obtain ⟨gauges, stays⟩ := failWith_lands registered flight status now
      exact ⟨.landed member (by simp) (by simp) gauges rfl, stays⟩
    | other =>
      obtain ⟨gauges, stays⟩ := failWith_lands registered flight 500 now
      exact ⟨.landed member (by simp) (by simp) gauges rfl, stays⟩
    | nullish => exact ⟨.lost member (fun _ _ => rfl) rfl, registered⟩

theorem flying_arrived {flight : Flight} (flights : after.inFlight = flight :: server.inFlight)
    (method path : String) : flying after method path = flying server method path +
      if method = flight.method ∧ path = flight.path then 1 else 0 := by
  rw [flying, flying, flights, List.countP_cons]
  simp [eq_comm (a := method), eq_comm (a := path)]

theorem flying_landed {flight : Flight} (member : flight ∈ server.inFlight)
    (flights : after.inFlight = server.inFlight.erase flight) (method path : String) :
    flying server method path = flying after method path +
      if method = flight.method ∧ path = flight.path then 1 else 0 := by
  rw [flying, flying, flights, (List.perm_cons_erase member).countP_eq, List.countP_cons]
  simp [eq_comm (a := method), eq_comm (a := path)]

/-- The gauge holds no other values than 0 and 1. -/
def GaugeBit (server : Monitored) : Prop :=
  ∀ method path, gauge server method path = 0 ∨ gauge server method path = 1

theorem Moved.bit (moved : Moved server after event) (bit : GaugeBit server) : GaugeBit after := by
  intro method path
  cases moved with
  | arrived gauges flights =>
    rw [gauges]
    split
    · exact Or.inr rfl
    · exact bit method path
  | landed member sound completes gauges flights =>
    rw [gauges]
    split
    · exact Or.inl rfl
    · exact bit method path
  | lost member gauges flights =>
    rw [gauges]
    exact bit method path

/- The gauge of the route is set to 1: right when the arrival is the only request on it. -/
theorem GaugeExact.arrived_iff (exact_before : GaugeExact server) {flight : Flight}
    (gauges : ∀ method path, gauge after method path =
      if method = flight.method ∧ path = flight.path then 1 else gauge server method path)
    (flights : after.inFlight = flight :: server.inFlight) :
    GaugeExact after ↔ flying server flight.method flight.path = 0 := by
  constructor
  · intro exact_after
    have own := exact_after flight.method flight.path
    rw [gauges, if_pos ⟨rfl, rfl⟩, flying_arrived flights, if_pos ⟨rfl, rfl⟩] at own
    have counted : 1 = flying server flight.method flight.path + 1 := by exact_mod_cast own
    omega
  · intro vacant method path
    rw [gauges, flying_arrived flights]
    by_cases own : method = flight.method ∧ path = flight.path
    · obtain ⟨rfl, rfl⟩ := own
      simp [vacant]
    · rw [if_neg own, if_neg own, exact_before, Nat.add_zero]

/- The gauge of the route is set to 0: right because it was 0 or 1 and one request is gone. -/
theorem GaugeExact.landed (exact_before : GaugeExact server) (bit : GaugeBit server)
    {flight : Flight} (member : flight ∈ server.inFlight)
    (gauges : ∀ method path, gauge after method path =
      if method = flight.method ∧ path = flight.path then 0 else gauge server method path)
    (flights : after.inFlight = server.inFlight.erase flight) : GaugeExact after := by
  intro method path
  have flown := flying_landed member flights method path
  have before := exact_before method path
  rw [gauges]
  by_cases own : method = flight.method ∧ path = flight.path
  · rw [if_pos own] at flown ⊢
    have low : flying server method path = 0 ∨ flying server method path = 1 := by
      rcases bit method path with zero | one
      · exact Or.inl (by exact_mod_cast before.symm.trans zero)
      · exact Or.inr (by exact_mod_cast before.symm.trans one)
    have landed : flying after method path = 0 := by omega
    rw [landed]
    rfl
  · rw [if_neg own, before, flown, if_neg own, Nat.add_zero]

/- A failure that reads no name leaves the gauge where it was, with one request fewer. -/
theorem GaugeExact.lost (exact_before : GaugeExact server) {flight : Flight}
    (member : flight ∈ server.inFlight)
    (gauges : ∀ method path, gauge after method path = gauge server method path)
    (flights : after.inFlight = server.inFlight.erase flight) : ¬ GaugeExact after := by
  intro exact_after
  have flown := flying_landed member flights flight.method flight.path
  rw [if_pos ⟨rfl, rfl⟩] at flown
  have same := (exact_after flight.method flight.path).symm.trans
    ((gauges _ _).trans (exact_before flight.method flight.path))
  have counted : flying after flight.method flight.path =
      flying server flight.method flight.path := by exact_mod_cast same
  omega

/- From an exact gauge: a second arrival on a route, or a failure that reads no name, makes it
   wrong, and nothing else does. -/
theorem Moved.exact_iff (moved : Moved server after event) (bit : GaugeBit server)
    (exact_before : GaugeExact server) : GaugeExact after ↔ OneAtATimePerRoute server event := by
  cases moved with
  | @arrived id request now gauges flights =>
    rw [exact_before.arrived_iff gauges flights]
    simp [OneAtATimePerRoute, flying, List.countP_eq_zero]
  | landed member sound completes gauges flights =>
    apply iff_of_true (exact_before.landed bit member gauges flights)
    cases event with
    | arrives id request now => exact absurd rfl (completes id request now)
    | answers id responseStatus now => trivial
    | fails id failure now => exact fun nullish => sound id now (by rw [nullish])
  | lost member gauges flights =>
    exact iff_of_false (exact_before.lost member gauges flights) fun named => named rfl

theorem server_run {past : List (HttpEvent × Unit)} {server : Monitored}
    (run : httpMachine.Run Machine.anything past server) :
    server.metrics.Registered inFlightGauge ∧ GaugeBit server := by
  refine run.invariant (fun _ server => server.metrics.Registered inFlightGauge ∧ GaugeBit server)
    ⟨Option.isSome_iff_ne_none.mp (by decide +kernel), fun method path => Or.inl rfl⟩ ?_
  intro past server event after answer _ known _ moved
  obtain ⟨step, registered⟩ := httpStep_moved known.1 moved
  exact ⟨registered, step.bit known.2⟩

end Counting

/-- Throughout a run the gauge of every route is the number of its requests in flight, exactly
    when no request arrives while another of its route is in flight and none fails with null or
    undefined. -/
theorem gauge_counts_iff {past : List (HttpEvent × Unit)} {server : Monitored}
    (run : httpMachine.Run Machine.anything past server) :
    httpMachine.Always Machine.anything (fun _ server => GaugeExact server) past ↔
      httpMachine.Each Machine.anything
        (fun before event _ _ => OneAtATimePerRoute before event) past := by
  refine run.always_iff_each (fun method path => rfl) ?_
  intro past server event after answer reached exact_before _ moved
  obtain ⟨registered, bit⟩ := server_run reached
  exact (httpStep_moved registered moved).1.exact_iff bit exact_before

def getRates : HttpRequest := ⟨some "/api/rates", "/api/rates?fresh=1", "GET"⟩

def getAssets : HttpRequest := ⟨some "/api/assets", "/api/assets", "GET"⟩

/-- Two routes overlapping, one of them failing, and a second request on the other. -/
theorem gauge_counts_two_routes :
    ∃ past server, past.reverse.map Prod.fst = [.arrives 1 getRates 0, .arrives 2 getAssets 5,
        .fails 1 (.httpException 404) 9, .arrives 3 getRates 12] ∧
      httpMachine.Run Machine.anything past server ∧
      httpMachine.Always Machine.anything (fun _ server => GaugeExact server) past := by
  have first : httpMachine.Run Machine.anything _ _ :=
    Machine.Run.start.next (i := .arrives 1 getRates 0) trivial rfl
  have second := first.next (i := .arrives 2 getAssets 5) trivial rfl
  have third := second.next (i := .fails 1 (.httpException 404) 9) trivial rfl
  have fourth := third.next (i := .arrives 3 getRates 12) trivial rfl
  refine ⟨_, _, rfl, fourth, (gauge_counts_iff fourth).mpr ?_⟩
  refine (third.each_cons trivial rfl).mpr ⟨by unfold OneAtATimePerRoute; decide +kernel, ?_⟩
  refine (second.each_cons trivial rfl).mpr ⟨by unfold OneAtATimePerRoute; decide +kernel, ?_⟩
  refine (first.each_cons trivial rfl).mpr ⟨by unfold OneAtATimePerRoute; decide +kernel, ?_⟩
  exact (Machine.Run.start.each_cons trivial rfl).mpr
    ⟨by unfold OneAtATimePerRoute; decide +kernel, Machine.each_nil⟩

/-- Two requests on one route: the gauge stays at 1 when the second arrives, and drops to 0 when
    one of them completes. -/
theorem gauge_misses_overlap :
    ¬ ∀ past server, httpMachine.Run Machine.anything past server → GaugeExact server := by
  intro always
  have first : httpMachine.Run Machine.anything _ _ :=
    Machine.Run.start.next (i := .arrives 1 getRates 0) trivial rfl
  have second := first.next (i := .arrives 2 getRates 5) trivial rfl
  exact absurd (always _ _ second "GET" "/api/rates") (by decide +kernel)

/-- The counter of PerformanceService moves by one each time, and stays right under overlap. -/
theorem active_requests_counted {past : List (HttpEvent × Unit)} {server : Monitored}
    (run : httpMachine.Run (fun _ _ event => ∀ id now, event ≠ .fails id .nullish now) past server) :
    server.activeRequests = server.inFlight.length := by
  refine run.invariant (fun _ server => server.activeRequests = server.inFlight.length) rfl ?_
  intro past server event after answer _ counted permitted moved
  have erased {id : Nat} {flight : Flight} (found : flightOf server id = some flight) :
      (server.inFlight.erase flight).length = server.activeRequests - 1 := by
    rw [List.length_erase_of_mem (List.mem_of_find?_eq_some found), counted]
  cases event with
  | arrives id request now =>
    simp only [httpMachine, httpStep] at moved
    split at moved
    · cases moved
    · simp only [Option.some.injEq, Prod.mk.injEq] at moved
      obtain ⟨rfl, _⟩ := moved
      simp [Monitored.intercept, counted]
  | answers id responseStatus now =>
    simp only [httpMachine, httpStep, Option.map_eq_some_iff, Prod.mk.injEq] at moved
    obtain ⟨flight, found, rfl, _⟩ := moved
    exact (erased found).symm
  | fails id failure now =>
    simp only [httpMachine, httpStep, Option.map_eq_some_iff, Prod.mk.injEq] at moved
    obtain ⟨flight, found, rfl, _⟩ := moved
    cases failure with
    | httpException status => exact (erased found).symm
    | other => exact (erased found).symm
    | nullish => exact absurd rfl (permitted id now)

end AstraPort.Monitoring
