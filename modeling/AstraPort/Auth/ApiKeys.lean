import AstraPort.Auth.Accounts
import AstraPort.Auth.LogoutFinality
import AstraPort.Cache.ETags

/- AuthService: API keys. A key is looked up by its first ten characters among the active users,
   and only the one row the database returns is compared with it. -/
namespace AstraPort.Auth

/-- getOne: some row that matches the query, where one does. -/
structure RowChoice where
  pick : List User → Option User
  member : ∀ rows row, pick rows = some row → row ∈ rows
  answers : ∀ rows, pick rows = none → rows = []

def RowChoice.first : RowChoice where
  pick := List.head?
  member _ _ := List.mem_of_mem_head?
  answers _ := List.head?_eq_none_iff.mp

/-- A database that returns a certain row whenever that matches. -/
def RowChoice.preferring (row : User) : RowChoice where
  pick rows := if row ∈ rows then some row else rows.head?
  member := by
    intro rows found picked
    split at picked
    · rename_i listed
      exact Option.some.inj picked ▸ listed
    · exact List.mem_of_mem_head? picked
  answers := by
    intro rows unpicked
    split at unpicked
    · cases unpicked
    · exact List.head?_eq_none_iff.mp unpicked

inductive ApiKeyCall where
  | generateApiKey (userId : String) (random : List UInt8) (salt : String)
  | changeStatus (userId : String) (status : UserStatus)
  deriving DecidableEq

inductive ApiKeyAnswer where
  | generated (apiKey : String)
  | statusChanged
  | threw (thrown : Thrown)
  deriving DecidableEq

def keyPrefix (apiKey : String) : String := String.ofList (apiKey.toList.take 10)

def rawKeyOf (random : List UInt8) : String :=
  "ak_" ++ String.ofList (random.flatMap Cache.hexByte)

namespace AuthService
section Libraries
variable (hashService : HashService)

/-- The prefix is the caller's to read off the key. -/
def generateApiKey (service : AuthService) (userId : String) (random : List UInt8)
    (salt : String) : AuthService × Except Thrown String :=
  match service.users.get userId with
  | none => (service, .error (.notFound "User not found"))
  | some _ =>
    let rawKey := rawKeyOf random
    let hashed := hashService.hash salt rawKey
    (service.updateUser userId fun user =>
      { user with apiKeyHash := some hashed, apiKeyPrefix := some (keyPrefix rawKey) }, .ok rawKey)

/-- The rows of active users with the first ten characters of a key. -/
def candidates (service : AuthService) (apiKey : String) : List User :=
  service.users.values.filter fun user =>
    user.apiKeyPrefix = some (keyPrefix apiKey) ∧ user.status = .active

def validateApiKey (choice : RowChoice) (service : AuthService) (apiKey : String) :
    Option AuthUser :=
  match choice.pick (service.candidates apiKey) with
  | none => none
  | some user =>
    match truthy user.apiKeyHash with
    | none => none
    | some hashed => if hashService.compare apiKey hashed then some (toAuthUser user) else none

def apiKeyStep (service : AuthService) : ApiKeyCall → Option (AuthService × ApiKeyAnswer)
  | .generateApiKey userId random salt =>
    match service.generateApiKey hashService userId random salt with
    | (service, .ok apiKey) => some (service, .generated apiKey)
    | (service, .error thrown) => some (service, .threw thrown)
  | .changeStatus userId status =>
    some (service.updateUser userId fun user => { user with status := status }, .statusChanged)

end Libraries

/-- Users that have no key yet. -/
def withoutKeys (rows : List User) : AuthService where
  users := rows.foldl (fun users row =>
    users.set row.id { row with apiKeyHash := none, apiKeyPrefix := none }) InsertionMap.empty
  revokedTokens := []
  tasks := InsertionMap.empty

end AuthService

open AuthService

def apiKeyMachine (hashService : HashService) (rows : List User) :
    Machine AuthService ApiKeyCall ApiKeyAnswer := ⟨withoutKeys rows, apiKeyStep hashService⟩

/-- The key that an exchange gave a user. -/
def keyGiven (userId : String) : ApiKeyCall × ApiKeyAnswer → Option String
  | (.generateApiKey id _ _, .generated apiKey) => if id = userId then some apiKey else none
  | _ => none

/-- The key most recently generated for a user. -/
def latestKey (past : List (ApiKeyCall × ApiKeyAnswer)) (userId : String) : Option String :=
  past.findSome? (keyGiven userId)

/-- A row holds the hash and the prefix of a key, or neither. -/
def Stores (hashService : HashService) (user : User) : Option String → Prop
  | none => user.apiKeyHash = none ∧ user.apiKeyPrefix = none
  | some apiKey => user.apiKeyPrefix = some (keyPrefix apiKey) ∧
      ∃ salt, user.apiKeyHash = some (hashService.hash salt apiKey)

/-- Rows stand under their ids and hold their latest keys; nobody else has a key. -/
structure KeysStored (hashService : HashService) (past : List (ApiKeyCall × ApiKeyAnswer))
    (service : AuthService) : Prop where
  keyed : service.Keyed
  stored : ∀ id user, service.users.get id = some user →
    Stores hashService user (latestKey past id)
  absent : ∀ id, service.users.get id = none → latestKey past id = none

theorem latestKey_cons (e : ApiKeyCall × ApiKeyAnswer) (past : List (ApiKeyCall × ApiKeyAnswer))
    (userId : String) : latestKey (e :: past) userId = (keyGiven userId e).or (latestKey past userId) := by
  rw [latestKey, List.findSome?_cons]
  cases keyGiven userId e <;> rfl

theorem latestKey_status (userId other : String) (status : UserStatus) (answer : ApiKeyAnswer)
    (past : List (ApiKeyCall × ApiKeyAnswer)) :
    latestKey ((.changeStatus userId status, answer) :: past) other = latestKey past other := rfl

section Runs
variable {hashService : HashService} {rows : List User}
  {past : List (ApiKeyCall × ApiKeyAnswer)} {service : AuthService}

theorem keysStored_start : KeysStored hashService [] (withoutKeys rows) := by
  have loaded : ∀ id user, (withoutKeys rows).users.get id = some user →
      user.id = id ∧ user.apiKeyHash = none ∧ user.apiKeyPrefix = none := by
    refine InsertionMap.get_loaded_all (fun row => ⟨rfl, rfl, rfl⟩) rows ?_
    intro id user found
    cases found
  exact ⟨fun id user found => (loaded id user found).1,
    fun id user found => (loaded id user found).2, fun id _ => rfl⟩

theorem keysStored_generated {userId : String} {random : List UInt8} {salt : String} {user : User}
    (known : KeysStored hashService past service) (found : service.users.get userId = some user) :
    KeysStored hashService ((.generateApiKey userId random salt, .generated (rawKeyOf random)) :: past)
      (service.updateUser userId fun user => { user with
        apiKeyHash := some (hashService.hash salt (rawKeyOf random)),
        apiKeyPrefix := some (keyPrefix (rawKeyOf random)) }) := by
  refine ⟨known.keyed.updateUser userId fun _ => rfl, ?_, ?_⟩
  · intro id row held
    rw [updateUser_get] at held
    rw [latestKey_cons, keyGiven]
    by_cases same : id = userId
    · rw [if_pos same, found] at held
      obtain rfl := Option.some.inj held
      rw [if_pos same.symm]
      exact ⟨rfl, salt, rfl⟩
    · rw [if_neg same] at held
      rw [if_neg (Ne.symm same)]
      exact known.stored id row held
  · intro id missing
    rw [updateUser_get] at missing
    rw [latestKey_cons, keyGiven]
    by_cases same : id = userId
    · rw [if_pos same, found] at missing
      cases missing
    · rw [if_neg same] at missing
      rw [if_neg (Ne.symm same)]
      exact known.absent id missing

theorem keysStored_status {userId : String} {status : UserStatus}
    (known : KeysStored hashService past service) :
    KeysStored hashService ((.changeStatus userId status, .statusChanged) :: past)
      (service.updateUser userId fun user => { user with status := status }) := by
  refine ⟨known.keyed.updateUser userId fun _ => rfl, ?_, ?_⟩
  · intro id row held
    rw [updateUser_get] at held
    rw [latestKey_status]
    by_cases same : id = userId
    · rw [if_pos same] at held
      obtain ⟨user, found, rfl⟩ := Option.map_eq_some_iff.mp held
      have stored := known.stored userId user found
      rw [same]
      cases latest : latestKey past userId with
      | none =>
        rw [latest] at stored
        exact stored
      | some apiKey =>
        rw [latest] at stored
        exact stored
    · rw [if_neg same] at held
      exact known.stored id row held
  · intro id missing
    rw [updateUser_get] at missing
    rw [latestKey_status]
    by_cases same : id = userId
    · rw [if_pos same, Option.map_eq_none_iff] at missing
      exact known.absent id (same ▸ missing)
    · rw [if_neg same] at missing
      exact known.absent id missing

theorem keysStored_run
    (run : (apiKeyMachine hashService rows).Run Machine.anything past service) :
    KeysStored hashService past service := by
  apply run.invariant (KeysStored hashService) keysStored_start
  intro past service call after answer _ known _ moved
  cases call with
  | generateApiKey userId random salt =>
    simp only [apiKeyMachine, apiKeyStep, generateApiKey] at moved
    cases found : service.users.get userId with
    | none =>
      rw [found] at moved
      obtain ⟨rfl, rfl⟩ := Prod.mk.inj (Option.some.inj moved)
      exact ⟨known.keyed, known.stored, known.absent⟩
    | some user =>
      rw [found] at moved
      obtain ⟨rfl, rfl⟩ := Prod.mk.inj (Option.some.inj moved)
      exact keysStored_generated known found
  | changeStatus userId status =>
    obtain ⟨rfl, rfl⟩ := Prod.mk.inj (Option.some.inj moved)
    exact keysStored_status known

section States
variable (known : KeysStored hashService past service)
include known

/- Who is found holds the key and is active, whatever row was returned. -/
theorem validateApiKey_sound {choice : RowChoice} {apiKey : String} {user : AuthUser}
    (valid : service.validateApiKey hashService choice apiKey = some user) :
    latestKey past user.id = some apiKey ∧ service.IsActive user.id := by
  unfold validateApiKey at valid
  split at valid
  · cases valid
  · rename_i row picked
    have member := choice.member _ _ picked
    simp only [candidates, List.mem_filter, decide_eq_true_eq] at member
    obtain ⟨listed, _, active⟩ := member
    obtain ⟨id, found⟩ := (InsertionMap.mem_values _).mp listed
    have own := known.keyed id row found
    split at valid
    · cases valid
    · rename_i hashed present
      have written : row.apiKeyHash = some hashed := (Option.filter_eq_some_iff.mp present).1
      split at valid
      · rename_i matched
        obtain rfl := Option.some.inj valid
        have stored := known.stored id row found
        simp only [toAuthUser, own]
        refine ⟨?_, (isActive_of found).mpr active⟩
        cases latest : latestKey past id with
        | none =>
          rw [latest, Stores, written] at stored
          cases stored.1
        | some stored_key =>
          rw [latest, Stores, written] at stored
          obtain ⟨_, salt, hash⟩ := stored
          rw [Option.some.inj hash, hashService.ideal] at matched
          rw [matched]
      · cases valid

/- The row of an active user is found by the prefix of the user's key. -/
theorem candidate_of_latest {apiKey userId : String} (latest : latestKey past userId = some apiKey)
    (active : service.IsActive userId) :
    ∃ row, service.users.get userId = some row ∧ row ∈ service.candidates apiKey ∧
      Stores hashService row (some apiKey) := by
  cases found : service.users.get userId with
  | none =>
    rw [known.absent userId found] at latest
    cases latest
  | some row =>
    have stored := known.stored userId row found
    rw [latest] at stored
    refine ⟨row, rfl, ?_, stored⟩
    simp only [candidates, List.mem_filter, decide_eq_true_eq]
    exact ⟨(InsertionMap.mem_values _).mpr ⟨userId, found⟩, stored.1, (isActive_of found).mp active⟩

/- Every candidate is the row of an active user whose key has the prefix. -/
theorem latest_of_candidate {apiKey : String} {row : User} (member : row ∈ service.candidates apiKey) :
    service.users.get row.id = some row ∧ service.IsActive row.id ∧
      ∃ own, latestKey past row.id = some own ∧ keyPrefix own = keyPrefix apiKey := by
  simp only [candidates, List.mem_filter, decide_eq_true_eq] at member
  obtain ⟨listed, named, active⟩ := member
  obtain ⟨id, found⟩ := (InsertionMap.mem_values _).mp listed
  have stored := known.stored id row found
  obtain rfl := known.keyed id row found
  refine ⟨found, (isActive_of found).mpr active, ?_⟩
  cases latest : latestKey past row.id with
  | none =>
    rw [latest, Stores, named] at stored
    cases stored.2
  | some own =>
    rw [latest, Stores, named] at stored
    exact ⟨own, rfl, (Option.some.inj stored.1).symm⟩

end States

/-- No two active users have keys with the same first ten characters. -/
def PrefixesApart (past : List (ApiKeyCall × ApiKeyAnswer)) (service : AuthService) : Prop :=
  ∀ userId other apiKey otherKey, service.IsActive userId → service.IsActive other →
    latestKey past userId = some apiKey → latestKey past other = some otherKey →
    keyPrefix apiKey = keyPrefix otherKey → userId = other

theorem validateApiKey_picked {choice : RowChoice} {apiKey : String} {row : User} {user : AuthUser}
    (picked : choice.pick (service.candidates apiKey) = some row)
    (valid : service.validateApiKey hashService choice apiKey = some user) : user.id = row.id := by
  unfold validateApiKey at valid
  rw [picked] at valid
  dsimp only at valid
  split at valid
  · cases valid
  · split at valid
    · obtain rfl := Option.some.inj valid
      rfl
    · cases valid

theorem validateApiKey_stored {choice : RowChoice} {apiKey : String} {row : User}
    (written : ∀ salt plain, hashService.hash salt plain ≠ "")
    (picked : choice.pick (service.candidates apiKey) = some row)
    (stored : Stores hashService row (some apiKey)) :
    service.validateApiKey hashService choice apiKey = some (toAuthUser row) := by
  obtain ⟨_, salt, hash⟩ := stored
  have present : truthy row.apiKeyHash = some (hashService.hash salt apiKey) := by
    rw [hash, truthy, Option.filter_some, if_pos (by simpa using written salt apiKey)]
  have matched : hashService.compare apiKey (hashService.hash salt apiKey) = true :=
    (hashService.ideal salt apiKey apiKey).mpr rfl
  simp only [validateApiKey, picked, present, matched, ↓reduceIte]

/-- After any run of key generations and status changes, a key is accepted as that of a user
    exactly when it is the user's latest and the user is active, whichever matching row the
    database returns, if and only if no two active users have keys that begin alike. -/
theorem api_keys_exact_iff (written : ∀ salt plain, hashService.hash salt plain ≠ "")
    (run : (apiKeyMachine hashService rows).Run Machine.anything past service) :
    (∀ (choice : RowChoice) (apiKey userId : String),
      (service.validateApiKey hashService choice apiKey).map AuthUser.id = some userId ↔
        latestKey past userId = some apiKey ∧ service.IsActive userId) ↔
      PrefixesApart past service := by
  have known := keysStored_run run
  constructor
  · intro exact userId other apiKey otherKey active otherActive latest otherLatest alike
    obtain ⟨row, found, listed, _⟩ := candidate_of_latest known otherLatest otherActive
    -- a database that returns the other user's row
    have candidate : row ∈ service.candidates apiKey := by
      simpa only [candidates, alike] using listed
    have picked : (RowChoice.preferring row).pick (service.candidates apiKey) = some row :=
      if_pos candidate
    obtain ⟨user, valid, same⟩ := Option.map_eq_some_iff.mp
      ((exact (RowChoice.preferring row) apiKey userId).mpr ⟨latest, active⟩)
    rw [← same, validateApiKey_picked picked valid, known.keyed other row found]
  · intro apart choice apiKey userId
    constructor
    · intro accepted
      obtain ⟨user, valid, rfl⟩ := Option.map_eq_some_iff.mp accepted
      exact validateApiKey_sound known valid
    · intro latest
      obtain ⟨row, found, listed, stored⟩ := candidate_of_latest known latest.1 latest.2
      cases picked : choice.pick (service.candidates apiKey) with
      | none =>
        rw [choice.answers _ picked] at listed
        cases listed
      | some other =>
        obtain ⟨otherFound, active, own, ownLatest, alike⟩ :=
          latest_of_candidate known (choice.member _ _ picked)
        have same : userId = other.id :=
          apart userId other.id apiKey own latest.2 active latest.1 ownLatest alike.symm
        rw [same, otherFound] at found
        obtain rfl := Option.some.inj found
        rw [validateApiKey_stored written picked stored, same]
        rfl

end Runs

def bob : User := { alice with id := "bob", email := "bob@example.com" }

/-- Random values of which the first four bytes are zero, told apart by the last one. -/
def quietRandom (last : UInt8) : List UInt8 := List.replicate 31 0 ++ [last]

def loudRandom : List UInt8 := List.replicate 32 255

/-- Two users with keys that begin differently. -/
theorem distinct_prefixes_accepted : ∃ past service,
    past.reverse.map Prod.fst = [ApiKeyCall.generateApiKey "alice" loudRandom "s",
      .generateApiKey "bob" (quietRandom 1) "s"] ∧
    (apiKeyMachine saltless [alice, bob]).Run Machine.anything past service ∧
    ∀ (choice : RowChoice) (apiKey userId : String),
      (service.validateApiKey saltless choice apiKey).map AuthUser.id = some userId ↔
        latestKey past userId = some apiKey ∧ service.IsActive userId := by
  have first : (apiKeyMachine saltless [alice, bob]).Run Machine.anything _ _ :=
    Machine.Run.start.next (i := .generateApiKey "alice" loudRandom "s") trivial rfl
  have second := first.next (i := .generateApiKey "bob" (quietRandom 1) "s") trivial rfl
  refine ⟨_, _, rfl, second, (api_keys_exact_iff ?_ second).mpr ?_⟩
  · intro salt plain empty
    have start := congrArg String.toList empty
    simp [saltless] at start
  · intro userId other apiKey otherKey _ _ latest otherLatest alike
    have apart : keyPrefix (rawKeyOf loudRandom) ≠ keyPrefix (rawKeyOf (quietRandom 1)) := by
      decide +kernel
    simp only [latestKey_cons, keyGiven] at latest otherLatest
    split at latest
    · split at otherLatest
      · rename_i same same'
        exact same.symm.trans same'
      · split at otherLatest
        · cases latest
          cases otherLatest
          exact absurd alike.symm apart
        · cases otherLatest
    · split at latest
      · split at otherLatest
        · cases latest
          cases otherLatest
          exact absurd alike apart
        · split at otherLatest
          · rename_i same _ same'
            exact same.symm.trans same'
          · cases otherLatest
      · cases latest

/-- Two active users whose keys differ in the last byte: the database returns the first row that
    matches, and the second user's key is refused. -/
theorem shared_prefix_refused :
    ¬ ∀ past service, (apiKeyMachine saltless [alice, bob]).Run Machine.anything past service →
      ∀ (choice : RowChoice) (apiKey userId : String),
        (service.validateApiKey saltless choice apiKey).map AuthUser.id = some userId ↔
          latestKey past userId = some apiKey ∧ service.IsActive userId := by
  intro exact
  have first : (apiKeyMachine saltless [alice, bob]).Run Machine.anything _ _ :=
    Machine.Run.start.next (i := .generateApiKey "alice" (quietRandom 1) "s") trivial rfl
  have second := first.next (i := .generateApiKey "bob" (quietRandom 2) "s") trivial rfl
  have accepted := (exact _ _ second .first (rawKeyOf (quietRandom 2)) "bob").mpr
    ⟨rfl, .user, rfl⟩
  exact absurd accepted (by decide +kernel)

end AstraPort.Auth
