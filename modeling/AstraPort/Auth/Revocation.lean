import AstraPort.Auth.Service

/- TokenRevocationService and JwtStrategy: a blacklist of access token ids, one row an id, purged
   of what has expired. Rows are dated in milliseconds, tokens expire at whole seconds. -/
namespace AstraPort.Auth

/-- The table behind the service; its index lets no id in twice. -/
structure TokenRevocationService where
  revokedTokens : List RevokedToken
  unique : (revokedTokens.map RevokedToken.jti).Nodup

namespace TokenRevocationService

def initial : TokenRevocationService := ⟨[], List.nodup_nil⟩

/-- Saving a row; none where the index has its id already. -/
def revoke (service : TokenRevocationService) (jti : String) (expiresAt : Nat) :
    Option TokenRevocationService :=
  if known : jti ∈ service.revokedTokens.map RevokedToken.jti then none
  else some ⟨⟨jti, expiresAt⟩ :: service.revokedTokens, List.nodup_cons.mpr ⟨known, service.unique⟩⟩

def isRevoked (service : TokenRevocationService) (jti : String) : Bool :=
  0 < service.revokedTokens.countP fun record => record.jti = jti

def purgeExpired (service : TokenRevocationService) (now : Nat) : TokenRevocationService :=
  ⟨service.revokedTokens.filter fun record => !decide (record.expiresAt < now),
    service.unique.sublist (List.filter_sublist.map _)⟩

/-- JwtStrategy.validate, which the JWT library calls once it has accepted the token. -/
def validate (service : TokenRevocationService) (payload : JwtPayload) : Except Thrown AuthUser :=
  if payload.jti ≠ "" ∧ service.isRevoked payload.jti then
    .error (.unauthorized "Token has been revoked")
  else .ok ⟨payload.sub, payload.email, payload.role⟩

end TokenRevocationService

/-- The id and the expiry by which a decoded token is revoked; a token without them is not. -/
def revocable (decoded : Option DecodedToken) : Option (String × Nat) :=
  match decoded with
  | some ⟨some jti, some exp⟩ => if jti ≠ "" ∧ exp ≠ 0 then some (jti, exp) else none
  | _ => none

/-- Revocations as logout and revokeToken trigger them, with what the token decodes to. -/
inductive RevocationCall where
  | logout (decoded : Option DecodedToken) (now : Nat)
  | revokeToken (decoded : Option DecodedToken) (now : Nat)
  | purgeExpired (now : Nat)
  deriving DecidableEq

def RevocationCall.now : RevocationCall → Nat
  | .logout _ now => now
  | .revokeToken _ now => now
  | .purgeExpired now => now

inductive RevocationAnswer where
  | revoked (jti : String) (expiresAt : Nat)
  | unrevoked
  | threw (thrown : Thrown)
  | purged (affected : Nat)
  deriving DecidableEq

/-- The blacklisting both share, and what each answers when the row cannot be saved. -/
def blacklist (service : TokenRevocationService) (decoded : Option DecodedToken)
    (refused : RevocationAnswer) : TokenRevocationService × RevocationAnswer :=
  match revocable decoded with
  | none => (service, .unrevoked)
  | some (jti, exp) =>
    match service.revoke jti (exp * 1000) with
    | some service => (service, .revoked jti (exp * 1000))
    | none => (service, refused)

def revocationStep (service : TokenRevocationService) :
    RevocationCall → TokenRevocationService × RevocationAnswer
  | .logout decoded _ => blacklist service decoded .unrevoked
  | .revokeToken decoded _ =>
    blacklist service decoded (.threw (.unauthorized "Invalid token"))
  | .purgeExpired now => (service.purgeExpired now,
      .purged (service.revokedTokens.countP fun record => record.expiresAt < now))

def revocationMachine : Machine TokenRevocationService RevocationCall RevocationAnswer :=
  ⟨TokenRevocationService.initial, fun service call => some (revocationStep service call)⟩

/-- The JWT library accepts a token while the second has not come at which it expires. -/
def libraryAccepts (exp now : Nat) : Prop := now / 1000 < exp

/- The row of a successful revocation stays until a purge after its date. -/
def Listed (past : List (RevocationCall × RevocationAnswer)) (service : TokenRevocationService)
    (jti : String) (expiresAt : Nat) : Prop :=
  ⟨jti, expiresAt⟩ ∈ service.revokedTokens ∨ ∃ e ∈ past, expiresAt < e.1.now

theorem Listed.longer {past : List (RevocationCall × RevocationAnswer)}
    {service after : TokenRevocationService} {jti : String} {expiresAt : Nat}
    (listed : Listed past service jti expiresAt) (e : RevocationCall × RevocationAnswer)
    (kept : (⟨jti, expiresAt⟩ : RevokedToken) ∈ service.revokedTokens →
      ⟨jti, expiresAt⟩ ∈ after.revokedTokens ∨ expiresAt < e.1.now) :
    Listed (e :: past) after jti expiresAt := by
  rcases listed with row | ⟨purge, member, late⟩
  · rcases kept row with stays | late
    · exact Or.inl stays
    · exact Or.inr ⟨e, List.mem_cons_self, late⟩
  · exact Or.inr ⟨purge, List.mem_cons_of_mem _ member, late⟩

/- What a blacklisting does: nothing, or one new row, of a named id. -/
theorem blacklist_cases (service : TokenRevocationService) (decoded : Option DecodedToken)
    (refused : RevocationAnswer) :
    (blacklist service decoded refused).1 = service ∧
        ((blacklist service decoded refused).2 = .unrevoked ∨
          (blacklist service decoded refused).2 = refused) ∨
      ∃ jti expiresAt, jti ≠ "" ∧
        (blacklist service decoded refused).1.revokedTokens =
          ⟨jti, expiresAt⟩ :: service.revokedTokens ∧
        (blacklist service decoded refused).2 = .revoked jti expiresAt := by
  unfold blacklist
  cases found : revocable decoded with
  | none => exact Or.inl ⟨rfl, Or.inl rfl⟩
  | some token =>
    obtain ⟨jti, exp⟩ := token
    have named : jti ≠ "" := by
      unfold revocable at found
      split at found
      · split at found
        · rename_i named
          obtain ⟨rfl, rfl⟩ := Prod.mk.inj (Option.some.inj found)
          exact named.1
        · cases found
      · cases found
    by_cases known : jti ∈ service.revokedTokens.map RevokedToken.jti
    · simp [TokenRevocationService.revoke, known]
    · exact Or.inr ⟨jti, exp * 1000, named, by simp [TokenRevocationService.revoke, known],
        by simp [TokenRevocationService.revoke, known]⟩

/-- Every revocation that succeeded names an id, and its row is there or was purged late. -/
def AllListed (past : List (RevocationCall × RevocationAnswer)) (service : TokenRevocationService) :
    Prop :=
  ∀ e ∈ past, ∀ jti expiresAt, e.2 = .revoked jti expiresAt →
    jti ≠ "" ∧ Listed past service jti expiresAt

theorem blacklisted_listed {past : List (RevocationCall × RevocationAnswer)}
    {service : TokenRevocationService} (known : AllListed past service)
    (call : RevocationCall) (decoded : Option DecodedToken) {refused : RevocationAnswer}
    (unsaved : ∀ jti expiresAt, refused ≠ .revoked jti expiresAt) :
    AllListed ((call, (blacklist service decoded refused).2) :: past)
      (blacklist service decoded refused).1 := by
  intro e member jti expiresAt saved
  rcases blacklist_cases service decoded refused with ⟨same, answer⟩ | ⟨id, date, named, rows, answer⟩
  · rcases List.mem_cons.mp member with rfl | member
    · rcases answer with answer | answer
      · rw [answer] at saved
        cases saved
      · exact absurd (answer.symm.trans saved) (unsaved jti expiresAt)
    · obtain ⟨named, listed⟩ := known e member jti expiresAt saved
      exact ⟨named, listed.longer _ fun row => Or.inl (by rw [same]; exact row)⟩
  · rcases List.mem_cons.mp member with rfl | member
    · rw [answer] at saved
      obtain ⟨rfl, rfl⟩ := RevocationAnswer.revoked.inj saved
      exact ⟨named, Or.inl (by rw [rows]; exact List.mem_cons_self)⟩
    · obtain ⟨named, listed⟩ := known e member jti expiresAt saved
      exact ⟨named, listed.longer _ fun row => Or.inl (by
        rw [rows]
        exact List.mem_cons_of_mem _ row)⟩

theorem allListed_run {permit : Machine.Permit TokenRevocationService RevocationCall
      RevocationAnswer} {past : List (RevocationCall × RevocationAnswer)}
    {service : TokenRevocationService} (run : revocationMachine.Run permit past service) :
    AllListed past service := by
  refine run.invariant AllListed (fun e member => by cases member) ?_
  intro past service call after answer _ known _ moved
  obtain ⟨rfl, rfl⟩ := Prod.mk.inj (Option.some.inj moved)
  cases call with
  | logout decoded now => exact blacklisted_listed known _ decoded (by simp)
  | revokeToken decoded now => exact blacklisted_listed known _ decoded (by simp)
  | purgeExpired now =>
    intro e member jti expiresAt saved
    rcases List.mem_cons.mp member with rfl | member
    · cases saved
    · obtain ⟨named, listed⟩ := known e member jti expiresAt saved
      refine ⟨named, listed.longer _ fun row => ?_⟩
      -- the purge takes the row only when its own time is past the date
      by_cases late : expiresAt < now
      · exact Or.inr late
      · exact Or.inl (List.mem_filter.mpr ⟨row, by simpa using late⟩)

/-- From a successful revocation on, and as long as the JWT library would accept the token, it is
    refused, whatever is revoked and purged in between. -/
theorem revoked_until_expiry {past : List (RevocationCall × RevocationAnswer)}
    {service : TokenRevocationService}
    (run : revocationMachine.Run (Machine.ClockAdvances RevocationCall.now) past service)
    {jti : String} {exp : Nat} (revoked : ∃ e ∈ past, e.2 = .revoked jti (exp * 1000)) {now : Nat}
    (later : ∀ e ∈ past, e.1.now ≤ now) (accepted : libraryAccepts exp now) {payload : JwtPayload}
    (id : payload.jti = jti) :
    service.validate payload = .error (.unauthorized "Token has been revoked") := by
  obtain ⟨e, member, answer⟩ := revoked
  obtain ⟨named, row | ⟨purge, purged, late⟩⟩ := allListed_run run e member jti (exp * 1000) answer
  · have listed : service.isRevoked payload.jti = true := by
      simp only [TokenRevocationService.isRevoked, decide_eq_true_eq, List.countP_pos_iff]
      exact ⟨_, row, id.symm⟩
    rw [TokenRevocationService.validate, if_pos ⟨id ▸ named, listed⟩]
  · -- a purge past the date is later than the library would accept the token
    have expired := later purge purged
    unfold libraryAccepts at accepted
    omega

def alicePayload : JwtPayload := ⟨"alice", "alice@example.com", .user, "token-1"⟩

/-- Logged out at 50 s, purged in the last millisecond of a token that expires at 100 s. -/
theorem revoked_until_expiry_last_millisecond :
    ∃ past service, past.reverse.map Prod.fst =
        [.logout (some ⟨some "token-1", some 100⟩) 50000, .purgeExpired 99999] ∧
      revocationMachine.Run (Machine.ClockAdvances RevocationCall.now) past service ∧
      service.validate alicePayload = .error (.unauthorized "Token has been revoked") := by
  have first : revocationMachine.Run (Machine.ClockAdvances RevocationCall.now) _ _ :=
    Machine.Run.start.next (i := .logout (some ⟨some "token-1", some 100⟩) 50000) (by decide) rfl
  have second := first.next (i := .purgeExpired 99999) (by decide) rfl
  have live : libraryAccepts 100 99999 := by
    unfold libraryAccepts
    decide
  have answered : ∃ e ∈ [(RevocationCall.purgeExpired 99999, RevocationAnswer.purged 0),
      (.logout (some ⟨some "token-1", some 100⟩) 50000, .revoked "token-1" (100 * 1000))],
      e.2 = .revoked "token-1" (100 * 1000) := by
    decide +kernel
  have refused : _ = Except.error (Thrown.unauthorized "Token has been revoked") :=
    revoked_until_expiry second answered (by decide) live (rfl : alicePayload.jti = "token-1")
  exact ⟨_, _, rfl, second, refused⟩

end AstraPort.Auth
