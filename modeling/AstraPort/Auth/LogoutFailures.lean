import AstraPort.Auth.Accounts
import AstraPort.Auth.LogoutFinality
import AstraPort.Auth.Revocation

/- logout and revokeToken where repository calls may fail. Both blacklist the token inside a try
   block; revokeToken reports whatever goes wrong there, logout takes it for a malformed token. -/
namespace AstraPort.Auth

/-- Which of the calls to the repositories are rejected. -/
structure RepositoryFailures where
  save : Bool
  update : Bool
  deriving DecidableEq

def rejectedCall : Thrown := .error "repository call rejected"

namespace AuthService
section Libraries
variable (jwtService : JwtService) (failures : RepositoryFailures)

/-- TokenRevocationService.revoke. The unique index rejects a token id it has already. -/
def saveRevoked (service : AuthService) (jti : String) (expiresAt : Nat) :
    AuthService × Except Thrown Unit :=
  if failures.save then (service, .error rejectedCall)
  else match service.revoke jti expiresAt with
    | (service, true) => (service, .ok ())
    | (service, false) => (service, .error rejectedCall)

/-- The try block of logout and revokeToken. -/
def tryRevoke (service : AuthService) (accessToken : String) : AuthService × Except Thrown Unit :=
  match revocable (jwtService.decode accessToken) with
  | some (jti, exp) => service.saveRevoked failures jti (exp * 1000)
  | none => (service, .ok ())

def logoutCall (service : AuthService) (userId accessToken : String) :
    AuthService × Except Thrown Unit :=
  let (service, _) := service.tryRevoke jwtService failures accessToken
  if failures.update then (service, .error rejectedCall)
  else (service.updateRefreshTokenHash userId none, .ok ())

def revokeTokenCall (service : AuthService) (token : String) : AuthService × Except Thrown Unit :=
  match service.tryRevoke jwtService failures token with
  | (service, .ok ()) => (service, .ok ())
  | (service, .error _) => (service, .error (.unauthorized "Invalid token"))

end Libraries

def Blacklisted (service : AuthService) (jti : String) : Prop :=
  ∃ record ∈ service.revokedTokens, record.jti = jti

/-- No refresh token of the user is stored. -/
def Forgotten (service : AuthService) (userId : String) : Prop :=
  ∀ user, service.users.get userId = some user → user.refreshTokenHash = none

section Calls
variable {jwtService : JwtService} {failures : RepositoryFailures} {service : AuthService}
  {accessToken jti : String} {exp : Nat}

/- Saving fails on demand and where the id is known; otherwise the id is on the blacklist. -/
theorem saveRevoked_ok_iff (expiresAt : Nat) :
    (service.saveRevoked failures jti expiresAt).2 = .ok () ↔
      failures.save = false ∧ ¬ service.Blacklisted jti := by
  unfold saveRevoked Blacklisted
  cases failures.save with
  | true => simp [rejectedCall]
  | false =>
    simp only [Bool.false_eq_true, ↓reduceIte, true_and]
    unfold revoke
    by_cases known : service.revokedTokens.any fun record => record.jti = jti
    · rw [if_pos known]
      simpa [rejectedCall] using known
    · rw [if_neg known]
      simpa using known

theorem saveRevoked_blacklisted_iff (expiresAt : Nat) :
    (service.saveRevoked failures jti expiresAt).1.Blacklisted jti ↔
      failures.save = false ∨ service.Blacklisted jti := by
  unfold saveRevoked Blacklisted
  cases failures.save with
  | true => simp
  | false =>
    simp only [Bool.false_eq_true, ↓reduceIte, true_or, iff_true]
    unfold revoke
    by_cases known : service.revokedTokens.any fun record => record.jti = jti
    · rw [if_pos known]
      simpa using known
    · rw [if_neg known]
      exact ⟨_, List.mem_cons_self, rfl⟩

theorem forgotten_cleared (userId : String) :
    (service.updateRefreshTokenHash userId none).Forgotten userId := by
  intro user found
  rw [updateRefreshTokenHash_eq, updateUser_get, if_pos rfl] at found
  obtain ⟨before, _, rfl⟩ := Option.map_eq_some_iff.mp found
  rfl

theorem tryRevoke_of (decoded : jwtService.decode accessToken = some ⟨some jti, some exp⟩)
    (named : jti ≠ "") (dated : exp ≠ 0) :
    service.tryRevoke jwtService failures accessToken =
      service.saveRevoked failures jti (exp * 1000) := by
  rw [tryRevoke, decoded, revocable, if_pos ⟨named, dated⟩]

/- A logout resolves unless the update fails, whatever became of the token. -/
theorem logoutCall_ok_iff (userId : String) {after : AuthService} :
    service.logoutCall jwtService failures userId accessToken = (after, .ok ()) ↔
      failures.update = false ∧ after = (service.tryRevoke jwtService failures
        accessToken).1.updateRefreshTokenHash userId none := by
  unfold logoutCall
  cases failures.update with
  | true => simp [rejectedCall]
  | false => simp [eq_comm]

theorem revokeTokenCall_ok {after : AuthService}
    (resolved : service.revokeTokenCall jwtService failures accessToken = (after, .ok ())) :
    service.tryRevoke jwtService failures accessToken = (after, .ok ()) := by
  unfold revokeTokenCall at resolved
  split at resolved
  · rename_i tried
    cases resolved
    exact tried
  · cases resolved

@[simp] theorem updateRefreshTokenHash_blacklisted (userId : String) (hashed : Option String) :
    (service.updateRefreshTokenHash userId hashed).Blacklisted jti ↔ service.Blacklisted jti := by
  unfold updateRefreshTokenHash Blacklisted
  split <;> rfl

/-- A resolved logout or revocation has taken effect exactly when the row of the token is saved
    or was there, or where the logout fails for another reason too. -/
theorem resolved_takes_effect_iff
    (decoded : jwtService.decode accessToken = some ⟨some jti, some exp⟩) (named : jti ≠ "")
    (dated : exp ≠ 0) (userId : String) :
    ((∀ after, service.logoutCall jwtService failures userId accessToken = (after, .ok ()) →
        after.Blacklisted jti ∧ after.Forgotten userId) ∧
      ∀ after, service.revokeTokenCall jwtService failures accessToken = (after, .ok ()) →
        after.Blacklisted jti) ↔
      (failures.save = true → failures.update = true ∨ service.Blacklisted jti) := by
  have tried : service.tryRevoke jwtService failures accessToken =
      service.saveRevoked failures jti (exp * 1000) := tryRevoke_of decoded named dated
  have revoked : ∀ after, service.revokeTokenCall jwtService failures accessToken =
      (after, .ok ()) → after.Blacklisted jti := by
    intro after resolved
    have saved := tried.symm.trans (revokeTokenCall_ok resolved)
    have unfailing := (saveRevoked_ok_iff (exp * 1000)).mp (congrArg Prod.snd saved)
    have listed : (service.saveRevoked failures jti (exp * 1000)).1.Blacklisted jti :=
      (saveRevoked_blacklisted_iff (exp * 1000)).mpr (Or.inl unfailing.1)
    rwa [saved] at listed
  rw [and_iff_left revoked]
  constructor
  · intro effective failed
    cases unfinished : failures.update with
    | true => exact Or.inl rfl
    | false =>
      have taken := (effective _ ((logoutCall_ok_iff userId).mpr ⟨unfinished, rfl⟩)).1
      rw [updateRefreshTokenHash_blacklisted, tried, saveRevoked_blacklisted_iff, failed] at taken
      simpa using taken
  · intro condition after resolved
    obtain ⟨finished, rfl⟩ := (logoutCall_ok_iff userId).mp resolved
    refine ⟨?_, forgotten_cleared userId⟩
    rw [updateRefreshTokenHash_blacklisted, tried, saveRevoked_blacklisted_iff]
    cases failed : failures.save with
    | false => exact Or.inl rfl
    | true =>
      rcases condition failed with unfinished | known
      · rw [finished] at unfinished
        cases unfinished
      · exact Or.inr known

end Calls

/-- Alice with a refresh token, and nothing on the blacklist. -/
def aliceLoggedIn : AuthService :=
  (AccountService.initial [{ alice with refreshTokenHash := some "$2b$12$r1" }]).auth

/-- Without failures a logout revokes the token and forgets the refresh token. -/
theorem unfailing_logout_takes_effect :
    (∀ after, aliceLoggedIn.logoutCall unsigned ⟨false, false⟩ "alice" "id-1" = (after, .ok ()) →
        after.Blacklisted "id-1" ∧ after.Forgotten "alice") ∧
      ∀ after, aliceLoggedIn.revokeTokenCall unsigned ⟨false, false⟩ "id-1" = (after, .ok ()) →
        after.Blacklisted "id-1" :=
  (resolved_takes_effect_iff rfl (by decide) (by decide) "alice").mpr
    fun failed => absurd failed (by decide)

/-- The row of the token cannot be saved: the logout resolves all the same. -/
theorem failed_revocation_reported_done :
    ¬ ∀ (failures : RepositoryFailures) (service : AuthService) (userId accessToken jti : String)
      (exp : Nat), unsigned.decode accessToken = some ⟨some jti, some exp⟩ → jti ≠ "" → exp ≠ 0 →
      ∀ after, service.logoutCall unsigned failures userId accessToken = (after, .ok ()) →
        after.Blacklisted jti := by
  intro effective
  obtain ⟨record, listed, _⟩ := effective ⟨true, false⟩ aliceLoggedIn "alice" "id-1" "id-1" 900 rfl
    (by decide) (by decide) _ rfl
  cases listed

end AuthService
end AstraPort.Auth
