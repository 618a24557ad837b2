import AstraPort.Audit.Integrity

/- Which fields of an entry its checksum covers. An entry that changes in place leaves the
   rest of an accepted list as it was, so everything depends on the text that is hashed. -/
namespace AstraPort.Audit

/-- A change to one stored field of an entry, its checksum excepted. -/
inductive Change where
  | id (value : String)
  | userId (value : String)
  | eventType (value : String)
  | portfolioId (value : Option String)
  | userAction (value : String)
  | details (value : Json)
  | ipAddress (value : String)
  | userAgent (value : String)
  | previousChecksum (value : Option String)
  | createdAt (value : Date)

namespace Change

def apply (log : AuditLog) : Change → AuditLog
  | .id value => { log with id := value }
  | .userId value => { log with userId := value }
  | .eventType value => { log with eventType := value }
  | .portfolioId value => { log with portfolioId := value }
  | .userAction value => { log with userAction := value }
  | .details value => { log with details := value }
  | .ipAddress value => { log with ipAddress := value }
  | .userAgent value => { log with userAgent := value }
  | .previousChecksum value => { log with previousChecksum := value }
  | .createdAt value => { log with createdAt := value }

/-- The field goes into the hashed text; there, no portfolio id and an empty one are one. -/
def Covered (log : AuditLog) : Change → Prop
  | .portfolioId value => value.getD "" ≠ log.portfolioId.getD ""
  | .ipAddress _ => False
  | .userAgent _ => False
  | .previousChecksum _ => False
  | _ => True

@[simp] theorem apply_checksum (log : AuditLog) (change : Change) :
    (change.apply log).checksum = log.checksum := by cases change <;> rfl

/- A change of a covered field, and of no other, changes the hashed text. -/
theorem digestInput_apply {log : AuditLog} {change : Change} (differs : change.apply log ≠ log)
    (previous : String) :
    digestInput (change.apply log) previous ≠ digestInput log previous ↔ change.Covered log := by
  obtain ⟨id, userId, eventType, portfolioId, userAction, details, ipAddress, userAgent, checksum,
    previousChecksum, createdAt⟩ := log
  cases change with
  | id value =>
    simpa [apply, Covered, digestInput] using differs
  | userId value =>
    simpa [apply, Covered, digestInput] using differs
  | eventType value =>
    simpa [apply, Covered, digestInput] using differs
  | portfolioId value => simp [apply, Covered, digestInput]
  | userAction value =>
    simpa [apply, Covered, digestInput] using differs
  | details value =>
    have texts : String.ofList value.stringify = String.ofList details.stringify ↔
        value = details := String.ofList_inj.trans Json.stringify_inj
    simpa [apply, Covered, digestInput, texts] using differs
  | ipAddress value => simp [apply, Covered, digestInput]
  | userAgent value => simp [apply, Covered, digestInput]
  | previousChecksum value => simp [apply, Covered, digestInput]
  | createdAt value =>
    simpa [apply, Covered, digestInput, Date.toISOString_inj] using differs

end Change

/-- Against every other entry the changed one stands in time as the old one did. -/
def KeepsOrder (log log' : AuditLog) (others : List AuditLog) : Prop :=
  ∀ other ∈ others, byCreation log' other = byCreation log other

section Replaced
variable {sha256 : String → String} {before after : List AuditLog} {log log' : AuditLog}

theorem byCreation_swap (a b : AuditLog) : byCreation a b = (byCreation b a).swap :=
  Std.OrientedCmp.eq_swap

/- In a list whose other entries form an accepted chain with the old entry, the new one
   is accepted exactly when it is hashed as the same text. -/
theorem replaced_rejected_iff (injective : Function.Injective sha256)
    (accepted : (verifyLogs sha256 (before ++ log :: after)).valid = true)
    (order : KeepsOrder log log' (before ++ after)) (checksum : log'.checksum = log.checksum) :
    ∃ previous, (verifyLogs sha256 (before ++ log' :: after)).valid = false ↔
      digestInput log' previous ≠ digestInput log previous := by
  have alike : ∀ other ∈ before ++ after, byCreation log' other = byCreation log other ∧
      byCreation other log' = byCreation other log := fun other member =>
    ⟨order other member, by rw [byCreation_swap other, byCreation_swap other, order other member]⟩
  obtain ⟨front, back, sorted, sorted'⟩ := stableSort_replaced alike
  rw [verifyLogs_valid, sorted] at accepted
  obtain ⟨leading, made, following⟩ := chained_append.mp accepted
  refine ⟨(front.getLast?.map AuditLog.checksum).getD "", ?_⟩
  rw [← Bool.not_eq_true, verifyLogs_valid, sorted', chained_append, checksum, not_iff_not]
  constructor
  · rintro ⟨_, same, _⟩
    exact (injective (made.symm.trans same)).symm
  · intro same
    exact ⟨leading, by rw [made, generateChecksum, generateChecksum, same], following⟩

end Replaced

/-- After a change to one field of one entry, which keeps the order in time, an accepted
    list is rejected exactly when the field is covered by the checksum. -/
theorem change_rejected_iff_covered {sha256 : String → String}
    (injective : Function.Injective sha256) {before after : List AuditLog} {log : AuditLog}
    (accepted : (verifyLogs sha256 (before ++ log :: after)).valid = true) {change : Change}
    (differs : change.apply log ≠ log) (order : KeepsOrder log (change.apply log) (before ++ after)) :
    (verifyLogs sha256 (before ++ change.apply log :: after)).valid = false ↔
      change.Covered log := by
  obtain ⟨previous, rejected⟩ :=
    replaced_rejected_iff injective accepted order (change.apply_checksum log)
  rw [rejected, Change.digestInput_apply differs]

/-- A login, with the SHA-256 digest of its text. -/
def login : AuditLog :=
  { id := "a1", userId := "alice", eventType := "LOGIN", portfolioId := none,
    userAction := "login", details := .null, ipAddress := "10.0.0.1", userAgent := "curl",
    checksum := "772bc0ef3d7eeaf925936e3592ff17ecc28b9cf65cd58828aeb58d1bd533df0e",
    previousChecksum := none, createdAt := Date.epoch }

/-- SHA-256 of that text and of the same login by another user; an injective function on
    all other texts. -/
def loginDigest (text : String) : String :=
  if text = digestInput login "" then login.checksum
  else if text = digestInput ((Change.userId "bob").apply login) "" then
    "2f81e8ba9b8ca55057f126833a67e1609d9a18420ba9ebc238d36c562da855bc"
  else "#" ++ text

theorem loginDigest_injective : Function.Injective loginDigest := by
  have marked (text digest : String) (unmarked : digest.toList.head? ≠ some '#') :
      "#" ++ text ≠ digest := by
    rintro rfl
    simp at unmarked
  have first (text : String) := marked text login.checksum (by decide)
  have second (text : String) := marked text
    "2f81e8ba9b8ca55057f126833a67e1609d9a18420ba9ebc238d36c562da855bc" (by decide)
  intro a b same
  unfold loginDigest at same
  split_ifs at same with a₁ b₁ b₂ a₂ b₁ b₂ b₁ b₂
  · rw [a₁, b₁]
  · exact absurd same (by decide)
  · exact absurd same.symm (first b)
  · exact absurd same (by decide)
  · rw [a₂, b₂]
  · exact absurd same.symm (second b)
  · exact absurd same (first a)
  · exact absurd same (second a)
  · simpa using same

theorem loginDigest_login : login.checksum = generateChecksum loginDigest login "" := by
  rw [generateChecksum, loginDigest, if_pos rfl]

theorem login_accepted : (verifyLogs loginDigest ([] ++ login :: [])).valid = true :=
  verifyLogs_valid.mpr ⟨loginDigest_login, trivial⟩

theorem login_of_another_user_rejected :
    (verifyLogs loginDigest ([] ++ (Change.userId "bob").apply login :: [])).valid = false :=
  (change_rejected_iff_covered loginDigest_injective login_accepted
    (fun same => absurd (congrArg AuditLog.userId same) (by decide)) (by simp [KeepsOrder])).mpr
    trivial

theorem moved_ip_address_accepted : ¬ ∀ (sha256 : String → String), Function.Injective sha256 →
    ∀ before log after, (verifyLogs sha256 (before ++ log :: after)).valid = true →
    ∀ change : Change, change.apply log ≠ log →
    KeepsOrder log (change.apply log) (before ++ after) →
    (verifyLogs sha256 (before ++ change.apply log :: after)).valid = false := by
  intro always
  have rejected := always loginDigest loginDigest_injective [] login [] login_accepted
    (.ipAddress "203.0.113.7") (fun same => absurd (congrArg AuditLog.ipAddress same) (by decide))
    (by simp [KeepsOrder])
  have accepted : (verifyLogs loginDigest
      ([] ++ (Change.ipAddress "203.0.113.7").apply login :: [])).valid = true :=
    verifyLogs_valid.mpr ⟨loginDigest_login, trivial⟩
  rw [accepted] at rejected
  cases rejected

end AstraPort.Audit
