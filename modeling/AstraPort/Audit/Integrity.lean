import AstraPort.Foundation.IsoDate
import AstraPort.Foundation.Json
import AstraPort.Foundation.Sorting

/- LogIntegrityVerifier: every entry carries the SHA-256 of its fields and of the checksum
   stored with the entry before it. -/
namespace AstraPort.Audit

structure AuditLog where
  id : String
  userId : String
  eventType : String
  portfolioId : Option String
  userAction : String
  details : Json
  ipAddress : String
  userAgent : String
  checksum : String
  previousChecksum : Option String
  createdAt : Date

/-- The text that is hashed: the fields one behind the other. -/
def digestInput (log : AuditLog) (previousChecksum : String) : String :=
  log.id ++ log.userId ++ log.eventType ++ log.portfolioId.getD "" ++ log.userAction ++
    String.ofList log.details.stringify ++ log.createdAt.toISOString ++ previousChecksum

structure Verification where
  valid : Bool
  invalidLogIds : List String
  deriving DecidableEq

def byCreation (a b : AuditLog) : Ordering := compare a.createdAt.time b.createdAt.time

section Verifier
variable (sha256 : String → String)

def generateChecksum (log : AuditLog) (previousChecksum : String) : String :=
  sha256 (digestInput log previousChecksum)

/-- Entries whose checksum is not the expected one; what is carried on is the stored one. -/
def invalidLogIds (previousChecksum : String) : List AuditLog → List String
  | [] => []
  | log :: rest =>
    (if log.checksum ≠ generateChecksum sha256 log previousChecksum then [log.id] else []) ++
      invalidLogIds log.checksum rest

def verifyLogs (logs : List AuditLog) : Verification :=
  let invalid := invalidLogIds sha256 "" (stableSort byCreation logs)
  ⟨decide (invalid.length = 0), invalid⟩

/-- Each checksum computed from the entry and the checksum before it. -/
def Chained (previousChecksum : String) : List AuditLog → Prop
  | [] => True
  | log :: rest =>
    log.checksum = generateChecksum sha256 log previousChecksum ∧ Chained log.checksum rest

end Verifier

section Facts
variable {sha256 : String → String}

theorem invalidLogIds_nil {logs : List AuditLog} {previousChecksum : String} :
    invalidLogIds sha256 previousChecksum logs = [] ↔ Chained sha256 previousChecksum logs := by
  induction logs generalizing previousChecksum with
  | nil => simp [invalidLogIds, Chained]
  | cons log rest ih => simp [invalidLogIds, Chained, ih]

theorem verifyLogs_valid {logs : List AuditLog} :
    (verifyLogs sha256 logs).valid = true ↔ Chained sha256 "" (stableSort byCreation logs) := by
  rw [← invalidLogIds_nil]
  simp [verifyLogs]

/- A chain is one up to any entry, and goes on from the checksum stored there. -/
theorem chained_append {before after : List AuditLog} {log : AuditLog} {previousChecksum : String} :
    Chained sha256 previousChecksum (before ++ log :: after) ↔
      Chained sha256 previousChecksum before ∧
      log.checksum = generateChecksum sha256 log
        ((before.getLast?.map AuditLog.checksum).getD previousChecksum) ∧
      Chained sha256 log.checksum after := by
  induction before generalizing previousChecksum with
  | nil => simp [Chained]
  | cons first before ih =>
    rw [List.cons_append, Chained, Chained, ih]
    cases before with
    | nil => simp [Chained]
    | cons second before => simp [and_assoc, List.getLast?_cons]

instance byCreation_lawful : Std.TransCmp byCreation :=
  inferInstanceAs (Std.TransCmp (compareOn fun log : AuditLog => log.createdAt.time))

/- Digest inputs of one entry differ in the previous checksum alone. -/
theorem digestInput_inj {log : AuditLog} {p q : String} :
    digestInput log p = digestInput log q ↔ p = q := by
  simp [digestInput]

end Facts
end AstraPort.Audit
