import AstraPort.Audit.Truncations

/- Verification in whatever order the repository returns the entries. The order of a chain is
   recovered from the dates alone, so entries of one millisecond stay as they were returned. -/
namespace AstraPort.Audit

section Orders
variable {logs : List AuditLog}

/-- Entries in the order of their dates; some may share a millisecond. -/
def NeverEarlier (logs : List AuditLog) : Prop :=
  logs.Pairwise fun a b => a.createdAt.time ≤ b.createdAt.time

def AlwaysLater (logs : List AuditLog) : Prop :=
  logs.Pairwise fun a b => a.createdAt.time < b.createdAt.time

theorem stableSort_neverEarlier (ordered : NeverEarlier logs) :
    stableSort byCreation logs = logs := by
  apply List.Pairwise.insertionSort_eq
  exact ordered.imp fun before => Std.isLE_compare.mpr before

/- Where not every entry is later than those before it, two neighbours share a date. -/
theorem tied_neighbours (ordered : NeverEarlier logs) (tied : ¬ AlwaysLater logs) :
    ∃ before a b after, logs = before ++ a :: b :: after ∧ a.createdAt.time = b.createdAt.time := by
  induction logs with
  | nil => exact absurd List.Pairwise.nil tied
  | cons first rest ih =>
    obtain ⟨from_first, ordered_rest⟩ := List.pairwise_cons.mp ordered
    by_cases later : AlwaysLater rest
    · cases rest with
      | nil => exact absurd (List.pairwise_singleton _ first) tied
      | cons second more =>
        by_cases same : first.createdAt.time = second.createdAt.time
        · exact ⟨[], first, second, more, rfl, same⟩
        · have ahead : first.createdAt.time < second.createdAt.time := by
            have reached := from_first second List.mem_cons_self
            omega
          refine absurd (List.pairwise_cons.mpr ⟨?_, later⟩) tied
          intro log member
          rcases List.mem_cons.mp member with rfl | further
          · exact ahead
          · have beyond := (List.pairwise_cons.mp later).1 log further
            omega
    · obtain ⟨before, a, b, after, split, same⟩ := ih ordered_rest later
      exact ⟨first :: before, a, b, after, by rw [split, List.cons_append], same⟩

theorem swapped_neverEarlier {before after : List AuditLog} {a b : AuditLog}
    (ordered : NeverEarlier (before ++ a :: b :: after))
    (same : a.createdAt.time = b.createdAt.time) :
    NeverEarlier (before ++ b :: a :: after) := by
  have dates : (before ++ a :: b :: after).map (fun log => log.createdAt.time) =
      (before ++ b :: a :: after).map fun log => log.createdAt.time := by simp [same]
  have by_date {entries : List AuditLog} : NeverEarlier entries ↔
      (entries.map fun log => log.createdAt.time).Pairwise (· ≤ ·) := List.pairwise_map.symm
  rw [by_date, ← dates, ← by_date]
  exact ordered

/- A chain with two entries swapped is none: each would follow two different checksums. -/
theorem swapped_unchained {sha256 : String → String} {before after : List AuditLog} {a b : AuditLog}
    (free : CollisionFree sha256 (before ++ a :: b :: after))
    (built : Chained sha256 "" (before ++ a :: b :: after)) {width : Nat}
    (fixed : ∀ log ∈ before ++ a :: b :: after, jsLength log.id = width) (apart : a.id ≠ b.id) :
    ¬ Chained sha256 "" (before ++ b :: a :: after) := by
  intro swapped
  obtain ⟨_, firstA, secondB, _⟩ := chained_append.mp built
  obtain ⟨_, firstB, secondA, _⟩ := chained_append.mp swapped
  have inA : a ∈ before ++ a :: b :: after := by simp
  have inB : b ∈ before ++ a :: b :: after := by simp
  have known {log : AuditLog} (member : log ∈ before ++ a :: b :: after) :
      log.checksum ∈ "" :: (before ++ a :: b :: after).map AuditLog.checksum :=
    List.mem_cons_of_mem _ (List.mem_map_of_mem member)
  have known_before : (before.getLast?.map AuditLog.checksum).getD "" ∈
      "" :: (before ++ a :: b :: after).map AuditLog.checksum := by
    cases last : before.getLast? with
    | none => exact List.mem_cons_self
    | some log => exact known (List.mem_append_left _ (List.mem_of_getLast? last))
  have behindA : (before.getLast?.map AuditLog.checksum).getD "" = a.checksum :=
    digestInput_inj.mp (free b inB b inB _ known_before _ (known inA)
      (firstB.symm.trans secondB))
  have behindB : (before.getLast?.map AuditLog.checksum).getD "" = b.checksum :=
    digestInput_inj.mp (free a inA a inA _ known_before _ (known inB)
      (firstA.symm.trans secondA))
  have texts := free a inA b inB _ known_before _ known_before
    (firstA.symm.trans (behindA.symm.trans (behindB.trans firstB)))
  exact apart (digestInput_front texts (by rw [fixed a inA, fixed b inB]))

end Orders

theorem increasing_chain_accepted {sha256 : String → String} {logs returned : List AuditLog}
    (built : Chained sha256 "" logs) (later : AlwaysLater logs) (order : returned.Perm logs) :
    (verifyLogs sha256 returned).valid = true := by
  rw [verifyLogs_valid, stableSort_increasing later order]
  exact built

/-- A genuine chain is accepted in every order in which it may be returned exactly when no two
    of its entries share a millisecond. -/
theorem genuine_chain_accepted_iff (sha256 : String → String) {logs : List AuditLog}
    (built : Chained sha256 "" logs) (ordered : NeverEarlier logs)
    (free : CollisionFree sha256 logs) (distinct : (logs.map AuditLog.id).Nodup) {width : Nat}
    (fixed : ∀ log ∈ logs, jsLength log.id = width) :
    (∀ returned : List AuditLog, returned.Perm logs →
      (verifyLogs sha256 returned).valid = true) ↔ AlwaysLater logs := by
  constructor
  · intro accepted
    by_contra tied
    obtain ⟨before, a, b, after, rfl, same⟩ := tied_neighbours ordered tied
    have swapped : (before ++ b :: a :: after).Perm (before ++ a :: b :: after) :=
      (List.Perm.swap a b after).append_left before
    have valid := accepted _ swapped
    rw [verifyLogs_valid, stableSort_neverEarlier (swapped_neverEarlier ordered same)] at valid
    have apart : a.id ≠ b.id := by
      rw [List.map_append, List.map_cons, List.map_cons] at distinct
      intro equal
      have pair := (List.nodup_append.mp distinct).2.1
      exact (List.nodup_cons.mp pair).1 (by rw [equal]; exact List.mem_cons_self)
    exact swapped_unchained free built fixed apart valid
  · intro later returned order
    exact increasing_chain_accepted built later order

/-- The entry behind that of the creation. -/
def renamed (createdAt : Date) (checksum : String) : AuditLog :=
  { created with id := "a2", userAction := "rename", checksum := checksum,
                 previousChecksum := some created.checksum, createdAt := createdAt }

/-- Renamed one millisecond after the creation. -/
def renamedLater : AuditLog :=
  renamed ⟨1, by decide⟩ "f27f5850ef9fa6a942cd567f62650a46aac6c128ca1bf846881cdd74d891432f"

/-- Renamed in the millisecond of the creation. -/
def renamedAtOnce : AuditLog :=
  renamed Date.epoch "301d4c1614d5891674f1ad41aba5bb3d4f114551961e5ebedc91710a64a260bb"

/-- The texts that verification may hash for the creation and a second entry. -/
def pairTexts (second : AuditLog) : List String :=
  [digestInput created "", digestInput created created.checksum,
   digestInput created second.checksum, digestInput second "",
   digestInput second created.checksum, digestInput second second.checksum]

/-- A digest known for these texts only. -/
def pairDigest (second : AuditLog) (digests : List String) (text : String) : String :=
  (((pairTexts second).zip digests).lookup text).getD ""

/-- SHA-256 on them. -/
def laterDigest : String → String :=
  pairDigest renamedLater
    ["208d42b027ebe4a1bc765a6e54b01cfcf15426d4f6f216b1d9ca4933a9098d62",
     "d8c29c6dbec81d29a996153b09422d26f14f0d536e6aade5e44125042fb4dcd1",
     "8d745983f868ccfd2511b8102ff7757294efcd35d996f3591ba2ba7518bc02a3",
     "cf5868f118c6c7bdf3ca4fe46987ce7c877eb0b31735664bc46c89dc48ac89ec",
     "f27f5850ef9fa6a942cd567f62650a46aac6c128ca1bf846881cdd74d891432f",
     "153ceecc710b6b0ca2fd3002b86e788ed6abcf4c314a5ba2943c5e18cb29fb71"]

def tiedDigest : String → String :=
  pairDigest renamedAtOnce
    ["208d42b027ebe4a1bc765a6e54b01cfcf15426d4f6f216b1d9ca4933a9098d62",
     "d8c29c6dbec81d29a996153b09422d26f14f0d536e6aade5e44125042fb4dcd1",
     "a283260a8c276563eff5a1c615c8ca953e039c74d377b1198acd6b868365707a",
     "461348e6038dceaaf0c8a07f81a30116f51b30ffc6d8856dd29d15c7ed42fccb",
     "301d4c1614d5891674f1ad41aba5bb3d4f114551961e5ebedc91710a64a260bb",
     "77a0aab8d711536a182ccf57bd49b9a9efb33cc36919947f5d0fe37dbc26a4de"]

/-- Two entries a millisecond apart are accepted the other way round. -/
theorem two_dates_accepted : (verifyLogs laterDigest [renamedLater, created]).valid = true := by
  have built : Chained laterDigest "" [created, renamedLater] :=
    ⟨by decide +kernel, by decide +kernel, trivial⟩
  have free : CollisionFree laterDigest [created, renamedLater] := by
    unfold CollisionFree
    decide +kernel
  have fixed : ∀ log ∈ [created, renamedLater], jsLength log.id = 2 := by decide +kernel
  exact (genuine_chain_accepted_iff laterDigest built (by unfold NeverEarlier; decide +kernel) free
    (by decide +kernel) fixed).mpr (by unfold AlwaysLater; decide +kernel) _
    (List.Perm.swap created renamedLater [])

/-- Two entries of one millisecond, returned the other way round, are both called invalid. -/
theorem tied_entries_refused :
    ¬ ∀ logs returned : List AuditLog, Chained tiedDigest "" logs → NeverEarlier logs →
      returned.Perm logs → (verifyLogs tiedDigest returned).valid = true := by
  intro accepted
  have valid := accepted [created, renamedAtOnce] [renamedAtOnce, created]
    ⟨by decide +kernel, by decide +kernel, trivial⟩ (by unfold NeverEarlier; decide +kernel)
    (List.Perm.swap created renamedAtOnce [])
  exact absurd valid (by decide +kernel)

end AstraPort.Audit
