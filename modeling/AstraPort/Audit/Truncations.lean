import AstraPort.Audit.Integrity
import AstraPort.Foundation.JsString
import AstraPort.Foundation.Seeking

/- Deletions that verification does not see. The checksums of a chain are pairwise different
   and none is empty, so an entry is accepted behind its own predecessor only. -/
namespace AstraPort.Audit
open Seeking

/-- Length of a string in code units. -/
def jsLength (text : String) : Nat := (JsString.ofString text).length

/-- No two texts that verification may hash for entries of the chain collide. -/
def CollisionFree (sha256 : String → String) (chain : List AuditLog) : Prop :=
  ∀ a ∈ chain, ∀ b ∈ chain, ∀ p ∈ "" :: chain.map AuditLog.checksum,
    ∀ q ∈ "" :: chain.map AuditLog.checksum,
      generateChecksum sha256 a p = generateChecksum sha256 b q → digestInput a p = digestInput b q

section Chains
variable {sha256 : String → String} {chain sub given : List AuditLog} {previous : String}

theorem codeUnits_pos (c : Char) : 1 ≤ (codeUnits c).length := by
  unfold codeUnits
  split <;> simp

/- A text that goes on behind another of its length goes on with nothing. -/
theorem nothing_behind {a b : String} {more : List Char} (longer : a.toList = b.toList ++ more)
    (width : jsLength a = jsLength b) : a = b := by
  have units : (more.flatMap codeUnits).length = 0 := by
    simp only [jsLength, JsString.ofString, longer, List.flatMap_append, List.length_append] at width
    omega
  cases more with
  | nil =>
    rw [List.append_nil] at longer
    exact String.toList_inj.mp longer
  | cons c cs =>
    have one := codeUnits_pos c
    rw [List.flatMap_cons, List.length_append] at units
    omega

/- Texts of one length that begin a common text are equal. -/
theorem front_unique {a b x y : String} (same : a ++ x = b ++ y) (width : jsLength a = jsLength b) :
    a = b := by
  have lists : a.toList ++ x.toList = b.toList ++ y.toList := by
    rw [← String.toList_append, ← String.toList_append, same]
  rcases List.append_eq_append_iff.mp lists with ⟨more, longer, _⟩ | ⟨more, longer, _⟩
  · exact (nothing_behind longer width.symm).symm
  · exact nothing_behind longer width

theorem digestInput_front {a b : AuditLog} {p q : String} (same : digestInput a p = digestInput b q)
    (width : jsLength a.id = jsLength b.id) : a.id = b.id := by
  simp only [digestInput, String.append_assoc] at same
  exact front_unique same width

/- Every checksum of a chain was computed from its entry and an earlier checksum. -/
theorem Chained.computed (chained : Chained sha256 previous chain) :
    ∀ log ∈ chain, ∃ p ∈ previous :: chain.map AuditLog.checksum,
      log.checksum = generateChecksum sha256 log p := by
  induction chain generalizing previous with
  | nil => simp
  | cons first rest ih =>
    intro log member
    rcases List.mem_cons.mp member with rfl | later
    · exact ⟨previous, List.mem_cons_self, chained.1⟩
    · obtain ⟨p, known, made⟩ := ih chained.2 log later
      exact ⟨p, List.mem_cons_of_mem _ known, made⟩

theorem Chained.checksums_distinct (chained : Chained sha256 "" chain)
    (free : CollisionFree sha256 chain) (hex : ∀ text, (sha256 text).length = 64)
    (distinct : (chain.map AuditLog.id).Nodup) {width : Nat}
    (fixed : ∀ log ∈ chain, jsLength log.id = width) :
    ("" :: chain.map AuditLog.checksum).Nodup := by
  refine List.nodup_cons.mpr ⟨?_, ?_⟩
  · intro empty
    obtain ⟨log, member, none⟩ := List.mem_map.mp empty
    obtain ⟨p, _, made⟩ := chained.computed log member
    have long : log.checksum.length = 64 := made ▸ hex _
    rw [none] at long
    cases long
  · rw [List.Nodup, List.pairwise_map] at distinct ⊢
    refine distinct.imp_of_mem fun {a b} first second unequal same => unequal ?_
    obtain ⟨p, known, made⟩ := chained.computed a first
    obtain ⟨q, known', made'⟩ := chained.computed b second
    rw [made, made'] at same
    exact digestInput_front (free a first b second p known q known' same)
      (by rw [fixed a first, fixed b second])

/- Entries accepted one behind the other that stand in a chain in this order are its
   beginning: behind a gap an entry would follow two different checksums. -/
theorem Chained.prefix_of_sublist {all : List AuditLog} (chained : Chained sha256 previous chain)
    (accepted : Chained sha256 previous sub) (part : sub.Sublist chain)
    (free : CollisionFree sha256 all) (within : ∀ log ∈ chain, log ∈ all)
    (known : previous ∈ "" :: all.map AuditLog.checksum)
    (distinct : (previous :: chain.map AuditLog.checksum).Nodup) : sub <+: chain := by
  induction chain generalizing previous sub with
  | nil =>
    obtain rfl := List.sublist_nil.mp part
    exact List.nil_prefix
  | cons first rest ih =>
    cases sub with
    | nil => exact List.nil_prefix
    | cons log sub =>
      have stored : first.checksum ∈ "" :: all.map AuditLog.checksum :=
        List.mem_cons_of_mem _ (List.mem_map_of_mem (within first List.mem_cons_self))
      cases part with
      | cons_cons _ part =>
        apply (List.prefix_cons_inj first).mpr
        exact ih chained.2 accepted.2 part
          (fun log member => within log (List.mem_cons_of_mem _ member)) stored
          (List.nodup_cons.mp distinct).2
      | cons _ part =>
        exfalso
        have later : log ∈ rest := part.subset List.mem_cons_self
        obtain ⟨p, computed_from, made⟩ := chained.2.computed log later
        have inside : log ∈ all := within log (List.mem_cons_of_mem _ later)
        have known' : p ∈ "" :: all.map AuditLog.checksum := by
          rcases List.mem_cons.mp computed_from with rfl | further
          · exact stored
          · obtain ⟨other, member, rfl⟩ := List.mem_map.mp further
            exact List.mem_cons_of_mem _
              (List.mem_map_of_mem (within other (List.mem_cons_of_mem _ member)))
        have same : p = previous := digestInput_inj.mp
          (free log inside log inside p known' previous known (made.symm.trans accepted.1))
        rw [same] at computed_from
        exact (List.nodup_cons.mp distinct).1 computed_from

theorem stableSort_increasing
    (increasing : sub.Pairwise fun a b => a.createdAt.time < b.createdAt.time)
    (order : given.Perm sub) : stableSort byCreation given = sub := by
  have less : sub.Pairwise fun a b => byCreation a b = .lt :=
    increasing.imp fun before => compare_lt_iff_lt.mpr before
  have apart : Apart byCreation sub := less.imp fun before => by simp [before]
  have ascending : Sorted byCreation sub := less.imp fun before => by simp [before]
  exact sorted_unique apart ((stableSort_perm byCreation given).trans order) (List.Perm.refl sub)
    (sorted_stableSort given) ascending

end Chains

/-- Of a chain with distinct ids of one length and strictly increasing times, the entries
    left by deletions, in any order, are accepted exactly when they are its beginning. -/
theorem accepted_deletions_are_truncations (sha256 : String → String)
    (hex : ∀ text, (sha256 text).length = 64) {chain : List AuditLog}
    (free : CollisionFree sha256 chain) (built : Chained sha256 "" chain)
    (distinct : (chain.map AuditLog.id).Nodup) {width : Nat}
    (fixed : ∀ log ∈ chain, jsLength log.id = width)
    (increasing : chain.Pairwise fun a b => a.createdAt.time < b.createdAt.time)
    {sub given : List AuditLog} (deleted : sub.Sublist chain) (order : given.Perm sub) :
    (verifyLogs sha256 given).valid = true ↔ sub <+: chain := by
  rw [verifyLogs_valid, stableSort_increasing (increasing.sublist deleted) order]
  have checksums := built.checksums_distinct free hex distinct fixed
  constructor
  · intro accepted
    exact built.prefix_of_sublist accepted deleted free (fun _ member => member)
      List.mem_cons_self checksums
  · rintro ⟨rest, rfl⟩
    cases rest with
    | nil => simpa using built
    | cons next rest => exact (chained_append.mp built).1

/-- An entry without predecessor, with the SHA-256 digest of its text. -/
def created : AuditLog :=
  { id := "a1", userId := "u1", eventType := "PORTFOLIO", portfolioId := none,
    userAction := "create", details := .null, ipAddress := "10.0.0.1", userAgent := "curl",
    checksum := "208d42b027ebe4a1bc765a6e54b01cfcf15426d4f6f216b1d9ca4933a9098d62",
    previousChecksum := none, createdAt := Date.epoch }

/-- SHA-256 of that text and of the entry behind its own checksum. -/
def createdDigest (text : String) : String :=
  if text = digestInput created "" then created.checksum
  else "d8c29c6dbec81d29a996153b09422d26f14f0d536e6aade5e44125042fb4dcd1"

theorem createdDigest_length (text : String) : (createdDigest text).length = 64 := by
  unfold createdDigest
  split <;> decide

theorem createdDigest_created : created.checksum = generateChecksum createdDigest created "" := by
  rw [generateChecksum, createdDigest, if_pos rfl]

theorem createdDigest_free : CollisionFree createdDigest [created] := by
  have apart : generateChecksum createdDigest created created.checksum ≠
      generateChecksum createdDigest created "" := by
    have behind : ¬ digestInput created created.checksum = digestInput created "" := by
      rw [digestInput_inj]
      decide
    rw [← createdDigest_created, generateChecksum, createdDigest, if_neg behind]
    decide
  intro a inA b inB p inP q inQ same
  obtain rfl := List.mem_singleton.mp inA
  obtain rfl := List.mem_singleton.mp inB
  simp only [List.map_cons, List.map_nil, List.mem_cons, List.not_mem_nil, or_false] at inP inQ
  rcases inP with rfl | rfl <;> rcases inQ with rfl | rfl
  · rfl
  · exact absurd same.symm apart
  · exact absurd same apart
  · rfl

theorem chain_of_one_accepted :
    (verifyLogs createdDigest [created]).valid = true ↔ [created] <+: [created] := by
  have built : Chained createdDigest "" [created] := ⟨createdDigest_created, trivial⟩
  have fixed : ∀ log ∈ [created], jsLength log.id = 2 := by decide
  exact accepted_deletions_are_truncations createdDigest createdDigest_length createdDigest_free
    built (by simp) fixed (by simp) (List.Sublist.refl _) (List.Perm.refl _)

end AstraPort.Audit
