import AstraPort.Audit.Integrity
import AstraPort.Foundation.Csv

/- CsvExporter: the fields of every entry joined by commas, without quotes around them. Only
   the quotes in the text of the details are doubled. -/
namespace AstraPort.Audit
open Csv (Cell Dialect lenient parse rfc4180)

structure AuditLogEntryDto where
  id : String
  userId : String
  eventType : String
  portfolioId : Option String
  userAction : String
  details : Json
  ipAddress : String
  userAgent : String
  createdAt : Date

/-- AuditLogService.mapToDto. -/
def mapToDto (log : AuditLog) : AuditLogEntryDto :=
  { id := log.id, userId := log.userId, eventType := log.eventType,
    portfolioId := log.portfolioId, userAction := log.userAction, details := log.details,
    ipAddress := log.ipAddress, userAgent := log.userAgent, createdAt := log.createdAt }

namespace CsvExporter

def headers : List String :=
  ["id", "userId", "eventType", "portfolioId", "userAction", "ipAddress", "userAgent",
   "createdAt", "details"]

def row (log : AuditLogEntryDto) : List String :=
  [log.id, log.userId, log.eventType, log.portfolioId.getD "", log.userAction, log.ipAddress,
   log.userAgent, log.createdAt.toISOString,
   String.ofList (Csv.doubled log.details.stringify)]

end CsvExporter

def CsvExporter.export (logs : List AuditLogEntryDto) : String :=
  "\n".intercalate
    (",".intercalate headers :: (logs.map row).map fun fields => ",".intercalate fields)

/-- AuditLogService.export of rows for the format csv. -/
def exportCsv (logs : List AuditLog) : String := CsvExporter.export (logs.map mapToDto)

namespace CsvExporter

/-- The values of an entry, its details as JSON text. -/
def values (log : AuditLogEntryDto) : List String :=
  [log.id, log.userId, log.eventType, log.portfolioId.getD "", log.userAction, log.ipAddress,
   log.userAgent, log.createdAt.toISOString, String.ofList log.details.stringify]

/-- What a reader should find in the export. -/
def table (logs : List AuditLogEntryDto) : List (List (List Char)) :=
  (headers :: logs.map values).map fun fields => fields.map String.toList

def headerRow : Csv.Row :=
  ⟨.raw "id".toList,
   ["userId", "eventType", "portfolioId", "userAction", "ipAddress", "userAgent", "createdAt",
    "details"].map fun name => .raw name.toList⟩

def entryRow (log : AuditLogEntryDto) : Csv.Row :=
  ⟨.raw log.id.toList,
   ([log.userId, log.eventType, log.portfolioId.getD "", log.userAction, log.ipAddress,
     log.userAgent, log.createdAt.toISOString].map fun text => .raw text.toList) ++
     [.doubled log.details.stringify]⟩

theorem headerRow_written : headerRow.written = (",".intercalate headers).toList := by
  rw [String.toList_intercalate]
  rfl

theorem entryRow_written (log : AuditLogEntryDto) :
    (entryRow log).written = (",".intercalate (row log)).toList := by
  rw [String.toList_intercalate]
  simp [Csv.Row.written, Csv.Row.cells, entryRow, row, joined, Cell.raw, Cell.doubled]

theorem headerRow_values : headerRow.values = headers.map String.toList := by
  rfl

theorem entryRow_values (log : AuditLogEntryDto) :
    (entryRow log).values = (values log).map String.toList := by
  simp [Csv.Row.values, Csv.Row.cells, entryRow, values, Cell.raw, Cell.doubled]

theorem export_toList (logs : List AuditLogEntryDto) :
    (CsvExporter.export logs).toList =
      joined Csv.Row.written '\n' (headerRow :: logs.map entryRow) := by
  have written : (logs.map row).map (fun fields => (",".intercalate fields).toList) =
      (logs.map entryRow).map Csv.Row.written := by
    simp only [List.map_map]
    apply List.map_congr_left
    intro log _
    exact (entryRow_written log).symm
  rw [CsvExporter.export, String.toList_intercalate, joined, List.map_cons, List.map_cons,
    headerRow_written, ← written, List.map_map (f := fun fields => ",".intercalate fields)]
  rfl

theorem table_rows (logs : List AuditLogEntryDto) :
    table logs = (headerRow :: logs.map entryRow).map Csv.Row.values := by
  have entries : (logs.map values).map (fun fields => fields.map String.toList) =
      (logs.map entryRow).map Csv.Row.values := by
    simp only [List.map_map]
    apply List.map_congr_left
    intro log _
    exact (entryRow_values log).symm
  rw [table, List.map_cons, List.map_cons, headerRow_values, entries]

/-- Whether the fields of every entry are plain text for a reader. -/
def PlainEntries (dialect : Dialect) (logs : List AuditLogEntryDto) : Prop :=
  ∀ log ∈ logs, ∀ field ∈ values log, ∀ c ∈ field.toList, dialect.isText c = true

theorem cells_plain {dialect : Dialect} {row : Csv.Row} {fields : List String}
    (texts : row.values = fields.map String.toList) :
    (∀ cell ∈ row.cells, cell.Plain dialect) ↔
      ∀ field ∈ fields, ∀ c ∈ field.toList, dialect.isText c = true := by
  have cells : (∀ cell ∈ row.cells, cell.Plain dialect) ↔
      ∀ value ∈ row.values, ∀ c ∈ value, dialect.isText c = true := by
    simp only [Csv.Row.values, List.forall_mem_map]
    rfl
  rw [cells, texts, List.forall_mem_map]

/- An export is read back by a reader that takes the header for plain text exactly when the
   fields are plain text too, and a line feed ends a record, where there are entries. -/
theorem export_parsed {dialect : Dialect} {logs : List AuditLogEntryDto}
    (header : ∀ cell ∈ headerRow.cells, cell.Plain dialect) :
    parse dialect (CsvExporter.export logs).toList = some (table logs) ↔
      PlainEntries dialect logs ∧ (logs ≠ [] → dialect.bareLineFeed = true) := by
  have given : ∀ row ∈ logs.map entryRow, row.written ≠ [] := by
    rw [List.forall_mem_map]
    intro log _
    simp [Csv.Row.written, Csv.Row.cells, entryRow, joined_cons, behind]
  rw [export_toList, table_rows, Csv.parse_rows given, List.forall_mem_cons, List.forall_mem_map]
  simp only [cells_plain (entryRow_values _), ne_eq, List.map_eq_nil_iff]
  constructor
  · rintro ⟨⟨_, plain⟩, accepted⟩
    exact ⟨plain, accepted⟩
  · rintro ⟨plain, accepted⟩
    exact ⟨⟨header, plain⟩, accepted⟩

theorem header_plain {dialect : Dialect}
    (texts : (headers.all fun name => name.toList.all dialect.isText) = true) :
    ∀ cell ∈ headerRow.cells, cell.Plain dialect := by
  rw [cells_plain headerRow_values]
  simpa only [List.all_eq_true] using texts

theorem header_lenient : ∀ cell ∈ headerRow.cells, cell.Plain lenient := header_plain (by decide)

theorem header_rfc4180 : ∀ cell ∈ headerRow.cells, cell.Plain rfc4180 := header_plain (by decide)

/- Details with a property have quotes in their text. -/
theorem object_unplain {log : AuditLogEntryDto} {key : JsString} {value : Json}
    {members : List (JsString × Json)} (details : log.details = .object ((key, value) :: members))
    {dialect : Dialect} : ¬ PlainEntries dialect [log] := by
  intro plain
  have quote : dialect.isText '"' = true := by
    apply plain log List.mem_cons_self (String.ofList log.details.stringify)
    · simp [values]
    · simp [details, Json.stringify]
  exact (dialect.plain '"' quote).2.1 rfl

/-- What CsvExporter writes is read back exactly when no field of an entry, its details' text
    included, has a comma, a quote or a line break in it; by the letter of the grammar, which
    wants CRLF between records, exactly when there are no entries. -/
theorem csv_export_read_back_iff (logs : List AuditLogEntryDto) :
    (parse lenient (CsvExporter.export logs).toList = some (table logs) ↔
      ∀ log ∈ logs, ∀ field ∈ values log, ∀ c ∈ field.toList,
        c ≠ ',' ∧ c ≠ '"' ∧ c ≠ '\r' ∧ c ≠ '\n') ∧
    (parse rfc4180 (CsvExporter.export logs).toList = some (table logs) ↔ logs = []) := by
  rw [export_parsed header_lenient, export_parsed header_rfc4180]
  constructor
  · simp [PlainEntries, lenient]
  · cases logs with
    | nil => simp [PlainEntries]
    | cons log logs => simp [rfc4180]

/-- A stored entry whose details have one property. -/
def storedRename : AuditLog :=
  { id := "a1", userId := "u1", eventType := "PORTFOLIO", portfolioId := some "p1",
    userAction := "rename", details := .object [(JsString.ofString "name", .null)],
    ipAddress := "10.0.0.1", userAgent := "curl", checksum := "", previousChecksum := none,
    createdAt := Date.epoch }

/- Neither reader finds the entry again behind the doubled quotes. -/
theorem details_not_read_back :
    parse lenient (exportCsv [storedRename]).toList ≠ some (table [mapToDto storedRename]) ∧
    parse rfc4180 (exportCsv [storedRename]).toList ≠ some (table [mapToDto storedRename]) := by
  constructor
  · intro read
    have plain := ((export_parsed header_lenient).mp read).1
    exact object_unplain rfl plain
  · intro read
    have plain := ((export_parsed header_rfc4180).mp read).1
    exact object_unplain rfl plain

end CsvExporter
end AstraPort.Audit
