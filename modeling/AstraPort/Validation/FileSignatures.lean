import AstraPort.Foundation.Casing
import AstraPort.Foundation.Host
import AstraPort.Foundation.JsText
import AstraPort.Foundation.Magnitudes
import Mathlib.Data.List.Pairwise

/- validateFile: the checks of an uploaded file in their order, the last of them by the first
   bytes of the types it knows. -/
namespace AstraPort.Validation

/-- The conversions of the host that the checks use. -/
structure HostText extends Casing where
  toUpperCase : JsString → JsString
  parseFloat : JsString → Magnitude
  number : JsString → Magnitude

/-- What a check throws: an exception for one field, or a plain error. -/
inductive Refusal where
  | validation (field message : JsString) (code : String) (received : Option JsValue)
  | error (message : JsString)

section Sizes

/-- A number of bytes or a text such as 5MB. -/
inductive SizeOption where
  | number (size : JsNumeric)
  | text (size : JsString)

def SizeOption.print : SizeOption → JsString
  | .number size => size.text.flatMap codeUnits
  | .text size => size

def multipliers : List (JsString × Nat) :=
  [(.ofString "B", 1), (.ofString "KB", 1024), (.ofString "MB", 1024 * 1024),
    (.ofString "GB", 1024 * 1024 * 1024), (.ofString "TB", 1024 * 1024 * 1024 * 1024)]

def isSizeUnit (u : UInt16) : Bool := (48 ≤ u && u ≤ 57) || u = 46

/-- The groups of /^([\d.]+)\s*(B|KB|MB|GB|TB)$/, the second one as its multiplier. -/
def matchSize (trimmed : JsString) : Option (JsString × Nat) :=
  let digits := trimmed.takeWhile isSizeUnit
  if digits = [] then none
  else (multipliers.lookup ((trimmed.dropWhile isSizeUnit).dropWhile isBlankUnit)).map
    fun multiplier => (digits, multiplier)

/-- Math.round on a product. That of a double and a power of two is exact, but infinite from
    2^1024 on. -/
def roundTimes (num : Magnitude) (multiplier : Nat) : Magnitude :=
  match num with
  | .finite value =>
    if 2 ^ 1024 ≤ |value * multiplier| then .infinity (decide (value < 0))
    else .finite ⌊value * multiplier + 1 / 2⌋
  | other => other

def parseSizeToBytes (host : HostText) : SizeOption → Except Refusal Magnitude
  | .number size => .ok size.magnitude
  | .text size =>
    let trimmed := host.toUpperCase size.trim
    match matchSize trimmed with
    | some (num, multiplier) => .ok (roundTimes (host.parseFloat num) multiplier)
    | none =>
      if host.number trimmed = .nan then
        .error (.error (.ofString "Invalid size string format: \"" ++ size ++
          .ofString "\". Example formats: '5MB', '500KB', '1GB'"))
      else .ok (host.number trimmed)

end Sizes

/-- A known type: its name, its extensions and the test of the first bytes. -/
structure MagicSignature where
  mime : JsString
  extensions : List JsString
  check : List UInt8 → Bool

/-- buffer.toString('ascii', 0, 4) and its like drop the highest bit of a byte. -/
def asciiUnit (byte : UInt8) : UInt16 := (byte &&& 0x7f).toUInt16

def asciiSlice (buf : List UInt8) (start stop : Nat) : JsString :=
  ((buf.take stop).drop start).map asciiUnit

def magicSignatures : List MagicSignature :=
  [ { mime := .ofString "image/jpeg", extensions := [.ofString "jpg", .ofString "jpeg"],
      check := fun buf => decide (3 ≤ buf.length) && decide (buf[0]? = some 0xff) &&
        decide (buf[1]? = some 0xd8) && decide (buf[2]? = some 0xff) },
    { mime := .ofString "image/png", extensions := [.ofString "png"],
      check := fun buf => decide (8 ≤ buf.length) && decide (buf[0]? = some 0x89) &&
        decide (buf[1]? = some 0x50) && decide (buf[2]? = some 0x4e) &&
        decide (buf[3]? = some 0x47) && decide (buf[4]? = some 0x0d) &&
        decide (buf[5]? = some 0x0a) && decide (buf[6]? = some 0x1a) &&
        decide (buf[7]? = some 0x0a) },
    { mime := .ofString "image/gif", extensions := [.ofString "gif"],
      check := fun buf => decide (6 ≤ buf.length) && decide (buf[0]? = some 0x47) &&
        decide (buf[1]? = some 0x49) && decide (buf[2]? = some 0x46) &&
        decide (buf[3]? = some 0x38) &&
        (decide (buf[4]? = some 0x37) || decide (buf[4]? = some 0x39)) &&
        decide (buf[5]? = some 0x61) },
    { mime := .ofString "image/webp", extensions := [.ofString "webp"],
      check := fun buf => decide (12 ≤ buf.length) &&
        decide (asciiSlice buf 0 4 = .ofString "RIFF") &&
        decide (asciiSlice buf 8 12 = .ofString "WEBP") },
    { mime := .ofString "application/pdf", extensions := [.ofString "pdf"],
      check := fun buf => decide (4 ≤ buf.length) &&
        decide (asciiSlice buf 0 4 = .ofString "%PDF") },
    { mime := .ofString "application/zip", extensions := [.ofString "zip"],
      check := fun buf => decide (4 ≤ buf.length) && decide (buf[0]? = some 0x50) &&
        decide (buf[1]? = some 0x4b) &&
        (decide (buf[2]? = some 0x03) || decide (buf[2]? = some 0x05) ||
          decide (buf[2]? = some 0x07)) &&
        (decide (buf[3]? = some 0x04) || decide (buf[3]? = some 0x06) ||
          decide (buf[3]? = some 0x08)) } ]

structure UploadedFile where
  fieldname : Option JsString
  originalname : JsString
  mimetype : JsString
  size : JsNumeric
  buffer : Option (List UInt8)

/-- A text to compare with, or a regular expression. -/
inductive MimePattern where
  | text (pattern : JsString)
  | regExp (test : JsString → Bool)

structure FileValidationOptions where
  maxSize : Option SizeOption := none
  minSize : Option SizeOption := none
  allowedMimeTypes : Option (List MimePattern) := none
  allowedExtensions : Option (List JsString) := none
  validateMagicBytes : Option Bool := none
  required : Option Bool := none
  customErrorMessage : Option JsString := none

/-- The operator || on texts. -/
def orText (first : Option JsString) (second : JsString) : JsString :=
  (first.filter (· ≠ [])).getD second

section Checks
variable (host : HostText) (options : FileValidationOptions)

def refuse (field message : JsString) (code : String) (received : Option JsValue) :
    Except Refusal Unit :=
  .error (.validation field (orText options.customErrorMessage message) code received)

/-- (size / (1024 * 1024)).toFixed(2) of a size that is too large. -/
def megabytes : JsNumeric → JsString
  | .finite size => .ofString (fixedText 2 (size.value / (1024 * 1024)))
  | other => other.text.flatMap codeUnits

def checkSize (file : UploadedFile) (field : JsString) : Except Refusal Unit := do
  let maxSize := options.maxSize.getD (.text (.ofString "10MB"))
  let minSize := options.minSize.getD (.number (.finite (.ofDigits false [1] 1)))
  let maxBytes ← parseSizeToBytes host maxSize
  let minBytes ← parseSizeToBytes host minSize
  if maxBytes.less file.size.magnitude then
    refuse options field (.ofString "File size (" ++ megabytes file.size ++
      .ofString " MB) exceeds maximum allowed limit of " ++ maxSize.print) "file_too_large"
      (some (.primitive (.number file.size)))
  else if file.size.magnitude.less minBytes then
    refuse options field (.ofString "File size (" ++ file.size.text.flatMap codeUnits ++
      .ofString " bytes) is below minimum required limit of " ++ minSize.print) "file_too_small"
      (some (.primitive (.number file.size)))
  else .ok ()

/-- What follows the last point of the name, in lower case; empty where there is none. -/
def extension (file : UploadedFile) : JsString :=
  if 46 ∈ file.originalname then
    host.toLowerCase ((file.originalname.splitOn 46).getLastD [])
  else []

def normalizedExtension (e : JsString) : JsString :=
  if e.head? = some 46 then host.toLowerCase e.tail else host.toLowerCase e

def checkExtension (file : UploadedFile) (field : JsString) : Except Refusal Unit :=
  match options.allowedExtensions with
  | none | some [] => .ok ()
  | some (first :: others) =>
    let ext := extension host file
    let normalizedAllowed := (first :: others).map (normalizedExtension host)
    if ext = [] ∨ ext ∉ normalizedAllowed then
      refuse options field (.ofString "File extension '." ++ ext ++
        .ofString "' is not permitted. Allowed extensions: " ++
        List.intercalate (JsString.ofString ", ") (normalizedAllowed.map (46 :: ·)))
        "invalid_file_extension"
        (some (.primitive (.string ext)))
    else .ok ()

def MimePattern.allows (mimetype : JsString) : MimePattern → Bool
  | .text pattern => decide (host.toLowerCase pattern = host.toLowerCase mimetype)
  | .regExp test => test mimetype

def checkMimeType (file : UploadedFile) (field : JsString) : Except Refusal Unit :=
  match options.allowedMimeTypes with
  | none | some [] => .ok ()
  | some (first :: others) =>
    if (first :: others).any (·.allows host file.mimetype) then .ok ()
    else refuse options field (.ofString "File MIME type '" ++ file.mimetype ++
      .ofString "' is not permitted") "invalid_mime_type"
      (some (.primitive (.string file.mimetype)))

/-- The signature is the one of the declared type or of the extension. -/
def MagicSignature.concerns (file : UploadedFile) (sig : MagicSignature) : Bool :=
  if host.toLowerCase sig.mime = host.toLowerCase file.mimetype then true
  else if extension host file ≠ [] then decide (extension host file ∈ sig.extensions)
  else false

def matchingSignature (file : UploadedFile) : Option MagicSignature :=
  magicSignatures.find? (·.concerns host file)

def checkMagicBytes (file : UploadedFile) (buffer : List UInt8) (field : JsString) :
    Except Refusal Unit :=
  if options.validateMagicBytes.getD true then
    match matchingSignature host file with
    | some sig =>
      if sig.check buffer then .ok ()
      else refuse options field
        (.ofString "File content does not match the declared file type '" ++ file.mimetype ++
          .ofString "' (magic signature mismatch)") "corrupted_or_spoofed_file" none
    | none => .ok ()
  else .ok ()

/-- The checks before the one of the bytes. -/
def checkDeclaration (file : UploadedFile) (field : JsString) : Except Refusal Unit := do
  checkSize host options file field
  checkExtension host options file field
  checkMimeType host options file field

def validateFile (file : Option UploadedFile) : Except Refusal Unit :=
  match file with
  | none =>
    if options.required.getD true then
      refuse options (.ofString "file") (.ofString "File is required") "required_file" none
    else .ok ()
  | some file =>
    let field := orText file.fieldname (.ofString "file")
    match file.buffer with
    | none =>
      if options.required.getD true then
        refuse options field (.ofString "File is required") "required_file" none
      else .ok ()
    | some buffer => do
      checkDeclaration host options file field
      checkMagicBytes host options file buffer field

end Checks

section Signatures
variable {host : HostText} {options : FileValidationOptions} {file : UploadedFile}

/-- The type that a first byte may belong to. -/
def leadingType (byte : UInt8) : Option JsString :=
  if byte = 0xff then some (.ofString "image/jpeg")
  else if byte = 0x89 then some (.ofString "image/png")
  else if byte = 0x47 then some (.ofString "image/gif")
  else if byte = 0x50 then some (.ofString "application/zip")
  else if asciiUnit byte = 0x52 then some (.ofString "image/webp")
  else if asciiUnit byte = 0x25 then some (.ofString "application/pdf")
  else none

theorem asciiSlice_head {buf : List UInt8} {stop : Nat} {u : UInt16} {units : JsString}
    (slice : asciiSlice buf 0 stop = u :: units) :
    ∃ byte, buf.head? = some byte ∧ asciiUnit byte = u := by
  cases buf with
  | nil => simp [asciiSlice] at slice
  | cons byte buf =>
    cases stop with
    | zero => simp [asciiSlice] at slice
    | succ stop =>
      simp only [asciiSlice, List.take_succ_cons, List.drop_zero, List.map_cons,
        List.cons.injEq] at slice
      exact ⟨byte, rfl, slice.1⟩

theorem leadingType_ascii {byte : UInt8} {u : UInt16} (lead : asciiUnit byte = u)
    (apart : [0xff, 0x89, 0x47, 0x50].all (fun other => decide (asciiUnit other ≠ u)) = true) :
    leadingType byte = if u = 0x52 then some (.ofString "image/webp")
      else if u = 0x25 then some (.ofString "application/pdf") else none := by
  have differs (other : UInt8) (listed : other ∈ [0xff, 0x89, 0x47, 0x50]) : byte ≠ other := by
    intro same
    have unequal : asciiUnit other ≠ u := by simpa using List.all_eq_true.mp apart other listed
    exact unequal (same ▸ lead)
  rw [leadingType, if_neg (differs 0xff (by simp)), if_neg (differs 0x89 (by simp)),
    if_neg (differs 0x47 (by simp)), if_neg (differs 0x50 (by simp)), lead]

/- Bytes with a known signature begin with a byte of its type. -/
theorem check_leading {sig : MagicSignature} (known : sig ∈ magicSignatures) {buf : List UInt8}
    (passed : sig.check buf = true) : buf.head?.bind leadingType = some sig.mime := by
  have first {byte : UInt8} (here : buf[0]? = some byte) : buf.head? = some byte := by
    rw [List.head?_eq_getElem?, here]
  simp only [magicSignatures, List.mem_cons, List.not_mem_nil, or_false] at known
  rcases known with rfl | rfl | rfl | rfl | rfl | rfl
  · simp only [Bool.and_eq_true, decide_eq_true_eq] at passed
    rw [first passed.1.1.2]
    rfl
  · simp only [Bool.and_eq_true, decide_eq_true_eq] at passed
    rw [first passed.1.1.1.1.1.1.1.2]
    rfl
  · simp only [Bool.and_eq_true, decide_eq_true_eq] at passed
    rw [first passed.1.1.1.1.1.2]
    rfl
  · simp only [Bool.and_eq_true, decide_eq_true_eq] at passed
    obtain ⟨byte, head, lead⟩ := asciiSlice_head passed.1.2
    rw [head, Option.bind_some, leadingType_ascii lead (by decide)]
    rfl
  · simp only [Bool.and_eq_true, decide_eq_true_eq] at passed
    obtain ⟨byte, head, lead⟩ := asciiSlice_head passed.2
    rw [head, Option.bind_some, leadingType_ascii lead (by decide)]
    rfl
  · simp only [Bool.and_eq_true, decide_eq_true_eq] at passed
    rw [first passed.1.1.1.2]
    rfl

theorem mimes_distinct : (magicSignatures.map (·.mime)).Nodup := by decide

theorem mimes_lower : magicSignatures.all (fun sig =>
    sig.mime.all fun u => u < 128 ∧ ¬ (65 ≤ u ∧ u ≤ 90)) = true := by decide

theorem extensions_distinct : (magicSignatures.flatMap (·.extensions)).Nodup := by decide

theorem extensions_nonempty : [] ∉ magicSignatures.flatMap (·.extensions) := by decide

theorem mime_lower (host : HostText) {sig : MagicSignature} (known : sig ∈ magicSignatures) :
    host.toLowerCase sig.mime = sig.mime :=
  host.toCasing.lower (List.all_eq_true.mp mimes_lower sig known)

theorem eq_of_extension {sig other : MagicSignature} (known : sig ∈ magicSignatures)
    (known' : other ∈ magicSignatures) {ext : JsString} (mine : ext ∈ sig.extensions)
    (its : ext ∈ other.extensions) : sig = other := by
  by_contra different
  have apart := (List.nodup_flatMap.mp extensions_distinct).2
  have symmetric : Std.Symm fun a b : MagicSignature => a.extensions.Disjoint b.extensions :=
    ⟨fun a b disjoint e inB inA => disjoint inA inB⟩
  exact List.Pairwise.forall apart known known' different mine its

variable {sig : MagicSignature} {before after : List MagicSignature}
  (place : magicSignatures = before ++ sig :: after)
  (declared : host.toLowerCase sig.mime = host.toLowerCase file.mimetype)
include place declared

/- Of the types listed before the declared one, only the extension can choose. -/
theorem concerns_earlier_iff {other : MagicSignature} (earlier : other ∈ before) :
    other.concerns host file = true ↔ extension host file ∈ other.extensions := by
  have known : other ∈ magicSignatures := place ▸ List.mem_append_left _ earlier
  have itself : sig ∈ magicSignatures := place ▸ by simp
  have unequal : host.toLowerCase other.mime ≠ host.toLowerCase file.mimetype := by
    rw [← declared, mime_lower host known, mime_lower host itself]
    intro same
    have distinct := mimes_distinct
    rw [place, List.map_append, List.map_cons, List.nodup_append] at distinct
    exact distinct.2.2 _ (List.mem_map_of_mem earlier) _ List.mem_cons_self same
  unfold MagicSignature.concerns
  rw [if_neg unequal]
  by_cases none : extension host file = []
  · have absent : [] ∉ other.extensions := fun member =>
      extensions_nonempty (List.mem_flatMap.mpr ⟨other, known, member⟩)
    simp [none, absent]
  · simp [none]

theorem matching_declared (own : ∀ other ∈ before, extension host file ∉ other.extensions) :
    matchingSignature host file = some sig := by
  have concerned : sig.concerns host file = true := by
    rw [MagicSignature.concerns, if_pos declared]
  have passed : before.find? (·.concerns host file) = none :=
    List.find?_eq_none.mpr fun other earlier chosen =>
      own other earlier ((concerns_earlier_iff place declared earlier).mp chosen)
  rw [matchingSignature, place, List.find?_append, passed, Option.none_or,
    List.find?_cons_of_pos concerned]

theorem matching_earlier {other : MagicSignature} (earlier : other ∈ before)
    (ext : extension host file ∈ other.extensions) :
    matchingSignature host file = some other := by
  have there : (before.find? (·.concerns host file)).isSome = true :=
    List.find?_isSome.mpr ⟨other, earlier, (concerns_earlier_iff place declared earlier).mpr ext⟩
  obtain ⟨found, first⟩ := Option.isSome_iff_exists.mp there
  have inBefore := List.mem_of_find?_eq_some first
  have itsExt := (concerns_earlier_iff place declared inBefore).mp (List.find?_some first)
  have known {row : MagicSignature} (listed : row ∈ before) : row ∈ magicSignatures :=
    place ▸ List.mem_append_left _ listed
  rw [matchingSignature, place, List.find?_append, first, Option.some_or,
    eq_of_extension (known inBefore) (known earlier) itsExt ext]

omit declared in
/- Bytes have the signature of one known type at most. -/
theorem check_earlier {other : MagicSignature} (earlier : other ∈ before) {buf : List UInt8}
    (passed : other.check buf = true) : sig.check buf = false := by
  have known : other ∈ magicSignatures := place ▸ List.mem_append_left _ earlier
  have itself : sig ∈ magicSignatures := place ▸ by simp
  by_contra both
  have leads := (check_leading known passed).symm.trans
    (check_leading itself (by simpa using both))
  have distinct := mimes_distinct
  rw [place, List.map_append, List.map_cons, List.nodup_append] at distinct
  exact distinct.2.2 _ (List.mem_map_of_mem earlier) _ List.mem_cons_self (Option.some.inj leads)

omit place declared in
theorem validateFile_ok_iff {buffer : List UInt8} (stored : file.buffer = some buffer)
    (enabled : options.validateMagicBytes ≠ some false) :
    validateFile host options (some file) = .ok () ↔
      checkDeclaration host options file (orText file.fieldname (.ofString "file")) = .ok () ∧
        ∀ chosen ∈ matchingSignature host file, chosen.check buffer = true := by
  have on : options.validateMagicBytes.getD true = true := by
    cases option : options.validateMagicBytes with
    | none => rfl
    | some enable =>
      rw [option] at enabled
      simpa using enabled
  have magic (field : JsString) : checkMagicBytes host options file buffer field = .ok () ↔
      ∀ chosen ∈ matchingSignature host file, chosen.check buffer = true := by
    unfold checkMagicBytes
    rw [if_pos on]
    cases matchingSignature host file with
    | none => simp
    | some chosen =>
      by_cases passed : chosen.check buffer = true
      · simp [passed]
      · simp [passed, refuse]
  unfold validateFile
  rw [← magic (orText file.fieldname (.ofString "file"))]
  simp only [stored]
  cases checkDeclaration host options file (orText file.fieldname (.ofString "file")) with
  | error refusal => simp [bind, Except.bind]
  | ok passed => simp [bind, Except.bind]

end Signatures

/-- Accepted content has the signature of its declared type if and only if the file does not
    pass every other check with an extension, and the signature, of a type listed earlier. -/
theorem content_matches_declared_type_iff (host : HostText) (options : FileValidationOptions)
    {file : UploadedFile} {buffer : List UInt8} (stored : file.buffer = some buffer)
    (enabled : options.validateMagicBytes ≠ some false) {sig : MagicSignature}
    {before after : List MagicSignature} (place : magicSignatures = before ++ sig :: after)
    (declared : host.toLowerCase sig.mime = host.toLowerCase file.mimetype) :
    (validateFile host options (some file) = .ok () → sig.check buffer = true) ↔
      ¬ ∃ other ∈ before, extension host file ∈ other.extensions ∧
        other.check buffer = true ∧ checkDeclaration host options file
          (orText file.fieldname (.ofString "file")) = .ok () := by
  rw [validateFile_ok_iff stored enabled]
  constructor
  · rintro always ⟨other, earlier, ext, passed, declaration⟩
    have chosen := matching_earlier place declared earlier ext
    have accepted := always ⟨declaration, by simpa [chosen] using passed⟩
    rw [check_earlier place earlier passed] at accepted
    cases accepted
  · rintro none ⟨declaration, bytes⟩
    have own : ∀ other ∈ before, extension host file ∉ other.extensions := by
      intro other earlier ext
      have chosen := matching_earlier place declared earlier ext
      exact none ⟨other, earlier, ext, bytes other chosen, declaration⟩
    exact bytes sig (matching_declared place declared own)

/-- A host that reads every numeral as ten, for fixed runs with the default limits. -/
def plainHost : HostText where
  toCasing := asciiCasing
  toUpperCase text := text
  parseFloat _ := .finite 10
  number _ := .nan

/-- A file of three bytes, declared an image. -/
def imageFile (originalname mimetype : String) (buffer : List UInt8) : UploadedFile where
  fieldname := none
  originalname := .ofString originalname
  mimetype := .ofString mimetype
  size := .finite (.ofDigits false [3] 1)
  buffer := some buffer

theorem three_bytes_fit : (roundTimes (.finite 10) 1048576).less
      (JsNumeric.finite (.ofDigits false [3] 1)).magnitude = false ∧
    (JsNumeric.finite (.ofDigits false [3] 1)).magnitude.less
      (JsNumeric.finite (.ofDigits false [1] 1)).magnitude = false := by
  decide +kernel

theorem default_limit_read : parseSizeToBytes plainHost (.text (.ofString "10MB")) =
    .ok (roundTimes (.finite 10) 1048576) := by
  have read : matchSize (plainHost.toUpperCase (JsString.trim (.ofString "10MB"))) =
      some (.ofString "10", 1048576) := by decide
  unfold parseSizeToBytes
  simp only [read]
  rfl

/- Three bytes are within the default limits, whatever the file is called and declared. -/
theorem imageFile_declared (originalname mimetype : String) (buffer : List UInt8)
    (field : JsString) :
    checkDeclaration plainHost {} (imageFile originalname mimetype buffer) field = .ok () := by
  obtain ⟨notLarge, notSmall⟩ := three_bytes_fit
  have sized : checkSize plainHost {} (imageFile originalname mimetype buffer) field = .ok () := by
    have least (size : JsNumeric) :
        parseSizeToBytes plainHost (.number size) = .ok size.magnitude := rfl
    unfold checkSize
    simp only [Option.getD_none, default_limit_read, least, bind, Except.bind, imageFile,
      notLarge, notSmall]
    rfl
  unfold checkDeclaration
  rw [sized]
  rfl

/- The name photo.jpg leads to the first row of the table, whatever type is declared there. -/
theorem photo_accepted (mimetype : String)
    (chosen : matchingSignature plainHost (imageFile "photo.jpg" mimetype [0xff, 0xd8, 0xff]) =
      magicSignatures.head?) :
    validateFile plainHost {} (some (imageFile "photo.jpg" mimetype [0xff, 0xd8, 0xff])) =
      .ok () := by
  rw [validateFile_ok_iff rfl (by decide)]
  refine ⟨imageFile_declared _ _ _ _, ?_⟩
  rw [chosen]
  intro sig first
  cases first
  rfl

theorem jpeg_declared_png_accepted :
    validateFile plainHost {} (some (imageFile "photo.jpg" "image/png" [0xff, 0xd8, 0xff])) =
      .ok () ∧
    ∃ sig ∈ magicSignatures, plainHost.toLowerCase sig.mime =
        plainHost.toLowerCase (.ofString "image/png") ∧
      sig.check [0xff, 0xd8, 0xff] = false :=
  ⟨photo_accepted "image/png" rfl, _, List.mem_cons_of_mem _ List.mem_cons_self, rfl, rfl⟩

theorem jpeg_declared_jpeg_matches : ∃ sig ∈ magicSignatures,
    sig.mime = .ofString "image/jpeg" ∧ sig.check [0xff, 0xd8, 0xff] = true := by
  have stored : (imageFile "photo.jpg" "image/jpeg" [0xff, 0xd8, 0xff]).buffer =
      some [0xff, 0xd8, 0xff] := rfl
  have first : magicSignatures = [] ++ magicSignatures.head (by decide) :: magicSignatures.tail :=
    rfl
  refine ⟨_, List.mem_cons_self, rfl, ?_⟩
  apply (content_matches_declared_type_iff plainHost {} stored (by decide) first rfl).mpr
  · rintro ⟨other, earlier, -⟩
    cases earlier
  · exact photo_accepted "image/jpeg" rfl

end AstraPort.Validation
