import AstraPort.Foundation.Bytes
import AstraPort.Foundation.ParsedJson

/- The signatures of WebhookService: how a payload is signed, how a signature is verified, and
   what a request carries to its receiver. HMAC-SHA256 is a parameter. -/
namespace AstraPort.Webhook

/-- A digit, or a letter from a to f. -/
def isHexUnit (u : UInt16) : Bool :=
  decide (48 ≤ u.toNat ∧ u.toNat ≤ 57 ∨ 97 ≤ u.toNat ∧ u.toNat ≤ 102)

/-- What digest("hex") gives for 32 bytes. -/
structure HexDigest where
  text : JsString
  length : text.length = 64
  hex : ∀ u ∈ text, isHexUnit u = true

/-- The digest of the data under a key. -/
abbrev Hmac := List UInt8 → List UInt8 → HexDigest

inductive SigningError where
  /-- TypeError of JSON.stringify: a BigInt. -/
  | unserializable
  /-- TypeError of update: the data is undefined. -/
  | invalidData
  /-- RangeError of timingSafeEqual: "Input buffers must have the same byte length". -/
  | byteLengthsDiffer
  deriving DecidableEq

def timingSafeEqual (a b : List UInt8) : Except SigningError Bool :=
  if a.length = b.length then .ok (decide (a = b)) else .error .byteLengthsDiffer

def defaultSecret : JsString := JsString.ofString "development-webhook-secret"

/-- none is undefined. -/
def serializePayload : JsValue → Except SigningError (Option JsString)
  | .primitive (.string text) => .ok (some text)
  | payload =>
    match payload.stringify with
    | none => .error .unserializable
    | some text => .ok (text.map JsString.ofString)

section Signing
variable (hmac : Hmac) (secret : Option JsString)

def generateSignature : Option JsString → Except SigningError JsString
  | none => .error .invalidData
  | some data => .ok (hmac (bufferFrom (secret.getD defaultSecret)) (bufferFrom data)).text

def signPayload (payload : JsValue) : Except SigningError JsString := do
  let data ← serializePayload payload
  generateSignature hmac secret data

def verifySignature (signature : JsString) (payload : JsValue) : Except SigningError Bool := do
  let expectedSignature ← signPayload hmac secret payload
  if signature.length ≠ expectedSignature.length then
    return false
  else
    timingSafeEqual (bufferFrom signature) (bufferFrom expectedSignature)

/-- What sendWebhook passes to fetch; an undefined body is none. -/
structure WebhookRequest where
  url : String
  method : String
  headers : List (String × JsString)
  body : Option JsString

def sendWebhook (url : String) (data : JsValue) : Except SigningError WebhookRequest := do
  let signature ← signPayload hmac secret data
  let body ← serializePayload data
  return {
    url := url
    method := "POST"
    headers := [("content-type", JsString.ofString "application/json"),
      ("x-webhook-signature", signature),
      ("x-webhook-signature-algorithm", JsString.ofString "hmac-sha256")]
    body := body }

/-- What a receiver parses of a body that came as UTF-8. -/
def receivedJson (body : JsString) : Option ParsedJson := parseJson (decodeUtf8 (bufferFrom body))

end Signing

theorem HexDigest.ascii (digest : HexDigest) : ∀ u ∈ digest.text, u.toNat < 0x80 := by
  intro u member
  have hex := digest.hex u member
  simp only [isHexUnit, decide_eq_true_eq] at hex
  omega

section Verification
variable {hmac : Hmac} {secret : Option JsString}

/- Every JSON payload has a text, and so a signature. -/
theorem serializePayload_ok (payload : ParsedJson) :
    ∃ data, serializePayload payload.value = .ok (some data) := by
  obtain ⟨text, -, written, -⟩ := payload.stringify_parse_stringify
  unfold serializePayload
  split
  · exact ⟨_, rfl⟩
  · rw [written]
    exact ⟨_, rfl⟩

theorem signPayload_ok (payload : ParsedJson) :
    ∃ digest : HexDigest, signPayload hmac secret payload.value = .ok digest.text := by
  obtain ⟨data, serialized⟩ := serializePayload_ok payload
  refine ⟨hmac (bufferFrom (secret.getD defaultSecret)) (bufferFrom data), ?_⟩
  rw [signPayload, serialized]
  rfl

theorem verifySignature_signed {payload : JsValue} {digest : HexDigest}
    (signed : signPayload hmac secret payload = .ok digest.text) (signature : JsString) :
    verifySignature hmac secret signature payload =
      if signature.length = 64 then timingSafeEqual (bufferFrom signature) (bufferFrom digest.text)
      else .ok false := by
  rw [verifySignature, signed]
  by_cases long : signature.length = 64
  · simp [long, digest.length, bind, Except.bind]
  · simp [long, digest.length, bind, Except.bind, pure, Except.pure]

/-- Verification answers, and accepts just the signature of the payload. -/
def VerifiesExactly (hmac : Hmac) (secret : Option JsString) (signature : JsString)
    (payload : ParsedJson) : Prop :=
  ∃ valid, verifySignature hmac secret signature payload.value = .ok valid ∧
    (valid = true ↔ signPayload hmac secret payload.value = .ok signature)

/- A signature of the right length passes the guard, whatever it holds; the buffers have the same
   length only when it is ASCII. -/
theorem verifies_exactly_iff (signature : JsString) (payload : ParsedJson) :
    VerifiesExactly hmac secret signature payload ↔
      (signature.length = 64 → ∀ u ∈ signature, u.toNat < 0x80) := by
  have signable : ∃ digest : HexDigest, signPayload hmac secret payload.value = .ok digest.text :=
    signPayload_ok payload
  obtain ⟨digest, signed⟩ := signable
  have bytes : (bufferFrom digest.text).length = 64 :=
    (bufferFrom_length_iff.mpr digest.ascii).trans digest.length
  unfold VerifiesExactly
  rw [verifySignature_signed signed, signed]
  by_cases long : signature.length = 64
  · rw [if_pos long, timingSafeEqual, bytes]
    by_cases ascii : ∀ u ∈ signature, u.toNat < 0x80
    · rw [if_pos ((bufferFrom_length_iff.mpr ascii).trans long)]
      refine iff_of_true ⟨_, rfl, ?_⟩ fun _ => ascii
      rw [decide_eq_true_eq]
      constructor
      · intro same
        rw [bufferFrom_inj ascii digest.ascii same]
      · intro same
        rw [Except.ok.inj same]
    · have differ : (bufferFrom signature).length ≠ 64 := fun same =>
        ascii (bufferFrom_length_iff.mp (same.trans long.symm))
      rw [if_neg differ]
      refine iff_of_false ?_ fun all => ascii (all long)
      intro answered
      obtain ⟨valid, returned, -⟩ := answered
      cases returned
  · rw [if_neg long]
    refine iff_of_true ⟨false, rfl, ?_⟩ fun same => absurd same long
    constructor
    · intro accepted
      cases accepted
    · intro same
      rw [← Except.ok.inj same] at long
      exact absurd digest.length long

/-- Of every signature and every JSON payload. -/
def VerificationExact : Prop := ∀ hmac secret signature payload,
  VerifiesExactly hmac secret signature payload

/-- A digest of zeros. -/
def zeroDigest : HexDigest where
  text := List.replicate 64 48
  length := List.length_replicate
  hex := by
    intro u member
    rw [List.eq_of_mem_replicate member]
    rfl

def emptyPayload : ParsedJson := ⟨.object [], by decide⟩

/- 64 times é: 64 units, but 128 bytes. -/
theorem accented_signature_throws : ¬ VerificationExact := by
  intro exact_always
  have answers := exact_always (fun _ _ => zeroDigest) none (List.replicate 64 0xE9) emptyPayload
  have thrown : verifySignature (fun _ _ => zeroDigest) none (List.replicate 64 0xE9)
      emptyPayload.value = .error .byteLengthsDiffer := by decide +kernel
  obtain ⟨valid, returned, -⟩ := answers
  rw [thrown] at returned
  cases returned

end Verification

section Transport
variable {hmac : Hmac} {secret : Option JsString}

/- A text of characters comes through UTF-8 as it is. -/
theorem receivedJson_ofString (text : String) :
    receivedJson (JsString.ofString text) = parseJson text.toList := by
  rw [receivedJson, bufferFrom, decodeUtf8_encodeUtf8, JsString.ofString, characters_flatMap]

theorem serializePayload_structured {payload : JsValue} (structured : payload.typeOf ≠ "string")
    {text : String} (written : payload.stringify = some (some text)) :
    serializePayload payload = .ok (some (JsString.ofString text)) := by
  unfold serializePayload
  split
  · exact absurd rfl structured
  · rw [written]
    rfl

/- The body is parsed as a payload that serializes as the body does. -/
theorem receivedJson_serialized (data : ParsedJson) (structured : data.value.typeOf ≠ "string") :
    ∃ body parsed, serializePayload data.value = .ok (some body) ∧
      receivedJson body = some parsed ∧ serializePayload parsed.value = .ok (some body) := by
  obtain ⟨text, parsed, written, read, again, kind⟩ := data.stringify_parse_stringify
  refine ⟨JsString.ofString text, parsed, ?_, ?_, ?_⟩
  · exact serializePayload_structured structured written
  · rw [receivedJson_ofString, read]
  · exact serializePayload_structured (kind ▸ structured) again

theorem verifySignature_own {payload : JsValue} {signature : JsString}
    (signed : signPayload hmac secret payload = .ok signature) :
    verifySignature hmac secret signature payload = .ok true := by
  rw [verifySignature, signed]
  simp [bind, Except.bind, timingSafeEqual]

/- The receiver of a signed webhook verifies its header against the body it parsed. -/
theorem signed_webhook_verifies (hmac : Hmac) (secret : Option JsString) (url : String)
    (data : ParsedJson) (structured : data.value.typeOf ≠ "string") :
    ∃ request body signature parsed, sendWebhook hmac secret url data.value = .ok request ∧
      request.body = some body ∧
      request.headers.lookup "x-webhook-signature" = some signature ∧
      serializePayload data.value = .ok (some body) ∧
      receivedJson body = some parsed ∧
      serializePayload parsed.value = .ok (some body) ∧
      verifySignature hmac secret signature parsed.value = .ok true := by
  obtain ⟨body, parsed, serialized, received, again⟩ := receivedJson_serialized data structured
  let digest := hmac (bufferFrom (secret.getD defaultSecret)) (bufferFrom body)
  have signs {payload : JsValue} (same : serializePayload payload = .ok (some body)) :
      signPayload hmac secret payload = .ok digest.text := by
    rw [signPayload, same]
    rfl
  have sent : sendWebhook hmac secret url data.value = .ok {
      url := url
      method := "POST"
      headers := [("content-type", JsString.ofString "application/json"),
        ("x-webhook-signature", digest.text),
        ("x-webhook-signature-algorithm", JsString.ofString "hmac-sha256")]
      body := some body } := by
    rw [sendWebhook, signs serialized, serialized]
    rfl
  exact ⟨_, body, digest.text, parsed, sent, rfl, rfl, serialized, received, again,
    verifySignature_own (signs again)⟩

/-- {"7": [null, -0], "balance": "é\n"} -/
def mixedPayload : ParsedJson where
  value := .object [([55], .array [.primitive .null, .primitive (.number .negativeZero)]),
    (JsString.ofString "balance", .primitive (.string [0xE9, 10]))]
  parsed := by decide +kernel

/- Keys that are array indices are moved to the front, and a string is escaped. -/
theorem portfolio_webhook_verifies : ∃ request body signature parsed,
    sendWebhook (fun _ _ => zeroDigest) none "https://example.com" mixedPayload.value = .ok request ∧
      request.body = some body ∧
      request.headers.lookup "x-webhook-signature" = some signature ∧
      serializePayload mixedPayload.value = .ok (some body) ∧
      receivedJson body = some parsed ∧
      serializePayload parsed.value = .ok (some body) ∧
      verifySignature (fun _ _ => zeroDigest) none signature parsed.value = .ok true :=
  signed_webhook_verifies _ none _ mixedPayload (by decide)

end Transport
end AstraPort.Webhook
