import AstraPort.Foundation.Bytes
import AstraPort.Foundation.InsertionMap
import AstraPort.Cache.CacheKey
import Mathlib.Data.Rat.Floor

/- ETags of response bodies, and the interceptor that answers 304 to a request that brings
   the current one. The digest is a parameter. -/
namespace AstraPort.Cache
open JsValue

structure ConditionalCacheOptions where
  maxAge : Option Rat

/-- What the interceptor sees and changes of a response. -/
structure Response where
  status : Nat
  headers : InsertionMap String String

/-- Two digits of hexadecimal. -/
def hexByte (b : UInt8) : List Char := [Nat.digitChar (b.toNat / 16), Nat.digitChar (b.toNat % 16)]

def quotedHex (digest : List UInt8) : String :=
  "\"" ++ String.ofList (digest.flatMap hexByte) ++ "\""

def Response.setHeader (response : Response) (name text : String) : Response :=
  { response with headers := response.headers.set name text }

def cacheControl (options : ConditionalCacheOptions) : String :=
  let maxAge := options.maxAge.getD 0
  if maxAge ≠ 0 then "public, max-age=" ++ toString (maxAge / 1000).floor else "no-cache"

/-- replace(/^W\//, ''). -/
def withoutWeak (tag : String) : String :=
  match tag.toList with
  | 'W' :: '/' :: rest => String.ofList rest
  | _ => tag

section Interceptor
variable (sha1 : List UInt8 → List UInt8)

/-- none where it throws: no text for undefined, and none for what holds a bigint. -/
def createETag (body : JsValue) : Option String :=
  (normalizeForSerialization body).stringify.join.map fun text =>
    quotedHex (sha1 (encodeUtf8 text.toList))

/-- One body on its way out: the response and what is sent, or none where it throws. -/
def intercept (contextType : String) (options : Option ConditionalCacheOptions)
    (ifNoneMatch : Option String) (now : Date) (response : Response) (body : JsValue) :
    Option (Response × JsValue) :=
  if contextType ≠ "http" then some (response, body)
  else match options with
  | none => some (response, body)
  | some options =>
    if body.isNullish then some (response, body)
    else (createETag sha1 body).map fun etag =>
      let tagged := (response.setHeader "ETag" etag).setHeader "Cache-Control" (cacheControl options)
      let dated := if (tagged.headers.get "Last-Modified").getD "" = ""
        then tagged.setHeader "Last-Modified" now.toUTCString else tagged
      if ifNoneMatch.map withoutWeak = some etag then
        ({ dated with status := 304 }, .primitive .undefined)
      else (dated, body)

end Interceptor

/-- Bodies as JSON has them: no undefined, bigint, Date, NaN or infinity at any depth. -/
abbrev JsonValue := {value : JsValue // value.everywhere isJson = true}

section Bodies
variable {body : JsValue}

theorem json_free (json : body.everywhere isJson = true) : BigintFree body := by
  refine everywhere_mono ?_ json
  intro v test
  unfold noBigint
  split
  · cases test
  · rfl

theorem json_wellFormed (json : body.everywhere isJson = true) : body.WellFormed := by
  refine everywhere_mono ?_ json
  intro v test
  cases v with
  | object members => exact test
  | _ => rfl

/- A JSON value shows all of itself. -/
theorem visible_json (json : body.everywhere isJson = true) : visible body = body := by
  induction body with
  | primitive p =>
    cases p with
    | undefined => cases json
    | number x =>
      cases x with
      | infinity negative => cases json
      | _ => rfl
    | _ => rfl
  | date d => rfl
  | array items ih =>
    rw [everywhere_array] at json
    have same : items.map visible = items.map id :=
      List.map_congr_left fun item member => ih item member (json.2 item member)
    rw [visible, visibleItems_eq, same, List.map_id]
  | object members ih =>
    rw [everywhere_object] at json
    have shown : members.filter (fun m => !m.2.isUndefined) = members := by
      apply List.filter_eq_self.mpr
      intro m member
      cases undef : m.2.isUndefined with
      | false => rfl
      | true =>
        have inner := json.2 m member
        rw [isUndefined_eq undef] at inner
        cases inner
    have same : (members.map fun m => (m.1, visible m.2)) = members.map id := by
      apply List.map_congr_left
      intro m member
      rw [ih m member (json.2 m member)]
      rfl
    rw [visible, visibleMembers_eq, shown, same, List.map_id]

/- A JSON value has a text, and its tag is made of it. -/
theorem createETag_json (sha1 : List UInt8 → List UInt8) (json : body.everywhere isJson = true) :
    createETag sha1 body = some (quotedHex (sha1 (encodeUtf8 (printed body).stringify))) := by
  have undef : body.isUndefined = false := by
    cases undef : body.isUndefined with
    | false => rfl
    | true =>
      rw [isUndefined_eq undef] at json
      cases json
  rw [createETag, stringify, toJson_printed (json_free json), undef]
  simp

theorem hexByte_inj {a b : UInt8} (same : hexByte a = hexByte b) : a = b := by
  have digit {m n : Nat} (small : m < 16) (small' : n < 16)
      (chars : Nat.digitChar m = Nat.digitChar n) : m = n := by
    have values := hexValue_digitChar m small
    rw [chars, hexValue_digitChar n small'] at values
    exact (Option.some.inj values).symm
  have boundA := a.toNat_lt
  have boundB := b.toNat_lt
  simp only [hexByte, List.cons.injEq, and_true] at same
  have high := digit (by omega) (by omega) same.1
  have low := digit (by omega) (by omega) same.2
  exact UInt8.toNat_inj.mp (by omega)

theorem hex_inj {digest digest' : List UInt8}
    (hex : digest.flatMap hexByte = digest'.flatMap hexByte) : digest = digest' := by
  induction digest generalizing digest' with
  | nil =>
    cases digest' with
    | nil => rfl
    | cons b rest => cases hex
  | cons a digest ih =>
    cases digest' with
    | nil => cases hex
    | cons b rest =>
      obtain ⟨bytes, more⟩ := List.append_inj hex rfl
      rw [hexByte_inj bytes, ih more]

theorem quotedHex_inj {digest digest' : List UInt8} (same : quotedHex digest = quotedHex digest') :
    digest = digest' := by
  unfold quotedHex at same
  have hex : String.ofList (digest.flatMap hexByte) = String.ofList (digest'.flatMap hexByte) := by
    simpa using same
  exact hex_inj (String.ofList_injective hex)

theorem createETag_iff {sha1 : List UInt8 → List UInt8} (injective : Function.Injective sha1)
    (x y : JsonValue) : createETag sha1 x = createETag sha1 y ↔ Same x.val y.val := by
  have trees := printed_iff (json_free x.property) (json_free y.property)
    (json_wellFormed x.property) (json_wellFormed y.property)
  rw [visible_json x.property, visible_json y.property] at trees
  rw [createETag_json sha1 x.property, createETag_json sha1 y.property, ← trees]
  constructor
  · intro same
    have bytes := injective (quotedHex_inj (Option.some.inj same))
    have texts := congrArg decodeUtf8 bytes
    rw [decodeUtf8_encodeUtf8, decodeUtf8_encodeUtf8] at texts
    exact Json.stringify_inj.mp texts
  · intro same
    rw [same]

/- The prefix of a weak tag is taken away once, and a tag made here has none. -/
theorem withoutWeak_etag (digest : List UInt8) :
    withoutWeak (quotedHex digest) = quotedHex digest ∧
      withoutWeak ("W/" ++ quotedHex digest) = quotedHex digest := by
  constructor
  · simp [withoutWeak, quotedHex]
  · simp [withoutWeak]

/- What the interceptor does with a body that has a tag: headers are set either way. -/
theorem intercept_tagged {sha1 : List UInt8 → List UInt8} {etag : String}
    (options : ConditionalCacheOptions) (requested : String) (now : Date) (response : Response)
    (shown : body.isNullish = false) (tagged : createETag sha1 body = some etag) :
    ∃ headers, intercept sha1 "http" (some options) (some requested) now response body =
      if withoutWeak requested = etag then some (⟨304, headers⟩, .primitive .undefined)
      else some (⟨response.status, headers⟩, body) := by
  let cached := (response.setHeader "ETag" etag).setHeader "Cache-Control" (cacheControl options)
  let dated := if (cached.headers.get "Last-Modified").getD "" = ""
    then cached.setHeader "Last-Modified" now.toUTCString else cached
  have status : dated.status = response.status := by
    unfold dated
    split <;> rfl
  refine ⟨dated.headers, ?_⟩
  unfold intercept
  simp only [ne_eq, not_true_eq_false, if_false, shown, Bool.false_eq_true, tagged, Option.map_some,
    Option.some.injEq]
  split
  · rfl
  · rw [← status]

end Bodies

/- Two JSON values have one ETag exactly when they are equal up to the order of keys, and a
   request that brings the ETag of an earlier body, weak or not, is answered 304 exactly when
   the body is still that one. -/
theorem etags_identify_bodies (sha1 : List UInt8 → List UInt8)
    (injective : Function.Injective sha1) :
    (∀ x y : JsonValue, createETag sha1 x = createETag sha1 y ↔ Same x.val y.val) ∧
    ∀ (earlier body : JsonValue), body.val.isNullish = false →
      ∃ etag, createETag sha1 earlier = some etag ∧
        ∀ requested ∈ [etag, "W/" ++ etag], ∀ options now response,
          ∃ answered sent,
            intercept sha1 "http" (some options) (some requested) now response body =
              some (answered, sent) ∧
            (Same earlier.val body.val → answered.status = 304 ∧ sent = .primitive .undefined) ∧
            (¬ Same earlier.val body.val → answered.status = response.status ∧ sent = body) := by
  refine ⟨createETag_iff injective, ?_⟩
  intro earlier body shown
  have current := createETag_json sha1 body.property
  have before := createETag_json sha1 earlier.property
  have same_tag := createETag_iff injective earlier body
  rw [before, current, Option.some.injEq] at same_tag
  refine ⟨_, before, ?_⟩
  intro requested brought options now response
  obtain ⟨headers, answer⟩ := intercept_tagged options requested now response shown current
  have stripped : withoutWeak requested =
      quotedHex (sha1 (encodeUtf8 (printed earlier.val).stringify)) := by
    obtain ⟨plain, weak⟩ := withoutWeak_etag (sha1 (encodeUtf8 (printed earlier.val).stringify))
    rcases List.mem_pair.mp brought with rfl | rfl
    · exact plain
    · exact weak
  rw [stripped] at answer
  by_cases same : Same earlier.val body.val
  · rw [if_pos (same_tag.mpr same)] at answer
    exact ⟨_, _, answer, fun _ => ⟨rfl, rfl⟩, fun other => absurd same other⟩
  · rw [if_neg (fun tags => same (same_tag.mp tags))] at answer
    exact ⟨_, _, answer, fun equal => absurd equal same, fun _ => ⟨rfl, rfl⟩⟩

def bodyTrue : JsonValue := ⟨.primitive (.boolean true), rfl⟩

def bodyFalse : JsonValue := ⟨.primitive (.boolean false), rfl⟩

def bodyBytes (body : JsonValue) : List UInt8 := encodeUtf8 (printed body.val).stringify

/-- SHA-1 of the texts of true and false; for other texts, a different value each. -/
def sha1OfTwo (bytes : List UInt8) : List UInt8 :=
  if bytes = bodyBytes bodyTrue then
    [158, 86, 27, 102, 243, 140, 146, 233, 187, 113, 199, 7, 51, 63, 227, 153, 224, 161, 196, 14]
  else if bytes = bodyBytes bodyFalse then
    [244, 45, 140, 73, 158, 222, 221, 235, 53, 211, 144, 130, 111, 148, 146, 160, 17, 8, 248, 161]
  else List.replicate 21 0 ++ bytes

theorem sha1OfTwo_injective : Function.Injective sha1OfTwo := by
  intro bytes bytes' same
  unfold sha1OfTwo at same
  by_cases one : bytes = bodyBytes bodyTrue <;> by_cases one' : bytes' = bodyBytes bodyTrue
  · rw [one, one']
  · rw [if_pos one, if_neg one'] at same
    split at same <;> cases same
  · rw [if_neg one, if_pos one'] at same
    split at same <;> cases same
  · rw [if_neg one, if_neg one'] at same
    by_cases two : bytes = bodyBytes bodyFalse <;> by_cases two' : bytes' = bodyBytes bodyFalse
    · rw [two, two']
    · rw [if_pos two, if_neg two'] at same
      cases same
    · rw [if_neg two, if_pos two'] at same
      cases same
    · rw [if_neg two, if_neg two'] at same
      exact List.append_cancel_left same

theorem etags_of_true_and_false :
    createETag sha1OfTwo bodyTrue = some "\"9e561b66f38c92e9bb71c707333fe399e0a1c40e\"" ∧
    (createETag sha1OfTwo bodyTrue = createETag sha1OfTwo bodyFalse ↔
      Same bodyTrue.val bodyFalse.val) ∧
    ∃ etag, createETag sha1OfTwo bodyTrue = some etag ∧
      ∀ requested ∈ [etag, "W/" ++ etag], ∀ options now response, ∃ answered sent,
        intercept sha1OfTwo "http" (some options) (some requested) now response bodyFalse =
          some (answered, sent) ∧
        (Same bodyTrue.val bodyFalse.val →
          answered.status = 304 ∧ sent = .primitive .undefined) ∧
        (¬ Same bodyTrue.val bodyFalse.val →
          answered.status = response.status ∧ sent = bodyFalse) :=
  ⟨by decide +kernel, (etags_identify_bodies sha1OfTwo sha1OfTwo_injective).1 bodyTrue bodyFalse,
    (etags_identify_bodies sha1OfTwo sha1OfTwo_injective).2 bodyTrue bodyFalse rfl⟩

end AstraPort.Cache
