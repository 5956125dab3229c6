import Newsfeed.ApiKeys
import Newsfeed.EtagCache
import Newsfeed.RateLimit
import Newsfeed.Services
import Newsfeed.TokenBucketBounds

/-! # The router

What `build` puts around the handlers, from the outside in: the fallback for unknown paths,
CORS, the limit on bodies, and for the newsfeed the rate limit, the API key and the method.
What passes reaches a handler.
-/
namespace Router

open TextOperations JsonText FeedModels HttpHeaders IpAddresses IpExtractor TokenBucket RateLimit
open ApiKeys CudHandlers EtagCache Services

inductive Method where
  | get
  | head
  | post
  | put
  | delete
  | options
  | other
  deriving DecidableEq, Repr

inductive Route where
  | live
  | ready
  | openapi
  | newsfeed
  deriving DecidableEq, Repr

def apiRoutePrefix : Text := "/api/v1".toList

def projectName : Text := "newsfeed".toList

def newsfeedPath : Text := apiRoutePrefix ++ '/' :: projectName

/-- The routes are matched by the whole path. -/
def Route.ofPath (path : Text) : Option Route :=
  if path = "/health/live".toList then some .live
  else if path = "/health/ready".toList then some .ready
  else if path = "/api-docs/openapi.json".toList then some .openapi
  else if path = newsfeedPath then some .newsfeed
  else none

/-- Why the extractor `Json` did not give a payload. -/
inductive JsonRejection where
  | missingJsonContentType
  | jsonDataError
  | jsonSyntaxError
  | bytesRejection
  deriving DecidableEq, Repr

/-- A request as the layers and handlers see it; `json` is what `Json` makes of the body. -/
structure HttpRequest where
  connectInfo : Option IpAddr
  method : Method
  path : Text
  headers : HeaderMap
  contentLength : Option Nat
  query : Text → Option Text
  json : Except JsonRejection CudPayload

def HttpRequest.toRequest (r : HttpRequest) : Request := ⟨r.connectInfo, r.headers⟩

/-- Answers of the layers come without a body of the service, or with an error body. -/
inductive Answer where
  | plain (statusCode : Nat)
  | error (statusCode : Nat) (body : ApiErrorResponse)
  | health (statusCode : Nat) (body : Json)
  | openapi
  | get (body : GetResponse)
  | cud (response : CudResponse)

/-- What a request that passes all layers asks of the database. -/
inductive Handler where
  | get (headers : HeaderMap) (query : Text → Option Text)
  | cud (mode : CudMode) (headers : HeaderMap) (body : CudPayload)

def ApiErrorResponse.new (message : Text) : ApiErrorResponse := ⟨"Error", "ERROR", message, 0⟩

def notFound : Answer := .error 404 (ApiErrorResponse.new "Not Found".toList)

def liveHandler : Answer :=
  .health 200 (.obj [("status".toList, .str "ok".toList)])

def readyHandler (isHealthy : Bool) : Answer :=
  if isHealthy then
    .health 200 (.obj [("status".toList, .str "ok".toList), ("db".toList, .str "ok".toList)])
  else
    .health 503
      (.obj [("status".toList, .str "degraded".toList), ("db".toList, .str "error".toList)])

def maxBodyBytes : Nat := 1024 * 1024

def tooManyRequests : Answer :=
  .error 429
    (.withCode "RATE_LIMIT_EXCEEDED" "Too many requests. Please wait and try again.".toList)

/-- `AppJson`: every rejection has the same message. -/
def appJson : Except JsonRejection CudPayload → Except Answer CudPayload
  | .ok body => .ok body
  | .error rejection =>
    let statusAndCode := match rejection with
      | .missingJsonContentType => (415, "INVALID_HEADER")
      | .jsonDataError => (422, "VALIDATION_ERROR")
      | _ => (400, "BAD_REQUEST")
    .error (.error statusAndCode.1
      (.withCode statusAndCode.2 "Failed to read request body".toList))

variable {K : Type*} [Field K] [LinearOrder K]

/-- What `build` takes from the configuration and the state, and the digest of its crate. -/
structure App (K : Type*) [Field K] [LinearOrder K] where
  limit : TokenBucket.Config K
  extractor : SecureIpExtractor
  apiKeys : List Digest
  sha256 : List UInt8 → Digest

/-- A `GET` route serves `HEAD` too. -/
def getOnly (method : Method) (answer : Answer) : Answer :=
  if method = .get ∨ method = .head then answer else .plain 405

/-- The handlers behind the layers of the newsfeed. -/
def newsfeedMethods (r : HttpRequest) : Except Answer Handler :=
  match r.method with
  | .get => .ok (.get r.headers r.query)
  | .head => .ok (.get r.headers r.query)
  | .post => (appJson r.json).map (.cud .insert r.headers)
  | .put => (appJson r.json).map (.cud .update r.headers)
  | .delete => (appJson r.json).map (.cud .delete r.headers)
  | .options => .error (.plain 405)
  | .other => .error (.plain 405)

/-- A write is asked for with a body that was read. -/
theorem json_of_cud {r : HttpRequest} {mode : CudMode} {headers : HeaderMap} {body : CudPayload}
    (h : newsfeedMethods r = .ok (.cud mode headers body)) : r.json = .ok body := by
  unfold newsfeedMethods at h
  cases hjson : r.json with
  | error rejection =>
    rw [hjson] at h
    cases hmethod : r.method <;> rw [hmethod] at h <;> cases h
  | ok payload =>
    rw [hjson] at h
    cases hmethod : r.method <;> rw [hmethod] at h <;> cases h <;> rfl

/-- The answer of the layers in front of the rate limit, if they have one. -/
def outerLayers (isHealthy : Bool) (r : HttpRequest) : Option Answer :=
  match Route.ofPath r.path with
  | none => some notFound
  | some route =>
    -- CORS answers every `OPTIONS` request itself
    if r.method = .options then some (.plain 200)
    else if r.contentLength.any fun length => decide (maxBodyBytes < length) then some (.plain 413)
    else match route with
      | .live => some (getOnly r.method liveHandler)
      | .ready => some (getOnly r.method (readyHandler isHealthy))
      | .openapi => some (getOnly r.method .openapi)
      | .newsfeed => none

namespace App

variable (app : App K)

def appState (isHealthy : Bool) : AppState Unit := ⟨(), app.apiKeys, isHealthy⟩

/-- The API key, then the method. -/
def authenticated (isHealthy : Bool) (r : HttpRequest) : Except Answer Handler :=
  match apiKeyMiddleware app.sha256 (app.appState isHealthy) r.headers with
  | .unauthorized body => .error (.error 401 body)
  | .next _ => newsfeedMethods r

def client (r : HttpRequest) : IpAddr := app.extractor.extract r.toRequest

variable [FloorSemiring K] in
/-- All layers: an answer, or the handler that the request reaches. -/
def layers (isHealthy : Bool) (l : Limiter IpAddr app.limit) (now : K) (r : HttpRequest) :
    Limiter IpAddr app.limit × Except Answer Handler :=
  match outerLayers isHealthy r with
  | some answer => (l, .error answer)
  | none =>
    let decision := l.request (app.client r) now
    (decision.2, if decision.1 then app.authenticated isHealthy r else .error tooManyRequests)

end App

/-- The request goes to the newsfeed and carries a key whose digest is known. -/
structure Authorised (app : App K) (r : HttpRequest) : Prop where
  route : Route.ofPath r.path = some .newsfeed
  small : ∀ length ∈ r.contentLength, length ≤ maxBodyBytes
  key : ∃ value, r.headers.get "x-api-key" = some value ∧ value.bytes ≠ [] ∧
    value.bytes.all isVisibleAscii = true ∧ app.sha256 value.bytes ∈ app.apiKeys

theorem outerLayers_none {isHealthy : Bool} {r : HttpRequest} :
    outerLayers isHealthy r = none ↔ Route.ofPath r.path = some .newsfeed ∧ r.method ≠ .options ∧
      ∀ length ∈ r.contentLength, length ≤ maxBodyBytes := by
  unfold outerLayers
  cases hroute : Route.ofPath r.path with
  | none => simp
  | some route =>
    by_cases hoptions : r.method = .options
    · simp [hoptions]
    · cases hlength : r.contentLength with
      | none => cases route <;> simp [hoptions]
      | some length =>
        by_cases hbig : maxBodyBytes < length
        · simp [hoptions, hbig]
        · cases route <;> simp [hoptions, hbig, Nat.le_of_not_lt hbig]

section Layers

variable {app : App K} {isHealthy : Bool} {l : Limiter IpAddr app.limit} {now : K} {r : HttpRequest}
  {h : Handler}

theorem key_of_next (hnext : apiKeyMiddleware app.sha256 (app.appState isHealthy) r.headers =
    .next r.headers) : ∃ value, r.headers.get "x-api-key" = some value ∧ value.bytes ≠ [] ∧
      value.bytes.all isVisibleAscii = true ∧ app.sha256 value.bytes ∈ app.apiKeys := by
  cases hget : r.headers.get "x-api-key" with
  | none =>
    rw [apiKeyMiddleware_absent app.sha256 hget] at hnext
    cases hnext
  | some value => exact ⟨value, rfl, (apiKeyMiddleware_next app.sha256 hget).mp hnext⟩

theorem authenticated_ok (hok : app.authenticated isHealthy r = .ok h) :
    newsfeedMethods r = .ok h ∧
      apiKeyMiddleware app.sha256 (app.appState isHealthy) r.headers = .next r.headers := by
  by_cases hnext : apiKeyMiddleware app.sha256 (app.appState isHealthy) r.headers = .next r.headers
  · rw [App.authenticated, hnext] at hok
    exact ⟨hok, hnext⟩
  · rw [App.authenticated, apiKeyMiddleware_unauthorized app.sha256 hnext] at hok
    cases hok

theorem authenticated_of_key {value : HeaderValue} (hget : r.headers.get "x-api-key" = some value)
    (hne : value.bytes ≠ []) (hvisible : value.bytes.all isVisibleAscii = true)
    (hknown : app.sha256 value.bytes ∈ app.apiKeys) :
    app.authenticated isHealthy r = newsfeedMethods r := by
  have hnext : apiKeyMiddleware app.sha256 (app.appState isHealthy) r.headers = .next r.headers :=
    (apiKeyMiddleware_next app.sha256 hget).mpr ⟨hne, hvisible, hknown⟩
  rw [App.authenticated, hnext]

variable [FloorSemiring K]

/-- A handler is reached by authorised requests that the rate limit admits. -/
theorem layers_ok (hok : (app.layers isHealthy l now r).2 = .ok h) :
    Authorised app r ∧ outerLayers isHealthy r = none ∧ newsfeedMethods r = .ok h ∧
      (l.request (app.client r) now).1 = true := by
  unfold App.layers at hok
  cases houter : outerLayers isHealthy r with
  | some answer =>
    rw [houter] at hok
    cases hok
  | none =>
    rw [houter] at hok
    obtain ⟨hroute, _, hsmall⟩ := outerLayers_none.mp houter
    cases hadmitted : (l.request (app.client r) now).1 with
    | false =>
      simp only [hadmitted, Bool.false_eq_true, ↓reduceIte] at hok
      cases hok
    | true =>
      simp only [hadmitted, ↓reduceIte] at hok
      obtain ⟨hmethods, hnext⟩ := authenticated_ok hok
      exact ⟨⟨hroute, hsmall, key_of_next hnext⟩, rfl, hmethods, rfl⟩

end Layers

end Router
