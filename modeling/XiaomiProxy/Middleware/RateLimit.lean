import XiaomiProxy.Json
import XiaomiProxy.Middleware.Auth
import XiaomiProxy.State

/-!
# The rate limit of the proxy routes

`rate_limit` of `middleware/rate_limit.rs`, and the two layers a request to a proxy
route passes on its way to the handler: `router.rs` puts `auth` around `rate_limit`, so
the key that is checked is one that `auth` let through.

The limiter is the one of the whole program.  Which requests it admits is what
`RateLimiter.admitted` says of their checks (`admitted_eq`).
-/

namespace XiaomiProxy

/-- A response the proxy makes itself. -/
structure JsonResponse where
  status : StatusCode
  headers : HeaderMap
  body : Json

namespace RateLimit

/-- The text of a retry-after: whole seconds, rounded up. -/
def retryAfterText : WithTop ℚ → String
  | none => "inf"
  | some secs => toString ⌈secs⌉

/-- The response to a request that is over the limit. -/
def limited (retryAfter : WithTop ℚ) : JsonResponse where
  status := .TOO_MANY_REQUESTS
  headers := [("retry-after", HeaderValue.ofText (retryAfterText retryAfter))]
  body := .error "Rate limit exceeded" "rate_limit_error"

/-- `rate_limit`, up to the next handler: the tokens that remain, or the response to a
request over the limit.  A request without a client key is checked under the empty
one. -/
def rateLimit (now : Instant) (limiter : RateLimiter) (clientKey : Option ClientKey) :
    RateLimiter × Except JsonResponse UInt32 :=
  let key := (clientKey.map ClientKey.key).getD ""
  match limiter.check now key with
  | (limiter, .ok remaining) => (limiter, .ok remaining)
  | (limiter, .error retryAfter) => (limiter, .error (limited retryAfter))

/-- A request with a client key is checked, and refused if the check fails. -/
theorem rateLimit_cases (now : Instant) (limiter : RateLimiter) (clientKey : ClientKey) :
    ((limiter.check now clientKey.key).2.isOk = true ∧ ∃ remaining,
        rateLimit now limiter (some clientKey)
          = ((limiter.check now clientKey.key).1, .ok remaining)) ∨
      ((limiter.check now clientKey.key).2.isOk = false ∧ ∃ response,
        rateLimit now limiter (some clientKey)
          = ((limiter.check now clientKey.key).1, .error response)) := by
  simp only [rateLimit, Option.map_some, Option.getD_some]
  rcases limiter.check now clientKey.key with ⟨limiter, retryAfter | remaining⟩
  · exact Or.inr ⟨rfl, _, rfl⟩
  · exact Or.inl ⟨rfl, _, rfl⟩

/-- `rate_limit`, after the next handler: the headers of its response. -/
def withRemaining (remaining : UInt32) (headers : HeaderMap) : HeaderMap :=
  headers.insert "x-ratelimit-remaining" (HeaderValue.ofText (toString remaining.toNat))

/-- A request on its way to a handler: when its check reads the clock, and its
headers. -/
structure Arrival where
  now : Instant
  headers : HeaderMap

/-- Why a request does not get to its handler. -/
inductive Refusal where
  | unauthorized (e : AppError)
  | limited (response : JsonResponse)

/-- The two layers of a proxy route: the client key of the request and the tokens that
remain, if it gets to its handler. -/
def enter (arrival : Arrival) (state : AppState) :
    AppState × Except Refusal (ClientKey × UInt32) :=
  match Auth.auth state.clientKeys arrival.headers with
  | .error e => (state, .error (.unauthorized e))
  | .ok clientKey =>
      match rateLimit arrival.now state.rateLimiter (some clientKey) with
      | (rateLimiter, .error response) =>
          ({ state with rateLimiter }, .error (.limited response))
      | (rateLimiter, .ok remaining) =>
          ({ state with rateLimiter }, .ok (clientKey, remaining))

/-- The requests of a list that get to their handlers, by their checks. -/
def admitted : AppState → List Arrival → List RateLimiter.Check
  | _, [] => []
  | state, arrival :: arrivals =>
      match enter arrival state with
      | (state, .ok (clientKey, _)) =>
          { now := arrival.now, key := clientKey.key } :: admitted state arrivals
      | (state, .error _) => admitted state arrivals

/-- The check of a request: none if `auth` refuses it. -/
def checkOf (clientKeys : Finset String) (arrival : Arrival) : Option RateLimiter.Check :=
  (Auth.auth clientKeys arrival.headers).toOption.map fun clientKey =>
    { now := arrival.now, key := clientKey.key }

section Enter

variable (arrival : Arrival) (state : AppState)

theorem enter_clientKeys : (enter arrival state).1.clientKeys = state.clientKeys := by
  unfold enter
  split
  · rfl
  · split <;> rfl

/-- A request that `auth` refuses does not get to the limiter. -/
theorem enter_of_unauthorized {e : AppError}
    (h : Auth.auth state.clientKeys arrival.headers = .error e) :
    enter arrival state = (state, .error (.unauthorized e)) := by
  rw [enter, h]

/-- A request with a key is checked, and gets to its handler if the check succeeds. -/
theorem enter_of_authorized {clientKey : ClientKey}
    (h : Auth.auth state.clientKeys arrival.headers = .ok clientKey) :
    (enter arrival state).1.rateLimiter
        = (state.rateLimiter.check arrival.now clientKey.key).1 ∧
      (((state.rateLimiter.check arrival.now clientKey.key).2.isOk = true ∧
          ∃ remaining, (enter arrival state).2 = .ok (clientKey, remaining)) ∨
        ((state.rateLimiter.check arrival.now clientKey.key).2.isOk = false ∧
          ∃ response, (enter arrival state).2 = .error (.limited response))) := by
  rw [enter, h]
  simp only [rateLimit, Option.map_some, Option.getD_some]
  rcases state.rateLimiter.check arrival.now clientKey.key with ⟨limiter, retryAfter | remaining⟩
  · exact ⟨rfl, Or.inr ⟨rfl, _, rfl⟩⟩
  · exact ⟨rfl, Or.inl ⟨rfl, _, rfl⟩⟩

/-- The check of a request with a key decides. -/
theorem enter_of_limited {arrival : Arrival} {state : AppState} {clientKey : ClientKey}
    {rateLimiter : RateLimiter} {response : JsonResponse}
    (hauth : Auth.auth state.clientKeys arrival.headers = .ok clientKey)
    (h : rateLimit arrival.now state.rateLimiter (some clientKey)
      = (rateLimiter, .error response)) :
    enter arrival state = ({ state with rateLimiter }, .error (.limited response)) := by
  unfold enter
  rw [hauth]
  simp only
  rw [h]

theorem enter_of_checked {arrival : Arrival} {state : AppState} {clientKey : ClientKey}
    {rateLimiter : RateLimiter} {remaining : UInt32}
    (hauth : Auth.auth state.clientKeys arrival.headers = .ok clientKey)
    (h : rateLimit arrival.now state.rateLimiter (some clientKey)
      = (rateLimiter, .ok remaining)) :
    enter arrival state = ({ state with rateLimiter }, .ok (clientKey, remaining)) := by
  unfold enter
  rw [hauth]
  simp only
  rw [h]

/-- A request that gets to its handler was let through by `auth`. -/
theorem auth_of_enter {clientKey : ClientKey} {remaining : UInt32}
    (h : (enter arrival state).2 = .ok (clientKey, remaining)) :
    Auth.auth state.clientKeys arrival.headers = .ok clientKey := by
  cases hauth : Auth.auth state.clientKeys arrival.headers with
  | error e =>
      rw [enter_of_unauthorized arrival state hauth] at h
      cases h
  | ok authKey =>
      obtain ⟨-, ⟨-, remaining', hok⟩ | ⟨-, response, herror⟩⟩ :=
        enter_of_authorized arrival state hauth
      · rw [hok] at h
        cases h
        rfl
      · rw [herror] at h
        cases h

end Enter

/-- **The requests that get to their handlers are the admitted ones of their checks.** -/
theorem admitted_eq (state : AppState) (arrivals : List Arrival) :
    admitted state arrivals = RateLimiter.admitted state.rateLimiter
      (arrivals.filterMap (checkOf state.clientKeys)) := by
  induction arrivals generalizing state with
  | nil => rfl
  | cons arrival arrivals ih =>
      rw [admitted]
      cases hauth : Auth.auth state.clientKeys arrival.headers with
      | error e =>
          rw [enter_of_unauthorized arrival state hauth, List.filterMap_cons_none]
          · exact ih state
          · rw [checkOf, hauth]
            rfl
      | ok clientKey =>
          have hkeys := enter_clientKeys arrival state
          have hcheck : checkOf state.clientKeys arrival
              = some { now := arrival.now, key := clientKey.key } := by
            rw [checkOf, hauth]
            rfl
          obtain ⟨hlimiter, hcases⟩ := enter_of_authorized arrival state hauth
          rw [List.filterMap_cons_some hcheck, RateLimiter.admitted]
          rcases henter : enter arrival state with ⟨next, result⟩
          rw [henter] at hkeys hlimiter hcases
          simp only at hkeys hlimiter hcases
          rcases hcases with ⟨hok, remaining, hresult⟩ | ⟨hfail, response, hresult⟩
          · subst hresult
            simp only [hok, if_true, ih, hkeys, hlimiter]
          · subst hresult
            simp only [hfail, Bool.false_eq_true, if_false, ih, hkeys, hlimiter]

end RateLimit

end XiaomiProxy
