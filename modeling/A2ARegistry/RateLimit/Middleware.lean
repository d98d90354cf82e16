import A2ARegistry.Auth.Middleware
import A2ARegistry.RateLimit.Buckets

namespace A2ARegistry.RateLimit
open Base Orchestration

/-- What the middleware reads of a request. An absent header is empty; there is an agent when the request was
authenticated. -/
structure HttpRequest where
  method : String := "GET"
  path : String
  agentId : String := ""
  forwardedFor : String := ""
  realIp : String := ""
  remote : Option String := none
deriving DecidableEq

/-- `_get_client_key`. -/
def getClientKey (request : HttpRequest) : String :=
  if request.agentId ≠ "" ∧ request.agentId ≠ "anonymous" then "client:" ++ request.agentId
  else if request.forwardedFor ≠ "" then "ip:" ++ strip ((splitAt request.forwardedFor ',').headD "")
  else if request.realIp ≠ "" then "ip:" ++ strip request.realIp
  else "ip:" ++ (if truthy request.remote then request.remote.getD "" else "unknown")

/-- `_is_whitelisted`. -/
def isWhitelisted (request : HttpRequest) (whitelist : List String) : Bool :=
  let key := getClientKey request
  (request.agentId != "" && whitelist.contains request.agentId) ||
    (Auth.startsWith key "client:" && whitelist.contains (String.ofList (key.toList.drop "client:".length)))

/-- `_public_path`. -/
def publicPath (path : String) : Bool :=
  Auth.startsWith path "/auth/" || Auth.startsWith path "/.well-known/" || ["/health", "/", "/metrics"].contains path

/-- What the factory is called with, apart from the storage. -/
structure RateLimitConfig where
  enabled : Bool
  defaultUnauthenticated : Int := 60
  defaultAuthenticated : Int := 300
  whitelist : List String := []

namespace RateLimitConfig

variable (config : RateLimitConfig) (request : HttpRequest)

/-- The request is let through without a look at its bucket. -/
def exempts : Bool := !config.enabled || request.method == "OPTIONS" || isWhitelisted request config.whitelist

/-- The rate of a request, per minute. -/
def rate : Int :=
  if request.agentId ≠ "" ∧ request.agentId ≠ "anonymous" ∧ publicPath request.path = false then
    config.defaultAuthenticated
  else config.defaultUnauthenticated

end RateLimitConfig

/-- What a client is told of its bucket. -/
structure Quota where
  limit : Int
  remaining : Int
  resetAt : Rat
deriving DecidableEq

def Quota.headers (quota : Quota) : List (String × String) :=
  [("X-RateLimit-Limit", toString quota.limit), ("X-RateLimit-Remaining", toString quota.remaining),
    ("X-RateLimit-Reset", toString (truncate quota.resetAt))]

/-- What becomes of a request; `raised` when `consume` raises. -/
inductive Verdict
  | exempt
  | admitted (quota : Quota)
  | refused (quota : Quota) (retryAfter : Int)
  | raised
deriving DecidableEq

/-- The handler is called. -/
def Verdict.admits : Verdict → Bool
  | .exempt | .admitted _ => true
  | .refused .. | .raised => false

/-- A request, with the readings of the clock by the bucket and by the middleware behind it. -/
structure Visit where
  request : HttpRequest
  now : Rat
  later : Rat

section Middleware

variable {β : Type} (config : RateLimitConfig) (consume : β → Call → Option Answer × β)

/-- The call of the bucket that a visit makes: one token, of a bucket that holds what comes in a minute. -/
def Visit.call (visit : Visit) : Call where
  key := getClientKey visit.request
  rate := config.rate visit.request
  burst := config.rate visit.request
  now := visit.now

/-- `_rate_limit_middleware`, up to the call of the handler. -/
def rateLimit (buckets : β) (visit : Visit) : Verdict × β :=
  if config.exempts visit.request then (.exempt, buckets)
  else match consume buckets (visit.call config) with
    | (none, buckets') => (.raised, buckets')
    | (some answer, buckets') =>
      let quota : Quota := ⟨config.rate visit.request, answer.remaining, answer.resetAt⟩
      if answer.allowed then (.admitted quota, buckets')
      else (.refused quota (max 1 (truncate (answer.resetAt - visit.later))), buckets')

end Middleware

/-- `_merge_vary`. -/
def mergeVary (existing newVal : String) : String :=
  let parts := ((splitAt existing ',').map strip).filter (fun part => part != "")
  joinBy ", " (if parts.contains newVal then parts else parts ++ [newVal])

/-- Two names of a header are one, whatever their case. -/
def sameHeader (name other : String) : Bool := name.toLower == other.toLower

/-- `headers[name] = value`. -/
def setHeader (headers : List (String × String)) (header : String × String) : List (String × String) :=
  headers.filter (fun h => !sameHeader h.1 header.1) ++ [header]

/-- `headers.get(name, "")`. -/
def getHeader (headers : List (String × String)) (name : String) : String :=
  ((headers.find? (fun h => sameHeader h.1 name)).map Prod.snd).getD ""

/-- The answer to a refused request. -/
def tooManyRequests (quota : Quota) (retryAfter : Int) : Response where
  status := 429
  body := [("error", .str "too_many_requests"),
    ("detail", .str s!"Rate limit exceeded. Try again in {retryAfter} second(s)."),
    ("rate_limit", .obj [("limit", .int quota.limit), ("remaining", .int 0),
      ("reset_at", .int (truncate quota.resetAt))])]
  headers := quota.headers ++ [("Retry-After", toString retryAfter)]

/-- The answer to a request, and to one that is handed on what the handler answered, with the headers put in. -/
def Verdict.respond (handled : Response) : Verdict → Response
  | .exempt => handled
  | .admitted quota =>
    let headers := quota.headers.foldl setHeader handled.headers
    { handled with headers := setHeader headers ("Vary", mergeVary (getHeader headers "Vary") "Origin") }
  | .refused quota retryAfter => tooManyRequests quota retryAfter
  | .raised => serverError

/-- The whole middleware, around a handler. -/
def rateLimitMiddleware {β : Type} (config : RateLimitConfig) (consume : β → Call → Option Answer × β)
    (handler : HttpRequest → Response) (buckets : β) (visit : Visit) : Response × β :=
  let (verdict, buckets') := rateLimit config consume buckets visit
  (verdict.respond (handler visit.request), buckets')

end A2ARegistry.RateLimit
