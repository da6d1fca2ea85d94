import ChatRelay.Failure
import ChatRelay.Health
import ChatRelay.Metrics.Exposition
import ChatRelay.Text.Blank
import ChatRelay.Text.Unicode

namespace ChatRelay.Endpoint

def page (code : Nat) (reason contentType body : String) : String :=
  s!"HTTP/1.1 {code} {reason}\r\nContent-Type: {contentType}\r\nConnection: close\r\n\r\n{body}"

def plain (code : Nat) (reason body : String) : String := page code reason "text/plain" body

/-- Names the dead loops, if there are any. -/
def livePage (registry : HealthRegistry) : String :=
  if registry.isLive then plain 200 "OK" "status: alive\n"
  else
    let dead := (registry.loops.filter (·.isDead)).map fun health => s!"stopped: {health.name}\n"
    plain 503 "Service Unavailable" (String.join ("status: dead\n" :: dead))

def readyPage (registry : HealthRegistry) : String :=
  let loops := registry.loops.map fun health =>
    s!"loop: {health.name} started={health.started} healthy={health.healthy} " ++
      s!"rebalancing={health.rebalancing}\n"
  if registry.isReady then plain 200 "OK" (String.join ("status: ready\n" :: loops))
  else plain 503 "Service Unavailable" (String.join ("status: not_ready\n" :: loops))

def metricsPage (metrics : String) : String :=
  page 200 "OK" "text/plain; version=0.0.4; charset=utf-8" metrics

def notFoundPage : String :=
  plain 404 "Not Found" ("Available endpoints:\n" ++
    "- /health - Process is up\n" ++
    "- /live - Fails once a consumer loop has died\n" ++
    "- /ready - Fails unless every consumer loop is running and assigned\n" ++
    "- /metrics - Prometheus metrics\n")

/-- The second word of the first line, or the root. -/
def path (request : List Char) : String :=
  match (Text.words (Text.firstLine request))[1]? with
  | some path => String.ofList path
  | none => "/"

def respond (request : List Char) (registry : HealthRegistry) (metrics : String) : String :=
  let path := path request
  if path ∈ ["/health", "/healthz", "/health/"] then plain 200 "OK" "status: healthy\n"
  else if path ∈ ["/live", "/livez", "/live/"] then livePage registry
  else if path ∈ ["/ready", "/readyz", "/ready/"] then readyPage registry
  else if path = "/metrics" then metricsPage metrics
  else notFoundPage

/-- Whether the address that the endpoint is to listen on can be had. -/
inductive Network where
  | reachable
  | unreachable
deriving DecidableEq, Repr

def requestLimit : Nat := 1024

/-- Sends a request to the endpoint of an instance. Without a network the endpoint cannot be set up; an empty
request is left without an answer. -/
def request (network : Network) (data : Bytes) (registry : HealthRegistry) (metrics : String) :
    Except Failure String :=
  match network with
  | .unreachable => .error (.inputOutput .networkUnreachable)
  | .reachable =>
    let read := data.take requestLimit
    .ok (if read.isEmpty then "" else respond (Text.decodeLossily read) registry metrics)

end ChatRelay.Endpoint
