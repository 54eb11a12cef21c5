import LocalNet.Api.Error
import LocalNet.Json.Record
import LocalNet.Log.Event

/-!
The health of a node: the call that asks for it, and what the body of a response says of it.
-/

namespace LocalNet.Api

open Json

def healthPath : String := "/ext/health"

def healthUrl (host : String) (port : Nat) : String :=
  "http://" ++ host ++ ":" ++ toString port ++ healthPath

def healthCall : Value :=
  .ofMembers [
    ("jsonrpc", .text "2.0"),
    ("id", .ofNat 1),
    ("method", .text "health.health"),
    ("params", .object [])]

structure Fault where
  code : Int := 0
  message : String := ""
  deriving DecidableEq, Repr

structure Health where
  healthy : Bool := false
  deriving DecidableEq, Repr

structure Response where
  result : Option Health := none
  fault : Option Fault := none
  deriving DecidableEq, Repr

def Fault.record : Record Fault where
  title := "fault"
  blank := {}
  closed := false
  fields := [
    Record.required "code" Decoder.signed64
      fun value fault => { fault with code := value },
    Record.required "message" (Decoder.text "a string")
      fun value fault => { fault with message := value }]

def Health.record : Record Health where
  title := "health"
  blank := {}
  closed := false
  fields := [
    Record.required "healthy" Decoder.boolean
      fun value health => { health with healthy := value }]

def Response.record : Record Response where
  title := "response"
  blank := {}
  closed := false
  fields := [
    Record.nullable "result" (Decoder.optional Health.record.decoder)
      fun value response => { response with result := value },
    Record.nullable "error" (Decoder.optional Fault.record.decoder)
      fun value response => { response with fault := value }]

/-- A fault that the node reports wins over any result. -/
def Response.verdict (response : Response) : Except ApiError Bool :=
  match response.fault, response.result with
  | some fault, _ => .error (.rpc fault.code fault.message)
  | none, some health => .ok health.healthy
  | none, none => .error (.decode "missing result")

def malformed : ApiError :=
  .decode "error decoding response body"

def judge (body : Bytes) : Except ApiError Bool :=
  match Response.record.decoder.fromText body with
  | .ok response => response.verdict
  | .error _ => .error malformed

def target : String := "netrunner::api"

def outcomeEvents (url : String) : Except ApiError Bool → List Log.Event
  | .ok healthy =>
    [{ level := .debug, target := target, message := url ++ " healthy: " ++ toString healthy }]
  | .error _ => []

end LocalNet.Api
