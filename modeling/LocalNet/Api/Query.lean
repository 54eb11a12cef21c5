import LocalNet.Api.Health
import LocalNet.Http.Reference
import LocalNet.Http.Response

/-!
Asking a node whether it is healthy. The question is posted over HTTP, and asked again elsewhere
where a response says so; of the response that is left only the body counts.
-/

namespace LocalNet.Api

inductive Behaviour where
  | silent
  | sends (bytes : Bytes)
  | responds (status : Nat) (body : Bytes)
  deriving DecidableEq, Repr

/-- The response that a connection carries. There is none if it is refused, cut off or silent, or
carries something else. -/
def Behaviour.response? : Behaviour → Option Http.Response
  | .silent => none
  | .sends bytes => Http.Response.ofConnection bytes
  | .responds status body => Http.Response.ofConnection (Http.Response.render status body)

/-- The one place that accepts connections, and what happens on one after the other. The last
behaviour repeats. -/
structure Server where
  host : String
  port : Nat
  behaviours : List Behaviour := []
  connections : Nat := 0
  deriving DecidableEq, Repr

namespace Server

def behaviour (server : Server) : Behaviour :=
  match server.behaviours[server.connections]? with
  | some found => found
  | none => server.behaviours.getLast?.getD .silent

def accept (server : Server) : Server :=
  { server with connections := server.connections + 1 }

def ownName : String := "localhost"

def ownAddress : String := "127.0.0.1"

def isNamed (server : Server) (host : Http.Host) : Bool :=
  host.text = server.host || (host.text = ownName && server.host = ownAddress)

def listensAt (server : Server) (url : Http.Url) : Bool :=
  url.scheme = "http" && url.port? = some server.port &&
    (url.authority.map fun authority => server.isNamed authority.host).getD false

end Server

inductive Method where
  | get
  | post
  deriving DecidableEq, Repr

structure Visit where
  method : Method
  path : String
  deriving DecidableEq, Repr

/-- How the next request is made where a response points elsewhere: it is posted again, or only
asked for. -/
def Method.after? (method : Method) (status : Nat) : Option Method :=
  if status = 301 || status = 302 || status = 303 then some .get
  else if status = 307 || status = 308 then some method
  else none

inductive Exchange where
  | failed
  | answered (response : Http.Response)
  /-- Responses keep pointing elsewhere, the last one from here. -/
  | astray (url : Http.Url)
  /-- Nothing is known of how to ask there. -/
  | unaskable (url : Http.Url)
  deriving DecidableEq, Repr

structure Journey where
  exchange : Exchange
  server : Server
  visits : List Visit := []
  silent : Bool := false
  deriving DecidableEq, Repr

/-- Where a response sends its reader, if anywhere that a request can name. -/
def next? (method : Method) (url : Http.Url) (response : Http.Response) :
    Option (Method × Http.Url) :=
  match method.after? response.status, response.location.bind Bytes.toText? with
  | some later, some location => (Http.Reference.follow? url location).map (later, ·)
  | _, _ => none

def isAskable (url : Http.Url) : Bool :=
  url.scheme = "http" || url.scheme = "https"

def send : (follows : Nat) → Server → Method → Http.Url → Journey
  | follows, server, method, url =>
    if !isAskable url then ⟨.unaskable url, server, [], false⟩
    else if !server.listensAt url then ⟨.failed, server, [], false⟩
    else
      let visit : Visit := ⟨method, url.target⟩
      match server.behaviour.response? with
      | none => ⟨.failed, server.accept, [visit], server.behaviour = .silent⟩
      | some response =>
        match next? method url response, follows with
        | none, _ => ⟨.answered response, server.accept, [visit], false⟩
        | some _, 0 => ⟨.astray url, server.accept, [visit], false⟩
        | some (later, elsewhere), follows + 1 =>
          let journey := send follows server.accept later elsewhere
          { journey with visits := visit :: journey.visits }

def followLimit : Nat := 10

def outcome (url : Http.Url) : Exchange → Except ApiError Bool
  | .failed => .error (.request ("error sending request for url (" ++ url.text ++ ")"))
  | .astray last => .error (.request ("error following redirect for url (" ++ last.text ++ ")"))
  | .unaskable last => .error (.request ("builder error for url (" ++ last.text ++ ")"))
  | .answered response =>
    match response.body with
    | none => .error malformed
    | some body => judge body

structure Report where
  answer : Except ApiError Bool
  journey : Journey
  log : List Log.Event

/-- Asks the API at a host and a port; no request can be made if those make up no address. -/
def query (server : Server) (host : String) (port : Nat) : Report :=
  match Http.Reference.read? (healthUrl host port) with
  | none =>
    { answer := .error (.request "builder error")
      journey := ⟨.failed, server, [], false⟩
      log := [] }
  | some url =>
    let journey := send followLimit server .post url
    let answer := outcome url journey.exchange
    { answer := answer, journey := journey, log := outcomeEvents (healthUrl host port) answer }

end LocalNet.Api
