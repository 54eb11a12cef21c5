/-!
Why a node's API gives no answer about its health.
-/

namespace LocalNet

inductive ApiError where
  | request (reason : String)
  | decode (reason : String)
  | rpc (code : Int) (message : String)
  deriving DecidableEq, Repr

def ApiError.message : ApiError → String
  | .request reason => "request failed: " ++ reason
  | .decode reason => "malformed response: " ++ reason
  | .rpc code message => "node returned error " ++ toString code ++ ": " ++ message

end LocalNet
