import Telepresence.Matcher

/-!
# Intercept specifications

The messages of `rpc/manager` that describe an intercept, restricted to the
fields that the modelled functions read or write.
-/

namespace Telepresence

open Matcher

/-- `manager.InterceptSpec`. -/
structure InterceptSpec where
  name : String := ""
  client : String := ""
  agent : String := ""
  namespace_ : String := ""
  mechanism : String := ""
  podPorts : List String := []
  localPorts : List String := []
  portIdentifier : String := ""
  servicePortName : String := ""
  servicePort : Int := 0
  serviceUid : String := ""
  protocol : String := ""
  containerName : String := ""
  containerPort : Int := 0
  targetPort : Int := 0
  replace : Bool := false
  wiretap : Bool := false
  noDefaultPort : Bool := false
  headerFilters : StringMap String := ∅
  pathFilters : List String := []
  deriving DecidableEq

/-- `manager.InterceptDispositionType`. -/
inductive Disposition where
  | unspecified
  | active
  | waiting
  | noClient
  | noAgent
  | noMechanism
  | noPorts
  | agentError
  | badArgs
  | removed
  deriving DecidableEq, Repr, Inhabited

/-- `manager.InterceptInfo`. -/
structure InterceptInfo where
  spec : InterceptSpec
  id : String
  clientSession : String
  disposition : Disposition
  message : String
  podName : String := ""
  podIp : String := ""
  deriving DecidableEq

end Telepresence
