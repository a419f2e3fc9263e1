import Mathlib.Data.List.Sort
import Telepresence.Conflicts

/-!
# The forwarder of a container port

The TCP interceptor of a traffic-agent (`agent/fwd`): it holds the active
intercepts and wiretaps of one port and decides where a connection, or a
request on it, goes.  A switch in front of it hands connections to the TCP
path or, when some intercept or wiretap has filters, to the HTTP path.

What is modelled is the decision, and what comes before it: on the HTTP path the
wiretaps that match a request are served one after the other before the request
is routed.  That a stream to the client of an intercept cannot be created, and
what is then done about it, is left out.
-/

namespace Telepresence.Fwd

open Matcher Regexp

/-- `interceptControllerMap`, by intercept ID. -/
abbrev InterceptControllerMap := GoMap String InterceptInfo

/-- `interceptController.isHTTP`. -/
def isHTTP (ic : InterceptInfo) : Bool :=
  !ic.spec.headerFilters.entries.isEmpty || !ic.spec.pathFilters.isEmpty

namespace InterceptControllerMap

/-- `sorted`: the entries, sorted by ID. -/
def sorted (im : InterceptControllerMap) : List InterceptInfo :=
  (im.keys.insertionSort (· ≤ ·)).filterMap im.lookup

/-- `reconcile`. -/
def reconcile (im : InterceptControllerMap) (iis : List InterceptInfo) : InterceptControllerMap :=
  let im := GoMap.insertAll (·.id) iis im
  GoMap.deleteUnless (fun id => id ∈ iis.map (·.id)) im.keys im

/-- `global`. -/
def global (im : InterceptControllerMap) : Except String (Option InterceptInfo) :=
  match im.entries with
  | [] => .ok none
  | [e] => .ok (some e.2)
  | _ => .error "multiple intercepts found when requesting the global intercept"

/-- `interceptControllerMap.isHTTP`. -/
def isHTTP (im : InterceptControllerMap) : Bool := im.entries.any fun e => Fwd.isHTTP e.2

end InterceptControllerMap

/-- The state of `fwd.tcp`; `secondary` is the listener switch. -/
structure Tcp where
  intercepts : InterceptControllerMap := ∅
  wiretaps : InterceptControllerMap := ∅
  secondary : Bool := false

namespace Tcp

/-- `tcp.IsHTTP`. -/
def isHTTP (f : Tcp) : Bool := f.intercepts.isHTTP || f.wiretaps.isHTTP

/-- `setListenerSwitch`. -/
def setListenerSwitch (f : Tcp) : Tcp := { f with secondary := f.isHTTP }

/-- `SetIntercepting`. -/
def setIntercepting (f : Tcp) (infos : List InterceptInfo) : Tcp :=
  { f with intercepts := f.intercepts.reconcile infos }.setListenerSwitch

/-- `SetWiretapping`. -/
def setWiretapping (f : Tcp) (infos : List InterceptInfo) : Tcp :=
  { f with wiretaps := f.wiretaps.reconcile infos }.setListenerSwitch

end Tcp

/-- What the matchers look at of an `http.Request`. -/
structure HttpRequest where
  path : String
  header : Header

/-- Where a request is delivered. -/
inductive Destination where
  | intercept (ic : InterceptInfo)
  | appContainer
  | refused (err : String)
  /-- Nowhere, as long as the forwarder runs. -/
  | undelivered

/-- `shouldInterceptRequest`. -/
def shouldInterceptRequest (u : Unicode) (req : HttpRequest) (spec : InterceptSpec) : Bool :=
  (newRequest spec.pathFilters spec.headerFilters : Request u).matchesPathAndHeader req.path
    req.header

/-- What becomes of the stream to the client of a wiretap: it cannot be created,
a `Send` of a part of the request's header fails, or all of them succeed. -/
inductive TapStream where
  | refused
  | broken
  | sending
  deriving DecidableEq

/-- How serving the wiretaps of a request goes: whether the header can be
written, and the streams. -/
structure Taps where
  headerWritten : Bool
  stream : InterceptInfo → TapStream

/-- `serveTap` returns.  After the header it reads the body, which reaches the
tap only when the request is read, and that comes after `serveTap`. -/
def serveTap (taps : Taps) (ic : InterceptInfo) : Bool := taps.stream ic ≠ .sending

/-- The first part of `handleHTTPRequest`, with `addRequestTaps`: all wiretaps
that match have been served. -/
def serveTaps (u : Unicode) (f : Tcp) (taps : Taps) (req : HttpRequest) : Bool :=
  let wts := f.wiretaps.sorted.filter fun ic => shouldInterceptRequest u req ic.spec
  !taps.headerWritten || wts.all (serveTap taps)

/-- The two passes of `handleHTTPRequest`: header-filtered intercepts first,
then those with path filters only. -/
def passes (u : Unicode) (f : Tcp) (req : HttpRequest) : Destination :=
  let intercepts := f.intercepts.sorted
  match intercepts.find? fun ic =>
      !ic.spec.headerFilters.entries.isEmpty && shouldInterceptRequest u req ic.spec with
  | some ic => .intercept ic
  | none =>
      match intercepts.find? fun ic =>
          ic.spec.headerFilters.entries.isEmpty && !ic.spec.pathFilters.isEmpty &&
            shouldInterceptRequest u req ic.spec with
      | some ic => .intercept ic
      | none => .appContainer

/-- `handleHTTPRequest`. -/
def handleHTTPRequest (u : Unicode) (f : Tcp) (taps : Taps) (req : HttpRequest) : Destination :=
  if serveTaps u f taps req then passes u f req else .undelivered

/-- `Forward`: the connection goes to the only intercept, if there is one.  The
wiretaps are served by goroutines here. -/
def forward (f : Tcp) : Destination :=
  match f.intercepts.global with
  | .error err => .refused err
  | .ok (some ic) => .intercept ic
  | .ok none => .appContainer

/-- Where a request on a new connection goes, which `listenerSwitch.Serve`
hands to one of the two paths. -/
def route (u : Unicode) (f : Tcp) (taps : Taps) (req : HttpRequest) : Destination :=
  if f.secondary then handleHTTPRequest u f taps req else forward f

end Telepresence.Fwd
