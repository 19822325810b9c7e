import Sow.Contracts.Models
import Sow.Js.Case
import Sow.Js.Json
import Sow.Js.Number

open sow.js sow.contracts
open sow.js.Json (isDigit)

namespace sow.policy

def LOCAL_PROVIDERS : List JsString := [str "ollama", str "lm_studio"]

def MALFORMED_ROUTE_PROCESSOR : JsString := str "MALFORMED_ROUTE"

/-- One round of the loop over the delimiters. -/
def cutAt (s : JsString) (cut : Nat) (d : UInt16) : Nat :=
  match indexOf [d] s with
  | some i => if i < cut then i else cut
  | none => cut

/-- The substring before the earliest of `delimiters`, or the whole string if none occur. -/
def firstSegment (s delimiters : JsString) : JsString := slice s 0 (delimiters.foldl (cutAt s) s.length)

/-- `/[a-zA-Z]/`. -/
def isLetter (c : UInt16) : Bool := (65 ≤ c.toNat && c.toNat ≤ 90) || (97 ≤ c.toNat && c.toNat ≤ 122)

/-- `/[a-zA-Z0-9+.-]/`. -/
def isSchemeUnit (c : UInt16) : Bool := isLetter c || isDigit c || c == unit '+' || c == unit '.' || c == unit '-'

/-- What follows a match of `/^[a-zA-Z][a-zA-Z0-9+.-]*:\/\//`. -/
def stripScheme : JsString → Option JsString
  | [] => none
  | c :: s => if isLetter c then stripLit (str "://") (s.dropWhile isSchemeUnit) else none

/-- The text behind an explicit `scheme://` or a protocol-relative `//`. -/
def afterSlashes (s : JsString) : JsString :=
  match stripScheme s with
  | some rest => rest
  | none => if startsWith s (str "//") then s.drop 2 else s

/-- `s.slice(at + 1)` for the last `@` of `s`, or all of it. -/
def stripUserinfo (s : JsString) : JsString :=
  match lastIndexOf (unit '@') s with
  | some i => s.drop (i + 1)
  | none => s

section

variable (tables : CaseTables)

/-- The authority of an endpoint, in small letters. Path, query and fragment go before the
    userinfo does: an `@` behind the first delimiter is part of the path. -/
def extractAuthority (raw : JsString) : Option JsString :=
  let s := trim raw
  if s = [] then none
  else
    let s := firstSegment (afterSlashes s) (str "/?#\\")
    if s = [] then none
    else
      let s := stripUserinfo s
      if s = [] then none else some (tables.toLowerCase s)

/-- The host of an authority: its port is stripped, and the brackets of an IPv6 literal. -/
def hostOfAuthority (s : JsString) : Option JsString :=
  if startsWith s [unit '['] then
    match indexOf [unit ']'] s with
    | none => none
    | some close => some (slice s 1 close)
  else if s.count (unit ':') ≥ 2 then some s
  else
    match indexOf [unit ':'] s with
    | some colon => some (slice s 0 colon)
    | none => some s

def extractHost (raw : JsString) : Option JsString :=
  match extractAuthority tables raw with
  | none => none
  | some authority => if authority = [] then none else hostOfAuthority authority

/-- `/\d{1,3}/` over a whole group. -/
def isOctetText (s : JsString) : Bool := s.all isDigit && 1 ≤ s.length && s.length ≤ 3

/-- The groups of `/^127\.(\d{1,3})\.(\d{1,3})\.(\d{1,3})$/`. -/
def matchLoopbackRange (host : JsString) : Option (List JsString) :=
  match stripLit (str "127.") host with
  | none => none
  | some rest =>
    let groups := split (unit '.') rest
    if groups.length = 3 && groups.all isOctetText then some groups else none

def isLoopbackHost (host : JsString) : Bool :=
  if host = str "localhost" then true
  else if host = str "::1" || host = str "0:0:0:0:0:0:0:1" then true
  else
    match matchLoopbackRange host with
    | none => false
    | some groups => groups.all fun oct => toNumber oct ≤ 255

/-- What follows a match of `/^(?:unix|file):\/\//i`. -/
def stripFileScheme (raw : JsString) : Option JsString :=
  (stripLitAscii (str "unix://") raw).or (stripLitAscii (str "file://") raw)

/-- True only for an endpoint that is meant to stay on this machine: a loopback host, or the
    path of a file or socket. -/
def isLoopbackEndpoint (endpoint : JsString) : Bool :=
  let raw := trim endpoint
  if raw = [] then false
  else
    match stripFileScheme raw with
    | some rest =>
      let authority := firstSegment rest (str "/?#\\")
      if authority = [] then true
      else
        let host := tables.toLowerCase (firstSegment (stripUserinfo authority) [unit ':'])
        host.length > 0 && isLoopbackHost host
    | none =>
      if startsWith raw (str "unix:") || startsWith raw (str "file:") then true
      else if startsWith raw (str "/") && !startsWith raw (str "//") then true
      else
        match extractHost tables raw with
        | none => false
        | some host => isLoopbackHost host

def endpointHostRef (endpoint : Option JsString) : JsString :=
  str "ref:endpoint-host:" ++ ((endpoint.bind (extractHost tables)).getD (str "UNPARSEABLE"))

/-- The processor of a route that names itself `identity`, or none for a genuine route on
    this machine. -/
def processorOfIdentity (route : ProviderRoute) (identity : JsString) (hasRuntime : Bool) : Option JsString :=
  if trim identity = [] then some MALFORMED_ROUTE_PROCESSOR
  else
    let loopbackLocal := route.egressClass = some .local &&
      (match route.endpoint with
      | some endpoint => isLoopbackEndpoint tables endpoint
      | none => false)
    if loopbackLocal && (hasRuntime || identity ∈ LOCAL_PROVIDERS) then none else some identity

/-- A route names exactly one of a provider and a runtime. -/
def processorOfRoute (route : Option ProviderRoute) : Option JsString :=
  match route with
  | none => some MALFORMED_ROUTE_PROCESSOR
  | some r =>
    match r.provider, r.runtime with
    | some provider, none => processorOfIdentity tables r provider false
    | none, some runtime => processorOfIdentity tables r runtime true
    | _, _ => some MALFORMED_ROUTE_PROCESSOR

def everyProviderIsLocal (providers : Option (List (Option JsString))) : Bool :=
  match providers with
  | none => false
  | some ps => ps.all fun p =>
    match p with
    | none => false
    | some p => p ≠ [] && p ∈ LOCAL_PROVIDERS

def everyCapabilityRouteIsLoopbackLocal (capabilityDefaults : Option (List (JsString × Option ProviderRoute))) : Bool :=
  match capabilityDefaults with
  | none => false
  | some record => record.all fun entry => processorOfRoute tables entry.2 = none

def isNonVacuousProviderMatrix (matrix : ProviderMatrix) : Bool :=
  (match matrix.allowedProviders with
  | none => false
  | some ps => ps.length ≠ 0) &&
  (match matrix.capabilityDefaults with
  | none => false
  | some record => record.length > 0)

def isLocalOnlyProviderMatrix (matrix : Option ProviderMatrix) : Bool :=
  match matrix with
  | none => false
  | some m =>
    m.rawCloudEgressEnabled = some false &&
      isNonVacuousProviderMatrix m &&
      everyProviderIsLocal m.allowedProviders &&
      everyCapabilityRouteIsLoopbackLocal tables m.capabilityDefaults

def isEmptyProcessorList (list : Option (List JsString)) : Bool := list = some []

def hasNoApprovedEgressDestination (policy : Option EgressPolicy) : Bool :=
  match policy with
  | none => false
  | some p => isEmptyProcessorList p.allowedProcessors && isEmptyProcessorList p.rawContentAllowedProcessors

/-- Routing pins local, and no egress destination is approved. -/
def isZeroEgressOnlyWorkspace (egressPolicy : Option EgressPolicy) (providerMatrix : Option ProviderMatrix) : Bool :=
  isLocalOnlyProviderMatrix tables providerMatrix && hasNoApprovedEgressDestination egressPolicy

end

end sow.policy
