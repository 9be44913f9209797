import Curio.GoRuntime
import Curio.NetAddr
import Curio.StepMachine

/-! `lib/robusthttp/ssrf.go`: URLs that clients supply are fetched without reaching internal
addresses.

The URL functions of the standard library and the transport's choice of the address to dial are
parameters. Letter case is that of ASCII. -/

namespace Curio.RobustHttp

open GoRuntime NetAddr

structure SSRFPolicy where
  maxURLLength : Int := 0
  maxHeaderBytes : Int := 0
  maxHeaderValues : Int := 0
  maxRedirects : Int := 0
  allowLoopbackIPs : Bool := false
  allowLocalHostnames : Bool := false
  allowPrivateIPs : Bool := false
  allowedHosts : List String := []
  disabled : Bool := false
  deriving DecidableEq

def defaultSSRFPolicy : SSRFPolicy where
  maxURLLength := 4096
  maxHeaderBytes := 16384
  maxHeaderValues := 64
  maxRedirects := 3

/-- The given policy, the global override or the defaults, with the defaults for what is zero. -/
def withSSRFDefaults (globalSSRFOverride p : Option SSRFPolicy) : SSRFPolicy :=
  let d := defaultSSRFPolicy
  match p <|> globalSSRFOverride with
  | none => d
  | some cfg =>
    { cfg with
      maxURLLength := if cfg.maxURLLength = 0 then d.maxURLLength else cfg.maxURLLength
      maxHeaderBytes := if cfg.maxHeaderBytes = 0 then d.maxHeaderBytes else cfg.maxHeaderBytes
      maxHeaderValues := if cfg.maxHeaderValues = 0 then d.maxHeaderValues else cfg.maxHeaderValues
      maxRedirects := if cfg.maxRedirects = 0 then d.maxRedirects else cfg.maxRedirects }

structure Url where
  scheme : String
  hasUser : Bool
  hostname : String
  port : String
  rest : String
  deriving DecidableEq

/-- A header set, in the order in which the map is gone through. -/
abbrev Header := List (String × List String)

structure NetLib where
  parse : String → Call Url
  urlString : Url → String
  /-- `URL.Parse` at the URL of the request: the target of a `Location`. -/
  resolveReference : Url → String → Call Url
  /-- The address that the transport dials for a URL. -/
  canonicalAddr : Url → String
  splitHostPort : String → Call (String × String)

def lower (s : String) : String := String.ofList (s.toList.map Char.toLower)

def containsAny (s : String) (chars : List Char) : Bool := s.toList.any fun c => c ∈ chars

def atoi (s : String) : Option Int :=
  let number := fun (digits : List Char) =>
    if digits ≠ [] ∧ digits.all Char.isDigit = true then
      some (digits.foldl (fun word c => word * 10 + ((c.toNat : Int) - '0'.toNat)) 0)
    else none
  match s.toList with
  | '-' :: digits => (number digits).map Neg.neg
  | '+' :: digits => number digits
  | digits => number digits

/-- `validHeaderFieldByte` of `net/textproto`. -/
def isTokenChar (c : Char) : Bool :=
  c.isAlphanum || "!#$%&'*+-.^_|~".toList.contains c || c.toNat = 96

/-- The letters of a key, the first and those behind a hyphen in upper case. -/
def canonicalChars (upper : Bool) : List Char → List Char
  | [] => []
  | c :: rest => (if upper then c.toUpper else c.toLower) :: canonicalChars (c = '-') rest

def canonicalHeaderKey (k : String) : String :=
  if k ≠ "" ∧ k.toList.all isTokenChar = true then String.ofList (canonicalChars true k.toList)
  else k

def validateFetchPort (port : String) : Go Unit :=
  match atoi port with
  | none => fail s!"invalid port \"{port}\""
  | some n => if n < 1 ∨ 65535 < n then fail s!"invalid port \"{port}\"" else .ok ()

def normalizedFetchPort (u : Url) : Go String :=
  if u.port = "" then
    if u.scheme = "http" then .ok "80"
    else if u.scheme = "https" then .ok "443"
    else fail s!"no default port for scheme \"{u.scheme}\""
  else do
    validateFetchPort u.port
    .ok u.port

/-- An entry without a port is for every port. -/
def isHostAllowed (lib : NetLib) (host port : String) (allowed : List String) : Bool :=
  allowed.any fun entry =>
    match lib.splitHostPort entry with
    | .error _ => lower host = lower entry
    | .ok (eHost, ePort) => lower host = lower eHost ∧ port = ePort

def trimDot (host : String) : String :=
  if host.toList.getLast? = some '.' then String.ofList host.toList.dropLast else host

def hasSuffix (host suffix : String) : Bool := suffix.toList.isSuffixOf host.toList

def validateFetchHostSyntax (host : String) (policy : SSRFPolicy) : Go Unit :=
  if host = "" then fail "url host is empty"
  else if containsAny host ['%'] then fail "scoped/zone identifiers are not allowed"
  else if containsAny host [' ', '\t', '\r', '\n', '\x00'] then fail "host contains invalid characters"
  else if host.toList.any fun c => 127 < c.toNat then fail "non-ascii hostnames are not allowed"
  else
    let h := trimDot (lower host)
    if policy.allowLocalHostnames = false ∧ (h = "localhost" ∨ hasSuffix h ".localhost" ∨
        h = "local" ∨ hasSuffix h ".local") then
      fail s!"special-use hostname \"{host}\" is not allowed"
    else .ok ()

def forbiddenFetchPrefixes : List Prefix := [
  mustParsePrefix "0.0.0.0" 8,
  mustParsePrefix "100.64.0.0" 10,
  mustParsePrefix "169.254.0.0" 16,
  mustParsePrefix "192.0.0.0" 24,
  mustParsePrefix "192.0.2.0" 24,
  mustParsePrefix "198.18.0.0" 15,
  mustParsePrefix "198.51.100.0" 24,
  mustParsePrefix "203.0.113.0" 24,
  mustParsePrefix "240.0.0.0" 4,
  mustParsePrefix "255.255.255.255" 32,
  mustParsePrefix "::" 128,
  mustParsePrefix "::1" 128,
  mustParsePrefix "::" 96,
  mustParsePrefix "64:ff9b::" 96,
  mustParsePrefix "64:ff9b:1::" 48,
  mustParsePrefix "100::" 64,
  mustParsePrefix "2001::" 23,
  mustParsePrefix "2001:db8::" 32,
  mustParsePrefix "2002::" 16,
  mustParsePrefix "fc00::" 7,
  mustParsePrefix "fe80::" 10,
  mustParsePrefix "ff00::" 8]

def nonPublic (ip : Addr) : Go Unit := fail s!"non-public ip {ip.text} is not allowed"

def validateFetchIP (ip : Addr) (policy : SSRFPolicy) : Go Unit :=
  let ip := ip.unmap
  if ip.isValid = false then fail "invalid ip"
  else if ip.isLoopback then if policy.allowLoopbackIPs then .ok () else nonPublic ip
  else if ip.isPrivate then if policy.allowPrivateIPs then .ok () else nonPublic ip
  else if ip.isLinkLocalUnicast then if policy.allowPrivateIPs then .ok () else nonPublic ip
  else if ip.isUnspecified || ip.isMulticast then nonPublic ip
  else if policy.allowPrivateIPs = false then
    forEach forbiddenFetchPrefixes fun p =>
      if p.contains ip then fail s!"forbidden ip range {p.text}" else .ok ()
  else .ok ()

def blockedClientFetchHeaders : List String := [
  "Host", "Connection", "Proxy-Connection", "Proxy-Authorization", "Forwarded", "X-Forwarded-For",
  "X-Forwarded-Host", "X-Forwarded-Proto", "X-Real-Ip", "Transfer-Encoding", "Te", "Trailer",
  "Upgrade", "Range"]

def validateHeader (k : String) (vals : List String) : Go Unit :=
  if k = "" ∨ k.toList.head? = some ':' ∨ containsAny k ['\r', '\n'] then
    fail s!"invalid header name \"{k}\""
  else
    let ck := canonicalHeaderKey k
    if ck ∈ blockedClientFetchHeaders then fail s!"header \"{ck}\" is not allowed"
    else if vals.any fun v => containsAny v ['\r', '\n'] then fail s!"header \"{ck}\" contains CR/LF"
    else .ok ()

def headerValues (headers : Header) : Nat := (headers.map fun entry => entry.2.length).sum

def headerBytes (headers : Header) : Nat :=
  (headers.map fun entry => entry.1.utf8ByteSize + (entry.2.map String.utf8ByteSize).sum).sum

def validateClientFetchHeaders (headers : Header) (policy : SSRFPolicy) : Go Unit := do
  forEach headers fun entry => validateHeader entry.1 entry.2
  if policy.maxHeaderValues < headerValues headers then
    fail s!"too many header values: {headerValues headers} > {policy.maxHeaderValues}"
  else if policy.maxHeaderBytes < headerBytes headers then
    fail s!"headers exceed {policy.maxHeaderBytes} bytes"
  else .ok ()

def validateUrlStructure (lib : NetLib) (raw : String) (policy : SSRFPolicy) : Go Url :=
  if raw = "" then fail "url is empty"
  else if policy.maxURLLength < raw.utf8ByteSize then
    fail s!"url exceeds {policy.maxURLLength} bytes"
  else if containsAny raw ['\x00', '\r', '\n', '\t'] then fail "url contains control characters"
  else do
    let u ← wrap "parse url" (ofCall (lib.parse raw))
    if u.hasUser then fail "url userinfo is not allowed"
    else
      let scheme := lower u.scheme
      if scheme ≠ "http" ∧ scheme ≠ "https" then fail s!"unsupported url scheme \"{u.scheme}\""
      else .ok { u with scheme := scheme }

/-- `ValidateClientFetchURL` under the policy with its defaults. -/
def validateClientFetchURL (lib : NetLib) (raw : String) (headers : Header) (policy : SSRFPolicy) :
    Go Url := do
  let u ← validateUrlStructure lib raw policy
  if policy.disabled then .ok u
  else do
    let host := u.hostname
    let port ← normalizedFetchPort u
    let allowed := isHostAllowed lib host port policy.allowedHosts
    if allowed then .ok () else validateFetchHostSyntax host policy
    -- a name is checked when it is dialled
    match parseAddr host with
    | some ip => if allowed then .ok () else validateFetchIP ip policy
    | none => .ok ()
    validateClientFetchHeaders headers policy
    .ok u

abbrev Lookup := Call (List Bytes)

def resolveFetchHost (answer : Lookup) (host : String) : Go (List Addr) :=
  match parseAddr host with
  | some ip => .ok [ip.unmap]
  | none => do
      let resolved ← wrap s!"resolve host \"{host}\"" (ofCall answer)
      .ok ((resolved.filterMap Addr.ofSlice).map Addr.unmap)

/-- The addresses that the loop over the resolved ones dials, up to the first that connects. -/
def dialEach (connects : Addr → Bool) : List Addr → List Addr
  | [] => []
  | ip :: rest => if connects ip then [ip] else ip :: dialEach connects rest

/-- What a dial of a disabled policy goes to is the affair of the resolver. -/
inductive Dialled where
  | unchecked (addr : String)
  | addrs (ips : List Addr)
  deriving DecidableEq

def ssrfSafeDial (lib : NetLib) (policy : SSRFPolicy) (answer : Lookup) (connects : Addr → Bool)
    (network addr : String) : Go Dialled := do
  if network ≠ "tcp" ∧ network ≠ "tcp4" ∧ network ≠ "tcp6" then
    fail s!"unsupported network \"{network}\""
  else do
    let (host, port) ← wrap "split dial address" (ofCall (lib.splitHostPort addr))
    if policy.disabled then .ok (.unchecked addr)
    else do
      validateFetchPort port
      let allowed := isHostAllowed lib host port policy.allowedHosts
      if allowed then .ok () else validateFetchHostSyntax host policy
      let ips ← resolveFetchHost answer host
      if ips.length = 0 then fail s!"host \"{host}\" resolved to no addresses"
      else do
        if allowed then .ok ()
        else forEach ips fun ip =>
          wrap s!"unsafe resolved address {ip.text} for \"{host}\"" (validateFetchIP ip policy)
        .ok (.addrs (dialEach connects ips))

/-- `http.Client` of `NewSSRFProtectedHTTPClient` with its policy and the original headers. -/
structure Client where
  lib : NetLib
  policy : SSRFPolicy
  originalHeaders : Header

def Client.checkRedirect (client : Client) (u : Url) (via : Nat) : Go Unit :=
  if client.policy.maxRedirects ≤ via then fail "too many redirects"
  else do
    let _ ← validateClientFetchURL client.lib (client.lib.urlString u) client.originalHeaders
      client.policy
    .ok ()

structure Fetching where
  /-- The request that is being made, and how many were made before it. -/
  request : Option (Url × Nat)
  dialled : List Dialled
  deriving DecidableEq

inductive Event where
  /-- `Do` of a request. -/
  | start (u : Url)
  /-- The transport wants a connection for the request; what the resolver answers and which
  addresses connect. -/
  | dial (answer : Lookup) (connects : Addr → Bool)
  /-- A response that redirects. -/
  | redirect (location : String)

def Client.step (client : Client) (st : Fetching) : Event → Option Fetching
  | .start u => some { st with request := some (u, 0) }
  | .dial answer connects => do
      let (u, _) ← st.request
      match ssrfSafeDial client.lib client.policy answer connects "tcp"
          (client.lib.canonicalAddr u) with
      | .error _ => some { st with request := none }
      | .ok dialled => some { st with dialled := st.dialled ++ [dialled] }
  | .redirect location => do
      let (u, before) ← st.request
      match client.lib.resolveReference u location with
      | .error _ => some { st with request := none }
      | .ok next =>
        match client.checkRedirect next (before + 1) with
        | .error _ => some { st with request := none }
        | .ok () => some { st with request := some (next, before + 1) }

def Client.idle : Fetching := ⟨none, []⟩

end Curio.RobustHttp
