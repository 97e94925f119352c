import ClaimRush.Lib.IpAddress
import ClaimRush.Lib.Outcome

/-!
# Outbound URLs

The checks that a URL passes before an agent calls it: its text, protocol and
credentials, the allow and deny lists, and the address ranges; and the same for the
addresses that its host resolves to.
-/

namespace ClaimRush.Agents

/-- `String.prototype.toLowerCase`, of which the behaviour on ASCII is used. -/
class LowerCase where
  toLowerCase : Text → Text
  ascii (s : Text) (h : ∀ c ∈ s, c.toNat < 128) : toLowerCase s = s.map Char.toLower

export LowerCase (toLowerCase)

/-- A property of an object: absent, present and `undefined`, or present. -/
abbrev Property (α : Type) := Option (Option α)

/-- The property in `{...base, ...overrides}`. -/
def spread {α : Type} (base : α) (override : Property α) : Option α := override.getD (some base)

structure OutboundUrlPolicy where
  allowedProtocols : Property (List Text) := none
  allowedHosts : Property (List Text) := none
  deniedHosts : Property (List Text) := none
  allowCredentials : Property Bool := none
  allowLoopback : Property Bool := none
  allowPrivateIps : Property Bool := none
  allowLinkLocal : Property Bool := none
  resolveDns : Property Bool := none

namespace DEFAULT_OUTBOUND_URL_POLICY

def allowedProtocols : List Text := ["https:".toList, "http:".toList]

def allowedHosts : List Text := []

def deniedHosts : List Text :=
  ["169.254.169.254".toList, "169.254.170.2".toList, "100.100.100.200".toList,
    "metadata.google.internal".toList, "metadata".toList, "fd00:ec2::254".toList,
    "0.0.0.0".toList, "::".toList]

def allowCredentials : Bool := false

def allowLoopback : Bool := true

def allowPrivateIps : Bool := true

def allowLinkLocal : Bool := false

end DEFAULT_OUTBOUND_URL_POLICY

/-! ## Hostnames -/

/-- White space and line terminators, as `trim` removes them. -/
def isSpace (c : Char) : Bool :=
  [9, 10, 11, 12, 13, 32, 0xa0, 0x1680, 0x2028, 0x2029, 0x202f, 0x205f, 0x3000, 0xfeff].contains
    c.toNat || 0x2000 ≤ c.toNat && c.toNat ≤ 0x200a

def trim (s : Text) : Text := (s.dropWhile isSpace).rdropWhile isSpace

section

variable [LowerCase]

def normalizeHostname (raw : Text) : Text :=
  let h := toLowerCase (trim raw)
  let h := if h.head? = some '[' ∧ h.getLast? = some ']' then h.tail.dropLast else h
  let h := h.takeWhile (· ≠ '%')
  h.rdropWhile (· = '.')

def uniqNormalizedHosts (list : Option (List Text)) : List Text :=
  (list.getD []).foldl (fun out v ↦
    let s := normalizeHostname v
    if s = [] ∨ s ∈ out then out else out ++ [s]) []

end

/-! ## IPv4 -/

/-- `Number(p)` for a text of digits. -/
def number (p : Text) : ℕ := Nat.ofDigitChars 10 p 0

def isIpv4Literal (host : Text) : Bool :=
  let parts := host.splitOn '.'
  host ≠ [] && host.all (fun c ↦ c.isDigit || c = '.') && parts.length = 4 &&
    parts.all fun p ↦ p ≠ [] && !(1 < p.length && p.head? = some '0') && number p ≤ 255

/-- The host is an IPv4 literal, so it has four parts. -/
def ipv4ToInt (host : Text) : ℕ :=
  match (host.splitOn '.').map number with
  | [a, b, c, d] => ((a <<< 24) % 2 ^ 32 + (b <<< 16) + (c <<< 8) + d) % 2 ^ 32
  | _ => 0

def inIpv4Cidr (host base : Text) (maskBits : ℕ) : Bool :=
  isIpv4Literal host && isIpv4Literal base &&
    let mask := if maskBits = 0 then 0 else (0xffffffff <<< (32 - maskBits)) % 2 ^ 32
    (ipv4ToInt host &&& mask) = (ipv4ToInt base &&& mask)

def parseIpv4Bytes (host : Text) : Option (List ℕ) :=
  if ¬ isIpv4Literal host then none
  else
    let parts := (host.splitOn '.').map number
    if parts.length ≠ 4 then none
    else if parts.any (255 < ·) then none else some parts

/-! ## IPv6 -/

def parseHextet (h : Text) : Option ℕ :=
  if h = [] ∨ 4 < h.length then none
  else if ¬ h.all Char.isHexDigit then none
  else if 0xffff < Ip.hexNumber h then none else some (Ip.hexNumber h)

/-- `h.split('::')`. -/
def splitColons : Text → List Text
  | [] => [[]]
  | ':' :: ':' :: s => [] :: splitColons s
  | c :: s => (splitColons s).modifyHead (c :: ·)

def colonParts (part : Text) : List Text :=
  if part = [] then [] else (part.splitOn ':').filter (· ≠ [])

/-- The optional IPv4 tail is taken off the parts. -/
def popIpv4 (parts : List Text) : Option (List Text × Option (List ℕ)) :=
  match parts.getLast? with
  | some last =>
      if '.' ∈ last then (parseIpv4Bytes last).map fun bytes ↦ (parts.dropLast, some bytes)
      else some (parts, none)
  | none => some (parts, none)

def ipv4Hextets (ipv4Bytes : Option (List ℕ)) : List ℕ :=
  match ipv4Bytes with
  | some bytes =>
      [((bytes.getD 0 0 <<< 8) ||| bytes.getD 1 0) &&& 0xffff,
        ((bytes.getD 2 0 <<< 8) ||| bytes.getD 3 0) &&& 0xffff]
  | none => []

def bytesOf (hextets : List ℕ) : List ℕ :=
  hextets.flatMap fun n ↦ [(n >>> 8) &&& 0xff, n &&& 0xff]

section

variable [LowerCase]

def parseIpv6ToBytes (host : Text) : Option (List ℕ) := do
  let h := toLowerCase host
  guard (':' ∈ h)
  let parts := splitColons h
  guard (parts.length ≤ 2)
  let hasCompression := decide (parts.length = 2)
  let headParts := colonParts (parts.getD 0 [])
  let tailParts := if hasCompression then colonParts (parts.getD 1 []) else []
  let (headParts, tailParts, ipv4Bytes) ←
    if hasCompression then (popIpv4 tailParts).map fun r ↦ (headParts, r.1, r.2)
    else (popIpv4 headParts).map fun r ↦ (r.1, tailParts, r.2)
  let totalHextets := headParts.length + tailParts.length + (if ipv4Bytes.isSome then 2 else 0)
  guard (if hasCompression then totalHextets ≤ 8 else totalHextets = 8)
  let missing := if hasCompression then 8 - totalHextets else 0
  let head ← headParts.mapM parseHextet
  let tail ← tailParts.mapM parseHextet
  let hextets := head ++ List.replicate missing 0 ++ tail ++ ipv4Hextets ipv4Bytes
  guard (hextets.length = 8)
  pure (bytesOf hextets)

end

def isIpv4MappedIpv6 (bytes : List ℕ) : Bool :=
  (bytes.take 10).all (· = 0) && bytes.getD 10 0 = 0xff && bytes.getD 11 0 = 0xff

def ipv4FromMapped (bytes : List ℕ) : Text :=
  Ip.dotted (bytes.getD 12 0) (bytes.getD 13 0) (bytes.getD 14 0) (bytes.getD 15 0)

/-! ## Ranges -/

section

variable [LowerCase]

def isLoopback (host : Text) : Bool :=
  let h := toLowerCase host
  h = "localhost".toList || isIpv4Literal h && inIpv4Cidr h "127.0.0.0".toList 8 ||
    match parseIpv6ToBytes h with
    | none => false
    | some v6 =>
        if isIpv4MappedIpv6 v6 then inIpv4Cidr (ipv4FromMapped v6) "127.0.0.0".toList 8
        else (v6.take 15).all (· = 0) && v6.getD 15 0 = 1

def isLinkLocal (host : Text) : Bool :=
  let h := toLowerCase host
  isIpv4Literal h && inIpv4Cidr h "169.254.0.0".toList 16 ||
    match parseIpv6ToBytes h with
    | none => false
    | some v6 =>
        if isIpv4MappedIpv6 v6 then inIpv4Cidr (ipv4FromMapped v6) "169.254.0.0".toList 16
        else v6.getD 0 0 = 0xfe && v6.getD 1 0 &&& 0xc0 = 0x80

/-- The private IPv4 ranges, the last one CGNAT. -/
def isPrivateIpv4 (h : Text) : Bool :=
  inIpv4Cidr h "10.0.0.0".toList 8 || inIpv4Cidr h "172.16.0.0".toList 12 ||
    inIpv4Cidr h "192.168.0.0".toList 16 || inIpv4Cidr h "100.64.0.0".toList 10

def isPrivateIp (host : Text) : Bool :=
  let h := toLowerCase host
  if isIpv4Literal h then isPrivateIpv4 h
  else
    match parseIpv6ToBytes h with
    | none => false
    | some v6 =>
        if isIpv4MappedIpv6 v6 then isPrivateIpv4 (ipv4FromMapped v6)
        else v6.all (· = 0) || v6.getD 0 0 &&& 0xfe = 0xfc

end

/-! ## Validation -/

structure Url where
  protocol : Text
  username : Text
  password : Text
  hostname : Text
deriving DecidableEq

/-- What the checks call: `new URL`, the addresses that a lookup within its deadline
answers, and the redaction of error texts. -/
structure Env where
  newUrl : Text → Option Url
  lookup : Text → Except Text (List Text)
  safeErrorString : Text → Text

section

variable [LowerCase]

/-- The IPv4 address of an IPv4-mapped IPv6 host. -/
def mappedV4 (host : Text) : Option Text :=
  (parseIpv6ToBytes host).bind fun v6 ↦
    if isIpv4MappedIpv6 v6 then some (ipv4FromMapped v6) else none

variable (env : Env) (raw ctx : Text) (policy : Option OutboundUrlPolicy)

def parseAndValidateOutboundUrl : Except Text Url := do
  let p := policy.getD {}
  let allowedHosts :=
    uniqNormalizedHosts (spread DEFAULT_OUTBOUND_URL_POLICY.allowedHosts p.allowedHosts)
  let deniedHosts := uniqNormalizedHosts (some (DEFAULT_OUTBOUND_URL_POLICY.deniedHosts ++
    (spread DEFAULT_OUTBOUND_URL_POLICY.deniedHosts p.deniedHosts).getD []))
  revertIf (trim raw = []) (ctx ++ ": expected non-empty URL string".toList)
  revertIf ('\r' ∈ raw ∨ '\n' ∈ raw) (ctx ++ ": URL contains invalid newline characters".toList)
  let u ← (env.newUrl raw).elim (.error (ctx ++ ": invalid URL".toList)) .ok
  let allowedProtocols ←
    (spread DEFAULT_OUTBOUND_URL_POLICY.allowedProtocols p.allowedProtocols).elim
      (.error "Cannot read properties of undefined (reading 'includes')".toList) .ok
  revertIf (u.protocol ∉ allowedProtocols)
    (ctx ++ ": unsupported URL protocol '".toList ++ u.protocol ++ "' (allowed: ".toList ++
      ", ".toList.intercalate allowedProtocols ++ ")".toList)
  revertIf (spread DEFAULT_OUTBOUND_URL_POLICY.allowCredentials p.allowCredentials ≠ some true ∧
      (u.username ≠ [] ∨ u.password ≠ []))
    (ctx ++ ": URL must not include credentials (user:pass@host)".toList)
  let host := normalizeHostname u.hostname
  revertIf (host = []) (ctx ++ ": URL is missing a hostname".toList)
  let allowOk := allowedHosts = [] ∨ host ∈ allowedHosts ∨ ∃ v4 ∈ mappedV4 host, v4 ∈ allowedHosts
  revertIf (¬ allowOk)
    (ctx ++ ": hostname '".toList ++ env.safeErrorString host ++ "' is not in the allowlist".toList)
  let denyHit := host ∈ deniedHosts ∨ ∃ v4 ∈ mappedV4 host, v4 ∈ deniedHosts
  revertIf denyHit
    (ctx ++ ": hostname '".toList ++ env.safeErrorString host ++
      "' is blocked by denylist".toList)
  revertIf (spread DEFAULT_OUTBOUND_URL_POLICY.allowLoopback p.allowLoopback ≠ some true ∧
      isLoopback host = true)
    (ctx ++ ": loopback host '".toList ++ env.safeErrorString host ++ "' is not allowed".toList)
  revertIf (spread DEFAULT_OUTBOUND_URL_POLICY.allowLinkLocal p.allowLinkLocal ≠ some true ∧
      isLinkLocal host = true)
    (ctx ++ ": link-local host '".toList ++ env.safeErrorString host ++ "' is not allowed".toList)
  revertIf (spread DEFAULT_OUTBOUND_URL_POLICY.allowPrivateIps p.allowPrivateIps ≠ some true ∧
      isPrivateIp host = true)
    (ctx ++ ": private IP host '".toList ++ env.safeErrorString host ++ "' is not allowed".toList)
  return u

def dnsLookupAll (host : Text) : Except Text (List Text) :=
  (env.lookup host).map (·.filter (· ≠ []))

/-- The checks of one resolved address. -/
def checkResolved (host : Text) (addr : Text) : Except Text Unit := do
  let p := policy.getD {}
  let deniedHosts := uniqNormalizedHosts (some (DEFAULT_OUTBOUND_URL_POLICY.deniedHosts ++
    ((policy.bind (·.deniedHosts)).getD none).getD []))
  let ip := normalizeHostname addr
  if ip = [] then return ()
  let where_ := ctx ++ ": resolved IP '".toList ++ ip ++ "' for host '".toList ++
    env.safeErrorString host
  revertIf (ip ∈ deniedHosts) (where_ ++ "' is blocked by denylist".toList)
  revertIf (spread DEFAULT_OUTBOUND_URL_POLICY.allowLoopback p.allowLoopback ≠ some true ∧
      isLoopback ip = true)
    (where_ ++ "' is loopback and not allowed".toList)
  revertIf (spread DEFAULT_OUTBOUND_URL_POLICY.allowLinkLocal p.allowLinkLocal ≠ some true ∧
      isLinkLocal ip = true)
    (where_ ++ "' is link-local and not allowed".toList)
  revertIf (spread DEFAULT_OUTBOUND_URL_POLICY.allowPrivateIps p.allowPrivateIps ≠ some true ∧
      isPrivateIp ip = true)
    (where_ ++ "' is private and not allowed".toList)

def parseAndValidateOutboundUrlWithDns : Except Text Url := do
  let u ← parseAndValidateOutboundUrl env raw ctx policy
  let shouldResolve := policy.bind (·.resolveDns) ≠ some (some false)
  let host := normalizeHostname u.hostname
  let isIpLiteral := isIpv4Literal host = true ∨ (parseIpv6ToBytes host).isSome
  if ¬ shouldResolve ∨ host = "localhost".toList ∨ isIpLiteral then return u
  let resolved ← (dnsLookupAll env host).mapError fun err ↦
    ctx ++ ": DNS lookup failed for host '".toList ++ env.safeErrorString host ++ "': ".toList ++
      env.safeErrorString err
  revertIf (resolved = [])
    (ctx ++ ": DNS lookup returned no addresses for host '".toList ++ env.safeErrorString host ++
      "'".toList)
  resolved.forM (checkResolved env ctx policy host)
  return u

end

end ClaimRush.Agents
