import IsolatedEnv.Foundation.IpAddress

/-!
# The nginx server block

`nginx.conf` up to the choice of an upstream.  nginx decodes and normalizes the path of a
request, takes the location with the longest matching prefix and checks the access rules
there.  `proxy_pass` without a path of its own hands the path on as the client sent it.
-/

namespace IsolatedEnv.Proxy

open IsolatedEnv.Foundation

/-! ## The path that locations are matched against -/

/-- The character of `%ab`. -/
def escaped (a b : Char) : Option Char :=
  (readDigit 16 a).bind fun high => (readDigit 16 b).map fun low =>
    Char.ofNat (high * 16 + low)

/--
nginx refuses a stray `%`, an escaped NUL, and a blank or a control character that is not
escaped.  Bytes are the characters below 256.
-/
def decodePath : List Char → Option (List Char)
  | [] => some []
  | '%' :: a :: b :: cs =>
      (escaped a b).bind fun c =>
        if c = '\x00' then none else (decodePath cs).map fun tail => c :: tail
  | '%' :: _ => none
  | c :: cs =>
      if c ≤ ' ' ∨ c = '\x7f' then none else (decodePath cs).map fun tail => c :: tail

/-- `.` and empty segments are dropped, `..` drops the segment before it. -/
def resolveDots : List (List Char) → List (List Char) → Option (List (List Char))
  | stack, [] => some stack.reverse
  | stack, segment :: segments =>
      if segment = [] || segment = ['.'] then resolveDots stack segments
      else if segment = ['.', '.'] then
        match stack with
        | [] => none
        | _ :: stack => resolveDots stack segments
      else resolveDots (segment :: stack) segments

def normalizeUri : List Char → Option (List Char)
  | '/' :: cs =>
      let segments := cs.splitOn '/'
      (resolveDots [] segments).map fun resolved =>
        let directory := segments.getLast? ∈ [some [], some ['.'], some ['.', '.']]
        '/' :: ['/'].intercalate resolved ++ if directory ∧ resolved ≠ [] then ['/'] else []
  | _ => none

/-! ## Locations -/

inductive Upstream where
  | backend
  | frontend
  | authentik
  deriving DecidableEq, Repr

inductive AccessRule where
  | allow (network : IpNetwork)
  | denyAll
  deriving DecidableEq, Repr

structure Location where
  pattern : List Char
  access : List AccessRule
  proxyPass : Upstream
  deriving DecidableEq, Repr

def metricsNetworks : List IpNetwork :=
  [.v4 0xac100000 12, .v4 0x0a000000 8, .v4 0x7f000001 32]

/--
The static assets below `/`, a nested location, go to the frontend as well.  The rate
limits of `/api/` and `/application/` are left out.
-/
def locations : List Location := [
  ⟨"/api/".toList, [], .backend⟩,
  ⟨"/health/".toList, [], .backend⟩,
  ⟨"/metrics".toList, metricsNetworks.map .allow ++ [.denyAll], .backend⟩,
  ⟨"/if/".toList, [], .authentik⟩,
  ⟨"/application/".toList, [], .authentik⟩,
  ⟨"/.well-known/openid-configuration".toList, [], .authentik⟩,
  ⟨"/outpost.goauthentik.io/".toList, [], .authentik⟩,
  ⟨"/".toList, [], .frontend⟩]

def longer (best : Option Location) (location : Location) : Option Location :=
  match best with
  | some other => if other.pattern.length < location.pattern.length then some location else best
  | none => some location

def findLocation (uri : List Char) : Option Location :=
  (locations.filter fun location => location.pattern.isPrefixOf uri).foldl longer none

/-- The first rule that matches decides. -/
def allowed (client : IpAddress) : List AccessRule → Bool
  | [] => true
  | .allow network :: rules => network.contains client || allowed client rules
  | .denyAll :: _ => false

def clientMaxBodySize : Nat := 10 * 1024 * 1024

/--
Where a request is sent; `none` when nginx answers itself.  The path of a location without
its final slash is redirected to the location.
-/
def forward (client : IpAddress) (target : List Char) (bodyLength : Nat) : Option Upstream :=
  ((decodePath target).bind normalizeUri).bind fun uri =>
    if locations.any fun location => location.pattern = uri ++ ['/'] then none
    else
      (findLocation uri).bind fun location =>
        if allowed client location.access && bodyLength ≤ clientMaxBodySize then
          some location.proxyPass
        else none

theorem allowed_denyAll (client : IpAddress) (networks : List IpNetwork) :
    allowed client (networks.map .allow ++ [.denyAll]) =
      networks.any fun network => network.contains client := by
  induction networks with
  | nil => rfl
  | cons network networks ih =>
      rw [List.map_cons, List.cons_append, allowed, ih, List.any_cons]

/-- What is matched against the locations is the path itself if that is already normal. -/
theorem forward_of_normal {target uri : List Char} {location : Location}
    (hdecode : decodePath target = some uri) (hnormal : normalizeUri uri = some uri)
    (hredirect : (locations.any fun location => location.pattern = uri ++ ['/']) = false)
    (hlocation : findLocation uri = some location) (client : IpAddress) (bodyLength : Nat) :
    forward client target bodyLength =
      if allowed client location.access && bodyLength ≤ clientMaxBodySize then
        some location.proxyPass
      else none := by
  rw [forward, hdecode, Option.bind_some, hnormal, Option.bind_some, hredirect,
    if_neg Bool.false_ne_true, hlocation, Option.bind_some]

end IsolatedEnv.Proxy
