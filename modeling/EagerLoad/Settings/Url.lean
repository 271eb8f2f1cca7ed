import EagerLoad.DomainName.Basic
import EagerLoad.Settings.Address

/-!
# The check of connection URLs

What a URL standard refuses in an absolute URL: a missing scheme, a missing host, and malformed hosts
and ports. Paths, queries and fragments are never refused. Some schemes are special: they need a host,
take backslashes for slashes, and read hosts as domain names or addresses.
-/

namespace EagerLoad

/-- Why a URL is refused. -/
inductive UrlFault where
  | noScheme
  | emptyHost
  | invalidPort
  | invalidVersion6
  | invalidVersion4
  | invalidDomainCharacter
  | invalidDomainName
  deriving DecidableEq

/-- The text shown for a refused URL. -/
def UrlFault.message : UrlFault → String
  | .noScheme => "relative URL without a base"
  | .emptyHost => "empty host"
  | .invalidPort => "invalid port number"
  | .invalidVersion6 => "invalid IPv6 address"
  | .invalidVersion4 => "invalid IPv4 address"
  | .invalidDomainCharacter => "invalid domain character"
  | .invalidDomainName => "invalid international domain name"

namespace Url

/-- How the rest of a URL is read, by its scheme. -/
inductive SchemeKind where
  | file
  /-- A scheme that always has a host. -/
  | special
  | other
  deriving DecidableEq

/-- The kind of a scheme in lower case. -/
def SchemeKind.of (scheme : String) : SchemeKind :=
  if scheme = "file" then .file
  else if ["http", "https", "ws", "wss", "ftp"].contains scheme then .special
  else .other

/-- The characters that count: those at either end up to the blank, and tabs and line ends anywhere,
are left out. -/
def significant (url : String) : List Char :=
  (Text.trimBy (fun c => c.toNat ≤ 0x20) url.toList).filter fun c =>
    c ≠ '\t' && c ≠ '\n' && c ≠ '\r'

/-- Whether a character may stand in a scheme after its first letter. -/
def isSchemeChar (c : Char) : Bool :=
  c.isAlpha || c.isDigit || c = '+' || c = '-' || c = '.'

/-- The scheme in lower case and what follows its colon. -/
def splitScheme (cs : List Char) : Option (String × List Char) :=
  let scheme := cs.takeWhile isSchemeChar
  match scheme, cs.drop scheme.length with
  | first :: _, ':' :: rest =>
    if first.isAlpha then some (String.ofList (scheme.map Char.toLower), rest) else none
  | _, _ => none

/-- Whether a character ends the authority of a URL. -/
def endsAuthority (special : Bool) (c : Char) : Bool :=
  c = '/' || c = '?' || c = '#' || (special && c = '\\')

/-- What stands before the last `@` of the authority, if there is one, and what follows it. -/
def splitUserInfo (special : Bool) (cs : List Char) : Option (List Char) × List Char :=
  let authority := cs.takeWhile fun c => !endsAuthority special c
  let beyond := cs.drop authority.length
  let hostPart := (authority.reverse.takeWhile (· ≠ '@')).reverse
  if hostPart.length < authority.length then
    (some (authority.take (authority.length - hostPart.length - 1)), hostPart ++ beyond)
  else (none, cs)

/-- The host, which ends before a colon outside brackets or with the authority, and what follows it. -/
def splitHost (special inside : Bool) : List Char → List Char × List Char
  | [] => ([], [])
  | c :: rest =>
    if (c = ':' && !inside) || endsAuthority special c then ([], c :: rest)
    else
      let (host, beyond) := splitHost special (c = '[' || (inside && c ≠ ']')) rest
      (c :: host, beyond)

/-- The characters that no host may hold. -/
def isForbiddenInHost (c : Char) : Bool :=
  ['\x00', '\t', '\n', '\r', ' ', '#', '/', ':', '<', '>', '?', '@', '[', '\\', ']', '^', '|'].contains c

/-- The bytes of a host, with percent escapes replaced by the bytes that they stand for, after `skip`
characters that belong to an escape. -/
def hostBytes : Nat → List Char → List UInt8
  | _, [] => []
  | skip + 1, _ :: rest => hostBytes skip rest
  | 0, c :: rest =>
    match c, rest with
    | '%', high :: low :: _ =>
      if Text.isHexDigit high && Text.isHexDigit low then
        (Text.natOfDigits 16 [high, low]).toUInt8 :: hostBytes 2 rest
      else String.utf8EncodeChar c ++ hostBytes 0 rest
    | _, _ => String.utf8EncodeChar c ++ hostBytes 0 rest

/-- The characters of a host without percent escapes, if the bytes are those of a text. -/
def unescaped? (host : List Char) : Option (List Char) :=
  (String.fromUTF8? ⟨(hostBytes 0 host).toArray⟩).map String.toList

/-- Check an address between brackets. -/
def checkBracketed (host : List Char) : Except UrlFault Unit :=
  if host.getLast? = some ']' && Address.isVersion6 (host.tail.dropLast) then .ok ()
  else .error .invalidVersion6

/-- Check the host of a URL whose scheme is not special. -/
def checkOpaqueHost (host : List Char) : Except UrlFault Unit :=
  if host.head? = some '[' then checkBracketed host
  else if host.any isForbiddenInHost then .error .invalidDomainCharacter
  else .ok ()

/-- Check a host as a domain name or an address. -/
def checkDomain (host : List Char) : Except UrlFault Unit :=
  if host.head? = some '[' then checkBracketed host
  else
    match (unescaped? host).bind DomainName.labels? with
    | none => .error .invalidDomainName
    | some labels =>
      let domain := ['.'].intercalate labels
      if domain.isEmpty then .error .emptyHost
      else if Address.endsInNumber domain && !Address.isVersion4 domain then .error .invalidVersion4
      else .ok ()

/-- Check the port behind a colon, which may be missing. -/
def checkPort (cs : List Char) : Except UrlFault Unit :=
  let digits := cs.takeWhile Char.isDigit
  if 65535 < Text.natOfDigits 10 digits then .error .invalidPort
  else match cs.drop digits.length with
    | [] => .ok ()
    | c :: _ => if endsAuthority true c then .ok () else .error .invalidPort

/-- Check what follows the two slashes of an authority. -/
def checkAuthority (special : Bool) (cs : List Char) : Except UrlFault Unit := do
  let (userInfo, rest) := splitUserInfo special cs
  if userInfo = some [] && rest.head?.any (endsAuthority special) then throw .emptyHost
  let (host, rest) := splitHost special false rest
  if special then
    if host.isEmpty then throw .emptyHost
    checkDomain host
  else checkOpaqueHost host
  if host.isEmpty && rest.head? = some ':' then throw .emptyHost
  if rest.head? = some ':' then checkPort rest.tail
  if host.isEmpty && !(userInfo = none || userInfo = some [] || userInfo = some [':']) then
    throw .emptyHost

/-- Whether a character is a slash or a backslash. -/
def isSlash (c : Char) : Bool :=
  c = '/' || c = '\\'

/-- Whether a host is in fact a drive letter. -/
def isDriveLetter : List Char → Bool
  | [letter, mark] => letter.isAlpha && (mark = ':' || mark = '|')
  | _ => false

/-- Check what follows the colon of a file URL: its host, if two slashes announce one. -/
def checkFile (cs : List Char) : Except UrlFault Unit :=
  match cs with
  | a :: b :: rest =>
    if isSlash a && isSlash b then
      let host := rest.takeWhile fun c => !endsAuthority true c
      if host.isEmpty || isDriveLetter host then .ok () else checkDomain host
    else .ok ()
  | _ => .ok ()

/-- Refuse a URL that is not absolute or whose host or port is malformed. -/
def check (url : String) : Except UrlFault Unit :=
  match splitScheme (significant url) with
  | none => .error .noScheme
  | some (scheme, rest) =>
    match SchemeKind.of scheme with
    | .file => checkFile rest
    | .special => checkAuthority true (rest.dropWhile isSlash)
    | .other => match rest with
      | '/' :: '/' :: rest => checkAuthority false rest
      | _ => .ok ()

end Url

end EagerLoad
