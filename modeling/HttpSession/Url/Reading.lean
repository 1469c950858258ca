import HttpSession.Text.Integer
import HttpSession.Url.Path

/-!
# Reading URLs

The parser of the URL Standard. `read` takes an absolute URL, `join` a reference without a scheme,
relative to a base. Controls and spaces around the text do not count, nor do tabs and line breaks inside
it, but for one that cuts the drive of a file off from what follows.
-/

namespace HttpSession.Url

def trimmed (t : Text) : Text :=
  let outside (c : Char) : Bool := c.toNat ≤ 0x20
  ((t.dropWhile outside).reverse.dropWhile outside).reverse

def cutScheme? (t : Text) : Option (Text × Text) := do
  let (scheme, rest) ← t.cut? (· = ':')
  let valid (c : Char) : Bool := c.isAlphanum || c = '+' || c = '-' || c = '.'
  if (scheme.head?.map Char.isAlpha).getD false && scheme.all valid then some (scheme.lower, rest)
  else none

structure Tail where
  path : Text
  query : Option Text
  fragment : Option Text

def cutTail (special : Bool) (t : Text) : Tail :=
  let encode (set : Char → Bool) (t : Text) : Text := percentEncode set (withoutBreaks t)
  let (t, fragment) :=
    match t.cut? (· = '#') with
    | some (before, after) => (before, some (encode inFragment after))
    | none => (t, none)
  match t.cut? (· = '?') with
  | some (before, after) => ⟨before, some (encode (inQuery special) after), fragment⟩
  | none => ⟨t, none, fragment⟩

/-- Puts a URL together from what stands before its path and what is still to be read: the path goes
on from `directories`. -/
def assemble (scheme : Text) (authority : Option Authority) (directories : Directories) (t : Text) :
    Url :=
  let special := isSpecial scheme
  let file : Bool := scheme = "file"
  let tail := cutTail special t
  let reached := walk file directories false (segments special tail.path)
  ⟨scheme, authority, reached.path file, tail.query, tail.fragment⟩

/-! ## Authorities -/

def cutUserinfo (t : Text) : Option Text × Text :=
  match t.cutLast? (· = '@') with
  | some (userinfo, host) => (some userinfo, host)
  | none => (none, t)

/-- Splits a host from the colon before its port; colons inside square brackets belong to the host. -/
def cutPort : Bool → Text → Text × Option Text
  | _, [] => ([], none)
  | bracketed, c :: rest =>
    if c = ':' ∧ ¬ bracketed then ([], some rest)
    else
      let (host, port) := cutPort (if c = '[' then true else if c = ']' then false else bracketed) rest
      (c :: host, port)

def readPort (digits : Text) : Except Error (Option Nat) :=
  if digits = [] then .ok none
  else if ¬ digits.all Char.isDigit then .error .port
  else
    match Text.Width.port.readNat? digits with
    | some port => .ok (some port)
    | none => .error .port

def readHostPort (scheme t : Text) : Except Error (Option Host × Option Nat) := do
  let special := isSpecial scheme
  let (hostText, portText) := cutPort false t
  if special ∧ hostText = [] then throw .emptyHost
  let host ← if special then Host.readSpecial hostText else Host.readOther hostText
  if hostText = [] ∧ portText.isSome then throw .emptyHost
  let port ← readPort (portText.getD [])
  let port := if port = defaultPort? scheme then none else port
  .ok (if hostText = [] then none else some host, port)

def readAuthority (scheme t : Text) : Except Error Authority := do
  let (userinfo, hostPort) := cutUserinfo t
  let (username, password) := Text.cutOr (· = ':') (userinfo.getD [])
  let (host, port) ← readHostPort scheme hostPort
  let authority : Authority :=
    ⟨percentEncode inUserinfo username, percentEncode inUserinfo password, host, port⟩
  if host = none ∧ authority.credentials ≠ [] then throw .emptyHost
  .ok authority

/-- What a backslash behind a port begins, which is no more of the authority in any scheme. -/
def behindPort (written : Text) : Text :=
  ((cutPort false (cutUserinfo written).2).2.getD []).dropWhile (· ≠ '\\')

/-- Reads what follows an authority. Without a slash, a special scheme has the path of the root and
any other an empty one; a backslash that is no slash begins the first name of a path. -/
def readBehindAuthority (scheme : Text) (authority : Authority) (t : Text) : Url :=
  let special := isSpecial scheme
  let rooted := assemble scheme (some authority) []
  match t with
  | c :: after =>
    if isSlash special c then rooted after
    else if special ∨ c = '\\' then rooted t
    else { rooted t with path := [] }
  | [] => if special then rooted [] else { rooted [] with path := [] }

/-- Reads what follows the two slashes before an authority. An at sign alone cannot be followed by a
path. -/
def readBehindSlashes (scheme t : Text) : Except Error Url := do
  let ends := endsAuthority (isSpecial scheme)
  let written := t.takeWhile fun c => ¬ ends c
  let rest := t.dropWhile fun c => ¬ ends c
  if written = ['@'] ∧ rest ≠ [] then throw .emptyHost
  let behind := behindPort written
  let authority ← readAuthority scheme (written.take (written.length - behind.length))
  .ok (readBehindAuthority scheme authority (behind ++ rest))

/-! ## Files -/

def readFileHost (t : Text) : Except Error (Option Host) :=
  if t = [] then .ok none
  else (Host.readSpecial t).map fun host => if host = .name "localhost" then none else some host

def fileOn (host : Option Host) (directories : Directories) (t : Text) : Url :=
  assemble "file" (some ⟨[], [], host, none⟩) directories t

/-- The file at the root of a host, unless its path meets a drive, which stands for the host. -/
def fileOnUnlessDrive (host : Host) (t : Text) : Url :=
  let met := (walk true [] false (segments true (cutTail true t).path)).onDrive
  fileOn (if met then none else some host) [] t

def cutSlash? (t : Text) : Option Text :=
  match t.dropWhile isBreak with
  | c :: rest => if isSlash true c then some rest else none
  | [] => none

/-- Reads what follows the two slashes before the host of a file. A drive is no host; a host ends with a
slash, which belongs to the path where there is none. -/
def readFileBehindSlashes (t : Text) : Except Error Url := do
  let ends := endsAuthority true
  let hostText := withoutBreaks (t.takeWhile fun c => ¬ ends c)
  let after := t.dropWhile fun c => ¬ ends c
  if isDrive hostText then .ok (fileOn none [] t)
  else
    match ← readFileHost hostText with
    | none => .ok (fileOn none [] after)
    | some host => .ok (fileOnUnlessDrive host ((cutSlash? after).getD after))

def readFileUrl (t : Text) : Except Error Url :=
  match cutSlash? t with
  | none => .ok (fileOn none [] t)
  | some rest =>
    match cutSlash? rest with
    | none => .ok (fileOn none [] rest)
    | some rest => readFileBehindSlashes rest

/-- The file at the root of another one: at the root of its drive, if it is on one, and else of its
host. -/
def fileAtRootOf (base : Url) (t : Text) : Url :=
  match Text.pieces '/' (base.path.drop 1) with
  | first :: _ =>
    if isReadDrive first then fileOn none [first] t
    else fileOn (base.authority.bind (·.host)) [] t
  | [] => fileOn none [] t

/-- Reads a reference that is neither empty nor only a query or fragment, relative to a file. A drive at
its beginning leaves the host. -/
def joinFile (base : Url) (t : Text) : Except Error Url :=
  match cutSlash? t with
  | none =>
    if beginsWithDrive (withoutBreaks t) then .ok (fileOn none [] t)
    else
      let tail := cutTail true t
      let reached := walkFrom true base.path (segments true tail.path)
      .ok { base with path := reached.path true, query := tail.query, fragment := tail.fragment }
  | some rest =>
    match cutSlash? rest with
    | some rest => readFileBehindSlashes rest
    | none =>
      if beginsWithDrive (withoutBreaks rest) then .ok (fileOn none [] rest)
      else .ok (fileAtRootOf base rest)

/-! ## Absolute URLs and references -/

def readOtherUrl (scheme t : Text) : Except Error Url :=
  match t with
  | '/' :: '/' :: rest => readBehindSlashes scheme rest
  | '/' :: rest => .ok (assemble scheme none [] rest)
  | _ =>
    let tail := cutTail false t
    .ok ⟨scheme, none, percentEncode inControls tail.path, tail.query, tail.fragment⟩

def read (t : Text) : Except Error Url :=
  let t := trimmed t
  match cutScheme? (withoutBreaks t) with
  | none => .error .relativeWithoutBase
  | some (scheme, rest) =>
    if scheme = "file" then readFileUrl (Text.cutOr (· = ':') t).2
    else if isSpecial scheme then readBehindSlashes scheme (rest.dropWhile (isSlash true))
    else readOtherUrl scheme rest

/-- Reads a reference that begins with a slash or backslash. More than one begins an authority; two
slashes that begin it are all that is skipped. -/
def joinRooted (base : Url) (slashes rest : Text) : Except Error Url :=
  if 2 ≤ slashes.length then
    let t := if "//".toList.isPrefixOf slashes then slashes.drop 2 ++ rest else rest
    readBehindSlashes base.scheme t
  else .ok (assemble base.scheme base.authority [] rest)

def join (base : Url) (reference : Text) : Except Error Url :=
  let whole := trimmed reference
  let t := withoutBreaks whole
  let tail := cutTail (isSpecial base.scheme) t
  if t.head? = some '#' then .ok { base with fragment := tail.fragment }
  else if ¬ base.isBase then .error .relativeToOtherBase
  else
    match t with
    | [] => .ok { base with fragment := none }
    | '?' :: _ => .ok { base with query := tail.query, fragment := tail.fragment }
    | _ =>
      if base.scheme = "file" then joinFile base whole
      else
        let isAnySlash (c : Char) : Bool := isSlash true c
        let slashes := t.takeWhile isAnySlash
        if slashes = [] then .ok (assemble base.scheme base.authority (directoriesOf base.path) t)
        else joinRooted base slashes (t.dropWhile isAnySlash)

end HttpSession.Url
