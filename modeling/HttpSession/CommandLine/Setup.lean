import HttpSession.CommandLine.Arguments
import HttpSession.Cookie.File
import HttpSession.Exchange.Session
import HttpSession.Settings.Basic

/-!
# Setting up

Makes the request and the session that a command line asks for. What the command line leaves open is
taken from the settings. Faults are reported in the order in which things are made: the URL, the cookies,
the proxy and the credentials, then the method and the headers.
-/

namespace HttpSession.CommandLine

structure NamedFile where
  name : Text
  content : Bytes
  deriving DecidableEq, Repr

inductive SetupError
  | url (written : Text) (error : Url.Error)
  | urlWithoutHost (url : Url)
  | cookies (file : Text) (error : Cookie.File.Error)
  | proxy (written : Text) (error : Url.Error)
  | proxyWithoutHost (written : Text)
  | userWithoutProxy
  | method (written : Text)
  | header (written : Text)
  | headerName (written : Text)
  | headerValue (written : Text)
  deriving DecidableEq, Repr

def cookieReason (e : Cookie.File.Error) : Text :=
  e.message ++ Text.optional e.cause? fun cause => ": " ++ cause

def SetupError.message : SetupError → Text
  | .url written error => "Invalid URL '" ++ written ++ "': " ++ error.message
  | .urlWithoutHost u => "URL '" ++ u.href ++ "' has no host"
  | .cookies file error => "Failed to parse cookies file '" ++ file ++ "': " ++ cookieReason error
  | .proxy written error => "Invalid proxy URL '" ++ written ++ "': " ++ error.message
  | .proxyWithoutHost written => "Proxy URL '" ++ written ++ "' has no host"
  | .userWithoutProxy => "--proxy-user requires --proxy"
  | .method written => "Invalid method '" ++ written ++ "': " ++ Method.complaint
  | .header written => "Invalid header '" ++ written ++ "': expected 'Name: value'"
  | .headerName written => "Invalid header name in '" ++ written ++ "': " ++ HeaderName.complaint
  | .headerValue written => "Invalid header value in '" ++ written ++ "': " ++ HeaderValue.complaint

structure Setup where
  request : Request
  target : Endpoint
  proxy : Option Endpoint
  jar : Jar
  vault : Auth.Vault
  config : Config

namespace Setup

/-! ## Parts -/

def readUrl (written : Text) : Except SetupError (Url × Endpoint) :=
  match Url.read written with
  | .error error => .error (.url written error)
  | .ok url =>
    match Endpoint.ofUrl? url with
    | none => .error (.urlWithoutHost url)
    | some target => .ok (url, target)

def cookieFile? (a : Arguments) (s : Settings) : Option Text := a.cookies <|> s.cookieFile

def readCookies (now : Instant) (file : Option NamedFile) : Except SetupError Cookie.Store :=
  match file with
  | none => .ok {}
  | some file =>
    match Cookie.File.read file.content with
    | .error error => .error (.cookies file.name error)
    | .ok reading => .ok (Cookie.Store.addAll {} now reading.cookies)

def readProxy (written : Option Text) : Except SetupError (Option Endpoint) :=
  match written with
  | none => .ok none
  | some written =>
    match Url.read written with
    | .error error => .error (.proxy written error)
    | .ok url =>
      match Endpoint.ofUrl? url with
      | none => .error (.proxyWithoutHost written)
      | some proxy => .ok (some proxy)

def scopeOf (e : Endpoint) : Auth.Scope := .forHost e.hostname (some e.effectivePort)

/-- The credentials for the target, which are for a Windows network if a domain is given. -/
def targetCredentials (a : Arguments) : Option Auth.Credentials :=
  a.user.map fun user =>
    let (user, password) := splitUser user
    match a.ntlmDomain with
    | some domain => .windows user password (some domain) none
    | none => { user, password }

def readVault (a : Arguments) (target : Endpoint) (proxy : Option Endpoint) :
    Except SetupError Auth.Vault :=
  let vault : Auth.Vault :=
    match targetCredentials a with
    | some credentials => Auth.Vault.set [] (scopeOf target) credentials
    | none => []
  match a.proxyUser, proxy with
  | none, _ => .ok vault
  | some _, none => .error .userWithoutProxy
  | some user, some proxy =>
    let (user, password) := splitUser user
    .ok (vault.set (scopeOf proxy) { user, password })

def readHeader (written : Text) : Except SetupError (Text × Bytes) :=
  match splitHeader written with
  | none => .error (.header written)
  | some (name, value) =>
    match HeaderName.read? name with
    | none => .error (.headerName written)
    | some name =>
      match HeaderValue.ofText? value with
      | none => .error (.headerValue written)
      | some value => .ok (name, value)

/-- The request, whose method is written in capitals. -/
def readRequest (a : Arguments) (url : Url) : Except SetupError Request :=
  match Method.read? a.methodText.upper with
  | none => .error (.method a.methodText)
  | some method =>
    (a.headers.mapM readHeader).map fun headers =>
      { method, url, headers, body := a.data.map Utf8.encode }

def configOf (a : Arguments) (s : Settings) : Config :=
  let usual : Config := {}
  { usual with
    maxRedirects := (a.maxRedirects <|> s.maxRedirects).getD usual.maxRedirects,
    followsRedirects := !a.noRedirects && s.followsRedirects.getD usual.followsRedirects }

/-! ## The whole -/

def make (now : Instant) (a : Arguments) (s : Settings) (file : Option NamedFile) :
    Except SetupError Setup := do
  let (url, target) ← readUrl a.url
  let store ← readCookies now file
  let proxy ← readProxy (a.proxy <|> s.proxy)
  let vault ← readVault a target proxy
  let request ← readRequest a url
  let usual := (a.cookiePolicy <|> s.cookiePolicy).getD Cookie.Policy.usual
  .ok { request, target, proxy, jar := { store, usual }, vault, config := configOf a s }

def session (s : Setup) (now : Instant) (draws : Auth.Draws) : Session :=
  let schemes := Auth.Schemes.known {}
  { context := { config := s.config }, jar := s.jar, now, draws,
    target := { side := .target, schemes, vault := s.vault },
    proxy := { side := .proxy, schemes, vault := s.vault } }

end Setup

end HttpSession.CommandLine
