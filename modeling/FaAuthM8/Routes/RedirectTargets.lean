import FaAuthM8.Lib.Rendering
import FaAuthM8.Lib.Urls
import FaAuthM8.Routes.OauthLogin

/-!
# Redirect targets

A login names the URL its browser is sent back to with the code. The target is checked once, when the login
begins, and the callback appends the code to it. How a redirect quotes a URL is a parameter: the delimiters and
what need not be quoted stay as they are, and nothing else becomes a `#`.
-/

namespace FaAuthM8

open Urls

structure RedirectSettings where
  oauthAllowedRedirectSchemes : List String := ["chrome-extension://"]
  oauthAllowedRedirectPrefixes : List String := []
  environment : String := "local"
  strictProductionMode : Bool := false
  /-- Whether `urlsplit` accepts an authority whose brackets match. -/
  checkNetloc : List Char → Bool := fun _ => true

inductive RedirectRefusal
  | http (exception : HttpException)
  | valueError
deriving DecidableEq, Repr

def refuseTarget (detail : String) : Except RedirectRefusal Unit :=
  .error (.http (badRequest detail))

def WEB_SCHEMES : List String := ["http://", "https://"]

def isSafeHttpRedirect (hostname : Option (List Char)) : Bool :=
  hostname.any fun name => ["localhost", "127.0.0.1", "::1"].contains (String.ofList (name.map Char.toLower))

/-- The comparison of `_uri_prefix_match_any` with one of the prefixes. -/
def uriPrefixMatches (t p : SplitResult) : Bool :=
  let tPath := if t.path.getLast? = some '/' then t.path else t.path ++ ['/']
  let pPath := p.path.rdropWhile (· == '/') ++ ['/']
  t.scheme == p.scheme && t.netloc == p.netloc && pPath.isPrefixOf tPath

namespace RedirectSettings

variable (settings : RedirectSettings)

def parse (url : String) : Option SplitResult :=
  urlparse settings.checkNetloc url.toList

def isProd : Bool :=
  ["production", "staging"].contains settings.environment || settings.strictProductionMode

/-- Nothing where a prefix before the first one that matches cannot be parsed. -/
def matchesAnyOf (t : SplitResult) : List String → Option Bool
  | [] => some false
  | allowed :: rest =>
      (settings.parse allowed).bind fun p => if uriPrefixMatches t p then some true else matchesAnyOf t rest

def uriPrefixMatchAny (target : String) (allowed : List String) : Option Bool :=
  (settings.parse target).bind fun t => settings.matchesAnyOf t allowed

def validateRedirectTarget (redirectTarget : String) : Except RedirectRefusal Unit :=
  if redirectTarget = "" then refuseTarget "redirect_target is required."
  else if 2048 < redirectTarget.length then refuseTarget "redirect_target too long."
  else
    match settings.parse redirectTarget with
    | none => .error .valueError
    | some parsed =>
        let scheme := String.ofList parsed.scheme ++ "://"
        let unpinned := settings.oauthAllowedRedirectPrefixes.isEmpty
        if parsed.netloc.isEmpty then refuseTarget "redirect_target must include a host."
        else if !settings.oauthAllowedRedirectSchemes.contains scheme then
          refuseTarget "redirect_target scheme not allowed."
        else if WEB_SCHEMES.contains scheme && unpinned then
          refuseTarget "web redirect targets require OAUTH_ALLOWED_REDIRECT_PREFIXES."
        else if scheme == "http://" && !isSafeHttpRedirect parsed.hostname then
          refuseTarget "http redirect targets are limited to localhost."
        else if scheme == "http://" && settings.isProd then
          refuseTarget "http redirect targets are not allowed in production."
        else if scheme == "chrome-extension://" && unpinned && settings.isProd then
          refuseTarget ("chrome-extension redirect targets require OAUTH_ALLOWED_REDIRECT_PREFIXES " ++
            "in production (set exact extension IDs to prevent open redirect).")
        else if unpinned then .ok ()
        else
          match settings.uriPrefixMatchAny redirectTarget settings.oauthAllowedRedirectPrefixes with
          | none => .error .valueError
          | some false => refuseTarget "redirect_target not in allowed prefixes."
          | some true => .ok ()

end RedirectSettings

/-- How a redirect response quotes its URL. -/
structure RedirectQuoting where
  quote : Char → List Char
  quote_mark : quote '#' = ['#']
  eq_mark : ∀ c, '#' ∈ quote c → c = '#'
  quote_safe : ∀ c, c.isAlphanum ∨ c ∈ ['=', '-', '_'] → quote c = [c]

/-- The URL of `_build_redirect_response`. -/
def redirectUrl (quoting : RedirectQuoting) (redirectTarget : String) (authCode : Uuid) : List Char :=
  (redirectTarget.toList ++ "#auth_code=".toList ++ authCode.str).flatMap quoting.quote

end FaAuthM8
