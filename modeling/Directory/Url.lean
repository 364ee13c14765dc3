import Directory.Name.Basic
import Directory.Text.Escape

namespace Directory

open Text

/-! # LDAP URLs

A URL names a server and an entry on it: scheme, host and the entry's name under
percent escapes.  Whatever follows a question mark selects attributes and is not
kept.  `DelegationTarget` is the part of a URL that a delegation needs. -/

/-- The characters that the name in a URL shows as they are. -/
def isPlainInUrl (c : Char) : Bool :=
  c.isAlphanum || (ofLiteral "-._~,=+;:@!$&'()*").contains c

/-- The text of a name as it stands in a URL. -/
def escapeDn (text : Text) : Text := percentEncode isPlainInUrl text

structure LdapUrl where
  scheme : Text
  host : Text
  dn : Dn
deriving DecidableEq

/-- A server and the name it knows a delegated subtree by. -/
structure DelegationTarget where
  location : Text
  base : Dn
deriving DecidableEq

/-- Resolves percent escapes. -/
def percentDecode (text : Text) : Except Error Text :=
  match percentPieces? text with
  | none => .error (.invalidName ("bad percent escape in " ++ text.quoted))
  | some pieces =>
    match ofPieces? pieces with
    | none => .error (.invalidName ("URL is not UTF-8: " ++ text.quoted))
    | some decoded => .ok decoded

namespace LdapUrl

def schemes : List Text := ["ldap", "ldaps", "ldapi"]

def parse (given : Text) : Except Error LdapUrl :=
  let text := given.trim
  match cutAt? "://" text with
  | none => .error (.invalidName ("not an LDAP URL: " ++ text.quoted))
  | some (written, rest) => do
    let scheme := written.asciiLower
    refuseIf (!schemes.contains scheme)
      (.invalidName ("unsupported URL scheme " ++ scheme.quoted))
    let (host, path) := (cut? '/' rest).getD (rest, [])
    let (name, _) := (cut? '?' path).getD (path, [])
    let dn ← Dn.parse (← percentDecode name)
    .ok ⟨scheme, host, dn⟩

/-- The part of the URL that names the server. -/
def location (url : LdapUrl) : Text := url.scheme ++ "://" ++ url.host

def text (url : LdapUrl) : Text := url.location ++ '/' :: escapeDn url.dn.text

end LdapUrl

namespace DelegationTarget

/-- Reads a value of the `ref` attribute. -/
def ofRef (value : Text) : Except Error DelegationTarget := do
  let url ← LdapUrl.parse value
  .ok ⟨url.location, url.dn⟩

/-- The URL of an entry on the target's server. -/
def urlFor (target : DelegationTarget) (name : Dn) : Text :=
  target.location ++ '/' :: escapeDn name.text

end DelegationTarget

end Directory
