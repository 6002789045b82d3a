/-!
# Request targets

A target is a path with a query, the asterisk, or an address: an authority alone, or a scheme, an
authority, a path and a query.  What follows a `#` is not part of it.  A target is kept in its
normal form, in which the two schemes of the web are in lower case and an address with a scheme has
a path, which is `/` where none was given.
-/

namespace TraceLineage
namespace Http

/-- A target. -/
structure Uri where
  scheme : Option String := none
  authority : Option String := none
  path : String := "/"
  query : Option String := none
  deriving DecidableEq, Repr

namespace Uri

def text (u : Uri) : String :=
  (u.scheme.map (· ++ "://")).getD "" ++ u.authority.getD "" ++ u.path ++
    (u.query.map ("?" ++ ·)).getD ""

/-- The greatest length of a target, in bytes. -/
def maxLength : Nat := 65534

def maxSchemeLength : Nat := 64

/-- The greatest number of colons between two delimiters of an authority, those of an address in
brackets included. -/
def maxColons : Nat := 8

def isSchemeChar (c : Char) : Bool :=
  c.isAlphanum || "+-.~".toList.contains c

def isAuthorityChar (c : Char) : Bool :=
  c.isAlphanum || "!$%&'()*+,-.:;=@[]_~".toList.contains c

/-- A character of a path: anything but blanks, controls and five marks. -/
def isPathChar (c : Char) : Bool :=
  0x21 ≤ c.toNat && !"#<>?`".toList.contains c

/-- A character of a query: anything but blanks, controls and four marks. -/
def isQueryChar (c : Char) : Bool :=
  0x21 ≤ c.toNat && !"\"#<>".toList.contains c

def endsAuthority (c : Char) : Bool :=
  "/?#".toList.contains c

/-- An authority: user information that ends at `@`, a host, which may stand in brackets, and a
port behind a colon.  A percent sign may stand in the user information and within brackets only. -/
def isAuthority (cs : List Char) : Bool :=
  let parts := cs.splitOnP fun c => c = '@' || c = ']'
  let final := parts.getLastD []
  let brackets := cs.filter fun c => c = '[' || c = ']'
  cs.all isAuthorityChar &&
    parts.all (fun p => p.count ':' ≤ maxColons && !(p.dropWhile (· ≠ '%')).contains '[') &&
    final.count ':' ≤ 1 && !final.contains '%' &&
    (brackets = [] || brackets = ['[', ']']) && cs.getLast? ≠ some '@'

/-- The remainder of a text behind another one in any letter case. -/
def strip? (lead : String) (cs : List Char) : Option (List Char) :=
  if (cs.take lead.length).map Char.toLower = lead.toList then some (cs.drop lead.length) else none

/-- The scheme in front of an address, if there is one, and the remainder; fails on a scheme that is
too long. -/
def splitScheme? (cs : List Char) : Option (Option String × List Char) :=
  match strip? "http://" cs, strip? "https://" cs with
  | some rest, _ => some (some "http", rest)
  | none, some rest => some (some "https", rest)
  | none, none =>
    let name := cs.takeWhile isSchemeChar
    match cs.dropWhile isSchemeChar with
    | ':' :: '/' :: '/' :: rest =>
      if name.length ≤ maxSchemeLength then some (some (String.ofList name), rest) else none
    | _ => some (none, cs)

/-- The target with a path and a query that are given as one text, a fragment behind them. -/
def withPath? (u : Uri) (cs : List Char) : Option Uri :=
  let cs := cs.takeWhile (· ≠ '#')
  let path := cs.takeWhile (· ≠ '?')
  let behind := cs.dropWhile (· ≠ '?')
  if path.all isPathChar && (behind.drop 1).all isQueryChar then
    some { u with
      path := if path = [] then "/" else String.ofList path
      query := if behind = [] then none else some (String.ofList (behind.drop 1)) }
  else none

def ofAddress? (cs : List Char) : Option Uri := do
  let (scheme, rest) ← splitScheme? cs
  let authority := rest.takeWhile (!endsAuthority ·)
  let behind := rest.dropWhile (!endsAuthority ·)
  if authority = [] ∨ isAuthority authority = false then none
  else
    let u : Uri := { scheme, authority := some (String.ofList authority), path := "" }
    if scheme.isSome then u.withPath? behind
    else if behind = [] then some u
    else none

def ofString? (s : String) : Option Uri :=
  if maxLength < s.utf8ByteSize then none
  else
    match s.toList with
    | ['*'] => some { path := "*" }
    | '/' :: rest => withPath? {} ('/' :: rest)
    | cs => ofAddress? cs

end Uri
end Http
end TraceLineage
