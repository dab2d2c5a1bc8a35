import CatalogSync.Text.Class
import CatalogSync.Text.Split
/-!
# Request targets

What a request asks for at a peer: a path and perhaps a query. An address may name the peer in front
of them, and a fragment behind them, which does not travel. A target with a character that must not
stand in it cannot be sent: blanks, control characters, angle brackets and grave accents are refused
in a path, and quotes in a query, whereas characters beyond ASCII may stand in both.
-/

namespace CatalogSync.Http

/-- What a request asks for. -/
structure Target where
  path : String
  -- The query, or nothing.
  query : String := ""
  deriving DecidableEq, Repr

namespace Target

/-- Whether a character may stand in the name of a scheme. -/
def isSchemeChar (c : Char) : Bool := Text.isAlphanumeric c || c == '+' || c == '-' || c == '.'

/-- What follows the peer, where an address names a scheme and a peer. -/
def afterPeer? : List Char → Option (List Char)
  | ':' :: '/' :: '/' :: rest => some (rest.dropWhile fun c => c != '/' && c != '?')
  | c :: rest => if isSchemeChar c then afterPeer? rest else none
  | [] => none

/-- An address without the peer; no path behind a peer stands for its root. -/
def atPeer (address : String) : String :=
  match afterPeer? address.toList with
  | some ('/' :: rest) => String.ofList ('/' :: rest)
  -- A query may follow the peer directly.
  | some rest => String.ofList ('/' :: rest)
  | none => address

/-- The path and the query of an address, without the peer and the fragment. -/
def split (address : String) : Target :=
  let whole := atPeer <| match Text.splitOnce '#' address with
    | some (before, _) => before
    | none => address
  match Text.splitOnce '?' whole with
  | some (path, query) => { path, query }
  | none => { path := whole }

def pathRanges : List (Nat × Nat) :=
  [(0x21, 0x22), (0x24, 0x3B), (0x3D, 0x3D), (0x40, 0x5F), (0x61, 0x7E), (0x80, 0x10FFFF)]

def queryRanges : List (Nat × Nat) :=
  [(0x21, 0x21), (0x24, 0x3B), (0x3D, 0x3D), (0x3F, 0x7E), (0x80, 0x10FFFF)]

/-- Whether a target can be sent. -/
def isValid (t : Target) : Bool :=
  t.path.toList.all (Text.inRanges pathRanges) && t.query.toList.all (Text.inRanges queryRanges)

/-- The target at an address, if it can be sent. -/
def parse? (address : String) : Option Target :=
  let t := split address
  if t.isValid then some t else none

example : split "http://peer/list?key=a#b" = ⟨"/list", "key=a"⟩ := by decide +kernel

example : split "/list?at=http://peer" = ⟨"/list", "at=http://peer"⟩ := by decide +kernel

end Target

end CatalogSync.Http
