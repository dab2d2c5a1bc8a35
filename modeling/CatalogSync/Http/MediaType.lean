import CatalogSync.Text.Class
/-!
# Media types

What kind of document a body is said to be: a type and a subtype, of which an ending behind a plus
sign is the suffix, and parameters behind semicolons. A text with a blank or another character where
none may stand is no media type. Names count without regard to case.
-/

namespace CatalogSync.Http

/-- A media type, without its parameters. -/
structure MediaType where
  type : String
  -- The subtype, without its suffix.
  subtype : String
  -- What stands behind the last plus sign of the subtype.
  suffix : Option String
  deriving DecidableEq, Repr

namespace MediaType

/-! ## §1 Characters -/

def tokenSigns : List Char :=
  ['!', '#', '$', '%', '&', '\x27', '*', '+', '-', '.', '^', '_', '\x60', '|', '~']

/-- Whether a character may stand in a name. -/
def isToken (c : Char) : Bool := Text.isAlphanumeric c || tokenSigns.contains c

/-- Whether a character may stand in the text of a media type at all. -/
def isPrintable (c : Char) : Bool := ' ' ≤ c && c ≤ '~'

/-! ## §2 Parameters -/

/-- What follows a quoted value: the next parameters behind a semicolon, or nothing more. -/
def afterQuoted? (l : List Char) : Option (List Char) :=
  match l.dropWhile (· == ' ') with
  | [] => some []
  | ';' :: more => some more
  | _ => none

/-- What follows a value. A quoted value has at least one character, whatever it is; a value without
quotes may be empty only at the end. -/
def afterValue? : List Char → Option (List Char)
  | '"' :: _ :: rest =>
    match rest.dropWhile (· != '"') with
    | _ :: more => afterQuoted? more
    | [] => none
  | l =>
    match l.dropWhile isToken with
    | [] => some []
    -- Nothing at all in front of the semicolon is no value.
    | c :: more => if c = ';' ∧ l.head? ≠ some ';' then some more else none

/-- What follows the first parameter of a list, which has a name and a value. -/
def afterParameter? (l : List Char) : Option (List Char) :=
  match l.dropWhile isToken with
  | '=' :: value => if l.head? = some '=' then none else afterValue? value
  | _ => none

/-- Whether a text is a list of parameters. Each takes at least one character, so the given number
of steps is enough when it is above the number of characters. -/
def areParameters : Nat → List Char → Bool
  | 0, _ => false
  | steps + 1, l =>
    let l := l.dropWhile (· == ' ')
    l.isEmpty || ((afterParameter? l).any fun rest => areParameters steps rest)

/-! ## §3 Media types -/

/-- The part of a subtype in front of its last plus sign and the suffix behind it; the first
character belongs to the subtype in any case. -/
def splitSuffix (subtype : List Char) : String × Option String :=
  let behind := (subtype.reverse.takeWhile (· != '+')).reverse
  let front := subtype.take (subtype.length - behind.length - 1)
  if front.isEmpty then (String.ofList subtype, none)
  else (String.ofList front, some (String.ofList behind))

/-- The media type that a text names. -/
def parse? (s : String) : Option MediaType :=
  let l := s.toList
  match l.takeWhile isToken, l.dropWhile isToken with
  | type@(_ :: _), '/' :: rest =>
    let (subtype, suffix) := splitSuffix (rest.takeWhile isToken)
    let found : MediaType := { type := String.ofList type, subtype, suffix }
    match rest.dropWhile isToken with
    | [] => some found
    | ';' :: parameters =>
      if l.all isPrintable ∧ rest.head? ≠ some ';' ∧
          areParameters (parameters.length + 1) parameters = true then some found
      else none
    | _ => none
  | _, _ => none

/-- Whether a document of the type is JSON. -/
def isJson (m : MediaType) : Bool :=
  Text.lower m.type == "application" &&
    (Text.lower m.subtype == "json" || (m.suffix.map Text.lower) == some "json")

end MediaType

end CatalogSync.Http
