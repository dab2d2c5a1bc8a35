import CatalogSync.Text.Utf8
import CatalogSync.Yaml.Resolution
/-!
# Writing YAML scalars

A text is written plain where that is safe, in single quotes where a plain scalar would read as
something else or contains an indicator, as a literal block when it holds a newline, and in double
quotes where the other styles are not allowed. Lines are never folded.
-/

namespace CatalogSync.Yaml

/-! ## §1 Characters -/

/-- Whether a character ends a line. -/
def isBreak (c : Char) : Bool :=
  c == '\n' || c == '\r' || c.toNat == 0x85 || c.toNat == 0x2028 || c.toNat == 0x2029

/-- Whether a character separates words: a space, a tab, a break or NUL. -/
def isGap (c : Char) : Bool := c == ' ' || c == '\t' || c.toNat == 0 || isBreak c

/-- Whether a character may stand unescaped. -/
def isPrintable (c : Char) : Bool :=
  let n := c.toNat
  n == 0x0A || (0x20 ≤ n && n ≤ 0x7E) || (0xA0 ≤ n && n ≤ 0xD7FF) ||
    (0xE000 ≤ n && n ≤ 0xFFFD && n != 0xFEFF) || 0x10000 ≤ n

/-- Whether nothing, or a gap, stands at the front of a text. -/
def gapFollows : List Char → Bool
  | [] => true
  | c :: _ => isGap c

/-! ## §2 What a text holds -/

/-- The characters that begin something else than a plain scalar. -/
def indicators : List Char :=
  ['#', ',', '[', ']', '\x7b', '\x7d', '&', '*', '!', '|', '>', '\'', '"', '%', '@', '\x60']

/-- Whether the first character of a text is an indicator. -/
def beginsWithIndicator : List Char → Bool
  | [] => false
  | c :: rest =>
    -- A question mark, a colon or a dash begins something only in front of a gap.
    indicators.contains c || ((c == '?' || c == ':' || c == '-') && gapFollows rest)

/-- Whether an indicator stands behind the first character of a text; `gap` says whether the
character before was a gap. -/
def holdsIndicator (gap : Bool) : List Char → Bool
  | [] => false
  | c :: rest =>
    (c == ':' && gapFollows rest) || (c == '#' && gap) || holdsIndicator (isGap c) rest

/-- Whether a text begins like a document mark. -/
def beginsWithMark : List Char → Bool
  | '-' :: '-' :: '-' :: _ => true
  | '.' :: '.' :: '.' :: _ => true
  | _ => false

/-- Whether a text holds an indicator that a plain scalar in a block must not hold. -/
def hasIndicators (l : List Char) : Bool :=
  beginsWithMark l || beginsWithIndicator l ||
    (match l with
    | [] => false
    | c :: rest => holdsIndicator (isGap c) rest)

/-- Whether a space stands directly before a break. -/
def hasSpaceBreak : List Char → Bool
  | [] => false
  | c :: rest =>
    (c == ' ' && (match rest with
      | d :: _ => isBreak d
      | [] => false)) || hasSpaceBreak rest

/-- Whether a space stands directly behind a break. -/
def hasBreakSpace : List Char → Bool
  | [] => false
  | c :: rest =>
    (isBreak c && (match rest with
      | d :: _ => d == ' '
      | [] => false)) || hasBreakSpace rest

def isMultiline (l : List Char) : Bool := l.any isBreak

def hasOuterSpace (l : List Char) : Bool := l.head? == some ' ' || l.getLast? == some ' '

/-- Whether a text may be written plain. -/
def plainAllowed (l : List Char) : Bool :=
  !l.isEmpty && !hasOuterSpace l && !isMultiline l && l.all isPrintable && !hasIndicators l

/-- Whether a text may be written in single quotes. -/
def singleAllowed (l : List Char) : Bool :=
  !hasBreakSpace l && !hasSpaceBreak l && l.all isPrintable

def literalAllowed (l : List Char) : Bool :=
  l.getLast? != some ' ' && !hasSpaceBreak l && l.all isPrintable

/-! ## §3 Styles -/

/-- How a text is written. -/
inductive Style where
  | plain
  | single
  | double
  -- As a literal block.
  | literal
  deriving DecidableEq, Repr

def styleOf (s : String) : Style :=
  let l := s.toList
  -- Several lines are best read as a block.
  if l.contains '\n' then if literalAllowed l then .literal else .double
  else if !needsQuotes s && plainAllowed l then .plain
  else if singleAllowed l then .single
  else .double

/-- The blanks at the front of a line. -/
def pad (indent : Nat) : List Char := List.replicate indent ' '

/-- The text in single quotes, after the opening quote; `atBreak` says whether the character before
was a break, which makes the next line begin with blanks. -/
def singleQuoted (indent : Nat) (atBreak : Bool) : List Char → List Char
  | [] => (if atBreak then pad indent else []) ++ ['\'']
  | c :: rest =>
    if isBreak c then c :: singleQuoted indent true rest
    else
      (if atBreak then pad indent else []) ++ (if c = '\'' then ['\'', '\''] else [c]) ++
        singleQuoted indent false rest

def upperHex (n : Nat) : Char := if n < 10 then Char.ofNat (48 + n) else Char.ofNat (55 + n)

/-- A number with the given count of hexadecimal digits. -/
def hexDigits : Nat → Nat → List Char
  | 0, _ => []
  | count + 1, n => hexDigits count (n / 16) ++ [upperHex (n % 16)]

def shortEscapes : List (Nat × Char) :=
  [(0x00, '0'), (0x07, 'a'), (0x08, 'b'), (0x09, 't'), (0x0A, 'n'), (0x0B, 'v'), (0x0C, 'f'),
   (0x0D, 'r'), (0x1B, 'e'), (0x22, '"'), (0x5C, '\\'), (0x85, 'N'), (0xA0, '_'), (0x2028, 'L'),
   (0x2029, 'P')]

/-- A character with an escape. -/
def escape (c : Char) : List Char :=
  match shortEscapes.find? fun e => e.1 == c.toNat with
  | some (_, letter) => ['\\', letter]
  | none =>
    -- Two, four or eight digits.
    if c.toNat ≤ 0xFF then '\\' :: 'x' :: hexDigits 2 c.toNat
    else if c.toNat ≤ 0xFFFF then '\\' :: 'u' :: hexDigits 4 c.toNat
    else '\\' :: 'U' :: hexDigits 8 c.toNat

/-- A character as it stands in double quotes. -/
def doubleQuotedChar (c : Char) : List Char :=
  if !isPrintable c || isBreak c || c == '"' || c == '\\' then escape c else [c]

/-- What follows the bar of a literal block: a hint when the first line would hide the indentation,
and what happens to the breaks at the end. -/
def literalHeader (l : List Char) : List Char :=
  let hint := match l with
    -- The indentation cannot be told from a line that begins with a blank or is empty.
    | c :: _ => if c == ' ' || isBreak c then ['2'] else []
    | [] => []
  let chomping := match l.reverse with
    | [] => ['-']
    | [c] => if isBreak c then ['+'] else ['-']
    -- A single break at the end needs no mark.
    | c :: d :: _ => if !isBreak c then ['-'] else if isBreak d then ['+'] else []
  '|' :: (hint ++ chomping)

/-- The lines of a literal block; `atBreak` says whether a line begins here. -/
def literalLines (indent : Nat) (atBreak : Bool) : List Char → List Char
  | [] => []
  | c :: rest =>
    if isBreak c then c :: literalLines indent true rest
    else (if atBreak then pad indent else []) ++ c :: literalLines indent false rest

/-- A text in a style, with the lines behind the first indented. -/
def scalarIn (indent : Nat) (l : List Char) : Style → List Char
  | .plain => l
  | .single => '\'' :: singleQuoted indent false l
  | .double => '"' :: (l.flatMap doubleQuotedChar ++ ['"'])
  | .literal => literalHeader l ++ '\n' :: literalLines indent true l

/-- A text as a scalar, with the lines behind the first indented. -/
def scalar (indent : Nat) (s : String) : List Char := scalarIn indent s.toList (styleOf s)

end CatalogSync.Yaml
