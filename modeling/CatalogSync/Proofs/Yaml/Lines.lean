import CatalogSync.Proofs.Text.Split
import CatalogSync.Yaml.Node
import Mathlib.Data.List.Forall2
/-!
# The lines of YAML documents

How deep a line of a document stands tells what it belongs to. Here is what the writer guarantees
about that, for every node: the lines behind the first one of a member's value stand deeper than
the member, or are the items of its list (`exists_opens_memberValue`), and the lines of a map stand
at least as deep as the map (`exists_spells_mapLines`). So a document can be taken apart by its
lines alone: a stream into its documents (`documentsOf`), and a map into its members (`under?`).
-/

namespace CatalogSync.Yaml

abbrev Line := List Char

/-! ## §1 Texts as lines -/

/-- The lines of a text whose last line is ended as well. -/
def linesOf (l : List Char) : List Line := (l.splitOnP isBreak).dropLast

def Unbroken (l : List Char) : Prop := ∀ c ∈ l, isBreak c = false

-- Not by `inferInstanceAs`, which may go through all characters.
instance (l : List Char) : Decidable (Unbroken l) :=
  decidable_of_iff (l.all fun c => !isBreak c) (by simp [Unbroken])

/-- A text consists of lines, each with its end. -/
inductive Spells : List Line → List Char → Prop where
  | nil : Spells [] []
  | cons {line : Line} {c : Char} {lines : List Line} {l : List Char} (hline : Unbroken line)
      (hc : isBreak c = true) (hrest : Spells lines l) : Spells (line :: lines) (line ++ c :: l)

theorem unbroken_append {l l' : List Char} : Unbroken (l ++ l') ↔ Unbroken l ∧ Unbroken l' :=
  List.forall_mem_append

theorem unbroken_pad (indent : Nat) : Unbroken (pad indent) := by
  intro c hc
  rw [List.eq_of_mem_replicate hc]
  rfl

namespace Spells

variable {lines lines' : List Line} {line : Line} {l l' : List Char}

theorem splitOnP_eq (h : Spells lines l) : l.splitOnP isBreak = lines ++ [[]] := by
  induction h with
  | nil => rfl
  | cons hline hc _ ih =>
    rw [List.splitOnP_append_cons_of_forall_mem hline _ hc, ih, List.cons_append]

theorem linesOf_eq (h : Spells lines l) : linesOf l = lines := by
  rw [linesOf, h.splitOnP_eq, List.dropLast_concat]

theorem append (h : Spells lines l) (h' : Spells lines' l') :
    Spells (lines ++ lines') (l ++ l') := by
  induction h with
  | nil => exact h'
  | cons hline hc _ ih =>
    rw [List.append_assoc, List.cons_append, List.cons_append]
    exact .cons hline hc ih

theorem prepend {a : List Char} (ha : Unbroken a) (h : Spells (line :: lines) l) :
    Spells ((a ++ line) :: lines) (a ++ l) := by
  cases h with
  | cons hline hc hrest =>
    rw [← List.append_assoc]
    exact .cons (unbroken_append.mpr ⟨ha, hline⟩) hc hrest

theorem of_cons {c : Char} (hc : isBreak c = false) (h : Spells (line :: lines) (c :: l)) :
    ∃ first, line = c :: first ∧ Spells (first :: lines) l := by
  generalize htext : c :: l = text at h
  cases h with
  | @cons _ d _ l' hline hd hrest =>
    cases line with
    | nil =>
      -- The text would begin with a break.
      obtain ⟨rfl, -⟩ := List.cons.inj htext
      rw [hc] at hd
      cases hd
    | cons e line =>
      obtain ⟨rfl, rfl⟩ := List.cons.inj htext
      exact ⟨line, rfl, .cons (List.forall_mem_cons.mp hline).2 hd hrest⟩

/-- What a text begins with stands in its first line. -/
theorem of_prepend {a : List Char} (ha : Unbroken a) (h : Spells (line :: lines) (a ++ l)) :
    ∃ first, line = a ++ first ∧ Spells (first :: lines) l := by
  induction a generalizing line with
  | nil => exact ⟨line, rfl, h⟩
  | cons c a ih =>
    obtain ⟨hc, ha⟩ := List.forall_mem_cons.mp ha
    obtain ⟨first, rfl, hfirst⟩ := h.of_cons hc
    obtain ⟨first, rfl, hrest⟩ := ih ha hfirst
    exact ⟨first, rfl, hrest⟩

end Spells

/-- The first line of a text, where the others have a property. -/
def Opens (P : Line → Prop) (first : Line) (l : List Char) : Prop :=
  ∃ rest, Spells (first :: rest) l ∧ ∀ line ∈ rest, P line

namespace Opens

variable {P Q : Line → Prop} {first : Line} {l : List Char}

theorem imp (h : Opens P first l) (hPQ : ∀ line, P line → Q line) : Opens Q first l := by
  obtain ⟨rest, hspells, hrest⟩ := h
  exact ⟨rest, hspells, fun line hline => hPQ line (hrest line hline)⟩

theorem prepend {a : List Char} (ha : Unbroken a) (h : Opens P first l) :
    Opens P (a ++ first) (a ++ l) := by
  obtain ⟨rest, hspells, hrest⟩ := h
  exact ⟨rest, hspells.prepend ha, hrest⟩

end Opens

/-- A text without breaks is one line once it is ended. -/
theorem endLine_of_unbroken {l : List Char} (hne : l ≠ []) (hl : Unbroken l) :
    endLine l = l ++ ['\n'] := by
  unfold endLine
  rw [List.getLast?_eq_some_getLast hne]
  simp only [hl _ (List.getLast_mem hne), Bool.false_eq_true, if_false]

theorem spells_endLine {l : List Char} (hne : l ≠ []) (hl : Unbroken l) :
    Spells [l] (endLine l) := by
  rw [endLine_of_unbroken hne hl]
  exact .cons hl rfl .nil

theorem endLine_append (l : List Char) {l' : List Char} (hne : l' ≠ []) :
    endLine (l ++ l') = l ++ endLine l' := by
  unfold endLine
  rw [List.getLast?_append, List.getLast?_eq_some_getLast hne, Option.some_or]
  simp only
  split
  · rfl
  · rw [List.append_assoc]

theorem endLine_cons (c : Char) {l : List Char} (hne : l ≠ []) :
    endLine (c :: l) = c :: endLine l := endLine_append [c] hne

/-! ## §2 How deep a line stands -/

/-- A line that stands at least so deep; an empty line may stand anywhere. -/
def Inside (indent : Nat) (line : Line) : Prop := line = [] ∨ pad indent <+: line

theorem Inside.mono {m n : Nat} (hmn : m ≤ n) {line : Line} (h : Inside n line) :
    Inside m line := by
  refine h.imp_right fun hpad => List.IsPrefix.trans ⟨pad (n - m), ?_⟩ hpad
  rw [pad, pad, pad, List.replicate_append_replicate, Nat.add_sub_cancel' hmn]

theorem inside_append (indent : Nat) (line : Line) : Inside indent (pad indent ++ line) :=
  .inr (List.prefix_append _ _)

/-- A line behind the name of a member: it stands deeper, or is an item of its list. -/
def belongs (indent : Nat) (line : Line) : Bool :=
  line.isEmpty || (pad (indent + 1)).isPrefixOf line || (pad indent ++ ['-']).isPrefixOf line

theorem belongs_iff {indent : Nat} {line : Line} : belongs indent line = true ↔
    Inside (indent + 1) line ∨ pad indent ++ ['-'] <+: line := by
  simp [belongs, Inside]

theorem Inside.of_belongs {indent : Nat} {line : Line} (h : belongs indent line = true) :
    Inside indent line := by
  obtain h | h := belongs_iff.mp h
  · exact h.mono (Nat.le_succ indent)
  · exact .inr ((List.prefix_append _ _).trans h)

/-! ## §3 Scalars -/

theorem unbroken_hexDigits (count n : Nat) : Unbroken (hexDigits count n) := by
  have hdigit : ∀ k < 16, isBreak (upperHex k) = false := by decide
  induction count generalizing n with
  | zero => exact List.forall_mem_nil _
  | succ count ih =>
    rw [hexDigits]
    exact unbroken_append.mpr ⟨ih _, List.forall_mem_singleton.mpr
      (hdigit _ (Nat.mod_lt n (by decide)))⟩

theorem unbroken_escape (c : Char) : Unbroken (escape c) := by
  have hletter : ∀ e ∈ shortEscapes, isBreak e.2 = false := by decide
  have hback : isBreak '\\' = false := rfl
  unfold escape
  split
  next letter hfound =>
    have hmem := List.mem_of_find?_eq_some hfound
    exact List.forall_mem_cons.mpr ⟨hback, List.forall_mem_singleton.mpr (hletter _ hmem)⟩
  next =>
    split
    · exact List.forall_mem_cons.mpr ⟨hback, List.forall_mem_cons.mpr
        ⟨rfl, unbroken_hexDigits 2 _⟩⟩
    · split
      · exact List.forall_mem_cons.mpr ⟨hback, List.forall_mem_cons.mpr
          ⟨rfl, unbroken_hexDigits 4 _⟩⟩
      · exact List.forall_mem_cons.mpr ⟨hback, List.forall_mem_cons.mpr
          ⟨rfl, unbroken_hexDigits 8 _⟩⟩

/-- In double quotes every break is escaped. -/
theorem unbroken_doubleQuoted (l : List Char) : Unbroken (l.flatMap doubleQuotedChar) := by
  intro c hc
  obtain ⟨d, -, hd⟩ := List.mem_flatMap.mp hc
  unfold doubleQuotedChar at hd
  split at hd
  · exact unbroken_escape d c hd
  next hplain =>
    rw [List.mem_singleton.mp hd]
    simp only [Bool.or_eq_true, not_or] at hplain
    exact Bool.eq_false_iff.mpr hplain.1.1.2

theorem unbroken_literalHeader (l : List Char) : Unbroken (literalHeader l) := by
  have hmark : Unbroken ['|', '2', '-', '+'] := by decide
  intro c hc
  refine hmark c ?_
  unfold literalHeader at hc
  simp only [List.mem_cons, List.mem_append] at hc
  rcases hc with rfl | hc | hc
  · simp
  · split at hc
    · split at hc
      · simp [List.mem_singleton.mp hc]
      · cases hc
    · cases hc
  · split at hc
    · simp [List.mem_singleton.mp hc]
    · split at hc <;> simp [List.mem_singleton.mp hc]
    · split at hc
      · simp [List.mem_singleton.mp hc]
      · split at hc
        · simp [List.mem_singleton.mp hc]
        · cases hc

/-- The blanks that a line begins with behind a break. -/
theorem unbroken_start (indent : Nat) (atBreak : Bool) :
    Unbroken (if atBreak then pad indent else []) := by
  cases atBreak
  · exact List.forall_mem_nil _
  · exact unbroken_pad indent

theorem inside_start {indent : Nat} {atBreak : Bool} (hbreak : atBreak = true) (line : Line) :
    Inside indent ((if atBreak then pad indent else []) ++ line) := by
  rw [if_pos hbreak]
  exact inside_append indent line

theorem singleQuoted_ne_nil (indent : Nat) (atBreak : Bool) (l : List Char) :
    singleQuoted indent atBreak l ≠ [] := by
  induction l generalizing atBreak with
  | nil => simp [singleQuoted]
  | cons c l ih =>
    rw [singleQuoted]
    split
    · exact List.cons_ne_nil _ _
    · exact List.append_ne_nil_of_right_ne_nil _ (ih false)

/-- In single quotes the lines behind a break are indented. -/
theorem exists_opens_singleQuoted (indent : Nat) (atBreak : Bool) (l : List Char) :
    ∃ first, Opens (Inside indent) first (endLine (singleQuoted indent atBreak l)) ∧
      (atBreak = true → Inside indent first) := by
  induction l generalizing atBreak with
  | nil =>
    refine ⟨(if atBreak then pad indent else []) ++ ['\''], ⟨[], ?_, List.forall_mem_nil _⟩,
      fun hbreak => inside_start hbreak _⟩
    exact spells_endLine (by simp) (unbroken_append.mpr
      ⟨unbroken_start indent atBreak, List.forall_mem_singleton.mpr rfl⟩)
  | cons c l ih =>
    rw [singleQuoted]
    by_cases hc : isBreak c = true
    · obtain ⟨first, ⟨rest, hspells, hrest⟩, hfirst⟩ := ih true
      rw [if_pos hc, endLine_cons c (singleQuoted_ne_nil indent true l)]
      exact ⟨[], ⟨first :: rest, .cons (List.forall_mem_nil _) hc hspells,
        List.forall_mem_cons.mpr ⟨hfirst rfl, hrest⟩⟩, fun _ => .inl rfl⟩
    · obtain ⟨first, hopens, -⟩ := ih false
      have hquoted : Unbroken (if c = '\'' then ['\'', '\''] else [c]) := by
        split
        · exact List.forall_mem_cons.mpr ⟨rfl, List.forall_mem_singleton.mpr rfl⟩
        · exact List.forall_mem_singleton.mpr (Bool.eq_false_iff.mpr hc)
      rw [if_neg hc, List.append_assoc, endLine_append _ (List.append_ne_nil_of_right_ne_nil _
        (singleQuoted_ne_nil indent false l)), endLine_append _
        (singleQuoted_ne_nil indent false l)]
      exact ⟨_, (hopens.prepend hquoted).prepend (unbroken_start indent atBreak),
        fun hbreak => inside_start hbreak _⟩

theorem literalLines_ne_nil {indent : Nat} {atBreak : Bool} {l : List Char} (hl : l ≠ []) :
    literalLines indent atBreak l ≠ [] := by
  cases l with
  | nil => exact absurd rfl hl
  | cons c l =>
    rw [literalLines]
    split <;> simp

/-- In a literal block every line is indented. -/
theorem exists_opens_literalLines (indent : Nat) (atBreak : Bool) {l : List Char} (hl : l ≠ []) :
    ∃ first, Opens (Inside indent) first (endLine (literalLines indent atBreak l)) ∧
      (atBreak = true → Inside indent first) := by
  induction l generalizing atBreak with
  | nil => exact absurd rfl hl
  | cons c l ih =>
    rw [literalLines]
    by_cases hc : isBreak c = true
    · rw [if_pos hc]
      cases l with
      | nil =>
        -- The text ends with this break.
        refine ⟨[], ⟨[], ?_, List.forall_mem_nil _⟩, fun _ => .inl rfl⟩
        have hend : endLine [c] = [] ++ c :: [] := if_pos hc
        rw [literalLines, hend]
        exact .cons (List.forall_mem_nil _) hc .nil
      | cons d l =>
        obtain ⟨first, ⟨rest, hspells, hrest⟩, hfirst⟩ := ih true (List.cons_ne_nil d l)
        rw [endLine_cons c (literalLines_ne_nil (List.cons_ne_nil d l))]
        exact ⟨[], ⟨first :: rest, .cons (List.forall_mem_nil _) hc hspells,
          List.forall_mem_cons.mpr ⟨hfirst rfl, hrest⟩⟩, fun _ => .inl rfl⟩
    · have hsingle : Unbroken [c] := List.forall_mem_singleton.mpr (Bool.eq_false_iff.mpr hc)
      have hstart := unbroken_start indent atBreak
      rw [if_neg hc, endLine_append _ (List.cons_ne_nil _ _)]
      cases l with
      | nil =>
        have hlast : Opens (Inside indent) [c] (endLine [c]) :=
          ⟨[], spells_endLine (List.cons_ne_nil _ _) hsingle, List.forall_mem_nil _⟩
        exact ⟨_, hlast.prepend hstart, fun hbreak => inside_start hbreak _⟩
      | cons d l =>
        obtain ⟨first, hopens, -⟩ := ih false (List.cons_ne_nil d l)
        rw [endLine_cons c (literalLines_ne_nil (List.cons_ne_nil d l))]
        exact ⟨_, (hopens.prepend hsingle).prepend hstart, fun hbreak => inside_start hbreak _⟩

theorem plainAllowed_of_plain {s : String} (hs : styleOf s = .plain) :
    plainAllowed s.toList = true := by
  unfold styleOf at hs
  simp only at hs
  split at hs
  · split at hs <;> cases hs
  · split at hs
    next hallowed => exact (Bool.and_eq_true _ _ ▸ hallowed).2
    next => split at hs <;> cases hs

theorem unbroken_of_plain {s : String} (hs : styleOf s = .plain) : Unbroken s.toList := by
  have hplain := plainAllowed_of_plain hs
  unfold plainAllowed isMultiline at hplain
  simp only [Bool.and_eq_true, Bool.not_eq_true', List.any_eq_false] at hplain
  intro c hc
  exact Bool.eq_false_iff.mpr (hplain.1.1.2 c hc)

/-- A literal block is written only for a text with a newline. -/
theorem newline_mem_of_literal {s : String} (hs : styleOf s = .literal) : '\n' ∈ s.toList := by
  unfold styleOf at hs
  simp only at hs
  split at hs
  next hcontains => exact List.contains_iff_mem.mp hcontains
  next =>
    split at hs
    · cases hs
    · split at hs <;> cases hs

/-- However a text is written, its lines behind the first are indented. -/
theorem exists_opens_scalar {a : List Char} (ha : Unbroken a) (hne : a ≠ []) (indent : Nat)
    (s : String) :
    ∃ first, Opens (Inside indent) (a ++ first) (endLine (a ++ scalar indent s)) := by
  have hone : ∀ l, Unbroken l → Opens (Inside indent) (a ++ l) (endLine (a ++ l)) := by
    intro l hl
    exact ⟨[], spells_endLine (List.append_ne_nil_of_left_ne_nil hne _)
      (unbroken_append.mpr ⟨ha, hl⟩), List.forall_mem_nil _⟩
  unfold scalar
  cases hstyle : styleOf s with
  | plain => exact ⟨_, hone _ (unbroken_of_plain hstyle)⟩
  | double =>
    refine ⟨_, hone ('"' :: (s.toList.flatMap doubleQuotedChar ++ ['"'])) ?_⟩
    exact List.forall_mem_cons.mpr ⟨rfl, unbroken_append.mpr
      ⟨unbroken_doubleQuoted _, List.forall_mem_singleton.mpr rfl⟩⟩
  | single =>
    obtain ⟨first, hopens, -⟩ := exists_opens_singleQuoted indent false s.toList
    refine ⟨'\'' :: first, ?_⟩
    rw [scalarIn, endLine_append _ (List.cons_ne_nil _ _),
      endLine_cons _ (singleQuoted_ne_nil _ _ _)]
    have hquote : Unbroken ['\''] := List.forall_mem_singleton.mpr rfl
    exact (hopens.prepend hquote).prepend ha
  | literal =>
    have hs : s.toList ≠ [] := List.ne_nil_of_mem (newline_mem_of_literal hstyle)
    obtain ⟨first, ⟨rest, hspells, hrest⟩, hfirst⟩ := exists_opens_literalLines indent true hs
    refine ⟨literalHeader s.toList, first :: rest, ?_, List.forall_mem_cons.mpr
      ⟨hfirst rfl, hrest⟩⟩
    rw [scalarIn, ← List.append_assoc, endLine_append _ (List.cons_ne_nil _ _),
      endLine_cons _ (literalLines_ne_nil hs)]
    exact .cons (unbroken_append.mpr ⟨ha, unbroken_literalHeader _⟩) rfl hspells

theorem unbroken_singleQuoted (indent : Nat) {l : List Char} (hl : Unbroken l) :
    Unbroken (singleQuoted indent false l) := by
  induction l with
  | nil => exact List.forall_mem_singleton.mpr rfl
  | cons c l ih =>
    obtain ⟨hc, hl⟩ := List.forall_mem_cons.mp hl
    rw [singleQuoted, if_neg (Bool.eq_false_iff.mp hc)]
    refine unbroken_append.mpr ⟨unbroken_append.mpr ⟨List.forall_mem_nil _, ?_⟩, ih hl⟩
    split
    · exact List.forall_mem_cons.mpr ⟨rfl, List.forall_mem_singleton.mpr rfl⟩
    · exact List.forall_mem_singleton.mpr hc

/-- A text of one line is written in one line. -/
theorem unbroken_scalar (indent : Nat) {s : String} (hs : Unbroken s.toList) :
    Unbroken (scalar indent s) := by
  unfold scalar
  cases hstyle : styleOf s with
  | plain => exact hs
  | single => exact List.forall_mem_cons.mpr ⟨rfl, unbroken_singleQuoted indent hs⟩
  | double =>
    exact List.forall_mem_cons.mpr ⟨rfl, unbroken_append.mpr
      ⟨unbroken_doubleQuoted _, List.forall_mem_singleton.mpr rfl⟩⟩
  | literal =>
    have hnewline := hs _ (newline_mem_of_literal hstyle)
    cases hnewline

/-! ## §4 Nodes -/

/-- The line of a member, as far as the value; a key that takes several lines ends in a line of its
own. -/
theorem exists_keyPart (indent : Nat) (key : String) : ∃ lines l rest,
    keyPart indent key = l ++ (pad indent ++ rest) ∧ Spells lines l ∧ Unbroken rest ∧
      ∀ line ∈ lines, Inside indent line := by
  unfold keyPart
  split
  next hsimple =>
    have hkey : Unbroken key.toList := by
      unfold isSimpleKey isMultiline at hsimple
      simp only [Bool.and_eq_true, Bool.not_eq_true', List.any_eq_false] at hsimple
      exact fun c hc => Bool.eq_false_iff.mpr (hsimple.1 c hc)
    refine ⟨[], [], scalar (indent + 2) key ++ [':'], by simp, .nil, ?_, List.forall_mem_nil _⟩
    exact unbroken_append.mpr ⟨unbroken_scalar _ hkey, List.forall_mem_singleton.mpr rfl⟩
  next =>
    have hmark : Unbroken (pad indent ++ ['?', ' ']) := unbroken_append.mpr
      ⟨unbroken_pad indent, List.forall_mem_cons.mpr ⟨rfl, List.forall_mem_singleton.mpr rfl⟩⟩
    obtain ⟨first, rest, hspells, hrest⟩ :=
      exists_opens_scalar hmark (by simp) (indent + 2) key
    refine ⟨_, endLine (pad indent ++ ['?', ' '] ++ scalar (indent + 2) key), [':'], ?_, hspells,
      List.forall_mem_singleton.mpr rfl, List.forall_mem_cons.mpr ⟨?_, fun line hline => ?_⟩⟩
    · rw [List.append_assoc, List.append_assoc]
      rfl
    · rw [List.append_assoc]
      exact inside_append indent _
    · exact (hrest line hline).mono (Nat.le_add_right indent 2)

/-- A map begins with the blanks of its first member. -/
theorem exists_mapLines_cons (indent : Nat) (m : String × Yaml) (members : List (String × Yaml)) :
    ∃ l, mapLines indent (m :: members) = pad indent ++ l := by
  obtain ⟨key, value⟩ := m
  rw [mapLines]
  unfold keyPart
  split
  · simp only [List.append_assoc]
    exact ⟨_, rfl⟩
  · rw [endLine_append _ (List.cons_ne_nil _ _)]
    simp only [List.append_assoc]
    exact ⟨_, rfl⟩

/-- What is left of lines without the blanks in front of the first one. -/
theorem exists_opens_drop {P : Line → Prop} {n : Nat} {l l' : List Char} {lines : List Line}
    (hl : l = pad (n + 1) ++ l') (hspells : Spells lines l) (hlines : ∀ line ∈ lines, P line) :
    ∃ first, Opens P first (l.drop (n + 1)) := by
  cases lines with
  | nil =>
    cases hspells
    cases hl
  | cons line lines =>
    subst hl
    obtain ⟨first, -, hrest⟩ := hspells.of_prepend (unbroken_pad (n + 1))
    rw [List.drop_left' (by simp [pad])]
    exact ⟨first, lines, hrest, fun line hline => hlines line (List.mem_cons_of_mem _ hline)⟩

/-- A line behind the first one of a member's value: only the items of a list stand as deep as the
member itself. -/
def Behind (indent : Nat) : Yaml → Line → Prop
  | .list _, line => belongs indent line = true
  | _, line => Inside (indent + 2) line

theorem Behind.belongs {indent : Nat} {v : Yaml} {line : Line} (h : Behind indent v line) :
    belongs indent line = true := by
  cases v with
  | list items => exact h
  | text s => exact belongs_iff.mpr (.inl (Inside.mono (Nat.le_succ _) h))
  | map members => exact belongs_iff.mpr (.inl (Inside.mono (Nat.le_succ _) h))

mutual

/-- The lines behind the first one of a member's value belong to the member. -/
theorem exists_opens_memberValue (indent : Nat) (v : Yaml) :
    ∃ first, Opens (Behind indent v) first (memberValue indent v) := by
  match v with
  | .text s =>
    obtain ⟨first, hopens⟩ := exists_opens_scalar (a := [' ']) (by simp [Unbroken, isBreak])
      (List.cons_ne_nil _ _) (indent + 2) s
    exact ⟨_, hopens⟩
  | .list [] =>
    exact ⟨[' ', '[', ']'], [], .cons (by simp [Unbroken, isBreak]) rfl .nil,
      List.forall_mem_nil _⟩
  | .map [] =>
    exact ⟨[' ', '\x7b', '\x7d'], [], .cons (by simp [Unbroken, isBreak]) rfl .nil,
      List.forall_mem_nil _⟩
  | .list (item :: items) =>
    obtain ⟨lines, hspells, hlines⟩ := exists_spells_listLines indent (item :: items)
    exact ⟨[], lines, .cons (List.forall_mem_nil _) rfl hspells, hlines⟩
  | .map (m :: members) =>
    obtain ⟨lines, hspells, hlines⟩ := exists_spells_mapLines (indent + 2) (m :: members)
    exact ⟨[], lines, .cons (List.forall_mem_nil _) rfl hspells, hlines⟩

/-- The lines of a map stand at least as deep as the map. -/
theorem exists_spells_mapLines (indent : Nat) (members : List (String × Yaml)) :
    ∃ lines, Spells lines (mapLines indent members) ∧ ∀ line ∈ lines, Inside indent line := by
  match members with
  | [] => exact ⟨[], .nil, List.forall_mem_nil _⟩
  | (key, value) :: members =>
    obtain ⟨before, l, head, hkey, hbefore, hhead, hinside⟩ := exists_keyPart indent key
    obtain ⟨first, own, hvalue, hown⟩ := exists_opens_memberValue indent value
    obtain ⟨behind, hmembers, hbehind⟩ := exists_spells_mapLines indent members
    have hline := hvalue.prepend (unbroken_append.mpr ⟨unbroken_pad indent, hhead⟩)
    refine ⟨before ++ ((pad indent ++ head ++ first) :: own) ++ behind, ?_, ?_⟩
    · rw [mapLines, hkey, List.append_assoc l]
      exact (hbefore.append hline).append hmembers
    · refine List.forall_mem_append.mpr ⟨List.forall_mem_append.mpr ⟨hinside, ?_⟩, hbehind⟩
      refine List.forall_mem_cons.mpr ⟨?_, fun line hline => .of_belongs (hown line hline).belongs⟩
      rw [List.append_assoc]
      exact inside_append indent _

/-- The lines behind the first one of an item stand deeper than its dash. -/
theorem exists_opens_itemValue (indent : Nat) (v : Yaml) :
    ∃ first, Opens (Inside (indent + 1)) first (itemValue indent v) := by
  have hspace : Unbroken [' '] := List.forall_mem_singleton.mpr rfl
  match v with
  | .text s =>
    obtain ⟨first, hopens⟩ := exists_opens_scalar hspace (List.cons_ne_nil _ _) (indent + 2) s
    exact ⟨_, hopens.imp fun _ h => h.mono (Nat.le_succ _)⟩
  | .list [] =>
    exact ⟨[' ', '[', ']'], [], .cons (by simp [Unbroken, isBreak]) rfl .nil,
      List.forall_mem_nil _⟩
  | .map [] =>
    exact ⟨[' ', '\x7b', '\x7d'], [], .cons (by simp [Unbroken, isBreak]) rfl .nil,
      List.forall_mem_nil _⟩
  | .list (item :: items) =>
    obtain ⟨lines, hspells, hlines⟩ := exists_spells_listLines (indent + 2) (item :: items)
    obtain ⟨first, hopens⟩ := exists_opens_drop (n := indent + 1) rfl hspells hlines
    exact ⟨_, (hopens.prepend hspace).imp fun _ h => (Inside.of_belongs h).mono (Nat.le_succ _)⟩
  | .map (m :: members) =>
    obtain ⟨lines, hspells, hlines⟩ := exists_spells_mapLines (indent + 2) (m :: members)
    obtain ⟨l, hl⟩ := exists_mapLines_cons (indent + 2) m members
    obtain ⟨first, hopens⟩ := exists_opens_drop (n := indent + 1) hl hspells hlines
    exact ⟨_, (hopens.prepend hspace).imp fun _ h => h.mono (Nat.le_succ _)⟩

/-- The lines of a list are its items and what stands deeper. -/
theorem exists_spells_listLines (indent : Nat) (items : List Yaml) :
    ∃ lines, Spells lines (listLines indent items) ∧
      ∀ line ∈ lines, belongs indent line = true := by
  match items with
  | [] => exact ⟨[], .nil, List.forall_mem_nil _⟩
  | item :: items =>
    obtain ⟨first, own, hvalue, hown⟩ := exists_opens_itemValue indent item
    obtain ⟨behind, hitems, hbehind⟩ := exists_spells_listLines indent items
    have hdash : Unbroken (pad indent ++ ['-']) :=
      unbroken_append.mpr ⟨unbroken_pad indent, List.forall_mem_singleton.mpr rfl⟩
    refine ⟨((pad indent ++ ['-'] ++ first) :: own) ++ behind, ?_, ?_⟩
    · have htext : listLines indent (item :: items) =
          pad indent ++ ['-'] ++ itemValue indent item ++ listLines indent items := by
        rw [listLines]
        simp only [List.append_assoc, List.cons_append, List.nil_append]
      rw [htext]
      exact (hvalue.prepend hdash).append hitems
    · refine List.forall_mem_append.mpr ⟨List.forall_mem_cons.mpr ⟨?_, fun line hline => ?_⟩,
        hbehind⟩
      · exact belongs_iff.mpr (.inr (List.prefix_append _ _))
      · exact belongs_iff.mpr (.inl (hown line hline))

end

/-! ## §5 Taking documents apart -/

/-- The line between two documents. -/
def mark : Line := ['-', '-', '-']

/-- The documents of a stream, each as its lines. -/
def documentsOf (l : List Char) : List (List Line) := (linesOf l).splitOnP (· == mark)

/-- The line of a member up to its colon. -/
def headOf (indent : Nat) (name : String) : Line := pad indent ++ name.toList ++ [':']

/-- The lines that belong to a member of a map whose value begins on a line of its own. -/
def under? (indent : Nat) (name : String) (lines : List Line) : Option (List Line) :=
  match lines.dropWhile (· != headOf indent name) with
  | [] => none
  | _ :: rest => some (rest.takeWhile (belongs indent))

/-- What stands behind the name of a member in its line. -/
def besideOf? (indent : Nat) (name : String) (lines : List Line) : Option Line :=
  (lines.find? (headOf indent name ++ [' ']).isPrefixOf).map fun line =>
    line.drop ((headOf indent name).length + 1)

/-- A stream consists of the documents that were joined by marks. -/
theorem documentsOf_joinChars {documents : List (List Line)} {texts : List (List Char)}
    (h : List.Forall₂ (fun lines text => Spells lines text ∧ mark ∉ lines) documents texts)
    (hne : documents ≠ []) : documentsOf (Text.joinChars (mark ++ ['\n']) texts) = documents := by
  have hjoin : ∃ lines, Spells lines (Text.joinChars (mark ++ ['\n']) texts) ∧
      lines.splitOnP (· == mark) = documents := by
    induction h with
    | nil => exact absurd rfl hne
    | @cons lines text documents texts hfirst hrest ih =>
      obtain ⟨hspells, hmark⟩ := hfirst
      have hlines : ∀ line ∈ lines, (line == mark) = false := by
        intro line hline
        rw [beq_eq_false_iff_ne]
        rintro rfl
        exact hmark hline
      cases hrest with
      | nil => exact ⟨lines, hspells, List.splitOnP_eq_singleton hlines⟩
      | cons hnext hmore =>
        obtain ⟨behind, hbehind, hsplit⟩ := ih (List.cons_ne_nil _ _)
        have hmarked : Spells [mark] (mark ++ ['\n']) :=
          .cons (by simp [Unbroken, mark, isBreak]) rfl .nil
        refine ⟨lines ++ ([mark] ++ behind), ?_, ?_⟩
        · rw [Text.joinChars, List.append_assoc]
          exact hspells.append (hmarked.append hbehind)
        · rw [List.singleton_append, List.splitOnP_append_cons_of_forall_mem hlines _ (by simp),
            hsplit]
  obtain ⟨lines, hspells, hsplit⟩ := hjoin
  rw [documentsOf, hspells.linesOf_eq, hsplit]

/-- A name that is written as it is, and that does not look like an item. -/
@[mk_iff] structure IsPlainKey (indent : Nat) (key : String) : Prop where
  written : keyPart indent key = headOf indent key
  unbroken : Unbroken key.toList
  colon : ':' ∉ key.toList
  start : (key.toList.head?.any fun c => c != ' ' && c != '-') = true

instance (indent : Nat) (key : String) : Decidable (IsPlainKey indent key) :=
  decidable_of_iff' _ (isPlainKey_iff indent key)

namespace IsPlainKey

variable {indent : Nat} {key name : String}

theorem unbroken_head (hkey : IsPlainKey indent key) : Unbroken (headOf indent key) :=
  unbroken_append.mpr ⟨unbroken_append.mpr ⟨unbroken_pad indent, hkey.unbroken⟩,
    List.forall_mem_singleton.mpr rfl⟩

theorem not_belongs (hkey : IsPlainKey indent key) (line : Line) :
    belongs indent (headOf indent key ++ line) = false := by
  obtain ⟨c, hhead, hc⟩ := (Option.any_eq_true _ _).mp hkey.start
  obtain ⟨l, hcons⟩ := List.head?_eq_some_iff.mp hhead
  obtain ⟨hspace, hdash⟩ : c ≠ ' ' ∧ c ≠ '-' := by simpa using hc
  rw [Bool.eq_false_iff, Ne, belongs_iff, headOf, hcons]
  simp only [List.append_assoc, List.cons_append]
  have hpad : pad (indent + 1) = pad indent ++ [' '] := List.replicate_succ'
  rintro ((hnil | hinside) | hitem)
  · simp at hnil
  · rw [hpad, List.prefix_append_right_inj, List.cons_prefix_cons] at hinside
    exact hspace hinside.1.symm
  · rw [List.prefix_append_right_inj, List.cons_prefix_cons] at hitem
    exact hdash hitem.1.symm

/-- Lines of members with other names begin otherwise. -/
theorem head_ne (hkey : IsPlainKey indent key) (hname : IsPlainKey indent name)
    (hne : key ≠ name) (first rest : Line) :
    headOf indent key ++ first ≠ headOf indent name ++ rest := by
  intro heq
  have hcut : Text.cut ':' (key.toList ++ ':' :: first) =
      Text.cut ':' (name.toList ++ ':' :: rest) := by
    simp only [headOf, List.append_assoc, List.cons_append, List.nil_append] at heq
    rw [List.append_cancel_left heq]
  rw [Text.cut_append hkey.colon, Text.cut_append hname.colon] at hcut
  exact hne (String.toList_inj.mp (Prod.mk.inj (Option.some.inj hcut)).1)

end IsPlainKey

section

variable {indent : Nat} {key name : String} {value : Yaml} {members : List (String × Yaml)}

/-- The lines of the first member of a map come before the others. -/
theorem exists_linesOf_mapLines_cons (hkey : IsPlainKey indent key) (value : Yaml)
    (members : List (String × Yaml)) : ∃ first own,
      Spells (first :: own) (memberValue indent value) ∧
      (∀ line ∈ own, Behind indent value line) ∧
      linesOf (mapLines indent ((key, value) :: members)) =
        (headOf indent key ++ first) :: own ++ linesOf (mapLines indent members) := by
  obtain ⟨first, own, hvalue, hown⟩ := exists_opens_memberValue indent value
  obtain ⟨behind, hmembers, -⟩ := exists_spells_mapLines indent members
  refine ⟨first, own, hvalue, hown, ?_⟩
  rw [mapLines, hkey.written]
  have hline := hvalue.prepend hkey.unbroken_head
  rw [(hline.append hmembers).linesOf_eq, hmembers.linesOf_eq]

/-- No line of a member begins with another name. -/
theorem ne_head_of_other (hkey : IsPlainKey indent key) (hname : IsPlainKey indent name)
    (hne : key ≠ name) (first : Line) {own : List Line}
    (hown : ∀ line ∈ own, Behind indent value line) :
    ∀ line ∈ (headOf indent key ++ first) :: own, ∀ rest, line ≠ headOf indent name ++ rest := by
  refine List.forall_mem_cons.mpr ⟨hkey.head_ne hname hne first, ?_⟩
  rintro line hline rest rfl
  have hbelongs := (hown _ hline).belongs
  rw [hname.not_belongs] at hbelongs
  cases hbelongs

/-- No line begins with a name that is not in the map. -/
theorem ne_head_of_mem_linesOf (hkeys : ∀ m ∈ members, IsPlainKey indent m.1)
    (hname : IsPlainKey indent name) (hnot : name ∉ members.map (·.1)) :
    ∀ line ∈ linesOf (mapLines indent members), ∀ rest, line ≠ headOf indent name ++ rest := by
  induction members with
  | nil => exact List.forall_mem_nil _
  | cons m members ih =>
    obtain ⟨key, value⟩ := m
    obtain ⟨hkey, hkeys⟩ := List.forall_mem_cons.mp hkeys
    obtain ⟨hne, hnot⟩ := not_or.mp (mt List.mem_cons.mpr hnot)
    obtain ⟨first, own, -, hown, hlines⟩ := exists_linesOf_mapLines_cons hkey value members
    rw [hlines]
    exact List.forall_mem_append.mpr
      ⟨ne_head_of_other hkey hname (Ne.symm hne) first hown, ih hkeys hnot⟩

theorem under?_append {before : List Line} (lines : List Line)
    (hbefore : ∀ line ∈ before, ∀ rest, line ≠ headOf indent name ++ rest) :
    under? indent name (before ++ lines) = under? indent name lines := by
  have hskip : ∀ line ∈ before, (line != headOf indent name) = true := by
    intro line hline
    have hne := hbefore line hline []
    rw [List.append_nil] at hne
    exact bne_iff_ne.mpr hne
  unfold under?
  rw [List.dropWhile_append_of_pos hskip]

theorem besideOf?_append {before : List Line} (lines : List Line)
    (hbefore : ∀ line ∈ before, ∀ rest, line ≠ headOf indent name ++ rest) :
    besideOf? indent name (before ++ lines) = besideOf? indent name lines := by
  have hnone : before.find? (headOf indent name ++ [' ']).isPrefixOf = none := by
    refine List.find?_eq_none.mpr fun line hline hbegins => ?_
    obtain ⟨rest, rfl⟩ := List.isPrefixOf_iff_prefix.mp hbegins
    exact hbefore _ hline (' ' :: rest) (by rw [List.append_assoc, List.singleton_append])
  unfold besideOf?
  rw [List.find?_append, hnone, Option.none_or]

/-- A name that is not in the map has no lines. -/
theorem under?_of_notMem (hkeys : ∀ m ∈ members, IsPlainKey indent m.1)
    (hname : IsPlainKey indent name) (hnot : name ∉ members.map (·.1)) :
    under? indent name (linesOf (mapLines indent members)) = none := by
  have h := under?_append [] (ne_head_of_mem_linesOf hkeys hname hnot)
  rw [List.append_nil] at h
  rw [h]
  rfl

/-- What follows a member begins with the line of another. -/
theorem takeWhile_belongs (hkeys : ∀ m ∈ members, IsPlainKey indent m.1) {own : List Line}
    (hown : ∀ line ∈ own, Behind indent value line) :
    (own ++ linesOf (mapLines indent members)).takeWhile (belongs indent) = own := by
  rw [List.takeWhile_append_of_pos fun line hline => (hown line hline).belongs]
  cases members with
  | nil => exact List.append_nil own
  | cons m members =>
    obtain ⟨key, value⟩ := m
    have hkey : IsPlainKey indent key := hkeys (key, value) List.mem_cons_self
    obtain ⟨first, _, -, -, hlines⟩ := exists_linesOf_mapLines_cons hkey value members
    rw [hlines, List.cons_append, List.takeWhile_cons_of_neg, List.append_nil]
    rw [hkey.not_belongs]
    exact Bool.false_ne_true

theorem mem_of_lookup (hvalue : members.lookup name = some value) : (name, value) ∈ members := by
  obtain ⟨before, behind, rfl, -⟩ := List.lookup_eq_some_iff.mp hvalue
  exact List.mem_append_right _ List.mem_cons_self

/-- Where the lines of a member stand: behind those of members with other names, and in front of a
line that does not belong to it. -/
theorem exists_linesOf_of_lookup (hkeys : ∀ m ∈ members, IsPlainKey indent m.1)
    (hvalue : members.lookup name = some value) : ∃ before first own after,
      Spells (first :: own) (memberValue indent value) ∧
      linesOf (mapLines indent members) =
        before ++ (headOf indent name ++ first) :: (own ++ after) ∧
      (∀ line ∈ before, ∀ rest, line ≠ headOf indent name ++ rest) ∧
      (own ++ after).takeWhile (belongs indent) = own := by
  induction members with
  | nil => cases hvalue
  | cons m members ih =>
    obtain ⟨key, v⟩ := m
    obtain ⟨hkey, hrest⟩ := List.forall_mem_cons.mp hkeys
    obtain ⟨first, own, hspells, hown, heq⟩ := exists_linesOf_mapLines_cons hkey v members
    by_cases hname : name = key
    · subst hname
      rw [List.lookup_cons_self, Option.some_inj] at hvalue
      subst hvalue
      exact ⟨[], first, own, _, hspells, heq, List.forall_mem_nil _, takeWhile_belongs hrest hown⟩
    · have hlookup : members.lookup name = some value := by
        rwa [List.lookup_cons, beq_eq_false_iff_ne.mpr hname] at hvalue
      have hplain : IsPlainKey indent name := hrest (name, value) (mem_of_lookup hlookup)
      obtain ⟨before, first', own', after, hspells', heq', hbefore, htake⟩ := ih hrest hlookup
      refine ⟨(headOf indent key ++ first) :: own ++ before, first', own', after, hspells', ?_,
        ?_, htake⟩
      · rw [heq, heq', List.append_assoc]
      · exact List.forall_mem_append.mpr
          ⟨ne_head_of_other hkey hplain (Ne.symm hname) first hown, hbefore⟩

/-- The lines of a member are found by its name, where its value begins on a line of its own. -/
theorem under?_mapLines (hkeys : ∀ m ∈ members, IsPlainKey indent m.1) {own : List Line}
    (hvalue : members.lookup name = some value)
    (hown : Spells ([] :: own) (memberValue indent value)) :
    under? indent name (linesOf (mapLines indent members)) = some own := by
  obtain ⟨before, first, own', after, hspells, heq, hbefore, htake⟩ :=
    exists_linesOf_of_lookup hkeys hvalue
  obtain ⟨rfl, rfl⟩ := List.cons.inj (hspells.linesOf_eq.symm.trans hown.linesOf_eq)
  rw [heq, under?_append _ hbefore, under?, List.append_nil, List.dropWhile_cons_of_neg (by simp)]
  simp only
  rw [htake]

/-- The lines of a map in a map. -/
theorem under?_map (hkeys : ∀ m ∈ members, IsPlainKey indent m.1) {m : String × Yaml}
    {inner : List (String × Yaml)} (hvalue : members.lookup name = some (.map (m :: inner))) :
    under? indent name (linesOf (mapLines indent members)) =
      some (linesOf (mapLines (indent + 2) (m :: inner))) := by
  obtain ⟨lines, hlines, -⟩ := exists_spells_mapLines (indent + 2) (m :: inner)
  have hown : Spells ([] :: lines) (memberValue indent (.map (m :: inner))) :=
    .cons (List.forall_mem_nil _) rfl hlines
  rw [under?_mapLines hkeys hvalue hown, hlines.linesOf_eq]

/-- A text of one line is found beside its name. -/
theorem besideOf?_mapLines (hkeys : ∀ m ∈ members, IsPlainKey indent m.1) {s : String}
    (hvalue : members.lookup name = some (.text s)) (hs : Unbroken s.toList) :
    besideOf? indent name (linesOf (mapLines indent members)) = some (scalar (indent + 2) s) := by
  have hline : Spells [' ' :: scalar (indent + 2) s] (memberValue indent (.text s)) :=
    spells_endLine (List.cons_ne_nil _ _)
      (List.forall_mem_cons.mpr ⟨rfl, unbroken_scalar (indent + 2) hs⟩)
  obtain ⟨before, first, own, after, hspells, heq, hbefore, -⟩ :=
    exists_linesOf_of_lookup hkeys hvalue
  obtain ⟨rfl, rfl⟩ := List.cons.inj (hspells.linesOf_eq.symm.trans hline.linesOf_eq)
  have hfound : (headOf indent name ++ [' ']).isPrefixOf
      (headOf indent name ++ ' ' :: scalar (indent + 2) s) = true := by simp
  rw [heq, besideOf?_append _ hbefore, besideOf?, List.find?_cons_of_pos hfound, Option.map_some,
    List.drop_append]
  simp

end

/-! ## §6 Streams -/

def isList : Yaml → Bool
  | .list _ => true
  | _ => false

theorem Behind.inside {indent : Nat} {v : Yaml} {line : Line} (hv : v.isList = false)
    (h : Behind indent v line) : Inside (indent + 2) line := by
  cases v with
  | list items => cases hv
  | text s => exact h
  | map members => exact h

/-- A document without lists at its root holds no mark. -/
theorem mark_notMem_linesOf {members : List (String × Yaml)}
    (hmembers : ∀ m ∈ members, IsPlainKey 0 m.1 ∧ m.2.isList = false) :
    mark ∉ linesOf (mapLines 0 members) := by
  induction members with
  | nil => exact List.not_mem_nil
  | cons m members ih =>
    obtain ⟨key, v⟩ := m
    obtain ⟨⟨hkey, hv⟩, hrest⟩ := List.forall_mem_cons.mp hmembers
    obtain ⟨first, own, -, hown, hlines⟩ := exists_linesOf_mapLines_cons hkey v members
    have hdash : ¬ Inside 2 mark := by
      rintro (h | h)
      · cases h
      · exact absurd h (by decide)
    rw [hlines]
    intro hmem
    rcases List.mem_append.mp hmem with hmem | hmem
    · rcases List.mem_cons.mp hmem with hhead | hmem
      · -- A mark would be an item at the root.
        have hbelongs : belongs 0 mark = true := by decide
        rw [hhead, hkey.not_belongs] at hbelongs
        cases hbelongs
      · exact hdash ((hown _ hmem).inside hv)
    · exact ih hrest hmem

/-- A stream of such documents is taken apart into them. -/
theorem documentsOf_join {documents : List (List (String × Yaml))} (hne : documents ≠ [])
    (hdocuments : ∀ d ∈ documents, ∀ m ∈ d, IsPlainKey 0 m.1 ∧ m.2.isList = false) :
    documentsOf (Text.join "---\n" (documents.map document)).toList =
      documents.map fun d => linesOf (mapLines 0 d) := by
  have htexts : (documents.map document).map String.toList = documents.map (mapLines 0) := by
    rw [List.map_map]
    exact List.map_congr_left fun d _ => String.toList_ofList
  rw [Text.join, String.toList_ofList, htexts]
  refine documentsOf_joinChars ?_ (mt List.map_eq_nil_iff.mp hne)
  rw [List.forall₂_map_left_iff, List.forall₂_map_right_iff, List.forall₂_same]
  intro d hd
  obtain ⟨lines, hspells, -⟩ := exists_spells_mapLines 0 d
  refine ⟨?_, mark_notMem_linesOf (hdocuments d hd)⟩
  rw [hspells.linesOf_eq]
  exact hspells

/-! ## §7 Items -/

/-- The line of a text in a list. -/
def itemLine (indent : Nat) (s : String) : Line := pad indent ++ '-' :: ' ' :: scalar (indent + 2) s

/-- Whether an item is a text that begins in some way, in quotes or not. -/
def beginsItem (indent : Nat) (start : List Char) (line : Line) : Bool :=
  match line.drop (indent + 2) with
  | '\'' :: rest => start.isPrefixOf rest
  | '"' :: rest => start.isPrefixOf rest
  | written => start.isPrefixOf written

/-- Texts of one line make one line each. -/
theorem spells_listLines_texts (indent : Nat) {texts : List String}
    (htexts : ∀ s ∈ texts, Unbroken s.toList) :
    Spells (texts.map (itemLine indent)) (listLines indent (texts.map .text)) := by
  induction texts with
  | nil => exact .nil
  | cons s texts ih =>
    obtain ⟨hs, htexts⟩ := List.forall_mem_cons.mp htexts
    have hitem : Spells [' ' :: scalar (indent + 2) s] (itemValue indent (.text s)) :=
      spells_endLine (List.cons_ne_nil _ _)
        (List.forall_mem_cons.mpr ⟨rfl, unbroken_scalar (indent + 2) hs⟩)
    have hdash : Unbroken (pad indent ++ ['-']) :=
      unbroken_append.mpr ⟨unbroken_pad indent, List.forall_mem_singleton.mpr rfl⟩
    have hall := (hitem.prepend hdash).append (ih htexts)
    simp only [List.append_assoc, List.cons_append, List.nil_append] at hall
    exact hall

/-- The items of a list of texts in a map. -/
theorem under?_texts {indent : Nat} {name : String} {members : List (String × Yaml)}
    (hkeys : ∀ m ∈ members, IsPlainKey indent m.1) {s : String} {texts : List String}
    (hvalue : members.lookup name = some (.list ((s :: texts).map .text)))
    (htexts : ∀ t ∈ s :: texts, Unbroken t.toList) :
    under? indent name (linesOf (mapLines indent members)) =
      some ((s :: texts).map (itemLine indent)) := by
  have hown : Spells ([] :: (s :: texts).map (itemLine indent))
      (memberValue indent (.list ((s :: texts).map .text))) :=
    .cons (List.forall_mem_nil _) rfl (spells_listLines_texts indent htexts)
  exact under?_mapLines hkeys hvalue hown

/-- Characters that stand for themselves in every style. -/
def isPlainChar (c : Char) : Bool :=
  isPrintable c && !isBreak c && c != '\'' && c != '"' && c != '\\'

theorem isPrefixOf_singleQuoted (indent : Nat) {start : List Char}
    (hstart : ∀ c ∈ start, isPlainChar c = true) {l : List Char} (hl : Unbroken l) :
    start.isPrefixOf (singleQuoted indent false l) = start.isPrefixOf l := by
  induction start generalizing l with
  | nil => simp
  | cons c start ih =>
    obtain ⟨hc, hstart⟩ := List.forall_mem_cons.mp hstart
    simp only [isPlainChar, Bool.and_eq_true, bne_iff_ne] at hc
    cases l with
    | nil => simp [singleQuoted, List.isPrefixOf, hc.1.1.2]
    | cons d l =>
      obtain ⟨hd, hl⟩ := List.forall_mem_cons.mp hl
      rw [singleQuoted, if_neg (Bool.eq_false_iff.mp hd)]
      by_cases hquote : d = '\''
      · have hother : (c == '\'') = false := beq_eq_false_iff_ne.mpr hc.1.1.2
        simp [hquote, List.isPrefixOf, hother]
      · simp [hquote, List.isPrefixOf, ih hstart hl]

theorem isPrefixOf_doubleQuoted {start : List Char} (hstart : ∀ c ∈ start, isPlainChar c = true)
    (l : List Char) :
    start.isPrefixOf (l.flatMap doubleQuotedChar ++ ['"']) = start.isPrefixOf l := by
  induction start generalizing l with
  | nil => simp
  | cons c start ih =>
    obtain ⟨hc, hstart⟩ := List.forall_mem_cons.mp hstart
    have hplain : doubleQuotedChar c = [c] := by
      simp only [isPlainChar, Bool.and_eq_true, Bool.not_eq_true', bne_iff_ne] at hc
      simp [doubleQuotedChar, hc]
    simp only [isPlainChar, Bool.and_eq_true, bne_iff_ne] at hc
    cases l with
    | nil => simp [List.isPrefixOf, hc.1.2]
    | cons d l =>
      by_cases hcd : c = d
      · subst hcd
        rw [List.flatMap_cons, hplain]
        simp [List.isPrefixOf, ih hstart]
      · -- Another character stands for itself or begins an escape.
        have hother : ∃ e rest, doubleQuotedChar d = e :: rest ∧ c ≠ e := by
          unfold doubleQuotedChar
          split
          · unfold escape
            repeat' split
            all_goals exact ⟨'\\', _, rfl, hc.2⟩
          · exact ⟨d, [], rfl, hcd⟩
        obtain ⟨e, rest, heq, hne⟩ := hother
        have hescaped : (c == e) = false := beq_eq_false_iff_ne.mpr hne
        have hread : (c == d) = false := beq_eq_false_iff_ne.mpr hcd
        rw [List.flatMap_cons, heq]
        simp [List.isPrefixOf, hescaped, hread]

/-- A plain text does not begin with a quote. -/
theorem not_quote_of_plain {s : String} (hs : styleOf s = .plain) :
    s.toList.head? ≠ some '\'' ∧ s.toList.head? ≠ some '"' := by
  have hbegin : beginsWithIndicator s.toList = false := by
    have hplain := plainAllowed_of_plain hs
    simp only [plainAllowed, hasIndicators, Bool.and_eq_true, Bool.not_eq_true',
      Bool.or_eq_false_iff] at hplain
    exact hplain.2.1.2
  cases hl : s.toList with
  | nil => simp
  | cons c l =>
    rw [hl, beginsWithIndicator, Bool.or_eq_false_iff] at hbegin
    refine ⟨fun hc => ?_, fun hc => ?_⟩
    all_goals
      rw [List.head?_cons, Option.some_inj] at hc
      subst hc
      exact absurd hbegin.1 (by decide)

/-- The beginning of a text shows in its item. -/
theorem beginsItem_itemLine (indent : Nat) {start : List Char}
    (hstart : ∀ c ∈ start, isPlainChar c = true) {s : String} (hs : Unbroken s.toList) :
    beginsItem indent start (itemLine indent s) = start.isPrefixOf s.toList := by
  have hdrop : (itemLine indent s).drop (indent + 2) = scalar (indent + 2) s := by
    have hline : itemLine indent s = (pad indent ++ ['-', ' ']) ++ scalar (indent + 2) s := by
      simp [itemLine]
    rw [hline, List.drop_left' (by simp [pad])]
  unfold beginsItem
  rw [hdrop]
  unfold scalar
  cases hstyle : styleOf s with
  | single => exact isPrefixOf_singleQuoted (indent + 2) hstart hs
  | double => exact isPrefixOf_doubleQuoted hstart s.toList
  | literal =>
    have hnewline := hs _ (newline_mem_of_literal hstyle)
    cases hnewline
  | plain =>
    show (match s.toList with
      | '\'' :: rest => start.isPrefixOf rest
      | '"' :: rest => start.isPrefixOf rest
      | written => start.isPrefixOf written) = _
    obtain ⟨hsingle, hdouble⟩ := not_quote_of_plain hstyle
    split
    next heq => exact absurd (congrArg List.head? heq) hsingle
    next heq => exact absurd (congrArg List.head? heq) hdouble
    next => rfl

end CatalogSync.Yaml
