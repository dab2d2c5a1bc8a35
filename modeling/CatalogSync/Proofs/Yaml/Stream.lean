import CatalogSync.Proofs.Yaml.Lines
/-!
# Cutting streams of documents

A stream is cut at the lines that are marks. Documents that end their lines and hold no mark are
what is found between the marks of a stream of them, to the character (`cutAtMarks_joinChars`).

Readers differ in what ends a line for them: to YAML it is any break, to others a newline alone.
So the cut depends on the ends of lines. A document without a mark among its lines has none for any
reader that knows no other breaks (`not_marks_of_notMem`).
-/

namespace CatalogSync.Yaml

/-! ## §1 Lines with their ends -/

/-- The lines of a text, each with the character that ends it. -/
def endedLines (isEnd : Char → Bool) : List Char → List Line
  | [] => []
  | c :: rest =>
    if isEnd c then [c] :: endedLines isEnd rest
    else
      match endedLines isEnd rest with
      | [] => [[c]]
      | line :: more => (c :: line) :: more

/-- Whether a line is a mark, its end aside. -/
def marks (isEnd : Char → Bool) (line : Line) : Bool := line.takeWhile (!isEnd ·) == mark

/-- The texts between the marks of a stream. -/
def cutAtMarks (isEnd : Char → Bool) (l : List Char) : List (List Char) :=
  ((endedLines isEnd l).splitOnP (marks isEnd)).map List.flatten

/-- A text whose last line is ended as well. -/
def Ended (isEnd : Char → Bool) (l : List Char) : Prop := ∀ c ∈ l.getLast?, isEnd c = true

section

variable {isEnd : Char → Bool} {l l' : List Char}

theorem endedLines_ne_nil (hl : l ≠ []) : endedLines isEnd l ≠ [] := by
  cases l with
  | nil => exact absurd rfl hl
  | cons c l =>
    rw [endedLines]
    split
    · exact List.cons_ne_nil _ _
    · split <;> exact List.cons_ne_nil _ _

theorem flatten_endedLines (l : List Char) : (endedLines isEnd l).flatten = l := by
  induction l with
  | nil => rfl
  | cons c l ih =>
    rw [endedLines]
    split
    · rw [List.flatten_cons, ih, List.singleton_append]
    · split
      next hnil =>
        rw [hnil] at ih
        rw [← ih]
        rfl
      next line more hcons =>
        rw [hcons] at ih
        rw [← ih]
        rfl

theorem Ended.tail {c : Char} (h : Ended isEnd (c :: l)) : Ended isEnd l := by
  cases l with
  | nil =>
    intro d hd
    cases hd
  | cons d l =>
    intro e he
    exact h e (by rwa [List.getLast?_cons_cons])

/-- What stands in front of a line without an end is part of the line. -/
theorem endedLines_cons_of_not {c : Char} (hc : isEnd c = false) {line : Line} {more : List Line}
    (h : endedLines isEnd l = line :: more) :
    endedLines isEnd (c :: l) = (c :: line) :: more := by
  rw [endedLines, hc, h]
  rfl

theorem endedLines_prepend {a : List Char} (ha : ∀ c ∈ a, isEnd c = false) {line : Line}
    {more : List Line} (h : endedLines isEnd l = line :: more) :
    endedLines isEnd (a ++ l) = (a ++ line) :: more := by
  induction a with
  | nil => exact h
  | cons c a ih =>
    obtain ⟨hc, ha⟩ := List.forall_mem_cons.mp ha
    exact endedLines_cons_of_not hc (ih ha)

/-- Where the first text ends its lines, the lines of both are those of each. -/
theorem endedLines_append (h : Ended isEnd l) (l' : List Char) :
    endedLines isEnd (l ++ l') = endedLines isEnd l ++ endedLines isEnd l' := by
  induction l with
  | nil => rfl
  | cons c l ih =>
    cases hc : isEnd c with
    | true => rw [List.cons_append, endedLines, endedLines, if_pos hc, if_pos hc, ih h.tail,
        List.cons_append]
    | false =>
      -- The text goes on, because its last character is an end.
      have hne : l ≠ [] := by
        rintro rfl
        exact Bool.false_ne_true (hc.symm.trans (h c rfl))
      obtain ⟨line, more, hlines⟩ :=
        List.exists_cons_of_ne_nil (endedLines_ne_nil hne : endedLines isEnd l ≠ [])
      have hboth : endedLines isEnd (l ++ l') = line :: (more ++ endedLines isEnd l') := by
        rw [ih h.tail, hlines, List.cons_append]
      rw [List.cons_append, endedLines_cons_of_not hc hboth, endedLines_cons_of_not hc hlines,
        List.cons_append]

end

/-! ## §2 Marks -/

section

variable {isEnd : Char → Bool} (hends : ∀ c, isEnd c = true → isBreak c = true)
include hends

theorem not_isEnd_of_unbroken {l : List Char} (hl : Unbroken l) : ∀ c ∈ l, isEnd c = false :=
  fun c hc => Bool.eq_false_iff.mpr fun h => Bool.false_ne_true ((hl c hc).symm.trans (hends c h))

/-- A text that has no mark among its lines has none for a reader that knows fewer breaks. -/
theorem not_marks_of_notMem {lines : List Line} {l : List Char} (h : Spells lines l)
    (hended : Ended isEnd l) (hmark : mark ∉ lines) :
    ∀ line ∈ endedLines isEnd l, marks isEnd line = false := by
  induction h with
  | nil => exact List.forall_mem_nil _
  | @cons line c lines l hline hc hrest ih =>
    obtain ⟨hne, hmark⟩ := not_or.mp (mt List.mem_cons.mpr hmark)
    have hplain := not_isEnd_of_unbroken hends hline
    have htail : Ended isEnd l := by
      intro d hd
      refine hended d ?_
      rw [List.getLast?_append, List.getLast?_cons, Option.mem_def.mp hd]
      rfl
    have hskip : ∀ rest, (line ++ rest).takeWhile (!isEnd ·) = line ++ rest.takeWhile (!isEnd ·) :=
      fun rest => List.takeWhile_append_of_pos fun d hd => by rw [hplain d hd]; rfl
    cases hend : isEnd c with
    | true =>
      have hlines : endedLines isEnd (c :: l) = [c] :: endedLines isEnd l := by
        rw [endedLines, if_pos hend]
      rw [endedLines_prepend hplain hlines]
      refine List.forall_mem_cons.mpr ⟨?_, ih htail hmark⟩
      rw [marks, hskip, List.takeWhile_cons_of_neg (by simp [hend]), List.append_nil]
      exact beq_eq_false_iff_ne.mpr (Ne.symm hne)
    | false =>
      -- For this reader the line goes on behind the break, which no mark holds.
      have hmore : l ≠ [] := by
        rintro rfl
        exact Bool.false_ne_true (hend.symm.trans (hended c (by simp)))
      obtain ⟨first, behind, hlines⟩ :=
        List.exists_cons_of_ne_nil (endedLines_ne_nil hmore : endedLines isEnd _ ≠ [])
      rw [endedLines_prepend hplain (endedLines_cons_of_not hend hlines)]
      refine List.forall_mem_cons.mpr ⟨?_, fun x hx => ih htail hmark x ?_⟩
      · rw [marks, hskip, List.takeWhile_cons_of_pos (by simp [hend])]
        refine beq_eq_false_iff_ne.mpr fun heq => ?_
        have hunbroken : Unbroken mark := by decide
        have hfalse := hunbroken c (heq ▸ List.mem_append_right _ List.mem_cons_self)
        exact Bool.false_ne_true (hfalse.symm.trans hc)
      · rw [hlines]
        exact List.mem_cons_of_mem _ hx

/-- What lies between the marks of a stream are the texts that were joined by marks. -/
theorem cutAtMarks_joinChars (hnewline : isEnd '\n' = true) {texts : List (List Char)}
    (hne : texts ≠ []) (htexts : ∀ text ∈ texts, Ended isEnd text ∧
      ∀ line ∈ endedLines isEnd text, marks isEnd line = false) :
    cutAtMarks isEnd (Text.joinChars (mark ++ ['\n']) texts) = texts := by
  have hdash : ∀ c ∈ mark, isEnd c = false :=
    not_isEnd_of_unbroken hends (by decide)
  have hline : endedLines isEnd (mark ++ ['\n']) = [mark ++ ['\n']] := by
    refine endedLines_prepend hdash ?_
    rw [endedLines, if_pos hnewline]
    rfl
  have hmarks : marks isEnd (mark ++ ['\n']) = true := by
    rw [marks, List.takeWhile_append_of_pos fun c hc => by rw [hdash c hc]; rfl,
      List.takeWhile_cons_of_neg (by simp [hnewline])]
    rfl
  have hended : Ended isEnd (mark ++ ['\n']) := by
    intro c hc
    rw [List.getLast?_concat, Option.mem_some] at hc
    exact hc ▸ hnewline
  unfold cutAtMarks
  induction texts with
  | nil => exact absurd rfl hne
  | cons text texts ih =>
    obtain ⟨⟨htext, hplain⟩, hrest⟩ := List.forall_mem_cons.mp htexts
    cases texts with
    | nil =>
      rw [Text.joinChars, List.splitOnP_eq_singleton hplain, List.map_singleton,
        flatten_endedLines]
    | cons next more =>
      rw [Text.joinChars, List.append_assoc, endedLines_append htext, endedLines_append hended,
        hline, List.singleton_append, List.splitOnP_append_cons_of_forall_mem hplain _ hmarks,
        List.map_cons, flatten_endedLines, ih (List.cons_ne_nil _ _) hrest]

end

/-! ## §3 Ends of documents -/

theorem ended_append {isEnd : Char → Bool} (l : List Char) {l' : List Char} (hne : l' ≠ [])
    (h : Ended isEnd l') : Ended isEnd (l ++ l') := by
  intro c hc
  refine h c ?_
  rwa [List.getLast?_append, List.getLast?_eq_some_getLast hne, Option.some_or,
    ← List.getLast?_eq_some_getLast hne] at hc

/-- Lines that are ended by any break are ended for a reader of YAML. -/
theorem Spells.ended {lines : List Line} {l : List Char} (h : Spells lines l) :
    Ended isBreak l := by
  induction h with
  | nil =>
    intro c hc
    cases hc
  | @cons line c lines l _ hc hrest ih =>
    refine ended_append line (List.cons_ne_nil c l) ?_
    cases hrest with
    | nil =>
      intro d hd
      cases hd
      exact hc
    | cons hline hd hmore =>
      exact ended_append [c] (List.append_ne_nil_of_right_ne_nil _ (List.cons_ne_nil _ _)) ih

/-- Whether a character ends a line for a reader that knows newlines only. -/
def isNewline (c : Char) : Bool := c == '\n'

/-- A text that ends in no break but a newline. -/
def EndsPlainly (l : List Char) : Prop := ∀ c ∈ l.getLast?, isBreak c = true → c = '\n'

theorem EndsPlainly.of_unbroken {l : List Char} (h : Unbroken l) : EndsPlainly l := by
  intro c hc hbreak
  cases (h c (List.mem_of_getLast? hc)).symm.trans hbreak

theorem EndsPlainly.behindSpace {l : List Char} (h : EndsPlainly l) : EndsPlainly (' ' :: l) := by
  intro c hc hbreak
  cases hlast : l.getLast? with
  | none =>
    rw [List.getLast?_cons, hlast] at hc
    cases hc
    cases hbreak
  | some d =>
    rw [List.getLast?_cons, hlast] at hc
    cases hc
    exact h _ hlast hbreak

theorem ended_endLine {l : List Char} (h : EndsPlainly l) : Ended isNewline (endLine l) := by
  unfold endLine
  cases hlast : l.getLast? with
  | none =>
    intro c hc
    cases hlast.symm.trans hc
  | some c =>
    simp only
    split
    next hc =>
      intro d hd
      cases hlast.symm.trans hd
      exact beq_iff_eq.mpr (h c hlast hc)
    next =>
      refine ended_append l (List.cons_ne_nil _ _) fun d hd => ?_
      cases hd
      rfl

theorem getLast?_literalLines (indent : Nat) (atBreak : Bool) (l : List Char) :
    (literalLines indent atBreak l).getLast? = l.getLast? := by
  induction l generalizing atBreak with
  | nil => rfl
  | cons c l ih =>
    have hcons : ∀ atBreak, (c :: literalLines indent atBreak l).getLast? = (c :: l).getLast? :=
      fun atBreak => by rw [List.getLast?_cons, List.getLast?_cons, ih]
    rw [literalLines]
    split
    · exact hcons true
    · rw [List.getLast?_append, hcons false, List.getLast?_cons, Option.some_or]

theorem getLast?_singleQuoted (indent : Nat) (atBreak : Bool) (l : List Char) :
    (singleQuoted indent atBreak l).getLast? = some '\'' := by
  induction l generalizing atBreak with
  | nil => rw [singleQuoted, List.getLast?_concat]
  | cons c l ih =>
    rw [singleQuoted]
    split
    · rw [List.getLast?_cons, ih]
      rfl
    · rw [List.getLast?_append, ih]
      rfl

/-- A text ends plainly as a scalar when it does by itself. -/
theorem endsPlainly_scalar (indent : Nat) {s : String} (hs : EndsPlainly s.toList) :
    EndsPlainly (scalar indent s) := by
  unfold scalar
  cases hstyle : styleOf s with
  | plain => exact hs
  | single =>
    intro c hc hbreak
    rw [scalarIn, List.getLast?_cons, getLast?_singleQuoted] at hc
    cases hc
    cases hbreak
  | double =>
    intro c hc hbreak
    rw [scalarIn, ← List.cons_append, List.getLast?_concat] at hc
    cases hc
    cases hbreak
  | literal =>
    intro c hc hbreak
    refine hs c ?_ hbreak
    have hne : s.toList ≠ [] := List.ne_nil_of_mem (newline_mem_of_literal hstyle)
    rw [scalarIn, List.getLast?_append, List.getLast?_cons, getLast?_literalLines,
      List.getLast?_eq_some_getLast hne] at hc
    rw [List.getLast?_eq_some_getLast hne]
    exact hc

section

variable {isEnd : Char → Bool}

theorem mapLines_append (indent : Nat) (front back : List (String × Yaml)) :
    mapLines indent (front ++ back) = mapLines indent front ++ mapLines indent back := by
  induction front with
  | nil => rfl
  | cons m front ih =>
    obtain ⟨key, v⟩ := m
    rw [List.cons_append, mapLines, mapLines, ih, List.append_assoc _ (mapLines _ _)]

theorem memberValue_ne_nil (indent : Nat) (v : Yaml) : memberValue indent v ≠ [] := by
  obtain ⟨first, rest, hspells, -⟩ := exists_opens_memberValue indent v
  intro hnil
  rw [hnil] at hspells
  generalize htext : ([] : List Char) = text at hspells
  cases hspells with
  | cons _ _ _ =>
    exact absurd htext.symm (List.append_ne_nil_of_right_ne_nil _ (List.cons_ne_nil _ _))

/-- A map ends as its last member does. -/
theorem ended_mapLines {indent : Nat} (front : List (String × Yaml)) (key : String) {v : Yaml}
    (h : Ended isEnd (memberValue indent v)) :
    Ended isEnd (mapLines indent (front ++ [(key, v)])) := by
  rw [mapLines_append, mapLines, mapLines, List.append_nil, ← List.append_assoc]
  exact ended_append _ (memberValue_ne_nil indent v) h

theorem ended_memberValue_map {indent : Nat} (front : List (String × Yaml)) (key : String)
    {v : Yaml} (h : Ended isEnd (memberValue (indent + 2) v)) :
    Ended isEnd (memberValue indent (.map (front ++ [(key, v)]))) := by
  obtain ⟨m, members, hcons⟩ := List.exists_cons_of_ne_nil
    (List.append_ne_nil_of_right_ne_nil front (List.cons_ne_nil (key, v) []))
  have hended := ended_mapLines front key h
  rw [hcons] at hended ⊢
  have hne : mapLines (indent + 2) (m :: members) ≠ [] := by
    obtain ⟨l, hl⟩ := exists_mapLines_cons (indent + 2) m members
    rw [hl]
    exact List.append_ne_nil_of_left_ne_nil (List.cons_ne_nil _ _) l
  rw [memberValue]
  exact ended_append ['\n'] hne hended

end

/-! ## §4 Streams -/

/-- A stream is cut into the texts of its documents. -/
theorem cutAtMarks_join {isEnd : Char → Bool} (hends : ∀ c, isEnd c = true → isBreak c = true)
    (hnewline : isEnd '\n' = true) {documents : List (List (String × Yaml))} (hne : documents ≠ [])
    (hdocuments : ∀ d ∈ documents, ∀ m ∈ d, IsPlainKey 0 m.1 ∧ m.2.isList = false)
    (hended : ∀ d ∈ documents, Ended isEnd (mapLines 0 d)) :
    cutAtMarks isEnd (Text.join "---\n" (documents.map document)).toList =
      documents.map fun d => (document d).toList := by
  rw [Text.join, String.toList_ofList, List.map_map]
  refine cutAtMarks_joinChars hends hnewline (mt List.map_eq_nil_iff.mp hne) ?_
  intro text htext
  obtain ⟨d, hd, rfl⟩ := List.mem_map.mp htext
  obtain ⟨lines, hspells, -⟩ := exists_spells_mapLines 0 d
  have hmark := mark_notMem_linesOf (hdocuments d hd)
  rw [hspells.linesOf_eq] at hmark
  have htext : (document d).toList = mapLines 0 d := String.toList_ofList
  rw [Function.comp_apply, htext]
  exact ⟨hended d hd, not_marks_of_notMem hends hspells (hended d hd) hmark⟩

end CatalogSync.Yaml
