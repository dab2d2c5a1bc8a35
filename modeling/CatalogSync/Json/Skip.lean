import CatalogSync.Json.Scalar
/-!
# Passing over a value

What follows a value that does not matter. The value must be well formed, but its numbers may be out
of range, its texts may hold halves of surrogate pairs, and its containers may nest to any depth.
-/

namespace CatalogSync.Json

/-- What follows a value that holds no other. -/
def skipScalar (l : List Char) : Option (List Char) :=
  match l with
  | '"' :: rest => skipString rest
  | _ =>
    match readWord l with
    | some (_, rest) => some rest
    | none => (readNumeral l).map (·.2)

mutual

/-- What follows a value at the front of a text; every step takes a character. -/
def skipValue : Nat → List Char → Option (List Char)
  | 0, _ => none
  | fuel + 1, l =>
    match skipSpace l with
    | '[' :: rest =>
      match skipSpace rest with
      | ']' :: after => some after
      | rest => skipItems fuel rest
    | '\x7b' :: rest =>
      match skipSpace rest with
      | '\x7d' :: after => some after
      | rest => skipMembers fuel rest
    | l => skipScalar l

/-- What follows a list whose next item is at the front of a text. -/
def skipItems : Nat → List Char → Option (List Char)
  | 0, _ => none
  | fuel + 1, l =>
    match skipValue fuel l with
    | none => none
    | some rest =>
      match skipSpace rest with
      | ']' :: after => some after
      | ',' :: after => skipItems fuel after
      | _ => none

/-- What follows an object whose next member is at the front of a text. -/
def skipMembers : Nat → List Char → Option (List Char)
  | 0, _ => none
  | fuel + 1, l =>
    match skipSpace l with
    | '"' :: rest =>
      match (skipString rest).map skipSpace with
      | some (':' :: after) =>
        match skipValue fuel after with
        | none => none
        | some rest =>
          match skipSpace rest with
          | '\x7d' :: after => some after
          | ',' :: after => skipMembers fuel after
          | _ => none
      | _ => none
    | _ => none

end

end CatalogSync.Json
