import ModuleStubs.Yaml.Cursor

/-! Line ends inside a scalar of several lines. A single line feed folds to a space;
further line ends and the separators are kept. -/

namespace ModuleStubs.Yaml

def folded (first : Char) (more : List Char) : List Char :=
  if first ≠ '\n' then first :: more
  else if more.isEmpty then [' ']
  else more

def plainBreaks (fuel : Nat) (c : Cursor) : Option (List Char) × Cursor :=
  match fuel with
  | 0 => (some [], c)
  | fuel + 1 =>
    match c.skipSpaces.lineBreak? with
    | none => (some [], c.skipSpaces)
    | some (ch, c) =>
      if c.seesDocumentMarker then (none, c)
      else
        let (more, c) := plainBreaks fuel c
        (more.map (ch :: ·), c)

def quotedBreaks? (fuel : Nat) (c : Cursor) : Option (List Char × Cursor) :=
  match fuel with
  | 0 => none
  | fuel + 1 =>
    if c.seesDocumentMarker then none
    else
      let c := c.skipWhile isBlank
      match c.lineBreak? with
      | none => some ([], c)
      | some (ch, c) => do
        let (more, c) ← quotedBreaks? fuel c
        some (ch :: more, c)

end ModuleStubs.Yaml
