import ModuleStubs.Text.Digit
import ModuleStubs.Yaml.Cursor

/-! Scalars of whole lines below a header. The literal kind keeps line ends, the
folded kind joins lines that begin with text. -/

namespace ModuleStubs.Yaml

inductive Chomping where
  | clip
  | strip
  | keep

structure BlockHeader where
  chomping : Chomping
  /-- How much deeper than its parent the text is indented, if the header says so. -/
  increment : Option Nat

def chomping? : Option Char → Option Chomping
  | some '+' => some .keep
  | some '-' => some .strip
  | _ => none

def blockDigit? (ch : Option Char) : Option Nat :=
  match ch with
  | some d => if Text.isDigit d then some (Text.asciiDigit d) else none
  | none => none

def blockHeader? (c : Cursor) : Option (BlockHeader × Cursor) := do
  let (header, c) : BlockHeader × Cursor :=
    match chomping? c.peek with
    | some chomping =>
      match blockDigit? c.step.peek with
      | some d => (⟨chomping, some d⟩, c.step.step)
      | none => (⟨chomping, none⟩, c.step)
    | none =>
      match blockDigit? c.peek with
      | some d =>
        match chomping? c.step.peek with
        | some chomping => (⟨chomping, some d⟩, c.step.step)
        | none => (⟨.clip, some d⟩, c.step)
      | none => (⟨.clip, none⟩, c)
  if header.increment = some 0 then none
  else if !(c.sees ' ' || endsLine c.peek) then none
  else
    let c := c.skipSpaces.skipComment
    if !endsLine c.peek then none
    else some (header, ((c.lineBreak?).map (·.2)).getD c)

/-- Leading blank lines when no indentation is given; the deepest one counts. -/
def blockIndentation (fuel : Nat) (deepest : Nat) (c : Cursor) : (List Char × Nat) × Cursor :=
  match fuel with
  | 0 => (([], deepest), c)
  | fuel + 1 =>
    let after := c.skipSpaces
    let deepest := if after.index = c.index then deepest else max deepest after.column
    match after.lineBreak? with
    | none => (([], deepest), after)
    | some (ch, c) =>
      let ((breaks, deepest), c) := blockIndentation fuel deepest c
      ((ch :: breaks, deepest), c)

def blockBreaks (fuel : Nat) (indent : Nat) (c : Cursor) : List Char × Cursor :=
  match fuel with
  | 0 => ([], c)
  | fuel + 1 =>
    let c := c.skipSpacesUpTo (indent - c.column)
    match c.lineBreak? with
    | none => ([], c)
    | some (ch, c) =>
      let (breaks, c) := blockBreaks fuel indent c
      (ch :: breaks, c)

structure BlockText where
  text : List Char
  lastBreak : List Char
  breaks : List Char
  cursor : Cursor

def startsWithText (c : Cursor) : Bool := !((c.peek.map isBlank).getD false)

def blockLines (fuel : Nat) (isFolded : Bool) (indent : Nat) (breaks : List Char) (c : Cursor) :
    BlockText :=
  match fuel with
  | 0 => ⟨[], [], breaks, c⟩
  | fuel + 1 =>
    if c.column ≠ indent ∨ c.rest.isEmpty then ⟨[], [], breaks, c⟩
    else
      let flush := startsWithText c
      let (line, c) := c.run fun ch => !isBreak ch
      let (lastBreak, c) :=
        match c.lineBreak? with
        | some (ch, c) => ([ch], c)
        | none => ([], c)
      let (after, c) := blockBreaks (c.rest.length + 1) indent c
      if c.column = indent ∧ !c.rest.isEmpty then
        let joint :=
          if isFolded && lastBreak = ['\n'] && flush && startsWithText c then
            if after.isEmpty then [' '] else []
          else lastBreak
        let more := blockLines fuel isFolded indent after c
        { more with text := breaks ++ line ++ joint ++ more.text }
      else ⟨breaks ++ line, lastBreak, after, c⟩

def Chomping.tail (chomping : Chomping) (lastBreak breaks : List Char) : List Char :=
  match chomping with
  | .clip => lastBreak
  | .strip => []
  | .keep => lastBreak ++ breaks

def blockScalar? (isFolded : Bool) (parent : Int) (c : Cursor) : Option (List Char × Cursor) := do
  let (header, c) ← blockHeader? c.step
  let least := max 1 (parent + 1).toNat
  let fuel := c.rest.length + 1
  let (indent, breaks, c) :=
    match header.increment with
    | some increment =>
      let indent := least + increment - 1
      (indent, blockBreaks fuel indent c)
    | none =>
      let ((breaks, deepest), c) := blockIndentation fuel 0 c
      (max least deepest, breaks, c)
  let block := blockLines fuel isFolded indent breaks c
  some (block.text ++ header.chomping.tail block.lastBreak block.breaks, block.cursor)

end ModuleStubs.Yaml
