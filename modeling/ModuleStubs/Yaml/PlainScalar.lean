import ModuleStubs.Yaml.Folding

/-! Scalars without quotes. They end at a comment, at a colon that ends a word, and
inside brackets at punctuation; they go on over lines that are indented deeper. -/

namespace ModuleStubs.Yaml

def isFlowMark (ch : Char) : Bool := ",[]\x7b\x7d".toList.contains ch

def stopsPlain (inFlow : Bool) (ch : Char) (next : Option Char) : Bool :=
  endsWord (some ch) ||
    (ch = ':' && (endsWord next || (inFlow && next.any isFlowMark))) ||
    (inFlow && (ch = '?' || isFlowMark ch))

def plainRun (inFlow : Bool) : List Char → List Char
  | [] => []
  | ch :: rest =>
    if stopsPlain inFlow ch rest.head? then [] else ch :: plainRun inFlow rest

def startsPlain (inFlow : Bool) (c : Cursor) : Bool :=
  match c.rest with
  | [] => false
  | ch :: rest =>
    (!endsWord (some ch) && !"-?:,[]\x7b\x7d#&*!|>'\"%@\x60".toList.contains ch) ||
      (!endsWord rest.head? && (ch = '-' || (!inFlow && (ch = '?' || ch = ':'))))

/-- What follows a run: the space or line ends before the next run, whether a line
was ended, and the place after them. -/
structure PlainGap where
  text : List Char
  brokeLine : Bool
  cursor : Cursor

def plainGap (c : Cursor) : PlainGap :=
  let (spaces, c) := c.run (· = ' ')
  match c.lineBreak? with
  | none => ⟨spaces, false, c⟩
  | some (ch, c) =>
    if c.seesDocumentMarker then ⟨[], true, c⟩
    else
      match plainBreaks (c.rest.length + 1) c with
      | (none, c) => ⟨[], true, c⟩
      | (some more, c) => ⟨folded ch more, true, c⟩

structure PlainScalar where
  text : List Char
  /-- Whether the scalar's last line was ended. -/
  brokeLine : Bool
  cursor : Cursor

def plainScalar (fuel : Nat) (inFlow : Bool) (indent : Int) (c : Cursor) : PlainScalar :=
  match fuel with
  | 0 => ⟨[], false, c⟩
  | fuel + 1 =>
    let run := if c.sees '#' then [] else plainRun inFlow c.rest
    if run.isEmpty then ⟨[], false, c⟩
    else
      let gap := plainGap (c.skip run.length)
      if gap.text.isEmpty || gap.cursor.sees '#' ||
          (!inFlow && (gap.cursor.column : Int) < indent) then
        ⟨run, gap.brokeLine, gap.cursor⟩
      else
        let more := plainScalar fuel inFlow indent gap.cursor
        if more.text.isEmpty then ⟨run, gap.brokeLine, more.cursor⟩
        else ⟨run ++ gap.text ++ more.text, more.brokeLine, more.cursor⟩

end ModuleStubs.Yaml
