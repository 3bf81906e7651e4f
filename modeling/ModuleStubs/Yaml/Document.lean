import ModuleStubs.Yaml.Composer
import ModuleStubs.Yaml.Lexer

/-! The single document of a YAML text. Directives may stand before it, and only
the marks of a document's end after it. -/

namespace ModuleStubs.Yaml

def isTextChar (c : Char) : Bool :=
  let n := c.toNat
  c = '\t' || c = '\n' || c = '\r' || (0x20 ≤ n && n ≤ 0x7E) || n = 0x85 ||
    (0xA0 ≤ n && n ≤ 0xFFFD) || 0x10000 ≤ n

structure Directives where
  hasVersion : Bool
  handles : Handles

/-- One version at most, of the first generation; one line at most for a handle. -/
def directives (d : Directives) : List Token → Except Fault (Directives × List Token)
  | .version major :: rest =>
    if d.hasVersion ∨ major ≠ 1 then .error .malformed
    else directives { d with hasVersion := true } rest
  | .tagHandle handle uri :: rest =>
    if (d.handles.lookup handle).isSome then .error .malformed
    else directives { d with handles := d.handles ++ [(handle, uri)] } rest
  | .otherDirective :: rest => directives d rest
  | rest => .ok (d, rest)

def isDocumentEnd : Token → Bool
  | .documentEnd => true
  | _ => false

def isDocumentStart : Token → Bool
  | .documentStart => true
  | _ => false

def isOutside : Token → Bool
  | .version _ => true
  | .tagHandle _ _ => true
  | .otherDirective => true
  | .documentStart => true
  | .documentEnd => true
  | .streamEnd => true
  | _ => false

def announces (t : Token) : Bool := isOutside t && !isDocumentEnd t

def isStreamEnd : Token → Bool
  | .streamEnd => true
  | _ => false

def composerFuel (ts : List Token) : Nat := 4 * ts.length + 4

def rootNode (handles : Handles) (ts : List Token) : Except Fault (Node × Composer) :=
  Composer.node (composerFuel ts) handles .block ⟨ts, []⟩

def announced (ts : List Token) : Except Fault (Node × Composer) := do
  let (d, ts) ← directives ⟨false, []⟩ ts
  let r ← (Composer.mk ts []).expect isDocumentStart
  if r.sees isOutside then .ok (Composer.empty, r)
  else rootNode (d.handles ++ standardHandles) r.tokens

def document (ts : List Token) : Except Fault (Option Node) := do
  match ts with
  | [.streamEnd] => .ok none
  | _ =>
    let (node, r) ←
      if (ts.head?.map announces).getD false then announced ts else rootNode standardHandles ts
    let r : Composer := { r with tokens := r.tokens.dropWhile isDocumentEnd }
    let _ ← r.expect isStreamEnd
    .ok (some node)

end ModuleStubs.Yaml
