/-! Line ends. Source text is read with every line end as one line feed. -/

namespace ModuleStubs.Text

/-- A carriage return, alone or before a line feed, becomes a line feed. -/
def unifyNewlines : List Char → List Char
  | [] => []
  | '\r' :: '\n' :: rest => '\n' :: unifyNewlines rest
  | c :: rest => (if c = '\r' then '\n' else c) :: unifyNewlines rest

@[simp] theorem unifyNewlines_nil : unifyNewlines [] = [] := rfl

end ModuleStubs.Text
