import ModuleStubs.Path
import ModuleStubs.Tool.Settings
import ModuleStubs.Yaml.Writer

/-! The query for the declaration at one place of a file, as a YAML mapping of four
keys. Every text of the caller stands in double quotes. -/

namespace ModuleStubs

open Yaml

structure Query where
  path : Path
  offset : Int

namespace Query

def compilerArgs (settings : ToolSettings) (q : Query) : List String :=
  [q.path.text, "-target", settings.target, "-sdk", settings.sdk] ++ settings.compilerArgs

def kind : List Char := "source.request.cursorinfo".toList

def line (content : List Char) : List Char := content ++ ['\n']

def entry (key : String) (value : List Char) : List Char :=
  line (key.toList ++ ':' :: ' ' :: value)

def item (arg : String) : List Char := line ('-' :: ' ' :: writeQuoted arg.toList)

def write (limit : Text.Numeral.Limit) (settings : ToolSettings) (q : Query) :
    Except Text.Numeral.Fault (List Char) :=
  (Text.Numeral.write limit q.offset).map fun offset =>
    entry "key.request" kind ++
      entry "key.sourcefile" (writeQuoted q.path.text.toList) ++
      entry "key.offset" offset.toList ++
      line "key.compilerargs:".toList ++
      (q.compilerArgs settings).flatMap item

def text (limit : Text.Numeral.Limit) (settings : ToolSettings) (q : Query) :
    Except Text.Numeral.Fault String :=
  (q.write limit settings).map String.ofList

end Query

end ModuleStubs
