/-! The texts that explain the command line, laid out for eighty columns. -/

namespace ModuleStubs.CommandLine

inductive Scope where
  | main
  | definitions
  | mocks
  deriving DecidableEq

def Scope.program : Scope → String
  | .main => "nativestub"
  | .definitions => "nativestub structure"
  | .mocks => "nativestub mocks"

def Scope.usage : Scope → String
  | .main => "usage: nativestub [-h] [-v] [--log-file LOG_FILE] \x7bstructure,mocks\x7d ...\n"
  | .definitions => "usage: nativestub structure [-h] [-v] [path]\n"
  | .mocks =>
    "usage: nativestub mocks [-h] [-v] [--output-dir OUTPUT_DIR] [--dry-run] [path]\n"

def Scope.details : Scope → List String
  | .main => [
    "Generate TypeScript stubs for Swift native modules.",
    "",
    "positional arguments:",
    "  \x7bstructure,mocks\x7d",
    "    structure          Print the extracted module definitions as JSON.",
    "    mocks              Write one TypeScript stub file per module.",
    "",
    "options:",
    "  -h, --help           show this help message and exit",
    "  -v, --verbose        Increase log verbosity for troubleshooting.",
    "  --log-file LOG_FILE  Also write log output to this file."]
  | .definitions => [
    "positional arguments:",
    "  path           Path to the project root (defaults to current directory).",
    "",
    "options:",
    "  -h, --help     show this help message and exit",
    "  -v, --verbose  Increase log verbosity for troubleshooting."]
  | .mocks => [
    "positional arguments:",
    "  path                  Path to the project root (defaults to current",
    "                        directory).",
    "",
    "options:",
    "  -h, --help            show this help message and exit",
    "  -v, --verbose         Increase log verbosity for troubleshooting.",
    "  --output-dir OUTPUT_DIR",
    "                        Directory for generated stubs (defaults to",
    "                        <path>/mocks).",
    "  --dry-run             Print generated stubs instead of writing them."]

def Scope.help (s : Scope) : String :=
  s.usage ++ "\n" ++ String.join (s.details.map (· ++ "\n"))

end ModuleStubs.CommandLine
