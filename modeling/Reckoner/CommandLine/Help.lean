/-!
# Help of the program

The texts that explain the command line, line by line, for a terminal of 80 columns.
-/

namespace Reckoner.CommandLine

/-- The name of the program. -/
def programName : String := "arithcomb"

/-- The name and version of the program. -/
def versionText : String := "arithcomb 0.1.0"

/-- How the program is called. -/
def usageLines : List String := [
  "usage: arithcomb [-h] [-i] [--parse] [-D NAME=VALUE] [--debug] [--version]",
  "                 [expressions ...]"]

/-- What the program does and what its arguments mean. -/
def helpLines : List String := usageLines ++ [
  "",
  "arithcomb - arithmetic expressions built from parser combinators",
  "",
  "positional arguments:",
  "  expressions           Expressions to evaluate",
  "",
  "options:",
  "  -h, --help            show this help message and exit",
  "  -i, --interactive     Start interactive mode",
  "  --parse               Show the parsed expression tree instead of evaluating",
  "  -D NAME=VALUE, --define NAME=VALUE",
  "                        Bind the free variable #NAME; VALUE may itself be an",
  "                        expression",
  "  --debug               Enable parse and evaluation traces",
  "  --version             show program's version number and exit",
  "",
  "Examples:",
  "  arithcomb \"1 + 2 * 3\"                  # Evaluate an expression",
  "  arithcomb -D x=2 \"#x ^ 10\"             # Bind a free variable",
  "  arithcomb --parse \"(1 + 2) * max(3, 4)\" # Show the expression tree",
  "  arithcomb -i                           # Interactive mode",
  "  arithcomb -i --debug                   # Interactive mode with debug",
  "        "]

end Reckoner.CommandLine
