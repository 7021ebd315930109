import Acceptor.Text.Basic

/-!
# Help

The texts that the command prints about itself.
-/

namespace Acceptor.Command

/-- The name of the command, which begins each of its messages. -/
def name : Text := "dfacheck".toList

def usage : Text :=
  "usage: dfacheck [-h] [-v] [-i FILE] [-o FILE] [--strict]\n".toList

def version : Text := "dfacheck v. 0.1.0\n".toList

def description : List Text :=
  ["Check which words are accepted by a DFA.".toList,
    "".toList,
    "Without options the DFA definition and the words are read from standard".toList,
    "input and the results are written to standard output. The definition".toList,
    "block ends at a line containing only '---'; every following line is a".toList,
    "word of space-separated symbols. Each word produces one ACEITA or".toList,
    "REJEITA line.".toList]

def options : List Text :=
  ["options:".toList,
    "  -h, --help            show this help message and exit".toList,
    "  -v, --version         show program's version number and exit".toList,
    "  -i FILE, --input FILE".toList,
    "                        read the definition and words from FILE instead of".toList,
    "                        standard input".toList,
    "  -o FILE, --output FILE".toList,
    "                        write the results to FILE instead of standard output".toList,
    "  --strict              reject definitions that use undeclared states or".toList,
    "                        symbols".toList]

def help : Text :=
  usage ++ ['\n'] ++ (description ++ [[]] ++ options).flatMap (· ++ ['\n'])

end Acceptor.Command
