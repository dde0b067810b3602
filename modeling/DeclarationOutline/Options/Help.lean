/-! What the program says about itself. -/
namespace DeclarationOutline

def versionText : String := "0.1.0\n"

def helpText : String := "capl-outline: function and testcase outline for CAPL sources

Usage:
  capl-outline [options]

Modes:
  (default)               Outline every *.can / *.cin file under the root
  --file <path>           Outline only the given documents (repeatable)

Options:
  --root, -d <path>       Root directory (default: current directory)
  --r, --glob, -g <glob>  File name pattern (repeatable, default: *.can *.cin);
                          only .can and .cin documents produce entries
  --file <path>           Document to outline, relative to the root (repeatable)
  --group <group>         testcase | function (repeatable, default: both)
  --sort <order>          position | alphabetical, saved as the new default
  --format <fmt>          yaml | json (default: yaml)
  --timeout <secs>        Max execution time in seconds
  --exclude <name>        Additional directory exclusions (repeatable)
  --no-defaults           Disable built-in exclusions (.git, Backup, Logging, etc.)
  --verbose, -v           Debug logging to stderr
  --help, -h              Show this help
  --version, -V           Show version

Examples:
  capl-outline                                    Outline the current project
  capl-outline -d /path/to/cfg --group testcase   Test cases only
  capl-outline --file Nodes/Gateway.can           One document, even if empty
  capl-outline --sort alphabetical                Sort by label from now on
  capl-outline --format json                      Machine-readable output
"

end DeclarationOutline
