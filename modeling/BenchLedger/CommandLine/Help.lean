import BenchLedger.CommandLine.Argument

/-!
What is said to someone who asks how to call the program, or who calls it in a wrong way.
-/

namespace BenchLedger.CommandLine

def versionText : String :=
  "bench-ledger 0.1.0"

def helpText : String :=
  "\n".intercalate [
    "Keeps the history of benchmark runs.",
    "",
    "Usage: bench-ledger [OPTIONS] <COMMAND>",
    "",
    "Commands:",
    "  import <SOURCE> [--drop-composite]",
    "      Take in all entries of a document",
    "  ingest <SERIES> [-f <FILE>] [--drop-composite]",
    "      Take in one entry from a file or, for `-`, the standard input",
    "  series [NAME] [--markdown]",
    "      List the series, or sum one up",
    "  latest <SERIES> [-n <N>]",
    "      Show the newest entries of a series",
    "  range <SERIES> --from <MILLIS> --to <MILLIS>",
    "      Show the entries of a span of time",
    "  regression <SERIES> <BENCHMARK> -b <COMMIT> [-t <RATIO>] [-p <POLARITY>]",
    "          [--fail-on-regression]",
    "      Compare the newest value of a benchmark with that at a commit",
    "  diff <SERIES> -b <COMMIT> -c <COMMIT> [-t <RATIO>] [-p <POLARITY>]",
    "          [--higher-is-better <NAME>]... [--higher-is-worse <NAME>]...",
    "          [--markdown] [--fail-on-regression]",
    "      Compare all benchmarks of two commits",
    "  export <OUTPUT> [--to <FORMAT>]",
    "      Write the history to another file",
    "  help [COMMAND]",
    "      Show this text",
    "",
    "Options:",
    "      --history <PATH>   The history file, else $BENCH_HISTORY_PATH, else bench-history.json",
    "      --format <FORMAT>  The encoding of the history: json or data_js",
    "  -v, --verbose          Say more about what is done",
    "  -h, --help             Show this text",
    "  -V, --version          Show the version"]

namespace UsageFault

/-- Whether the program did what was asked when it meets this. -/
def isWish : UsageFault → Bool
  | .helpWanted | .versionWanted => true
  | _ => false

def message : UsageFault → String
  | .helpWanted | .nothingGiven => helpText
  | .versionWanted => versionText
  | .commandMissing => "error: a command is required but none was given"
  | .unknownCommand name => "error: unknown command '" ++ name ++ "'"
  | .unknownArgument text => "error: unexpected argument '" ++ text ++ "'"
  | .argumentMissing name => "error: the argument '" ++ name ++ "' is required"
  | .valueMissing name => "error: a value is required for '" ++ name ++ "'"
  | .valueUnreadable name value => "error: invalid value '" ++ value ++ "' for '" ++ name ++ "'"
  | .valueUnwanted name value => "error: unexpected value '" ++ value ++ "' for '" ++ name ++ "'"
  | .givenTwice name => "error: the argument '" ++ name ++ "' was given more than once"

end UsageFault

end BenchLedger.CommandLine
