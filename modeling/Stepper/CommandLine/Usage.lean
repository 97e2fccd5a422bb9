/-!
The help text.
-/

namespace Stepper.CommandLine

def usage : String :=
  "usage: stepwise [-h] [-m \x7beval,explain,expand,trace\x7d] [-d FORM] [-p PRELUDE]\n" ++
  "                [--max-expansions MAX_EXPANSIONS] [--log-level LOG_LEVEL]\n" ++
  "                expressions [expressions ...]\n"

def help : String :=
  usage ++
  "\n" ++
  "Evaluate S-expressions and show substitution-model steps.\n" ++
  "\n" ++
  "positional arguments:\n" ++
  "  expressions           expressions to process, in order\n" ++
  "\n" ++
  "options:\n" ++
  "  -h, --help            show this help message and exit\n" ++
  "  -m \x7beval,explain,expand,trace\x7d, --mode \x7beval,explain,expand,trace\x7d\n" ++
  "                        eval: value; explain: level-by-level reduction;\n" ++
  "                        expand: one substitution step; trace: substitution\n" ++
  "                        steps to the end\n" ++
  "  -d FORM, --define FORM\n" ++
  "                        definition to load before processing (repeatable)\n" ++
  "  -p PRELUDE, --prelude PRELUDE\n" ++
  "                        file of definitions to load first\n" ++
  "  --max-expansions MAX_EXPANSIONS\n" ++
  "                        iteration cap for trace mode\n" ++
  "  --log-level LOG_LEVEL\n" ++
  "                        logging level (default from STEPWISE_LOG_LEVEL)\n"

end Stepper.CommandLine
