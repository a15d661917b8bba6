import Rpn.Attempt
/-!
Converting lines typed at a prompt, as `repl` does. Every line is answered when it is entered; a blank line has no
answer, and a line that fails only a report.
-/
namespace Rpn.Session

def answer (settings : Settings) (line : List Char) : List Event :=
  let text := Text.trim line
  if text.isEmpty then []
  else
    ((Attempt.ofText settings "<stdin>" text).announce
      fun symbols => symbols.joined settings.separator).events

end Rpn.Session
