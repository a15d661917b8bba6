import Rpn.Attempt
/-!
Converting many texts, one a line, as `convert_lines` does. Each line that is not blank is converted on
its own and named by its number in the source, so a line that fails takes no other line's result away.
The lines that are not blank and the failures among them are counted on the way.
-/
namespace Rpn.Batch

/-- A line that is not blank, trimmed, and its number in the source. -/
structure Entry where
  number : Nat
  text : List Char
deriving DecidableEq, Repr

def written (settings : Settings) (text : List Char) (symbols : Postfix) : List Char :=
  "shuntingYard(".toList ++ text ++ ") = ".toList ++ symbols.joined settings.separator

def attempt (settings : Settings) (name : String) (entry : Entry) : Attempt :=
  (Attempt.ofText settings s!"{name}:{entry.number}" entry.text).announce
    (written settings entry.text)

/-- The two counters of a run, and what it has made known. -/
structure Tally where
  total : Nat := 0
  failed : Nat := 0
  events : Array Event := #[]
deriving DecidableEq, Repr

def Tally.add (settings : Settings) (name : String) (tally : Tally) (line : List Char × Nat) :
    Tally :=
  let text := Text.trim line.1
  if text.isEmpty then tally
  else
    let attempt := attempt settings name ⟨line.2, text⟩
    { total := tally.total + 1
      failed := if attempt.result.isNone then tally.failed + 1 else tally.failed
      events := tally.events ++ attempt.events }

def Tally.last (name : String) (tally : Tally) : Note :=
  if tally.failed > 0 then .failed tally.failed tally.total name
  else .converted tally.total name

def run (settings : Settings) (name : String) (lines : List (List Char)) : Report :=
  let tally := (lines.zipIdx 1).foldl (Tally.add settings name) {}
  { events := tally.events.toList ++ settings.log (tally.last name), failed := tally.failed ≠ 0 }

end Rpn.Batch
