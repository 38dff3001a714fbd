/-!
# Runs

A list of texts in which equal ones that follow each other are written once, with their number.
-/

namespace FrontPanel.Text

set_option autoImplicit false

/-- A run of equal texts. One text stands for itself; of several the first is written, then a mark and
their number. -/
def runText (mark : String) : List String → String
  | [] => ""
  | [text] => text
  | text :: rest => text ++ mark ++ toString (rest.length + 1)

def runs (mark : String) (texts : List String) : List String :=
  (texts.splitBy (· == ·)).map (runText mark)

def runLine (texts : List String) : String := String.intercalate " " (runs "*" texts)

end FrontPanel.Text
