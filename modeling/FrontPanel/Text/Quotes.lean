/-!
# Quoted values

A value may stand between two double quotes. Nothing is escaped inside, and a value without quotes
stands for itself.
-/

namespace FrontPanel.Text

set_option autoImplicit false

/-- A text without the pair of double quotes around it, if there is one. -/
def unquote (text : List Char) : List Char :=
  match text with
  | '"' :: rest => if rest.getLast? = some '"' then rest.dropLast else text
  | _ => text

def quote (text : List Char) : List Char := '"' :: (text ++ ['"'])

theorem unquote_quote (text : List Char) : unquote (quote text) = text := by
  simp [unquote, quote]

/-- Equality of texts up to the case of ASCII letters. -/
def sameFolded (a b : List Char) : Bool := a.map Char.toLower == b.map Char.toLower

end FrontPanel.Text
