import Scriptlet.Parsing.Parser

namespace Scriptlet.Grammar

open Scriptlet.Parser

/-- Spaces, line feeds and tabs, as many as there are. -/
def whitespace : Parser Unit :=
  (fun _ => ()) <$> many (oneOf " \n\t" "whitespace")

/-- A token takes the whitespace after it along, so that the next one starts at
the cursor. Whitespace before the first token is left to the caller. -/
def lexeme {α : Type} (p : Parser α) : Parser α :=
  p <* whitespace

/-- Names begin with a letter of any script or an underscore. -/
def nameStart : Parser Char :=
  letter <|> char '_'

/-- Names continue with letters, underscores and ASCII digits. -/
def namePart : Parser Char :=
  nameStart <|> digit

/-- A reserved word, unless it is only the beginning of a longer name. -/
def keyword (word : String) : Parser String :=
  lexeme <| label (Text.quoted word) <|
    attempt (string word <* notFollowedBy namePart "identifier character")

/-- A punctuation mark. -/
def symbol (c : Char) : Parser Char :=
  lexeme (char c)

end Scriptlet.Grammar
