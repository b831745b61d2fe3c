import Scriptlet.Grammar.Production

namespace Scriptlet

/-- Parsers described as data. Besides the basic parsers and their combinations
a description may use the productions of the grammar, and it may name a parser
and refer to the name inside that parser's own description. -/
inductive Description where
  | satisfy (accepts : Char → Bool) (label : String)
  | string (word : String)
  | endOfInput
  | pure (value : Value)
  | notFollowedBy (p : Description) (label : String)
  | map (f : Value → Value) (p : Description)
  | bind (p : Description) (f : Value → Description)
  | label (name : String) (p : Description)
  | keepRight (p q : Description)
  | keepLeft (p q : Description)
  | sequence (parts : List Description)
  | choice (first : Description) (others : List Description)
  | attempt (p : Description)
  | many (p : Description)
  | between (opening closing p : Description)
  | chainLeft (operand operator : Description)
  | recursive (name : String) (body : Description)
  | reference (name : String)
  | undefined (name : String)
  | production (named : Production)
  | keyword (word : String)

namespace Description

/-- One character, which a text of any other length never equals. -/
def char (text : String) : Description :=
  satisfy (fun c => String.singleton c == text) (Text.quoted text)

def digit : Description := satisfy Char.isDigit "digit"

def letter : Description := satisfy Text.isLetter "letter"

/-- One of the listed characters. An empty label counts as none. -/
def oneOf (chars label : String) : Description :=
  satisfy (fun c => chars.toList.contains c)
    (if label = "" then "one of " ++ Text.quoted chars else label)

/-- One character that is not listed. An empty label counts as none. -/
def noneOf (chars label : String) : Description :=
  satisfy (fun c => !chars.toList.contains c)
    (if label = "" then "none of " ++ Text.quoted chars else label)

def either (p q : Description) : Description := choice p [q]

def optional (p : Description) : Description := choice p [pure .absent]

/-- The head and the tail of a repetition as one list. -/
def consItems : Value → Value
  | .list [first, .list rest] => .list (first :: rest)
  | value => value

def many1 (p : Description) : Description := map consItems (sequence [p, many p])

/-- The value of the description becomes an operator that tags its operands. -/
def tagging (p : Description) : Description := map .tagged p

def lexeme (p : Description) : Description := keepLeft p (production .whitespace)

def symbol (text : String) : Description := lexeme (char text)

/-- A choice between the members of a list, which must have one. -/
def anyOf? : List Description → Option Description
  | [] => none
  | first :: others => some (choice first others)

/-- The complaint about a choice between nothing. -/
def noAlternatives : String := "choice() needs at least one alternative"

mutual

/-- The parser that a description stands for, given the meaning of the names
around it. A name without meaning is an undefined reference. -/
def toParser : Description → List (String × Parser Value) → Parser Value
  | satisfy accepts expected, _ =>
    (fun c => .text (String.singleton c)) <$> Parser.satisfy accepts expected
  | string word, _ => Value.text <$> Parser.string word
  | endOfInput, _ =>
    { Parser.map (fun _ => Value.absent) Parser.endOfInput with form := .endOfInput }
  | pure value, _ => Parser.pure value
  | notFollowedBy p expected, names =>
    (fun _ => .absent) <$> Parser.notFollowedBy (toParser p names) expected
  | map f p, names => f <$> toParser p names
  | bind p f, names => Parser.bind (toParser p names) fun value => toParser (f value) names
  | label name p, names => Parser.label name (toParser p names)
  | keepRight p q, names => Parser.keepRight (toParser p names) (toParser q names)
  | keepLeft p q, names => Parser.keepLeft (toParser p names) (toParser q names)
  | sequence parts, names => Value.list <$> Parser.sequence (toParsers parts names)
  | choice first others, names => Parser.choice (toParser first names) (toParsers others names)
  | attempt p, names => Parser.attempt (toParser p names)
  | many p, names => Value.list <$> Parser.many (toParser p names)
  | between opening closing p, names =>
    Parser.between (toParser opening names) (toParser closing names) (toParser p names)
  | chainLeft operand operator, names =>
    Parser.chainLeft (toParser operand names) (Value.combine <$> toParser operator names)
  | recursive name body, names =>
    Parser.recursive name fun self => toParser body ((name, self) :: names)
  | reference name, names => (names.lookup name).getD (Parser.undefined name)
  | undefined name, _ => Parser.undefined name
  | production named, _ => named.parser
  | keyword word, _ => Value.text <$> Grammar.keyword word

/-- The parsers that the members of a list stand for. -/
def toParsers : List Description → List (String × Parser Value) → List (Parser Value)
  | [], _ => []
  | p :: rest, names => toParser p names :: toParsers rest names

end

/-- The parser that a whole description stands for. -/
def parser (description : Description) : Parser Value :=
  description.toParser []

end Description

end Scriptlet
