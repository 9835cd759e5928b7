import PascalCheck.Text.LowerCase

namespace PascalCheck.Code

def endOfInput : Int := 0

def unlisted : Int := 1

def ident : Int := 2

def integerLiteral : Int := 15

def realLiteral : Int := 82

/-- The spellings of the language with their codes, ordered by code. -/
def table : List (String × Int) := [
    (")", 4), (":", 5), ("(", 9), ("[", 11), ("]", 12), (";", 14), ("=", 16), (",", 20),
    ("*", 21), ("case", 31), ("else", 32), ("goto", 33), ("type", 34), ("with", 37), (":=", 51),
    ("then", 52), ("until", 53), ("do", 54), ("if", 56), ("file", 57), ("/", 60), (".", 61),
    ("^", 62), ("\x7b", 63), ("\x7d", 64), ("<", 65), (">", 66), ("<=", 67), (">=", 68), ("<>", 69),
    ("+", 70), ("-", 71), ("(*", 72), ("*)", 73), ("..", 74), ("in", 100), ("of", 101),
    ("or", 102), ("to", 103), ("end", 104), ("var", 105), ("div", 106), ("and", 107),
    ("not", 108), ("for", 109), ("mod", 110), ("nil", 111), ("set", 112), ("begin", 113),
    ("while", 114), ("array", 115), ("const", 116), ("label", 117), ("downto", 118),
    ("packed", 119), ("record", 120), ("repeat", 121), ("program", 122), ("function", 123),
    ("procedure", 124), ("integer", 125), ("real", 126), ("writeln", 127)]

def lookup? (word : String) : Option Int := table.lookup (Text.lower word)

def bySpelling : List (String × Int) := table.mergeSort fun a b => !(b.1 < a.1)

def rightParen : Int := 4
def colon : Int := 5
def leftParen : Int := 9
def semicolon : Int := 14
def comma : Int := 20
def caseWord : Int := 31
def assign : Int := 51
def dot : Int := 61
def plus : Int := 70
def minus : Int := 71
def endWord : Int := 104
def varWord : Int := 105
def beginWord : Int := 113
def recordWord : Int := 120
def programWord : Int := 122
def functionWord : Int := 123
def procedureWord : Int := 124
def integerWord : Int := 125
def realWord : Int := 126
def writelnWord : Int := 127

end PascalCheck.Code
