import Restyle.Syntax.Literal

/-!
The plain dialect: a reader of sources that knows some characters by their names, and has one
complaint.
-/

namespace Restyle

namespace Syntax

/-- Names of characters that follow each other, after the number of the first one. -/
def nameRuns : List (Nat × List String) :=
  [(0x20, ["SPACE", "EXCLAMATION MARK", "QUOTATION MARK", "NUMBER SIGN", "DOLLAR SIGN",
    "PERCENT SIGN", "AMPERSAND", "APOSTROPHE", "LEFT PARENTHESIS", "RIGHT PARENTHESIS", "ASTERISK",
    "PLUS SIGN", "COMMA", "HYPHEN-MINUS", "FULL STOP", "SOLIDUS", "DIGIT ZERO", "DIGIT ONE",
    "DIGIT TWO", "DIGIT THREE", "DIGIT FOUR", "DIGIT FIVE", "DIGIT SIX", "DIGIT SEVEN",
    "DIGIT EIGHT", "DIGIT NINE", "COLON", "SEMICOLON", "LESS-THAN SIGN", "EQUALS SIGN",
    "GREATER-THAN SIGN", "QUESTION MARK", "COMMERCIAL AT"]),
   (0x5b, ["LEFT SQUARE BRACKET", "REVERSE SOLIDUS", "RIGHT SQUARE BRACKET", "CIRCUMFLEX ACCENT",
    "LOW LINE", "GRAVE ACCENT"]),
   (0x7b, ["LEFT CURLY BRACKET", "VERTICAL LINE", "RIGHT CURLY BRACKET", "TILDE"]),
   (0xa0, ["NO-BREAK SPACE", "INVERTED EXCLAMATION MARK", "CENT SIGN", "POUND SIGN",
    "CURRENCY SIGN", "YEN SIGN", "BROKEN BAR", "SECTION SIGN", "DIAERESIS", "COPYRIGHT SIGN"]),
   (0xb0, ["DEGREE SIGN", "PLUS-MINUS SIGN", "SUPERSCRIPT TWO", "SUPERSCRIPT THREE",
    "ACUTE ACCENT", "MICRO SIGN", "PILCROW SIGN", "MIDDLE DOT"]),
   (0xd7, ["MULTIPLICATION SIGN"]), (0xf7, ["DIVISION SIGN"]), (0x2013, ["EN DASH", "EM DASH"]),
   (0x2018, ["LEFT SINGLE QUOTATION MARK", "RIGHT SINGLE QUOTATION MARK"]),
   (0x201c, ["LEFT DOUBLE QUOTATION MARK", "RIGHT DOUBLE QUOTATION MARK"]), (0x2022, ["BULLET"]),
   (0x2026, ["HORIZONTAL ELLIPSIS"]), (0x20ac, ["EURO SIGN"]), (0x2122, ["TRADE MARK SIGN"]),
   (0x2190, ["LEFTWARDS ARROW", "UPWARDS ARROW", "RIGHTWARDS ARROW", "DOWNWARDS ARROW"]),
   (0x221e, ["INFINITY"]), (0x2713, ["CHECK MARK"])]

def latinNames : List (String × Nat) :=
  "ABCDEFGHIJKLMNOPQRSTUVWXYZ".toList.flatMap fun c =>
    [("LATIN CAPITAL LETTER ".push c, c.toNat), ("LATIN SMALL LETTER ".push c, c.toNat + 32)]

/-- Names are found in either case. -/
def charNamed? (name : List Char) : Option Char :=
  let names := latinNames ++ nameRuns.flatMap fun (first, names) => names.zipIdx first
  (names.find? fun (n, _) => n.toList = name.map Char.toUpper).map fun (_, code) => Char.ofNat code

end Syntax

instance Dialect.plain : Dialect where
  named? := Syntax.charNamed?
  complaint _ := "invalid syntax"
  complaint_apart _ := by decide +kernel

end Restyle
