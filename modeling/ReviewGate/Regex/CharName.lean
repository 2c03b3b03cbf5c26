import ReviewGate.Text.Case

/-!
# `ReviewGate.Regex.CharName` — characters by name

The Unicode names of the characters that source text is likely to be searched for: Latin and Greek
letters, punctuation and invisible marks. Names are read without regard to case.

## Contents
- `charNames`: the names with their code points.
- `charNamed?`: the character of a name.
-/

namespace ReviewGate.Regex

/-- Names of characters. -/
def charNames : List (String × Nat) :=
  [("SPACE", 32), ("EXCLAMATION MARK", 33), ("QUOTATION MARK", 34), ("NUMBER SIGN", 35),
   ("DOLLAR SIGN", 36), ("PERCENT SIGN", 37), ("AMPERSAND", 38), ("APOSTROPHE", 39),
   ("LEFT PARENTHESIS", 40), ("RIGHT PARENTHESIS", 41), ("ASTERISK", 42), ("PLUS SIGN", 43),
   ("COMMA", 44), ("HYPHEN-MINUS", 45), ("FULL STOP", 46), ("SOLIDUS", 47), ("DIGIT ZERO", 48),
   ("DIGIT ONE", 49), ("DIGIT TWO", 50), ("DIGIT THREE", 51), ("DIGIT FOUR", 52),
   ("DIGIT FIVE", 53), ("DIGIT SIX", 54), ("DIGIT SEVEN", 55), ("DIGIT EIGHT", 56),
   ("DIGIT NINE", 57), ("COLON", 58), ("SEMICOLON", 59), ("LESS-THAN SIGN", 60),
   ("EQUALS SIGN", 61), ("GREATER-THAN SIGN", 62), ("QUESTION MARK", 63), ("COMMERCIAL AT", 64),
   ("LATIN CAPITAL LETTER A", 65), ("LATIN CAPITAL LETTER B", 66), ("LATIN CAPITAL LETTER C", 67),
   ("LATIN CAPITAL LETTER D", 68), ("LATIN CAPITAL LETTER E", 69), ("LATIN CAPITAL LETTER F", 70),
   ("LATIN CAPITAL LETTER G", 71), ("LATIN CAPITAL LETTER H", 72), ("LATIN CAPITAL LETTER I", 73),
   ("LATIN CAPITAL LETTER J", 74), ("LATIN CAPITAL LETTER K", 75), ("LATIN CAPITAL LETTER L", 76),
   ("LATIN CAPITAL LETTER M", 77), ("LATIN CAPITAL LETTER N", 78), ("LATIN CAPITAL LETTER O", 79),
   ("LATIN CAPITAL LETTER P", 80), ("LATIN CAPITAL LETTER Q", 81), ("LATIN CAPITAL LETTER R", 82),
   ("LATIN CAPITAL LETTER S", 83), ("LATIN CAPITAL LETTER T", 84), ("LATIN CAPITAL LETTER U", 85),
   ("LATIN CAPITAL LETTER V", 86), ("LATIN CAPITAL LETTER W", 87), ("LATIN CAPITAL LETTER X", 88),
   ("LATIN CAPITAL LETTER Y", 89), ("LATIN CAPITAL LETTER Z", 90), ("LEFT SQUARE BRACKET", 91),
   ("REVERSE SOLIDUS", 92), ("RIGHT SQUARE BRACKET", 93), ("CIRCUMFLEX ACCENT", 94),
   ("LOW LINE", 95), ("GRAVE ACCENT", 96), ("LATIN SMALL LETTER A", 97),
   ("LATIN SMALL LETTER B", 98), ("LATIN SMALL LETTER C", 99), ("LATIN SMALL LETTER D", 100),
   ("LATIN SMALL LETTER E", 101), ("LATIN SMALL LETTER F", 102), ("LATIN SMALL LETTER G", 103),
   ("LATIN SMALL LETTER H", 104), ("LATIN SMALL LETTER I", 105), ("LATIN SMALL LETTER J", 106),
   ("LATIN SMALL LETTER K", 107), ("LATIN SMALL LETTER L", 108), ("LATIN SMALL LETTER M", 109),
   ("LATIN SMALL LETTER N", 110), ("LATIN SMALL LETTER O", 111), ("LATIN SMALL LETTER P", 112),
   ("LATIN SMALL LETTER Q", 113), ("LATIN SMALL LETTER R", 114), ("LATIN SMALL LETTER S", 115),
   ("LATIN SMALL LETTER T", 116), ("LATIN SMALL LETTER U", 117), ("LATIN SMALL LETTER V", 118),
   ("LATIN SMALL LETTER W", 119), ("LATIN SMALL LETTER X", 120), ("LATIN SMALL LETTER Y", 121),
   ("LATIN SMALL LETTER Z", 122), ("LEFT CURLY BRACKET", 123), ("VERTICAL LINE", 124),
   ("RIGHT CURLY BRACKET", 125), ("TILDE", 126), ("NO-BREAK SPACE", 160),
   ("INVERTED EXCLAMATION MARK", 161), ("CENT SIGN", 162), ("POUND SIGN", 163),
   ("CURRENCY SIGN", 164), ("YEN SIGN", 165), ("BROKEN BAR", 166), ("SECTION SIGN", 167),
   ("DIAERESIS", 168), ("COPYRIGHT SIGN", 169), ("FEMININE ORDINAL INDICATOR", 170),
   ("LEFT-POINTING DOUBLE ANGLE QUOTATION MARK", 171), ("NOT SIGN", 172), ("SOFT HYPHEN", 173),
   ("REGISTERED SIGN", 174), ("MACRON", 175), ("DEGREE SIGN", 176), ("PLUS-MINUS SIGN", 177),
   ("SUPERSCRIPT TWO", 178), ("SUPERSCRIPT THREE", 179), ("ACUTE ACCENT", 180),
   ("MICRO SIGN", 181), ("PILCROW SIGN", 182), ("MIDDLE DOT", 183), ("CEDILLA", 184),
   ("SUPERSCRIPT ONE", 185), ("MASCULINE ORDINAL INDICATOR", 186),
   ("RIGHT-POINTING DOUBLE ANGLE QUOTATION MARK", 187), ("VULGAR FRACTION ONE QUARTER", 188),
   ("VULGAR FRACTION ONE HALF", 189), ("VULGAR FRACTION THREE QUARTERS", 190),
   ("INVERTED QUESTION MARK", 191), ("LATIN CAPITAL LETTER A WITH GRAVE", 192),
   ("LATIN CAPITAL LETTER A WITH ACUTE", 193), ("LATIN CAPITAL LETTER A WITH CIRCUMFLEX", 194),
   ("LATIN CAPITAL LETTER A WITH TILDE", 195), ("LATIN CAPITAL LETTER A WITH DIAERESIS", 196),
   ("LATIN CAPITAL LETTER A WITH RING ABOVE", 197), ("LATIN CAPITAL LETTER AE", 198),
   ("LATIN CAPITAL LETTER C WITH CEDILLA", 199), ("LATIN CAPITAL LETTER E WITH GRAVE", 200),
   ("LATIN CAPITAL LETTER E WITH ACUTE", 201), ("LATIN CAPITAL LETTER E WITH CIRCUMFLEX", 202),
   ("LATIN CAPITAL LETTER E WITH DIAERESIS", 203), ("LATIN CAPITAL LETTER I WITH GRAVE", 204),
   ("LATIN CAPITAL LETTER I WITH ACUTE", 205), ("LATIN CAPITAL LETTER I WITH CIRCUMFLEX", 206),
   ("LATIN CAPITAL LETTER I WITH DIAERESIS", 207), ("LATIN CAPITAL LETTER ETH", 208),
   ("LATIN CAPITAL LETTER N WITH TILDE", 209), ("LATIN CAPITAL LETTER O WITH GRAVE", 210),
   ("LATIN CAPITAL LETTER O WITH ACUTE", 211), ("LATIN CAPITAL LETTER O WITH CIRCUMFLEX", 212),
   ("LATIN CAPITAL LETTER O WITH TILDE", 213), ("LATIN CAPITAL LETTER O WITH DIAERESIS", 214),
   ("MULTIPLICATION SIGN", 215), ("LATIN CAPITAL LETTER O WITH STROKE", 216),
   ("LATIN CAPITAL LETTER U WITH GRAVE", 217), ("LATIN CAPITAL LETTER U WITH ACUTE", 218),
   ("LATIN CAPITAL LETTER U WITH CIRCUMFLEX", 219),
   ("LATIN CAPITAL LETTER U WITH DIAERESIS", 220), ("LATIN CAPITAL LETTER Y WITH ACUTE", 221),
   ("LATIN CAPITAL LETTER THORN", 222), ("LATIN SMALL LETTER SHARP S", 223),
   ("LATIN SMALL LETTER A WITH GRAVE", 224), ("LATIN SMALL LETTER A WITH ACUTE", 225),
   ("LATIN SMALL LETTER A WITH CIRCUMFLEX", 226), ("LATIN SMALL LETTER A WITH TILDE", 227),
   ("LATIN SMALL LETTER A WITH DIAERESIS", 228), ("LATIN SMALL LETTER A WITH RING ABOVE", 229),
   ("LATIN SMALL LETTER AE", 230), ("LATIN SMALL LETTER C WITH CEDILLA", 231),
   ("LATIN SMALL LETTER E WITH GRAVE", 232), ("LATIN SMALL LETTER E WITH ACUTE", 233),
   ("LATIN SMALL LETTER E WITH CIRCUMFLEX", 234), ("LATIN SMALL LETTER E WITH DIAERESIS", 235),
   ("LATIN SMALL LETTER I WITH GRAVE", 236), ("LATIN SMALL LETTER I WITH ACUTE", 237),
   ("LATIN SMALL LETTER I WITH CIRCUMFLEX", 238), ("LATIN SMALL LETTER I WITH DIAERESIS", 239),
   ("LATIN SMALL LETTER ETH", 240), ("LATIN SMALL LETTER N WITH TILDE", 241),
   ("LATIN SMALL LETTER O WITH GRAVE", 242), ("LATIN SMALL LETTER O WITH ACUTE", 243),
   ("LATIN SMALL LETTER O WITH CIRCUMFLEX", 244), ("LATIN SMALL LETTER O WITH TILDE", 245),
   ("LATIN SMALL LETTER O WITH DIAERESIS", 246), ("DIVISION SIGN", 247),
   ("LATIN SMALL LETTER O WITH STROKE", 248), ("LATIN SMALL LETTER U WITH GRAVE", 249),
   ("LATIN SMALL LETTER U WITH ACUTE", 250), ("LATIN SMALL LETTER U WITH CIRCUMFLEX", 251),
   ("LATIN SMALL LETTER U WITH DIAERESIS", 252), ("LATIN SMALL LETTER Y WITH ACUTE", 253),
   ("LATIN SMALL LETTER THORN", 254), ("LATIN SMALL LETTER Y WITH DIAERESIS", 255),
   ("HYPHEN", 8208), ("NON-BREAKING HYPHEN", 8209), ("FIGURE DASH", 8210), ("EN DASH", 8211),
   ("EM DASH", 8212), ("HORIZONTAL BAR", 8213), ("LEFT SINGLE QUOTATION MARK", 8216),
   ("RIGHT SINGLE QUOTATION MARK", 8217), ("LEFT DOUBLE QUOTATION MARK", 8220),
   ("RIGHT DOUBLE QUOTATION MARK", 8221), ("DAGGER", 8224), ("BULLET", 8226),
   ("HORIZONTAL ELLIPSIS", 8230), ("LINE SEPARATOR", 8232), ("PARAGRAPH SEPARATOR", 8233),
   ("EURO SIGN", 8364), ("TRADE MARK SIGN", 8482), ("ZERO WIDTH SPACE", 8203),
   ("ZERO WIDTH NON-JOINER", 8204), ("ZERO WIDTH JOINER", 8205), ("LEFT-TO-RIGHT MARK", 8206),
   ("RIGHT-TO-LEFT MARK", 8207), ("LEFT-TO-RIGHT EMBEDDING", 8234),
   ("RIGHT-TO-LEFT EMBEDDING", 8235), ("POP DIRECTIONAL FORMATTING", 8236),
   ("LEFT-TO-RIGHT OVERRIDE", 8237), ("RIGHT-TO-LEFT OVERRIDE", 8238),
   ("LEFT-TO-RIGHT ISOLATE", 8294), ("RIGHT-TO-LEFT ISOLATE", 8295),
   ("FIRST STRONG ISOLATE", 8296), ("POP DIRECTIONAL ISOLATE", 8297),
   ("ZERO WIDTH NO-BREAK SPACE", 65279), ("LEFTWARDS ARROW", 8592), ("RIGHTWARDS ARROW", 8594),
   ("EM SPACE", 8195), ("EN SPACE", 8194), ("THIN SPACE", 8201), ("NARROW NO-BREAK SPACE", 8239),
   ("IDEOGRAPHIC SPACE", 12288), ("MINUS SIGN", 8722), ("INFINITY", 8734),
   ("ALMOST EQUAL TO", 8776), ("NOT EQUAL TO", 8800), ("LESS-THAN OR EQUAL TO", 8804),
   ("GREATER-THAN OR EQUAL TO", 8805), ("CHECK MARK", 10003), ("BALLOT X", 10007),
   ("GREEK CAPITAL LETTER ALPHA", 913), ("GREEK CAPITAL LETTER BETA", 914),
   ("GREEK CAPITAL LETTER GAMMA", 915), ("GREEK CAPITAL LETTER DELTA", 916),
   ("GREEK CAPITAL LETTER EPSILON", 917), ("GREEK CAPITAL LETTER ZETA", 918),
   ("GREEK CAPITAL LETTER ETA", 919), ("GREEK CAPITAL LETTER THETA", 920),
   ("GREEK CAPITAL LETTER IOTA", 921), ("GREEK CAPITAL LETTER KAPPA", 922),
   ("GREEK CAPITAL LETTER LAMDA", 923), ("GREEK CAPITAL LETTER MU", 924),
   ("GREEK CAPITAL LETTER NU", 925), ("GREEK CAPITAL LETTER XI", 926),
   ("GREEK CAPITAL LETTER OMICRON", 927), ("GREEK CAPITAL LETTER PI", 928),
   ("GREEK CAPITAL LETTER RHO", 929), ("GREEK CAPITAL LETTER SIGMA", 931),
   ("GREEK CAPITAL LETTER TAU", 932), ("GREEK CAPITAL LETTER UPSILON", 933),
   ("GREEK CAPITAL LETTER PHI", 934), ("GREEK CAPITAL LETTER CHI", 935),
   ("GREEK CAPITAL LETTER PSI", 936), ("GREEK CAPITAL LETTER OMEGA", 937),
   ("GREEK SMALL LETTER ALPHA", 945), ("GREEK SMALL LETTER BETA", 946),
   ("GREEK SMALL LETTER GAMMA", 947), ("GREEK SMALL LETTER DELTA", 948),
   ("GREEK SMALL LETTER EPSILON", 949), ("GREEK SMALL LETTER ZETA", 950),
   ("GREEK SMALL LETTER ETA", 951), ("GREEK SMALL LETTER THETA", 952),
   ("GREEK SMALL LETTER IOTA", 953), ("GREEK SMALL LETTER KAPPA", 954),
   ("GREEK SMALL LETTER LAMDA", 955), ("GREEK SMALL LETTER MU", 956),
   ("GREEK SMALL LETTER NU", 957), ("GREEK SMALL LETTER XI", 958),
   ("GREEK SMALL LETTER OMICRON", 959), ("GREEK SMALL LETTER PI", 960),
   ("GREEK SMALL LETTER RHO", 961), ("GREEK SMALL LETTER FINAL SIGMA", 962),
   ("GREEK SMALL LETTER SIGMA", 963), ("GREEK SMALL LETTER TAU", 964),
   ("GREEK SMALL LETTER UPSILON", 965), ("GREEK SMALL LETTER PHI", 966),
   ("GREEK SMALL LETTER CHI", 967), ("GREEK SMALL LETTER PSI", 968),
   ("GREEK SMALL LETTER OMEGA", 969)]

/-- The character with the given name. -/
def charNamed? (name : String) : Option Char :=
  (charNames.lookup (Text.toUpper name)).map Char.ofNat

end ReviewGate.Regex
