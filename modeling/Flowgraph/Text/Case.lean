/-!
# Letter case of keywords

Keywords are compared after a case change.  All keywords are ASCII, so besides
the ASCII letters only the characters whose upper case is a single ASCII letter
matter: the dotless `i` and the long `s`.  No character outside ASCII has a
lower case made of the letters of the signal names.
-/

namespace Flowgraph

namespace Text

/-- Upper case, exact wherever the result is ASCII. -/
def upperChar (c : Char) : Char :=
  if c.toNat = 0x131 then 'I'
  else if c.toNat = 0x17f then 'S'
  else c.toUpper

def upper (s : String) : String :=
  s.map upperChar

def lower (s : String) : String :=
  s.map Char.toLower

end Text

end Flowgraph
