import PerpClient.Text.Utf8
/-!
# Market and account names

Names are stored as 32 bytes: UTF-8 text padded with NUL bytes (or spaces). The text of a name
is its bytes read as UTF-8 with replacement, less every trailing NUL and space character; NULs
and spaces inside the text stay.
-/

namespace PerpClient.Name

/-- A NUL or a space, the two padding characters. -/
def isPadding (c : Char) : Bool := c == '\x00' || c == ' '

/-- Drops the trailing padding characters. -/
def trimPadding (cs : List Char) : List Char :=
  (cs.reverse.dropWhile isPadding).reverse

/-- The text of a stored name. -/
def decode (bytes : List UInt8) : String :=
  String.ofList (trimPadding (Utf8.decodeLossy bytes))

end PerpClient.Name
