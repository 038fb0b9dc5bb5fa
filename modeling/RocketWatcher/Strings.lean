import Mathlib.Data.List.DropRight
import Mathlib.Data.List.Infix

/-!
# String helpers

The helpers of `strings.cpp`. A `std::string` is a `String`: read one character per byte
it is any byte sequence, read as UTF-8 it is the text the sources produce. Letter case
and white space are those of the "C" locale, so only ASCII characters are affected and
both readings agree.
-/

namespace RocketWatcher

/-- `std::isspace` in the "C" locale. -/
def isSpace (c : Char) : Bool :=
  c == ' ' || (9 ≤ c.toNat && c.toNat ≤ 13)

/-- ASCII lower case, one character at a time. -/
def toLower (text : String) : String :=
  String.ofList (text.toList.map Char.toLower)

/-- `text` without its leading and trailing white space. -/
def trim (text : String) : String :=
  String.ofList ((text.toList.dropWhile isSpace).rdropWhile isSpace)

/-- The parts in order, with `separator` between neighbours. -/
def join (parts : List String) (separator : String) : String :=
  separator.intercalate parts

/-- `text.starts_with(start)`. -/
def startsWith (text start : String) : Bool :=
  start.toList.isPrefixOf text.toList

/-- `text.find(term) != npos`. -/
def containsText (text term : String) : Bool :=
  decide (term.toList <:+: text.toList)

/-- What a C function sees of a string : it ends at the first NUL. -/
def cString (text : String) : List Char :=
  text.toList.takeWhile fun c => c.toNat != 0

theorem cString_of_nul_free {text : String} (h : ∀ c ∈ text.toList, c.toNat ≠ 0) :
    cString text = text.toList := by
  rw [cString, List.takeWhile_eq_self_iff]
  simpa using h

end RocketWatcher
