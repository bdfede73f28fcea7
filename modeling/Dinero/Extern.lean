import Dinero.Table
import Mathlib.Data.List.Infix
import Mathlib.Data.List.Sort
import Mathlib.Data.Rat.Floor
import Mathlib.Logic.Function.Basic

/-!
# Dinero.Extern

What the ledger takes from outside the repository.

`Extern` collects the operations whose code is not part of the program: the
order in which SQLite visits rows a query leaves unordered, `uuid`, `strsim`,
`sha2`, the Unicode tables behind `char` and `str`, and `chrono`'s text form of
a time.  Every definition and every theorem is stated for an arbitrary
instance; `Extern.ascii` is one that can be run.

Times are whole seconds and dates whole days, both counted from the Unix
epoch; `TimeText` is a time column in the text form the program compares and
re-parses.
-/

namespace Dinero

/-- The code the ledger calls but does not contain. -/
class Extern where
  /-- The order rows come in where a statement asks for none. -/
  scan : {α : Type} → List α → List α
  scan_perm : ∀ {α : Type} (l : List α), (scan l).Perm l
  /-- `Uuid::new_v4().to_string()`, by draw. -/
  uuid : Nat → String
  uuid_injective : Function.Injective uuid
  /-- `strsim::jaro_winkler`. -/
  jaroWinkler : String → String → ℚ
  jaroWinkler_nonneg : ∀ a b, 0 ≤ jaroWinkler a b
  jaroWinkler_le_one : ∀ a b, jaroWinkler a b ≤ 1
  /-- `format!("{:x}", Sha256::digest(..))`. -/
  sha256Hex : String → String
  /-- `f64::sqrt`. -/
  sqrt : ℚ → ℚ
  toUppercase : String → String
  toLowercase : String → String
  /-- `char::is_whitespace`, which is also the regex class `\s`. -/
  isWhitespace : Char → Bool
  isAlphanumeric : Char → Bool
  /-- The regex class `\d`. -/
  isDigit : Char → Bool
  /-- `dt.format("%Y-%m-%d %H:%M:%S")`. -/
  formatDateTime : Int → String
  /-- `date.format("%Y-%m-%d")`. -/
  formatDate : Int → String

export Extern (scan uuid jaroWinkler sha256Hex toUppercase toLowercase isWhitespace
  isAlphanumeric isDigit formatDateTime formatDate)

@[simp] theorem mem_scan [Extern] {α : Type} {l : List α} {a : α} : a ∈ scan l ↔ a ∈ l :=
  (Extern.scan_perm l).mem_iff

/-- Rows visited in insertion order, names equal or unrelated, ASCII classes. -/
@[reducible] def Extern.ascii : Extern where
  scan := id
  scan_perm _ := .refl _
  uuid n := String.ofList (List.replicate n 'u' ++ ['-'])
  uuid_injective := by
    intro m n h
    have hl := congrArg List.length (String.ofList_inj.mp h)
    simpa using hl
  jaroWinkler a b := if a = b then 1 else 0
  jaroWinkler_nonneg := by intro a b; split <;> decide
  jaroWinkler_le_one := by intro a b; split <;> decide
  sha256Hex := id
  sqrt := id
  toUppercase s := String.ofList (s.toList.map Char.toUpper)
  toLowercase s := String.ofList (s.toList.map Char.toLower)
  isWhitespace := Char.isWhitespace
  isAlphanumeric := Char.isAlphanum
  isDigit := Char.isDigit
  formatDateTime t := toString t
  formatDate d := toString d

/-! ## times -/

/-- The date a time falls on. -/
def dateOf (t : Int) : Int := t / 86400

/-- A time in text form: the code's first format, its second one (a bare date,
read as midnight), or a text neither accepts. -/
inductive TimeText
  | dateTime (t : Int)
  | date (d : Int)
  | text (s : String)
deriving DecidableEq, Repr

namespace TimeText

/-- `parse_from_str(s, fmt).or_else(|_| parse_from_str(s + " 00:00:00", fmt))`. -/
def parse : TimeText → Option Int
  | dateTime t => some t
  | date d => some (d * 86400)
  | text _ => none

/-- The date of either form. -/
def parseDate : TimeText → Option Int
  | dateTime t => some (dateOf t)
  | date d => some d
  | text _ => none

/-- The text itself. -/
def render [Extern] : TimeText → String
  | dateTime t => formatDateTime t
  | date d => formatDate d
  | text s => s

/-- `.map(|dt| dt.format(..)).unwrap_or_default()`. -/
def ofOption : Option Int → TimeText
  | some t => dateTime t
  | none => text ""

@[simp] theorem parse_ofOption (t : Option Int) : (ofOption t).parse = t := by
  cases t <;> rfl

end TimeText

/-! ## small pieces of the languages -/

/-- `hay.contains(needle)` of `str`. -/
def strContains (hay needle : String) : Bool := decide (needle.toList <:+: hay.toList)

/-- `ORDER BY`, stable over the order of the scan. -/
def orderBy {α : Type} (r : α → α → Prop) [DecidableRel r] (l : List α) : List α :=
  l.insertionSort r

@[simp] theorem mem_orderBy {α : Type} {r : α → α → Prop} [DecidableRel r] {l : List α} {a : α} :
    a ∈ orderBy r l ↔ a ∈ l :=
  (List.perm_insertionSort r l).mem_iff

/-- SQLite's order of a nullable column: `NULL` comes first. -/
def nullsFirst {α : Type} [LE α] : Option α → Option α → Prop
  | none, _ => True
  | some _, none => False
  | some a, some b => a ≤ b

instance {α : Type} [LE α] [DecidableLE α] : DecidableRel (nullsFirst (α := α)) := fun a b =>
  match a, b with
  | none, _ => .isTrue trivial
  | some _, none => .isFalse id
  | some a, some b => inferInstanceAs (Decidable (a ≤ b))

/-- `f64::round`: halves go away from zero. -/
def f64Round (x : ℚ) : Int := if 0 ≤ x then ⌊x + 1 / 2⌋ else ⌈x - 1 / 2⌉

end Dinero
