import Mathlib.Data.List.DropRight
import Mathlib.Data.List.Infix

/-! # Text Operations

The string operations of Rust's standard library that the model needs, over Lean strings read as
lists of characters (Unicode scalar values). Everything goes through `String.toList` and
`String.ofList`, so that the definitions evaluate in the kernel.
-/

namespace Text

/-- The Unicode `White_Space` property, which `str::trim` strips. -/
def isWhitespace (c : Char) : Bool :=
  let n := c.toNat
  (0x9 ≤ n && n ≤ 0xD) || n == 0x20 || n == 0x85 || n == 0xA0 || n == 0x1680 ||
    (0x2000 ≤ n && n ≤ 0x200A) || n == 0x2028 || n == 0x2029 || n == 0x202F ||
    n == 0x205F || n == 0x3000

def is_control (c : Char) : Bool := c.toNat < 0x20 || (0x7f ≤ c.toNat && c.toNat ≤ 0x9f)

/-- `str::trim`: strip leading and trailing white space. -/
def trim (s : String) : String :=
  String.ofList (((s.toList.dropWhile isWhitespace).reverse.dropWhile isWhitespace).reverse)

/-- `str::chars().count()`. -/
def charCount (s : String) : Nat := s.toList.length

def to_ascii_lowercase (s : String) : String := String.ofList (s.toList.map Char.toLower)

/-- `str::contains`, for a string pattern. -/
def contains (s pat : String) : Bool := decide (pat.toList <:+: s.toList)

def eq_ignore_ascii_case (s t : String) : Bool := to_ascii_lowercase s == to_ascii_lowercase t

/-- `str::split`, at one character. -/
def split (s : String) (sep : Char) : List String := (s.toList.splitOn sep).map String.ofList

/-- The number a list of digits stands for; an empty list stands for none. -/
def parseDigits (cs : List Char) : Option Int :=
  if cs ≠ [] ∧ cs.all Char.isDigit then
    some (cs.foldl (fun n c => 10 * n + (c.toNat - '0'.toNat : Nat)) 0)
  else none

/-- `str::parse::<i32>`: one sign at most, then digits, and no overflow. -/
def parse_i32 (s : String) : Option Int :=
  let n := match s.toList with
    | '-' :: cs => (parseDigits cs).map fun n => -n
    | '+' :: cs => parseDigits cs
    | cs => parseDigits cs
  n.filter fun n => -2147483648 ≤ n && n ≤ 2147483647

/-- `str::parse::<u32>`. -/
def parse_u32 (s : String) : Option Nat :=
  let n := match s.toList with
    | '+' :: cs => parseDigits cs
    | cs => parseDigits cs
  (n.filter fun n => n ≤ 4294967295).map Int.toNat

/-! ## Trimmed text -/

theorem toList_trim (s : String) :
    (trim s).toList = (s.toList.dropWhile isWhitespace).rdropWhile isWhitespace := by
  unfold trim List.rdropWhile
  exact String.toList_ofList

/-- What was trimmed has no white space at its ends. -/
theorem trim_trim (s : String) : trim (trim s) = trim s := by
  apply String.toList_inj.mp
  rw [toList_trim (trim s), toList_trim s]
  set l := s.toList.dropWhile isWhitespace with hl
  -- the start of what is left is the start of `l`, which is no white space
  have hstart : (l.rdropWhile isWhitespace).dropWhile isWhitespace = l.rdropWhile isWhitespace := by
    rw [List.dropWhile_eq_self_iff]
    intro hlen
    obtain ⟨rest, hrest⟩ := List.rdropWhile_prefix isWhitespace (l := l)
    have hl0 : 0 < l.length := by
      rw [← hrest, List.length_append]
      omega
    have hself : l.dropWhile isWhitespace = l := by
      rw [hl]
      exact List.dropWhile_idempotent isWhitespace _
    have hhead := List.dropWhile_eq_self_iff.mp hself hl0
    have hsame : (l.rdropWhile isWhitespace)[0] = l[0] := by
      have hopt : (l.rdropWhile isWhitespace ++ rest)[0]? = l[0]? := by rw [hrest]
      rw [List.getElem?_append_left hlen, List.getElem?_eq_getElem hlen,
        List.getElem?_eq_getElem hl0] at hopt
      exact Option.some.inj hopt
    rwa [hsame]
  rw [hstart]
  exact List.rdropWhile_idempotent isWhitespace l

end Text
