import Picasu.Framework.Text

/-! # Sanitizing Text

What the endpoints do to a tag or a description before they keep it. A character survives if XML
1.0 allows it and it is no C1 control.

A file name that a client sends loses more: separators and what looks like one, characters that
Windows refuses, controls and invisible ones. What is left is trimmed and normalized, and a device
name of Windows gets a mark in front.

Unicode normalization is a parameter.
-/

def is_valid_xml_char (c : Char) : Bool :=
  let n := c.toNat
  n == 0x9 || n == 0xA || n == 0xD || (0x20 ≤ n && n ≤ 0x7E) || (0xA0 ≤ n && n ≤ 0xD7FF) ||
    (0xE000 ≤ n && n ≤ 0xFFFD) || (0x10000 ≤ n && n ≤ 0x10FFFF)

variable (nfc : String → String)

def sanitize_text (s : String) : String :=
  String.ofList ((nfc s).toList.filter is_valid_xml_char)

/-- `sanitize_tag`: a tag is also a single line. -/
def sanitize_tag (s : String) : String :=
  String.ofList ((nfc s).toList.filter fun c => is_valid_xml_char c && c != '\n' && c != '\r')

/-! ## File names -/

structure FilenameSanitize where
  /-- Empty if nothing usable is left. -/
  name : String
  stripped : List Char
  normalized : Bool
  reserved : Bool
  changed : Bool
  deriving DecidableEq, Repr

def is_forbidden_filename_char (c : Char) : Bool :=
  let n := c.toNat
  -- tier 0: separators and the null byte
  c == '\x00' || c == '/' || c == '\\' ||
  -- tier 1: what Windows refuses
  ['<', '>', ':', '"', '|', '?', '*'].contains c ||
  -- tier 2: noncharacters, zero-width characters and direction marks
  (0xFDD0 ≤ n && n ≤ 0xFDEF) || n % 0x10000 == 0xFFFE || n % 0x10000 == 0xFFFF ||
  [0x200B, 0x200C, 0x200D, 0x200E, 0x200F].contains n || [0xFEFF, 0x2060].contains n ||
  (0x202A ≤ n && n ≤ 0x202E) || (0x2066 ≤ n && n ≤ 0x2069) ||
  -- tier 2: what looks like a separator or a pipe
  [0x2044, 0x2215, 0x29F8, 0xFF0F, 0x2216, 0x29F5, 0x29F9, 0xFF3C, 0xFF5C].contains n ||
  -- tier 3: controls
  Text.is_control c

def RESERVED_WINDOWS_NAMES : List String :=
  ["CON", "PRN", "AUX", "NUL",
    "COM1", "COM2", "COM3", "COM4", "COM5", "COM6", "COM7", "COM8", "COM9", "LPT1", "LPT2", "LPT3",
    "LPT4", "LPT5", "LPT6", "LPT7", "LPT8", "LPT9"]

/-- `is_reserved_windows_name`: what stands before the first dot decides. -/
def is_reserved_windows_name (name : String) : Bool :=
  let stem := (Text.split name '.').head?.getD name
  RESERVED_WINDOWS_NAMES.any fun r => Text.eq_ignore_ascii_case stem r

/-- A device name of Windows gets a mark in front. -/
def mark_reserved (name : String) : String :=
  if is_reserved_windows_name name then "_" ++ name else name

/-- The names that are special in a directory are dropped. -/
def clear_special (name : String) : String :=
  if name = "" ∨ name = "." ∨ name = ".." then "" else name

def sanitize_filename (name : String) (normalize_nfc : Bool) : FilenameSanitize :=
  let stripped := name.toList.filter is_forbidden_filename_char
  let trimmed :=
    Text.trim (String.ofList (name.toList.filter fun c => !is_forbidden_filename_char c))
  let composed := if normalize_nfc then nfc trimmed else trimmed
  let cleaned := clear_special (mark_reserved composed)
  { name := cleaned
    stripped
    normalized := normalize_nfc && nfc trimmed != trimmed
    reserved := is_reserved_windows_name composed
    changed := cleaned != name }

/-- A text without forbidden characters. -/
def Allowed (s : String) : Prop := ∀ c ∈ s.toList, is_forbidden_filename_char c = false

instance (s : String) : Decidable (Allowed s) :=
  List.decidableBAll (fun c => is_forbidden_filename_char c = false) s.toList

theorem allowed_append {s t : String} : Allowed (s ++ t) ↔ Allowed s ∧ Allowed t := by
  simp only [Allowed, String.toList_append, List.mem_append, or_imp, forall_and]

theorem allowed_dash : Allowed "-" := by decide +kernel

theorem allowed_dot : Allowed "." := by decide +kernel

theorem allowed_tmp : Allowed ".tmp" := by decide +kernel

theorem allowed_filter (s : String) :
    Allowed (String.ofList (s.toList.filter fun c => !is_forbidden_filename_char c)) := by
  intro c hc
  rw [String.toList_ofList, List.mem_filter] at hc
  simpa using hc.2

namespace Allowed

variable {s : String}

theorem trim (h : Allowed s) : Allowed (Text.trim s) := by
  intro c hc
  rw [Text.toList_trim] at hc
  have hdropped := (List.rdropWhile_prefix Text.isWhitespace _).subset hc
  exact h c ((List.dropWhile_suffix _).subset hdropped)

theorem marked (h : Allowed s) : Allowed (mark_reserved s) := by
  unfold mark_reserved
  split
  · exact allowed_append.mpr ⟨by decide +kernel, h⟩
  · exact h

theorem cleared (h : Allowed s) : Allowed (clear_special s) := by
  unfold clear_special
  split
  · decide
  · exact h

end Allowed

/-- Each step of `sanitize_filename` leaves allowed characters only, if normalization adds none. -/
theorem allowed_sanitize_filename {nfc : String → String} (hnfc : ∀ s, Allowed s → Allowed (nfc s))
    (name : String) (normalize_nfc : Bool) :
    Allowed (sanitize_filename nfc name normalize_nfc).name := by
  have htrimmed := (allowed_filter name).trim
  simp only [sanitize_filename]
  apply Allowed.cleared
  apply Allowed.marked
  split
  · exact hnfc _ htrimmed
  · exact htrimmed

theorem clear_special_ne_dots (s : String) : clear_special s ∉ [".", ".."] := by
  unfold clear_special
  split
  · decide
  rename_i hdots
  intro hmem
  simp only [List.mem_cons, List.not_mem_nil, or_false] at hmem
  exact hdots (.inr hmem)

/-- The name that is left, if any, is no special one. -/
theorem sanitize_filename_ne_dots (name : String) (normalize_nfc : Bool) :
    (sanitize_filename nfc name normalize_nfc).name ∉ [".", ".."] := by
  simp only [sanitize_filename]
  exact clear_special_ne_dots _
