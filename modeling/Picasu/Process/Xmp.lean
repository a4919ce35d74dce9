import Mathlib.Data.Finset.Basic
import Picasu.Framework.FileMap
import Picasu.Framework.Table
import Picasu.Framework.Text

/-! # Reading XMP Metadata

What an index of a media file takes from its sidecar, or from the packet embedded in the file when
there is no sidecar: tags, description, rating, title and the trash flag.

The packets are read and written by `xmpkit`, a library outside of this code. `Xmpkit` is what the
code calls of it, and `Xmpkit.RoundTrips` is what the library is for: what the code writes is what
the code reads.
-/

open PathBuf Text

/-! ## The library -/

/-- `xmpkit::XmpValue`; the reader looks at no other shapes. -/
inductive XmpValue where
  | string (s : String)
  | array (items : List XmpValue)
  | boolean (b : Bool)
  | integer (n : Int)
  | other

/-- A property, by its namespace and its name. -/
structure XmpProperty where
  namespace_ : String
  name : String
  deriving DecidableEq, Repr

def NS_DC : String := "http://purl.org/dc/elements/1.1/"

def NS_XMP : String := "http://ns.adobe.com/xap/1.0/"

/-- The namespace of the application. -/
def NS_PICASU : String := "http://picasu.app/xmp/1.0/"

def dc_subject : XmpProperty := ⟨NS_DC, "subject"⟩

def dc_description : XmpProperty := ⟨NS_DC, "description"⟩

def dc_title : XmpProperty := ⟨NS_DC, "title"⟩

def xmp_Rating : XmpProperty := ⟨NS_XMP, "Rating"⟩

def picasu_Trashed : XmpProperty := ⟨NS_PICASU, "Trashed"⟩

/-- What the code calls of `xmpkit`. Errors are their texts. -/
structure Xmpkit where
  /-- `XmpMeta`. -/
  Meta : Type
  /-- `XmpMeta::new`. -/
  new : Meta
  get_property : Meta → XmpProperty → Option XmpValue
  has_property : Meta → XmpProperty → Bool
  set_property : Meta → XmpProperty → XmpValue → Except String Meta
  delete_property : Meta → XmpProperty → Except String Meta
  /-- Generic and specific language, then the text. -/
  set_localized_text : Meta → XmpProperty → String → String → String → Except String Meta
  serialize_packet : Meta → Except String String
  /-- `XmpMeta::parse`; its error is only logged. -/
  parse : String → Option Meta
  /-- `XmpFile::open` on a file at a path with these bytes, then `get_xmp`. -/
  embedded : PathBuf → ByteArray → Option Meta

/-! ## The fields -/

/-- `XmpData`, with its `Default`. -/
structure XmpData where
  tags : Finset String := ∅
  description : Option String := none
  rating : Option Nat := none
  title : Option String := none
  trashed : Bool := false
  deriving DecidableEq

/-- The tag of one item of a bag; blank items and items that are no text are no tags. -/
def tag_of_text (s : String) : Option String := if trim s = "" then none else some (trim s)

def tags_from_subject : Option XmpValue → Finset String
  | some (.array items) =>
    (items.filterMap fun item =>
      match item with
      | .string s => tag_of_text s
      | _ => none).toFinset
  | some (.string s) => ((split s ',').filterMap tag_of_text).toFinset
  | _ => ∅

/-- The text of a property of either shape. -/
def text_of_value : XmpValue → Option String
  | .array (.string s :: _) => some s
  | .string s => some s
  | _ => none

def text_from_property (value : Option XmpValue) : Option String :=
  ((value.bind text_of_value).map trim).filter fun text => text != ""

/-- `rating_from_property`: the number of stars is read as an `i32` and kept when it is a `u8` and
at most five. -/
def rating_from_property : Option XmpValue → Option Nat
  | some (.string raw) =>
    ((parse_i32 (trim raw)).filter fun v => 0 ≤ v && v ≤ 255).map Int.toNat |>.filter (· ≤ 5)
  | _ => none

def trashed_from_property : Option XmpValue → Bool
  | some (.boolean value) => value
  | some (.string raw) => eq_ignore_ascii_case (trim raw) "true" || trim raw == "1"
  | some (.integer value) => value != 0
  | _ => false

section Reader

variable (kit : Xmpkit)

def Xmpkit.normalize (m : kit.Meta) : XmpData where
  tags := tags_from_subject (kit.get_property m dc_subject)
  description := text_from_property (kit.get_property m dc_description)
  rating := rating_from_property (kit.get_property m xmp_Rating)
  title := text_from_property (kit.get_property m dc_title)
  trashed := trashed_from_property (kit.get_property m picasu_Trashed)

def extract_xmp_data_from_packet (bytes : ByteArray) : XmpData :=
  match String.fromUTF8? bytes with
  | none => {}
  | some text => ((kit.parse text).map kit.normalize).getD {}

def discover_sidecar (files : FileMap ByteArray) (path : PathBuf) : Option PathBuf :=
  -- the extension is replaced, so files with one stem share a sidecar
  let sidecar := with_extension path "xmp"
  if (files sidecar).isSome then some sidecar else none

def read_sidecar (files : FileMap ByteArray) (sidecar : PathBuf) : XmpData :=
  match files sidecar with
  | some bytes => extract_xmp_data_from_packet kit bytes
  | none => {}

/-- What the packet embedded in a file says. -/
def read_embedded (files : FileMap ByteArray) (path : PathBuf) : XmpData :=
  match files path with
  | some bytes => ((kit.embedded path bytes).map kit.normalize).getD {}
  | none => {}

/-- `extract_xmp_data_from_file`: a sidecar has precedence, readable or not. -/
def extract_xmp_data_from_file (files : FileMap ByteArray) (path : PathBuf) : XmpData :=
  match discover_sidecar files path with
  | some sidecar => read_sidecar kit files sidecar
  | none => read_embedded kit files path

end Reader

/-! ## What is written is read -/

/-- The view after a property was given this value, or none. -/
def XmpData.set (view : XmpData) (p : XmpProperty) (value : Option XmpValue) : XmpData where
  tags := if dc_subject = p then tags_from_subject value else view.tags
  description := if dc_description = p then text_from_property value else view.description
  rating := if xmp_Rating = p then rating_from_property value else view.rating
  title := if dc_title = p then text_from_property value else view.title
  trashed := if picasu_Trashed = p then trashed_from_property value else view.trashed

theorem XmpData.set_set (view : XmpData) (p : XmpProperty) (v w : Option XmpValue) :
    (view.set p v).set p w = view.set p w := by
  unfold XmpData.set
  congr 1 <;> split <;> rfl

/-- The values that the writer sets, localized texts apart. -/
inductive Managed : XmpProperty → XmpValue → Prop
  | subject (items : List String) : Managed dc_subject (.array (items.map .string))
  | rating (r : Nat) : Managed xmp_Rating (.string (toString r))
  | trashed : Managed picasu_Trashed (.boolean true)

namespace Xmpkit

variable (kit : Xmpkit)

/-- The metadata that the writer makes. -/
inductive Made : kit.Meta → Prop
  | new : Made kit.new
  | parse {text m} : kit.parse text = some m → Made m
  | set {m m' p v} : Made m → Managed p v → kit.set_property m p v = .ok m' → Made m'
  | delete {m m' p} : Made m → kit.delete_property m p = .ok m' → Made m'
  | localized {m m' p text} :
    Made m → kit.set_localized_text m p "" "x-default" text = .ok m' → Made m'

/-- What is set, deleted, serialized and parsed is read as such. Nothing is said of the values
between: `xmpkit` sets a Boolean and parses it as a text. -/
structure RoundTrips : Prop where
  new : kit.normalize kit.new = {}
  set : ∀ m p v m', Managed p v → kit.set_property m p v = .ok m' →
    kit.normalize m' = (kit.normalize m).set p (some v)
  delete : ∀ m p m', kit.delete_property m p = .ok m' →
    kit.has_property m' p = false ∧ kit.normalize m' = (kit.normalize m).set p none
  absent : ∀ m p, kit.has_property m p = false → kit.normalize m = (kit.normalize m).set p none
  localized : ∀ m p text m', kit.has_property m p = false →
    kit.set_localized_text m p "" "x-default" text = .ok m' →
    kit.normalize m' = (kit.normalize m).set p (some (.array [.string text]))
  parse_serialize : ∀ m text, kit.Made m → kit.serialize_packet m = .ok text →
    ∃ m', kit.parse text = some m' ∧ kit.normalize m' = kit.normalize m

end Xmpkit

variable {kit : Xmpkit} {files after : FileMap ByteArray} {q : PathBuf}

theorem read_sidecar_congr (h : after q = files q) :
    read_sidecar kit after q = read_sidecar kit files q := by
  unfold read_sidecar
  rw [h]

theorem extract_of_sidecar (h : files (with_extension q "xmp") ≠ none) :
    extract_xmp_data_from_file kit files q = read_sidecar kit files (with_extension q "xmp") := by
  unfold extract_xmp_data_from_file discover_sidecar
  simp only [Option.isSome_iff_ne_none.mpr h, if_true]

theorem extract_of_no_sidecar (h : files (with_extension q "xmp") = none) :
    extract_xmp_data_from_file kit files q = read_embedded kit files q := by
  unfold extract_xmp_data_from_file discover_sidecar
  simp only [h, Option.isSome_none, Bool.false_eq_true, if_false]

theorem read_embedded_congr (h : after q = files q) :
    read_embedded kit after q = read_embedded kit files q := by
  unfold read_embedded
  rw [h]

/-- An index of a file looks at the file and at its sidecar only. -/
theorem extract_congr (hfile : after q = files q)
    (hsidecar : after (with_extension q "xmp") = files (with_extension q "xmp")) :
    extract_xmp_data_from_file kit after q = extract_xmp_data_from_file kit files q := by
  by_cases habsent : files (with_extension q "xmp") = none
  · rw [extract_of_no_sidecar habsent, extract_of_no_sidecar (hsidecar.trans habsent),
      read_embedded_congr hfile]
  · rw [extract_of_sidecar habsent, extract_of_sidecar (by rwa [hsidecar]),
      read_sidecar_congr hsidecar]

theorem fromUTF8?_toUTF8 (s : String) : String.fromUTF8? s.toUTF8 = some s := by
  unfold String.fromUTF8?
  exact dif_pos s.isValidUTF8

/-- A packet that was serialized says what was serialized. -/
theorem extract_xmp_data_from_serialized (hkit : kit.RoundTrips) {m : kit.Meta} (hm : kit.Made m)
    {text : String} (h : kit.serialize_packet m = .ok text) :
    extract_xmp_data_from_packet kit text.toUTF8 = kit.normalize m := by
  obtain ⟨m', hparse, hread⟩ := hkit.parse_serialize m text hm h
  unfold extract_xmp_data_from_packet
  rw [fromUTF8?_toUTF8]
  show ((kit.parse text).map kit.normalize).getD {} = kit.normalize m
  rw [hparse]
  exact hread

/-! ## A toolkit

Its metadata are the texts of each property: a shape, and those of the value. A packet has a row
for each of them, with a `,` after each text and a `;` after each row, and a `+` before these
characters in a text. -/

namespace RowKit

abbrev Rows := Table XmpProperty (List String)

def value_of : List String → XmpValue
  | ["=", s] => .string s
  | "*" :: items => .array (items.map .string)
  | _ => .other

def row_of (e : Sigma fun _ : XmpProperty => List String) : List String :=
  e.1.namespace_ :: e.1.name :: e.2

def of_row : List String → Option (Sigma fun _ : XmpProperty => List String)
  | ns :: name :: texts => some ⟨⟨ns, name⟩, texts⟩
  | _ => none

def print_char (c : Char) : List Char := if c ∈ ['+', ',', ';'] then ['+', c] else [c]

def print_text (s : String) : List Char := s.toList.flatMap print_char ++ [',']

def print_row (row : List String) : List Char := row.flatMap print_text ++ [';']

/-- The rows of a packet, after the characters of a text and the texts of a row. -/
def read : List Char → List Char → List String → Option (List (List String))
  | '+' :: c :: cs, text, row => read cs (text ++ [c]) row
  | ',' :: cs, text, row => read cs [] (row ++ [String.ofList text])
  | ';' :: cs, _, row => (read cs [] []).map (row :: ·)
  | [], _, _ => some []
  | ['+'], _, _ => none
  | c :: cs, text, row => read cs (text ++ [c]) row

theorem read_text (s : String) (cs : List Char) (row : List String) :
    read (print_text s ++ cs) [] row = read cs [] (row ++ [s]) := by
  have hchars : ∀ (chars text : List Char),
      read (chars.flatMap print_char ++ ',' :: cs) text row =
        read cs [] (row ++ [String.ofList (text ++ chars)]) := by
    intro chars
    induction chars with
    | nil => intro text; simp [read]
    | cons c chars ih =>
      intro text
      have hchar : ∀ cs, read (print_char c ++ cs) text row = read cs (text ++ [c]) row := by
        intro cs
        unfold print_char
        split
        · rfl
        · rename_i hplain
          simp only [List.mem_cons, List.not_mem_nil, or_false, not_or] at hplain
          simp [read, hplain]
      rw [List.flatMap_cons, List.append_assoc, hchar, ih, List.append_assoc, List.singleton_append]
  have h := hchars s.toList []
  rwa [List.nil_append, String.ofList_toList, ← List.singleton_append, ← List.append_assoc] at h

theorem read_row (row done : List String) (cs : List Char) :
    read (print_row row ++ cs) [] done = (read cs [] []).map ((done ++ row) :: ·) := by
  unfold print_row
  induction row generalizing done with
  | nil => rw [List.append_nil]; rfl
  | cons s row ih =>
    rw [List.flatMap_cons, List.append_assoc, List.append_assoc, read_text, ← List.append_assoc, ih,
      List.append_assoc]
    rfl

theorem read_print (rows : List (List String)) :
    read (rows.flatMap print_row) [] [] = some rows := by
  induction rows with
  | nil => rfl
  | cons row rows ih => rw [List.flatMap_cons, read_row, ih]; rfl

end RowKit

open RowKit in
/-- The toolkit of rows. -/
def rowKit : Xmpkit where
  Meta := Rows
  new := ∅
  get_property m p := (m.lookup p).map value_of
  has_property m p := (m.lookup p).isSome
  set_property m p
    | .string s => .ok (m.insert p ["=", s])
    -- a Boolean is kept as a text
    | .boolean b => .ok (m.insert p ["=", if b then "True" else "False"])
    | .array items => .ok (m.insert p ("*" :: items.filterMap text_of_value))
    | _ => .error "no such value"
  delete_property m p := .ok (m.erase p)
  set_localized_text m p _ _ text := .ok (m.insert p ["*", text])
  serialize_packet m := .ok (String.ofList ((m.entries.map row_of).flatMap print_row))
  parse s := (read s.toList [] []).map fun rows => (rows.filterMap of_row).toAList
  embedded _ _ := none

/-- A change of one property is a change of what is read. -/
theorem rowKit_normalize {m m' : RowKit.Rows} {p : XmpProperty} {texts : Option (List String)}
    (h : ∀ p', m'.lookup p' = if p' = p then texts else m.lookup p') :
    rowKit.normalize m' = (rowKit.normalize m).set p (texts.map RowKit.value_of) := by
  unfold Xmpkit.normalize XmpData.set rowKit
  simp only [h]
  congr 1 <;> split <;> rfl

open RowKit in
theorem rowKit_put (m : Rows) (p : XmpProperty) (texts : List String) :
    rowKit.normalize (m.insert p texts) = (rowKit.normalize m).set p (some (value_of texts)) :=
  rowKit_normalize (Table.lookup_insert m p texts)

open RowKit in
theorem rowKit_roundTrips : rowKit.RoundTrips where
  new := rfl
  set m p v m' hv h := by
    cases hv with
    | subject items =>
      obtain rfl := Except.ok.inj h
      have hitems : (items.map XmpValue.string).filterMap text_of_value = items := by
        rw [List.filterMap_map]
        exact List.filterMap_some
      exact (rowKit_put m _ _).trans (by rw [hitems]; rfl)
    | rating r =>
      obtain rfl := Except.ok.inj h
      exact rowKit_put m _ _
    | trashed =>
      obtain rfl := Except.ok.inj h
      have htrue : trashed_from_property (some (.string "True")) = true := by decide +kernel
      refine (rowKit_put m _ _).trans ?_
      unfold XmpData.set
      simp only [value_of, if_true, htrue]
      rfl
  delete m p m' h := by
    obtain rfl := Except.ok.inj h
    refine ⟨?_, rowKit_normalize (Table.lookup_erase m p)⟩
    exact congrArg Option.isSome (AList.lookup_erase p m)
  absent m p h := by
    have hnone : AList.lookup p m = none := by simpa [rowKit] using h
    have hsame : ∀ p', AList.lookup p' m = if p' = p then none else AList.lookup p' m := by
      intro p'
      split
      · rename_i hp
        rw [hp, hnone]
      · rfl
    exact rowKit_normalize hsame
  localized m p text m' _ h := by
    obtain rfl := Except.ok.inj h
    exact rowKit_put m p _
  parse_serialize m text _ h := by
    obtain rfl := Except.ok.inj h
    refine ⟨m.entries.toAList, ?_, ?_⟩
    · have hrows : (m.entries.map row_of).filterMap of_row = m.entries := by
        rw [List.filterMap_map]
        exact List.filterMap_some
      show (read (String.ofList _).toList [] []).map _ = _
      rw [String.toList_ofList, read_print, Option.map_some, hrows]
      rfl
    · have hlook : ∀ p, m.entries.toAList.lookup p = m.lookup p := fun p => AList.lookup_to_alist _
      unfold Xmpkit.normalize rowKit
      simp only [hlook]
