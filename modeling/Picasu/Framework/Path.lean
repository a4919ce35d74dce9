import Mathlib.Data.List.Basic

/-! # File Paths

Unix paths as Rust's `std::path` sees them: a path is its list of components, and two paths are
equal when their components are. Parsing a string drops repeated and trailing separators and every
`.` that is not at the start; a root component, if there is one, comes first.

* `ofString` parses, `display` prints, and printing a well-formed path and parsing the text gives
  it back (`ofString_display`);
* what is left of a text after the components of a directory, joined to another directory, is read
  back below that one (`ofString_join_text`).
-/

inductive Component where
  | rootDir
  | curDir
  | parentDir
  | normal (name : String)
  deriving DecidableEq, Repr

/-- The text of a component; the root is what stands before the first separator. -/
def Component.text : Component → List Char
  | .rootDir => []
  | .curDir => ['.']
  | .parentDir => ['.', '.']
  | .normal name => name.toList

/-- A path, as the list of its components. -/
abbrev PathBuf := List Component

namespace PathBuf

/-- One piece between separators; the empty piece and `.` are no components. -/
def piece (cs : List Char) : Option Component :=
  if cs = [] ∨ cs = ['.'] then none
  else if cs = ['.', '.'] then some .parentDir
  else some (.normal (String.ofList cs))

/-- `Path::new(s).components()`. -/
def ofString (s : String) : PathBuf :=
  let pieces := s.toList.splitOn '/'
  match s.toList with
  | [] => []
  | '/' :: _ => .rootDir :: pieces.filterMap piece
  | _ =>
    match pieces with
    | ['.'] :: rest => .curDir :: rest.filterMap piece
    | _ => pieces.filterMap piece

def is_absolute (p : PathBuf) : Bool := p.head? == some .rootDir

def parent (p : PathBuf) : Option PathBuf :=
  match p.getLast? with
  | none | some .rootDir => none
  | some _ => some p.dropLast

def file_name (p : PathBuf) : Option String :=
  match p.getLast? with
  | some (.normal name) => some name
  | _ => none

/-- `Path::join`: an absolute second path replaces the first. -/
def join (p q : PathBuf) : PathBuf :=
  if is_absolute q || p.isEmpty then q
  else
    match q with
    | .curDir :: rest => p ++ rest
    | _ => p ++ q

/-- `Path::starts_with`, by components. -/
def starts_with (p base : PathBuf) : Bool := base.isPrefixOf p

/-- `Path::strip_prefix`, by components. -/
def strip (p base : PathBuf) : Option PathBuf :=
  if starts_with p base then some (p.drop base.length) else none

/-- The parts of a file name before and after its last dot, if there is one that is not at the
start. -/
def rsplit_at_dot (name : List Char) : Option (List Char × List Char) :=
  match name.reverse.dropWhile (fun c => c != '.') with
  | [] | ['.'] => none
  | _ :: before => some (before.reverse, (name.reverse.takeWhile (fun c => c != '.')).reverse)

def file_stem (p : PathBuf) : Option String :=
  (file_name p).map fun name =>
    match rsplit_at_dot name.toList with
    | some (before, _) => String.ofList before
    | none => name

def extension (p : PathBuf) : Option String :=
  (file_name p).bind fun name =>
    (rsplit_at_dot name.toList).map fun (_, after) => String.ofList after

/-- `Path::with_extension`, for an extension that is not empty. A path without a file name stays as
it is. -/
def with_extension (p : PathBuf) (ext : String) : PathBuf :=
  match file_stem p with
  | some stem => p.dropLast ++ [.normal (stem ++ "." ++ ext)]
  | none => p

def display (p : PathBuf) : String :=
  if p = [.rootDir] then "/" else String.ofList (['/'].intercalate (p.map Component.text))

/-- The pieces that follow the first `n` components. -/
def skip : Nat → List (List Char) → List (List Char)
  | 0, ws => ws
  | _ + 1, [] => []
  | n + 1, w :: ws => if (piece w).isSome then skip n ws else skip (n + 1) ws

/-- The pieces without those at either end that are no components. -/
def trim_pieces (ws : List (List Char)) : List (List Char) :=
  ((ws.dropWhile fun w => (piece w).isNone).reverse.dropWhile fun w => (piece w).isNone).reverse

/-- The text that `Path::strip_prefix` leaves, for a prefix that is not empty: what follows it,
without separators and `.` at its ends. Inside it stays as it is. -/
def strip_text (s : String) (base : PathBuf) : Option String :=
  if starts_with (ofString s) base then
    -- a root or a `.` at the start is a component, but no piece
    let n :=
      match (ofString s).head? with
      | some .rootDir | some .curDir => base.length - 1
      | _ => base.length
    some (String.ofList (['/'].intercalate (trim_pieces (skip n (s.toList.splitOn '/')))))
  else none

/-- The text of `dir.join(rel)`, for a relative `rel`. Joining the empty path adds a separator. -/
def join_text (dir : PathBuf) (rel : String) : String :=
  if dir = [] then rel else if dir = [.rootDir] then "/" ++ rel else display dir ++ "/" ++ rel

/-! ## Well-formed paths -/

/-- A component that can stand anywhere in a path: parsing its text gives it back. -/
def Plain (c : Component) : Prop := piece c.text = some c ∧ '/' ∉ c.text

/-- The paths that are parsed from some text. -/
def WellFormed : PathBuf → Prop
  | [] => True
  | c :: rest => (c = .rootDir ∨ c = .curDir ∨ Plain c) ∧ ∀ d ∈ rest, Plain d

variable {cs after : List Char} {c : Component} {p rel base : PathBuf} {s name : String}

theorem text_of_piece (h : piece cs = some c) : c.text = cs := by
  unfold piece at h
  split at h
  · cases h
  split at h
  · rename_i hdots
    obtain rfl := Option.some.inj h
    exact hdots.symm
  · obtain rfl := Option.some.inj h
    exact String.toList_ofList

theorem plain_of_piece (h : piece cs = some c) (hsep : '/' ∉ cs) :
    Plain c := by
  have htext := text_of_piece h
  constructor
  · rwa [htext]
  · rwa [htext]

theorem sep_not_mem_of_mem_splitOn {w : List Char} (h : w ∈ cs.splitOn '/') : '/' ∉ w := by
  induction cs generalizing w with
  | nil =>
    obtain rfl : w = [] := by simpa using h
    exact List.not_mem_nil
  | cons c cs ih =>
    rw [List.splitOn_cons_eq_if_modifyHead] at h
    split at h
    · rcases List.mem_cons.mp h with rfl | hw
      · exact List.not_mem_nil
      · exact ih hw
    · -- `c` joins the first piece of the rest
      rename_i hc
      cases hsplit : cs.splitOn '/' with
      | nil => simp [hsplit] at h
      | cons v vs =>
        rw [hsplit, List.modifyHead_cons] at h
        rcases List.mem_cons.mp h with rfl | hw
        · have hv : '/' ∉ v := ih (by rw [hsplit]; simp)
          have hne : '/' ≠ c := by
            rintro rfl
            simp at hc
          exact List.not_mem_cons_of_ne_of_not_mem hne hv
        · exact ih (by rw [hsplit]; exact List.mem_cons_of_mem _ hw)

theorem plain_of_mem_filterMap_piece (cs : List Char) {ws : List (List Char)}
    (hws : ∀ w ∈ ws, w ∈ cs.splitOn '/') : ∀ d ∈ ws.filterMap piece, Plain d := by
  intro d hd
  obtain ⟨w, hw, hpiece⟩ := List.mem_filterMap.mp hd
  exact plain_of_piece hpiece (sep_not_mem_of_mem_splitOn (hws w hw))

theorem wellFormed_of_plain (h : ∀ c ∈ p, Plain c) : WellFormed p := by
  cases p with
  | nil => trivial
  | cons c rest => exact ⟨Or.inr (Or.inr (h c (by simp))), fun d hd => h d (by simp [hd])⟩

theorem wellFormed_ofString (s : String) : WellFormed (ofString s) := by
  simp only [ofString]
  split
  · trivial
  · exact ⟨Or.inl rfl, plain_of_mem_filterMap_piece s.toList fun w hw => hw⟩
  · split
    · rename_i rest hpieces
      refine ⟨Or.inr (Or.inl rfl), plain_of_mem_filterMap_piece s.toList fun w hw => ?_⟩
      rw [hpieces]
      exact List.mem_cons_of_mem _ hw
    · exact wellFormed_of_plain (plain_of_mem_filterMap_piece s.toList fun w hw => hw)

/-! ## Reading back what was printed -/

theorem filterMap_piece_text (h : ∀ c ∈ p, Plain c) :
    (p.map Component.text).filterMap piece = p := by
  induction p with
  | nil => rfl
  | cons c p ih =>
    rw [List.map_cons, List.filterMap_cons_some (h c (by simp)).1]
    rw [ih fun d hd => h d (by simp [hd])]

/-- The pieces of a printed path are the texts of its components. -/
theorem splitOn_intercalate_text (hp : p ≠ []) (h : WellFormed p) :
    (['/'].intercalate (p.map Component.text)).splitOn '/' = p.map Component.text := by
  apply List.splitOn_intercalate
  · intro cs hcs
    obtain ⟨c, hc, rfl⟩ := List.mem_map.mp hcs
    cases p with
    | nil => exact absurd rfl hp
    | cons c₀ rest =>
      rcases List.mem_cons.mp hc with rfl | hc
      · rcases h.1 with rfl | rfl | hplain
        · decide
        · decide
        · exact hplain.2
      · exact (h.2 c hc).2
  · simpa using hp

theorem ofString_absolute (cs : List Char) :
    ofString (String.ofList ('/' :: cs)) = .rootDir :: (cs.splitOn '/').filterMap piece := by
  have hsplit : ('/' :: cs).splitOn '/' = [] :: cs.splitOn '/' := by
    rw [List.splitOn_cons_eq_if_modifyHead]
    simp
  simp only [ofString, String.toList_ofList, hsplit]
  rfl

/-- The components of the pieces of a relative path: a `.` counts only at the start. -/
def relative (pieces : List (List Char)) : PathBuf :=
  if pieces.head? = some ['.'] then .curDir :: pieces.tail.filterMap piece
  else pieces.filterMap piece

theorem ofString_relative {c : Char} (hc : c ≠ '/') (cs : List Char) :
    ofString (String.ofList (c :: cs)) = relative ((c :: cs).splitOn '/') := by
  simp only [ofString, String.toList_ofList]
  split
  · rename_i hnil
    cases hnil
  · rename_i hcons
    exact absurd (List.cons.inj hcons).1 hc
  · split
    · rename_i rest hpieces
      simp [relative, hpieces]
    · rename_i hpieces
      have hhead : ((c :: cs).splitOn '/').head? ≠ some ['.'] := by
        intro hhead
        obtain ⟨rest, hrest⟩ := List.head?_eq_some_iff.mp hhead
        exact hpieces rest hrest
      rw [relative, if_neg hhead]

theorem relative_append {pieces : List (List Char)} (h : pieces ≠ []) (ws : List (List Char)) :
    relative (pieces ++ ws) = relative pieces ++ ws.filterMap piece := by
  unfold relative
  rw [List.head?_append_of_ne_nil _ h, List.tail_append_of_ne_nil h]
  split
  · rw [List.filterMap_append, List.cons_append]
  · rw [List.filterMap_append]

/-- What follows a separator adds its pieces. -/
theorem ofString_append_text (hs : s ≠ "") (cs : List Char) :
    ofString (s ++ "/" ++ String.ofList cs) = ofString s ++ (cs.splitOn '/').filterMap piece := by
  obtain ⟨as, rfl⟩ : ∃ as, s = String.ofList as := ⟨s.toList, by simp⟩
  have htext : String.ofList as ++ "/" ++ String.ofList cs = String.ofList (as ++ '/' :: cs) := by
    rw [show as ++ '/' :: cs = as ++ ['/'] ++ cs by simp, String.ofList_append,
      String.ofList_append]
  cases as with
  | nil => exact absurd rfl hs
  | cons c as =>
    rw [htext]
    by_cases hc : c = '/'
    · subst hc
      rw [List.cons_append, ofString_absolute, ofString_absolute, List.splitOn_append_cons_self,
        List.filterMap_append, List.cons_append]
    · rw [List.cons_append, ofString_relative hc, ofString_relative hc, ← List.cons_append,
        List.splitOn_append_cons_self]
      exact relative_append (List.splitOn_ne_nil _ _) _

theorem text_ne_nil (hc : c = .curDir ∨ Plain c) : c.text ≠ [] := by
  intro hnil
  rcases hc with rfl | hplain
  · cases hnil
  · have hpiece := hplain.1
    rw [hnil] at hpiece
    cases hpiece

theorem relative_map_text {rest : PathBuf} (hc : c = .curDir ∨ Plain c)
    (hrest : ∀ d ∈ rest, Plain d) : relative ((c :: rest).map Component.text) = c :: rest := by
  rcases hc with rfl | hplain
  · simp [relative, Component.text, filterMap_piece_text hrest]
  have hdot : c.text ≠ ['.'] := by
    intro hdot
    have hpiece := hplain.1
    rw [hdot] at hpiece
    cases hpiece
  rw [relative, if_neg (by simpa using hdot)]
  exact filterMap_piece_text (List.forall_mem_cons.mpr ⟨hplain, hrest⟩)

/-- Printing a well-formed path and parsing the text gives the path back. -/
theorem ofString_display (h : WellFormed p) : ofString (display p) = p := by
  unfold display
  split
  · rename_i hroot
    rw [hroot]
    decide +kernel
  rename_i hroot
  cases p with
  | nil => rfl
  | cons c rest =>
    have hpieces := splitOn_intercalate_text (List.cons_ne_nil c rest) h
    rcases h.1 with rfl | hc
    · -- an absolute path: its text starts with the separator after the root
      cases rest with
      | nil => exact absurd rfl hroot
      | cons d rest =>
        have htext : ['/'].intercalate ((Component.rootDir :: d :: rest).map Component.text) =
            '/' :: ['/'].intercalate ((d :: rest).map Component.text) := by
          simp [List.intercalate, Component.text]
        have htail := splitOn_intercalate_text (List.cons_ne_nil d rest) (wellFormed_of_plain h.2)
        rw [htext, ofString_absolute, htail, filterMap_piece_text h.2]
    · -- a relative one: its text starts with that of its first component
      cases hcs : ['/'].intercalate ((c :: rest).map Component.text) with
      | nil =>
        rw [hcs] at hpieces
        exact absurd (List.cons.inj hpieces).1.symm (text_ne_nil hc)
      | cons a as =>
        have ha : a ≠ '/' := by
          rintro rfl
          rw [hcs, List.splitOn_cons_eq_if_modifyHead] at hpieces
          exact absurd (List.cons.inj hpieces).1.symm (text_ne_nil hc)
        rw [ofString_relative ha, ← hcs, hpieces, relative_map_text hc h.2]

/-! ## Joining -/

variable (dir : PathBuf)

theorem join_of_plain (h : ∀ c ∈ rel, Plain c) : join dir rel = dir ++ rel := by
  unfold join
  cases rel with
  | nil => cases dir <;> simp [is_absolute]
  | cons c rest =>
    have hroot : c ≠ .rootDir := by
      rintro rfl
      exact absurd (h .rootDir (by simp)).1 (by decide)
    have hcur : c ≠ .curDir := by
      rintro rfl
      exact absurd (h .curDir (by simp)).1 (by decide)
    cases dir <;> simp [is_absolute, hroot, hcur]

theorem wellFormed_append {dir : PathBuf} (hdir : WellFormed dir) (hrel : ∀ c ∈ rel, Plain c) :
    WellFormed (dir ++ rel) := by
  cases dir with
  | nil => exact wellFormed_of_plain hrel
  | cons c rest =>
    refine ⟨hdir.1, fun d hd => ?_⟩
    rcases List.mem_append.mp hd with hd | hd
    · exact hdir.2 d hd
    · exact hrel d hd

theorem filterMap_skip (n : Nat) (ws : List (List Char)) :
    (skip n ws).filterMap piece = (ws.filterMap piece).drop n := by
  induction ws generalizing n with
  | nil => cases n <;> simp [skip]
  | cons w ws ih =>
    cases n with
    | zero => simp [skip]
    | succ n =>
      cases hw : piece w with
      | none | some c => simp [skip, hw, ih]

variable (ws : List (List Char))

theorem filterMap_dropWhile_isNone :
    (ws.dropWhile fun w => (piece w).isNone).filterMap piece = ws.filterMap piece := by
  induction ws with
  | nil => rfl
  | cons w ws ih =>
    cases hw : piece w with
    | none => simp [hw, ih]
    | some c => simp [hw]

theorem filterMap_trim_pieces : (trim_pieces ws).filterMap piece = ws.filterMap piece := by
  unfold trim_pieces
  rw [List.filterMap_reverse, filterMap_dropWhile_isNone, List.filterMap_reverse,
    List.reverse_reverse, filterMap_dropWhile_isNone]

theorem skip_subset (n : Nat) (ws : List (List Char)) : skip n ws ⊆ ws := by
  induction ws generalizing n with
  | nil => cases n <;> simp [skip]
  | cons w ws ih =>
    cases n with
    | zero => simp [skip]
    | succ n =>
      unfold skip
      split
      · exact List.Subset.trans (ih n) (List.subset_cons_self w ws)
      · exact List.Subset.trans (ih (n + 1)) (List.subset_cons_self w ws)

theorem trim_pieces_subset : trim_pieces ws ⊆ ws := by
  intro w hw
  have hinner := (List.dropWhile_sublist _).subset (List.mem_reverse.mp hw)
  exact (List.dropWhile_sublist _).subset (List.mem_reverse.mp hinner)

/-- The components of the pieces of a text. -/
theorem filterMap_splitOn_intercalate {ws : List (List Char)} (h : ∀ w ∈ ws, '/' ∉ w) :
    ((['/'].intercalate ws).splitOn '/').filterMap piece = ws.filterMap piece := by
  cases ws with
  | nil => decide
  | cons w ws => rw [List.splitOn_intercalate _ h (List.cons_ne_nil w ws)]

/-- A root or a `.` at the start is a component, but no piece. -/
theorem ofString_eq (s : String) :
    ofString s = (s.toList.splitOn '/').filterMap piece ∨
      ∃ c, (c = .rootDir ∨ c = .curDir) ∧
        ofString s = c :: (s.toList.splitOn '/').filterMap piece := by
  unfold ofString
  simp only
  split
  · rename_i hnil
    rw [hnil]
    exact Or.inl rfl
  · exact Or.inr ⟨.rootDir, Or.inl rfl, rfl⟩
  · split
    · rename_i rest hpieces
      rw [hpieces]
      exact Or.inr ⟨.curDir, Or.inr rfl, rfl⟩
    · exact Or.inl rfl

theorem piece_ne_start {w : List Char} (h : piece w = some c) :
    c ≠ .rootDir ∧ c ≠ .curDir := by
  unfold piece at h
  split at h
  · cases h
  split at h
  · obtain rfl := Option.some.inj h
    exact ⟨nofun, nofun⟩
  · obtain rfl := Option.some.inj h
    exact ⟨nofun, nofun⟩

/-- The text that is left has the components that are left. -/
theorem strip_text_eq_some {text : String} (hbase : base ≠ []) (h : strip_text s base = some text) :
    strip (ofString s) base = some ((text.toList.splitOn '/').filterMap piece) := by
  unfold strip_text at h
  split at h
  case isFalse => cases h
  rename_i hstart
  obtain rfl := Option.some.inj h
  rw [strip, if_pos hstart, String.toList_ofList, filterMap_splitOn_intercalate]
  · rw [filterMap_trim_pieces, filterMap_skip]
    congr 1
    rcases ofString_eq s with hs | ⟨c, hc, hs⟩
    · have hhead : ∀ c, (ofString s).head? = some c → c ≠ .rootDir ∧ c ≠ .curDir := by
        intro c hc
        rw [hs] at hc
        obtain ⟨w, -, hw⟩ := List.mem_filterMap.mp (List.mem_of_head? hc)
        exact piece_ne_start hw
      split
      · rename_i heq
        exact absurd rfl (hhead _ heq).1
      · rename_i heq
        exact absurd rfl (hhead _ heq).2
      · rw [hs]
    · have hlen : base.length = (base.length - 1) + 1 := by
        have := List.length_pos_iff.mpr hbase
        omega
      rw [hs]
      rcases hc with rfl | rfl
      · rw [hlen, List.drop_succ_cons]
        simp
      · rw [hlen, List.drop_succ_cons]
        simp
  · intro w hw
    exact sep_not_mem_of_mem_splitOn (skip_subset _ _ (trim_pieces_subset _ hw))

theorem strip_text_isSome :
    (strip_text s base).isSome = starts_with (ofString s) base := by
  unfold strip_text
  split <;> simp_all

/-- A text that is left, joined to a directory, is read back below it. -/
theorem ofString_join_text {dir : PathBuf} {text : String} (hdir : WellFormed dir)
    (hne : dir ≠ []) (hroot : dir ≠ [.rootDir]) (hbase : base ≠ [])
    (h : strip_text s base = some text) (hrel : strip (ofString s) base = some rel) :
    ofString (join_text dir text) = dir ++ rel := by
  have hdisplay : display dir ≠ "" := by
    intro htext
    have hread := ofString_display hdir
    rw [htext] at hread
    exact hne hread.symm
  obtain rfl : rel = _ := Option.some.inj (hrel.symm.trans (strip_text_eq_some hbase h))
  have hjoin := ofString_append_text hdisplay text.toList
  rw [String.ofList_toList, ofString_display hdir] at hjoin
  rw [join_text, if_neg hne, if_neg hroot, hjoin]

theorem starts_with_append (dir rel : PathBuf) : starts_with (dir ++ rel) dir = true := by
  simp [starts_with]

theorem strip_append (dir rel : PathBuf) : strip (dir ++ rel) dir = some rel := by
  rw [strip, if_pos (starts_with_append dir rel), List.drop_left]

theorem strip_eq_some : strip p base = some rel ↔ p = base ++ rel := by
  constructor
  · intro h
    unfold strip at h
    split at h
    · rename_i hstart
      obtain ⟨rest, rfl⟩ := List.isPrefixOf_iff_prefix.mp hstart
      rw [List.drop_left] at h
      rw [Option.some.inj h]
    · cases h
  · rintro rfl
    exact strip_append base rel

theorem starts_with_iff : starts_with p base = true ↔ ∃ rel, p = base ++ rel := by
  rw [starts_with, List.isPrefixOf_iff_prefix]
  exact exists_congr fun rel => eq_comm

theorem plain_of_strip (hp : WellFormed p) (hbase : base ≠ [])
    (h : strip p base = some rel) : ∀ c ∈ rel, Plain c := by
  unfold strip at h
  split at h
  · obtain rfl := Option.some.inj h
    intro c hc
    cases p with
    | nil => simp at hc
    | cons c₀ rest =>
      cases base with
      | nil => exact absurd rfl hbase
      | cons b base => exact hp.2 c (List.mem_of_mem_drop hc)
  · cases h

theorem plain_of_file_name (hp : WellFormed p) (h : file_name p = some name) :
    Plain (.normal name) := by
  unfold file_name at h
  split at h
  · rename_i n hlast
    obtain rfl := Option.some.inj h
    have hmem := List.mem_of_getLast? hlast
    cases p with
    | nil => simp at hmem
    | cons c rest =>
      rcases List.mem_cons.mp hmem with hc | hc
      · rcases hp.1 with rfl | rfl | hplain
        · cases hc
        · cases hc
        · rwa [hc]
      · exact hp.2 _ hc
  · cases h

/-! ## Names -/

theorem mem_of_rsplit_at_dot {name before : List Char}
    (h : rsplit_at_dot name = some (before, after)) :
    (∀ c ∈ before, c ∈ name) ∧ ∀ c ∈ after, c ∈ name := by
  unfold rsplit_at_dot at h
  split at h
  · cases h
  · cases h
  · rename_i dot rest hdrop
    obtain ⟨rfl, rfl⟩ := Prod.mk.inj (Option.some.inj h)
    constructor
    · intro c hc
      have hmem : c ∈ name.reverse.dropWhile (fun c => c != '.') := by
        rw [hdrop]
        exact List.mem_cons_of_mem _ (List.mem_reverse.mp hc)
      exact List.mem_reverse.mp ((List.dropWhile_suffix _).subset hmem)
    · intro c hc
      exact List.mem_reverse.mp ((List.takeWhile_prefix _).subset (List.mem_reverse.mp hc))

theorem plain_normal (hname : name.toList ∉ [[], ['.'], ['.', '.']])
    (hsep : '/' ∉ name.toList) : Plain (.normal name) := by
  refine ⟨?_, hsep⟩
  simp only [List.mem_cons, List.not_mem_nil, or_false, not_or] at hname
  simp [piece, Component.text, hname]

theorem sep_not_mem_stem (h : file_name p = some name) (hsep : '/' ∉ name.toList) :
    '/' ∉ ((file_stem p).getD "file").toList ∧ '/' ∉ ((extension p).getD "").toList := by
  unfold file_stem extension
  rw [h]
  cases hsplit : rsplit_at_dot name.toList with
  | none => exact ⟨by simpa [hsplit] using hsep, by simp [hsplit]⟩
  | some parts =>
    obtain ⟨before, after⟩ := parts
    obtain ⟨hbefore, hafter⟩ := mem_of_rsplit_at_dot hsplit
    constructor
    · simpa [hsplit] using fun hmem => hsep (hbefore _ hmem)
    · simpa [hsplit] using fun hmem => hsep (hafter _ hmem)

theorem append_normal_ne_root (name : String) : dir ++ [.normal name] ≠ [.rootDir] := by
  intro h
  have hlast := congrArg List.getLast? h
  simp at hlast

theorem parent_append_normal (name : String) : parent (dir ++ [.normal name]) = some dir := by
  simp [parent]

theorem file_name_append_normal (name : String) :
    file_name (dir ++ [.normal name]) = some name := by
  simp [file_name]

theorem file_name_join_normal (name : String) :
    file_name (join dir [.normal name]) = some name := by
  have happend : join dir [.normal name] = dir ++ [.normal name] := by
    unfold join
    cases dir <;> simp [is_absolute]
  rw [happend, file_name_append_normal]

/-- The last name of a path is the last name of what is joined to another. -/
theorem file_name_join (h : file_name p = some name) : file_name (join dir p) = some name := by
  have hlast : p.getLast? = some (.normal name) := by
    unfold file_name at h
    split at h
    · rename_i n hlast
      rw [hlast, Option.some.inj h]
    · cases h
  have hjoin : (join dir p).getLast? = some (.normal name) := by
    unfold join
    split
    · exact hlast
    split
    · rename_i rest _
      cases rest with
      | nil => cases hlast
      | cons c rest => simpa using hlast
    · rw [List.getLast?_append, hlast, Option.some_or]
  unfold file_name
  rw [hjoin]

/-- What stands after the last separator goes on into the last piece. -/
theorem splitOn_append_no_sep (before : List Char) (h : '/' ∉ after) :
    ∃ pieces last, (before ++ after).splitOn '/' = pieces ++ [last ++ after] := by
  induction before with
  | nil =>
    refine ⟨[], [], ?_⟩
    have hnone : ∀ c ∈ after, (c == '/') = false := by
      intro c hc
      have hne : c ≠ '/' := by
        rintro rfl
        exact h hc
      simpa using hne
    rw [List.splitOn_eq_splitOnP]
    exact List.splitOnP_eq_singleton hnone
  | cons c before ih =>
    obtain ⟨pieces, last, hsplit⟩ := ih
    rw [List.splitOn_eq_splitOnP] at hsplit ⊢
    rw [List.cons_append, List.splitOnP_cons_eq_if_modifyHead, hsplit]
    split
    · exact ⟨[] :: pieces, last, rfl⟩
    · cases pieces with
      | nil => exact ⟨[], c :: last, rfl⟩
      | cons p pieces => exact ⟨(c :: p) :: pieces, last, rfl⟩

/-- A text that ends in a long enough piece without separators names a file whose name ends so. -/
theorem file_name_ofString_append (before : String) {after : String} (hsep : '/' ∉ after.toList)
    (hlength : 2 < after.toList.length) :
    ∃ last : String, file_name (ofString (before ++ after)) = some (last ++ after) := by
  obtain ⟨pieces, last, hsplit⟩ := splitOn_append_no_sep before.toList hsep
  rw [← String.toList_append] at hsplit
  have hpiece : piece (last ++ after.toList) = some (.normal (String.ofList last ++ after)) := by
    have hlong : 2 < (last ++ after.toList).length := by
      rw [List.length_append]
      omega
    have hname : last ++ after.toList ∉ [[], ['.'], ['.', '.']] := by
      intro hmem
      simp only [List.mem_cons, List.not_mem_nil, or_false] at hmem
      rcases hmem with hw | hw | hw
      · rw [hw] at hlong
        simp at hlong
      · rw [hw] at hlong
        simp at hlong
      · rw [hw] at hlong
        simp at hlong
    simp only [List.mem_cons, List.not_mem_nil, or_false, not_or] at hname
    rw [piece, if_neg (not_or.mpr ⟨hname.1, hname.2.1⟩), if_neg hname.2.2, String.ofList_append,
      String.ofList_toList]
  have hlast : ((before ++ after).toList.splitOn '/').filterMap piece =
      pieces.filterMap piece ++ [.normal (String.ofList last ++ after)] := by
    rw [hsplit, List.filterMap_append, List.filterMap_cons_some hpiece, List.filterMap_nil]
  refine ⟨String.ofList last, ?_⟩
  rcases ofString_eq (before ++ after) with hread | ⟨c, -, hread⟩
  · rw [hread, hlast, file_name_append_normal]
  · rw [hread, hlast, ← List.cons_append, file_name_append_normal]

/-- What stands after the last dot is determined. -/
theorem eq_of_append_dot {a b x y : String} (h : a ++ "." ++ x = b ++ "." ++ y)
    (hx : '.' ∉ x.toList) (hy : '.' ∉ y.toList) : x = y := by
  have htake : ∀ a x : String, '.' ∉ x.toList →
      (a ++ "." ++ x).toList.reverse.takeWhile (fun c => c != '.') = x.toList.reverse := by
    intro a x hx
    have hall : ∀ c ∈ x.toList.reverse, (c != '.') = true := by
      intro c hc
      have hne : c ≠ '.' := by
        rintro rfl
        exact hx (List.mem_reverse.mp hc)
      simpa using hne
    rw [String.toList_append, String.toList_append, List.reverse_append, List.reverse_append,
      List.takeWhile_append_of_pos hall]
    simp
  have hrev := congrArg (fun s => s.toList.reverse.takeWhile (fun c => c != '.')) h
  simp only [htake a x hx, htake b y hy] at hrev
  exact String.toList_inj.mp (List.reverse_injective hrev)

theorem ne_nil_of_file_name (h : file_name p = some name) : p ≠ [] := by
  rintro rfl
  cases h

theorem exists_of_file_name (h : file_name p = some name) :
    p = p.dropLast ++ [.normal name] := by
  unfold file_name at h
  split at h
  · rename_i n hlast
    obtain rfl := Option.some.inj h
    exact (List.dropLast_append_getLast? _ hlast).symm
  · cases h

theorem rsplit_at_dot_append {before : List Char} (hbefore : before ≠ [])
    (hafter : '.' ∉ after) : rsplit_at_dot (before ++ '.' :: after) = some (before, after) := by
  have hreverse : (before ++ '.' :: after).reverse = after.reverse ++ '.' :: before.reverse := by
    simp
  have hname : ∀ c ∈ after.reverse, (c != '.') = true := by
    intro c hc
    rw [List.mem_reverse] at hc
    have hne : c ≠ '.' := by
      rintro rfl
      exact hafter hc
    simpa using hne
  unfold rsplit_at_dot
  rw [hreverse, List.dropWhile_append_of_pos hname, List.takeWhile_append_of_pos hname]
  cases hrest : before.reverse with
  | nil => exact absurd (List.reverse_eq_nil_iff.mp hrest) hbefore
  | cons c cs =>
    have hback : (c :: cs).reverse = before := by rw [← hrest, List.reverse_reverse]
    simp [← hback]

theorem eq_append_of_rsplit_at_dot {name before : List Char}
    (h : rsplit_at_dot name = some (before, after)) :
    name = before ++ '.' :: after ∧ before ≠ [] ∧ '.' ∉ after := by
  have hwhole := List.takeWhile_append_dropWhile (p := fun c => c != '.') (l := name.reverse)
  unfold rsplit_at_dot at h
  split at h
  · cases h
  · cases h
  · rename_i dot rest hsingle hdrop
    obtain ⟨rfl, rfl⟩ := Prod.mk.inj (Option.some.inj h)
    have hdot : dot = '.' := by
      have hhead := List.head_dropWhile_not (l := name.reverse) (fun c => c != '.') (by simp [hdrop])
      simpa [hdrop] using hhead
    subst hdot
    refine ⟨?_, ?_, ?_⟩
    · rw [hdrop] at hwhole
      have hname := congrArg List.reverse hwhole
      rw [List.reverse_reverse, List.reverse_append, List.reverse_cons, List.append_assoc] at hname
      exact hname.symm
    · intro hnil
      exact hsingle rfl (List.reverse_eq_nil_iff.mp hnil)
    · intro hmem
      have hnot := List.all_eq_true.mp List.all_takeWhile _ (List.mem_reverse.mp hmem)
      simp at hnot

/-- A file name with an extension is a stem, a dot and the extension. -/
theorem exists_stem_of_extension {ext : String} (h : extension p = some ext) :
    ∃ stem, file_stem p = some stem ∧ file_name p = some (stem ++ "." ++ ext) ∧ stem ≠ "" ∧
      '.' ∉ ext.toList := by
  obtain ⟨name, hname, hext⟩ := Option.bind_eq_some_iff.mp h
  obtain ⟨⟨before, after⟩, hsplit, rfl⟩ := Option.map_eq_some_iff.mp hext
  obtain ⟨hwhole, hbefore, hafter⟩ := eq_append_of_rsplit_at_dot hsplit
  refine ⟨String.ofList before, ?_, ?_, ?_, ?_⟩
  · unfold file_stem
    rw [hname]
    simp [hsplit]
  · have hparts : name = String.ofList before ++ "." ++ String.ofList after := by
      rw [← String.toList_inj, hwhole]
      simp
    rw [hname, hparts]
  · intro hempty
    exact hbefore (by simpa using congrArg String.toList hempty)
  · simpa using hafter

theorem extension_of_file_name {stem ext : String}
    (h : file_name p = some (stem ++ "." ++ ext)) (hstem : stem ≠ "") (hext : '.' ∉ ext.toList) :
    extension p = some ext := by
  have hne : stem.toList ≠ [] := by
    intro hnil
    exact hstem (String.toList_inj.mp hnil)
  have hsplit : rsplit_at_dot (stem ++ "." ++ ext).toList = some (stem.toList, ext.toList) := by
    rw [← rsplit_at_dot_append hne hext]
    simp
  unfold extension
  rw [h, Option.bind_some, hsplit, Option.map_some]
  exact congrArg some String.ofList_toList

/-- The file name with another extension is the stem with it. -/
theorem file_name_with_extension {stem : String} (h : file_stem p = some stem)
    (ext : String) : file_name (with_extension p ext) = some (stem ++ "." ++ ext) := by
  unfold with_extension
  rw [h]
  exact file_name_append_normal _ _

theorem file_name_with_extension_none (h : file_stem p = none) (ext : String) :
    file_name (with_extension p ext) = none := by
  have hname : file_name p = none := Option.map_eq_none_iff.mp h
  unfold with_extension
  rw [h]
  exact hname

theorem extension_with_extension {old ext : String} (h : extension p = some old)
    (hext : '.' ∉ ext.toList) : extension (with_extension p ext) = some ext := by
  obtain ⟨stem, hstem, -, hne, -⟩ := exists_stem_of_extension h
  exact extension_of_file_name (file_name_with_extension hstem ext) hne hext

theorem dropLast_with_extension (p : PathBuf) (ext : String) :
    (with_extension p ext).dropLast = p.dropLast := by
  unfold with_extension
  split
  · exact List.dropLast_concat
  · rfl

end PathBuf
