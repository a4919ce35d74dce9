import Mathlib.Data.Multiset.Sort
import Mathlib.Data.String.Basic
import Picasu.Framework.Result
import Picasu.Process.Sanitize
import Picasu.Process.SidecarEdit
import Picasu.Process.Xmp

/-! # Writing Sidecars

`write_sidecar_for` reads the packet that is there, sets the fields the application manages, and
writes the packet back through a temporary file. A field without a value is deleted. The title is
managed for albums only.

The main fact is `read_sidecar_write_sidecar_for`: what a reader finds in the sidecar afterwards,
as a function of the item and of what it found before.
-/

open PathBuf Text Result

/-! ## The managed fields -/

inductive TitleEdit where
  | unmanaged
  | set (value : Option String)
  deriving DecidableEq, Repr

def sanitize_value (s : String) : String := String.ofList (s.toList.filter is_valid_xml_char)

def subject_items (tags : Finset String) : List String :=
  ((tags.val.map sanitize_value).filter (· ≠ "")).sort (· ≤ ·)

section Writer

variable (kit : Xmpkit)

/-- The part of `apply_managed_fields` on the tags. -/
def set_subject (m : kit.Meta) (tags : Finset String) : Except String kit.Meta :=
  let subject := subject_items tags
  if subject = [] then kit.delete_property m dc_subject
  else kit.set_property m dc_subject (.array (subject.map .string))

def set_or_remove_alt (m : kit.Meta) (property : XmpProperty) (value : Option String) :
    Except String kit.Meta := do
  let m ← kit.delete_property m property
  match (value.map sanitize_value).filter (· ≠ "") with
  | none => .ok m
  | some value => kit.set_localized_text m property "" "x-default" value

/-- The part of `apply_managed_fields` on the title. -/
def set_title (m : kit.Meta) : TitleEdit → Except String kit.Meta
  | .unmanaged => .ok m
  | .set value => set_or_remove_alt kit m dc_title value

/-- The part of `apply_managed_fields` on the rating. -/
def set_rating (m : kit.Meta) : Option Nat → Except String kit.Meta
  | some r => kit.set_property m xmp_Rating (.string (toString r))
  | none => kit.delete_property m xmp_Rating

/-- The part of `apply_managed_fields` on the trash flag. -/
def set_trashed (m : kit.Meta) (trashed : Bool) : Except String kit.Meta :=
  if trashed then kit.set_property m picasu_Trashed (.boolean true)
  else if kit.has_property m picasu_Trashed then kit.delete_property m picasu_Trashed
  else .ok m

def apply_managed_fields (m : kit.Meta) (tags : Finset String) (description : Option String)
    (rating : Option Nat) (title : TitleEdit) (trashed : Bool) : Except String kit.Meta := do
  let m ← set_subject kit m tags
  let m ← set_or_remove_alt kit m dc_description description
  let m ← set_title kit m title
  let m ← set_rating kit m rating
  set_trashed kit m trashed

/-! ## The file -/

/-- The errors a file system may answer the writer with. -/
structure SidecarFaults where
  /-- Reading the sidecar, absence and bad UTF-8 apart. -/
  load : Option String := none
  /-- Writing the temporary file. -/
  stage : Option String := none
  /-- Renaming it. -/
  rename : Option String := none

/-- `load_sidecar`: a sidecar that is absent, not UTF-8 or not a packet is started afresh. -/
def load_sidecar (faults : SidecarFaults) (files : FileMap ByteArray) (sidecar : PathBuf) :
    Except String kit.Meta :=
  match files sidecar, faults.load with
  -- `NotFound` is no error
  | none, _ => .ok kit.new
  | some _, some err => .error err
  | some bytes, none => .ok (((String.fromUTF8? bytes).bind kit.parse).getD kit.new)

def write_sidecar_content (faults : SidecarFaults) (sidecar : PathBuf) (content : String)
    (files : FileMap ByteArray) : Except String Unit × FileMap ByteArray :=
  match faults.stage, faults.rename with
  | some err, _ => (.error err, files)
  | none, some err => (.error err, files.write (temp_path sidecar) content.toUTF8)
  | none, none => (.ok (), write_bytes_atomically sidecar content.toUTF8 files)

/-- Where `write_sidecar_for` writes, and what it does to the title. -/
def sidecar_and_title : AbstractData → Option (PathBuf × TitleEdit)
  | .album album =>
    some (join (ofString album.metadata.dir_path) [.normal ".albuminfo.xmp"],
      .set album.metadata.custom_title)
  | data => data.path.map fun file_entry =>
    (with_extension (ofString file_entry.file) "xmp", .unmanaged)

def sidecar_content (faults : SidecarFaults) (data : AbstractData) (sidecar : PathBuf)
    (title : TitleEdit) (files : FileMap ByteArray) : Except String String := do
  let m ← load_sidecar kit faults files sidecar
  let m ← apply_managed_fields kit m data.tag data.description data.rating title data.is_trashed
  kit.serialize_packet m

/-- `write_sidecar_for`: an item without a path is skipped. -/
def write_sidecar_for (faults : SidecarFaults) (data : AbstractData) (files : FileMap ByteArray) :
    Except String Unit × FileMap ByteArray :=
  match sidecar_and_title data with
  | none => (.ok (), files)
  | some (sidecar, title) =>
    match sidecar_content kit faults data sidecar title files with
    | .error err => (.error err, files)
    | .ok content => write_sidecar_content faults sidecar content files

/-- The file accesses of a request through `commit_metadata_edits`. -/
def SidecarIo.xmp (unreadable : Nat → Option String) (faults : Nat → SidecarFaults) :
    SidecarIo ByteArray where
  unreadable
  write n := write_sidecar_for kit (faults n)

def commit_metadata_edits {σ : Type} (unreadable : Nat → Option String)
    (faults : Nat → SidecarFaults) (store : String → AbstractData → σ → Except AppError Unit × σ)
    (items : List EditedItem) (s : CommitState ByteArray σ) :
    Except AppError Unit × CommitState ByteArray σ :=
  commit_with (SidecarIo.xmp kit unreadable faults) store items s

end Writer

/-! ## What is read after a write -/

variable {kit : Xmpkit} {m m' : kit.Meta}

/-- The value `set_subject` leaves. -/
def subject_value (tags : Finset String) : Option XmpValue :=
  if subject_items tags = [] then none else some (.array ((subject_items tags).map .string))

/-- The value `set_or_remove_alt` leaves. -/
def alt_value (value : Option String) : Option XmpValue :=
  ((value.map sanitize_value).filter (· ≠ "")).map fun value => .array [.string value]

/-- `m'` is made from `m` and read as this view. -/
def ReadAs (m m' : kit.Meta) (view : XmpData) : Prop :=
  (kit.Made m → kit.Made m') ∧ kit.normalize m' = view

section

variable (hkit : kit.RoundTrips)

include hkit

theorem set_subject_reads {tags : Finset String} (h : set_subject kit m tags = .ok m') :
    ReadAs m m' ((kit.normalize m).set dc_subject (subject_value tags)) := by
  unfold set_subject at h
  unfold subject_value
  dsimp only at h
  split at h
  · rename_i hempty
    rw [if_pos hempty]
    exact ⟨(.delete · h), (hkit.delete _ _ _ h).2⟩
  · rename_i hempty
    rw [if_neg hempty]
    exact ⟨(.set · (.subject _) h), hkit.set _ _ _ _ (.subject _) h⟩

theorem set_or_remove_alt_reads {property : XmpProperty} {value : Option String}
    (h : set_or_remove_alt kit m property value = .ok m') :
    ReadAs m m' ((kit.normalize m).set property (alt_value value)) := by
  obtain ⟨m₁, hdelete, hset⟩ := bind_eq_ok.mp h
  obtain ⟨habsent, hgone⟩ := hkit.delete _ _ _ hdelete
  unfold alt_value
  split at hset
  · rename_i hnone
    rw [← Except.ok.inj hset, hnone]
    exact ⟨(.delete · hdelete), hgone⟩
  · rename_i text hsome
    refine ⟨fun hm => .localized (.delete hm hdelete) hset, ?_⟩
    rw [hkit.localized _ _ _ _ habsent hset, hgone, XmpData.set_set, hsome]
    rfl

theorem set_rating_reads {rating : Option Nat} (h : set_rating kit m rating = .ok m') :
    ReadAs m m' ((kit.normalize m).set xmp_Rating (rating.map fun r => .string (toString r))) := by
  cases rating with
  | none => exact ⟨(.delete · h), (hkit.delete _ _ _ h).2⟩
  | some r => exact ⟨(.set · (.rating r) h), hkit.set _ _ _ _ (.rating r) h⟩

theorem set_trashed_reads {trashed : Bool} (h : set_trashed kit m trashed = .ok m') :
    ReadAs m m' { kit.normalize m with trashed } := by
  unfold set_trashed at h
  split at h
  · rename_i htrashed
    rw [htrashed]
    exact ⟨(.set · .trashed h), hkit.set _ _ _ _ .trashed h⟩
  · rename_i htrashed
    rw [Bool.not_eq_true] at htrashed
    rw [htrashed]
    split at h
    · exact ⟨(.delete · h), (hkit.delete _ _ _ h).2⟩
    -- nothing to delete
    rename_i habsent
    rw [← Except.ok.inj h]
    exact ⟨id, hkit.absent _ _ (Bool.not_eq_true _ ▸ habsent)⟩

end

/-- What a reader finds in a sidecar after it was written for an item, if it found `before`. -/
def written_view (data : AbstractData) (before : XmpData) : XmpData where
  tags := tags_from_subject (subject_value data.tag)
  description := text_from_property (alt_value data.description)
  rating := rating_from_property (data.rating.map fun r => .string (toString r))
  title :=
    match data with
    | .album album => text_from_property (alt_value album.metadata.custom_title)
    | _ => before.title
  trashed := data.is_trashed

variable {title : TitleEdit} {data : AbstractData} {q : PathBuf} {faults : SidecarFaults}
  {files after : FileMap ByteArray}

theorem apply_managed_fields_reads (hkit : kit.RoundTrips)
    (hq : sidecar_and_title data = some (q, title))
    (h : apply_managed_fields kit m data.tag data.description data.rating title data.is_trashed =
      .ok m') : ReadAs m m' (written_view data (kit.normalize m)) := by
  obtain ⟨m₁, hsubject, h⟩ := bind_eq_ok.mp h
  obtain ⟨m₂, hdescription, h⟩ := bind_eq_ok.mp h
  obtain ⟨m₃, htitle, h⟩ := bind_eq_ok.mp h
  obtain ⟨m₄, hrating, htrashed⟩ := bind_eq_ok.mp h
  obtain ⟨hmade₁, hview₁⟩ := set_subject_reads hkit hsubject
  obtain ⟨hmade₂, hview₂⟩ := set_or_remove_alt_reads hkit hdescription
  obtain ⟨hmade₄, hview₄⟩ := set_rating_reads hkit hrating
  obtain ⟨hmade, hview⟩ := set_trashed_reads hkit htrashed
  rw [hview₁] at hview₂
  unfold ReadAs
  rw [hview, hview₄]
  cases data with
  | album alb =>
    obtain ⟨-, rfl⟩ := Prod.mk.inj (Option.some.inj hq)
    obtain ⟨hmade₃, hview₃⟩ := set_or_remove_alt_reads hkit htitle
    rw [hview₃, hview₂]
    exact ⟨hmade ∘ hmade₄ ∘ hmade₃ ∘ hmade₂ ∘ hmade₁, rfl⟩
  | image img | video vid =>
    -- the title of a media file is not touched
    obtain ⟨e, -, he⟩ := Option.map_eq_some_iff.mp hq
    obtain ⟨-, rfl⟩ := Prod.mk.inj he
    obtain rfl := Except.ok.inj htitle
    rw [hview₂]
    exact ⟨hmade ∘ hmade₄ ∘ hmade₂ ∘ hmade₁, rfl⟩

/-! ## What the files are after a write -/

/-- The two derivations of the sidecar's path agree. -/
theorem sidecar_and_title_fst (data : AbstractData) :
    (sidecar_and_title data).map Prod.fst = sidecar_path data := by
  cases data with
  | album alb => rfl
  | image img | video vid =>
    unfold sidecar_and_title sidecar_path
    rw [Option.map_map]
    rfl

theorem exists_title_of_sidecar_path (h : sidecar_path data = some q) :
    ∃ title, sidecar_and_title data = some (q, title) := by
  rw [← sidecar_and_title_fst] at h
  obtain ⟨⟨q', title⟩, hpair, rfl⟩ := Option.map_eq_some_iff.mp h
  exact ⟨title, hpair⟩

/-- A sidecar that is started afresh is one in which a reader finds nothing. -/
theorem load_sidecar_reads (hkit : kit.RoundTrips) (h : load_sidecar kit faults files q = .ok m) :
    kit.Made m ∧ kit.normalize m = read_sidecar kit files q := by
  unfold load_sidecar at h
  unfold read_sidecar
  cases hfile : files q with
  | none =>
    rw [hfile] at h
    rw [← Except.ok.inj h]
    exact ⟨.new, hkit.new⟩
  | some bytes =>
    rw [hfile] at h
    split at h
    · contradiction
    · cases h
    · rename_i hbytes _
      obtain rfl := Option.some.inj hbytes
      rw [← Except.ok.inj h]
      show _ ∧ _ = extract_xmp_data_from_packet kit bytes
      unfold extract_xmp_data_from_packet
      cases String.fromUTF8? bytes with
      | none => exact ⟨.new, hkit.new⟩
      | some text =>
        show kit.Made ((kit.parse text).getD kit.new) ∧ _ =
          ((kit.parse text).map kit.normalize).getD {}
        cases hparse : kit.parse text with
        | none => exact ⟨.new, by rw [Option.bind_some, hparse]; exact hkit.new⟩
        | some m₀ => exact ⟨.parse hparse, by rw [Option.bind_some, hparse]; rfl⟩

theorem write_sidecar_content_eq_ok {content : String}
    (h : write_sidecar_content faults q content files = (.ok (), after)) :
    after = write_bytes_atomically q content.toUTF8 files := by
  unfold write_sidecar_content at h
  split at h
  · cases h
  · cases h
  · exact (Prod.mk.inj h).2.symm

/-- A write that fails has touched nothing, or has left the temporary file. -/
theorem write_sidecar_for_error_cases {err : String}
    (h : write_sidecar_for kit faults data files = (.error err, after)) :
    after = files ∨ ∃ q bytes, sidecar_path data = some q ∧
      after = files.write (temp_path q) bytes := by
  have hfst := sidecar_and_title_fst data
  unfold write_sidecar_for at h
  split at h
  · cases h
  rename_i sidecar title hpair
  rw [hpair] at hfst
  split at h
  · exact Or.inl (Prod.mk.inj h).2.symm
  rename_i content hcontent
  unfold write_sidecar_content at h
  split at h
  · exact Or.inl (Prod.mk.inj h).2.symm
  · exact Or.inr ⟨sidecar, content.toUTF8, hfst.symm, (Prod.mk.inj h).2.symm⟩
  · cases h

/-- A write that fails leaves every file that lasts as it was. -/
theorem write_sidecar_for_error {err : String}
    (h : write_sidecar_for kit faults data files = (.error err, after)) :
    ∀ p, Lasting p → after p = files p := by
  intro p hp
  rcases write_sidecar_for_error_cases h with rfl | ⟨q, bytes, -, rfl⟩
  · rfl
  · rw [FileMap.write_apply, if_neg (hp q)]

/-- A write that succeeds has staged the new packet. -/
theorem write_sidecar_for_ok (hq : sidecar_and_title data = some (q, title))
    (h : write_sidecar_for kit faults data files = (.ok (), after)) :
    ∃ content, sidecar_content kit faults data q title files = .ok content ∧
      after = write_bytes_atomically q content.toUTF8 files := by
  unfold write_sidecar_for at h
  rw [hq] at h
  dsimp only at h
  split at h
  · cases h
  · rename_i content hcontent
    exact ⟨content, hcontent, write_sidecar_content_eq_ok h⟩

theorem write_sidecar_for_other (hq : sidecar_path data = some q)
    (h : write_sidecar_for kit faults data files = (.ok (), after)) :
    ∀ p, Lasting p → p ≠ q → after p = files p := by
  intro p hp hne
  obtain ⟨title, htitle⟩ := exists_title_of_sidecar_path hq
  obtain ⟨content, -, rfl⟩ := write_sidecar_for_ok htitle h
  rw [write_bytes_atomically_apply _ _ _ hp, if_neg hne]

/-- The writer is one that a commit can undo. -/
theorem SidecarIo.xmp_safe (kit : Xmpkit) (unreadable : Nat → Option String)
    (faults : Nat → SidecarFaults) : (SidecarIo.xmp kit unreadable faults).Safe where
  failed _ _ _ _ _ h := write_sidecar_for_error h
  landed _ _ _ _ _ hq h := write_sidecar_for_other hq h

/-- A reader finds the managed fields of the item in its sidecar. -/
theorem read_sidecar_write_sidecar_for (hkit : kit.RoundTrips) (hq : sidecar_path data = some q)
    (h : write_sidecar_for kit faults data files = (.ok (), after)) :
    read_sidecar kit after q = written_view data (read_sidecar kit files q) := by
  obtain ⟨title, htitle⟩ := exists_title_of_sidecar_path hq
  obtain ⟨content, hcontent, rfl⟩ := write_sidecar_for_ok htitle h
  obtain ⟨m₀, hload, hcontent⟩ := bind_eq_ok.mp hcontent
  obtain ⟨m₁, happly, hserialize⟩ := bind_eq_ok.mp hcontent
  have hfile : write_bytes_atomically q content.toUTF8 files q = some content.toUTF8 := by
    rw [write_bytes_atomically_apply _ _ _ (lasting_sidecar_path hq), if_pos rfl]
  have hread : read_sidecar kit (write_bytes_atomically q content.toUTF8 files) q =
      extract_xmp_data_from_packet kit content.toUTF8 := by
    unfold read_sidecar
    rw [hfile]
  obtain ⟨hmade, hview⟩ := load_sidecar_reads hkit hload
  obtain ⟨hmade', hview'⟩ := apply_managed_fields_reads hkit htitle happly
  rw [hread, extract_xmp_data_from_serialized hkit (hmade' hmade) hserialize, hview', hview]
