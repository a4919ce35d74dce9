import Picasu.Process.Sanitize
import Picasu.Process.SidecarEdit
import Picasu.Process.Transitor
import Picasu.Storage.Files

/-! # Metadata Edits

`edit_tag`, `set_user_defined_description`, `edit_rating` and `edit_flags` share one shape. A
request composes the view of an asset, checks that its caller may write there and edits the view;
later, after the sidecar files are written, it stores the whole payload of the edited view. The
two halves are separate transactions: `begin_edit` and `commit_edit`.

A request over several assets is one `begin_edit` and one `commit_edit` for each of them. A
request that is refused, or whose sidecar cannot be written, is one whose `commit_edit` never
comes.

Unicode normalization is a parameter.
-/

/-! ## The two halves of an edit -/

/-- What a request asks for. -/
inductive MetadataEdit where
  /-- `edit_tag`. -/
  | tags (add_tags_array remove_tags_array : List String)
  /-- `set_user_defined_description`. -/
  | description (description : Option String)
  /-- `edit_rating`. -/
  | rating (rating : Option Nat)
  /-- `edit_flags`. -/
  | flags (is_trashed : Option Bool)
  deriving DecidableEq, Repr

variable (nfc : String → String)

/-- The tag set after the additions and removals of `edit_tag`. -/
def edited_tags (add remove : List String) (tags : Finset String) : Finset String :=
  let tags := add.foldl (fun tags tag =>
    let clean := sanitize_tag nfc tag
    if clean = "" then tags else insert clean tags) tags
  remove.foldl (fun tags tag => tags.erase (sanitize_tag nfc tag)) tags

/-- The edited view; nothing is edited by a flag request without a flag. -/
def MetadataEdit.apply (asset_id : String) (data : AbstractData) :
    MetadataEdit → Option EditedItem
  | tags add remove => some ⟨asset_id, data.edit_tags (edited_tags nfc add remove), none⟩
  | description text => some ⟨asset_id, data.set_description (text.map (sanitize_text nfc)), none⟩
  | rating r => some ⟨asset_id, data.set_rating r, none⟩
  | flags (some trashed) => some ⟨asset_id, data.set_trashed trashed, some trashed⟩
  | flags none => none

/-- The checks made before anything is read. -/
def MetadataEdit.check : MetadataEdit → Except AppError Unit
  | rating (some r) =>
    if r > 5 then .error (.new .invalidInput ("rating must be 0–5, got " ++ toString r))
    else .ok ()
  | _ => .ok ()

/-- The first half of an edit request on one asset: read, check, edit the view. -/
def begin_edit (now : Int) (roots : Roots) (caller : String) (edit : MetadataEdit)
    (asset_id : String) (tables : Tables) :
    Except AppError (Option EditedItem) := do
  edit.check
  match compose_by_asset_id now tables asset_id with
  | none => return none
  | some data =>
    match data.visibility_path with
    | some path =>
      match write_gate roots caller (some path) none with
      | .error _ => throw (.new .permissionDenied "Asset not writable")
      | .ok _ => return edit.apply nfc asset_id data
    | none => return edit.apply nfc asset_id data

/-- The second half: store the payload of the edited view. -/
def commit_edit (item : EditedItem) (tables : Tables) : Tables :=
  store_metadata_record item.asset_id item.data item.trash tables
