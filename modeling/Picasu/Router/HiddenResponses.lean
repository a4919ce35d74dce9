import Picasu.Router.GetData

/-! # What a Metadata-Hiding Share Is Told

Two stores hold the same media, up to what a share that hides metadata must not learn: tags,
description, rating, EXIF entries, path and file times (`DifferInHidden`). The responses of the
two are compared.

List rows never read the metadata and are equal. Details are cleared of tags, path, album and EXIF
entries, but not of description and rating, so they are equal exactly when these agree
(`hidden_responses_eq_iff`).
-/

/-! ## The part that may be shown -/

/-- A record without path and file times. -/
def AssetRecord.shown (record : AssetRecord) : AssetRecord :=
  { record with path := "", modified := 0, scan_time := 0 }

/-- An image payload without user metadata and EXIF entries. -/
def ImagePayload.shown (p : ImagePayload) : ImagePayload :=
  { p with tags := ∅, description := none, rating := none, exif_vec := ∅ }

/-- A video payload without user metadata and EXIF entries. -/
def VideoPayload.shown (p : VideoPayload) : VideoPayload :=
  { p with tags := ∅, description := none, rating := none, exif_vec := ∅ }

/-- A media payload without user metadata and EXIF entries. -/
def MetadataRecord.shown : MetadataRecord → MetadataRecord
  | image p => image p.shown
  | video p => video p.shown
  | album p => album p

/-- In both stores `id` is a media asset of the album, and its rows differ only in user metadata,
EXIF entries, path and file times. -/
structure DifferInHidden (tables₁ tables₂ : Tables) (album_id id : String) : Prop where
  records : ∃ r₁ r₂, tables₁.assets.lookup id = some r₁ ∧ tables₂.assets.lookup id = some r₂ ∧
    r₁.kind ≠ .album ∧ r₁.album_id = some album_id ∧ r₁.shown = r₂.shown
  payloads : (tables₁.metadata.lookup id).map MetadataRecord.shown =
    (tables₂.metadata.lookup id).map MetadataRecord.shown

theorem cases_of_map_eq {α β : Type} {f : α → β} {p₁ p₂ : Option α} (h : p₁.map f = p₂.map f) :
    (p₁ = none ∧ p₂ = none) ∨ ∃ a₁ a₂, p₁ = some a₁ ∧ p₂ = some a₂ ∧ f a₁ = f a₂ := by
  cases p₁ with
  | none => exact Or.inl ⟨rfl, Option.map_eq_none_iff.mp h.symm⟩
  | some a₁ =>
    obtain ⟨a₂, ha, heq⟩ := Option.map_eq_some_iff.mp h.symm
    exact Or.inr ⟨a₁, a₂, rfl, ha, heq.symm⟩

/-- What is read off the shown part is the same for payloads with the same shown part. -/
theorem map_bind_eq_of_shown_eq {α β : Type} {pick : MetadataRecord → Option α} {view : α → β}
    {m₁ m₂ : Option MetadataRecord}
    (h : m₁.map MetadataRecord.shown = m₂.map MetadataRecord.shown)
    (hpick : ∀ row₁ row₂ : MetadataRecord, row₁.shown = row₂.shown →
      (pick row₁).map view = (pick row₂).map view) :
    (m₁.bind pick).map view = (m₂.bind pick).map view := by
  rcases cases_of_map_eq h with ⟨rfl, rfl⟩ | ⟨row₁, row₂, rfl, rfl, hrows⟩
  · rfl
  · exact hpick row₁ row₂ hrows

/-! ## Clearing composed views -/

section Clearing

variable {now : Int} {r₁ r₂ : AssetRecord} (hrecords : r₁.shown = r₂.shown)

include hrecords

/-- Records that agree on the shown part agree on every other field. -/
theorem shown_fields : r₁.asset_id = r₂.asset_id ∧ r₁.kind = r₂.kind ∧
    r₁.content_hash = r₂.content_hash ∧ r₁.file_size = r₂.file_size ∧ r₁.ext = r₂.ext ∧
    r₁.album_id = r₂.album_id := by
  simp only [AssetRecord.shown, AssetRecord.mk.injEq] at hrecords
  tauto

theorem display_id_eq_of_shown_eq : r₁.display_id = r₂.display_id := by
  obtain ⟨hid, hkind, hhash, -, -, -⟩ := shown_fields hrecords
  unfold AssetRecord.display_id
  rw [hid, hkind, hhash]

theorem clear_compose_image_eq_iff {p₁ p₂ : Option ImagePayload}
    (hpayloads : p₁.map ImagePayload.shown = p₂.map ImagePayload.shown) :
    clear_abstract_data_metadata false (.image (compose_image now r₁ p₁)) =
        clear_abstract_data_metadata false (.image (compose_image now r₂ p₂)) ↔
      (compose_image now r₁ p₁).object.description = (compose_image now r₂ p₂).object.description ∧
      (compose_image now r₁ p₁).object.rating = (compose_image now r₂ p₂).object.rating := by
  obtain ⟨-, -, -, hsize, hext, -⟩ := shown_fields hrecords
  have hdisplay := display_id_eq_of_shown_eq hrecords
  rcases cases_of_map_eq hpayloads with ⟨rfl, rfl⟩ | ⟨p₁, p₂, rfl, rfl, hshown⟩
  · simp [clear_abstract_data_metadata, compose_image, hsize, hext, hdisplay]
  · simp only [ImagePayload.shown, ImagePayload.mk.injEq] at hshown
    simp [clear_abstract_data_metadata, compose_image, hsize, hext, hdisplay, hshown]

theorem clear_compose_video_eq_iff {p₁ p₂ : Option VideoPayload}
    (hpayloads : p₁.map VideoPayload.shown = p₂.map VideoPayload.shown) :
    clear_abstract_data_metadata false (.video (compose_video now r₁ p₁)) =
        clear_abstract_data_metadata false (.video (compose_video now r₂ p₂)) ↔
      (compose_video now r₁ p₁).object.description = (compose_video now r₂ p₂).object.description ∧
      (compose_video now r₁ p₁).object.rating = (compose_video now r₂ p₂).object.rating := by
  obtain ⟨-, -, -, hsize, hext, -⟩ := shown_fields hrecords
  have hdisplay := display_id_eq_of_shown_eq hrecords
  rcases cases_of_map_eq hpayloads with ⟨rfl, rfl⟩ | ⟨p₁, p₂, rfl, rfl, hshown⟩
  · simp [clear_abstract_data_metadata, compose_video, hsize, hext, hdisplay]
  · simp only [VideoPayload.shown, VideoPayload.mk.injEq] at hshown
    simp [clear_abstract_data_metadata, compose_video, hsize, hext, hdisplay, hshown]

/-- Cleared views of media that agree on the shown part are equal exactly when description and
rating agree. -/
theorem clear_compose_eq_iff {m₁ m₂ : Option MetadataRecord} (hmedia : r₁.kind ≠ .album)
    (hpayloads : m₁.map MetadataRecord.shown = m₂.map MetadataRecord.shown) :
    clear_abstract_data_metadata false (compose_abstract_data now r₁ m₁) =
        clear_abstract_data_metadata false (compose_abstract_data now r₂ m₂) ↔
      (compose_abstract_data now r₁ m₁).description = (compose_abstract_data now r₂ m₂).description ∧
      (compose_abstract_data now r₁ m₁).rating = (compose_abstract_data now r₂ m₂).rating := by
  have hkind : r₁.kind = r₂.kind := (shown_fields hrecords).2.1
  unfold compose_abstract_data
  rw [← hkind]
  cases hk : r₁.kind with
  | image =>
    refine clear_compose_image_eq_iff hrecords (map_bind_eq_of_shown_eq hpayloads ?_)
    intro row₁ row₂ hrows
    cases row₁ <;> cases row₂ <;> simp_all [MetadataRecord.shown]
  | video =>
    refine clear_compose_video_eq_iff hrecords (map_bind_eq_of_shown_eq hpayloads ?_)
    intro row₁ row₂ hrows
    cases row₁ <;> cases row₂ <;> simp_all [MetadataRecord.shown]
  | album => exact absurd hk hmedia

/-- A cleared list row shows nothing of the hidden part: it is built from the record and the
snapshot alone. -/
theorem clear_lean_eq (hmedia : r₁.kind ≠ .album) (reduced : ReducedData) :
    clear_abstract_data_metadata false (lean_media_abstract_data now r₁ reduced) =
      clear_abstract_data_metadata false (lean_media_abstract_data now r₂ reduced) := by
  obtain ⟨hid, hkind, hhash, hsize, hext, -⟩ := shown_fields hrecords
  unfold lean_media_abstract_data asset_record_to_abstract_data
  rw [← hkind, hid, hhash, hsize, hext]
  cases hk : r₁.kind with
  | image => rfl
  | video => rfl
  | album => exact absurd hk hmedia

end Clearing

/-! ## The two endpoints -/

section Endpoints

variable {tables₁ tables₂ : Tables} {claims : ClaimsSnapshot} {resolved : ResolvedShare}
  (hshare : claims.resolved_share_opt = some resolved)
  (hhidden : resolved.share.show_metadata = false)

include hshare hhidden

theorem get_metadata_eq_iff (now : Int) (roots : Roots) {id : String}
    (hid : id.utf8ByteSize ≤ 64) (h : DifferInHidden tables₁ tables₂ resolved.album_id id) :
    get_metadata now roots claims id tables₁ = get_metadata now roots claims id tables₂ ↔
      (compose_by_asset_id now tables₁ id).map AbstractData.description =
          (compose_by_asset_id now tables₂ id).map AbstractData.description ∧
        (compose_by_asset_id now tables₁ id).map AbstractData.rating =
          (compose_by_asset_id now tables₂ id).map AbstractData.rating := by
  obtain ⟨⟨r₁, r₂, h₁, h₂, hmedia, halbum, hrecords⟩, hpayloads⟩ := h
  have hkind₂ : r₂.kind ≠ .album := (shown_fields hrecords).2.1 ▸ hmedia
  have halbum₂ : r₂.album_id = some resolved.album_id := by
    rw [← (shown_fields hrecords).2.2.2.2.2]
    exact halbum
  have hlen : ¬ 64 < id.utf8ByteSize := by omega
  -- both assets are in the share's scope, so both views are returned, cleared
  have hscope : ∀ (r : AssetRecord) (m : Option MetadataRecord), r.kind ≠ .album →
      r.album_id = some resolved.album_id →
      in_scope roots claims (compose_abstract_data now r m) = true := by
    intro r m hk ha
    simp [in_scope, hshare, inAlbum_compose, hk, ha]
  simp only [get_metadata, hlen, compose_by_asset_id, h₁, h₂, Option.map_some, hshare,
    resolve_show_download_and_metadata, hhidden, hscope r₁ _ hmedia halbum,
    hscope r₂ _ hkind₂ halbum₂, if_true, if_false, Except.ok.injEq, Option.some.injEq]
  exact clear_compose_eq_iff hrecords hmedia hpayloads

theorem get_row_abstract_data_eq (now : Nat) (timestamp : Int) {reduced : ReducedData}
    (h : DifferInHidden tables₁ tables₂ resolved.album_id reduced.asset_id) :
    ∃ row₁ row₂, get_row now claims timestamp tables₁ reduced = .ok row₁ ∧
      get_row now claims timestamp tables₂ reduced = .ok row₂ ∧
      row₁.abstract_data = row₂.abstract_data := by
  obtain ⟨⟨r₁, r₂, h₁, h₂, hmedia, -, hrecords⟩, -⟩ := h
  have hkind₂ : r₂.kind ≠ .album := (shown_fields hrecords).2.1 ▸ hmedia
  -- a media row never reads the metadata table
  have hrow : ∀ (tables : Tables) (r : AssetRecord),
      tables.assets.lookup reduced.asset_id = some r → r.kind ≠ .album →
      get_row now claims timestamp tables reduced = .ok (abstract_data_to_timestamp_return now
        claims timestamp (lean_media_abstract_data now r reduced) reduced none) := by
    intro tables r hr hk
    simp only [get_row, hr]
  refine ⟨_, _, hrow tables₁ r₁ h₁ hmedia, hrow tables₂ r₂ h₂ hkind₂, ?_⟩
  simp only [abstract_data_to_timestamp_return, hshare, resolve_show_download_and_metadata, hhidden]
  exact clear_lean_eq hrecords hmedia reduced

end Endpoints

/-- Two stores, a share that hides metadata, an asset of its album and a snapshot of such assets,
with rows that differ only in the hidden part. The details of the asset are equal if and only if
its description and rating are; the rows of the snapshot are equal in any case. -/
theorem hidden_responses_eq_iff (now : Nat) (roots : Roots) (claims : ClaimsSnapshot)
    (resolved : ResolvedShare) (hshare : claims.resolved_share_opt = some resolved)
    (hhidden : resolved.share.show_metadata = false) (tables₁ tables₂ : Tables) (id : String)
    (hid : id.utf8ByteSize ≤ 64) (hasset : DifferInHidden tables₁ tables₂ resolved.album_id id)
    (caches : Caches) (timestamp : Int) (start stop : Nat)
    (hrows : ∀ rows, caches.read_tree_snapshot timestamp = some rows → ∀ reduced ∈ rows,
      DifferInHidden tables₁ tables₂ resolved.album_id reduced.asset_id) :
    (get_metadata now roots claims id tables₁ = get_metadata now roots claims id tables₂ ↔
      (compose_by_asset_id now tables₁ id).map AbstractData.description =
          (compose_by_asset_id now tables₂ id).map AbstractData.description ∧
        (compose_by_asset_id now tables₁ id).map AbstractData.rating =
          (compose_by_asset_id now tables₂ id).map AbstractData.rating) ∧
    (get_data now claims timestamp start stop caches tables₁).map
        (List.map DataBaseTimestampReturn.abstract_data) =
      (get_data now claims timestamp start stop caches tables₂).map
        (List.map DataBaseTimestampReturn.abstract_data) := by
  constructor
  · exact get_metadata_eq_iff hshare hhidden now roots hid hasset
  · unfold get_data
    cases hread : caches.read_tree_snapshot timestamp with
    | none => rfl
    | some rows =>
      apply Result.mapM_view_eq
      intro reduced hmem
      have hrow : reduced ∈ rows := List.mem_of_mem_take (List.mem_of_mem_drop hmem)
      exact get_row_abstract_data_eq hshare hhidden now timestamp (hrows rows hread reduced hrow)

/-! ## A private description -/

/-- A share of album `trip` that hides metadata. -/
def hidingShare : ResolvedShare where
  share :=
    { url := "link", description := "", password := none, show_metadata := false,
      show_download := true, show_upload := false, exp := 0, created_by := "alice" }
  album_id := "trip"
  album_title := none

def hidingToken : ClaimsSnapshot := .new 0 "" (some hidingShare) 1

def onePicture (file : String) (tags : Finset String) (description : Option String) : Tables where
  assets := (∅ : Table String AssetRecord).insert "a"
    { asset_id := "a", kind := .image, path := file, content_hash := some "hash", file_size := 10,
      ext := "jpg", modified := 0, scan_time := 0, is_trashed := false, album_id := some "trip" }
  metadata := (∅ : Table String MetadataRecord).insert "a" (.image
    { tags, description, rating := none, update_at := 0, pending := false, thumbhash := none,
      width := 4, height := 3, phash := none, exif_vec := ∅ })

def onePictureSnapshot : Caches where
  tree_snapshot :=
    { memory := (∅ : Table Int (List ReducedData)).insert 1 [⟨"a", "hash", 4, 3, 0, 0, false⟩]
      disk := ∅ }
  query_snapshot := ⟨∅, ∅⟩
  last_snapshot_id := 1

/-- Stores of two pictures that differ in path, tags and description differ in the hidden part. -/
theorem differInHidden_onePicture (file₁ file₂ : String) (tags₁ tags₂ : Finset String)
    (d₁ d₂ : Option String) :
    DifferInHidden (onePicture file₁ tags₁ d₁) (onePicture file₂ tags₂ d₂) "trip" "a" where
  records := ⟨_, _, AList.lookup_insert _, AList.lookup_insert _, AssetKind.noConfusion, rfl, rfl⟩
  payloads := by
    unfold onePicture
    rw [AList.lookup_insert, AList.lookup_insert]
    rfl

/-- Path and tags do not show. -/
theorem hidden_responses_eq_path_tags :
    get_metadata (0 : Nat) ⟨⟨some, fun _ => true⟩, none, none⟩ hidingToken "a"
        (onePicture "/photos/x.jpg" {"x"} none) =
      get_metadata (0 : Nat) ⟨⟨some, fun _ => true⟩, none, none⟩ hidingToken "a"
        (onePicture "/photos/y.jpg" ∅ none) ∧
    (get_data 0 hidingToken 1 0 1 onePictureSnapshot (onePicture "/photos/x.jpg" {"x"} none)).map
        (List.map DataBaseTimestampReturn.abstract_data) =
      (get_data 0 hidingToken 1 0 1 onePictureSnapshot (onePicture "/photos/y.jpg" ∅ none)).map
        (List.map DataBaseTimestampReturn.abstract_data) := by
  have h := hidden_responses_eq_iff 0 ⟨⟨some, fun _ => true⟩, none, none⟩ hidingToken hidingShare rfl
    rfl (onePicture "/photos/x.jpg" {"x"} none) (onePicture "/photos/y.jpg" ∅ none) "a"
    (by decide +kernel) (differInHidden_onePicture _ _ _ _ _ _) onePictureSnapshot 1 0 1 (by
      intro rows hread reduced hmem
      have hrows : rows = [⟨"a", "hash", 4, 3, 0, 0, false⟩] := (Option.some.inj hread).symm
      rw [hrows, List.mem_singleton] at hmem
      rw [hmem]
      exact differInHidden_onePicture _ _ _ _ _ _)
  exact ⟨h.1.mpr ⟨rfl, rfl⟩, h.2⟩

/-- The description does. -/
theorem hidden_description_shown :
    DifferInHidden (onePicture "/photos/x.jpg" ∅ (some "private"))
      (onePicture "/photos/x.jpg" ∅ none) hidingShare.album_id "a" ∧
    get_metadata 0 ⟨⟨some, fun _ => true⟩, none, none⟩ hidingToken "a"
        (onePicture "/photos/x.jpg" ∅ (some "private")) ≠
      get_metadata 0 ⟨⟨some, fun _ => true⟩, none, none⟩ hidingToken "a"
        (onePicture "/photos/x.jpg" ∅ none) := by
  refine ⟨differInHidden_onePicture _ _ _ _ _ _, ?_⟩
  intro heq
  have hdesc := congrArg (fun r => r.toOption.map AbstractData.description) heq
  revert hdesc
  decide +kernel
