import Picasu.Model.Expression

/-! # What a Metadata-Hiding Share Can Probe

A share that hides metadata may still send any filter expression, and learns from each which rows
match. What it can learn is what `generate_filter_hide_metadata` depends on: two views no
expression tells apart are the same to it.

Besides what the share may see (`AgreeOnShown`), the compiler looks at the EXIF entries `Make` and
`Model`, and it can be made to spell them out letter by letter: the views are indistinguishable
exactly when these entries agree up to case (`hidden_filters_blind_iff`).
-/

open Text

namespace Expression

/-! ## Two views -/

def trash_flag : AbstractData → Option Bool
  | .image img => img.metadata.path.map fun entry => entry.is_trashed
  | .video vid => vid.metadata.path.map fun entry => entry.is_trashed
  | .album alb => some alb.metadata.is_trashed

/-- The views agree on what a share of album `s` shows anyway: the variant, the extension,
membership in `s` and the trash flag. -/
structure AgreeOnShown (s : String) (d₁ d₂ : AbstractData) : Prop where
  variant : d₁.ext_type = d₂.ext_type
  ext : d₁.ext = d₂.ext
  inShared : d₁.inAlbum = some s ↔ d₂.inAlbum = some s
  trash : trash_flag d₁ = trash_flag d₂

/-- The EXIF entry `key` in lower case, if there is one. -/
def exif_lower (key : String) (data : AbstractData) : Option String :=
  (data.exif_vec.bind fun exif => exif.lookup key).map to_ascii_lowercase

/-- The camera entries agree up to case. -/
def SameCamera (d₁ d₂ : AbstractData) : Prop :=
  exif_lower "Make" d₁ = exif_lower "Make" d₂ ∧ exif_lower "Model" d₁ = exif_lower "Model" d₂

/-! ## The leaves, by what they read -/

theorem exif_contains_eq (key needle : String) (data : AbstractData) :
    exif_contains key needle data =
      (exif_lower key data).any fun v => contains v (to_ascii_lowercase needle) := by
  unfold exif_contains exif_lower
  cases data.exif_vec with
  | none => rfl
  | some exif =>
    simp only [Option.bind_some, Option.any_some, Option.any_map]
    unfold containsLower
    rfl

/-- On media, `exists` asks whether the entry is there; albums have no EXIF and answer `false`
either way. -/
theorem exif_exists_eq (key : String) (b : Bool) (data : AbstractData) :
    exif_exists key b data = (data.ext.isSome && (exif_lower key data).isSome == b) := by
  unfold exif_exists exif_lower
  cases data with
  | image img | video vid => simp [AbstractData.exif_vec, AbstractData.ext]
  | album alb => rfl

theorem trashed_is_eq (b : Bool) (data : AbstractData) :
    trashed_is b data = (trash_flag data).any fun flag => flag == b := by
  cases data with
  | image img =>
    show img.metadata.path.any _ = (img.metadata.path.map _).any _
    cases img.metadata.path <;> rfl
  | video vid =>
    show vid.metadata.path.any _ = (vid.metadata.path.map _).any _
    cases vid.metadata.path <;> rfl
  | album alb => rfl

theorem exif_matches_congr {key : String} {d₁ d₂ : AbstractData} (hext : d₁.ext = d₂.ext)
    (hexif : exif_lower key d₁ = exif_lower key d₂) (v : FilterValue) :
    exif_matches key v d₁ = exif_matches key v d₂ := by
  cases v with
  | value needle =>
    show exif_contains key needle d₁ = exif_contains key needle d₂
    rw [exif_contains_eq, exif_contains_eq, hexif]
  | exists_ b =>
    show exif_exists key b d₁ = exif_exists key b d₂
    rw [exif_exists_eq, exif_exists_eq, hext, hexif]

/-- The conditions that albums never meet, through the accessors. -/
theorem leaf_extType_eq (s t : String) (data : AbstractData) :
    leaf_filter_hide_metadata s data (.extType t) = (data.ext.isSome && contains t data.ext_type) := by
  cases data <;> simp [leaf_filter_hide_metadata, AbstractData.ext, AbstractData.ext_type]

theorem leaf_albumExists_eq (s : String) (b : Bool) (data : AbstractData) :
    leaf_filter_hide_metadata s data (.album (.exists_ b)) = (data.ext.isSome && b) := by
  cases data <;> simp [leaf_filter_hide_metadata, AbstractData.ext]

theorem leaf_any_eq (s identifier : String) (data : AbstractData) :
    leaf_filter_hide_metadata s data (.any identifier) =
      (data.ext.isSome && (contains data.ext_type identifier || ext_contains identifier data ||
        exif_contains "Make" identifier data || exif_contains "Model" identifier data)) := by
  cases data <;> simp [leaf_filter_hide_metadata, AbstractData.ext]

/-- A leaf reads nothing but what the share shows and the camera entries. -/
theorem leaf_filter_hide_metadata_congr {s : String} {d₁ d₂ : AbstractData}
    (hshown : AgreeOnShown s d₁ d₂) (hcamera : SameCamera d₁ d₂) (e : Expression) :
    leaf_filter_hide_metadata s d₁ e = leaf_filter_hide_metadata s d₂ e := by
  have hext : ∀ needle, ext_contains needle d₁ = ext_contains needle d₂ := by
    intro needle
    unfold ext_contains
    rw [hshown.ext]
  cases e with
  | album v =>
    cases v with
    | value album_id =>
      show (if album_id = s then _ else _) = (if album_id = s then _ else _)
      by_cases hid : album_id = s
      · rw [if_pos hid, if_pos hid, hid, Bool.eq_iff_iff, beq_iff_eq, beq_iff_eq]
        exact hshown.inShared
      · rw [if_neg hid, if_neg hid]
    | exists_ b => rw [leaf_albumExists_eq, leaf_albumExists_eq, hshown.ext]
  | trashed b =>
    show trashed_is b d₁ = trashed_is b d₂
    rw [trashed_is_eq, trashed_is_eq, hshown.trash]
  | extType t => rw [leaf_extType_eq, leaf_extType_eq, hshown.ext, hshown.variant]
  | ext x => exact hext x
  | model v => exact exif_matches_congr hshown.ext hcamera.2 v
  | make v => exact exif_matches_congr hshown.ext hcamera.1 v
  | any identifier =>
    have hmake := exif_matches_congr hshown.ext hcamera.1 (.value identifier)
    have hmodel := exif_matches_congr hshown.ext hcamera.2 (.value identifier)
    simp only [exif_matches] at hmake hmodel
    rw [leaf_any_eq, leaf_any_eq, hshown.ext, hshown.variant, hext, hmake, hmodel]
  | _ => rfl

/-! ## Whole expressions -/

theorem contains_iff {s pat : String} : contains s pat = true ↔ pat.toList <:+: s.toList := by
  simp [contains]

theorem eq_of_contains {s t : String} (hst : contains s t = true) (hts : contains t s = true) :
    s = t := by
  rw [contains_iff] at hst hts
  have hlist : t.toList = s.toList := hst.eq_of_length (Nat.le_antisymm hst.length_le hts.length_le)
  exact (String.toList_inj.mp hlist).symm

/-- If no condition on an EXIF entry tells two views apart, the entry is the same up to case: the
empty needle asks whether it is there, and each value serves as the needle for the other. -/
theorem exif_lower_eq_of_indistinguishable {key : String} {d₁ d₂ : AbstractData}
    (h : ∀ needle, exif_contains key needle d₁ = exif_contains key needle d₂) :
    exif_lower key d₁ = exif_lower key d₂ := by
  simp only [exif_contains_eq] at h
  have hself : ∀ v, contains v v = true := fun v => contains_iff.mpr List.infix_rfl
  have hempty : ∀ v, contains v (to_ascii_lowercase "") = true :=
    fun v => contains_iff.mpr (List.nil_infix)
  unfold exif_lower at h ⊢
  cases h₁ : d₁.exif_vec.bind fun exif => exif.lookup key with
  | none =>
    cases h₂ : d₂.exif_vec.bind fun exif => exif.lookup key with
    | none => rfl
    | some v₂ =>
      have hthere := h ""
      rw [h₁, h₂] at hthere
      simp [hempty] at hthere
  | some v₁ =>
    cases h₂ : d₂.exif_vec.bind fun exif => exif.lookup key with
    | none =>
      have hthere := h ""
      rw [h₁, h₂] at hthere
      simp [hempty] at hthere
    | some v₂ =>
      have hneedle₁ := h v₁
      have hneedle₂ := h v₂
      rw [h₁, h₂] at hneedle₁ hneedle₂
      simp only [Option.map_some, Option.any_some, hself] at hneedle₁ hneedle₂
      rw [Option.map_some, Option.map_some, eq_of_contains hneedle₂ hneedle₁.symm]

/-- Take two views that agree on what a share of album `s` shows. No filter expression tells them
apart if and only if their camera entries agree up to case. -/
theorem hidden_filters_blind_iff (s : String) (d₁ d₂ : AbstractData)
    (hshown : AgreeOnShown s d₁ d₂) :
    (∀ e, generate_filter_hide_metadata s e d₁ = generate_filter_hide_metadata s e d₂) ↔
      SameCamera d₁ d₂ := by
  constructor
  · intro h
    exact ⟨exif_lower_eq_of_indistinguishable fun needle => h (.make (.value needle)),
      exif_lower_eq_of_indistinguishable fun needle => h (.model (.value needle))⟩
  · intro hcamera e
    unfold generate_filter_hide_metadata
    -- the two compilations have the same leaves, and the same shape above them
    have hleaf : leaf_filter_hide_metadata s d₁ = leaf_filter_hide_metadata s d₂ :=
      funext (leaf_filter_hide_metadata_congr hshown hcamera)
    rw [hleaf]

/-! ## Two pictures -/

/-- A picture in the shared album `trip` with the given EXIF entries, tags and path. -/
def tripPicture (exif : Table String String) (tags : Finset String) (file : String) :
    AbstractData :=
  .image
    { object := { ObjectSchema.new 0 file .image with tags }
      metadata := { ImageMetadata.new 10 4 3 "jpg" with
        album := some "trip"
        exif_vec := exif
        path := some ⟨file, 0, 0, false⟩ } }

/-- Tags, path and id of a picture are hidden. -/
theorem hidden_filters_blind_tags :
    AgreeOnShown "trip" (tripPicture ∅ {"secret"} "/photos/a.jpg")
      (tripPicture ∅ ∅ "/photos/b.jpg") ∧
    ∀ e, generate_filter_hide_metadata "trip" e (tripPicture ∅ {"secret"} "/photos/a.jpg") =
      generate_filter_hide_metadata "trip" e (tripPicture ∅ ∅ "/photos/b.jpg") :=
  ⟨⟨rfl, rfl, Iff.rfl, rfl⟩,
    (hidden_filters_blind_iff "trip" (tripPicture ∅ {"secret"} "/photos/a.jpg")
      (tripPicture ∅ ∅ "/photos/b.jpg") ⟨rfl, rfl, Iff.rfl, rfl⟩).mpr ⟨rfl, rfl⟩⟩

/-- The camera make is not: `Make` tells the two pictures apart. -/
theorem hidden_filters_leak_make :
    AgreeOnShown "trip" (tripPicture ((∅ : Table String String).insert "Make" "Canon") ∅ "a")
      (tripPicture ∅ ∅ "a") ∧
    generate_filter_hide_metadata "trip" (.make (.value "canon"))
        (tripPicture ((∅ : Table String String).insert "Make" "Canon") ∅ "a") ≠
      generate_filter_hide_metadata "trip" (.make (.value "canon")) (tripPicture ∅ ∅ "a") := by
  refine ⟨⟨rfl, rfl, Iff.rfl, rfl⟩, ?_⟩
  decide +kernel

end Expression
