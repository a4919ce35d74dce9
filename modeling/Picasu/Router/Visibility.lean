import Mathlib.Data.Finset.Image
import Picasu.Router.Prefetch

/-! # What a User Is Shown

Two functions read the whole in-memory tree on behalf of a user: the filter behind every listing,
and the tag census. Each drops the rows the user may not see before it looks at anything else, so
what it returns is a function of the visible rows (`shown_to_user_eq_of_visible_rows_eq`).
-/

variable (roots : Roots)

/-- The row's visibility path, if it has one, is visible to the caller. -/
def sees (caller : String) (row : DatabaseTimestamp) : Bool :=
  row.abstract_data.visibility_path.all (visible_to roots caller)

def visible_rows (caller : String) (tree : MemoryTree) : MemoryTree :=
  tree.filter (sees roots caller)

/-! ## The tag census -/

structure TagInfo where
  tag : String
  number : Nat
  deriving DecidableEq, Repr

/-- The counters of `read_tags`, as a multiset: a row increments the counter of each of its tags. -/
def count_tags (caller : String) (counts : Multiset String)
    (row : DatabaseTimestamp) : Multiset String :=
  if sees roots caller row then counts + row.abstract_data.tag.val else counts

/-- `read_tags`. The counters are in a concurrent hash map, so the order of the returned list is
unspecified; the result is a set. -/
def read_tags (tree : MemoryTree) (caller : String) : Finset TagInfo :=
  let tag_counts := tree.foldl (count_tags roots caller) 0
  tag_counts.toFinset.image fun tag => { tag, number := tag_counts.count tag }

/-- The census of a tree is the census of its visible rows. -/
theorem read_tags_visible_rows (tree : MemoryTree) (caller : String) :
    read_tags roots (visible_rows roots caller tree) caller = read_tags roots tree caller := by
  have hcounts : (visible_rows roots caller tree).foldl (count_tags roots caller) 0 =
      tree.foldl (count_tags roots caller) 0 := by
    unfold visible_rows
    rw [List.foldl_filter]
    congr 1
    funext counts row
    unfold count_tags
    split
    · rfl
    · rfl
  unfold read_tags
  rw [hcounts]

/-! ## Listings -/

/-- Without a share, only rows the caller sees are selected. -/
theorem sees_of_selects {layout : Layout} {expression : Option Expression} {caller : String}
    {include_personal personal_only_roots : Bool} {row : DatabaseTimestamp}
    (h : selects layout expression none caller include_personal personal_only_roots row = true) :
    sees layout.roots caller row = true := by
  -- every arm starts with `row_visible`
  have hvisible : row_visible layout.roots row.abstract_data caller include_personal = true := by
    unfold selects at h
    cases expression with
    | none => exact h
    | some e =>
      dsimp only at h
      split at h
      · cases h
      · rename_i hrow
        simpa using hrow
  unfold row_visible at hvisible
  unfold sees
  split at hvisible
  · rename_i path hpath
    rw [hpath]
    split at hvisible
    · cases hvisible
    · rename_i hsee
      simpa using hsee
  · rename_i hpath
    rw [hpath]
    rfl

/-- The listing of a tree is the listing of its visible rows. -/
theorem filter_items_visible_rows (layout : Layout) (tree : MemoryTree)
    (expression : Option Expression) (caller : String)
    (include_personal personal_only_roots : Bool) :
    filter_items layout (visible_rows layout.roots caller tree) expression none caller
        include_personal personal_only_roots =
      filter_items layout tree expression none caller include_personal personal_only_roots := by
  unfold filter_items visible_rows
  rw [List.filter_filter]
  congr 2
  funext row
  cases hsel : selects layout expression none caller include_personal personal_only_roots row with
  | false => rfl
  | true => rw [sees_of_selects hsel]; rfl

/-- Two trees with the same rows visible to the user list the same rows, for every expression and
every toggle, and count the same tags. -/
theorem shown_to_user_eq_of_visible_rows_eq (layout : Layout) (u : String)
    (tree₁ tree₂ : MemoryTree)
    (h : visible_rows layout.roots u tree₁ = visible_rows layout.roots u tree₂) :
    (∀ expression include_personal personal_only_roots,
      filter_items layout tree₁ expression none u include_personal personal_only_roots =
        filter_items layout tree₂ expression none u include_personal personal_only_roots) ∧
    read_tags layout.roots tree₁ u = read_tags layout.roots tree₂ u := by
  constructor
  · intro expression include_personal personal_only_roots
    rw [← filter_items_visible_rows layout tree₁, h, filter_items_visible_rows]
  · rw [← read_tags_visible_rows layout.roots tree₁, h, read_tags_visible_rows]

/-! ## A personal picture -/

/-- Public pictures under `/photos`, personal ones under `/users`. -/
def homesLayout : Layout where
  roots :=
    { fs := { canonicalize := some, exists_ := fun _ => true }
      image_home := some (PathBuf.ofString "/photos")
      users_home := some (PathBuf.ofString "/users") }
  dirs := ∅

def pictureRow (asset_id file : String) (tags : Finset String) : DatabaseTimestamp where
  abstract_data := .image
    { object := { ObjectSchema.new 0 asset_id .image with tags }
      metadata := { ImageMetadata.new 10 4 3 "jpg" with path := some ⟨file, 0, 0, false⟩ } }
  timestamp := 0
  asset_id

/-- `alice` is shown the same with and without `bob`'s personal picture. -/
theorem shown_to_alice_without_bob :
    (∀ expression include_personal personal_only_roots,
      filter_items homesLayout [pictureRow "p" "/photos/p.jpg" {"sea"}] expression none "alice"
          include_personal personal_only_roots =
        filter_items homesLayout
          [pictureRow "q" "/users/bob/q.jpg" {"bob"}, pictureRow "p" "/photos/p.jpg" {"sea"}]
          expression none "alice" include_personal personal_only_roots) ∧
    read_tags homesLayout.roots [pictureRow "p" "/photos/p.jpg" {"sea"}] "alice" =
      read_tags homesLayout.roots
        [pictureRow "q" "/users/bob/q.jpg" {"bob"}, pictureRow "p" "/photos/p.jpg" {"sea"}]
        "alice" :=
  shown_to_user_eq_of_visible_rows_eq homesLayout "alice" [pictureRow "p" "/photos/p.jpg" {"sea"}]
    [pictureRow "q" "/users/bob/q.jpg" {"bob"}, pictureRow "p" "/photos/p.jpg" {"sea"}]
    (by
      have hp : sees homesLayout.roots "alice" (pictureRow "p" "/photos/p.jpg" {"sea"}) = true := by
        decide +kernel
      have hq : sees homesLayout.roots "alice" (pictureRow "q" "/users/bob/q.jpg" {"bob"}) = false := by
        decide +kernel
      simp [visible_rows, hp, hq])
