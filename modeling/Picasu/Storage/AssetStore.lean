import Picasu.Framework.Index
import Picasu.Process.Transitor

/-! # The Asset Store

The four tables that describe assets: identity records and metadata by id, the id of each path,
and the ids of each content hash. Every helper below is one write transaction of its own; they are
only combined by the indexing tasks and by the handlers that move and delete.

What the rest of the development needs to know of the store is which records it holds and which
ids its paths point at, so the frame facts are about those two tables.
-/

/-- `ASSET_BY_ID`, `METADATA_TABLE`, `ASSET_BY_PATH` and `DUPE_INDEX`. -/
structure AssetStore where
  tables : Tables
  by_path : Table String String
  dupes : Table String (List String)

/-- The tables of a new server. -/
def AssetStore.empty : AssetStore := ⟨⟨∅, ∅⟩, ∅, ∅⟩

namespace AssetStore

variable (s : AssetStore)

/-! ## By path -/

def get_asset_id_by_path (path : String) : Option String := s.by_path.lookup path

def put_asset_by_path (path asset_id : String) : AssetStore :=
  { s with by_path := s.by_path.insert path asset_id }

def remove_asset_by_path (path : String) : AssetStore :=
  { s with by_path := s.by_path.erase path }

/-! ## By id -/

def get_asset_by_id (asset_id : String) : Option AssetRecord := s.tables.assets.lookup asset_id

def get_all_assets : List AssetRecord := s.tables.assets.values

def put_asset_by_id (record : AssetRecord) : AssetStore :=
  { s with tables := { s.tables with
      assets := s.tables.assets.insert record.asset_id record } }

def remove_asset_by_id (asset_id : String) : AssetStore :=
  { s with tables := { s.tables with assets := s.tables.assets.erase asset_id } }

/-! ## Metadata -/

def put_metadata (asset_id : String) (payload : MetadataRecord) : AssetStore :=
  { s with tables := { s.tables with metadata := s.tables.metadata.insert asset_id payload } }

def remove_metadata (asset_id : String) : AssetStore :=
  { s with tables := { s.tables with metadata := s.tables.metadata.erase asset_id } }

/-! ## Duplicate groups -/

def get_dupe_ids (content_hash : String) : List String := (s.dupes.lookup content_hash).getD []

def add_to_dupe_group (content_hash asset_id : String) : AssetStore :=
  if asset_id ∈ s.get_dupe_ids content_hash then s
  else { s with dupes := s.dupes.insert content_hash (s.get_dupe_ids content_hash ++ [asset_id]) }

/-- `remove_from_dupe_group`: an empty group is removed. -/
def remove_from_dupe_group (content_hash asset_id : String) : AssetStore :=
  match (s.get_dupe_ids content_hash).filter fun id => id != asset_id with
  | [] => { s with dupes := s.dupes.erase content_hash }
  | ids => { s with dupes := s.dupes.insert content_hash ids }

/-! ## Whole assets -/

/-- What a path below `dir_path` starts with. -/
def children_of (dir_path : String) : String :=
  if dir_path.toList.getLast? = some '/' then dir_path else dir_path ++ "/"

/-- The test of `get_assets_under_path` on a path. -/
def is_under (dir_path path : String) : Bool :=
  (children_of dir_path).toList.isPrefixOf path.toList

def get_assets_under_path (dir_path : String) : List AssetRecord :=
  s.get_all_assets.filter fun record => is_under dir_path record.path

def remove_asset (record : AssetRecord) : AssetStore :=
  let s := s.remove_asset_by_id record.asset_id
  let s := s.remove_asset_by_path record.path
  match record.content_hash with
  | some hash => s.remove_from_dupe_group hash record.asset_id
  | none => s

@[simp] theorem tables_add_to_dupe_group (hash id : String) :
    (s.add_to_dupe_group hash id).tables = s.tables := by
  unfold add_to_dupe_group
  split
  · rfl
  · rfl

@[simp] theorem by_path_add_to_dupe_group (hash id : String) :
    (s.add_to_dupe_group hash id).by_path = s.by_path := by
  unfold add_to_dupe_group
  split
  · rfl
  · rfl

@[simp] theorem tables_remove_from_dupe_group (hash id : String) :
    (s.remove_from_dupe_group hash id).tables = s.tables := by
  unfold remove_from_dupe_group
  split
  · rfl
  · rfl

@[simp] theorem by_path_remove_from_dupe_group (hash id : String) :
    (s.remove_from_dupe_group hash id).by_path = s.by_path := by
  unfold remove_from_dupe_group
  split
  · rfl
  · rfl

/-- Only the one id leaves the one group. -/
theorem mem_get_dupe_ids_remove {hash hash' id id' : String} :
    id' ∈ (s.remove_from_dupe_group hash id).get_dupe_ids hash' ↔
      id' ∈ s.get_dupe_ids hash' ∧ ¬ (hash' = hash ∧ id' = id) := by
  have hgroup : (s.remove_from_dupe_group hash id).get_dupe_ids hash' =
      if hash' = hash then (s.get_dupe_ids hash).filter fun x => x != id
      else s.get_dupe_ids hash' := by
    unfold remove_from_dupe_group
    split
    · rename_i hempty
      rw [hempty, get_dupe_ids, Table.lookup_erase]
      split <;> rfl
    · rw [get_dupe_ids, Table.lookup_insert]
      split <;> rfl
  rw [hgroup]
  split
  · rename_i hhash
    simp [hhash]
  · rename_i hhash
    simp [hhash]

theorem mem_get_dupe_ids_add {hash hash' id id' : String} :
    id' ∈ (s.add_to_dupe_group hash id).get_dupe_ids hash' ↔
      id' ∈ s.get_dupe_ids hash' ∨ (hash' = hash ∧ id' = id) := by
  unfold add_to_dupe_group
  split
  · rename_i hmem
    refine ⟨Or.inl, ?_⟩
    rintro (hold | ⟨rfl, rfl⟩)
    · exact hold
    · exact hmem
  · by_cases hhash : hash' = hash
    · subst hhash
      simp [get_dupe_ids]
    · simp [get_dupe_ids, AList.lookup_insert_ne hhash, hhash]

/-- No group is empty or lists an id twice. -/
def WellGrouped : Prop := ∀ hash ids, s.dupes.lookup hash = some ids → ids ≠ [] ∧ ids.Nodup

variable {s}

theorem WellGrouped.nodup (h : s.WellGrouped) (hash : String) : (s.get_dupe_ids hash).Nodup := by
  unfold get_dupe_ids
  cases hlook : s.dupes.lookup hash with
  | none => exact List.nodup_nil
  | some ids => exact (h hash ids hlook).2

theorem WellGrouped.remove (h : s.WellGrouped) (hash id : String) :
    (s.remove_from_dupe_group hash id).WellGrouped := by
  intro hash' ids hlook
  unfold remove_from_dupe_group at hlook
  split at hlook
  · exact h hash' ids (Table.lookup_erase_eq_some.mp hlook).2
  rename_i hids
  rcases Table.lookup_insert_eq_some.mp hlook with ⟨-, rfl⟩ | ⟨-, hold⟩
  · exact ⟨hids, (h.nodup hash).filter _⟩
  · exact h hash' ids hold

theorem WellGrouped.add (h : s.WellGrouped) (hash id : String) :
    (s.add_to_dupe_group hash id).WellGrouped := by
  unfold add_to_dupe_group
  split
  · exact h
  rename_i hnot
  intro hash' ids hlook
  rcases Table.lookup_insert_eq_some.mp hlook with ⟨-, rfl⟩ | ⟨-, hold⟩
  · refine ⟨List.append_ne_nil_of_right_ne_nil _ (List.cons_ne_nil _ _), ?_⟩
    exact List.nodup_append'.mpr ⟨h.nodup hash, List.nodup_singleton _,
      List.disjoint_singleton.mpr hnot⟩
  · exact h hash' ids hold

/-! ## Selected assets -/

variable (s)

/-- The records of the assets in `S` satisfy `R`, and every path that points at one of them
satisfies `Q`. -/
def Within (S : String → Prop) (R : AssetRecord → Prop) (Q : String → Prop) : Prop :=
  Table.Within AssetRecord.asset_id S R Q s.tables.assets s.by_path

end AssetStore
