import Picasu.Framework.Run
import Picasu.Tasks.Writer

/-! # Flushes, Item by Item

`flush_tables` is a loop over its inserts and then a loop over its removes. So a flush is a run
over its items, and several flushes one after the other are a run over all of them.

The lemmas say what an item does, table by table. An insert is written under the id that its path
has, or under the id that is drawn for it; in the duplicate groups that id moves from the group of
its old hash to the one of the new. A removed asset leaves every table, and of the groups the one
of the hash that the caller gives.
-/

/-- An insert or a remove of a flush, with what it meets: the clock and the id that is drawn if its
path is new, or the file system. -/
inductive FlushItem where
  | insert (now : Int) (random_hash : String) (data : AbstractData)
  | remove (fs : Fs) (data : AbstractData)

namespace FlushItem

/-- The view that is inserted or removed. -/
def data : FlushItem → AbstractData
  | insert _ _ data | remove _ data => data

/-- One turn of the loops of `flush_tables`. -/
def flush (s : AssetStore) : FlushItem → AssetStore
  | insert now random_hash data => flush_insert now random_hash data s
  | remove fs data => flush_remove fs data s

end FlushItem

/-- One call of `flush_tables`. -/
structure Flush where
  now : Int
  fs : Fs
  inserts : List (String × AbstractData)
  removes : List AbstractData

namespace Flush

def insert_items (f : Flush) : List FlushItem :=
  f.inserts.map fun (random_hash, data) => .insert f.now random_hash data

def remove_items (f : Flush) : List FlushItem := f.removes.map (.remove f.fs)

/-- The items in the order in which `flush_tables` takes them. -/
def items (f : Flush) : List FlushItem := f.insert_items ++ f.remove_items

def write (s : AssetStore) (f : Flush) : AssetStore := flush_tables f.now f.fs f.inserts f.removes s

theorem write_eq_run (s : AssetStore) (f : Flush) :
    f.write s = LTS.run FlushItem.flush s f.items := by
  rw [items, LTS.run_append, insert_items, remove_items, LTS.run, LTS.run, List.foldl_map,
    List.foldl_map]
  rfl

/-- Flushes one after the other are the run over all their items. -/
theorem run_write_eq_run (s : AssetStore) (fs : List Flush) :
    fs.foldl write s = LTS.run FlushItem.flush s (fs.flatMap items) := by
  induction fs generalizing s with
  | nil => rfl
  | cons f fs ih => rw [List.foldl_cons, List.flatMap_cons, LTS.run_append, ih, write_eq_run]

end Flush

/-! ## What an insert does -/

section Insert

variable {now : Int} {random_hash : String} {data : AbstractData} {s : AssetStore}

/-- The content hash that is stored for the path of an insert. -/
def old_hash (data : AbstractData) (s : AssetStore) : Option String :=
  ((s.get_asset_id_by_path (flush_path data)).bind s.get_asset_by_id).bind
    fun record => record.content_hash

/-- The id leaves the group of the old hash if the hash has changed, and is in the group of the new
one. -/
theorem mem_get_dupe_ids_flush_insert {hash id : String} :
    id ∈ (flush_insert now random_hash data s).get_dupe_ids hash ↔
      (id ∈ s.get_dupe_ids hash ∧ ¬ (id = flush_id random_hash data s ∧
        old_hash data s = some hash ∧ hash ≠ data.hash)) ∨
      (hash = data.hash ∧ id = flush_id random_hash data s) := by
  simp only [flush_insert, AssetStore.mem_get_dupe_ids_add]
  refine or_congr ?_ Iff.rfl
  split
  · rename_i old hold
    have hold : old_hash data s = some old := hold
    rw [hold]
    split
    · rename_i hchanged
      rw [AssetStore.mem_get_dupe_ids_remove]
      refine and_congr Iff.rfl (not_congr ⟨?_, ?_⟩)
      · rintro ⟨rfl, rfl⟩
        exact ⟨rfl, rfl, hchanged⟩
      · rintro ⟨rfl, hsame, -⟩
        exact ⟨(Option.some.inj hsame).symm, rfl⟩
    · rename_i hchanged
      have hno : ¬ (id = flush_id random_hash data s ∧ some old = some hash ∧
          hash ≠ data.hash) := by
        rintro ⟨-, hsame, hne⟩
        rw [Option.some.inj hsame] at hchanged
        exact hchanged hne
      exact (and_iff_left hno).symm
  · rename_i hold
    have hold : old_hash data s = none := hold
    rw [hold]
    have hno : ¬ (id = flush_id random_hash data s ∧ (none : Option String) = some hash ∧
        hash ≠ data.hash) := by
      rintro ⟨-, hnone, -⟩
      cases hnone
    exact (and_iff_left hno).symm

theorem wellGrouped_flush_insert (h : s.WellGrouped) :
    (flush_insert now random_hash data s).WellGrouped := by
  simp only [flush_insert]
  apply AssetStore.WellGrouped.add
  split
  · split
    · apply AssetStore.WellGrouped.remove
      exact h
    · exact h
  · exact h

end Insert

/-! ## What a removal does -/

section Remove

variable {asset_id path content_hash : String} {s : AssetStore}

theorem mem_get_dupe_ids_remove_asset_from_tables {hash id : String} :
    id ∈ (remove_asset_from_tables asset_id path content_hash s).get_dupe_ids hash ↔
      id ∈ s.get_dupe_ids hash ∧ ¬ (hash = content_hash ∧ id = asset_id) :=
  AssetStore.mem_get_dupe_ids_remove _

theorem wellGrouped_remove_asset_from_tables (h : s.WellGrouped) :
    (remove_asset_from_tables asset_id path content_hash s).WellGrouped := by
  have hbefore : ((s.remove_asset_by_id asset_id).remove_asset_by_path path).WellGrouped := h
  exact hbefore.remove content_hash asset_id

end Remove
