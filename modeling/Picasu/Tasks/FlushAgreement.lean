import Picasu.Tasks.FlushItems

/-! # Agreement of the Four Tables

The tables are written together, and should say the same: the path index is the inverse of the
records, exactly the assets have metadata, and an asset is listed in the group of its content hash
and in no other.

An insert keeps this, also one of a file whose bytes have changed, since it reads the old hash
from the record. A remove takes the hash from its caller. If that is not the stored one, the id
stays behind in the group of the stored hash, with no record; nothing ever removes it from there.

* `TablesAgree.insert`, `TablesAgree.remove`: what keeps the agreement;
* `dangling_of_mismatch`, `Dangling.flush`: what a wrong hash leaves, and that it stays;
* `flushed_tables_agree_iff`: the same for every sequence of flushes.
-/

structure TablesAgree (s : AssetStore) : Prop where
  /-- `ASSET_BY_PATH` is the inverse of `ASSET_BY_ID`. -/
  by_path : Table.Inverse AssetRecord.path s.tables.assets s.by_path
  /-- `METADATA_TABLE` has the keys of `ASSET_BY_ID`. -/
  metadata : ∀ id, s.tables.metadata.lookup id = none ↔ s.get_asset_by_id id = none
  /-- `DUPE_INDEX` lists an id under its content hash. -/
  dupes : ∀ hash id, id ∈ s.get_dupe_ids hash ↔
    ∃ record, s.get_asset_by_id id = some record ∧ record.content_hash = some hash
  /-- No group is empty or lists an id twice. -/
  groups : s.WellGrouped

theorem tablesAgree_empty : TablesAgree AssetStore.empty := by
  refine ⟨Table.Inverse.empty, fun id => iff_of_true rfl rfl, fun hash id => ⟨?_, ?_⟩, ?_⟩
  · intro hmem
    cases hmem
  · rintro ⟨record, hrecord, -⟩
    cases hrecord
  · intro hash ids hlook
    cases hlook

/-- Some table mentions the id. -/
def InUse (s : AssetStore) (id : String) : Prop :=
  s.get_asset_by_id id ≠ none ∨ (∃ path, s.get_asset_id_by_path path = some id) ∨
    s.tables.metadata.lookup id ≠ none ∨ ∃ hash, id ∈ s.get_dupe_ids hash

namespace FlushItem

/-- If an id is drawn, it is not in use. -/
def DrawsFresh (s : AssetStore) : FlushItem → Prop
  | insert _ random_hash data =>
    s.get_asset_id_by_path (flush_path data) = none → ¬ InUse s random_hash
  | remove _ _ => True

/-- A remove comes with the content hash that is stored for its path. -/
def HashMatches (s : AssetStore) : FlushItem → Prop
  | insert _ _ _ => True
  | remove _ data => ∀ id record hash, s.get_asset_id_by_path (flush_path data) = some id →
      s.get_asset_by_id id = some record → record.content_hash = some hash → hash = data.hash

end FlushItem

/-! ## Inserts -/

section Insert

variable {s : AssetStore} {now : Int} {random_hash : String} {data : AbstractData}

/-- The id of an insert is that of its path, or it is new. -/
theorem flush_id_cases (hdrawn : FlushItem.DrawsFresh s (.insert now random_hash data)) :
    s.get_asset_id_by_path (flush_path data) = some (flush_id random_hash data s) ∨
      (s.get_asset_id_by_path (flush_path data) = none ∧
        ¬ InUse s (flush_id random_hash data s)) := by
  unfold flush_id
  cases hlook : s.get_asset_id_by_path (flush_path data) with
  | some id => exact Or.inl rfl
  | none => exact Or.inr ⟨rfl, hdrawn hlook⟩

theorem TablesAgree.insert (h : TablesAgree s)
    (hdrawn : FlushItem.DrawsFresh s (.insert now random_hash data)) :
    TablesAgree (flush_insert now random_hash data s) := by
  have hcases := flush_id_cases hdrawn
  have hmember := @mem_get_dupe_ids_flush_insert now random_hash data s
  generalize hid : flush_id random_hash data s = asset_id at hcases hmember
  refine ⟨?_, fun id => ?_, fun hash id => ?_, wellGrouped_flush_insert h.groups⟩
  · rw [tables_flush_insert, by_path_flush_insert, hid]
    refine h.by_path.put (v := flush_record now asset_id data) ?_
    rcases hcases with hfound | ⟨hnone, hnew⟩
    · exact Or.inl hfound
    · exact Or.inr ⟨hnone, by_contra fun hrow => hnew (Or.inl hrow)⟩
  · rw [tables_flush_insert, AssetStore.get_asset_by_id, tables_flush_insert, hid]
    by_cases hsame : id = asset_id
    · subst hsame
      simp
    · rw [AList.lookup_insert_ne hsame, AList.lookup_insert_ne hsame]
      exact h.metadata id
  · rw [hmember, AssetStore.get_asset_by_id, tables_flush_insert, hid]
    by_cases hsame : id = asset_id
    · subst hsame
      rw [AList.lookup_insert]
      constructor
      · rintro (⟨hmem, hstays⟩ | ⟨rfl, -⟩)
        · -- it was listed under its old hash, so that is the new one too
          obtain ⟨record, hrecord, hhash⟩ := (h.dupes hash id).mp hmem
          refine ⟨_, rfl, ?_⟩
          rcases hcases with hfound | ⟨-, hnew⟩
          · have hold : old_hash data s = some hash := by
              rw [old_hash, hfound, Option.bind_some, hrecord, Option.bind_some]
              exact hhash
            by_contra hne
            exact hstays ⟨rfl, hold, fun heq => hne (congrArg some heq.symm)⟩
          · exact absurd (Or.inl (by rw [hrecord]; nofun)) hnew
        · exact ⟨_, rfl, rfl⟩
      · rintro ⟨record, hrecord, hhash⟩
        obtain rfl := Option.some.inj hrecord
        exact Or.inr ⟨(Option.some.inj hhash).symm, rfl⟩
    · rw [AList.lookup_insert_ne hsame]
      constructor
      · rintro (⟨hmem, -⟩ | ⟨-, heq⟩)
        · exact (h.dupes hash id).mp hmem
        · exact absurd heq hsame
      · intro hrow
        exact Or.inl ⟨(h.dupes hash id).mpr hrow, fun hleaves => hsame hleaves.1⟩

end Insert

/-! ## Removes -/

section Remove

variable {s : AssetStore} {fs : Fs} {data : AbstractData}

theorem flush_remove_of_path (hpath : flush_path data ≠ "") : flush_remove fs data s =
    match s.get_asset_id_by_path (flush_path data) with
    | some asset_id => remove_asset_from_tables asset_id (flush_path data) data.hash s
    | none => s := by
  unfold flush_remove
  exact if_neg hpath

theorem TablesAgree.remove (h : TablesAgree s) (hpath : flush_path data ≠ "")
    (hmatch : FlushItem.HashMatches s (.remove fs data)) :
    TablesAgree (flush_remove fs data s) := by
  rw [flush_remove_of_path hpath]
  cases hlook : s.get_asset_id_by_path (flush_path data) with
  | none => exact h
  | some asset_id =>
    refine ⟨?_, fun id => ?_, fun hash id => ?_, wellGrouped_remove_asset_from_tables h.groups⟩
    · show Table.Inverse _ (remove_asset_from_tables _ _ _ _).tables.assets
        (remove_asset_from_tables _ _ _ _).by_path
      rw [tables_remove_asset_from_tables, by_path_remove_asset_from_tables]
      exact h.by_path.drop hlook
    · show (remove_asset_from_tables _ _ _ _).tables.metadata.lookup id = none ↔
        (remove_asset_from_tables _ _ _ _).tables.assets.lookup id = none
      rw [tables_remove_asset_from_tables]
      by_cases hsame : id = asset_id
      · subst hsame
        simp
      · rw [AList.lookup_erase_ne hsame, AList.lookup_erase_ne hsame]
        exact h.metadata id
    · show id ∈ (remove_asset_from_tables _ _ _ _).get_dupe_ids hash ↔
        ∃ record, (remove_asset_from_tables _ _ _ _).tables.assets.lookup id = some record ∧ _
      rw [mem_get_dupe_ids_remove_asset_from_tables, tables_remove_asset_from_tables, h.dupes hash id]
      constructor
      · rintro ⟨⟨record, hrecord, hhash⟩, hstays⟩
        refine ⟨record, Table.lookup_erase_eq_some.mpr ⟨?_, hrecord⟩, hhash⟩
        rintro rfl
        exact hstays ⟨hmatch id record hash hlook hrecord hhash, rfl⟩
      · rintro ⟨record, hrecord, hhash⟩
        obtain ⟨hne, hrecord⟩ := Table.lookup_erase_eq_some.mp hrecord
        exact ⟨⟨record, hrecord, hhash⟩, fun hleaves => hne hleaves.2⟩

/-! ## What a wrong hash leaves -/

/-- The id is listed under the hash, and there is no such asset. -/
structure Dangling (hash id : String) (s : AssetStore) : Prop where
  listed : id ∈ s.get_dupe_ids hash
  no_record : s.get_asset_by_id id = none
  no_path : ∀ path, s.get_asset_id_by_path path ≠ some id

theorem Dangling.not_agree {hash id : String} (h : Dangling hash id s) : ¬ TablesAgree s := by
  intro hagree
  obtain ⟨record, hrecord, -⟩ := (hagree.dupes hash id).mp h.listed
  cases h.no_record.symm.trans hrecord

/-- A remove with another hash than the stored one leaves the id in its group. -/
theorem dangling_of_mismatch (h : TablesAgree s) (hpath : flush_path data ≠ "")
    (hmismatch : ¬ FlushItem.HashMatches s (.remove fs data)) :
    ∃ hash id, Dangling hash id (flush_remove fs data s) := by
  have hwrong : ∃ id record hash, s.get_asset_id_by_path (flush_path data) = some id ∧
      s.get_asset_by_id id = some record ∧ record.content_hash = some hash ∧ hash ≠ data.hash := by
    by_contra hnone
    refine hmismatch fun id record hash hlook hrecord hhash => ?_
    by_contra hne
    exact hnone ⟨id, record, hash, hlook, hrecord, hhash, hne⟩
  obtain ⟨id, record, hash, hlook, hrecord, hhash, hne⟩ := hwrong
  refine ⟨hash, id, ?_⟩
  rw [flush_remove_of_path hpath, hlook]
  refine ⟨?_, ?_, fun path => ?_⟩
  · refine mem_get_dupe_ids_remove_asset_from_tables.mpr ⟨?_, fun hleaves => hne hleaves.1⟩
    exact (h.dupes hash id).mpr ⟨record, hrecord, hhash⟩
  · show (remove_asset_from_tables _ _ _ _).tables.assets.lookup id = none
    rw [tables_remove_asset_from_tables]
    exact AList.lookup_erase _ _
  · show (remove_asset_from_tables _ _ _ _).by_path.lookup path ≠ some id
    rw [by_path_remove_asset_from_tables]
    intro hpoint
    obtain ⟨hother, hpoint⟩ := Table.lookup_erase_eq_some.mp hpoint
    -- the record has one path only
    obtain ⟨r, hr, rfl⟩ := (h.by_path path id).mp hpoint
    obtain ⟨r', hr', hsame⟩ := (h.by_path (flush_path data) id).mp hlook
    obtain rfl : r = r' := Option.mem_unique hr hr'
    exact hother hsame

theorem Dangling.flush {hash id : String} (h : Dangling hash id s) {item : FlushItem}
    (hpath : flush_path item.data ≠ "") (hdrawn : item.DrawsFresh s) :
    Dangling hash id (item.flush s) := by
  cases item with
  | insert now random_hash data =>
    have hne : id ≠ flush_id random_hash data s := by
      intro heq
      rcases flush_id_cases hdrawn with hfound | ⟨-, hnew⟩
      · exact h.no_path _ (heq ▸ hfound)
      · exact hnew (heq ▸ Or.inr (Or.inr (Or.inr ⟨hash, h.listed⟩)))
    refine ⟨?_, ?_, fun path => ?_⟩
    · exact mem_get_dupe_ids_flush_insert.mpr (Or.inl ⟨h.listed, fun hleaves => hne hleaves.1⟩)
    · show (flush_insert now random_hash data s).tables.assets.lookup id = none
      rw [tables_flush_insert, AList.lookup_insert_ne hne]
      exact h.no_record
    · show (flush_insert now random_hash data s).by_path.lookup path ≠ some id
      rw [by_path_flush_insert]
      intro hpoint
      rcases Table.lookup_insert_eq_some.mp hpoint with ⟨-, heq⟩ | ⟨-, hold⟩
      · exact hne heq
      · exact h.no_path path hold
  | remove fs data =>
    show Dangling hash id (flush_remove fs data s)
    have hcarried : flush_path data ≠ "" := hpath
    rw [flush_remove_of_path hcarried]
    cases hlook : s.get_asset_id_by_path (flush_path data) with
    | none => exact h
    | some asset_id =>
      have hne : id ≠ asset_id := fun heq => h.no_path _ (heq ▸ hlook)
      refine ⟨?_, ?_, fun path => ?_⟩
      · exact mem_get_dupe_ids_remove_asset_from_tables.mpr
          ⟨h.listed, fun hleaves => hne hleaves.2⟩
      · show (remove_asset_from_tables _ _ _ _).tables.assets.lookup id = none
        rw [tables_remove_asset_from_tables, AList.lookup_erase_ne hne]
        exact h.no_record
      · show (remove_asset_from_tables _ _ _ _).by_path.lookup path ≠ some id
        rw [by_path_remove_asset_from_tables]
        exact fun hpoint => h.no_path path (Table.lookup_erase_eq_some.mp hpoint).2

end Remove

/-! ## Sequences of flushes -/

section Runs

theorem TablesAgree.flush {s : AssetStore} (h : TablesAgree s) {item : FlushItem}
    (hpath : flush_path item.data ≠ "") (hdrawn : item.DrawsFresh s) (hmatch : item.HashMatches s) :
    TablesAgree (item.flush s) := by
  cases item with
  | insert now random_hash data => exact h.insert hdrawn
  | remove fs data => exact h.remove hpath hmatch

/-- If nothing dangles after an item, its hash was the stored one. -/
theorem hashMatches_of_not_dangling {s : AssetStore} (h : TablesAgree s) {item : FlushItem}
    (hpath : flush_path item.data ≠ "")
    (hnone : ∀ hash id, ¬ Dangling hash id (item.flush s)) : item.HashMatches s := by
  cases item with
  | insert now random_hash data => trivial
  | remove fs data =>
    by_contra hmismatch
    obtain ⟨hash, id, hdangling⟩ := dangling_of_mismatch h hpath hmismatch
    exact hnone hash id hdangling

/-- What dangles in the middle of a run dangles at its end. -/
theorem dangling_run {items done : List FlushItem} (hpre : done <+: items)
    (hpaths : ∀ item ∈ items, flush_path item.data ≠ "")
    (hdrawn : ∀ done item, done ++ [item] <+: items →
      item.DrawsFresh (LTS.run FlushItem.flush AssetStore.empty done)) {hash id : String}
    (h : Dangling hash id (LTS.run FlushItem.flush AssetStore.empty done)) :
    Dangling hash id (LTS.run FlushItem.flush AssetStore.empty items) := by
  obtain ⟨rest, rfl⟩ := hpre
  rw [LTS.run_append]
  refine LTS.run_induction (Q := fun _ s => Dangling hash id s) h fun pre item hitem hpre => ?_
  have hin : done ++ pre ++ [item] <+: done ++ rest := by
    rw [List.append_assoc]
    exact (List.prefix_append_right_inj done).mpr hitem
  refine hpre.flush (hpaths item (hin.subset (by simp))) ?_
  have hfresh := hdrawn (done ++ pre) item hin
  rwa [LTS.run_append] at hfresh

/-- After any sequence of flushes of media records from empty tables, with ids drawn that are not in
use, the four tables agree exactly when every remove came with the content hash that was stored
for its path. -/
theorem flushed_tables_agree_iff (flushes : List Flush)
    (hpaths : ∀ item ∈ flushes.flatMap Flush.items, flush_path item.data ≠ "")
    (hdrawn : ∀ done item, done ++ [item] <+: flushes.flatMap Flush.items →
      item.DrawsFresh (LTS.run FlushItem.flush AssetStore.empty done)) :
    (∀ done, done <+: flushes → TablesAgree (done.foldl Flush.write AssetStore.empty)) ↔
      ∀ done item, done ++ [item] <+: flushes.flatMap Flush.items →
        item.HashMatches (LTS.run FlushItem.flush AssetStore.empty done) := by
  constructor
  · intro hagree done item hpre
    have hend : TablesAgree (LTS.run FlushItem.flush AssetStore.empty
        (flushes.flatMap Flush.items)) := by
      rw [← Flush.run_write_eq_run]
      exact hagree flushes (List.prefix_refl _)
    have hnone : ∀ pre x, pre ++ [x] <+: flushes.flatMap Flush.items →
        ∀ hash id, ¬ Dangling hash id (x.flush (LTS.run FlushItem.flush AssetStore.empty pre)) := by
      intro pre x hin hash id h
      rw [show x.flush (LTS.run FlushItem.flush AssetStore.empty pre) =
        LTS.run FlushItem.flush AssetStore.empty (pre ++ [x]) by rw [LTS.run_append]; rfl] at h
      exact (dangling_run hin hpaths hdrawn h).not_agree hend
    -- every item so far has kept the agreement, or something would dangle
    have hbefore : TablesAgree (LTS.run FlushItem.flush AssetStore.empty done) := by
      refine LTS.run_induction (Q := fun _ s => TablesAgree s) tablesAgree_empty ?_
      intro pre x hx h
      have hin : pre ++ [x] <+: flushes.flatMap Flush.items :=
        hx.trans ((List.prefix_append done [item]).trans hpre)
      have hpath := hpaths x (hin.subset (by simp))
      exact h.flush hpath (hdrawn pre x hin) (hashMatches_of_not_dangling h hpath (hnone pre x hin))
    exact hashMatches_of_not_dangling hbefore (hpaths item (hpre.subset (by simp)))
      (hnone done item hpre)
  · intro hmatch done hdone
    rw [Flush.run_write_eq_run]
    have hitems : done.flatMap Flush.items <+: flushes.flatMap Flush.items := by
      obtain ⟨rest, rfl⟩ := hdone
      rw [List.flatMap_append]
      exact List.prefix_append _ _
    refine LTS.run_induction (Q := fun _ s => TablesAgree s) tablesAgree_empty ?_
    intro pre item hpre h
    have hin := hpre.trans hitems
    exact h.flush (hpaths item (hin.subset (by simp))) (hdrawn pre item hin) (hmatch pre item hin)

theorem not_inUse_empty (id : String) : ¬ InUse AssetStore.empty id := by
  rintro (hrow | ⟨path, hpath⟩ | hmeta | ⟨hash, hmem⟩)
  · exact hrow rfl
  · cases hpath
  · exact hmeta rfl
  · cases hmem

def photo (file hash : String) : AbstractData :=
  .image
    { object := ObjectSchema.new 0 hash .image
      metadata := { ImageMetadata.new 1 1 1 "jpg" with path := some ⟨file, 0, 0, false⟩ } }

/-- The photo `/p/sea.jpg` is indexed, and then removed with the given hash. -/
def sea_removed (hash : String) : List Flush :=
  let fs : Fs := ⟨fun _ => none, fun _ => false⟩
  [⟨0, fs, [("a", photo "/p/sea.jpg" "h")], []⟩, ⟨0, fs, [], [photo "/p/sea.jpg" hash]⟩]

theorem flushed_tables_agree_same_hash :
    flush_path (photo "/p/sea.jpg" "h") ≠ "" ∧
      ∀ done, done <+: sea_removed "h" →
        TablesAgree (done.foldl Flush.write AssetStore.empty) := by
  have hpath : flush_path (photo "/p/sea.jpg" "h") ≠ "" := by decide
  refine ⟨hpath, (flushed_tables_agree_iff (sea_removed "h") ?_ ?_).mpr ?_⟩
  · intro item hitem
    rcases List.mem_cons.mp hitem with rfl | hitem
    · exact hpath
    · rw [List.mem_singleton.mp hitem]
      exact hpath
  · exact LTS.forall_step_cons.mpr ⟨fun _ => not_inUse_empty "a",
      LTS.forall_step_cons.mpr ⟨trivial, LTS.forall_step_nil.mpr trivial⟩⟩
  · refine LTS.forall_step_cons.mpr ⟨trivial,
      LTS.forall_step_cons.mpr ⟨?_, LTS.forall_step_nil.mpr trivial⟩⟩
    intro id record hash hlook hrecord hhash
    have hid : "a" = id := Option.some.inj hlook
    subst hid
    obtain rfl := Option.some.inj hrecord
    exact (Option.some.inj hhash).symm

/-- Removed with another hash, the photo stays listed among the duplicates of its own. -/
theorem removed_photo_stays_listed :
    let s := (sea_removed "g").foldl Flush.write AssetStore.empty
    s.get_dupe_ids "h" = ["a"] ∧ s.get_asset_by_id "a" = none ∧ ¬ TablesAgree s := by
  intro s
  have hlisted : s.get_dupe_ids "h" = ["a"] := by decide +kernel
  have hnone : s.get_asset_by_id "a" = none := by decide +kernel
  refine ⟨hlisted, hnone, fun hagree => ?_⟩
  obtain ⟨record, hrecord, -⟩ := (hagree.dupes "h" "a").mp (by rw [hlisted]; exact List.mem_cons_self)
  cases hnone.symm.trans hrecord

end Runs
