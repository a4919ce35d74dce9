import Picasu.Tasks.FlushItems

/-! # The Tables as Functions

Two runs write the same tables if every lookup gives the same. The order in which a table was
written shows in nothing else. So a store is viewed here as four functions, and equal views mean
the same tables.

An item of a flush acts on each table pointwise: it replaces the rows of one id and the entry of
one path, and in a group it lets one id join or leave.
-/

/-- The four tables, as lookups. -/
@[ext]
structure TableMap where
  assets : String → Option AssetRecord
  by_path : String → Option String
  metadata : String → Option MetadataRecord
  dupes : String → Option (List String)

/-- What the lookups of a store give. -/
def AssetStore.view (s : AssetStore) : TableMap where
  assets id := s.tables.assets.lookup id
  by_path path := s.by_path.lookup path
  metadata id := s.tables.metadata.lookup id
  dupes hash := s.dupes.lookup hash

namespace TableMap

variable (m : TableMap)

def ids (hash : String) : List String := (m.dupes hash).getD []

/-- A group as it is stored: an empty one is not. -/
def stored (ids : List String) : Option (List String) :=
  match ids with
  | [] => none
  | ids => some ids

def leave (id : String) (group : Option (List String)) : Option (List String) :=
  stored ((group.getD []).filter fun x => x != id)

def join (id : String) (group : Option (List String)) : Option (List String) :=
  if id ∈ group.getD [] then group else some (group.getD [] ++ [id])

def insert_id (random_hash : String) (data : AbstractData) : String :=
  (m.by_path (flush_path data)).getD random_hash

/-- The content hash that is stored for the path of an insert. -/
def stored_hash (data : AbstractData) : Option String :=
  ((m.by_path (flush_path data)).bind m.assets).bind fun record => record.content_hash

/-- One insert of `flush_tables`. -/
def insert (now : Int) (random_hash : String) (data : AbstractData) : TableMap where
  assets id :=
    if id = m.insert_id random_hash data then
      some (flush_record now (m.insert_id random_hash data) data)
    else m.assets id
  by_path path :=
    if path = flush_path data then some (m.insert_id random_hash data) else m.by_path path
  metadata id :=
    if id = m.insert_id random_hash data then some (to_metadata_record data) else m.metadata id
  dupes hash :=
    if hash = data.hash then join (m.insert_id random_hash data) (m.dupes hash)
    else if m.stored_hash data = some hash then leave (m.insert_id random_hash data) (m.dupes hash)
    else m.dupes hash

/-- `remove_asset_from_tables`. -/
def remove_asset (asset_id path content_hash : String) : TableMap where
  assets id := if id = asset_id then none else m.assets id
  by_path p := if p = path then none else m.by_path p
  metadata id := if id = asset_id then none else m.metadata id
  dupes hash := if hash = content_hash then leave asset_id (m.dupes hash) else m.dupes hash

/-- One turn of the loop over a duplicate group. -/
def remove_vanished (fs : Fs) (content_hash : String) (m : TableMap) (id : String) : TableMap :=
  match m.assets id with
  | some record =>
    if fs.exists_ (PathBuf.ofString record.path) then m
    else m.remove_asset id record.path content_hash
  | none => m

/-- One remove of `flush_tables`. -/
def remove (fs : Fs) (data : AbstractData) : TableMap :=
  if flush_path data = "" then (m.ids data.hash).foldl (remove_vanished fs data.hash) m
  else
    match m.by_path (flush_path data) with
    | some asset_id => m.remove_asset asset_id (flush_path data) data.hash
    | none => m

/-- One turn of the loops of `flush_tables`. -/
def flush (m : TableMap) : FlushItem → TableMap
  | .insert now random_hash data => m.insert now random_hash data
  | .remove fs data => m.remove fs data

end TableMap

/-! ## The view of the tables after an item -/

section View

variable {s : AssetStore}

theorem dupes_remove_from_dupe_group (hash id hash' : String) :
    (s.remove_from_dupe_group hash id).dupes.lookup hash' =
      if hash' = hash then TableMap.leave id (s.dupes.lookup hash') else s.dupes.lookup hash' := by
  by_cases heq : hash' = hash
  · subst heq
    show _ = if _ then TableMap.stored ((s.get_dupe_ids hash').filter fun x => x != id) else _
    rw [if_pos rfl, AssetStore.remove_from_dupe_group]
    cases (s.get_dupe_ids hash').filter fun x => x != id with
    | nil => exact AList.lookup_erase _ _
    | cons => exact AList.lookup_insert _
  · rw [if_neg heq, AssetStore.remove_from_dupe_group]
    split
    · exact AList.lookup_erase_ne heq
    · exact AList.lookup_insert_ne heq

theorem dupes_add_to_dupe_group (hash id hash' : String) :
    (s.add_to_dupe_group hash id).dupes.lookup hash' =
      if hash' = hash then TableMap.join id (s.dupes.lookup hash') else s.dupes.lookup hash' := by
  unfold AssetStore.add_to_dupe_group
  by_cases hmem : id ∈ s.get_dupe_ids hash
  · rw [if_pos hmem]
    split
    · rename_i heq
      subst heq
      exact (if_pos hmem).symm
    · rfl
  · rw [if_neg hmem, Table.lookup_insert]
    split
    · rename_i heq
      subst heq
      exact (if_neg hmem).symm
    · rfl

/-- The id leaves the group of the old hash unless that is the new one, and joins the group of the
new. -/
theorem dupes_flush_insert (now : Int) (random_hash : String) (data : AbstractData)
    (hash : String) :
    (flush_insert now random_hash data s).dupes.lookup hash =
      if hash = data.hash then
        TableMap.join (flush_id random_hash data s) (s.dupes.lookup hash)
      else if old_hash data s = some hash then
        TableMap.leave (flush_id random_hash data s) (s.dupes.lookup hash)
      else s.dupes.lookup hash := by
  simp only [flush_insert, dupes_add_to_dupe_group]
  change (if hash = data.hash then
      TableMap.join _ ((match old_hash data s with | some old => _ | none => _ :
        AssetStore).dupes.lookup hash)
    else (match old_hash data s with | some old => _ | none => _ :
        AssetStore).dupes.lookup hash) = _
  cases hold : old_hash data s with
  | none => rfl
  | some old =>
    by_cases hchanged : old = data.hash
    · simp only [hchanged, ne_eq, not_true_eq_false, if_false]
      split
      · rfl
      · rename_i hne
        rw [if_neg fun h => hne (Option.some.inj h).symm]
        rfl
    · simp only [ne_eq, hchanged, not_false_eq_true, if_true, dupes_remove_from_dupe_group]
      split
      · rename_i heq
        rw [if_neg fun h => hchanged (h.symm.trans heq)]
        rfl
      · by_cases hin : hash = old
        · rw [if_pos hin, if_pos (congrArg some hin.symm)]
          rfl
        · rw [if_neg hin, if_neg fun h => hin (Option.some.inj h).symm]
          rfl

theorem view_flush_insert (now : Int) (random_hash : String) (data : AbstractData) :
    (flush_insert now random_hash data s).view = s.view.insert now random_hash data := by
  ext1
  · funext id
    show (flush_insert now random_hash data s).tables.assets.lookup id = _
    rw [tables_flush_insert, Table.lookup_insert]
    rfl
  · funext path
    show (flush_insert now random_hash data s).by_path.lookup path = _
    rw [by_path_flush_insert, Table.lookup_insert]
    rfl
  · funext id
    show (flush_insert now random_hash data s).tables.metadata.lookup id = _
    rw [tables_flush_insert, Table.lookup_insert]
    rfl
  · funext hash
    exact dupes_flush_insert now random_hash data hash

theorem view_remove_asset_from_tables (asset_id path content_hash : String) :
    (remove_asset_from_tables asset_id path content_hash s).view =
      s.view.remove_asset asset_id path content_hash := by
  ext1
  · funext id
    show (remove_asset_from_tables asset_id path content_hash s).tables.assets.lookup id = _
    rw [tables_remove_asset_from_tables, Table.lookup_erase]
    rfl
  · funext p
    show (remove_asset_from_tables asset_id path content_hash s).by_path.lookup p = _
    rw [by_path_remove_asset_from_tables, Table.lookup_erase]
    rfl
  · funext id
    show (remove_asset_from_tables asset_id path content_hash s).tables.metadata.lookup id = _
    rw [tables_remove_asset_from_tables, Table.lookup_erase]
    rfl
  · funext hash
    exact dupes_remove_from_dupe_group content_hash asset_id hash

theorem view_remove_if_vanished (fs : Fs) (content_hash id : String) :
    (remove_if_vanished fs content_hash s id).view =
      s.view.remove_vanished fs content_hash id := by
  unfold remove_if_vanished TableMap.remove_vanished
  change _ = match s.get_asset_by_id id with
    | some record => if fs.exists_ (PathBuf.ofString record.path) then s.view
      else s.view.remove_asset id record.path content_hash
    | none => s.view
  cases s.get_asset_by_id id with
  | none => rfl
  | some record =>
    show (if _ then s else _ : AssetStore).view = if _ then s.view else _
    split
    · rfl
    · exact view_remove_asset_from_tables id record.path content_hash

theorem view_flush_remove (fs : Fs) (data : AbstractData) :
    (flush_remove fs data s).view = s.view.remove fs data := by
  unfold flush_remove TableMap.remove
  split
  · change _ = (s.get_dupe_ids data.hash).foldl (TableMap.remove_vanished fs data.hash) s.view
    induction s.get_dupe_ids data.hash generalizing s with
    | nil => rfl
    | cons id ids ih => rw [List.foldl_cons, List.foldl_cons, ih, view_remove_if_vanished]
  · change _ = match s.get_asset_id_by_path (flush_path data) with
      | some asset_id => s.view.remove_asset asset_id (flush_path data) data.hash
      | none => s.view
    cases s.get_asset_id_by_path (flush_path data) with
    | none => rfl
    | some asset_id => exact view_remove_asset_from_tables asset_id _ data.hash

/-- An item does to the view what it does to the tables. -/
theorem view_flush (x : FlushItem) : (x.flush s).view = s.view.flush x := by
  cases x with
  | insert now random_hash data => exact view_flush_insert now random_hash data
  | remove fs data => exact view_flush_remove fs data

theorem view_run_flush (items : List FlushItem) :
    (LTS.run FlushItem.flush s items).view = LTS.run TableMap.flush s.view items := by
  induction items generalizing s with
  | nil => rfl
  | cons x items ih =>
    rw [LTS.run_cons, LTS.run_cons, ih]
    rw [show (FlushItem.flush s x).view = s.view.flush x from view_flush x]

end View

/-! ## Groups -/

namespace TableMap

theorem getD_stored (ids : List String) : (stored ids).getD [] = ids := by
  cases ids <;> rfl

theorem getD_leave (id : String) (g : Option (List String)) :
    (leave id g).getD [] = (g.getD []).filter fun x => x != id :=
  getD_stored _

theorem getD_join (id : String) (g : Option (List String)) :
    (join id g).getD [] = if id ∈ g.getD [] then g.getD [] else g.getD [] ++ [id] := by
  unfold join
  split
  · rfl
  · rfl

theorem leave_comm (a b : String) (g : Option (List String)) :
    leave a (leave b g) = leave b (leave a g) := by
  simp only [leave, getD_stored, List.filter_filter, Bool.and_comm]

theorem leave_join {a b : String} (hab : a ≠ b) (g : Option (List String)) :
    leave a (join b g) = join b (leave a g) := by
  have hb : (b ∈ (g.getD []).filter fun x => x != a) ↔ b ∈ g.getD [] := by
    simp [List.mem_filter, hab.symm]
  rw [leave, getD_join, join, getD_leave]
  by_cases hin : b ∈ g.getD []
  · rw [if_pos hin, if_pos (hb.mpr hin)]
    rfl
  · rw [if_neg hin, if_neg fun h => hin (hb.mp h)]
    simp [stored, hab.symm]

/-- Whether `id` joins or leaves does not show in the rest of the group. -/
theorem filter_join (id : String) (g : Option (List String)) :
    ((join id g).getD []).filter (fun x => x != id) = (g.getD []).filter fun x => x != id := by
  rw [getD_join]
  split
  · rfl
  · simp

theorem filter_leave (id : String) (g : Option (List String)) :
    ((leave id g).getD []).filter (fun x => x != id) = (g.getD []).filter fun x => x != id := by
  rw [getD_leave, List.filter_filter]
  simp

variable {m : TableMap} {now : Int} {random_hash : String} {data : AbstractData}

theorem filter_ids_insert (m : TableMap) (now : Int) (random_hash : String) (data : AbstractData)
    (hash : String) :
    ((m.insert now random_hash data).ids hash).filter
        (fun x => x != m.insert_id random_hash data) =
      (m.ids hash).filter fun x => x != m.insert_id random_hash data := by
  show List.filter _ (Option.getD (if _ then _ else if _ then _ else _) []) = _
  split
  · exact filter_join _ _
  · split
    · exact filter_leave _ _
    · rfl

variable {hash id : String} {fs : Fs}

/-- The other ids of a group are the ones that were there. -/
theorem mem_ids_of_insert (hid : id ∈ (m.insert now random_hash data).ids hash) :
    id ∈ m.ids hash ∨ (hash = data.hash ∧ id = m.insert_id random_hash data) := by
  change id ∈ Option.getD (if _ then _ else if _ then _ else _) [] at hid
  split at hid
  · rename_i heq
    rw [getD_join] at hid
    split at hid
    · exact Or.inl hid
    · rcases List.mem_append.mp hid with hold | hnew
      · exact Or.inl hold
      · exact Or.inr ⟨heq, List.mem_singleton.mp hnew⟩
  · split at hid
    · rw [getD_leave] at hid
      exact Or.inl (List.mem_filter.mp hid).1
    · exact Or.inl hid

theorem mem_ids_of_remove_asset {a p h : String}
    (hid : id ∈ (m.remove_asset a p h).ids hash) : id ∈ m.ids hash := by
  change id ∈ Option.getD (if _ then _ else _) [] at hid
  split at hid
  · rw [getD_leave] at hid
    exact (List.mem_filter.mp hid).1
  · exact hid

/-! ## An insert and the removal of another asset commute -/

theorem insert_id_remove_asset {a p h : String} (hp : flush_path data ≠ p) :
    (m.remove_asset a p h).insert_id random_hash data = m.insert_id random_hash data := by
  show ((if flush_path data = p then _ else _ : Option String)).getD _ = _
  rw [if_neg hp]
  rfl

theorem stored_hash_remove_asset {a p h : String} (hp : flush_path data ≠ p)
    (ha : a ≠ m.insert_id random_hash data) :
    (m.remove_asset a p h).stored_hash data = m.stored_hash data := by
  show ((if flush_path data = p then _ else m.by_path (flush_path data) : Option String).bind
    fun id => if id = a then none else m.assets id).bind _ = _
  rw [if_neg hp]
  unfold stored_hash
  cases hentry : m.by_path (flush_path data) with
  | none => rfl
  | some id =>
    have hid : id ≠ a := by
      rintro rfl
      apply ha
      rw [insert_id, hentry]
      rfl
    show ((if id = a then none else m.assets id)).bind _ = _
    rw [if_neg hid]
    rfl

/-- The asset that is removed is not the one that is inserted, and the path that is removed is not
the one of the insert. -/
theorem insert_remove_asset {a p h : String} (hp : flush_path data ≠ p)
    (ha : a ≠ m.insert_id random_hash data) :
    (m.remove_asset a p h).insert now random_hash data =
      (m.insert now random_hash data).remove_asset a p h := by
  unfold insert
  rw [insert_id_remove_asset hp, stored_hash_remove_asset hp ha]
  ext1
  · exact funext fun _ => ite_ite_comm _ _ _ _ fun heq h => ha (h.symm.trans heq)
  · exact funext fun _ => ite_ite_comm _ _ _ _ fun heq h => hp (heq.symm.trans h)
  · exact funext fun _ => ite_ite_comm _ _ _ _ fun heq h => ha (h.symm.trans heq)
  · funext hash
    simp only [remove_asset]
    by_cases hh : hash = h
    · simp only [if_pos hh]
      split
      · exact (leave_join ha _).symm
      · split
        · exact leave_comm _ _ _
        · rfl
    · simp only [if_neg hh]

/-! ## An insert and a pathless remove commute -/

theorem assets_insert_ne (hid : id ≠ m.insert_id random_hash data) :
    (m.insert now random_hash data).assets id = m.assets id :=
  if_neg hid

theorem remove_vanished_cases (fs : Fs) (hash : String) (m : TableMap) (id : String) :
    remove_vanished fs hash m id = m ∨
      ∃ record, m.assets id = some record ∧ ¬ fs.exists_ (PathBuf.ofString record.path) ∧
        remove_vanished fs hash m id = m.remove_asset id record.path hash := by
  unfold remove_vanished
  cases hrow : m.assets id with
  | none => exact Or.inl rfl
  | some record =>
    by_cases hex : fs.exists_ (PathBuf.ofString record.path)
    · exact Or.inl (if_pos hex)
    · exact Or.inr ⟨record, rfl, hex, if_neg hex⟩

theorem assets_of_remove_vanished {id' : String} {record : AssetRecord}
    (hrow : (remove_vanished fs hash m id).assets id' = some record) :
    m.assets id' = some record := by
  rcases remove_vanished_cases fs hash m id with heq | ⟨old, -, -, heq⟩
  · rwa [heq] at hrow
  · rw [heq] at hrow
    exact (Option.ite_none_left_eq_some.mp hrow).2

theorem remove_vanished_eq_self
    (hid : ∀ record, m.assets id = some record → fs.exists_ (PathBuf.ofString record.path)) :
    remove_vanished fs hash m id = m := by
  rcases remove_vanished_cases fs hash m id with heq | ⟨record, hrow, hex, -⟩
  · exact heq
  · exact absurd (hid record hrow) hex

theorem foldl_remove_vanished_skip {ids : List String}
    (hid : id ∈ ids → ∀ record, m.assets id = some record →
      fs.exists_ (PathBuf.ofString record.path)) :
    ids.foldl (remove_vanished fs hash) m =
      (ids.filter fun x => x != id).foldl (remove_vanished fs hash) m := by
  induction ids generalizing m with
  | nil => rfl
  | cons x ids ih =>
    have hrest := fun hmem => hid (List.mem_cons_of_mem x hmem)
    by_cases hx : x = id
    · subst hx
      rw [List.foldl_cons, remove_vanished_eq_self (hid List.mem_cons_self), ih hrest]
      simp
    · rw [List.filter_cons_of_pos (by simpa using hx), List.foldl_cons, List.foldl_cons]
      exact ih fun hmem record hrow => hrest hmem record (assets_of_remove_vanished hrow)

/-- The assets with the path of the insert have a file, so a turn removes none of them. -/
theorem insert_remove_vanished (now : Int) (hash : String) (hid : id ≠ m.insert_id random_hash data)
    (hpath : ∀ record, m.assets id = some record → record.path = flush_path data →
      fs.exists_ (PathBuf.ofString record.path)) :
    (remove_vanished fs hash m id).insert now random_hash data =
        remove_vanished fs hash (m.insert now random_hash data) id ∧
      (remove_vanished fs hash m id).insert_id random_hash data =
        m.insert_id random_hash data := by
  have hrow : (m.insert now random_hash data).assets id = m.assets id := assets_insert_ne hid
  unfold remove_vanished
  rw [hrow]
  cases hasset : m.assets id with
  | none => exact ⟨rfl, rfl⟩
  | some record =>
    by_cases hex : fs.exists_ (PathBuf.ofString record.path)
    · simp only [if_pos hex, and_self]
    · simp only [if_neg hex]
      have hne : flush_path data ≠ record.path := fun h => hex (hpath record hasset h.symm)
      exact ⟨insert_remove_asset hne hid, insert_id_remove_asset hne⟩

theorem insert_foldl_remove_vanished {ids : List String}
    (hids : ∀ id ∈ ids, id ≠ m.insert_id random_hash data)
    (hpath : ∀ id ∈ ids, ∀ record, m.assets id = some record → record.path = flush_path data →
      fs.exists_ (PathBuf.ofString record.path)) :
    (ids.foldl (remove_vanished fs hash) m).insert now random_hash data =
      ids.foldl (remove_vanished fs hash) (m.insert now random_hash data) := by
  induction ids generalizing m with
  | nil => rfl
  | cons id ids ih =>
    have hswap := insert_remove_vanished now hash (hids id List.mem_cons_self)
      (hpath id List.mem_cons_self)
    rw [List.foldl_cons, List.foldl_cons, ← hswap.1]
    apply ih
    · intro id' hid'
      rw [hswap.2]
      exact hids id' (List.mem_cons_of_mem id hid')
    · intro id' hid' record hrow
      exact hpath id' (List.mem_cons_of_mem id hid') record (assets_of_remove_vanished hrow)

end TableMap
