import Picasu.Process.XmpWrite

/-! # Reading Back What Was Stored

A commit leaves a payload in the cache and a packet in the sidecar; the next index of the file
reads the packet. The writer drops characters and empty values, the reader trims and drops blanks,
and the cache keeps the value as it came. So the two agree exactly for values that the filters
leave alone.

One request may hold several items with one sidecar, and then the last one is what a reader finds.
`Final` items are those whose payload is the one the cache keeps.
-/

open PathBuf Text

variable {kit : Xmpkit} {σ : Type}

/-! ## The last write of a field -/

def is_album : AbstractData → Bool
  | .album _ => true
  | _ => false

/-- What a reader finds at `q` after the items were written one by one. -/
def written_views (q : PathBuf) (items : List EditedItem) (before : XmpData) : XmpData :=
  items.foldl (fun view item =>
    if sidecar_path item.data = some q then written_view item.data view else view) before

variable {items : List EditedItem} {q : PathBuf} {γ : Type} {item : EditedItem} {s : String}
  {tags : Finset String}

theorem read_sidecar_write_phase (hkit : kit.RoundTrips) {unreadable : Nat → Option String}
    {faults : Nat → SidecarFaults} {n : Nat}
    {applied : List (SidecarBackup ByteArray)} {s after : CommitState ByteArray σ} (hq : Lasting q)
    (h : write_phase (SidecarIo.xmp kit unreadable faults) n items applied s = (.ok (), after)) :
    read_sidecar kit after.files q = written_views q items (read_sidecar kit s.files q) := by
  induction items generalizing n applied s with
  | nil =>
    cases h
    rfl
  | cons item items ih =>
    have hcons : ∀ before, written_views q (item :: items) before =
        written_views q items
          (if sidecar_path item.data = some q then written_view item.data before else before) :=
      fun before => rfl
    unfold write_phase at h
    split at h
    · cases h
    · rename_i hcapture
      have hnone : sidecar_path item.data ≠ some q := by
        rw [capture_eq_ok_none hcapture]
        exact nofun
      rw [ih h, hcons, if_neg hnone]
    · rename_i backup hcapture
      obtain ⟨hpath, -⟩ := capture_eq_ok hcapture
      split at h
      · cases h
      rename_i files hwrite
      rw [ih h, hcons, hpath]
      by_cases hsame : backup.path = q
      · subst hsame
        rw [if_pos rfl, read_sidecar_write_sidecar_for hkit hpath hwrite]
      · have hother := write_sidecar_for_other hpath hwrite q hq (Ne.symm hsame)
        rw [if_neg fun heq => hsame (Option.some.inj heq)]
        exact congrArg _ (read_sidecar_congr hother)

theorem exists_last {α : Type} {P : α → Prop} {xs : List α} (h : ∃ x ∈ xs, P x) :
    ∃ before x rest, xs = before ++ x :: rest ∧ P x ∧ ∀ y ∈ rest, ¬ P y := by
  induction xs with
  | nil =>
    obtain ⟨x, hx, -⟩ := h
    cases hx
  | cons x xs ih =>
    by_cases hlater : ∃ y ∈ xs, P y
    · obtain ⟨before, y, rest, rfl, hy, hrest⟩ := ih hlater
      exact ⟨x :: before, y, rest, rfl, hy, hrest⟩
    · obtain ⟨y, hy, hPy⟩ := h
      rcases List.mem_cons.mp hy with rfl | hy
      · exact ⟨[], y, xs, rfl, hPy, fun z hz hPz => hlater ⟨z, hz, hPz⟩⟩
      · exact absurd ⟨y, hy, hPy⟩ hlater

/-- A field that only some items set has the value the last of them set. -/
theorem field_written_views (field : XmpData → γ) (sets : Bool → Bool) (value : AbstractData → γ)
    (hfield : ∀ data view, field (written_view data view) =
      if sets (is_album data) then value data else field view) {before rest : List EditedItem}
    (hitem : sidecar_path item.data = some q ∧ sets (is_album item.data))
    (hlast : ∀ later ∈ rest, ¬ (sidecar_path later.data = some q ∧ sets (is_album later.data)))
    (view : XmpData) : field (written_views q (before ++ item :: rest) view) = value item.data := by
  have hrest : ∀ view, field (written_views q rest view) = field view := by
    induction rest with
    | nil => exact fun view => rfl
    | cons later rest ih =>
      intro view
      have hlater := hlast later List.mem_cons_self
      show field (written_views q rest
        (if sidecar_path later.data = some q then written_view later.data view else view)) = field view
      rw [ih fun y hy => hlast y (List.mem_cons_of_mem _ hy)]
      split
      · rename_i hpath
        rw [hfield, if_neg fun hset => hlater ⟨hpath, hset⟩]
      · rfl
  unfold written_views
  rw [List.foldl_append, List.foldl_cons, if_pos hitem.1]
  show field (written_views q rest _) = value item.data
  rw [hrest, hfield, if_pos hitem.2]

/-! ## Values the filters leave alone -/

/-- The values the endpoints accept. -/
structure Accepted (nfc : String → String) (data : AbstractData) : Prop where
  tags : ∀ tag ∈ data.tag, tag ≠ "" ∧ ∃ s, tag = sanitize_tag nfc s
  description : ∀ text, data.description = some text → ∃ s, text = sanitize_text nfc s
  rating : ∀ r, data.rating = some r → r ≤ 5

/-- A non-empty text without white space at its ends and without characters the writer drops. -/
def KeptText (text : String) : Prop :=
  text ≠ "" ∧ trim text = text ∧ ∀ c ∈ text.toList, is_valid_xml_char c

/-- The fields of an item that come back as they were stored. -/
structure Canonical (data : AbstractData) : Prop where
  tags : ∀ tag ∈ data.tag, trim tag = tag
  description : ∀ text, data.description = some text → KeptText text
  title : ∀ album, data = .album album →
    ∀ title, album.metadata.custom_title = some title → KeptText title

theorem sanitize_value_eq_self : sanitize_value s = s ↔ ∀ c ∈ s.toList, is_valid_xml_char c := by
  unfold sanitize_value
  rw [← String.toList_inj, String.toList_ofList, List.filter_eq_self]

theorem valid_of_mem_trim_sanitize :
    ∀ c ∈ (trim (sanitize_value s)).toList, is_valid_xml_char c := by
  intro c hc
  rw [toList_trim] at hc
  have hmem := (List.dropWhile_suffix _).mem ((List.rdropWhile_prefix _ _).mem hc)
  unfold sanitize_value at hmem
  rw [String.toList_ofList] at hmem
  exact (List.mem_filter.mp hmem).2

theorem alt_value_some (text : String) :
    alt_value (some text) =
      if sanitize_value text = "" then none else some (.array [.string (sanitize_value text)]) := by
  unfold alt_value
  rw [Option.map_some, Option.filter_some]
  by_cases hempty : sanitize_value text = ""
  · simp [hempty]
  · simp [hempty]

theorem text_from_property_text (s : String) :
    text_from_property (some (.array [.string s])) = if trim s = "" then none else some (trim s) := by
  show (some (trim s)).filter (fun text => text != "") = _
  rw [Option.filter_some]
  by_cases hblank : trim s = ""
  · simp [hblank]
  · simp [hblank]

/-- A text property is read back as it was given exactly when there is none or the filters leave it
alone. -/
theorem text_from_alt_value (value : Option String) :
    text_from_property (alt_value value) = value ↔ ∀ text, value = some text → KeptText text := by
  cases value with
  | none => simp [alt_value, text_from_property]
  | some text =>
    have hread : text_from_property (alt_value (some text)) =
        if trim (sanitize_value text) = "" then none else some (trim (sanitize_value text)) := by
      rw [alt_value_some]
      split
      · rename_i hempty
        have hblank : trim "" = "" := by decide +kernel
        rw [hempty, hblank]
        rfl
      · exact text_from_property_text _
    rw [hread]
    constructor
    · intro h text' htext
      obtain rfl := Option.some.inj htext
      split at h
      · cases h
      rename_i hblank
      have hsame := Option.some.inj h
      refine ⟨fun hempty => hblank (hsame.trans hempty), ?_, ?_⟩
      · rw [← hsame, trim_trim]
      · rw [← hsame]
        exact valid_of_mem_trim_sanitize
    · intro h
      obtain ⟨hne, htrim, hvalid⟩ := h text rfl
      rw [sanitize_value_eq_self.mpr hvalid, htrim, if_neg hne]

theorem mem_subject_items {x : String} :
    x ∈ subject_items tags ↔ x ≠ "" ∧ ∃ tag ∈ tags, sanitize_value tag = x := by
  unfold subject_items
  simp [Multiset.mem_sort, and_comm]

theorem mem_tags_from_subject_value {x : String} :
    x ∈ tags_from_subject (subject_value tags) ↔
      x ≠ "" ∧ ∃ tag ∈ tags, trim (sanitize_value tag) = x := by
  have hitems : tags_from_subject (subject_value tags) =
      ((subject_items tags).filterMap tag_of_text).toFinset := by
    unfold subject_value
    split
    · rename_i hempty
      rw [hempty]
      rfl
    · show (((subject_items tags).map XmpValue.string).filterMap _).toFinset = _
      rw [List.filterMap_map]
      rfl
  have hblank : trim "" = "" := by decide +kernel
  rw [hitems, List.mem_toFinset, List.mem_filterMap]
  unfold tag_of_text
  constructor
  · rintro ⟨item, hitem, hx⟩
    split at hx
    · cases hx
    rename_i hne
    obtain rfl := Option.some.inj hx
    obtain ⟨-, tag, htag, rfl⟩ := mem_subject_items.mp hitem
    exact ⟨hne, tag, htag, rfl⟩
  · rintro ⟨hne, tag, htag, rfl⟩
    refine ⟨sanitize_value tag, mem_subject_items.mpr ⟨?_, tag, htag, rfl⟩, by rw [if_neg hne]⟩
    intro hempty
    rw [hempty] at hne
    exact hne hblank

/-- Tags that the writer leaves alone are read back exactly when none of them has white space at its
ends. -/
theorem tags_from_subject_value (htags : ∀ tag ∈ tags, tag ≠ "" ∧ sanitize_value tag = tag) :
    tags_from_subject (subject_value tags) = tags ↔ ∀ tag ∈ tags, trim tag = tag := by
  constructor
  · intro h tag htag
    rw [← h] at htag
    obtain ⟨-, other, -, rfl⟩ := mem_tags_from_subject_value.mp htag
    exact trim_trim _
  · intro h
    ext x
    rw [mem_tags_from_subject_value]
    constructor
    · rintro ⟨-, tag, htag, rfl⟩
      rwa [(htags tag htag).2, h tag htag]
    · intro hx
      exact ⟨(htags x hx).1, x, hx, by rw [(htags x hx).2, h x hx]⟩

theorem rating_from_toString {rating : Option Nat} (h : ∀ r, rating = some r → r ≤ 5) :
    rating_from_property (rating.map fun r => .string (toString r)) = rating := by
  cases rating with
  | none => rfl
  | some r =>
    have hr : r ≤ 5 := h r rfl
    have hall : ∀ r < 6, rating_from_property (some (.string (toString r))) = some r := by
      decide +kernel
    exact hall r (by omega)

theorem sanitize_value_of_filter {p : Char → Bool} (hp : ∀ c, p c → is_valid_xml_char c) :
    sanitize_value (String.ofList (s.toList.filter p)) = String.ofList (s.toList.filter p) := by
  rw [sanitize_value_eq_self, String.toList_ofList]
  intro c hc
  exact hp c (List.mem_filter.mp hc).2

/-! ## The stored fields and the ones read back -/

def stored_fields (data : AbstractData) : Finset String × Option String × Option Nat × Bool :=
  (data.tag, data.description, data.rating, data.is_trashed)

/-- The same fields of a view. -/
def read_fields (view : XmpData) : Finset String × Option String × Option Nat × Bool :=
  (view.tags, view.description, view.rating, view.trashed)

/-- The fields that come back when `fields` were stored. -/
def fields_back (fields : Finset String × Option String × Option Nat × Bool) :
    Finset String × Option String × Option Nat × Bool :=
  (tags_from_subject (subject_value fields.1), text_from_property (alt_value fields.2.1),
    rating_from_property (fields.2.2.1.map fun r => .string (toString r)), fields.2.2.2)

def stored_title : AbstractData → Option String
  | .album album => album.metadata.custom_title
  | _ => none

/-- What a reader finds is what is stored. -/
structure Reproduces (view : XmpData) (data : AbstractData) : Prop where
  tags : view.tags = data.tag
  description : view.description = data.description
  rating : view.rating = data.rating
  trashed : view.trashed = data.is_trashed
  title : ∀ album, data = .album album → view.title = album.metadata.custom_title

/-- Two items agree on what they store in a sidecar that both write. -/
structure Agree (a b : AbstractData) : Prop where
  tags : a.tag = b.tag
  description : a.description = b.description
  rating : a.rating = b.rating
  trashed : a.is_trashed = b.is_trashed
  title : ∀ x y, a = .album x → b = .album y → x.metadata.custom_title = y.metadata.custom_title

theorem reproduces_iff {view : XmpData} {data : AbstractData} :
    Reproduces view data ↔
      read_fields view = stored_fields data ∧ (is_album data → view.title = stored_title data) := by
  constructor
  · intro h
    refine ⟨?_, fun halbum => ?_⟩
    · unfold read_fields stored_fields
      rw [h.tags, h.description, h.rating, h.trashed]
    · cases data with
      | album alb => exact h.title alb rfl
      | image img | video vid => cases halbum
  · rintro ⟨hfields, htitle⟩
    simp only [read_fields, stored_fields, Prod.mk.injEq] at hfields
    refine ⟨hfields.1, hfields.2.1, hfields.2.2.1, hfields.2.2.2, ?_⟩
    rintro album rfl
    exact htitle rfl

theorem agree_iff {a b : AbstractData} :
    Agree a b ↔ stored_fields a = stored_fields b ∧
      (is_album a → is_album b → stored_title a = stored_title b) := by
  constructor
  · intro h
    refine ⟨?_, fun ha hb => ?_⟩
    · unfold stored_fields
      rw [h.tags, h.description, h.rating, h.trashed]
    · cases a <;> cases b <;> first | exact h.title _ _ rfl rfl | contradiction
  · rintro ⟨hfields, htitle⟩
    simp only [stored_fields, Prod.mk.injEq] at hfields
    refine ⟨hfields.1, hfields.2.1, hfields.2.2.1, hfields.2.2.2, ?_⟩
    rintro x y rfl rfl
    exact htitle rfl rfl

theorem canonical_iff {nfc : String → String} {data : AbstractData} (h : Accepted nfc data) :
    Canonical data ↔ fields_back (stored_fields data) = stored_fields data ∧
      (is_album data → text_from_property (alt_value (stored_title data)) = stored_title data) := by
  have htags : ∀ tag ∈ data.tag, tag ≠ "" ∧ sanitize_value tag = tag := by
    intro tag htag
    obtain ⟨hne, s, rfl⟩ := h.tags tag htag
    refine ⟨hne, sanitize_value_of_filter fun c hc => ?_⟩
    simp only [Bool.and_eq_true] at hc
    exact hc.1.1
  have hfields : fields_back (stored_fields data) = stored_fields data ↔
      (∀ tag ∈ data.tag, trim tag = tag) ∧
        ∀ text, data.description = some text → KeptText text := by
    unfold fields_back stored_fields
    simp only [Prod.mk.injEq, rating_from_toString h.rating, and_true]
    rw [tags_from_subject_value htags, text_from_alt_value]
  rw [hfields]
  constructor
  · intro hc
    refine ⟨⟨hc.tags, hc.description⟩, fun halbum => ?_⟩
    rw [text_from_alt_value]
    cases data with
    | album alb => exact hc.title alb rfl
    | image img | video vid => cases halbum
  · rintro ⟨⟨hctags, hcdescription⟩, htitle⟩
    refine ⟨hctags, hcdescription, ?_⟩
    rintro album rfl
    exact (text_from_alt_value _).mp (htitle rfl)

/-! ## What the last write leaves -/

/-- The items whose payload is the one the cache keeps: no later item of the request is about the
same asset. -/
def Final (items : List EditedItem) (item : EditedItem) : Prop :=
  ∃ before rest, items = before ++ item :: rest ∧ ∀ later ∈ rest, later.asset_id ≠ item.asset_id

/-- Items with one identifier are views of one asset. -/
def OneAssetPerId (items : List EditedItem) : Prop :=
  ∀ a ∈ items, ∀ b ∈ items, a.asset_id = b.asset_id →
    sidecar_path a.data = sidecar_path b.data ∧ is_album a.data = is_album b.data

/-- Writers of one field: the value of the last one, filtered, is what each of them stored, exactly
when no filter changes what they stored and they stored the same. -/
theorem last_write_iff {α : Type} {writes : α → Prop} (stored : α → γ) (back : γ → γ) {last : α}
    (hlast : writes last) :
    (∀ a, writes a → back (stored last) = stored a) ↔
      (∀ a, writes a → back (stored a) = stored a) ∧
        ∀ a b, writes a → writes b → stored a = stored b := by
  constructor
  · intro h
    have hsame : ∀ a, writes a → stored a = stored last := by
      intro a ha
      rw [← h a ha, h last hlast]
    refine ⟨fun a ha => ?_, fun a b ha hb => (hsame a ha).trans (hsame b hb).symm⟩
    rw [hsame a ha]
    exact h last hlast
  · rintro ⟨hback, hagree⟩ a ha
    rw [hback last hlast]
    exact hagree last a hlast ha

/-- The last item that writes a field of a sidecar is final. -/
theorem final_of_last {before rest : List EditedItem}
    {sets : Bool → Bool} (hassets : OneAssetPerId items) (hitems : items = before ++ item :: rest)
    (hitem : sidecar_path item.data = some q ∧ sets (is_album item.data))
    (hlast : ∀ later ∈ rest, ¬ (sidecar_path later.data = some q ∧ sets (is_album later.data))) :
    Final items item := by
  refine ⟨before, rest, hitems, fun later hlater hid => hlast later hlater ?_⟩
  obtain ⟨hpath, hkind⟩ := hassets later (by simp [hitems, hlater]) item (by simp [hitems]) hid
  rwa [hpath, hkind]

theorem Final.mem (h : Final items item) :
    item ∈ items := by
  obtain ⟨before, rest, rfl, -⟩ := h
  simp

/-- One field of one sidecar, over a whole request: what is read is what every final item that sets
it stored, exactly when the filters change none of them and they agree. -/
theorem field_reproduced_iff (hassets : OneAssetPerId items)
    (field : XmpData → γ) (sets : Bool → Bool) (stored : AbstractData → γ) (back : γ → γ)
    (hfield : ∀ data view, field (written_view data view) =
      if sets (is_album data) then back (stored data) else field view) (q : PathBuf) (view : XmpData) :
    (∀ item, Final items item ∧ sidecar_path item.data = some q ∧ sets (is_album item.data) →
        field (written_views q items view) = stored item.data) ↔
      (∀ item, Final items item ∧ sidecar_path item.data = some q ∧ sets (is_album item.data) →
        back (stored item.data) = stored item.data) ∧
      ∀ a b, Final items a ∧ sidecar_path a.data = some q ∧ sets (is_album a.data) →
        Final items b ∧ sidecar_path b.data = some q ∧ sets (is_album b.data) →
        stored a.data = stored b.data := by
  by_cases hany : ∃ item ∈ items, sidecar_path item.data = some q ∧ sets (is_album item.data)
  · obtain ⟨before, last, rest, hitems, hwrites, hlast⟩ := exists_last hany
    have hfinal := final_of_last hassets hitems hwrites hlast
    have hread : field (written_views q items view) = back (stored last.data) := by
      rw [hitems]
      exact field_written_views field sets (fun data => back (stored data)) hfield hwrites hlast view
    rw [hread]
    exact last_write_iff (fun item : EditedItem => stored item.data) back ⟨hfinal, hwrites⟩
  · -- nobody writes this sidecar
    have hnone : ∀ item, ¬ (Final items item ∧ sidecar_path item.data = some q ∧
        sets (is_album item.data)) := fun item h => hany ⟨item, h.1.mem, h.2⟩
    constructor
    · exact fun _ => ⟨fun item h => absurd h (hnone item), fun a b h => absurd h (hnone a)⟩
    · exact fun _ item h => absurd h (hnone item)

/-! ## Reindexing -/

theorem read_fields_written_view (data : AbstractData) (view : XmpData) :
    read_fields (written_view data view) =
      if true then fields_back (stored_fields data) else read_fields view := rfl

theorem title_written_view (data : AbstractData) (view : XmpData) :
    (written_view data view).title =
      if is_album data then text_from_property (alt_value (stored_title data)) else view.title := by
  cases data <;> rfl

/-- After a successful commit, a reader finds in every sidecar what the cache keeps exactly when
every final item that has a sidecar holds values the filters leave alone, and final items with
one sidecar agree. -/
theorem reindex_reproduces_iff (hkit : kit.RoundTrips) (nfc : String → String)
    {unreadable : Nat → Option String} {faults : Nat → SidecarFaults}
    {store : String → AbstractData → σ → Except AppError Unit × σ} {items : List EditedItem}
    {s after : CommitState ByteArray σ} (haccepted : ∀ item ∈ items, Accepted nfc item.data)
    (hassets : OneAssetPerId items)
    (h : commit_metadata_edits kit unreadable faults store items s = (.ok (), after)) :
    (∀ item q, Final items item → sidecar_path item.data = some q →
        Reproduces (read_sidecar kit after.files q) item.data) ↔
      (∀ item, Final items item → (sidecar_path item.data).isSome → Canonical item.data) ∧
      ∀ a b, Final items a → Final items b → (sidecar_path a.data).isSome →
        sidecar_path a.data = sidecar_path b.data → Agree a.data b.data := by
  obtain ⟨written, hphase, hfiles⟩ := commit_with_eq_ok h
  have hview : ∀ (item : EditedItem) q, sidecar_path item.data = some q →
      read_sidecar kit after.files q = written_views q items (read_sidecar kit s.files q) := by
    intro item q hq
    have hread := read_sidecar_write_phase hkit (lasting_sidecar_path hq) hphase
    unfold read_sidecar at hread ⊢
    rw [hfiles]
    exact hread
  -- the fields of all items and the titles of albums, sidecar by sidecar
  have hfields := fun q => field_reproduced_iff hassets read_fields (fun _ => true) stored_fields
    fields_back read_fields_written_view q (read_sidecar kit s.files q)
  have htitles := fun q => field_reproduced_iff hassets XmpData.title (fun album => album)
    stored_title (fun title => text_from_property (alt_value title)) title_written_view q
    (read_sidecar kit s.files q)
  constructor
  · intro hreproduced
    have hparts : ∀ item q, Final items item → sidecar_path item.data = some q →
        read_fields (written_views q items (read_sidecar kit s.files q)) = stored_fields item.data ∧
        (is_album item.data →
          (written_views q items (read_sidecar kit s.files q)).title = stored_title item.data) := by
      intro item q hfinal hq
      rw [← hview item q hq]
      exact reproduces_iff.mp (hreproduced item q hfinal hq)
    have hfields' := fun q => (hfields q).mp fun item hi => (hparts item q hi.1 hi.2.1).1
    have htitles' := fun q => (htitles q).mp fun item hi => (hparts item q hi.1 hi.2.1).2 hi.2.2
    refine ⟨fun item hfinal hpath => ?_, fun a b ha hb hpath hsame => ?_⟩
    · obtain ⟨q, hq⟩ := Option.isSome_iff_exists.mp hpath
      rw [canonical_iff (haccepted item hfinal.mem)]
      exact ⟨(hfields' q).1 item ⟨hfinal, hq, rfl⟩,
        fun halbum => (htitles' q).1 item ⟨hfinal, hq, halbum⟩⟩
    · obtain ⟨q, hq⟩ := Option.isSome_iff_exists.mp hpath
      have hqb := hsame ▸ hq
      rw [agree_iff]
      exact ⟨(hfields' q).2 a b ⟨ha, hq, rfl⟩ ⟨hb, hqb, rfl⟩,
        fun haa hbb => (htitles' q).2 a b ⟨ha, hq, haa⟩ ⟨hb, hqb, hbb⟩⟩
  · rintro ⟨hcanonical, hagree⟩ item q hfinal hq
    have hback : ∀ i, Final items i → sidecar_path i.data = some q → _ :=
      fun i hi hiq => (canonical_iff (haccepted i hi.mem)).mp (hcanonical i hi (by simp [hiq]))
    have hsame : ∀ a b, Final items a → Final items b → sidecar_path a.data = some q →
        sidecar_path b.data = some q → _ :=
      fun a b ha hb haq hbq => agree_iff.mp (hagree a b ha hb (by simp [haq]) (haq.trans hbq.symm))
    rw [hview item q hq, reproduces_iff]
    constructor
    · exact (hfields q).mpr ⟨fun i hi => (hback i hi.1 hi.2.1).1,
        fun a b ha hb => (hsame a b ha.1 hb.1 ha.2.1 hb.2.1).1⟩ item ⟨hfinal, hq, rfl⟩
    · intro halbum
      exact (htitles q).mpr ⟨fun i hi => (hback i hi.1 hi.2.1).2 hi.2.2,
        fun a b ha hb => (hsame a b ha.1 hb.1 ha.2.1 hb.2.1).2 ha.2.2 hb.2.2⟩ item
        ⟨hfinal, hq, halbum⟩

/-- A description for one image. -/
def describe (file : String) (text : String) : EditedItem :=
  ⟨file, (imageAt file).set_description text, none⟩

/-- A tag, four stars and the trash for one image. -/
def discard (file : String) : EditedItem :=
  ⟨file, (((imageAt file).edit_tags fun _ => {"coast"}).set_rating (some 4)).set_trashed true, none⟩

theorem accepted_describe {file text : String} (h : text = sanitize_text id text) :
    Accepted id (describe file text).data where
  tags tag htag := absurd htag (Finset.notMem_empty tag)
  description text' htext := ⟨text, by rw [← h]; exact (Option.some.inj htext).symm⟩
  rating r hr := by cases hr

theorem accepted_discard (file : String) : Accepted id (discard file).data where
  tags tag htag := by
    obtain rfl := Finset.mem_singleton.mp htag
    exact ⟨by decide, "coast", by decide +kernel⟩
  description text htext := by cases htext
  rating r hr := by
    obtain rfl := Option.some.inj hr
    decide

/-- Two images in one request, with values that come back. -/
theorem reindex_reproduces_two_images :
    let items := [describe "/p/a.jpg" "shore", discard "/p/b.jpg"]
    let store := fun (_ : String) (_ : AbstractData) (db : Nat) =>
      ((.ok (), db + 1) : Except AppError Unit × Nat)
    let result := commit_metadata_edits rowKit (fun _ => none) (fun _ => {}) store items
      ⟨fun _ => none, 0, []⟩
    result.1 = .ok () ∧ ∀ item q, Final items item → sidecar_path item.data = some q →
      Reproduces (read_sidecar rowKit result.2.files q) item.data := by
  intro items store result
  have hok : result.1 = .ok () := by decide +kernel
  have haccepted : ∀ item ∈ items, Accepted id item.data := by
    simp only [items, List.mem_cons, List.not_mem_nil, or_false]
    rintro item (rfl | rfl)
    · exact accepted_describe (by decide +kernel)
    · exact accepted_discard _
  have hassets : OneAssetPerId items := by
    unfold OneAssetPerId
    decide +kernel
  have hcanonical : ∀ item ∈ items, fields_back (stored_fields item.data) = stored_fields item.data ∧
      is_album item.data = false := by decide +kernel
  have hapart : ∀ a ∈ items, ∀ b ∈ items, sidecar_path a.data = sidecar_path b.data →
      stored_fields a.data = stored_fields b.data := by decide +kernel
  refine ⟨hok, (reindex_reproduces_iff rowKit_roundTrips id haccepted hassets
    (Prod.ext hok rfl)).mpr ⟨fun item hfinal _ => ?_, fun a b ha hb _ hsame => ?_⟩⟩
  · obtain ⟨hback, halbum⟩ := hcanonical item hfinal.mem
    rw [canonical_iff (haccepted item hfinal.mem)]
    exact ⟨hback, fun h => by simp [halbum] at h⟩
  · rw [agree_iff]
    exact ⟨hapart a ha.mem b hb.mem hsame, fun h => by simp [(hcanonical a ha.mem).2] at h⟩

/-- The description " shore" is stored as it is, and read back without its blank. -/
theorem padded_description_lost :
    let item := describe "/p/a.jpg" " shore"
    let store := fun (_ : String) (_ : AbstractData) (db : Nat) =>
      ((.ok (), db + 1) : Except AppError Unit × Nat)
    let result := commit_metadata_edits rowKit (fun _ => none) (fun _ => {}) store [item]
      ⟨fun _ => none, 0, []⟩
    item.data.description = some (sanitize_text id " shore") ∧ result.1 = .ok () ∧
      sidecar_path item.data = some (ofString "/p/a.xmp") ∧
      ¬ Reproduces (read_sidecar rowKit result.2.files (ofString "/p/a.xmp")) item.data := by
  intro item store result
  have hread : (read_sidecar rowKit result.2.files (ofString "/p/a.xmp")).description =
      some "shore" := by decide +kernel
  refine ⟨by decide +kernel, by decide +kernel, by decide +kernel, fun h => ?_⟩
  have hsame := hread.symm.trans h.description
  exact absurd hsame (by decide +kernel)
