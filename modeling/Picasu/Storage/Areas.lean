import Picasu.Auth.Password
import Picasu.Framework.Disk
import Picasu.Storage.Files

/-! # Isolation of Personal Areas

`classify_path` mixes two ways to read a path: what exists is resolved by the file system, what
does not is cleaned on its text, and a path that exists in part is cut in two. On a file system
without links all of this agrees with one simple reading: clean the path, and look where it lies.

`InArea` is that reading. The rest follows from it: the directory that `users_dir_for` gives a
user, with everything below it, is that user's area; two users' areas are disjoint; and what
`write_gate` admits is never in an area of somebody else.
-/

open PathBuf

/-! ## The directory of a user -/

/-- `is_safe_segment`, for a given `nfkc` normalization. -/
def is_safe_segment (nfkc : String → String) (s : String) : Bool :=
  if s = "" ∨ s = "." ∨ s = ".." then false
  else
    let normalized := nfkc s
    if normalized.toList.contains '/' || normalized.toList.contains '\\' then false
    else if normalized = "." ∨ normalized = ".." then false
    else
      match ofString s with
      | [.normal _] =>
        if s.toList.any Text.is_control then false
        else !s.toList.any fun c => c ∈ ['/', '\\', '／', '＼', '∕', '⁄', '﹨']
      | _ => false

inductive UsersDirError where
  | disabled
  | invalidUser
  deriving DecidableEq, Repr

def users_dir_for (nfkc : String → String) (roots : Roots) (user_id : String) :
    Except UsersDirError PathBuf :=
  match roots.users_home with
  | none => .error .disabled
  | some root =>
    match validate_user_id user_id with
    | .error _ => .error .invalidUser
    | .ok canonical =>
      if is_safe_segment nfkc canonical then .ok (join root (ofString canonical))
      else .error .invalidUser

/-- `validate_path_roots`: the roots do not equal or nest. -/
def validate_path_roots (fs : Fs) (image_home users_home : Option PathBuf) : Except String Unit :=
  match image_home, users_home with
  | some img, some usr =>
    let img := canonicalize_if_exists fs img
    let usr := canonicalize_if_exists fs usr
    if img = usr ∨ starts_with img usr ∨ starts_with usr img then
      .error "users_home must not equal or be nested inside/outside image_home"
    else .ok ()
  | _, _ => .ok ()

/-! ## The areas -/

/-- Where a cleaned path lies. -/
inductive InArea (roots : Roots) (c : PathBuf) : PathClassification → Prop
  | usersRoot {root : PathBuf} (hroot : roots.users_home = some root) (h : c = clean_path root) :
      InArea roots c .usersRoot
  | personal {root : PathBuf} {owner : String} {rest : PathBuf}
      (hroot : roots.users_home = some root) (h : c = clean_path root ++ .normal owner :: rest) :
      InArea roots c (.personal owner)
  | isPublic {root : PathBuf} (hroot : roots.image_home = some root) (h : clean_path root <+: c) :
      InArea roots c .isPublic
  | outside (husers : ∀ root ∈ roots.users_home, ¬ clean_path root <+: c)
      (himage : ∀ root ∈ roots.image_home, ¬ clean_path root <+: c) : InArea roots c .outside

/-! ## Cleaning -/

def clean_step (out : PathBuf) : Component → PathBuf
  | .curDir => out
  | .parentDir => pop out
  | .rootDir => [.rootDir]
  | .normal name => out ++ [.normal name]

theorem clean_path_eq_foldl (p : PathBuf) : clean_path p = p.foldl clean_step [] := rfl

theorem pop_absolute (place : List String) :
    pop (Disk.absolute place) = Disk.absolute place.dropLast := by
  induction place using List.reverseRecOn with
  | nil => rfl
  | append_singleton place name _ =>
    have hlast : Disk.absolute (place ++ [name]) = Disk.absolute place ++ [.normal name] := by
      simp [Disk.absolute]
    unfold pop
    rw [hlast, parent_append_normal, List.dropLast_concat]
    rfl

theorem clean_step_absolute (place : List String) (comp : Component) :
    ∃ place', clean_step (Disk.absolute place) comp = Disk.absolute place' := by
  cases comp with
  | rootDir => exact ⟨[], rfl⟩
  | curDir => exact ⟨place, rfl⟩
  | parentDir => exact ⟨place.dropLast, pop_absolute place⟩
  | normal name => exact ⟨place ++ [name], by simp [clean_step, Disk.absolute]⟩

variable {p : PathBuf}

theorem clean_path_absolute (h : is_absolute p = true) :
    ∃ place, clean_path p = Disk.absolute place := by
  have hrun : ∀ (p : PathBuf) (place : List String),
      ∃ place', p.foldl clean_step (Disk.absolute place) = Disk.absolute place' := by
    intro p
    induction p with
    | nil => exact fun place => ⟨place, rfl⟩
    | cons comp p ih =>
      intro place
      obtain ⟨place', hstep⟩ := clean_step_absolute place comp
      rw [List.foldl_cons, hstep]
      exact ih place'
  cases p with
  | nil => cases h
  | cons comp p =>
    obtain rfl : comp = .rootDir := by simpa [is_absolute] using h
    rw [clean_path_eq_foldl]
    exact hrun p []

/-- Names at the end stay as they are. -/
theorem clean_path_append_names (p : PathBuf) (names : List String) :
    clean_path (p ++ names.map .normal) = clean_path p ++ names.map .normal := by
  rw [clean_path_eq_foldl, clean_path_eq_foldl, List.foldl_append]
  generalize p.foldl clean_step [] = out
  induction names generalizing out with
  | nil => simp
  | cons name names ih =>
    rw [List.map_cons, List.foldl_cons, ih]
    simp [clean_step]

/-! ## Resolving -/

/-- What the absence of links means: a path that exists leads where its text says. -/
def LinkFree (fs : Fs) : Prop :=
  ∀ p c, is_absolute p = true → fs.canonicalize p = some c → c = clean_path p

/-- The questions of the code, answered by a tree of directories and files. -/
def Disk.fs (d : Disk) (cwd : List String) : Fs where
  canonicalize := d.canonicalize cwd
  exists_ p := (d.canonicalize cwd p).isSome

/-- A walk follows the text of the path. -/
theorem Disk.walk_eq_clean_step (d : Disk) {place place' : List String} {comp : Component}
    (h : d.walk place comp = some place') :
    clean_step (absolute place) comp = absolute place' := by
  cases comp with
  | rootDir =>
    obtain rfl := Option.some.inj h
    rfl
  | curDir =>
    obtain ⟨-, hplace⟩ := Option.ite_none_right_eq_some.mp h
    obtain rfl := Option.some.inj hplace
    rfl
  | parentDir =>
    obtain ⟨-, hplace⟩ := Option.ite_none_right_eq_some.mp h
    obtain rfl := Option.some.inj hplace
    exact pop_absolute place
  | normal name =>
    obtain ⟨-, hplace⟩ := Option.ite_none_right_eq_some.mp h
    obtain rfl := Option.some.inj hplace
    simp [clean_step, absolute]

theorem Disk.linkFree_fs (d : Disk) (cwd : List String) : LinkFree (d.fs cwd) := by
  have hrun : ∀ (p : PathBuf) (place place' : List String),
      p.foldlM d.walk place = some place' → p.foldl clean_step (absolute place) = absolute place' := by
    intro p
    induction p with
    | nil =>
      intro place place' h
      obtain rfl := Option.some.inj h
      rfl
    | cons comp p ih =>
      intro place place' h
      rw [List.foldlM_cons] at h
      obtain ⟨next, hnext, hrest⟩ := Option.bind_eq_some_iff.mp h
      rw [List.foldl_cons, d.walk_eq_clean_step hnext]
      exact ih next place' hrest
  intro p c habs h
  cases p with
  | nil => cases habs
  | cons comp p =>
    obtain rfl : comp = .rootDir := by simpa [is_absolute] using habs
    -- the root starts the walk afresh, wherever the working directory is
    have hwalk : ((.rootDir :: p : PathBuf).foldlM d.walk cwd).map absolute = some c := h
    obtain ⟨place, hplace, rfl⟩ := Option.map_eq_some_iff.mp hwalk
    rw [List.foldlM_cons] at hplace
    rw [clean_path_eq_foldl]
    exact (hrun p [] place hplace).symm

/-- The loop only moves names from the path to the tail. -/
theorem longest_existing_append (fs : Fs) (rev : List Component) (tail : List String) :
    (longest_existing fs rev tail).1.reverse ++ (longest_existing fs rev tail).2.map .normal =
      rev.reverse ++ tail.map .normal := by
  induction rev generalizing tail with
  | nil => rfl
  | cons comp rest ih =>
    unfold longest_existing
    split
    · rfl
    cases comp with
    | normal name =>
      rw [ih]
      simp
    | rootDir => rfl
    | curDir => rfl
    | parentDir => rfl

theorem is_absolute_of_append_names {names : List String}
    (h : is_absolute (p ++ names.map .normal) = true) : is_absolute p = true := by
  cases p with
  | cons comp p => exact h
  | nil =>
    cases names with
    | nil => exact h
    | cons name names => simp [is_absolute] at h

/-- Without links, resolving an absolute path is cleaning it, whatever exists. -/
theorem canonicalize_if_exists_eq_clean_path {fs : Fs} (hfs : LinkFree fs)
    (habs : is_absolute p = true) : canonicalize_if_exists fs p = clean_path p := by
  unfold canonicalize_if_exists
  cases hfound : fs.canonicalize p with
  | some c => exact hfs p c habs hfound
  | none =>
    have hsplit := longest_existing_append fs p.reverse []
    simp only [List.reverse_reverse, List.map_nil, List.append_nil] at hsplit
    dsimp only
    -- the part that was looked up, and the names that were set aside
    generalize (longest_existing fs p.reverse []).1.reverse = base at hsplit ⊢
    generalize (longest_existing fs p.reverse []).2 = tail at hsplit ⊢
    have hbase : is_absolute base = true := by
      rw [← hsplit] at habs
      exact is_absolute_of_append_names habs
    have hresolved : (fs.canonicalize base).getD (clean_path base) = clean_path base := by
      cases hcan : fs.canonicalize base with
      | none => rfl
      | some c => exact hfs base c hbase hcan
    have hout : clean_path base ++ tail.map .normal = clean_path p := by
      rw [← hsplit, clean_path_append_names]
    obtain ⟨place, hplace⟩ := clean_path_absolute habs
    rw [hresolved, hout, hplace]
    rfl

/-! ## Classification -/

section Classification

variable {roots : Roots}

/-- What the results below assume of the configuration: a file system without links, and absolute
roots that `validate_path_roots` accepts. -/
structure Configured (roots : Roots) : Prop where
  linkFree : LinkFree roots.fs
  image_absolute : ∀ root ∈ roots.image_home, is_absolute root = true
  users_absolute : ∀ root ∈ roots.users_home, is_absolute root = true
  accepted : validate_path_roots roots.fs roots.image_home roots.users_home = .ok ()

variable {c : PathBuf}

theorem Configured.disjoint (h : Configured roots) {img usr : PathBuf}
    (himg : roots.image_home = some img) (husr : roots.users_home = some usr)
    (hbelow : clean_path usr <+: c) : ¬ clean_path img <+: c := by
  intro hbelow'
  have hacc := h.accepted
  simp only [validate_path_roots, himg, husr] at hacc
  rw [canonicalize_if_exists_eq_clean_path h.linkFree (h.image_absolute img himg),
    canonicalize_if_exists_eq_clean_path h.linkFree (h.users_absolute usr husr)] at hacc
  split at hacc
  · cases hacc
  rename_i hnest
  -- of two prefixes of one path, one is a prefix of the other
  apply hnest
  rcases List.prefix_or_prefix_of_prefix hbelow hbelow' with hle | hle
  · exact .inr (.inl (List.isPrefixOf_iff_prefix.mpr hle))
  · exact .inr (.inr (List.isPrefixOf_iff_prefix.mpr hle))

theorem strip_eq_some_iff {base rel : PathBuf} : strip c base = some rel ↔ c = base ++ rel := by
  unfold strip starts_with
  split
  · rename_i hpre
    obtain ⟨rest, rfl⟩ := List.isPrefixOf_iff_prefix.mp hpre
    simp [eq_comm]
  · rename_i hpre
    refine ⟨fun h => (by cases h), ?_⟩
    rintro rfl
    simp at hpre

/-- Below an absolute cleaned root there are only names. -/
theorem head_of_clean_below {root : PathBuf} {comp : Component} {rest : PathBuf}
    (hc : ∃ place, c = Disk.absolute place) (hroot : ∃ place, clean_path root = Disk.absolute place)
    (h : c = clean_path root ++ comp :: rest) : ∃ name, comp = .normal name := by
  obtain ⟨place, rfl⟩ := hc
  obtain ⟨place', hplace'⟩ := hroot
  rw [hplace'] at h
  have htail : place.map Component.normal = place'.map .normal ++ comp :: rest := by
    simpa [Disk.absolute] using h
  have hmem : comp ∈ place.map Component.normal := by
    rw [htail]
    simp
  obtain ⟨name, -, hname⟩ := List.mem_map.mp hmem
  exact ⟨name, hname.symm⟩

theorem InArea.unique (h : Configured roots) {k k' : PathClassification}
    (hk : InArea roots c k) (hk' : InArea roots c k') : k = k' := by
  have hnotroot : ∀ {usr usr' : PathBuf}, roots.users_home = some usr →
      roots.users_home = some usr' → ∀ {comp rest}, c = clean_path usr ++ comp :: rest →
      c ≠ clean_path usr' := by
    intro usr usr' husr husr' comp rest hc hc'
    obtain rfl : usr = usr' := Option.mem_unique husr husr'
    simp [hc] at hc'
  cases hk with
  | usersRoot hroot hc =>
    cases hk' with
    | usersRoot _ _ => rfl
    | personal hroot' hc' => exact absurd hc (hnotroot hroot' hroot hc')
    | isPublic hroot' hc' => exact absurd hc' (h.disjoint hroot' hroot ⟨[], by simp [hc]⟩)
    | outside husers _ => exact absurd ⟨[], by simp [hc]⟩ (husers _ hroot)
  | personal hroot hc =>
    cases hk' with
    | usersRoot hroot' hc' => exact absurd hc' (hnotroot hroot hroot' hc)
    | personal hroot' hc' =>
      obtain rfl := Option.mem_unique hroot hroot'
      rw [hc] at hc'
      have hhead := (List.cons.inj (List.append_cancel_left hc')).1
      rw [Component.normal.inj hhead]
    | isPublic hroot' hc' => exact absurd hc' (h.disjoint hroot' hroot ⟨_, hc.symm⟩)
    | outside husers _ => exact absurd ⟨_, hc.symm⟩ (husers _ hroot)
  | isPublic hroot hc =>
    cases hk' with
    | usersRoot hroot' hc' => exact absurd hc (h.disjoint hroot hroot' ⟨[], by simp [hc']⟩)
    | personal hroot' hc' => exact absurd hc (h.disjoint hroot hroot' ⟨_, hc'.symm⟩)
    | isPublic _ _ => rfl
    | outside _ himage => exact absurd hc (himage _ hroot)
  | outside husers himage =>
    cases hk' with
    | usersRoot hroot' hc' => exact absurd ⟨[], by simp [hc']⟩ (husers _ hroot')
    | personal hroot' hc' => exact absurd ⟨_, hc'.symm⟩ (husers _ hroot')
    | isPublic hroot' hc' => exact absurd hc' (himage _ hroot')
    | outside _ _ => rfl

/-- The classification says where the cleaned path lies. -/
theorem inArea_classify_path (h : Configured roots) {p : PathBuf} (habs : is_absolute p = true) :
    InArea roots (clean_path p) (classify_path roots p) := by
  have hp := canonicalize_if_exists_eq_clean_path h.linkFree habs
  have husers : roots.users_home.map (canonicalize_if_exists roots.fs) =
      roots.users_home.map clean_path := by
    apply Option.map_congr
    exact fun root hroot =>
      canonicalize_if_exists_eq_clean_path h.linkFree (h.users_absolute root hroot)
  have himage : roots.image_home.map (canonicalize_if_exists roots.fs) =
      roots.image_home.map clean_path := by
    apply Option.map_congr
    exact fun root hroot =>
      canonicalize_if_exists_eq_clean_path h.linkFree (h.image_absolute root hroot)
  simp only [classify_path, hp, husers, himage]
  split
  · rename_i seg rest hstrip
    obtain ⟨base, hbase, hrel⟩ := Option.bind_eq_some_iff.mp hstrip
    obtain ⟨root, hroot, rfl⟩ := Option.map_eq_some_iff.mp hbase
    exact .personal hroot (strip_eq_some_iff.mp hrel)
  · rename_i rel hrel hstrip
    obtain ⟨base, hbase, hrel'⟩ := Option.bind_eq_some_iff.mp hstrip
    obtain ⟨root, hroot, rfl⟩ := Option.map_eq_some_iff.mp hbase
    have hc := strip_eq_some_iff.mp hrel'
    -- nothing but a name can stand first below the root
    cases rel with
    | nil => exact .usersRoot hroot (by simpa using hc)
    | cons comp rest =>
      obtain ⟨name, rfl⟩ := head_of_clean_below (clean_path_absolute habs)
        (clean_path_absolute (h.users_absolute root hroot)) hc
      exact absurd rfl (hrel name rest)
  · rename_i hstrip
    have hnot : ∀ root ∈ roots.users_home, ¬ clean_path root <+: clean_path p := by
      rintro root hroot ⟨rel, hrel⟩
      have hfound : (roots.users_home.map clean_path).bind (strip (clean_path p)) = some rel :=
        Option.bind_eq_some_iff.mpr ⟨clean_path root, Option.map_eq_some_iff.mpr ⟨root, hroot, rfl⟩,
          strip_eq_some_iff.mpr hrel.symm⟩
      rw [hstrip] at hfound
      cases hfound
    cases hroot : roots.image_home with
    | none =>
      refine .outside hnot fun root hsome => ?_
      rw [hroot] at hsome
      cases hsome
    | some root =>
      dsimp only [Option.map_some]
      split
      · rename_i hpre
        exact .isPublic hroot (List.isPrefixOf_iff_prefix.mp hpre)
      · rename_i hpre
        refine .outside hnot fun root' hsome => ?_
        obtain rfl := Option.mem_unique hroot hsome
        exact fun hbelow => hpre (List.isPrefixOf_iff_prefix.mpr hbelow)

theorem classify_path_eq_iff (h : Configured roots) {p : PathBuf} (habs : is_absolute p = true)
    (k : PathClassification) : classify_path roots p = k ↔ InArea roots (clean_path p) k := by
  constructor
  · rintro rfl
    exact inArea_classify_path h habs
  · exact (inArea_classify_path h habs).unique h

end Classification

/-! ## Areas of users -/

section Owners

variable {roots : Roots} {nfkc : String → String}

theorem ofString_of_is_safe_segment {s : String} (h : is_safe_segment nfkc s = true) :
    ofString s = [.normal s] ∧ Plain (.normal s) := by
  simp only [is_safe_segment] at h
  split at h
  · cases h
  rename_i hdots
  split at h
  · cases h
  split at h
  · cases h
  split at h
  · split at h
    · cases h
    -- no separator, so the text is one piece
    have hsep : '/' ∉ s.toList := by
      intro hmem
      have hany : s.toList.any (fun c => c ∈ ['/', '\\', '／', '＼', '∕', '⁄', '﹨']) = true :=
        List.any_eq_true.mpr ⟨'/', hmem, by decide⟩
      rw [hany] at h
      cases h
    have hname : s.toList ∉ [[], ['.'], ['.', '.']] := by
      have hback : ∀ t : String, s.toList = t.toList → s = t := fun t => String.toList_inj.mp
      simp only [List.mem_cons, List.not_mem_nil, or_false]
      rintro (hs | hs | hs)
      · exact hdots (.inl (hback "" hs))
      · exact hdots (.inr (.inl (hback "." hs)))
      · exact hdots (.inr (.inr (hback ".." hs)))
    have hplain := plain_normal hname hsep
    have hdisplay : display [.normal s] = s := by simp [display, List.intercalate, Component.text]
    have hread : ofString (display [.normal s]) = [.normal s] :=
      ofString_display ⟨.inr (.inr hplain), by simp⟩
    rw [hdisplay] at hread
    exact ⟨hread, hplain⟩
  · cases h

variable {dir : PathBuf}

/-- The directory of a user is the one named after them in the users home. -/
theorem users_dir_for_ok {user_id : String} (h : users_dir_for nfkc roots user_id = .ok dir) :
    ∃ root owner, roots.users_home = some root ∧ validate_user_id user_id = .ok owner ∧
      dir = root ++ [.normal owner] := by
  unfold users_dir_for at h
  split at h
  · cases h
  rename_i root hroot
  split at h
  · cases h
  rename_i canonical hvalid
  split at h
  · rename_i hsafe
    obtain ⟨hread, hplain⟩ := ofString_of_is_safe_segment hsafe
    have hdir := Except.ok.inj h
    rw [hread, join_of_plain root (by simpa using hplain)] at hdir
    exact ⟨root, canonical, hroot, hvalid, hdir.symm⟩
  · cases h

theorem classify_path_users_dir (h : Configured roots) {user_id : String}
    (hdir : users_dir_for nfkc roots user_id = .ok dir) :
    ∃ owner, validate_user_id user_id = .ok owner ∧
      ∀ names : List String, classify_path roots (dir ++ names.map .normal) = .personal owner := by
  obtain ⟨root, owner, hroot, hvalid, rfl⟩ := users_dir_for_ok hdir
  refine ⟨owner, hvalid, fun names => ?_⟩
  have hnames :
      root ++ [.normal owner] ++ names.map .normal = root ++ (owner :: names).map .normal := by
    simp
  have habs : is_absolute (root ++ (owner :: names).map .normal) = true := by
    have hrootabs := h.users_absolute root hroot
    cases root with
    | nil => cases hrootabs
    | cons comp rest => exact hrootabs
  rw [hnames, classify_path_eq_iff h habs, clean_path_append_names]
  exact .personal hroot rfl

/-- A path below two users' directories: the users are the same. -/
theorem users_dirs_disjoint {id id' : String} {dir' c : PathBuf}
    (hdir : users_dir_for nfkc roots id = .ok dir) (hdir' : users_dir_for nfkc roots id' = .ok dir')
    (hbelow : clean_path dir <+: c) (hbelow' : clean_path dir' <+: c) :
    validate_user_id id = validate_user_id id' := by
  obtain ⟨root, owner, hroot, hvalid, rfl⟩ := users_dir_for_ok hdir
  obtain ⟨root', owner', hroot', hvalid', rfl⟩ := users_dir_for_ok hdir'
  obtain rfl := Option.mem_unique hroot hroot'
  have hclean : ∀ name, clean_path (root ++ [.normal name]) = clean_path root ++ [.normal name] :=
    fun name => clean_path_append_names root [name]
  rw [hclean] at hbelow hbelow'
  -- two prefixes of the same length are equal
  have hsame : clean_path root ++ [.normal owner] = clean_path root ++ [.normal owner'] :=
    (List.prefix_of_prefix_length_le hbelow hbelow' (by simp)).eq_of_length (by simp)
  have howner : owner = owner' := by simpa using hsame
  rw [hvalid, hvalid', howner]

theorem write_gate_path_ok {caller : String} {p : PathBuf}
    (h : write_gate_path roots caller (some p) = .ok ()) :
    classify_path roots p ≠ .usersRoot ∧
      ∀ owner, classify_path roots p = .personal owner → owner = caller := by
  simp only [write_gate_path] at h
  split at h
  · cases h
  · rename_i owner hpersonal
    split at h
    · rename_i howner
      rw [hpersonal]
      refine ⟨nofun, fun owner' hsame => ?_⟩
      rw [← PathClassification.personal.inj hsame]
      exact howner
    · cases h
  · rename_i hroot hpersonal
    exact ⟨hroot, fun owner hsome => absurd hsome (hpersonal owner)⟩

/-- An open write gate has checked every path it was given. -/
theorem write_gate_ok {caller : String} {source dest : Option PathBuf}
    (h : write_gate roots caller source dest = .ok ()) :
    write_gate_path roots caller source = .ok () ∧ write_gate_path roots caller dest = .ok () := by
  have hboth : ((write_gate_path roots caller source).bind fun _ =>
      write_gate_path roots caller dest) = .ok () := by
    unfold write_gate at h
    split at h
    · split at h
      · cases h
      · exact h
    · exact h
  cases hsource : write_gate_path roots caller source with
  | error e =>
    rw [hsource] at hboth
    cases hboth
  | ok u =>
    rw [hsource] at hboth
    exact ⟨rfl, hboth⟩

end Owners

/-! ## Isolation -/

/-- On a file system without links, with absolute roots that were accepted:

* every absolute path, whatever of it exists, is classified by where its
  cleaned form lies;
* the directory of an accepted user id, with everything below it, is
  personal to that user;
* the directories of different users have no path in common;
* an open write gate means that no path it was given lies at the users
  root or in the area of anybody but the caller. -/
theorem areas_isolated (nfkc : String → String) (disk : Disk) (cwd : List String)
    (image_home users_home : Option PathBuf)
    (himage : ∀ root ∈ image_home, is_absolute root = true)
    (husers : ∀ root ∈ users_home, is_absolute root = true)
    (haccepted : validate_path_roots (disk.fs cwd) image_home users_home = .ok ()) :
    let roots : Roots := { fs := disk.fs cwd, image_home, users_home }
    (∀ p, is_absolute p = true → ∀ k, classify_path roots p = k ↔ InArea roots (clean_path p) k) ∧
    (∀ id dir, users_dir_for nfkc roots id = .ok dir → ∃ owner, validate_user_id id = .ok owner ∧
      ∀ names : List String, classify_path roots (dir ++ names.map .normal) = .personal owner) ∧
    (∀ id id' dir dir', users_dir_for nfkc roots id = .ok dir →
      users_dir_for nfkc roots id' = .ok dir' → validate_user_id id ≠ validate_user_id id' →
      ∀ c, ¬ (clean_path dir <+: c ∧ clean_path dir' <+: c)) ∧
    (∀ caller source dest, (∀ p ∈ source, is_absolute p = true) → (∀ p ∈ dest, is_absolute p = true) →
      write_gate roots caller source dest = .ok () →
      ∀ p, source = some p ∨ dest = some p → ¬ InArea roots (clean_path p) .usersRoot ∧
        ∀ owner, InArea roots (clean_path p) (.personal owner) → owner = caller) := by
  intro roots
  have hconf : Configured roots := ⟨disk.linkFree_fs cwd, himage, husers, haccepted⟩
  refine ⟨fun p habs => classify_path_eq_iff hconf habs, fun id dir => classify_path_users_dir hconf,
    ?_, ?_⟩
  · rintro id id' dir dir' hdir hdir' hne c ⟨hbelow, hbelow'⟩
    exact hne (users_dirs_disjoint hdir hdir' hbelow hbelow')
  · intro caller source dest hsource hdest hgate p hp
    obtain ⟨hgatesource, hgatedest⟩ := write_gate_ok hgate
    have hchecked : is_absolute p = true ∧ write_gate_path roots caller (some p) = .ok () := by
      rcases hp with rfl | rfl
      · exact ⟨hsource p rfl, hgatesource⟩
      · exact ⟨hdest p rfl, hgatedest⟩
    obtain ⟨hroot, howner⟩ := write_gate_path_ok hchecked.2
    constructor
    · exact fun harea => hroot ((classify_path_eq_iff hconf hchecked.1 _).mpr harea)
    · exact fun owner harea => howner owner ((classify_path_eq_iff hconf hchecked.1 _).mpr harea)

/-- The users home exists and holds the directory of `ann`; the image home is yet to be made. A path
that runs through a missing directory and comes back is classified by where it ends. -/
theorem areas_isolated_small_disk :
    let disk := ((Disk.empty.add [] "srv" .dir).add ["srv"] "users" .dir).add ["srv", "users"] "ann" .dir
    let roots : Roots :=
      { fs := disk.fs [], image_home := some (ofString "/srv/pics"),
        users_home := some (ofString "/srv/users") }
    validate_path_roots roots.fs roots.image_home roots.users_home = .ok () ∧
      users_dir_for id roots " ann " = .ok (ofString "/srv/users/ann") ∧
      classify_path roots (ofString "/srv/missing/../users/ann/new/pic.jpg") = .personal "ann" := by
  intro disk roots
  have haccepted : validate_path_roots roots.fs roots.image_home roots.users_home = .ok () := by
    decide +kernel
  have hisolated := areas_isolated id disk [] roots.image_home roots.users_home
    (by decide +kernel) (by decide +kernel) haccepted
  refine ⟨haccepted, by decide +kernel, ?_⟩
  refine (hisolated.1 _ (by decide +kernel) _).mpr ?_
  exact @InArea.personal roots _ (ofString "/srv/users") "ann" (ofString "new/pic.jpg") rfl
    (by decide +kernel)
