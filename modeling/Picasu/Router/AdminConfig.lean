import Mathlib.Data.List.Nodup
import Picasu.Model.Config

/-! # Configuration Edits

An administrator patches the runtime tier over the API, or lifts the read-only mode. Both take the
live configuration, change the named fields, and write the whole of it to `config.toml`.

The live configuration is the file under the environment, so the first edit writes what the
environment says into the file, for fields that the edit does not name (`override_written`). The
host tier of the file stays as it was exactly if the environment and the clean-up of an edit leave
it alone (`host_tier_kept_iff`).
-/

open PathBuf

/-! ## Requests -/

structure PartialUpdateConfigRequest where
  address : Option String := none
  port : Option Nat := none
  upload_folder : Option String := none
  max_upload_size : Option String := none
  read_only_mode : Option Bool := none
  fs_notify_watcher : Option Bool := none
  normalize_upload_filenames : Option Bool := none
  validate_upload_content : Option Bool := none
  use_client_timestamp_info : Option Bool := none
  allow_registration : Option Bool := none
  trivial_passwords : Option Bool := none
  bootstrap_admin : Option Bool := none
  trust_proxy_forwarded_for : Option Bool := none
  login_ip_window_secs : Option Nat := none
  login_ip_max_failures : Option Nat := none
  login_ip_base_ban_secs : Option Nat := none
  login_ip_max_ban_secs : Option Nat := none
  login_ip_long_window_secs : Option Nat := none
  login_ip_long_max_failures : Option Nat := none
  login_ip_long_base_ban_secs : Option Nat := none
  login_ip_long_max_ban_secs : Option Nat := none
  login_user_long_window_secs : Option Nat := none
  login_user_long_max_failures : Option Nat := none
  login_user_long_base_ban_secs : Option Nat := none
  login_user_long_max_ban_secs : Option Nat := none
  auth_key : Option String := none
  deriving DecidableEq, Repr

/-- `host_only_knobs`: the name of each, whether the request has it, and how it is set. -/
def host_only_knobs (req : PartialUpdateConfigRequest) : List (String × Bool × String) :=
  [("address", req.address.isSome,
      "PICASU_ADDRESS or config `server.address`"),
    ("port", req.port.isSome, "PICASU_PORT or config `server.port`"),
    ("trivialPasswords", req.trivial_passwords.isSome,
      "--trivial-passwords, PICASU_TRIVIAL_PASSWORDS, or config `gallery.trivial_passwords`"),
    ("bootstrapAdmin", req.bootstrap_admin.isSome,
      "--bootstrap-admin, PICASU_BOOTSTRAP_ADMIN, or config `gallery.bootstrap_admin`"),
    ("trustProxyForwardedFor", req.trust_proxy_forwarded_for.isSome,
      "PICASU_TRUST_PROXY_FORWARDED_FOR or config `server.trust_proxy_forwarded_for`"),
    ("loginIpWindowSecs", req.login_ip_window_secs.isSome,
      "PICASU_LOGIN_IP_WINDOW_SECS or config `server.login_ip_window_secs`"),
    ("loginIpMaxFailures", req.login_ip_max_failures.isSome,
      "PICASU_LOGIN_IP_MAX_FAILURES or config `server.login_ip_max_failures`"),
    ("loginIpBaseBanSecs", req.login_ip_base_ban_secs.isSome,
      "PICASU_LOGIN_IP_BASE_BAN_SECS or config `server.login_ip_base_ban_secs`"),
    ("loginIpMaxBanSecs", req.login_ip_max_ban_secs.isSome,
      "PICASU_LOGIN_IP_MAX_BAN_SECS or config `server.login_ip_max_ban_secs`"),
    ("loginIpLongWindowSecs", req.login_ip_long_window_secs.isSome,
      "PICASU_LOGIN_IP_LONG_WINDOW_SECS or config `server.login_ip_long_window_secs`"),
    ("loginIpLongMaxFailures", req.login_ip_long_max_failures.isSome,
      "PICASU_LOGIN_IP_LONG_MAX_FAILURES or config `server.login_ip_long_max_failures`"),
    ("loginIpLongBaseBanSecs", req.login_ip_long_base_ban_secs.isSome,
      "PICASU_LOGIN_IP_LONG_BASE_BAN_SECS or config `server.login_ip_long_base_ban_secs`"),
    ("loginIpLongMaxBanSecs", req.login_ip_long_max_ban_secs.isSome,
      "PICASU_LOGIN_IP_LONG_MAX_BAN_SECS or config `server.login_ip_long_max_ban_secs`"),
    ("loginUserLongWindowSecs", req.login_user_long_window_secs.isSome,
      "PICASU_LOGIN_USER_LONG_WINDOW_SECS or config `server.login_user_long_window_secs`"),
    ("loginUserLongMaxFailures", req.login_user_long_max_failures.isSome,
      "PICASU_LOGIN_USER_LONG_MAX_FAILURES or config `server.login_user_long_max_failures`"),
    ("loginUserLongBaseBanSecs", req.login_user_long_base_ban_secs.isSome,
      "PICASU_LOGIN_USER_LONG_BASE_BAN_SECS or config `server.login_user_long_base_ban_secs`"),
    ("loginUserLongMaxBanSecs", req.login_user_long_max_ban_secs.isSome,
      "PICASU_LOGIN_USER_LONG_MAX_BAN_SECS or config `server.login_user_long_max_ban_secs`"),
    ("authKey", req.auth_key.isSome, "rotate it with `POST /post/config/auth-key/reset`")]

/-- The fields that the request names are set. -/
def PartialUpdateConfigRequest.apply (req : PartialUpdateConfigRequest) (config : AppConfig) : AppConfig :=
  { config with
    upload_folder := req.upload_folder.getD config.upload_folder
    max_upload_size := req.max_upload_size.getD config.max_upload_size
    read_only_mode := req.read_only_mode.getD config.read_only_mode
    fs_notify_watcher := req.fs_notify_watcher.getD config.fs_notify_watcher
    normalize_upload_filenames := req.normalize_upload_filenames.getD config.normalize_upload_filenames
    validate_upload_content := req.validate_upload_content.getD config.validate_upload_content
    use_client_timestamp_info := req.use_client_timestamp_info.getD config.use_client_timestamp_info
    allow_registration := req.allow_registration.getD config.allow_registration }

structure RuntimeConfigDocument where
  upload_folder : String
  max_upload_size : String
  read_only_mode : Bool
  fs_notify_watcher : Bool
  normalize_upload_filenames : Bool
  validate_upload_content : Bool
  use_client_timestamp_info : Bool
  allow_registration : Bool
  deriving DecidableEq, Repr

/-- The runtime tier of a configuration. -/
def RuntimeConfigDocument.of (c : AppConfig) : RuntimeConfigDocument := { c with }

/-! ## An edit -/

/-- `str::trim_matches`, for a quotation mark. -/
def trim_quotes (s : String) : String :=
  String.ofList ((s.toList.dropWhile fun c => c == '"').rdropWhile fun c => c == '"')

/-- What `AppConfig::update` makes of the root of the images. -/
def clean_image_home (image_home : Option String) : Option String :=
  image_home.bind fun p =>
    let cleaned := trim_quotes (Text.trim p)
    if cleaned = "" then none else some cleaned

/-- The configuration that `AppConfig::update` saves. -/
def cleaned (config : AppConfig) : AppConfig :=
  { config with
    image_home := clean_image_home config.image_home
    upload_folder := Text.trim config.upload_folder
    auth_key := config.auth_key.filter fun key => key ≠ "" }

/-- `AppConfig::update`, where the file can be written. -/
def update (toml : Toml) (new_config : AppConfig) : Except AppError ConfigState :=
  match toml.to_string_pretty (.ofConfig (cleaned new_config)) with
  | some text => .ok { config_toml := some text, live := cleaned new_config }
  | none => .error (.new .internal "Failed to save configuration to file")

def guard_mutate (live : AppConfig) : Except AppError Unit :=
  if live.read_only_mode then .error (.new .readOnlyMode "Read-only mode is enabled") else .ok ()

/-- What `update_admin_config_handler` checks in a request. -/
def check_request (req : PartialUpdateConfigRequest) : Except AppError Unit :=
  match (host_only_knobs req).find? fun knob => knob.2.1 with
  | some (name, _, setters) =>
    .error (.new .invalidInput (name ++ " cannot be set via the API: " ++ setters))
  | none =>
    if req.upload_folder.any fun folder =>
        is_absolute (ofString folder) || (ofString folder).contains .parentDir then
      .error (.new .invalidInput "upload_folder must be a relative path without '..' components")
    else .ok ()

/-- `update_admin_config_handler`, for an administrator: the new state and the applied subset. -/
def update_admin_config_handler (toml : Toml) (req : PartialUpdateConfigRequest) (s : ConfigState) :
    Except AppError (RuntimeConfigDocument × ConfigState) := do
  guard_mutate s.live
  check_request req
  let s ← update toml (req.apply s.live)
  pure (.of s.live, s)

/-- The fields that `disable_read_only_handler` sets. -/
def lift_read_only (config : AppConfig) : AppConfig := { config with read_only_mode := false }

/-- `disable_read_only_handler`, for an administrator who has given the password again. -/
def disable_read_only_handler (toml : Toml) (s : ConfigState) : Except AppError ConfigState :=
  update toml (lift_read_only s.live)

/-- The two requests. -/
inductive ConfigEdit where
  | patch (req : PartialUpdateConfigRequest)
  | lift

/-- The state after a request that is accepted. -/
def ConfigEdit.run (toml : Toml) (s : ConfigState) : ConfigEdit → Except AppError ConfigState
  | .patch req => (update_admin_config_handler toml req s).map Prod.snd
  | .lift => disable_read_only_handler toml s

/-! ## What an edit does to the host tier -/

variable {toml : Toml} {s s' : ConfigState} {get : String → Option String} {var : String}
  {current : Option String} {edits : Nat}

theorem update_eq_ok {config : AppConfig} (h : update toml config = .ok s) :
    s.live = cleaned config ∧ ∃ text, s.config_toml = some text ∧
      toml.to_string_pretty (.ofConfig s.live) = some text := by
  unfold update at h
  split at h
  · rename_i text htext
    obtain rfl := Except.ok.inj h
    exact ⟨rfl, text, rfl, htext⟩
  · cases h

theorem update_of_handler_eq_ok {req : PartialUpdateConfigRequest}
    {result : RuntimeConfigDocument × ConfigState}
    (h : update_admin_config_handler toml req s = .ok result) :
    update toml (req.apply s.live) = .ok result.2 := by
  obtain ⟨-, -, h⟩ := Result.bind_eq_ok.mp h
  obtain ⟨-, -, h⟩ := Result.bind_eq_ok.mp h
  obtain ⟨s', hupdate, h⟩ := Result.bind_eq_ok.mp h
  obtain rfl := Result.pure_eq_ok.mp h
  exact hupdate

def ConfigEdit.apply : ConfigEdit → AppConfig → AppConfig
  | .patch req => req.apply
  | .lift => lift_read_only

/-- An accepted edit is an update of the live configuration. -/
theorem ConfigEdit.update_of_run_eq_ok {edit : ConfigEdit}
    (h : edit.run toml s = .ok s') : update toml (edit.apply s.live) = .ok s' := by
  cases edit with
  | patch req =>
    simp only [run] at h
    cases hhandler : update_admin_config_handler toml req s with
    | error e =>
      rw [hhandler] at h
      cases h
    | ok result =>
      rw [hhandler] at h
      obtain rfl := Except.ok.inj h
      exact update_of_handler_eq_ok hhandler
  | lift => exact h

theorem ConfigEdit.host_apply (edit : ConfigEdit) (c : AppConfig) :
    (edit.apply c).host = c.host := by
  cases edit with
  | patch req => rfl
  | lift => rfl

theorem host_cleaned (c : AppConfig) :
    (cleaned c).host = { c.host with image_home := clean_image_home c.host.image_home } := rfl

/-- Of the host tier, an accepted edit touches the root of the images only. -/
theorem ConfigEdit.host_of_run_eq_ok {edit : ConfigEdit} (h : edit.run toml s = .ok s') :
    s'.live.host = { s.live.host with image_home := clean_image_home s.live.host.image_home } := by
  obtain ⟨hlive, -⟩ := update_eq_ok (update_of_run_eq_ok h)
  rw [hlive, host_cleaned, host_apply]

/-- Any number of accepted edits. -/
def run_edits (toml : Toml) (s : ConfigState) (edits : List ConfigEdit) : Except AppError ConfigState :=
  edits.foldlM (ConfigEdit.run toml) s

theorem host_of_run_edits_eq_ok {edits : List ConfigEdit} (h : run_edits toml s edits = .ok s') :
    s'.live.host =
      { s.live.host with image_home := clean_image_home^[edits.length] s.live.host.image_home } := by
  induction edits generalizing s with
  | nil =>
    obtain rfl := Result.pure_eq_ok.mp h
    rfl
  | cons edit edits ih =>
    obtain ⟨s₁, hfirst, hrest⟩ := Result.bind_eq_ok.mp h
    rw [ih hrest, ConfigEdit.host_of_run_eq_ok hfirst]
    rfl

/-- After at least one accepted edit, the file is the live configuration. -/
theorem config_toml_of_run_edits {edits : List ConfigEdit}
    (h : run_edits toml s edits = .ok s') (hne : edits ≠ []) :
    ∃ text, s'.config_toml = some text ∧ toml.to_string_pretty (.ofConfig s'.live) = some text := by
  induction edits generalizing s with
  | nil => exact absurd rfl hne
  | cons edit edits ih =>
    obtain ⟨s₁, hfirst, hrest⟩ := Result.bind_eq_ok.mp h
    by_cases hnil : edits = []
    · subst hnil
      obtain rfl := Result.pure_eq_ok.mp hrest
      exact (update_eq_ok (ConfigEdit.update_of_run_eq_ok hfirst)).2
    · exact ih hrest hnil

/-! ## Cleaning the root of the images -/

/-- The length of a text, and less for none. -/
def text_size (s : Option String) : Nat := (s.map fun s => s.toList.length + 1).getD 0

theorem sublist_clean (p : String) : (trim_quotes (Text.trim p)).toList.Sublist p.toList := by
  have htrim : (Text.trim p).toList.Sublist p.toList := by
    rw [Text.toList_trim]
    exact (List.rdropWhile_prefix _ _).sublist.trans (List.dropWhile_suffix _).sublist
  have hquotes : (trim_quotes (Text.trim p)).toList.Sublist (Text.trim p).toList := by
    rw [trim_quotes, String.toList_ofList]
    exact (List.rdropWhile_prefix _ _).sublist.trans (List.dropWhile_suffix _).sublist
  exact hquotes.trans htrim

theorem size_clean_le (s : Option String) : text_size (clean_image_home s) ≤ text_size s := by
  cases s with
  | none => exact Nat.le_refl _
  | some p =>
    have hle := (sublist_clean p).length_le
    simp only [clean_image_home, Option.bind_some]
    split
    · exact Nat.zero_le _
    · exact Nat.succ_le_succ hle

/-- A clean-up that does not shorten a text changes nothing. -/
theorem clean_eq_of_size {s : Option String} (h : text_size s ≤ text_size (clean_image_home s)) :
    clean_image_home s = s := by
  cases s with
  | none => rfl
  | some p =>
    simp only [clean_image_home, Option.bind_some] at h ⊢
    split at h
    · exact absurd h (Nat.not_succ_le_zero _)
    rename_i hne
    rw [if_neg hne]
    have hsame := (sublist_clean p).eq_of_length_le (Nat.le_of_succ_le_succ h)
    exact congrArg some (String.toList_inj.mp hsame)

theorem size_clean_iterate_le (n : Nat) (s : Option String) :
    text_size (clean_image_home^[n] s) ≤ text_size s := by
  induction n generalizing s with
  | zero => exact Nat.le_refl _
  | succ n ih => exact Nat.le_trans (ih _) (size_clean_le s)

/-- What one clean-up changes, no further ones bring back. -/
theorem clean_iterate_eq_iff {n : Nat} (hn : n ≠ 0) (s : Option String) :
    clean_image_home^[n] s = s ↔ clean_image_home s = s := by
  obtain ⟨m, rfl⟩ := Nat.exists_eq_succ_of_ne_zero hn
  constructor
  · intro h
    have hle := size_clean_iterate_le m (clean_image_home s)
    rw [← Function.iterate_succ_apply, h] at hle
    exact clean_eq_of_size hle
  · intro h
    exact Function.iterate_fixed h _

/-! ## What the environment leaves alone -/

/-- A variable that is accepted says what the file says. -/
def ParsedKept {α : Type} (get : String → Option String) (parse : String → Option α) (var : String)
    (current : α) : Prop :=
  ∀ val n, get var = some val → parse val = some n → n = current

/-- A variable that is not blank says what the file says. -/
def PathKept (get : String → Option String) (var : String) (current : Option String) : Prop :=
  ∀ p, trimmed_var get var = some p → current = some p

/-- The root of the images, after some edits: what the variable says is cleaned to what the file
says, or there is no such variable and the file says something clean. -/
def ImageHomeKept (get : String → Option String) (edits : Nat) (current : Option String) : Prop :=
  (∀ p, trimmed_var get "PICASU_IMAGE_HOME" = some p → clean_image_home^[edits] (some p) = current) ∧
    (trimmed_var get "PICASU_IMAGE_HOME" = none → clean_image_home current = current)

/-- Every variable of the host tier is unset, or not accepted, or says what the file says; the root
of the images is clean; and the file names a root of the web pages. -/
@[mk_iff]
structure Harmless (get : String → Option String) (edits : Nat) (file : AppConfig) : Prop where
  address : ∀ val, get "PICASU_ADDRESS" = some val → val = file.address
  port : ParsedKept get (parse_uint 16) "PICASU_PORT" file.port
  data_home : PathKept get "PICASU_DATA_HOME" file.data_home
  image_home : ImageHomeKept get edits file.image_home
  users_home : PathKept get "PICASU_USERS_HOME" file.users_home
  trivial_passwords : ParsedKept get parse_bool "PICASU_TRIVIAL_PASSWORDS" file.trivial_passwords
  bootstrap_admin : ParsedKept get parse_bool "PICASU_BOOTSTRAP_ADMIN" file.bootstrap_admin
  trust_proxy_forwarded_for : ParsedKept get parse_bool "PICASU_TRUST_PROXY_FORWARDED_FOR" file.trust_proxy_forwarded_for
  login_ip_window_secs :
    ParsedKept get (parse_uint 64) "PICASU_LOGIN_IP_WINDOW_SECS" file.login_ip_window_secs
  login_ip_max_failures :
    ParsedKept get (parse_uint 32) "PICASU_LOGIN_IP_MAX_FAILURES" file.login_ip_max_failures
  login_ip_base_ban_secs :
    ParsedKept get (parse_uint 64) "PICASU_LOGIN_IP_BASE_BAN_SECS" file.login_ip_base_ban_secs
  login_ip_max_ban_secs :
    ParsedKept get (parse_uint 64) "PICASU_LOGIN_IP_MAX_BAN_SECS" file.login_ip_max_ban_secs
  login_ip_long_window_secs :
    ParsedKept get (parse_uint 64) "PICASU_LOGIN_IP_LONG_WINDOW_SECS" file.login_ip_long_window_secs
  login_ip_long_max_failures :
    ParsedKept get (parse_uint 32) "PICASU_LOGIN_IP_LONG_MAX_FAILURES" file.login_ip_long_max_failures
  login_ip_long_base_ban_secs :
    ParsedKept get (parse_uint 64) "PICASU_LOGIN_IP_LONG_BASE_BAN_SECS" file.login_ip_long_base_ban_secs
  login_ip_long_max_ban_secs :
    ParsedKept get (parse_uint 64) "PICASU_LOGIN_IP_LONG_MAX_BAN_SECS" file.login_ip_long_max_ban_secs
  login_user_long_window_secs :
    ParsedKept get (parse_uint 64) "PICASU_LOGIN_USER_LONG_WINDOW_SECS" file.login_user_long_window_secs
  login_user_long_max_failures :
    ParsedKept get (parse_uint 32) "PICASU_LOGIN_USER_LONG_MAX_FAILURES" file.login_user_long_max_failures
  login_user_long_base_ban_secs :
    ParsedKept get (parse_uint 64) "PICASU_LOGIN_USER_LONG_BASE_BAN_SECS" file.login_user_long_base_ban_secs
  login_user_long_max_ban_secs :
    ParsedKept get (parse_uint 64) "PICASU_LOGIN_USER_LONG_MAX_BAN_SECS" file.login_user_long_max_ban_secs
  web_root : file.web_root.isSome ∧ PathKept get "PICASU_WEB_ROOT" file.web_root

theorem set_parse_eq_iff {α : Type} {parse : String → Option α} {current : α} :
    set_parse get parse var current = current ↔ ParsedKept get parse var current := by
  unfold set_parse ParsedKept
  cases hval : (get var).bind parse with
  | none =>
    refine iff_of_true rfl fun val n hget hparse => ?_
    rw [hget, Option.bind_some, hparse] at hval
    cases hval
  | some n =>
    obtain ⟨val, hget, hparse⟩ := Option.bind_eq_some_iff.mp hval
    constructor
    · intro h val' n' hget' hparse'
      obtain rfl := Option.mem_unique hget hget'
      rw [← Option.mem_unique hparse hparse']
      exact h
    · intro h
      exact h val n hget hparse

theorem set_str_eq_iff :
    set_str get var current = current ↔ PathKept get var current := by
  unfold set_str PathKept
  cases trimmed_var get var with
  | none => simp
  | some p => simp [eq_comm]

theorem address_eq_iff {current : String} :
    (get var).getD current = current ↔ ∀ val, get var = some val → val = current := by
  cases get var with
  | none => simp
  | some val => simp

theorem web_root_eq_iff {web_root : String} :
    (set_str get var current).or (some web_root) = current ↔
      current.isSome ∧ PathKept get var current := by
  rw [← set_str_eq_iff]
  cases current with
  | none => simp
  | some p =>
    cases hset : set_str get var (some p) with
    | none => simp [set_str] at hset
    | some q => simp

theorem image_home_eq_iff (hedits : edits ≠ 0) :
    clean_image_home^[edits] (set_str get "PICASU_IMAGE_HOME" current) = current ↔
      ImageHomeKept get edits current := by
  unfold set_str ImageHomeKept
  cases trimmed_var get "PICASU_IMAGE_HOME" with
  | none => simp [clean_iterate_eq_iff hedits]
  | some p => simp

/-- The live host tier, after some edits, is that of the file exactly under this condition. -/
theorem host_eq_iff_harmless (hedits : edits ≠ 0) (file : AppConfig) (web_root : String) :
    ({ { (apply_env_overrides_with file get).host with
          web_root := (set_str get "PICASU_WEB_ROOT" file.web_root).or (some web_root) } with
        image_home :=
          clean_image_home^[edits] (set_str get "PICASU_IMAGE_HOME" file.image_home) } : AppConfig) =
      file.host ↔ Harmless get edits file := by
  rw [harmless_iff]
  simp only [AppConfig.host, apply_env_overrides_with, AppConfig.mk.injEq, set_parse_eq_iff,
    set_str_eq_iff, address_eq_iff, web_root_eq_iff, image_home_eq_iff hedits, true_and]

/-! ## The host tier of the file -/

/-- With a file that names the users' root, and after any accepted edits, the host tier of the file
is as it was exactly if there was no edit, or the environment and the clean-up leave the tier
alone. -/
theorem host_tier_kept_iff {env : BootEnv} {text : String} {file : TomlFile}
    {booted server : ConfigState} {edits : List ConfigEdit} (hround : env.toml.RoundTrips)
    (hfile : env.toml.from_str text = some file) (husers : file.gallery.users_home.isSome)
    (hinit : env.init (some text) = .ok booted)
    (hedits : run_edits env.toml booted edits = .ok server) :
    ∃ reread, server.config_toml.bind env.toml.from_str = some reread ∧
      ((∀ field ∈ CONFIG_FIELDS, field.tier = .host → field.name ≠ "auth_key" →
          field.value (.ofToml reread) = field.value (.ofToml file)) ↔
        edits = [] ∨ Harmless env.var edits.length (.ofToml file)) := by
  obtain ⟨htext, web_root, hhost⟩ := init_of_users_home hfile husers hinit
  by_cases hnil : edits = []
  · subst hnil
    obtain rfl := Result.pure_eq_ok.mp hedits
    refine ⟨file, by rw [htext, Option.bind_some, hfile], ?_⟩
    exact iff_of_true (fun _ _ _ _ => rfl) (Or.inl rfl)
  · obtain ⟨text', htext', hprinted⟩ := config_toml_of_run_edits hedits hnil
    refine ⟨.ofConfig server.live, by rw [htext', Option.bind_some, hround _ _ hprinted], ?_⟩
    have hlive := host_of_run_edits_eq_ok hedits
    rw [hhost] at hlive
    have hlength : edits.length ≠ 0 := fun h => hnil (List.length_eq_zero_iff.mp h)
    have hreread : (AppConfig.ofToml (.ofConfig server.live)).host = server.live.host := rfl
    rw [← host_eq_iff, or_iff_right hnil, ← host_eq_iff_harmless hlength _ web_root, hreread, hlive]
    rfl

/-- Without variables, a file with a clean image root and a root of the web pages is safe. -/
theorem harmless_of_no_vars {file : AppConfig}
    (hget : ∀ var, get var = none) (hclean : clean_image_home file.image_home = file.image_home)
    (hweb : file.web_root.isSome) : Harmless get edits file := by
  have hparsed : ∀ {α : Type} (parse : String → Option α) (var : String) (current : α),
      ParsedKept get parse var current := by
    intro α parse var current val n hval
    rw [hget] at hval
    cases hval
  have htrimmed : ∀ var, trimmed_var get var = none := by
    intro var
    simp [trimmed_var, hget]
  have hpath : ∀ var current, PathKept get var current := by
    intro var current p hp
    rw [htrimmed] at hp
    cases hp
  constructor
  all_goals first
    | exact hparsed _ _ _
    | exact hpath _ _
    | exact ⟨hweb, hpath _ _⟩
    | exact ⟨fun p hp => absurd (hp.symm.trans (htrimmed _)) (by simp), fun _ => hclean⟩
    | exact fun val hval => absurd (hval.symm.trans (hget _)) (by simp)

def named_roots : AppConfig :=
  { AppConfig.default with
    data_home := some "/data"
    image_home := some "/data/images"
    users_home := some "/data/users"
    web_root := some "/data/www" }

/-! ## What the crate prints -/

def quoted (s : String) : String := "\"" ++ s ++ "\""

/-- The value of a field in the file, if it needs no escapes; an absent one is not printed. -/
def print_value : ConfigValue → Option String
  | .text s => some (quoted s)
  | .number n => some (toString n)
  | .flag b => some (toString b)
  | .optional s => s.map quoted

/-- The lines of the fields at these places of the table. -/
def print_fields (file : TomlFile) (places : List Nat) : String :=
  String.join (places.filterMap fun i => (CONFIG_FIELDS[i]?).bind fun field =>
    (print_value (field.value (.ofToml file))).map fun value =>
      field.name ++ " = " ++ value ++ "\n")

def print_toml (file : TomlFile) : String :=
  "[server]\n" ++ print_fields file ([0, 1, 6] ++ List.range' 15 13) ++
    "\n[gallery]\n" ++ print_fields file ([2, 3, 4, 5] ++ List.range' 7 8 ++ [29]) ++
    "\n[secrets]\n"

/-- The crate, on these files. -/
def plain_toml (files : List TomlFile) : Toml where
  from_str text := files.find? fun file => print_toml file = text
  to_string_pretty file := if file ∈ files then some (print_toml file) else none

/-- Files with different texts are read back. -/
theorem plain_toml_roundTrips {files : List TomlFile} (h : (files.map print_toml).Nodup) :
    (plain_toml files).RoundTrips := by
  intro file text hprint
  change (if _ then _ else _) = some text at hprint
  split at hprint
  · rename_i hmem
    obtain rfl := Option.some.inj hprint
    show files.find? _ = some file
    cases hfind : files.find? (fun f => print_toml f = print_toml file) with
    | none => simpa using List.find?_eq_none.mp hfind file hmem
    | some f =>
      have hsame : print_toml f = print_toml file := by simpa using List.find?_some hfind
      rw [List.inj_on_of_nodup_map h (List.mem_of_find?_eq_some hfind) hmem hsame]
  · cases hprint

/-- The file above, the one with registration allowed, and that one with the bootstrap window
open. -/
def three_files : Toml :=
  plain_toml [.ofConfig named_roots, .ofConfig { named_roots with allow_registration := true },
    .ofConfig { named_roots with allow_registration := true, bootstrap_admin := true }]

theorem three_files_roundTrips : three_files.RoundTrips :=
  plain_toml_roundTrips (by decide +kernel)

def boot_with (var : String → Option String) : BootEnv where
  var
  fs := { canonicalize := fun _ => none, exists_ := fun _ => false }
  toml := three_files
  data_dir := "/data"
  load_secret_key_from _ := none
  writable := true

def allow_registration : ConfigEdit := .patch { allow_registration := some true }

def named_text : String := print_toml (.ofConfig named_roots)

theorem from_str_named_text : three_files.from_str named_text = some (.ofConfig named_roots) :=
  three_files_roundTrips _ _ rfl

/-- Booting with the file. -/
theorem loaded_boot_with (var : String → Option String) :
    (boot_with var).loaded (some named_text) = named_roots := by
  have hparsed : (boot_with var).parsed (some named_text) = .ofToml (.ofConfig named_roots) := by
    unfold BootEnv.parsed
    rw [Option.getD_some, show (boot_with var).toml.from_str named_text = _ from from_str_named_text]
    rfl
  unfold BootEnv.loaded
  rw [hparsed]
  rfl

/-- Without variables, the edit leaves the host tier of the file as it was. -/
theorem host_tier_kept_without_vars :
    ∃ booted server, (boot_with fun _ => none).init (some named_text) = .ok booted ∧
      run_edits three_files booted [allow_registration] = .ok server ∧
      server.config_toml =
        some (print_toml (.ofConfig { named_roots with allow_registration := true })) ∧
      ∃ reread, server.config_toml.bind three_files.from_str = some reread ∧
        ∀ field ∈ CONFIG_FIELDS, field.tier = .host → field.name ≠ "auth_key" →
          field.value (.ofToml reread) = field.value (.ofToml (.ofConfig named_roots)) := by
  have hinit : (boot_with fun _ => none).init (some named_text) =
      .ok ⟨some named_text, named_roots⟩ := by
    simp only [BootEnv.init, Option.some_or, loaded_boot_with]
    rfl
  have hedits : run_edits three_files ⟨some named_text, named_roots⟩ [allow_registration] =
      .ok ⟨some (print_toml (.ofConfig { named_roots with allow_registration := true })),
        { named_roots with allow_registration := true }⟩ := by rfl
  have hround : (boot_with fun _ => none).toml.RoundTrips := three_files_roundTrips
  refine ⟨_, _, hinit, hedits, rfl, ?_⟩
  obtain ⟨reread, hreread, hiff⟩ := host_tier_kept_iff hround from_str_named_text rfl hinit hedits
  refine ⟨reread, hreread, hiff.mpr (Or.inr (harmless_of_no_vars (fun _ => rfl) ?_ rfl))⟩
  decide +kernel

/-- The server boots with the bootstrap window open by a variable. The edit, which is about
something else, writes the window into the file. -/
theorem override_written :
    let env := boot_with fun var => if var = "PICASU_BOOTSTRAP_ADMIN" then some "true" else none
    ∃ booted server, env.init (some named_text) = .ok booted ∧
      run_edits three_files booted [allow_registration] = .ok server ∧
      (three_files.from_str named_text).map (fun file => file.gallery.bootstrap_admin) =
        some false ∧
      (server.config_toml.bind three_files.from_str).map
        (fun file => file.gallery.bootstrap_admin) = some true := by
  intro env
  let written : AppConfig := { named_roots with allow_registration := true, bootstrap_admin := true }
  have hwritten : three_files.from_str (print_toml (.ofConfig written)) = some (.ofConfig written) :=
    three_files_roundTrips _ _ rfl
  refine ⟨⟨some named_text, { named_roots with bootstrap_admin := true }⟩,
    ⟨some (print_toml (.ofConfig written)), written⟩, ?_, rfl, ?_, ?_⟩
  · simp only [BootEnv.init, Option.some_or, env, loaded_boot_with]
    rfl
  · rw [from_str_named_text]
    rfl
  · rw [Option.bind_some, hwritten]
    rfl
