import Picasu.Auth.RateLimit
import Picasu.Framework.Result
import Picasu.Storage.Areas

/-! # Configuration

The server reads `config.toml` at boot, lays the environment over it, and keeps the result as the
live configuration. A table says for each field whether it is set by the host (file, environment)
or at run time (API).

The file is parsed and printed by the `toml` crate, which is a parameter (`Toml`); a file is given
by its text, or is missing. Paths are texts here, since the code trims and glues them as such.
-/

open PathBuf

/-! ## Fields -/

structure AppConfig where
  address : String
  port : Nat
  data_home : Option String
  image_home : Option String
  users_home : Option String
  upload_folder : String
  max_upload_size : String
  read_only_mode : Bool
  fs_notify_watcher : Bool
  normalize_upload_filenames : Bool
  validate_upload_content : Bool
  use_client_timestamp_info : Bool
  allow_registration : Bool
  trivial_passwords : Bool
  bootstrap_admin : Bool
  trust_proxy_forwarded_for : Bool
  login_ip_window_secs : Nat
  login_ip_max_failures : Nat
  login_ip_base_ban_secs : Nat
  login_ip_max_ban_secs : Nat
  login_ip_long_window_secs : Nat
  login_ip_long_max_failures : Nat
  login_ip_long_base_ban_secs : Nat
  login_ip_long_max_ban_secs : Nat
  login_user_long_window_secs : Nat
  login_user_long_max_failures : Nat
  login_user_long_base_ban_secs : Nat
  login_user_long_max_ban_secs : Nat
  auth_key : Option String
  web_root : Option String
  deriving DecidableEq, Repr

/-- `AppConfig::default`; the schedules are the constants of `rate_limit`. -/
def AppConfig.default : AppConfig where
  address := "0.0.0.0"
  port := 5673
  data_home := none
  image_home := none
  users_home := none
  upload_folder := "uploads"
  max_upload_size := "100MiB"
  read_only_mode := false
  fs_notify_watcher := true
  normalize_upload_filenames := true
  validate_upload_content := true
  use_client_timestamp_info := false
  allow_registration := false
  trivial_passwords := false
  bootstrap_admin := false
  trust_proxy_forwarded_for := false
  login_ip_window_secs := 600
  login_ip_max_failures := 3
  login_ip_base_ban_secs := 10
  login_ip_max_ban_secs := 28800
  login_ip_long_window_secs := 86400
  login_ip_long_max_failures := 16
  login_ip_long_base_ban_secs := 1800
  login_ip_long_max_ban_secs := 28800
  login_user_long_window_secs := 86400
  login_user_long_max_failures := 18
  login_user_long_base_ban_secs := 1800
  login_user_long_max_ban_secs := 7200
  auth_key := none
  web_root := none

inductive ConfigTier where
  | host
  | runtime
  deriving DecidableEq, Repr

/-- What a field can hold. -/
inductive ConfigValue where
  | text (s : String)
  | number (n : Nat)
  | flag (b : Bool)
  | optional (s : Option String)
  deriving DecidableEq, Repr

/-- `ConfigField`, with the field of `AppConfig` that has the name. -/
structure ConfigField where
  name : String
  tier : ConfigTier
  /-- The environment variable that overrides the field at boot. -/
  env_var : Option String
  value : AppConfig → ConfigValue

def CONFIG_FIELDS : List ConfigField :=
  [⟨"address", .host, some "PICASU_ADDRESS", fun c => .text c.address⟩,
    ⟨"port", .host, some "PICASU_PORT", fun c => .number c.port⟩,
    ⟨"data_home", .host, some "PICASU_DATA_HOME", fun c => .optional c.data_home⟩,
    ⟨"image_home", .host, some "PICASU_IMAGE_HOME", fun c => .optional c.image_home⟩,
    ⟨"users_home", .host, some "PICASU_USERS_HOME", fun c => .optional c.users_home⟩,
    ⟨"upload_folder", .runtime, some "PICASU_UPLOAD_FOLDER", fun c => .text c.upload_folder⟩,
    ⟨"max_upload_size", .runtime, some "PICASU_MAX_UPLOAD_SIZE", fun c => .text c.max_upload_size⟩,
    ⟨"read_only_mode", .runtime, some "PICASU_READ_ONLY_MODE", fun c => .flag c.read_only_mode⟩,
    ⟨"fs_notify_watcher", .runtime, some "PICASU_FS_NOTIFY_WATCHER",
      fun c => .flag c.fs_notify_watcher⟩,
    ⟨"normalize_upload_filenames", .runtime, none, fun c => .flag c.normalize_upload_filenames⟩,
    ⟨"validate_upload_content", .runtime, none, fun c => .flag c.validate_upload_content⟩,
    ⟨"use_client_timestamp_info", .runtime, none, fun c => .flag c.use_client_timestamp_info⟩,
    ⟨"allow_registration", .runtime, some "PICASU_ALLOW_REGISTRATION",
      fun c => .flag c.allow_registration⟩,
    ⟨"trivial_passwords", .host, some "PICASU_TRIVIAL_PASSWORDS",
      fun c => .flag c.trivial_passwords⟩,
    ⟨"bootstrap_admin", .host, some "PICASU_BOOTSTRAP_ADMIN", fun c => .flag c.bootstrap_admin⟩,
    ⟨"trust_proxy_forwarded_for", .host, some "PICASU_TRUST_PROXY_FORWARDED_FOR",
      fun c => .flag c.trust_proxy_forwarded_for⟩,
    ⟨"login_ip_window_secs", .host, some "PICASU_LOGIN_IP_WINDOW_SECS",
      fun c => .number c.login_ip_window_secs⟩,
    ⟨"login_ip_max_failures", .host, some "PICASU_LOGIN_IP_MAX_FAILURES",
      fun c => .number c.login_ip_max_failures⟩,
    ⟨"login_ip_base_ban_secs", .host, some "PICASU_LOGIN_IP_BASE_BAN_SECS",
      fun c => .number c.login_ip_base_ban_secs⟩,
    ⟨"login_ip_max_ban_secs", .host, some "PICASU_LOGIN_IP_MAX_BAN_SECS",
      fun c => .number c.login_ip_max_ban_secs⟩,
    ⟨"login_ip_long_window_secs", .host, some "PICASU_LOGIN_IP_LONG_WINDOW_SECS",
      fun c => .number c.login_ip_long_window_secs⟩,
    ⟨"login_ip_long_max_failures", .host, some "PICASU_LOGIN_IP_LONG_MAX_FAILURES",
      fun c => .number c.login_ip_long_max_failures⟩,
    ⟨"login_ip_long_base_ban_secs", .host, some "PICASU_LOGIN_IP_LONG_BASE_BAN_SECS",
      fun c => .number c.login_ip_long_base_ban_secs⟩,
    ⟨"login_ip_long_max_ban_secs", .host, some "PICASU_LOGIN_IP_LONG_MAX_BAN_SECS",
      fun c => .number c.login_ip_long_max_ban_secs⟩,
    ⟨"login_user_long_window_secs", .host, some "PICASU_LOGIN_USER_LONG_WINDOW_SECS",
      fun c => .number c.login_user_long_window_secs⟩,
    ⟨"login_user_long_max_failures", .host, some "PICASU_LOGIN_USER_LONG_MAX_FAILURES",
      fun c => .number c.login_user_long_max_failures⟩,
    ⟨"login_user_long_base_ban_secs", .host, some "PICASU_LOGIN_USER_LONG_BASE_BAN_SECS",
      fun c => .number c.login_user_long_base_ban_secs⟩,
    ⟨"login_user_long_max_ban_secs", .host, some "PICASU_LOGIN_USER_LONG_MAX_BAN_SECS",
      fun c => .number c.login_user_long_max_ban_secs⟩,
    ⟨"auth_key", .host, some "PICASU_AUTH_KEY", fun c => .optional c.auth_key⟩,
    ⟨"web_root", .host, some "PICASU_WEB_ROOT", fun c => .optional c.web_root⟩]

/-! ## The file -/

structure TomlServer where
  address : String
  port : Nat
  max_upload_size : String
  trust_proxy_forwarded_for : Bool
  login_ip_window_secs : Nat
  login_ip_max_failures : Nat
  login_ip_base_ban_secs : Nat
  login_ip_max_ban_secs : Nat
  login_ip_long_window_secs : Nat
  login_ip_long_max_failures : Nat
  login_ip_long_base_ban_secs : Nat
  login_ip_long_max_ban_secs : Nat
  login_user_long_window_secs : Nat
  login_user_long_max_failures : Nat
  login_user_long_base_ban_secs : Nat
  login_user_long_max_ban_secs : Nat
  deriving DecidableEq, Repr

structure TomlGallery where
  data_home : Option String
  image_home : Option String
  users_home : Option String
  upload_folder : String
  read_only_mode : Bool
  fs_notify_watcher : Bool
  normalize_upload_filenames : Bool
  validate_upload_content : Bool
  use_client_timestamp_info : Bool
  allow_registration : Bool
  trivial_passwords : Bool
  bootstrap_admin : Bool
  web_root : Option String
  deriving DecidableEq, Repr

/-- `TomlFile`. The section of the secrets has no fields. -/
structure TomlFile where
  server : TomlServer
  gallery : TomlGallery
  deriving DecidableEq, Repr

/-- `AppConfig::from`, field by field: the signing key does not come from the file. -/
def AppConfig.ofToml (t : TomlFile) : AppConfig := { t.server, t.gallery with auth_key := none }

def TomlFile.ofConfig (c : AppConfig) : TomlFile where
  server := { c with }
  gallery := { c with }

/-- The `toml` crate, with the defaults of absent fields. -/
structure Toml where
  from_str : String → Option TomlFile
  /-- Fails for what the format cannot hold. -/
  to_string_pretty : TomlFile → Option String

/-- What is printed is read back. -/
def Toml.RoundTrips (toml : Toml) : Prop :=
  ∀ file text, toml.to_string_pretty file = some text → toml.from_str text = some file

/-! ## The environment -/

/-- A parsed override; an unparsable value keeps the current one. -/
def set_parse {α : Type} (get : String → Option String) (parse : String → Option α) (var : String)
    (current : α) : α :=
  ((get var).bind parse).getD current

/-- The value of a variable, trimmed, unless nothing is left of it. -/
def trimmed_var (get : String → Option String) (var : String) : Option String :=
  ((get var).map Text.trim).filter fun s => s ≠ ""

/-- A trimmed, non-empty override of an optional field. -/
def set_str (get : String → Option String) (var : String) (current : Option String) :
    Option String :=
  (trimmed_var get var).or current

/-- `str::parse::<bool>`. -/
def parse_bool (s : String) : Option Bool :=
  if s = "true" then some true else if s = "false" then some false else none

/-- `str::parse` for an unsigned integer of a width. -/
def parse_uint (bits : Nat) (s : String) : Option Nat :=
  let n := match s.toList with
    | '+' :: cs => Text.parseDigits cs
    | cs => Text.parseDigits cs
  (n.map Int.toNat).filter fun n => n < 2 ^ bits

def apply_env_overrides_with (config : AppConfig) (get : String → Option String) : AppConfig :=
  { config with
    data_home := set_str get "PICASU_DATA_HOME" config.data_home
    image_home := set_str get "PICASU_IMAGE_HOME" config.image_home
    users_home := set_str get "PICASU_USERS_HOME" config.users_home
    port := set_parse get (parse_uint 16) "PICASU_PORT" config.port
    address := (get "PICASU_ADDRESS").getD config.address
    read_only_mode := set_parse get parse_bool "PICASU_READ_ONLY_MODE" config.read_only_mode
    allow_registration :=
      set_parse get parse_bool "PICASU_ALLOW_REGISTRATION" config.allow_registration
    trivial_passwords :=
      set_parse get parse_bool "PICASU_TRIVIAL_PASSWORDS" config.trivial_passwords
    bootstrap_admin := set_parse get parse_bool "PICASU_BOOTSTRAP_ADMIN" config.bootstrap_admin
    trust_proxy_forwarded_for :=
      set_parse get parse_bool "PICASU_TRUST_PROXY_FORWARDED_FOR" config.trust_proxy_forwarded_for
    login_ip_window_secs :=
      set_parse get (parse_uint 64) "PICASU_LOGIN_IP_WINDOW_SECS" config.login_ip_window_secs
    login_ip_max_failures :=
      set_parse get (parse_uint 32) "PICASU_LOGIN_IP_MAX_FAILURES" config.login_ip_max_failures
    login_ip_base_ban_secs :=
      set_parse get (parse_uint 64) "PICASU_LOGIN_IP_BASE_BAN_SECS" config.login_ip_base_ban_secs
    login_ip_max_ban_secs :=
      set_parse get (parse_uint 64) "PICASU_LOGIN_IP_MAX_BAN_SECS" config.login_ip_max_ban_secs
    login_ip_long_window_secs :=
      set_parse get (parse_uint 64) "PICASU_LOGIN_IP_LONG_WINDOW_SECS" config.login_ip_long_window_secs
    login_ip_long_max_failures :=
      set_parse get (parse_uint 32) "PICASU_LOGIN_IP_LONG_MAX_FAILURES" config.login_ip_long_max_failures
    login_ip_long_base_ban_secs :=
      set_parse get (parse_uint 64) "PICASU_LOGIN_IP_LONG_BASE_BAN_SECS" config.login_ip_long_base_ban_secs
    login_ip_long_max_ban_secs :=
      set_parse get (parse_uint 64) "PICASU_LOGIN_IP_LONG_MAX_BAN_SECS" config.login_ip_long_max_ban_secs
    login_user_long_window_secs :=
      set_parse get (parse_uint 64) "PICASU_LOGIN_USER_LONG_WINDOW_SECS" config.login_user_long_window_secs
    login_user_long_max_failures :=
      set_parse get (parse_uint 32) "PICASU_LOGIN_USER_LONG_MAX_FAILURES" config.login_user_long_max_failures
    login_user_long_base_ban_secs :=
      set_parse get (parse_uint 64) "PICASU_LOGIN_USER_LONG_BASE_BAN_SECS" config.login_user_long_base_ban_secs
    login_user_long_max_ban_secs :=
      set_parse get (parse_uint 64) "PICASU_LOGIN_USER_LONG_MAX_BAN_SECS" config.login_user_long_max_ban_secs
    fs_notify_watcher :=
      set_parse get parse_bool "PICASU_FS_NOTIFY_WATCHER" config.fs_notify_watcher
    upload_folder := (trimmed_var get "PICASU_UPLOAD_FOLDER").getD config.upload_folder
    max_upload_size := (trimmed_var get "PICASU_MAX_UPLOAD_SIZE").getD config.max_upload_size
    auth_key :=
      if (get "PICASU_AUTH_KEY").isSome then trimmed_var get "PICASU_AUTH_KEY" else config.auth_key
    web_root := set_str get "PICASU_WEB_ROOT" config.web_root }

/-! ## Boot -/

def login_throttle_schedules (c : AppConfig) : List (String × Nat × Nat × Nat × Nat) :=
  [("login_ip_window_secs/login_ip_max_failures/login_ip_base_ban_secs/login_ip_max_ban_secs",
      c.login_ip_window_secs,
      c.login_ip_max_failures,
      c.login_ip_base_ban_secs,
      c.login_ip_max_ban_secs),
    ("login_ip_long_window_secs/login_ip_long_max_failures/login_ip_long_base_ban_secs/login_ip_long_max_ban_secs",
      c.login_ip_long_window_secs,
      c.login_ip_long_max_failures,
      c.login_ip_long_base_ban_secs,
      c.login_ip_long_max_ban_secs),
    ("login_user_long_window_secs/login_user_long_max_failures/login_user_long_base_ban_secs/login_user_long_max_ban_secs",
      c.login_user_long_window_secs,
      c.login_user_long_max_failures,
      c.login_user_long_base_ban_secs,
      c.login_user_long_max_ban_secs)]

def validate_schedule : String × Nat × Nat × Nat × Nat → Except String Unit
  | (knobs, window, max_failures, base, cap) =>
    match BucketCfg.new window max_failures base cap with
    | .ok _ => .ok ()
    | .error e => .error ("invalid login throttle config [server] " ++ knobs ++ ": " ++ e)

def validate_login_throttle (c : AppConfig) : Except String Unit :=
  (login_throttle_schedules c).forM validate_schedule

def validate_users_home (fs : Fs) (c : AppConfig) : Except String Unit :=
  if c.users_home.any fun p => Text.trim p = "" then .error "users_home must not be empty"
  else validate_path_roots fs (c.image_home.map ofString) (c.users_home.map ofString)

/-- `PathBuf::join` on texts, for a relative name. -/
def push (base name : String) : String :=
  if base = "" ∨ base.toList.getLast? = some '/' then base ++ name else base ++ "/" ++ name

/-- What the server finds when it boots. -/
structure BootEnv where
  /-- `std::env::var`. -/
  var : String → Option String
  fs : Fs
  toml : Toml
  /-- The data directory of the system, without an override. -/
  data_dir : String
  /-- `load_secret_key_from`; a failure is none. -/
  load_secret_key_from : String → Option String
  /-- Whether `config.toml` can be written. -/
  writable : Bool

/-- The file and the live configuration. -/
structure ConfigState where
  config_toml : Option String
  live : AppConfig

namespace BootEnv

variable (env : BootEnv)

def get_data_path : String := (env.var "PICASU_DATA_HOME").getD env.data_dir

/-- `AppConfig::save_update`: the text that is written. -/
def save_update (config : AppConfig) : Option String :=
  if env.writable then env.toml.to_string_pretty (.ofConfig config) else none

def first_config : AppConfig :=
  let data_home := env.get_data_path
  { AppConfig.default with
    data_home := some data_home
    image_home := some ((env.var "PICASU_IMAGE_HOME").getD (push data_home "images"))
    users_home := some ((env.var "PICASU_USERS_HOME").getD (push data_home "users"))
    web_root := some ((env.var "PICASU_WEB_ROOT").getD (push data_home "www")) }

/-- The parsed file, or the defaults. -/
def parsed (config_toml : Option String) : AppConfig :=
  ((env.toml.from_str (config_toml.getD "")).map AppConfig.ofToml).getD .default

/-- The parsed file with the stored signing key. -/
def loaded (config_toml : Option String) : AppConfig :=
  let config := env.parsed config_toml
  { config with
    auth_key := env.load_secret_key_from
      (push (push (config.data_home.getD env.get_data_path) "auth") "secrets.json") }

/-- `AppConfig::init`: the state of the server after boot. -/
def init (config_toml : Option String) : Except String ConfigState := do
  -- a first launch creates the file
  let config_toml := config_toml.or (env.save_update env.first_config)
  let config := env.loaded config_toml
  let config_toml :=
    if config = .default ∧ config_toml.isSome then (env.save_update config).or config_toml
    else config_toml
  let config := apply_env_overrides_with config env.var
  let data_home := config.data_home.getD env.get_data_path
  let backfilled := config.users_home.isNone
  let config := { config with users_home := config.users_home.or (some (push data_home "users")) }
  validate_login_throttle config
  validate_users_home env.fs config
  let config_toml := if backfilled then (env.save_update config).or config_toml else config_toml
  let config :=
    { config with
      web_root := config.web_root.or (some (push data_home "www"))
      auth_key := config.auth_key.filter fun key => key ≠ "" }
  pure { config_toml, live := config }

end BootEnv

/-! ## What boot leaves -/

theorem set_str_isSome (get : String → Option String) (var : String) {current : Option String}
    (h : current.isSome) : (set_str get var current).isSome := by
  unfold set_str
  cases trimmed_var get var with
  | none => exact h
  | some s => rfl

/-- The host tier of a configuration, without the signing key. -/
def AppConfig.host (c : AppConfig) : AppConfig :=
  { c with
    upload_folder := AppConfig.default.upload_folder
    max_upload_size := AppConfig.default.max_upload_size
    read_only_mode := AppConfig.default.read_only_mode
    fs_notify_watcher := AppConfig.default.fs_notify_watcher
    normalize_upload_filenames := AppConfig.default.normalize_upload_filenames
    validate_upload_content := AppConfig.default.validate_upload_content
    use_client_timestamp_info := AppConfig.default.use_client_timestamp_info
    allow_registration := AppConfig.default.allow_registration
    auth_key := AppConfig.default.auth_key }

/-- Two configurations have the same host tier if they agree on its fields in the table, the signing
key apart. -/
theorem host_eq_iff {c c' : AppConfig} :
    c.host = c'.host ↔ ∀ field ∈ CONFIG_FIELDS, field.tier = .host → field.name ≠ "auth_key" →
      field.value c = field.value c' := by
  simp [CONFIG_FIELDS, AppConfig.host]

/-- With a file that names the users' root, boot writes nothing, and the live configuration has the
host tier of the file under the environment, with a root of the web pages. -/
theorem init_of_users_home {env : BootEnv} {text : String} {file : TomlFile} {s : ConfigState}
    (hfile : env.toml.from_str text = some file) (husers : file.gallery.users_home.isSome)
    (h : env.init (some text) = .ok s) :
    s.config_toml = some text ∧ ∃ web_root, s.live.host =
      { (apply_env_overrides_with (.ofToml file) env.var).host with
        web_root := (set_str env.var "PICASU_WEB_ROOT" file.gallery.web_root).or (some web_root) } := by
  obtain ⟨key, hloaded⟩ : ∃ key, env.loaded (some text) =
      { AppConfig.ofToml file with auth_key := key } := by
    simp only [BootEnv.loaded, BootEnv.parsed, Option.getD_some, hfile, Option.map_some]
    exact ⟨_, rfl⟩
  have hne : { AppConfig.ofToml file with auth_key := key } ≠ AppConfig.default := by
    intro hdefault
    rw [show file.gallery.users_home = none from congrArg AppConfig.users_home hdefault] at husers
    cases husers
  obtain ⟨users_home, husers_home⟩ :=
    Option.isSome_iff_exists.mp (set_str_isSome env.var "PICASU_USERS_HOME" husers)
  have hoverlaid : (apply_env_overrides_with { AppConfig.ofToml file with auth_key := key }
      env.var).users_home = some users_home := husers_home
  simp only [BootEnv.init, Option.some_or, hloaded, hne, false_and, if_false, hoverlaid,
    Option.isNone_some, Bool.false_eq_true] at h
  obtain ⟨-, -, h⟩ := Result.bind_eq_ok.mp h
  obtain ⟨-, -, h⟩ := Result.bind_eq_ok.mp h
  obtain rfl := Result.pure_eq_ok.mp h
  refine ⟨rfl, push ((set_str env.var "PICASU_DATA_HOME" file.gallery.data_home).getD
    env.get_data_path) "www", ?_⟩
  simp only [AppConfig.host]
  rw [← husers_home]
  rfl
