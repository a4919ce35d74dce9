import Picasu.Error
import Picasu.Framework.Text

/-! # Account Names and New Passwords

`validate_user_id` and `validate_new_password`, the two checks every path that creates an account
goes through, and the strength policy `check_strength` behind the second one. The policy reads
three things that are not logic: whether the operator switched it off, the shipped blocklist, and
Unicode lower-casing. They are the fields of `Policy`.
-/

open Text

def minPasswordLen : Nat := 8

def maxPasswordLen : Nat := 256

/-- What the password policy depends on outside its own code. -/
structure Policy where
  /-- `trivial_passwords_enabled`: the strength checks are switched off. -/
  trivial_passwords : Bool
  /-- The lower-cased entries of the shipped `blocklist.txt`. -/
  blocklist : List String
  /-- `str::to_lowercase`. -/
  to_lowercase : String → String

/-- The strength checks on, with an empty blocklist and no case folding. -/
def Policy.plain : Policy := { trivial_passwords := false, blocklist := [], to_lowercase := id }

/-- `is_trivial_pattern`: one repeated character, or one unbroken ascending or descending run of
code points. -/
def is_trivial_pattern (lower : String) : Bool :=
  let chars := lower.toList
  let windows := chars.zip chars.tail
  match chars with
  | [] => false
  | [_] => false
  | c :: _ =>
    chars.all (fun d => d == c) ||
      windows.all (fun w => w.2.toNat == w.1.toNat + 1) ||
      windows.all (fun w => w.1.toNat == w.2.toNat + 1)

/-- `check_strength`: length bounds, blocklist, equality with the user id, trivial patterns; the
first failed rule is reported. -/
def check_strength (policy : Policy) (user_id canonical : String) : Except AppError Unit :=
  let lower := policy.to_lowercase canonical
  if charCount canonical < minPasswordLen then
    .error (.new .invalidInput "password must be at least 8 characters")
  else if maxPasswordLen < charCount canonical then
    .error (.new .invalidInput "password must be at most 256 characters")
  else if lower ∈ policy.blocklist then
    .error (.new .invalidInput "password is too common; choose a less predictable one")
  else if lower = policy.to_lowercase (trim user_id) then
    .error (.new .invalidInput "password must not match the user id")
  else if is_trivial_pattern lower then
    .error (.new .invalidInput "password is too predictable; use unrelated characters")
  else .ok ()

/-- `validate_user_id`: the trimmed id, which must have 1 to 64 bytes. -/
def validate_user_id (id : String) : Except AppError String :=
  let trimmed := trim id
  if trimmed = "" then .error (.new .invalidInput "user id must not be empty")
  else if 64 < trimmed.utf8ByteSize then
    .error (.new .invalidInput "user id must be at most 64 characters")
  else .ok trimmed

/-- `validate_new_password`: the trimmed password, if the policy accepts it. -/
def validate_new_password (policy : Policy) (user_id password : String) :
    Except AppError String :=
  let canonical := trim password
  if policy.trivial_passwords then
    if canonical = "" then .error (.new .invalidInput "password must not be empty")
    else .ok canonical
  else
    match check_strength policy user_id canonical with
    | .error e => .error e
    | .ok () => .ok canonical

/-- An accepted id is the trimmed input, and not empty. -/
theorem validate_user_id_ok {id target : String} (h : validate_user_id id = .ok target) :
    target = trim id ∧ target ≠ "" := by
  simp only [validate_user_id] at h
  split at h
  · cases h
  split at h
  · cases h
  · rename_i hne _
    cases h
    exact ⟨rfl, hne⟩
