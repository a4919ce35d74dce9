import Mathlib.Data.List.Basic

/-! # Album Shares

A share is a bearer link to one album: whoever presents its id (the `url`) reads the album under
the share's flags, until the share expires or is removed from the album's share list.
-/

/-- `Share`, as stored in an album's share list under its `url`. -/
structure Share where
  /-- The bearer id. -/
  url : String
  description : String
  /-- An argon2id PHC string, or a legacy plaintext value. -/
  password : Option String
  show_metadata : Bool
  show_download : Bool
  show_upload : Bool
  /-- Unix seconds; zero or less never expires. -/
  exp : Int
  /-- The user id that created the share; may be empty on old rows. -/
  created_by : String
  deriving DecidableEq, Repr

/-- `ResolvedShare`: a share together with the album it was resolved in. -/
structure ResolvedShare where
  share : Share
  album_id : String
  album_title : Option String
  deriving DecidableEq, Repr
