import Picasu.Framework.FileMap

/-! # Media Files

Which files the server indexes. A table lists the accepted formats; a name counts by its
extension, and a file on disk also by the format its leading bytes are recognised as.

Two functions are outside of this code and are arguments: the lower case of a text
(`str::to_lowercase`), and the recognition of content (`infer`), which answers with the usual
extension of the format.
-/

open PathBuf

inductive DetectedFormat where
  | jpeg | png | gif | webp | tiff | bmp | mp4 | mov | m4v | mkv | webm | avi | flv | wmv | mpeg
  deriving DecidableEq, Repr

inductive MediaKind where
  | image
  | video
  deriving DecidableEq, Repr

structure SupportedFormat where
  format : DetectedFormat
  detected_extension : String
  extensions : List String
  family : String
  kind : MediaKind

def SUPPORTED_FORMATS : List SupportedFormat :=
  [⟨.jpeg, "jpg", ["jpg", "jpeg", "jfif", "jpe"], "jpeg", .image⟩,
    ⟨.png, "png", ["png"], "png", .image⟩,
    ⟨.gif, "gif", ["gif"], "gif", .video⟩,
    ⟨.webp, "webp", ["webp"], "webp", .image⟩,
    ⟨.tiff, "tif", ["tif", "tiff"], "tiff", .image⟩,
    ⟨.bmp, "bmp", ["bmp"], "bmp", .image⟩,
    ⟨.mp4, "mp4", ["mp4"], "isobmff", .video⟩,
    ⟨.mov, "mov", ["mov"], "isobmff", .video⟩,
    ⟨.m4v, "m4v", ["m4v"], "isobmff", .video⟩,
    ⟨.mkv, "mkv", ["mkv"], "ebml", .video⟩,
    ⟨.webm, "webm", ["webm"], "ebml", .video⟩,
    ⟨.avi, "avi", ["avi"], "avi", .video⟩,
    ⟨.flv, "flv", ["flv"], "flv", .video⟩,
    ⟨.wmv, "wmv", ["wmv"], "wmv", .video⟩,
    ⟨.mpeg, "mpg", ["mpeg"], "mpeg", .video⟩]

def kind_for_extension (extension : String) : Option MediaKind :=
  (SUPPORTED_FORMATS.find? fun format => format.extensions.contains extension).map
    fun format => format.kind

/-- `entry`: the row of a format. -/
def entry (format : DetectedFormat) : SupportedFormat :=
  (SUPPORTED_FORMATS.find? fun candidate => candidate.format = format).getD
    ⟨format, "", [], "", .image⟩

/-- Every format has a row, so the default above is never used. -/
theorem entry_mem (format : DetectedFormat) :
    entry format ∈ SUPPORTED_FORMATS ∧ (entry format).format = format := by
  cases format <;> simp [entry, SUPPORTED_FORMATS]

inductive Detection where
  | unsupported (detected_extension : String)
  | supported (format : DetectedFormat)
  deriving DecidableEq, Repr

def classify (detected_extension : String) : Detection :=
  match SUPPORTED_FORMATS.find? fun format => format.detected_extension = detected_extension with
  | some format => .supported format.format
  | none => .unsupported detected_extension

/-- `extension_matches`: formats of one family accept each other's extensions. -/
def extension_matches (claimed : String) (detected : DetectedFormat) : Bool :=
  (entry detected).extensions.contains claimed ||
    (SUPPORTED_FORMATS.filter fun candidate => candidate.family = (entry detected).family).any
      fun candidate => candidate.extensions.contains claimed

inductive SkipReason where
  | unsupportedExtension
  | contentMismatch (detected_extension : String)
  | unrecognizedContent
  | unreadable
  deriving DecidableEq, Repr

inductive MediaOutcome where
  | index
  | skip (reason : SkipReason)
  deriving DecidableEq, Repr

section Recognise

variable (to_lowercase : String → String) (infer : ByteArray → Option String)

def media_extension (path : PathBuf) : Option String :=
  (extension path).bind fun ext =>
    (kind_for_extension (to_lowercase ext)).map fun _ => to_lowercase ext

def is_valid_media_file (path : PathBuf) : Bool := (media_extension to_lowercase path).isSome

def classify_media_file (files : FileMap ByteArray) (path : PathBuf) : MediaOutcome :=
  match media_extension to_lowercase path, files path with
  | none, _ => .skip .unsupportedExtension
  | some _, none => .skip .unreadable
  | some claimed, some bytes =>
    match (infer bytes).map classify with
    | none => .skip .unrecognizedContent
    | some (.unsupported detected_extension) => .skip (.contentMismatch detected_extension)
    | some (.supported format) =>
      if extension_matches claimed format then .index
      else .skip (.contentMismatch (entry format).detected_extension)

end Recognise

/-! ## Sidecars -/

def sidecar_of (p : PathBuf) : PathBuf := with_extension p "xmp"

/-- The paths that can be media files: they have an extension, and it is none of those that the
server gives to its own files. -/
def MediaPath (p : PathBuf) : Prop := ∃ ext, extension p = some ext ∧ ext ∉ ["", "xmp", "tmp"]

/-- The extensions of the table are in lower case already. -/
theorem mediaPath_of_valid {to_lowercase : String → String}
    (hlower : ∀ s ∈ ["", "xmp", "tmp"], to_lowercase s = s) {p : PathBuf}
    (h : is_valid_media_file to_lowercase p = true) : MediaPath p := by
  obtain ⟨ext, hmedia⟩ := Option.isSome_iff_exists.mp h
  obtain ⟨raw, hraw, hkind⟩ := Option.bind_eq_some_iff.mp hmedia
  refine ⟨raw, hraw, ?_⟩
  intro hmem
  rw [hlower raw hmem] at hkind
  have hnone : ∀ s ∈ ["", "xmp", "tmp"], kind_for_extension s = none := by decide
  rw [hnone raw hmem] at hkind
  cases hkind

variable {p q : PathBuf}

theorem extension_sidecar_of (hp : MediaPath p) : extension (sidecar_of p) = some "xmp" := by
  obtain ⟨ext, hext, -⟩ := hp
  exact extension_with_extension hext (by decide)

theorem ne_sidecar_of (hp : MediaPath p) (hq : MediaPath q) : q ≠ sidecar_of p := by
  intro heq
  obtain ⟨ext, hext, hmem⟩ := hq
  rw [heq, extension_sidecar_of hp] at hext
  obtain rfl := Option.some.inj hext
  simp at hmem

/-- A media file that is named like the sidecar of a path is that path: only paths without a file
name are their own sidecars. -/
theorem eq_of_mediaPath_sidecar_of (hp : MediaPath (sidecar_of p)) : sidecar_of p = p := by
  obtain ⟨ext, hext, hmem⟩ := hp
  cases hstem : file_stem p with
  | none =>
    unfold sidecar_of with_extension
    rw [hstem]
  | some stem =>
    exfalso
    have hname : file_name (sidecar_of p) = some (stem ++ "." ++ "xmp") :=
      file_name_with_extension hstem "xmp"
    by_cases hempty : stem = ""
    · -- a name that starts with its only dot has no extension
      subst hempty
      have hnone : rsplit_at_dot ("" ++ "." ++ "xmp").toList = none := by decide +kernel
      unfold extension at hext
      rw [hname, Option.bind_some, hnone] at hext
      cases hext
    · rw [extension_of_file_name hname hempty (by decide)] at hext
      obtain rfl := Option.some.inj hext
      simp at hmem
