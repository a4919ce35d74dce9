import Picasu.Framework.Regex

/-! # Search Literals

A search query holds tags and album names as quoted literals. `escapeAndWrap` writes one, the
lexer reads it as an `Identifier` token, and the visitor takes the text back with
`unescapeAndUnwrap`.

* `literal_round_trip`: whatever follows a literal, the lexer reads the literal as one token, and
  the token gives the text back.

The lexer is built by a library from the list of token types. It is a parameter (`FirstMatch`): at
each place the first type in the list whose pattern matches gives the token.
-/

/-- Strings of the frontend: UTF-16 code units. -/
abbrev JsString := List UInt16

namespace JsString

/-- The code units of a text in ASCII. -/
def ascii (s : String) : JsString := s.toList.map fun c => UInt16.ofNat c.toNat

/-- A quotation mark. -/
def quote : UInt16 := 0x22

def backslash : UInt16 := 0x5C

/-- `\s` of a JavaScript pattern. -/
def isSpace (c : UInt16) : Bool :=
  (0x9 ≤ c && c ≤ 0xD) || c == 0x20 || c == 0xA0 || c == 0x1680 || (0x2000 ≤ c && c ≤ 0x200A) ||
    c == 0x2028 || c == 0x2029 || c == 0x202F || c == 0x205F || c == 0x3000 || c == 0xFEFF

/-- `.` of a JavaScript pattern: no line terminator. -/
def isDot (c : UInt16) : Bool := !(c == 0xA || c == 0xD || c == 0x2028 || c == 0x2029)

end JsString

open Regex JsString

/-! ## Writing and reading a literal -/

def escapeAndWrap (str : JsString) : JsString :=
  let escaped := replace_all (one (· == quote)) [backslash, quote]
    (replace_all (one (· == backslash)) [backslash, backslash] str)
  quote :: escaped ++ [quote]

def unescapeAndUnwrap (str : JsString) : JsString :=
  let str :=
    if str.head? = some quote ∧ str.getLast? = some quote then (str.drop 1).dropLast else str
  replace_all (seq (one (· == backslash)) (one (· == backslash))) [backslash]
    (replace_all (seq (one (· == backslash)) (one (· == quote))) [quote] str)

/-! ## Tokens -/

/-- The token types, in the order of `allTokens`. -/
inductive SearchToken where
  | whiteSpace
  | openParenthesis
  | closeParenthesis
  | or
  | and
  | not
  | tag
  | type
  | ext
  | make
  | album
  | model
  | path
  | any
  | trashed
  | rootAlbum
  | parentAlbum
  | comma
  | booleanValue
  | identifier
  deriving DecidableEq, Repr

namespace SearchToken

def pattern : SearchToken → Regex UInt16
  | whiteSpace => plus (one isSpace)
  | openParenthesis => lit (ascii "(")
  | closeParenthesis => lit (ascii ")")
  | or => lit (ascii "or")
  | and => lit (ascii "and")
  | not => lit (ascii "not")
  | tag => lit (ascii "tag:")
  | type => lit (ascii "type:")
  | ext => lit (ascii "ext:")
  | make => lit (ascii "make:")
  | album => lit (ascii "album:")
  | model => lit (ascii "model:")
  | path => lit (ascii "path:")
  | any => lit (ascii "any:")
  | trashed => lit (ascii "trashed:")
  | rootAlbum => lit (ascii "root_album:")
  | parentAlbum => lit (ascii "parent_album:")
  | comma => lit (ascii ",")
  | booleanValue => alt (lit (ascii "true")) (lit (ascii "false"))
  -- "(?:\\.|[^"\\])*"
  | identifier => seq (one (· == quote)) (seq
      (star (alt (seq (one (· == backslash)) (one isDot))
        (one fun c => !(c == quote || c == backslash))))
      (one (· == quote)))

/-- White space is in the group `Lexer.SKIPPED`. -/
def skipped (t : SearchToken) : Bool := t == whiteSpace

end SearchToken

def allTokens : List SearchToken :=
  [.whiteSpace, .openParenthesis, .closeParenthesis, .or, .and, .not, .tag, .type, .ext, .make,
    .album, .model, .path, .any, .trashed, .rootAlbum, .parentAlbum, .comma, .booleanValue,
    .identifier]

structure Token where
  tokenType : SearchToken
  image : JsString
  startOffset : Nat
  deriving DecidableEq, Repr

/-- The token, if the text starts `n` characters later. -/
def Token.shift (n : Nat) (token : Token) : Token :=
  { token with startOffset := token.startOffset + n }

/-- The part of the text that a pattern matches at its start. -/
def Regex.image (r : Regex UInt16) (text : JsString) : Option JsString :=
  (r.first (Cursor.start text)).map fun c => text.take (text.length - c.rest.length)

/-- The type of the first token of a text, and its image. -/
def pick (text : JsString) : Option (SearchToken × JsString) :=
  allTokens.findSome? fun t => (t.pattern.image text).map fun image => (t, image)

/-- The tokens that come from one place. -/
def emit (t : SearchToken) (image : JsString) : List Token :=
  if t.skipped then [] else [⟨t, image, 0⟩]

/-- A lexer tries the types in the order of the list, and goes on after the first match. -/
structure FirstMatch (tokenize : JsString → List Token) : Prop where
  nil : tokenize [] = []
  token : ∀ t image rest, image ≠ [] → pick (image ++ rest) = some (t, image) →
    tokenize (image ++ rest) = emit t image ++ (tokenize rest).map (Token.shift image.length)

/-! ## The round trip -/

/-- How a code unit is written in a literal. -/
def escapeUnit (c : UInt16) : JsString :=
  if c = backslash then [backslash, backslash] else if c = quote then [backslash, quote] else [c]

/-- How it is written when only backslashes are escaped. -/
def doubleBackslash (c : UInt16) : JsString :=
  if c = backslash then [backslash, backslash] else [c]

variable (str : JsString)

theorem escapeAndWrap_eq : escapeAndWrap str = quote :: str.flatMap escapeUnit ++ [quote] := by
  unfold escapeAndWrap replace_all
  simp only [replace_from_one, List.flatMap_assoc, beq_iff_eq]
  congr 3
  funext c
  by_cases hc : c = backslash
  · rw [if_pos hc, escapeUnit, if_pos hc]
    rfl
  · rw [if_neg hc, escapeUnit, if_neg hc]
    simp

theorem flatMap_escapeUnit_head? : (str.flatMap escapeUnit).head? ≠ some quote := by
  cases str with
  | nil => simp
  | cons c str =>
    rw [List.flatMap_cons]
    unfold escapeUnit
    split_ifs with hback hquote
    · simp [backslash, quote]
    · simp [backslash, quote]
    · simpa using hquote

/-- Unescaping the quotation marks leaves the doubled backslashes. A mark is escaped by the
backslash before it; the second one of a pair of backslashes is never before a mark. -/
theorem replace_escaped_quotes (last : Option UInt16) :
    replace_from (seq (one (· == backslash)) (one (· == quote))) [quote] 0 last
      (str.flatMap escapeUnit) = str.flatMap doubleBackslash := by
  induction str generalizing last with
  | nil => rfl
  | cons c str ih =>
    rw [List.flatMap_cons, List.flatMap_cons]
    unfold escapeUnit doubleBackslash
    split_ifs with hback hquote
    · -- a pair of backslashes is kept
      have hsecond : (seq (one (· == backslash)) (one (· == quote))).first
          ⟨some backslash, backslash :: str.flatMap escapeUnit, []⟩ = none := by
        cases hrest : str.flatMap escapeUnit with
        | nil => rfl
        | cons d rest =>
          have hd : d ≠ quote := by
            intro hd
            apply flatMap_escapeUnit_head? str
            rw [hrest, hd]
            rfl
          rw [first_seq_one, if_neg (by simp [hd])]
      have hfirst : (seq (one (· == backslash)) (one (· == quote))).first
          ⟨last, backslash :: backslash :: str.flatMap escapeUnit, []⟩ = none := by
        rw [first_seq_one, if_neg (by decide)]
      show replace_from _ _ 0 last (backslash :: backslash :: str.flatMap escapeUnit) = _
      rw [replace_from_miss hfirst, replace_from_miss hsecond, ih]
      rfl
    · show replace_from _ _ 0 last (backslash :: quote :: str.flatMap escapeUnit) = _
      rw [replace_from_pair (by decide) (by decide), ih, hquote]
      rfl
    · have hfirst : (seq (one (· == backslash)) (one (· == quote))).first
          ⟨last, c :: str.flatMap escapeUnit, []⟩ = none :=
        first_seq_none (by rw [first_one, if_neg (by simpa using hback)])
      show replace_from _ _ 0 last (c :: str.flatMap escapeUnit) = _
      rw [replace_from_miss hfirst, ih]
      rfl

theorem replace_doubled_backslashes (last : Option UInt16) :
    replace_from (seq (one (· == backslash)) (one (· == backslash))) [backslash] 0 last
      (str.flatMap doubleBackslash) = str := by
  induction str generalizing last with
  | nil => rfl
  | cons c str ih =>
    rw [List.flatMap_cons]
    unfold doubleBackslash
    split_ifs with hback
    · show replace_from _ _ 0 last (backslash :: backslash :: str.flatMap doubleBackslash) = _
      rw [replace_from_pair (by decide) (by decide), ih, hback]
      rfl
    · have hfirst : (seq (one (· == backslash)) (one (· == backslash))).first
          ⟨last, c :: str.flatMap doubleBackslash, []⟩ = none :=
        first_seq_none (by rw [first_one, if_neg (by simpa using hback)])
      show replace_from _ _ 0 last (c :: str.flatMap doubleBackslash) = _
      rw [replace_from_miss hfirst, ih]

theorem unescapeAndUnwrap_escapeAndWrap : unescapeAndUnwrap (escapeAndWrap str) = str := by
  rw [escapeAndWrap_eq]
  have hwrapped : (quote :: str.flatMap escapeUnit ++ [quote]).head? = some quote ∧
      (quote :: str.flatMap escapeUnit ++ [quote]).getLast? = some quote := by
    constructor
    · rfl
    · rw [List.getLast?_append]
      rfl
  have hslice : ((quote :: str.flatMap escapeUnit ++ [quote]).drop 1).dropLast =
      str.flatMap escapeUnit := by
    show (str.flatMap escapeUnit ++ [quote]).dropLast = _
    rw [List.dropLast_concat]
  unfold unescapeAndUnwrap replace_all
  simp only [if_pos hwrapped, hslice]
  rw [replace_escaped_quotes, replace_doubled_backslashes]

/-! ## A literal is one token -/

/-- The inside of a literal: an escaped character, or any but a mark and a backslash. -/
def literalBody : Regex UInt16 :=
  alt (seq (one (· == backslash)) (one isDot)) (one fun c => !(c == quote || c == backslash))

/-- The body matches the units of an escaped one. -/
theorem first_literalBody (c : UInt16) (last : Option UInt16) (rest : JsString) :
    ∃ last', literalBody.first ⟨last, escapeUnit c ++ rest, []⟩ = some ⟨last', rest, []⟩ := by
  unfold escapeUnit
  split_ifs with hback hquote
  · refine ⟨some backslash, first_alt_left ?_⟩
    show (seq _ _).first ⟨last, backslash :: backslash :: rest, []⟩ = _
    rw [first_seq_one, if_pos (by decide)]
  · refine ⟨some quote, first_alt_left ?_⟩
    show (seq _ _).first ⟨last, backslash :: quote :: rest, []⟩ = _
    rw [first_seq_one, if_pos (by decide)]
  · refine ⟨some c, ?_⟩
    have hescape : (seq (one (· == backslash)) (one isDot)).first ⟨last, c :: rest, []⟩ = none :=
      first_seq_none (by rw [first_one, if_neg (by simpa using hback)])
    show literalBody.first ⟨last, c :: rest, []⟩ = _
    unfold literalBody
    rw [first_alt_right hescape, first_one, if_pos (by simp [hback, hquote])]

theorem length_escapeUnit_pos (c : UInt16) : 0 < (escapeUnit c).length := by
  unfold escapeUnit
  split_ifs
  · decide
  · decide
  · exact Nat.one_pos

/-- The repetition of the body reads the escaped text up to the closing mark, and stops there. -/
theorem first_star_literalBody (str rest : JsString) (last : Option UInt16) :
    ∃ last', (star literalBody).first ⟨last, str.flatMap escapeUnit ++ quote :: rest, []⟩ =
      some ⟨last', quote :: rest, []⟩ := by
  induction str generalizing last with
  | nil =>
    refine ⟨last, first_star_stop ?_⟩
    show literalBody.first ⟨last, quote :: rest, []⟩ = none
    have hescape : (seq (one (· == backslash)) (one isDot)).first ⟨last, quote :: rest, []⟩ = none :=
      first_seq_none (by rw [first_one, if_neg (by decide)])
    unfold literalBody
    rw [first_alt_right hescape, first_one, if_neg (by decide)]
  | cons c str ih =>
    obtain ⟨last₁, hbody⟩ := first_literalBody c last (str.flatMap escapeUnit ++ quote :: rest)
    obtain ⟨last', hrest⟩ := ih last₁
    refine ⟨last', ?_⟩
    rw [List.flatMap_cons, List.append_assoc]
    refine first_star_step hbody ?_ hrest
    have hpos := length_escapeUnit_pos c
    simp only [List.length_append]
    omega

theorem image_identifier (str rest : JsString) :
    SearchToken.identifier.pattern.image (escapeAndWrap str ++ rest) = some (escapeAndWrap str) := by
  obtain ⟨last', hstar⟩ := first_star_literalBody str rest (some quote)
  have hfirst : SearchToken.identifier.pattern.first (Cursor.start (escapeAndWrap str ++ rest)) =
      some ⟨some quote, rest, []⟩ := by
    have htext : escapeAndWrap str ++ rest =
        quote :: (str.flatMap escapeUnit ++ quote :: rest) := by
      rw [escapeAndWrap_eq]
      simp
    rw [htext]
    have hopen : (one (· == quote)).first
        (Cursor.start (quote :: (str.flatMap escapeUnit ++ quote :: rest))) =
          some ⟨some quote, str.flatMap escapeUnit ++ quote :: rest, []⟩ := rfl
    refine first_seq hopen (first_seq hstar ?_)
    rw [first_one, if_pos (by decide)]
  unfold Regex.image
  rw [hfirst]
  simp

/-- No other pattern matches at a quotation mark. -/
theorem image_quote {t : SearchToken} (ht : t ≠ .identifier) (rest : JsString) :
    t.pattern.image (quote :: rest) = none := by
  cases t with
  | identifier => exact absurd rfl ht
  | _ => rfl

theorem pick_escapeAndWrap (str rest : JsString) :
    pick (escapeAndWrap str ++ rest) = some (.identifier, escapeAndWrap str) := by
  have hhead : ∃ tail, escapeAndWrap str ++ rest = quote :: tail := by
    rw [escapeAndWrap_eq]
    exact ⟨_, rfl⟩
  obtain ⟨tail, htail⟩ := hhead
  have hother : ∀ t ∈ allTokens.dropLast,
      ((t.pattern.image (escapeAndWrap str ++ rest)).map fun image => (t, image)) = none := by
    intro t ht
    have hne : t ≠ .identifier := by
      rintro rfl
      revert ht
      decide
    rw [htail, image_quote hne]
    rfl
  have hsplit : allTokens = allTokens.dropLast ++ [.identifier] := rfl
  unfold pick
  rw [hsplit, List.findSome?_append, List.findSome?_eq_none_iff.mpr hother]
  simp only [Option.none_or, List.findSome?_cons, image_identifier, Option.map_some]

theorem FirstMatch.literal {tokenize : JsString → List Token} (h : FirstMatch tokenize)
    (str rest : JsString) : tokenize (escapeAndWrap str ++ rest) =
      ⟨.identifier, escapeAndWrap str, 0⟩ ::
        (tokenize rest).map (Token.shift (escapeAndWrap str).length) := by
  have hne : escapeAndWrap str ≠ [] := by
    rw [escapeAndWrap_eq]
    simp
  exact h.token _ _ rest hne (pick_escapeAndWrap str rest)

/-- The lexer reads a literal as one `Identifier` token that covers it, whatever text follows, and
the image of the token gives the text back. -/
theorem literal_round_trip {tokenize : JsString → List Token} (h : FirstMatch tokenize)
    (str rest : JsString) :
    tokenize (escapeAndWrap str ++ rest) =
        ⟨.identifier, escapeAndWrap str, 0⟩ ::
          (tokenize rest).map (Token.shift (escapeAndWrap str).length) ∧
      unescapeAndUnwrap (escapeAndWrap str) = str :=
  ⟨h.literal str rest, unescapeAndUnwrap_escapeAndWrap str⟩

/-! ## A lexer

That there is one: it drops a character where no pattern matches. -/

section Scan

variable (pick : JsString → Option (SearchToken × JsString))

/-- The tokens of a text at the offset. The first `skip` characters belong to a token already. -/
def scan (skip offset : Nat) : JsString → List Token
  | [] => []
  | a :: rest =>
    match skip with
    | skip + 1 => scan skip (offset + 1) rest
    | 0 =>
      match pick (a :: rest) with
      | some (t, image) =>
        (emit t image).map (Token.shift offset) ++ scan (image.length - 1) (offset + 1) rest
      | none => scan 0 (offset + 1) rest

theorem scan_shift (text : JsString) (skip offset n : Nat) :
    scan pick skip (offset + n) text = (scan pick skip offset text).map (Token.shift n) := by
  induction text generalizing skip offset with
  | nil => rfl
  | cons a rest ih =>
    have hnext : offset + n + 1 = offset + 1 + n := by omega
    have htwice : Token.shift (offset + n) = Token.shift n ∘ Token.shift offset := by
      funext token
      simp [Token.shift, Nat.add_assoc]
    cases skip with
    | succ skip =>
      simp only [scan]
      rw [hnext, ih]
    | zero =>
      simp only [scan]
      split
      · rw [hnext, ih, List.map_append, List.map_map, htwice]
      · rw [hnext, ih]

theorem scan_skip (image rest : JsString) (offset : Nat) :
    scan pick image.length offset (image ++ rest) = scan pick 0 (offset + image.length) rest := by
  induction image generalizing offset with
  | nil => rfl
  | cons a image ih =>
    show scan pick image.length (offset + 1) (image ++ rest) = _
    rw [ih, List.length_cons, Nat.add_assoc, Nat.add_comm 1]

variable {pick}

theorem scan_hit {t : SearchToken} {image rest : JsString} (hne : image ≠ [])
    (hpick : pick (image ++ rest) = some (t, image)) :
    scan pick 0 0 (image ++ rest) =
      emit t image ++ (scan pick 0 0 rest).map (Token.shift image.length) := by
  obtain ⟨a, image, rfl⟩ := List.exists_cons_of_ne_nil hne
  have hshift : Token.shift 0 = id := by
    funext token
    rfl
  rw [List.cons_append] at hpick ⊢
  rw [scan, hpick]
  simp only [hshift, List.map_id, List.length_cons, Nat.add_sub_cancel, Nat.zero_add]
  have hrest := scan_shift pick rest 0 0 (image.length + 1)
  rw [Nat.zero_add] at hrest
  rw [scan_skip, Nat.add_comm 1, hrest]

end Scan

theorem firstMatch_scan : FirstMatch (scan pick 0 0) where
  nil := rfl
  token _ _ _ hne hpick := scan_hit hne hpick

/-- A tag that ends with a backslash and a mark, before an operator. -/
theorem literal_round_trip_marks :
    FirstMatch (scan pick 0 0) ∧
      scan pick 0 0 (escapeAndWrap (ascii "a\\\"") ++ ascii ",not") =
        [⟨.identifier, ascii "\"a\\\\\\\"\"", 0⟩, ⟨.comma, ascii ",", 7⟩,
          ⟨.not, ascii "not", 8⟩] := by
  refine ⟨firstMatch_scan, ?_⟩
  rw [(literal_round_trip firstMatch_scan (ascii "a\\\"") (ascii ",not")).1]
  decide +kernel
